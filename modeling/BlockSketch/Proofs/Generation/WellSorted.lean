import BlockSketch.Proofs.Emission.Journal
import BlockSketch.Proofs.Emission.Visits
import Mathlib.Data.List.Perm.Basic

/-!
Programs that compile. The kinds of a library are split into those that stand for values and those
that stand for statements. A validated program whose nodes hang where their kinds belong has a
sketch for every board, and no validated program fails for a node that does not exist.
-/

namespace BlockSketch

theorem SortedMap.mem_keys_iff {κ α : Type} [Ord κ] [Std.LawfulEqOrd κ] {m : SortedMap κ α}
    {k : κ} : k ∈ m.keys ↔ (m.find? k).isSome := by
  have hentries (l : List (κ × α)) : k ∈ l.map Prod.fst ↔ (lookupIn? k l).isSome := by
    induction l with
    | nil => simp [lookupIn?]
    | cons e rest ih =>
        rw [List.map_cons, List.mem_cons, lookupIn?]
        by_cases hk : k = e.1
        · simp [hk]
        · have hne : compare k e.1 ≠ .eq := fun h => hk (Std.LawfulEqOrd.eq_of_compare h)
          rw [if_neg hne, ih]
          simp [hk]
  exact hentries m.entries

namespace Registry

def isValueKind (r : Registry) (kind : String) : Bool := (r.get? kind).any (·.form.isValue)

def valueKinds (r : Registry) : List String := r.kinds.filter r.isValueKind

def statementKinds (r : Registry) : List String := r.kinds.filter (fun kind => !r.isValueKind kind)

variable {r : Registry}

theorem mem_kinds_iff {kind : String} : kind ∈ r.kinds ↔ (r.get? kind).isSome :=
  SortedMap.mem_keys_iff

theorem mem_valueKinds_iff {kind : String} : kind ∈ r.valueKinds ↔ r.isValueKind kind := by
  rw [valueKinds, List.mem_filter, mem_kinds_iff, isValueKind]
  cases r.get? kind <;> simp

theorem mem_statementKinds_iff {kind : String} :
    kind ∈ r.statementKinds ↔ (r.get? kind).isSome ∧ r.isValueKind kind = false := by
  rw [statementKinds, List.mem_filter, mem_kinds_iff, Bool.not_eq_true']

theorem isValueKind_of_get? {kind : String} {b : Block} (h : r.get? kind = some b) :
    r.isValueKind kind = b.form.isValue := by
  rw [isValueKind, h, Option.any_some]

end Registry

/-- Every kind is in the library, values hang in value sockets, and statements stand in statement
sockets and behind other nodes. At the top level either may stand. -/
structure Program.WellSorted (p : Program) (r : Registry) : Prop where
  known : ∀ n ∈ p.nodes, n.kind ∈ r.kinds
  inputs : ∀ n ∈ p.nodes, p.IsInput n.id → n.kind ∈ r.valueKinds
  steps : ∀ n ∈ p.nodes, p.IsStep n.id → n.kind ∈ r.statementKinds

theorem Program.WellSorted.not_misfit {p : Program} {r : Registry} (h : p.WellSorted r)
    {e : EmitError} : ¬Misfit r p e := by
  intro hmisfit
  cases hmisfit with
  | unknown hn hkind =>
      have hknown := Registry.mem_kinds_iff.mp (h.known _ hn)
      rw [hkind] at hknown
      cases hknown
  | input hn hplace hkind hform =>
      have hvalue := Registry.mem_valueKinds_iff.mp (h.inputs _ hn hplace)
      rw [Registry.isValueKind_of_get? hkind, hform] at hvalue
      cases hvalue
  | step hn hplace hkind hform =>
      have hstatement := (Registry.mem_statementKinds_iff.mp (h.steps _ hn hplace)).2
      rw [Registry.isValueKind_of_get? hkind, hform] at hstatement
      cases hstatement

/-- A validated program compiles as its draft turns out. -/
theorem Registry.compile_of_validate (r : Registry) {p : Program} {places : ParentIndex}
    (hvalid : p.validate = .ok places) (board : Board) (header : Bool) :
    r.compile p board header =
      (r.sketch ⟨p, places, (r.inferTypes p).map, board⟩ (r.inferTypes p).diagnostics).mapError
        CompileError.emit >>= fun s => .ok ⟨s.withHeading board header, (r.inferTypes p).map⟩ := by
  rw [compile, hvalid]
  rfl

/-- A program compiles exactly if it is valid and its journaled run ends well. -/
theorem Registry.compile_eq_ok_iff {r : Registry} {p : Program} {board : Board} {header : Bool}
    {c : Compiled} : r.compile p board header = .ok c ↔
      ∃ places body j, p.validate = .ok places ∧
        (journalProgram r.get? ⟨p, places, (r.inferTypes p).map, board⟩).run.run
          { draft := { diagnostics := (r.inferTypes p).diagnostics } } = (.ok body, j) ∧
        c = ⟨Sketch.withHeading ⟨j.draft.source body, j.draft.pins, j.draft.diagnostics⟩ board
          header, (r.inferTypes p).map⟩ := by
  cases hvalid : p.validate with
  | error e =>
      rw [compile, hvalid]
      constructor
      · intro h
        cases h
      · rintro ⟨_, _, _, hplaces, _⟩
        cases hplaces
  | ok places =>
      have herases := r.erases_journalProgram ⟨p, places, (r.inferTypes p).map, board⟩
        (r.inferTypes p).diagnostics
      rw [r.compile_of_validate hvalid, sketch, ← herases]
      constructor
      · intro h
        rcases hrun : (journalProgram r.get? ⟨p, places, (r.inferTypes p).map, board⟩).run.run
          { draft := { diagnostics := (r.inferTypes p).diagnostics } } with ⟨result, j⟩
        rw [hrun] at h
        cases result with
        | error e => cases h
        | ok body => exact ⟨places, body, j, rfl, hrun, (Except.ok.inj h).symm⟩
      · rintro ⟨_, body, j, hplaces, hrun, rfl⟩
        cases hplaces
        rw [hrun]
        rfl

/-- A validated program has a sketch, or fails for a misfit. -/
theorem Registry.compile_cases {r : Registry}
    (hr : ∀ kind b, r.get? kind = some b → b.form.ReadsOnce) {p : Program} {places : ParentIndex}
    (hvalid : p.validate = .ok places) (board : Board) (header : Bool) :
    (∃ c, r.compile p board header = .ok c) ∨
      ∃ e, r.compile p board header = .error (.emit e) ∧ Misfit r p e := by
  obtain ⟨hp, hplaces⟩ := Program.isForest_of_validate hvalid
  have hfailure (e : EmitError) := r.misfit_of_draftProgram
    (w := ⟨p, places, (r.inferTypes p).map, board⟩) hr hp hplaces (r.inferTypes p).diagnostics
    (e := e)
  rw [r.compile_of_validate hvalid, sketch]
  rcases hresult : r.draftProgram ⟨p, places, (r.inferTypes p).map, board⟩
    (r.inferTypes p).diagnostics with ⟨result, d⟩
  cases result with
  | ok body => exact .inl ⟨_, rfl⟩
  | error e => exact .inr ⟨e, rfl, hfailure e (by rw [hresult])⟩

/-- The standard kinds are split into values and statements, and a validated program that keeps to
the split compiles for every board, with or without a heading. No validated program fails for a node
that does not exist. -/
theorem wellSorted_program_compiles {p : Program} {places : ParentIndex}
    (hvalid : p.validate = .ok places) :
    (Registry.standard.valueKinds ++ Registry.standard.statementKinds).Perm
        Registry.standard.kinds ∧
      Registry.standard.valueKinds.Disjoint Registry.standard.statementKinds ∧
      (p.WellSorted Registry.standard → ∀ board header,
        ∃ c, Registry.standard.compile p board header = .ok c) ∧
      ∀ board header id,
        Registry.standard.compile p board header ≠ .error (.emit (.danglingNode id)) := by
  have hcases := Registry.compile_cases Registry.standard_readsOnce hvalid
  refine ⟨List.filter_append_perm _ _, ?_, ?_, ?_⟩
  · intro kind hvalue hstatement
    rw [Registry.mem_valueKinds_iff] at hvalue
    rw [Registry.mem_statementKinds_iff, hvalue] at hstatement
    cases hstatement.2
  · intro hsorted board header
    rcases hcases board header with h | ⟨e, -, he⟩
    · exact h
    · exact absurd he hsorted.not_misfit
  · intro board header id hdangling
    rcases hcases board header with ⟨c, h⟩ | ⟨e, h, he⟩
    · rw [h] at hdangling
      cases hdangling
    · rw [h] at hdangling
      cases hdangling
      cases he

theorem nestedSample_compiles :
    (∃ places, nestedSample.validate = .ok places) ∧ nestedSample.WellSorted Registry.standard ∧
      ∃ c, Registry.standard.compile nestedSample .uno true = .ok c := by
  have hsorted : nestedSample.WellSorted Registry.standard := by
    constructor <;>
      simp only [Registry.mem_kinds_iff, Registry.mem_valueKinds_iff,
        Registry.mem_statementKinds_iff, Registry.isValueKind, Registry.standard,
        Registry.get?_ofList, Program.IsInput, Program.IsStep] <;>
      decide
  exact ⟨⟨_, rfl⟩, hsorted,
    (wellSorted_program_compiles (p := nestedSample) rfl).2.2.1 hsorted .uno true⟩

end BlockSketch
