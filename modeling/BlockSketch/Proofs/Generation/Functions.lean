import BlockSketch.Proofs.Generation.Accounts
import BlockSketch.Proofs.Generation.WellSorted

/-!
The functions of a sketch. Each of them is defined once, and every call of a helper goes to the
function that the helper was defined as. The identifiers of helpers are new and those of procedures
belong to names of the user, so that they never meet.
-/

namespace BlockSketch

open Block Identifier

/-! ### Identifiers of functions -/

/-- What an entry of the functions defines: a procedure under the key of its identifier, or a helper
under the name that it is asked for. -/
def DefinesFunction (w : Workspace) (told : List Entry) (e : String × String) (f : String) : Prop :=
  e.1 = procedureKey f ∧ DefinesProcedure w told f e.2 ∨
    ∃ text, StandardHelper w e.1 text ∧ .edited (.helper e.1 text) f ∈ told ∧ e.2 = text f

namespace Journal.Accounts

variable {w : Workspace} {j : Journal} {e e' : String × String} {f g : String}

theorem exists_defines (h : j.Accounts w) (he : e ∈ j.draft.functions.entries) :
    ∃ f, DefinesFunction w j.entries e f := by
  have hget := (Bucket.get?_eq_some_iff h.keys).mpr he
  rw [h.functions, Option.or_eq_some_iff] at hget
  rcases hget with hplaced | ⟨-, hhelped⟩
  · obtain ⟨overwrite, stored, hmem⟩ := exists_of_lastPlaced? hplaced
    obtain ⟨-, f, hkey, hdefines⟩ := h.proper _ stored hmem rfl
    exact ⟨f, .inl ⟨hkey, hdefines⟩⟩
  · obtain ⟨text, f, hmem, heq⟩ := exists_of_firstHelped? hhelped
    exact ⟨f, .inr ⟨text, h.proper (.helper e.1 text) f hmem, hmem, heq⟩⟩

/-- An identifier that was handed out for the functions. -/
theorem exists_answer {past : List Answer} (h : j.Accounts w) (hpast : Remembers past j)
    (hf : DefinesFunction w j.entries e f) :
    ∃ a ∈ past, a.call.ns = .procedure ∧ a.identifier = f ∧
      (a.call.key? = none ∧ a.call.name = e.1 ∨ a.call.key? ≠ none ∧ e.1 = procedureKey f) := by
  rcases hf with ⟨hkey, n, -, -, hasked, -⟩ | ⟨text, -, hmem, -⟩
  · obtain ⟨a, ha, hcall, heq⟩ := hpast.named _ _ _ hasked
    exact ⟨a, ha, by rw [hcall]; rfl, heq, .inr ⟨by simp [hcall, Call.key?], hkey⟩⟩
  · obtain ⟨a, ha, hcall, heq⟩ := hpast.helped _ _ (h.asked _ _ _ hmem)
    exact ⟨a, ha, by rw [hcall]; rfl, heq, .inl ⟨by rw [hcall]; rfl, by rw [hcall]; rfl⟩⟩

theorem legal (h : j.Accounts w) (hf : DefinesFunction w j.entries e f) :
    IsLegal f ∧ f ∉ reservedWords := by
  obtain ⟨past, hpast⟩ := h.names
  obtain ⟨a, ha, -, rfl, -⟩ := h.exists_answer hpast hf
  exact hpast.records.legal a ha

theorem functionText (h : j.Accounts w) (hf : DefinesFunction w j.entries e f) :
    FunctionText f e.2 := by
  rcases hf with ⟨-, n, -, -, -, htext⟩ | ⟨text, hhelper, -, heq⟩
  · refine htext.functionText fun name ns x hx => ?_
    obtain ⟨past, hpast⟩ := h.names
    obtain ⟨a, ha, -, rfl⟩ := hpast.named name ns x hx
    exact (hpast.records.legal a ha).1
  · exact heq ▸ hhelper.functionText f

/-- An entry defines one function. -/
theorem defines_unique (h : j.Accounts w) (hf : DefinesFunction w j.entries e f)
    (hg : DefinesFunction w j.entries e g) : f = g := by
  rcases hf with ⟨hkey, -⟩ | ⟨text, hhelper, hmem, -⟩ <;>
    rcases hg with ⟨hkey', -⟩ | ⟨text', hhelper', hmem', -⟩
  · rwa [hkey, procedureKey, procedureKey, String.append_right_inj] at hkey'
  · exact absurd hkey (hhelper'.ne_procedureKey f)
  · exact absurd hkey' (hhelper.ne_procedureKey g)
  · have hfind := h.asked _ _ _ hmem
    rw [h.asked _ _ _ hmem'] at hfind
    exact (Option.some.inj hfind).symm

/-- No two entries define the same identifier: of those told in the namespace of functions, the
identifier of a name differs from that of every helper, and those of two helpers differ. -/
theorem defines_injective (h : j.Accounts w) (he : e ∈ j.draft.functions.entries)
    (he' : e' ∈ j.draft.functions.entries) (hf : DefinesFunction w j.entries e f)
    (hf' : DefinesFunction w j.entries e' f) : e = e' := by
  obtain ⟨past, hpast⟩ := h.names
  obtain ⟨a, ha, hns, hid, hcase⟩ := h.exists_answer hpast hf
  obtain ⟨b, hb, hns', hid', hcase'⟩ := h.exists_answer hpast hf'
  have hkeys : e.1 = e'.1 := by
    rcases hcase with ⟨hnone, hname⟩ | ⟨hsome, hkey⟩ <;>
      rcases hcase' with ⟨hnone', hname'⟩ | ⟨hsome', hkey'⟩
    · have hone : a = b := hpast.records.chosen_unique ha hb (hpast.fresh a ha hnone)
        (hpast.fresh b hb hnone') (hns.trans hns'.symm) (hid.trans hid'.symm)
      rw [← hname, ← hname', hone]
    · obtain ⟨key, hkey⟩ := Option.ne_none_iff_exists'.mp hsome'
      exact absurd (hid'.trans hid.symm) (hpast.records.identifier_ne_of_fresh hb ha
        (hns'.trans hns.symm) hkey hnone (hpast.fresh a ha hnone))
    · obtain ⟨key, hkey⟩ := Option.ne_none_iff_exists'.mp hsome
      exact absurd (hid.trans hid'.symm) (hpast.records.identifier_ne_of_fresh ha hb
        (hns.trans hns'.symm) hkey hnone' (hpast.fresh b hb hnone'))
    · rw [hkey, hkey']
  exact List.inj_on_of_nodup_map h.keys he he' hkeys

/-- A helper that was asked for is defined, under the identifier that was told. -/
theorem exists_of_helped (h : j.Accounts w) {name : String} {body : String → String}
    (hmem : .edited (.helper name body) f ∈ j.entries) :
    ∃ text, (name, text) ∈ j.draft.functions.entries ∧
      DefinesFunction w j.entries (name, text) f := by
  obtain ⟨text, hmem', hhelper, hget⟩ := h.get?_of_helped hmem
  exact ⟨text f, (Bucket.get?_eq_some_iff h.keys).mp hget, .inr ⟨text, hhelper, hmem', rfl⟩⟩

/-- Under no key was both a procedure placed and a helper asked for. -/
theorem placed_or_helped (h : j.Accounts w) (key : String) :
    lastPlaced? j.entries key = none ∨ firstHelped? j.entries key = none := by
  cases hhelped : firstHelped? j.entries key with
  | none => exact .inr rfl
  | some text =>
      obtain ⟨body, f, hmem, -⟩ := exists_of_firstHelped? hhelped
      exact .inl (h.lastPlaced?_eq_none (h.proper (.helper key body) f hmem))

end Journal.Accounts

/-- In every program that compiles, each entry of the functions defines one function, and no two
entries the same one: a procedure of the user under the key of its identifier, or a helper under the
name that it is asked for. The identifiers are legal and not reserved. Under the key of a procedure
stands its last definition, under the name of a helper the text that it was asked for first, and no
key is both. Every identifier told for a helper is defined by the entry of that helper, and every
node whose code calls a helper calls it by such an identifier. -/
theorem functions_defined_once {p : Program} {board : Board} {header : Bool} {c : Compiled}
    (h : Registry.standard.compile p board header = .ok c) :
    ∃ places body j, p.validate = .ok places ∧
      let w : Workspace := ⟨p, places, c.types, board⟩
      let functions := j.draft.sections.functions
      (journalProgram Registry.standard.get? w).run.run
          { draft := { diagnostics := (Registry.standard.inferTypes p).diagnostics } } =
        (.ok body, j) ∧
      c.sketch = (⟨j.draft.source body, j.draft.pins, j.draft.diagnostics⟩ : Sketch).withHeading
        board header ∧
      (functions.entries.map Prod.fst).Nodup ∧
      (∀ e ∈ functions.entries, ∃! f, DefinesFunction w j.entries e f) ∧
      (∀ e ∈ functions.entries, ∀ f, DefinesFunction w j.entries e f →
        FunctionText f e.2 ∧ IsLegal f ∧ f ∉ reservedWords ∧ f ≠ "setup" ∧ f ≠ "loop" ∧
          ∀ e' ∈ functions.entries, DefinesFunction w j.entries e' f → e' = e) ∧
      (∀ key, functions.get? key = (lastPlaced? j.entries key).or (firstHelped? j.entries key) ∧
        (lastPlaced? j.entries key = none ∨ firstHelped? j.entries key = none)) ∧
      (∀ name body (f : String), .edited (.helper name body) f ∈ j.entries →
        ∃ text, (name, text) ∈ functions.entries ∧ DefinesFunction w j.entries (name, text) f) ∧
      ∀ n code name, .coded n code ∈ j.entries → calledHelper? w n = some name →
        ∃ f text, code.IsCall f ∧ (name, text) ∈ functions.entries ∧
          DefinesFunction w j.entries (name, text) f := by
  obtain ⟨places, body, j, hvalid, hrun, rfl⟩ := Registry.compile_eq_ok_iff.mp h
  have haccounts := Registry.accounts_journalProgram hrun
  refine ⟨places, body, j, hvalid, hrun, rfl, haccounts.keys, ?_, ?_, ?_,
    fun _ _ _ => haccounts.exists_of_helped, ?_⟩
  · intro e he
    obtain ⟨f, hf⟩ := haccounts.exists_defines he
    exact ⟨f, hf, fun g hg => haccounts.defines_unique hg hf⟩
  · intro e he f hf
    obtain ⟨hlegal, hunreserved⟩ := haccounts.legal hf
    refine ⟨haccounts.functionText hf, hlegal, hunreserved, ?_, ?_, ?_⟩
    · rintro rfl
      exact hunreserved (by decide)
    · rintro rfl
      exact hunreserved (by decide)
    · exact fun e' he' hf' => haccounts.defines_injective he' he hf' hf
  · exact fun key => ⟨haccounts.functions key, haccounts.placed_or_helped key⟩
  · intro n code name hcoded hname
    obtain ⟨_, f, hasked, hcall⟩ := haccounts.coded n code hcoded name hname
    obtain ⟨text, hmem, hdefines⟩ := haccounts.exists_of_helped hasked
    exact ⟨f, text, hcall, hmem, hdefines⟩

/-- A procedure that the user calls `mathIsPrime`, and a pause that depends on whether a number is
prime. -/
def primeSample : Program where
  nodes :=
    [{ id := ⟨1⟩, kind := "procedures_defnoreturn", fields := .ofList [("NAME", "mathIsPrime")] },
      { id := ⟨2⟩, kind := "base_delay", values := [{ name := "DELAY_TIME", child := some ⟨3⟩ }] },
      { id := ⟨3⟩, kind := "math_number_property", fields := .ofList [("PROPERTY", "PRIME")] }]
  topLevel := [⟨1⟩, ⟨2⟩]

theorem primeSample_functions_defined_once :
    ∃ c places body j, Registry.standard.compile primeSample .uno false = .ok c ∧
      (journalProgram Registry.standard.get? ⟨primeSample, places, c.types, .uno⟩).run.run
          { draft := { diagnostics := (Registry.standard.inferTypes primeSample).diagnostics } } =
        (.ok body, j) ∧
      j.draft.sections.functions.entries =
        [("%mathIsPrime", "void mathIsPrime() \x7b\n\x7d"),
          ("mathIsPrime", Arithmetic.primeTest "mathIsPrime2")] ∧
      ∃ f, (Code.value ⟨"mathIsPrime2(0)", .call⟩).IsCall f ∧
        DefinesFunction ⟨primeSample, places, c.types, .uno⟩ j.entries
          ("mathIsPrime", Arithmetic.primeTest "mathIsPrime2") f := by
  have hcompiles : ∃ c, Registry.standard.compile primeSample .uno false = .ok c := by
    simp only [Registry.compile_eq_ok_iff, Registry.get?_standard]
    exact ⟨_, _, _, _, rfl, rfl, rfl⟩
  obtain ⟨c, hc⟩ := hcompiles
  obtain ⟨places, body, j, -, hrun, -, -, -, -, -, -, hcalls⟩ := functions_defined_once hc
  have hfunctions : j.draft.sections.functions.entries =
      [("%mathIsPrime", "void mathIsPrime() \x7b\n\x7d"),
        ("mathIsPrime", Arithmetic.primeTest "mathIsPrime2")] := by
    have h := congrArg (·.2.draft.sections.functions.entries) hrun
    rw [Registry.get?_standard] at h
    exact h.symm
  have hcoded : .coded (primeSample.nodes.getD 2 default) (.value ⟨"mathIsPrime2(0)", .call⟩) ∈
      j.entries := by
    have h := congrArg (·.2.entries[5]?) hrun
    rw [Registry.get?_standard] at h
    exact List.mem_of_getElem? h.symm
  obtain ⟨f, text, hcall, hmem, hdefines⟩ := hcalls _ _ "mathIsPrime" hcoded rfl
  rw [hfunctions] at hmem
  obtain rfl : text = Arithmetic.primeTest "mathIsPrime2" := by simpa using hmem
  exact ⟨c, places, body, j, hc, hrun, hfunctions, f, hcall, hdefines⟩

end BlockSketch
