import BlockSketch.Proofs.Emission.Paired
import BlockSketch.Proofs.Generation.Functions
import BlockSketch.Proofs.Inference.Mismatch

/-!
Messages stay apart from code. Emission starts with the messages that the search for types has left,
and adds its own. What it starts with decides nothing about the sketch, and none of its own messages
goes into a slot for the type of a variable, so that what the search has found is still there at the
end.
-/

namespace BlockSketch

/-! ### What the search for types says -/

/-- All messages of a table are warnings about the types of variables, in the slots for them. -/
def Diagnostics.OnlyMismatches (ds : Diagnostics) : Prop :=
  ∀ node slot d, ds.get? node slot = some d →
    ∃ name, slot = Inference.slot name ∧ d.severity = .warning ∧
      d.code = some Diagnostic.typeMismatch

namespace Inference

variable {s s' : Inference} {t : DataType} {node : NodeId} {name : String}

theorem onlyMismatches_clear {ds : Diagnostics} (h : ds.OnlyMismatches) (slot : String) :
    (ds.clear node slot).OnlyMismatches := by
  intro node' slot' d hd
  rw [Diagnostics.get?_clear] at hd
  split at hd
  · cases hd
  · exact h node' slot' d hd

theorem onlyMismatches_compareTypes (h : s.diagnostics.OnlyMismatches) (old new : DataType) :
    (s.compareTypes node name old new).diagnostics.OnlyMismatches := by
  rw [compareTypes]
  split
  · intro node' slot' d hd
    rw [Diagnostics.get?_set] at hd
    split at hd
    next heq =>
        obtain rfl := Option.some.inj hd
        exact ⟨name, heq.2, rfl, rfl⟩
    next => exact h node' slot' d hd
  · exact onlyMismatches_clear h _

theorem onlyMismatches_enter (h : s.diagnostics.OnlyMismatches) :
    (s.enter node name).diagnostics.OnlyMismatches := by
  rw [enter]
  cases s.known? name with
  | none => exact onlyMismatches_clear h _
  | some old => exact onlyMismatches_compareTypes h old _

theorem Serves.onlyMismatches {todo : List (String × NodeId)} (hserves : Serves t todo s s')
    (h : s.diagnostics.OnlyMismatches) : s'.diagnostics.OnlyMismatches := by
  induction hserves with
  | done s => exact h
  | compared hknown _ ih => exact ih (onlyMismatches_compareTypes h _ _)
  | learned hknown _ ih => exact ih (onlyMismatches_clear h _)

theorem onlyMismatches_apply (h : s.diagnostics.OnlyMismatches) (node : NodeId) (m : Mention) :
    (s.apply node m).diagnostics.OnlyMismatches := by
  obtain ⟨s', isNew, happly, hcases⟩ := s.apply_cases node m
  rw [happly, diagnostics_learnElement]
  rcases hcases with ⟨source, -, -, -, rfl⟩ | ⟨-, -, rfl⟩ | ⟨-, hserves⟩
  · exact onlyMismatches_enter (s := s.await source m.name node) h
  · exact onlyMismatches_enter h
  · exact hserves.onlyMismatches h

theorem onlyMismatches_run (probe : Probe) (mentions? : String → Option MentionTyping) :
    (run probe mentions? .empty).diagnostics.OnlyMismatches :=
  foldl_apply_induction (I := fun _ s => s.diagnostics.OnlyMismatches)
    (fun _ _ node m h => onlyMismatches_apply h node m) (h := []) (mentions probe mentions?)
    (fun _ _ _ hd => nomatch hd)

end Inference

/-! ### What emission says -/

def Diagnostics.AgreeOnTypes (ds ds' : Diagnostics) : Prop :=
  ∀ node name, ds'.get? node (Inference.slot name) = ds.get? node (Inference.slot name)

/-- Only the slots for types start with this letter. -/
theorem Inference.head?_slot (name : String) : (slot name).toList.head? = some 'v' := by
  simp [slot]

theorem Concern.slot_ne_slot (c : Concern) (name : String) : Inference.slot name ≠ c.slot := by
  intro h
  have hhead := Inference.head?_slot name
  rw [h] at hhead
  cases c <;> simp [slot] at hhead

theorem PinTable.slot_ne_slot (pin name : String) : Inference.slot name ≠ PinTable.slot pin := by
  intro h
  have hhead := Inference.head?_slot name
  rw [h] at hhead
  simp [slot] at hhead

namespace Diagnostics.AgreeOnTypes

variable {ds ds' : Diagnostics}

theorem refl (ds : Diagnostics) : ds.AgreeOnTypes ds := fun _ _ => rfl

theorem trans {ds'' : Diagnostics} (h : ds.AgreeOnTypes ds') (h' : ds'.AgreeOnTypes ds'') :
    ds.AgreeOnTypes ds'' :=
  fun node name => (h' node name).trans (h node name)

theorem set {slot : String} (hslot : ∀ name, Inference.slot name ≠ slot) (ds : Diagnostics)
    (node : NodeId) (d : Diagnostic) : ds.AgreeOnTypes (ds.set node slot d) := by
  intro node' name
  rw [get?_set, if_neg fun h => hslot name h.2]

theorem clear {slot : String} (hslot : ∀ name, Inference.slot name ≠ slot) (ds : Diagnostics)
    (node : NodeId) : ds.AgreeOnTypes (ds.clear node slot) := by
  intro node' name
  rw [get?_clear, if_neg fun h => hslot name h.2]

end Diagnostics.AgreeOnTypes

namespace Draft

/-- An edit does to a draft with other messages what it does to the draft, up to the messages, and
leaves alone what is said about the types of variables. -/
theorem apply_withDiagnostics (d : Draft) (ds : Diagnostics) (e : Edit) :
    ∃ ds', { d with diagnostics := ds }.apply e =
        ((d.apply e).1, { (d.apply e).2 with diagnostics := ds' }) ∧ ds.AgreeOnTypes ds' := by
  cases e with
  | place sec key text overwrite => exact ⟨ds, rfl, .refl ds⟩
  | helper name body =>
      refine ⟨ds, ?_, .refl ds⟩
      simp only [apply, helper]
      cases d.helpers.find? name <;> rfl
  | identifier name ns => exact ⟨ds, rfl, .refl ds⟩
  | freshVariable name => exact ⟨ds, rfl, .refl ds⟩
  | claim node pin usage label =>
      have hslot := fun name => PinTable.slot_ne_slot pin name
      simp only [apply, claim, PinTable.reserve]
      cases d.pins.owner? pin with
      | none => exact ⟨_, rfl, .clear hslot ds node⟩
      | some owner =>
          by_cases howner : owner.node = node
          · simp only [howner, if_true]
            exact ⟨_, rfl, .clear hslot ds node⟩
          · simp only [howner, if_false]
            exact ⟨_, rfl, .set hslot ds node _⟩
  | report node concern message =>
      cases message with
      | none => exact ⟨_, rfl, .clear concern.slot_ne_slot ds node⟩
      | some m => exact ⟨_, rfl, .set concern.slot_ne_slot ds node m⟩

/-- Two drafts with the same code, whose messages say about the types of variables what two tables
say. -/
structure SameCode (ds ds' : Diagnostics) (d d' : Draft) : Prop where
  code : d' = { d with diagnostics := d'.diagnostics }
  left : ds.AgreeOnTypes d.diagnostics
  right : ds'.AgreeOnTypes d'.diagnostics

theorem congruent_sameCode (ds ds' : Diagnostics) : Congruent (SameCode ds ds') := by
  intro d d' e h
  obtain ⟨messages, happly, hagree⟩ := d.apply_withDiagnostics d.diagnostics e
  obtain ⟨messages', happly', hagree'⟩ := d.apply_withDiagnostics d'.diagnostics e
  rw [← h.code] at happly'
  have hmessages : (d.apply e).2.diagnostics = messages :=
    congrArg (fun r => r.2.diagnostics) happly
  refine ⟨by rw [happly'], ⟨by rw [happly'], ?_, ?_⟩⟩
  · rw [hmessages]
    exact h.left.trans hagree
  · rw [happly']
    exact h.right.trans hagree'

end Draft

/-- The code of a sketch: its text and its claims of pins. -/
def Sketch.code (s : Sketch) : String × PinTable := (s.source, s.pins)

theorem Form.sameAt_self (f : Form) (w : Workspace) (n : Node) : f.SameAt w w n := by
  cases f <;> rfl

/-- Two runs that start with different messages give the same code or fail alike, and each keeps
what it started with about the types of variables. -/
theorem Registry.paired_sketch (r : Registry) (w : Workspace) (ds ds' : Diagnostics) :
    (r.sketch w ds).map Sketch.code = (r.sketch w ds').map Sketch.code ∧
      ∀ s, r.sketch w ds = .ok s → ds.AgreeOnTypes s.diagnostics := by
  have hstart : Draft.SameCode ds ds' { diagnostics := ds } { diagnostics := ds' } :=
    ⟨rfl, .refl ds, .refl ds'⟩
  obtain ⟨hresult, hsame⟩ := r.paired_draftProgram (Draft.congruent_sameCode ds ds')
    (Program.Alike.refl w.program) (fun _ b _ n => b.form.sameAt_self w n) hstart
  change (r.draftProgram w ds).1 = (r.draftProgram w ds').1 at hresult
  change Draft.SameCode ds ds' (r.draftProgram w ds).2 (r.draftProgram w ds').2 at hsame
  rw [sketch, sketch]
  generalize r.draftProgram w ds = first, r.draftProgram w ds' = second at hresult hsame
  rcases first with ⟨result, d⟩
  rcases second with ⟨result', d'⟩
  obtain rfl : result = result' := hresult
  cases result with
  | error e => exact ⟨rfl, fun s hs => by cases hs⟩
  | ok body =>
      have hcode : d' = { d with diagnostics := d'.diagnostics } := hsame.code
      constructor
      · change Except.ok (d.source body, d.pins) = Except.ok (d'.source body, d'.pins)
        rw [hcode]
        rfl
      · intro s hs
        obtain rfl := Except.ok.inj hs
        exact hsame.left

@[simp] theorem Sketch.diagnostics_withHeading (s : Sketch) (board : Board) (wanted : Bool) :
    (s.withHeading board wanted).diagnostics = s.diagnostics := by
  cases wanted <;> rfl

/-- A compiled program has a sketch that starts with what the search for types says. -/
theorem Registry.exists_sketch_of_compile {r : Registry} {p : Program} {board : Board}
    {header : Bool} {c : Compiled} (h : r.compile p board header = .ok c) :
    ∃ places s, r.sketch ⟨p, places, (r.inferTypes p).map, board⟩ (r.inferTypes p).diagnostics =
      .ok s ∧ c.sketch = s.withHeading board header := by
  cases hvalid : p.validate with
  | error e =>
      rw [compile, hvalid] at h
      cases h
  | ok places =>
      rw [r.compile_of_validate hvalid] at h
      cases hs : r.sketch ⟨p, places, (r.inferTypes p).map, board⟩
        (r.inferTypes p).diagnostics with
      | error e =>
          rw [hs] at h
          cases h
      | ok s =>
          rw [hs] at h
          exact ⟨places, s, hs, congrArg Compiled.sketch (Except.ok.inj h).symm⟩

/-- Whatever messages emission starts with, it gives the same text and the same claims of pins, or
fails in the same way. In the slots for the types of variables it leaves exactly what it has found
there. So a compiled program has there what the search for types says, and the search says nothing
elsewhere: each of its warnings is still in its slot, as it was. -/
theorem messages_stay_apart_from_code (r : Registry) :
    (∀ (w : Workspace) (ds ds' : Diagnostics),
      (r.sketch w ds).map Sketch.code = (r.sketch w ds').map Sketch.code ∧
        ∀ s, r.sketch w ds = .ok s → ∀ node name,
          s.diagnostics.get? node ("var-type:" ++ name) = ds.get? node ("var-type:" ++ name)) ∧
    ∀ p board header c, r.compile p board header = .ok c →
      (∀ node name, c.sketch.diagnostics.get? node ("var-type:" ++ name) =
        (r.inferTypes p).diagnostics.get? node ("var-type:" ++ name)) ∧
      ∀ node slot d, (r.inferTypes p).diagnostics.get? node slot = some d →
        d.severity = .warning ∧ d.code = some "W0201" ∧
          c.sketch.diagnostics.get? node slot = some d := by
  refine ⟨r.paired_sketch, fun p board header c hc => ?_⟩
  obtain ⟨places, s, hs, hsketch⟩ := Registry.exists_sketch_of_compile hc
  have hkept := (r.paired_sketch _ _ .empty).2 s hs
  rw [hsketch, Sketch.diagnostics_withHeading]
  refine ⟨hkept, fun node slot d hd => ?_⟩
  obtain ⟨name, rfl, hseverity, hcode⟩ := Inference.onlyMismatches_run _ _ node slot d hd
  exact ⟨hseverity, hcode, (hkept node name).trans hd⟩

/-- The clash of types in a program whose second assignment has to wait is in the compiled program
too. -/
theorem lateClash_messages_stay_apart_from_code :
    ∃ c d, Registry.standard.compile Inference.lateClash .uno false = .ok c ∧
      (Registry.standard.inferTypes Inference.lateClash).diagnostics.get? ⟨2⟩ "var-type:y" =
        some d ∧
      d.code = some "W0201" ∧ c.sketch.diagnostics.get? ⟨2⟩ "var-type:y" = some d := by
  have hcompiles : ∃ c, Registry.standard.compile Inference.lateClash .uno false = .ok c := by
    simp only [Registry.compile_eq_ok_iff, Registry.get?_standard]
    exact ⟨_, _, _, _, rfl, rfl, rfl⟩
  obtain ⟨c, hc⟩ := hcompiles
  have hfound : ∃ d, (Registry.standard.inferTypes Inference.lateClash).diagnostics.get? ⟨2⟩
      "var-type:y" = some d := by
    rw [Registry.inferTypes, Registry.probe, Registry.typing?_standard,
      Registry.mentions?_standard]
    exact Option.isSome_iff_exists.mp (by decide +kernel)
  obtain ⟨d, hd⟩ := hfound
  obtain ⟨-, hcode, hkept⟩ :=
    ((messages_stay_apart_from_code Registry.standard).2 _ _ _ c hc).2 ⟨2⟩ "var-type:y" d hd
  exact ⟨c, d, hc, hd, hcode, hkept⟩

end BlockSketch
