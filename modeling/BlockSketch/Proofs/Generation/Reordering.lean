import BlockSketch.Proofs.Generation.WellSorted
import BlockSketch.Proofs.Program.Reordering

/-!
Compilation does not depend on the order in which the nodes of a program are stored. The search for
types and emission look nodes up by their numbers. The blocks for motors are the only ones that look
for a node in another way, by the name of a driver; as long as no two drivers have the same name,
that does not depend on the order either.
-/

namespace BlockSketch

open Block

/-! ### Recipes -/

def Program.driverNames (p : Program) : List String :=
  (p.nodes.filter fun n => n.kind = Motors.driverKind).map Motors.driverName

section Recipes

variable {w : Workspace} {q : Program}

/-- Where each driver has a name of its own, it is found under it in any order. -/
theorem Motors.driver?_reordered (hq : w.program.Reordered q)
    (hdrivers : w.program.driverNames.Nodup) (name : String) :
    Motors.driver? { w with program := q } name = Motors.driver? w name := by
  refine find?_eq_of_perm hq.nodes fun a ha b hb hname hname' => ?_
  simp only [Bool.and_eq_true, decide_eq_true_eq] at hname hname'
  refine List.inj_on_of_nodup_map hdrivers ?_ ?_ (hname.2.trans hname'.2.symm)
  · exact List.mem_filter.mpr ⟨ha, decide_eq_true hname.1⟩
  · exact List.mem_filter.mpr ⟨hb, decide_eq_true hname'.1⟩

theorem Procedures.resultType_alike (hq : w.program.Alike q) (n : Node) :
    Procedures.resultType { w with program := q } n = Procedures.resultType w n := by
  simp only [Procedures.resultType, funext hq.find?]

theorem Motors.sameAt
    (hdriver : ∀ name, Motors.driver? { w with program := q } name = Motors.driver? w name) :
    ∀ b ∈ Motors.blocks, ∀ n, b.form.SameAt w { w with program := q } n := by
  have hfixed (name : String) :
      Motors.isFixedSpeed { w with program := q } name = Motors.isFixedSpeed w name := by
    simp only [Motors.isFixedSpeed, hdriver]
  simp only [Motors.blocks, List.forall_mem_cons, statement, Form.SameAt]
  refine ⟨fun n => rfl, fun n => ?_, fun n => ?_, by simp⟩
  · simp only [Motors.move, Motors.directionCall, hdriver]
  · simp only [Motors.setSpeed, hfixed]

theorem Procedures.sameAt (hq : w.program.Alike q) :
    ∀ b ∈ Procedures.blocks, ∀ n, b.form.SameAt w { w with program := q } n := by
  have hdefine (n : Node) (result : Recipe String) :
      Procedures.define { w with program := q } n result = Procedures.define w n result := by
    simp only [Procedures.define, resultType_alike hq]
  simp [Procedures.blocks, statement, value, withMentions, Form.SameAt, hdefine]

/-- Every standard kind has the same recipe for a node in both programs. -/
theorem sameAt_of_mem_standardBlocks (hq : w.program.Alike q)
    (hdriver : ∀ name, Motors.driver? { w with program := q } name = Motors.driver? w name) :
    ∀ b ∈ standardBlocks, ∀ n, b.form.SameAt w { w with program := q } n := by
  -- all other kinds read the board and the node only
  have hothers : ∀ b ∈ Structure.blocks ++ Pins.blocks ++ Time.blocks ++ Control.blocks ++
      Logic.blocks ++ Arithmetic.blocks ++ Texts.blocks ++ Serial.blocks ++ Variables.blocks ++
      Arrays.blocks ++ Servos.blocks, ∀ n, b.form.SameAt w { w with program := q } n := by
    simp only [List.forall_mem_append, Structure.blocks, Pins.blocks, Time.blocks, Control.blocks,
      Logic.blocks, Arithmetic.blocks, Texts.blocks, Serial.blocks, Variables.blocks, Arrays.blocks,
      Servos.blocks, List.forall_mem_cons, List.not_mem_nil, false_imp_iff, implies_true, and_true]
    and_intros <;> exact fun n => rfl
  intro b hb
  simp only [standardBlocks, List.mem_append] at hb
  rcases hb with (hb | hb) | hb
  · rcases hb with hb | hb
    · exact hothers b (by simp only [List.mem_append]; tauto)
    · exact Procedures.sameAt hq b hb
  · exact Motors.sameAt hdriver b hb
  · exact hothers b (List.mem_append_right _ hb)

end Recipes

/-! ### Types -/

section Types

variable {p q : Program} {r : Registry}

theorem Arrays.elementTyping_alike (hq : p.Alike q) (n : Node) :
    Arrays.elementTyping q n = Arrays.elementTyping p n := by
  simp only [Arrays.elementTyping, hq.find?]

theorem Registry.typeFrom_alike (hq : p.Alike q)
    (htyping : ∀ kind typing, r.typing? kind = some typing → ∀ n, typing q n = typing p n)
    (count : Nat) (child : Option NodeId) :
    (r.probe q).typeFrom count child = (r.probe p).typeFrom count child := by
  induction count generalizing child with
  | zero => rfl
  | succ count ih =>
      cases child with
      | none => rfl
      | some id =>
          simp only [Probe.typeFrom, probe, hq.find?]
          cases p.find? id with
          | none => rfl
          | some n =>
              dsimp only
              cases hkind : r.typing? n.kind with
              | some typing => exact htyping n.kind typing hkind n
              | none =>
                  cases n.values with
                  | nil => rfl
                  | cons s rest => exact ih s.child

/-- The standard kinds tell the types of values by looking nodes up. -/
theorem typing_alike (hq : p.Alike q) :
    ∀ b ∈ standardBlocks, ∀ typing, b.typing? = some typing → ∀ n, typing q n = typing p n := by
  simp only [standardBlocks, Structure.blocks, Pins.blocks, Time.blocks, Control.blocks,
    Logic.blocks, Arithmetic.blocks, Texts.blocks, Serial.blocks, Variables.blocks, Arrays.blocks,
    Procedures.blocks, Motors.blocks, Servos.blocks, List.forall_mem_append, List.forall_mem_cons,
    List.not_mem_nil, false_imp_iff, implies_true, and_true]
  and_intros
  all_goals rintro typing ⟨⟩
  all_goals first
    | exact fun n => rfl
    | exact Arrays.elementTyping_alike hq

theorem Registry.mentionsValue_alike (hq : p.Alike q)
    (htyping : ∀ kind typing, r.typing? kind = some typing → ∀ n, typing q n = typing p n)
    (n : Node) :
    Variables.mentionsValue (r.probe q) n = Variables.mentionsValue (r.probe p) n := by
  have htype : (r.probe q).childType n = (r.probe p).childType n := by
    have hsize : (r.probe q).program.size = (r.probe p).program.size := hq.size
    simp only [Probe.childType, Probe.typeOf, r.typeFrom_alike hq htyping, hsize]
  rw [Variables.mentionsValue, Variables.mentionsValue, htype]

theorem mentions_alike (hq : p.Alike q)
    (htyping : ∀ kind typing, r.typing? kind = some typing → ∀ n, typing q n = typing p n) :
    ∀ b ∈ standardBlocks, ∀ typing, b.mentions? = some typing →
      ∀ n, typing (r.probe q) n = typing (r.probe p) n := by
  simp only [standardBlocks, Structure.blocks, Pins.blocks, Time.blocks, Control.blocks,
    Logic.blocks, Arithmetic.blocks, Texts.blocks, Serial.blocks, Variables.blocks, Arrays.blocks,
    Procedures.blocks, Motors.blocks, Servos.blocks, List.forall_mem_append, List.forall_mem_cons,
    List.not_mem_nil, false_imp_iff, implies_true, and_true]
  and_intros
  all_goals rintro typing ⟨⟩
  all_goals first
    | exact fun n => rfl
    | exact r.mentionsValue_alike hq htyping

/-- The search for types meets the same mentions of variables in both programs. -/
theorem Registry.inferTypes_standard_alike (hq : p.Alike q) :
    standard.inferTypes q = standard.inferTypes p := by
  have htyping (kind : String) (typing : ValueTyping) (h : standard.typing? kind = some typing) :
      ∀ n, typing q n = typing p n := by
    rw [typing?_standard] at h
    obtain ⟨b, hb, htyping⟩ := Option.bind_eq_some_iff.mp h
    exact typing_alike hq b (List.mem_of_find?_eq_some hb) typing htyping
  have hmentions : Inference.mentions (standard.probe q) standard.mentions? =
      Inference.mentions (standard.probe p) standard.mentions? := by
    unfold Inference.mentions
    change q.executionOrder.flatMap _ = p.executionOrder.flatMap _
    rw [hq.executionOrder]
    refine List.flatMap_congr fun n _ => ?_
    cases h : standard.mentions? n.kind with
    | none => rfl
    | some typing =>
        rw [mentions?_standard] at h
        obtain ⟨b, hb, hmentions⟩ := Option.bind_eq_some_iff.mp h
        dsimp only
        rw [mentions_alike hq htyping b (List.mem_of_find?_eq_some hb) typing hmentions n]
  rw [inferTypes, inferTypes, Inference.run, Inference.run, hmentions]

end Types

/-! ### Compilation -/

/-- A program whose drivers have different names compiles to the same sketch, with the same types,
messages and claims of pins, or fails in the same way, in whatever order its nodes are stored. The
nodes hang in the same places. -/
theorem compile_eq_of_reordered {p q : Program} (hq : p.Reordered q) {places : ParentIndex}
    (hvalid : p.validate = .ok places) (hdrivers : p.driverNames.Nodup) :
    q.validate = .ok places ∧
      ∀ board header, Registry.standard.compile q board header =
        Registry.standard.compile p board header := by
  have hvalid' := hq.validate hvalid
  have hforest := (Program.validate_eq_ok_iff_isForest.mp hvalid).1
  have halike := hq.alike hforest.ids_nodup
  refine ⟨hvalid', fun board header => ?_⟩
  rw [Registry.compile_of_validate _ hvalid', Registry.compile_of_validate _ hvalid,
    Registry.inferTypes_standard_alike halike]
  generalize Registry.standard.inferTypes p = found
  have hsame (kind : String) (b : Block) (hb : Registry.standard.get? kind = some b) (n : Node) :
      b.form.SameAt ⟨p, places, found.map, board⟩ ⟨q, places, found.map, board⟩ n := by
    rw [Registry.get?_standard] at hb
    exact sameAt_of_mem_standardBlocks halike
      (Motors.driver?_reordered (w := ⟨p, places, found.map, board⟩) hq hdrivers) b
      (List.mem_of_find?_eq_some hb) n
  have hdraft : Registry.standard.draftProgram ⟨p, places, found.map, board⟩ found.diagnostics =
      Registry.standard.draftProgram ⟨q, places, found.map, board⟩ found.diagnostics :=
    Prod.ext_iff.mpr (Registry.paired_draftProgram (R := Eq) (fun _ _ _ h => h ▸ ⟨rfl, rfl⟩)
      halike hsame rfl)
  rw [Registry.sketch, Registry.sketch, hdraft]

def motorSample : Program where
  nodes :=
    [{ id := ⟨1⟩, kind := "l298_init", next := some ⟨2⟩ },
      { id := ⟨2⟩, kind := "l298_movement", fields := .ofList [("DIRECTION", "Left")],
        next := some ⟨3⟩ },
      { id := ⟨3⟩, kind := "variables_set", fields := .ofList [("VAR", "x")],
        values := [{ name := "VALUE", child := some ⟨4⟩ }] },
      { id := ⟨4⟩, kind := "math_number", fields := .ofList [("NUM", "5")] }]
  topLevel := [⟨1⟩]
  variableNames := ["x"]

theorem motorSample_compile_eq_of_reordered :
    let q := { motorSample with nodes := motorSample.nodes.reverse }
    motorSample.Reordered q ∧ motorSample.driverNames.Nodup ∧
      ∃ places, motorSample.validate = .ok places ∧ q.validate = .ok places ∧
        ∀ board header, Registry.standard.compile q board header =
          Registry.standard.compile motorSample board header := by
  intro q
  have hq : motorSample.Reordered q := ⟨List.reverse_perm _, rfl, rfl⟩
  have hdrivers : motorSample.driverNames.Nodup := by decide
  obtain ⟨places, hvalid⟩ : ∃ places, motorSample.validate = .ok places := ⟨_, rfl⟩
  exact ⟨hq, hdrivers, places, hvalid, compile_eq_of_reordered hq hvalid hdrivers⟩

end BlockSketch
