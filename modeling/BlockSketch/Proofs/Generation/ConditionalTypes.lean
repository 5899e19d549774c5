import BlockSketch.Proofs.Generation.NumberTypes
import BlockSketch.Proofs.Inference.Descent

/-!
The types of conditional values. The block for them does not tell its type, and its condition stands
in its first socket. So a variable that is assigned a conditional value has the type of the
condition, whatever the types of the two values are.
-/

namespace BlockSketch

theorem Node.value?_of_first {n : Node} {s : ValueSocket} {rest : List ValueSocket} {name : String}
    (hvalues : n.values = s :: rest) (hname : s.name = name) : n.value? name = some s := by
  simp [Node.value?, hvalues, hname]

/-! ### Assignments -/

namespace Registry

variable {r : Registry} {p : Program} {a n : Node} {v : String} {id : NodeId} {t : DataType}

theorem mentionsOf_assignment (hkind : a.kind = "variables_set") (hname : a.field? "VAR" = some v) :
    standard.mentionsOf p a = [⟨v, (standard.probe p).childType a, none⟩] := by
  rw [mentionsOf, hkind, mentions?_assignment, Option.map_some, Option.getD_some,
    Block.Variables.mentionsValue, Block.mentionOf, hname]

/-- A variable that is assigned one value only has the type of that value. -/
theorem AssignedOnly.get_inferTypes_of_typeOf (h : standard.AssignedOnly p v id)
    (htype : ∀ s : ValueSocket, s.child = some id → (standard.probe p).typeOf s = .known t)
    (ht : t ≠ .undefined) : (standard.inferTypes p).map.get v = t := by
  have hmentions {a : Node} (ha : a.Assigns v id) :
      standard.mentionsOf p a = [⟨v, .known t, none⟩] := by
    obtain ⟨s, rest, hvalues, hchild⟩ := ha.child
    rw [mentionsOf_assignment ha.kind ha.name, Probe.childType, hvalues]
    exact congrArg (fun d => [(⟨v, d, none⟩ : Mention)]) (htype s hchild)
  refine get_inferTypes_of_known ht ?_ ?_
  · obtain ⟨a, ha, hassigns⟩ := h.assigned
    refine ⟨⟨v, .known t, none⟩, mem_reported_iff_mentionsOf.mpr ⟨a, ha, ?_⟩, rfl⟩
    rw [hmentions hassigns]
    exact List.mem_singleton_self _
  · intro m hm hname
    obtain ⟨a, ha, hmem⟩ := mem_reported_iff_mentionsOf.mp hm
    rw [hmentions (h.only a ha m hmem hname)] at hmem
    rw [List.mem_singleton.mp hmem]

/-! ### Conditional values -/

theorem typing?_conditional : standard.typing? "logic_ternary" = none := by
  rw [typing?_standard]
  rfl

section Conditional

variable {cond : ValueSocket} {others : List ValueSocket} (htyping : r.typing? n.kind = none)
  (hfind : p.find? n.id = some n) (hvalues : n.values = cond :: others) (hcond : cond.name = "IF")

include htyping hfind hvalues hcond

/-- What a node that does not tell its type is plugged into has the type of its condition. -/
theorem typeOf_conditional {s : ValueSocket} (hchild : s.child = some n.id) :
    (r.probe p).typeOf s = (r.probe p).socketType n "IF" := by
  rw [Probe.socketType, Node.value?_of_first hvalues hcond]
  exact Probe.typeOf_first hfind htyping hvalues hchild

/-- The type of an assignment is that of the first socket, which is the one for the value or not. -/
theorem childType_conditional {first : ValueSocket} {rest : List ValueSocket}
    (ha : a.values = first :: rest) (hchild : a.child? "VALUE" = some n.id) :
    (r.probe p).childType a =
      if first.name = "VALUE" then (r.probe p).socketType n "IF" else (r.probe p).typeOf first := by
  rw [Probe.childType, ha]
  by_cases hname : first.name = "VALUE"
  · rw [Node.child?, Node.value?_of_first ha hname] at hchild
    rw [if_pos hname]
    exact typeOf_conditional htyping hfind hvalues hcond hchild
  · rw [if_neg hname]

end Conditional

end Registry

/-- In every program, take an assignment whose value is a conditional value with its condition in
the first socket. If the assignment has its value in its first socket, its variable is given the
type of the condition; otherwise it is given the type of what the first socket holds. So if both
values of the conditional value have a type, the assignment has that type exactly if the condition
has it too. A variable that is assigned the conditional value and nothing else has the type of the
condition, and is declared with it. -/
theorem conditional_typed_by_condition {p : Program} {a n : Node} {first cond : ValueSocket}
    {rest others : List ValueSocket} (hassign : a.kind = "variables_set")
    (ha : a.values = first :: rest) (hchild : a.child? "VALUE" = some n.id)
    (hfind : p.find? n.id = some n) (hkind : n.kind = "logic_ternary")
    (hvalues : n.values = cond :: others) (hcond : cond.name = "IF") :
    let r := Registry.standard
    let probe := r.probe p
    probe.childType a =
      (if first.name = "VALUE" then probe.socketType n "IF" else probe.typeOf first) ∧
    (∀ v, a.field? "VAR" = some v → r.mentionsOf p a = [⟨v, probe.childType a, none⟩]) ∧
    (first.name = "VALUE" → ∀ t, probe.socketType n "THEN" = .known t →
      probe.socketType n "ELSE" = .known t →
        (probe.childType a = .known t ↔ probe.socketType n "IF" = .known t)) ∧
    ∀ v t, r.AssignedOnly p v n.id → probe.socketType n "IF" = .known t → t ≠ .undefined →
      (r.inferTypes p).map.get v = t ∧
      ∀ places board ds,
        p.variableNames.find? (fun u => Text.lowercase u = Text.lowercase v) = some v →
        let w : Workspace := ⟨p, places, (r.inferTypes p).map, board⟩
        let d := ((r.follow w (Recipe.declareVariables w)).run.run { diagnostics := ds }).2
        d.sections.globals.get? (d.variableText v) =
          some (declarationText t (d.variableText v)) := by
  intro r probe
  have htyping : r.typing? n.kind = none := (congrArg _ hkind).trans Registry.typing?_conditional
  have htype : probe.childType a = _ :=
    Registry.childType_conditional htyping hfind hvalues hcond ha hchild
  refine ⟨htype, fun v hv => Registry.mentionsOf_assignment hassign hv, fun hname t _ _ => ?_,
    fun v t hv ht hne => ?_⟩
  · rw [htype, if_pos hname]
  · have hget : (r.inferTypes p).map.get v = t := hv.get_inferTypes_of_typeOf
      (fun s hs => (Registry.typeOf_conditional htyping hfind hvalues hcond hs).trans ht) hne
    refine ⟨hget, fun places board ds hlisted => ?_⟩
    intro w d
    rw [← hget]
    exact Registry.get?_globals_declareVariables (r := r) (w := w) hlisted ds

def truthNode (id : NodeId) (value : String) : Node :=
  { id, kind := "logic_boolean", fields := .ofList [("BOOL", value)] }

def choiceNode (id cond yes no : NodeId) : Node :=
  { id, kind := "logic_ternary",
    values :=
      [{ name := "IF", child := some cond }, { name := "THEN", child := some yes },
        { name := "ELSE", child := some no }] }

/-- A variable that is assigned one of two values, by a condition that is always true. -/
def choiceSample (yes no : Node) : Program where
  variableNames := ["x"]
  nodes :=
    [Inference.assignmentNode ⟨1⟩ "x" ⟨2⟩ none, choiceNode ⟨2⟩ ⟨3⟩ yes.id no.id,
      truthNode ⟨3⟩ "TRUE", yes, no]
  topLevel := [⟨1⟩]

/-- A choice between truth values is a truth value, and so is the variable. -/
theorem choiceSample_declared_as_boolean :
    let r := Registry.standard
    let p := choiceSample (truthNode ⟨4⟩ "FALSE") (truthNode ⟨5⟩ "TRUE")
    let a := Inference.assignmentNode ⟨1⟩ "x" ⟨2⟩ none
    let n := choiceNode ⟨2⟩ ⟨3⟩ ⟨4⟩ ⟨5⟩
    let probe := r.probe p
    p.find? a.id = some a ∧ p.find? n.id = some n ∧
      probe.socketType n "THEN" = .known .boolean ∧ probe.socketType n "ELSE" = .known .boolean ∧
      probe.childType a = .known .boolean ∧ (r.inferTypes p).map.get "x" = .boolean ∧
      ∃ places, p.validate = .ok places ∧
        let w : Workspace := ⟨p, places, (r.inferTypes p).map, .uno⟩
        let d := ((r.follow w (Recipe.declareVariables w)).run.run {}).2
        d.sections.globals.get? (d.variableText "x") = some "boolean x;" := by
  intro r p a n probe
  have hprobe : probe = ⟨p, fun kind => (standardBlocks.find? (·.kind = kind)).bind (·.typing?)⟩ :=
    congrArg (Probe.mk p) Registry.typing?_standard
  obtain ⟨hif, hthen, helse⟩ : probe.socketType n "IF" = .known .boolean ∧
      probe.socketType n "THEN" = .known .boolean ∧
      probe.socketType n "ELSE" = .known .boolean := by
    rw [hprobe]
    exact ⟨rfl, rfl, rfl⟩
  obtain ⟨-, -, htype, hvariable⟩ := conditional_typed_by_condition (p := p) (a := a) (n := n)
    rfl rfl rfl rfl rfl rfl rfl
  obtain ⟨hget, hdeclared⟩ :=
    hvariable "x" .boolean (assigns_assignmentNode.assignedOnly rfl) hif (by decide)
  exact ⟨rfl, rfl, hthen, helse, (htype rfl _ hthen helse).mpr hif, hget, _, rfl,
    hdeclared _ .uno .empty rfl⟩

/-- A choice between numbers is typed as a truth value too, and the variable is declared so. -/
theorem choiceSample_declared_by_condition :
    let r := Registry.standard
    let p := choiceSample { id := ⟨4⟩, kind := "math_number", fields := .ofList [("NUM", "300")] }
      { id := ⟨5⟩, kind := "math_number", fields := .ofList [("NUM", "500")] }
    let a := Inference.assignmentNode ⟨1⟩ "x" ⟨2⟩ none
    let n := choiceNode ⟨2⟩ ⟨3⟩ ⟨4⟩ ⟨5⟩
    let probe := r.probe p
    p.find? a.id = some a ∧ p.find? n.id = some n ∧
      probe.socketType n "THEN" = .known .number ∧ probe.socketType n "ELSE" = .known .number ∧
      probe.childType a = .known .boolean ∧
      ∃ c, r.compile p .uno false = .ok c ∧ c.types.get "x" = .boolean ∧
        c.sketch.source = "boolean x;\n\nvoid setup() \x7b\n\x7d\n\n" ++
          "void loop() \x7b\n  x = true ? 300 : 500;\n\x7d\n" := by
  intro r p a n probe
  have hprobe : probe = ⟨p, fun kind => (standardBlocks.find? (·.kind = kind)).bind (·.typing?)⟩ :=
    congrArg (Probe.mk p) Registry.typing?_standard
  obtain ⟨hthen, helse, hchild⟩ : probe.socketType n "THEN" = .known .number ∧
      probe.socketType n "ELSE" = .known .number ∧ probe.childType a = .known .boolean := by
    rw [hprobe]
    exact ⟨rfl, rfl, rfl⟩
  have hcompiles : ∃ c, r.compile p .uno false = .ok c := by
    simp only [r, Registry.compile_eq_ok_iff, Registry.get?_standard]
    exact ⟨_, _, _, _, rfl, rfl, rfl⟩
  obtain ⟨c, hc⟩ := hcompiles
  obtain ⟨places, body, j, hran⟩ := Registry.exists_ran hc
  have htypes : (r.inferTypes p).map = ⟨.ofList [("x", .boolean)], .empty⟩ := by
    have hmentions : Inference.mentions (r.probe p) r.mentions? =
        [(⟨1⟩, ⟨"x", .known .boolean, none⟩)] := by
      rw [Registry.mentions_standard]
      rfl
    rw [Registry.inferTypes, Inference.run, hmentions]
    rfl
  have hrun := hran.run_eq rfl ((Registry.types_of_compile hc).trans htypes)
  have hj := (congrArg Prod.snd hrun).symm
  have hbody : body = "x = true ? 300 : 500;\n" := (Except.ok.inj (congrArg (·.1) hrun)).symm
  refine ⟨rfl, rfl, hthen, helse, hchild, c, hc, ?_, ?_⟩
  · rw [Registry.types_of_compile hc, htypes]
    decide
  · rw [hran.source_eq, hbody, Draft.source, show j = _ from hj]
    decide +kernel

end BlockSketch
