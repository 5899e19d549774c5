import BlockSketch.Block.Standard
import BlockSketch.Proofs.Block.Registry
import BlockSketch.Proofs.Emission.Told
import BlockSketch.Proofs.Sketch.Placement

/-!
What the standard kinds put in front of the main functions: headers and names for pins, servos and
the times of statements that run at intervals, variables, code of the user, and the variables of
motor drivers. A driver also sets the modes of its pins, under a key of its own.
-/

namespace BlockSketch

open Recipe Block Identifier

/-! ### Headers -/

inductive Header where
  | math
  | servo
  deriving DecidableEq, Repr

namespace Header

def key : Header → String
  | math => "math"
  | servo => "include-Servo"

def line : Header → String
  | math => "#include <math.h>"
  | servo => "#include <Servo.h>"

def placement (h : Header) : Placement := ⟨h.key, h.line, false⟩

end Header

def Node.header? (n : Node) : Option Header :=
  match n.kind with
  | "math_number_property" =>
      if n.fieldD "PROPERTY" "EVEN" ∈ ["PRIME", "WHOLE"] then some .math else none
  | "motor_servo_init" => (Servos.servo? n).map fun _ => .servo
  | _ => none

def headerKinds : List String := ["math_number_property", "motor_servo_init"]

theorem Node.header?_eq_none {n : Node} (h : n.kind ∉ headerKinds) : n.header? = none := by
  unfold Node.header?
  split <;> simp_all [headerKinds]

/-! ### Lines and keys -/

def Block.Structure.pinNameLine (w : Workspace) (n : Node) (name : String) : String :=
  let pin := n.fieldD "PIN" w.profile.builtinLed
  s!"#define {name} {pin}"

namespace Block.Motors

def identifier (n : Node) : String := Identifier.spell (driverName n)

def variablesKey (v : String) : String := "init-motor_" ++ v

def modesKey (v : String) : String := "setup_motor_" ++ v

def pinVariables (n : Node) : String :=
  let v := identifier n
  String.join ((Wiring.of n).pins.map (pinVariable n v)) ++ s!"int {v}Speed = 200;"

def modes (n : Node) : String :=
  String.join ((Wiring.of n).pins.map (pinModeLine (identifier n)))

def IsModesKey (key : String) : Prop := ∃ v, key = modesKey v

@[simp] theorem not_isModesKey_pin (pin : String) : ¬IsModesKey ("io_" ++ pin) := by
  rintro ⟨v, h⟩
  simpa [modesKey] using congrArg String.toList h

@[simp] theorem not_isModesKey_servo (v : String) : ¬IsModesKey ("setup_Servo_" ++ v) := by
  rintro ⟨v', h⟩
  simpa [modesKey] using congrArg String.toList h

@[simp] theorem not_isModesKey_serial : ¬IsModesKey Serial.speedKey := by
  rintro ⟨v, h⟩
  simpa [modesKey, Serial.speedKey] using congrArg String.toList h

@[simp] theorem not_isModesKey_user : ¬IsModesKey Sections.userSetupKey := by
  rintro ⟨v, h⟩
  simpa [modesKey, Sections.userSetupKey] using congrArg String.toList h

@[simp] theorem not_isModesKey_setup (id : String) : ¬IsModesKey ("base_setup_" ++ id) := by
  rintro ⟨v, h⟩
  simpa [modesKey] using congrArg String.toList h

end Block.Motors

/-! ### Contributions -/

def declaringKinds : List String := ["variables_const", "variables_set_init", "array_declare"]

def EndsWord (text : String) : Prop := ∃ c rest, text.toList = c :: rest ∧ isWordChar c = false

/-- What a node may put into a section. The main functions and the other functions are open to it,
except for the keys of drivers. -/
inductive Contribution (w : Workspace) (past : List Entry) (n : Node) :
    Section → Placement → Prop where
  | header {h : Header} (hn : n.header? = some h) : Contribution w past n .includes h.placement
  | pinName {name : Expression} (hkind : n.kind = "base_define")
      (htold : w.ValueTold past (n.child? "NAME") .atomic "unnamed" name) :
      Contribution w past n .includes
        ⟨name.text, Structure.pinNameLine w n name.text, false⟩
  | servo {v : String} (hkind : n.kind = "motor_servo_init") (hv : Servos.servo? n = some v) :
      Contribution w past n .declarations ⟨"define_Servo_" ++ v, "Servo " ++ v ++ ";", false⟩
  | stamp {interval : Expression} {x : String} (hkind : n.kind = "tempo_no_delay")
      (htold : w.ValueTold past (n.child? "DELAY_TIME") .multiplicative "0" interval)
      (hx : .edited (.identifier ("temps" ++ interval.text) .variable) x ∈ past) :
      Contribution w past n .declarations
        ⟨"temporisation_" ++ x, "long " ++ x ++ " = 0;", false⟩
  | declared {x : String} (words : String) {tail : String} (hkind : n.kind ∈ declaringKinds)
      (htail : EndsWord tail)
      (hx : .edited (.identifier (n.fieldD "VAR" "") .variable) x ∈ past) :
      Contribution w past n .globals ⟨x, words ++ " " ++ x ++ tail, true⟩
  | code {text : String} (hkind : n.kind = "base_define_bloc")
      (htold : w.ChainTold past (n.head? "DO") text) :
      Contribution w past n .globals ⟨"base_define_bloc_" ++ toString n.id.toNat, text, true⟩
  | driverVariables (hkind : n.kind = Motors.driverKind) :
      Contribution w past n .globals
        ⟨Motors.variablesKey (Motors.identifier n), Motors.pinVariables n, true⟩
  | driverModes (hkind : n.kind = Motors.driverKind) :
      Contribution w past n .setups ⟨Motors.modesKey (Motors.identifier n), Motors.modes n, true⟩
  | setup {p : Placement} (hkey : ¬Motors.IsModesKey p.key) : Contribution w past n .setups p
  | loop (p : Placement) : Contribution w past n .loops p
  | function (p : Placement) : Contribution w past n .functions p

def Edit.IsContribution (w : Workspace) (n : Node) (past : List Entry) : Edit → Prop
  | place sec key text overwrite => Contribution w past n sec ⟨key, text, overwrite⟩
  | _ => True

def HeaderPlaced (n : Node) (past : List Entry) : Prop :=
  ∀ h, n.header? = some h → h.placement ∈ placements .includes past

theorem lasting_contribution (w : Workspace) (n : Node) (sec : Section) :
    Lasting fun past p => Contribution w past n sec p := by
  intro past past' p hsub h
  cases h with
  | header hn => exact .header hn
  | pinName hkind htold => exact .pinName hkind (htold.mono hsub)
  | servo hkind hv => exact .servo hkind hv
  | stamp hkind htold hx => exact .stamp hkind (htold.mono hsub) (hsub hx)
  | declared words hkind htail hx => exact .declared words hkind htail (hsub hx)
  | code hkind htold => exact .code hkind (htold.mono hsub)
  | driverVariables hkind => exact .driverVariables hkind
  | driverModes hkind => exact .driverModes hkind
  | setup hkey => exact .setup hkey
  | loop => exact .loop _
  | function => exact .function _

theorem lasting_isContribution (w : Workspace) (n : Node) :
    Lasting (Edit.IsContribution w n) := by
  intro past past' e hsub h
  cases e with
  | place sec key text overwrite => exact lasting_contribution w n sec hsub h
  | helper name body => trivial
  | identifier name ns => trivial
  | freshVariable name => trivial
  | claim node pin usage label => trivial
  | report node concern message => trivial

theorem lasting_headerPlaced (n : Node) : Lasting fun past (_ : Code) => HeaderPlaced n past :=
  fun _ _ _ hsub h header hheader => placements_subset hsub (h header hheader)

theorem headerPlaced_of_not_mem {n : Node} (h : n.kind ∉ headerKinds) (past : List Entry) :
    HeaderPlaced n past := by
  intro header hheader
  rw [Node.header?_eq_none h] at hheader
  cases hheader

/-! ### Kinds that put nothing in front of the main functions -/

/-- An edit that puts nothing in front of the main functions, and nothing under the keys of
drivers. -/
def Edit.IsInner : Edit → Prop
  | place sec key _ _ =>
      sec = .functions ∨ sec = .loops ∨ sec = .setups ∧ ¬Motors.IsModesKey key
  | _ => True

namespace Edit

@[simp] theorem isInner_place {sec : Section} {key text : String} {overwrite : Bool} :
    (place sec key text overwrite).IsInner ↔
      sec = .functions ∨ sec = .loops ∨ sec = .setups ∧ ¬Motors.IsModesKey key := Iff.rfl

@[simp] theorem isInner_helper {name : String} {body : String → String} :
    (helper name body).IsInner := trivial

@[simp] theorem isInner_identifier {name : String} {ns : Identifier.Namespace} :
    (identifier name ns).IsInner := trivial

@[simp] theorem isInner_freshVariable {name : String} : (freshVariable name).IsInner := trivial

@[simp] theorem isInner_claim {id : NodeId} {pin label : String} {usage : PinUsage} :
    (claim id pin usage label).IsInner := trivial

@[simp] theorem isInner_report {id : NodeId} {concern : Concern} {message : Option Diagnostic} :
    (report id concern message).IsInner := trivial

theorem IsInner.isContribution {w : Workspace} {n : Node} {past : List Entry} {e : Edit}
    (h : e.IsInner) : e.IsContribution w n past := by
  cases e with
  | place sec key text overwrite =>
      rcases h with rfl | rfl | ⟨rfl, hkey⟩
      · exact .function _
      · exact .loop _
      · exact .setup hkey
  | helper name body => trivial
  | identifier name ns => trivial
  | freshVariable name => trivial
  | claim node pin usage label => trivial
  | report node concern message => trivial

end Edit

@[simp] abbrev Recipe.Inner {α : Type} (r : Recipe α) : Prop :=
  ∀ past, r.Gives (fun _ e => e.IsInner) (fun _ _ => True) past

/-- Whatever the node, the recipe puts nothing in front of the main functions. -/
def Form.Inner : Form → Prop
  | .value recipe => ∀ w n, (recipe w n).Inner
  | .statement recipe => ∀ w n, (recipe w n).Inner

@[simp] theorem Recipe.inner_mapM {α β : Type} {l : List β} {f : β → Recipe α}
    (h : ∀ b ∈ l, (f b).Inner) : (l.mapM f).Inner := fun past =>
  (gives_mapM (R := fun _ _ _ => True) (fun _ _ _ _ _ h => h) h past).mono (fun _ _ hP => hP)
    fun _ _ _ => trivial

@[simp] theorem Recipe.inner_forM {β : Type} {l : List β} {f : β → Recipe Unit}
    (h : ∀ b ∈ l, (f b).Inner) : (forM l f).Inner := gives_forM h

namespace Block

variable {w : Workspace} {n : Node}

/-- Every node of the kind puts into the sections only what it may put there, and asks for the
header that its code needs. -/
def Contributes (b : Block) : Prop :=
  ∀ w : Workspace, ∀ n : Node, n.kind = b.kind →
    b.form.Tells w (Edit.IsContribution w n) (fun past _ => HeaderPlaced n past) n

/-- A kind whose code needs no header has to ask for proper edits only. -/
theorem Contributes.of_gives {b : Block} (hkind : b.kind ∉ headerKinds)
    (h : ∀ (w : Workspace) (n : Node), n.kind = b.kind →
      b.form.Gives (Edit.IsContribution w n) (fun _ _ => True) w n) : b.Contributes := by
  intro w n heq
  have hplaced := headerPlaced_of_not_mem (heq ▸ hkind : n.kind ∉ headerKinds)
  have hgives := h w n heq
  refine Form.Gives.tells (lasting_isContribution w n) (lasting_headerPlaced n) ?_
  exact hgives.mono (fun _ _ hP => hP) fun past _ _ => hplaced past

theorem Contributes.of_inner {b : Block} (hkind : b.kind ∉ headerKinds) (h : b.form.Inner) :
    b.Contributes := by
  refine .of_gives hkind fun w n _ => ?_
  obtain ⟨kind, form, typing, mentions⟩ := b
  cases form with
  | value recipe => exact (h w n []).mono (fun _ _ => Edit.IsInner.isContribution) fun _ _ h => h
  | statement recipe =>
      exact (h w n []).mono (fun _ _ => Edit.IsInner.isContribution) fun _ _ h => h

theorem contributes_of_inner {blocks : List Block} (hkinds : ∀ b ∈ blocks, b.kind ∉ headerKinds)
    (h : ∀ b ∈ blocks, b.form.Inner) : ∀ b ∈ blocks, b.Contributes :=
  fun b hb => .of_inner (hkinds b hb) (h b hb)

theorem Pins.blocks_inner : ∀ b ∈ Pins.blocks, b.form.Inner := by
  simp [blocks, statement, typed, Form.Inner, digitalWrite, digitalRead, builtinLed, analogWrite,
    analogRead, openInput, openOutput, setMode, requirePulse]

theorem Control.inner_jump : (Control.jump n).Inner := by
  unfold jump
  split <;> simp

theorem Control.blocks_inner : ∀ b ∈ Control.blocks, b.form.Inner := by
  simp [blocks, statement, Form.Inner, withMentions, conditional, repeatValue, countedLoop,
    whileLoop, rangeLoop, inner_jump, arm, lastArm]

theorem Logic.blocks_inner : ∀ b ∈ Logic.blocks, b.form.Inner := by
  simp [blocks, typed, value, Form.Inner, Operator.recipe, negate, choose]

theorem Texts.blocks_inner : ∀ b ∈ Texts.blocks, b.form.Inner := by
  simp [blocks, statement, typed, withMentions, Form.Inner, isEmpty, join, indexedSockets,
    length, append, trim]

theorem Serial.inner_claimPort (port : String) : (Serial.claimPort w n port).Inner := by
  unfold claimPort
  split <;> simp

theorem Serial.blocks_inner : ∀ b ∈ Serial.blocks, b.form.Inner := by
  simp [blocks, typed, statement, Form.Inner, printText, openPort, start, inner_claimPort, print,
    write]

theorem Procedures.inner_parameters : ((Procedures.arguments n).mapM parameter).Inner :=
  inner_mapM fun arg _ => by simp [parameter]

theorem Procedures.blocks_inner : ∀ b ∈ Procedures.blocks, b.form.Inner := by
  simp [blocks, statement, value, withMentions, Form.Inner, define, nameOf, inner_parameters, call,
    requiredSocket, returnIf, returnText]

/-! ### Kinds that do -/

theorem tells_requiredSocket {P : List Entry → Edit → Prop} {post : List Entry → String → Prop}
    {name : String} {required : Precedence} {fallback : String} {past : List Entry}
    (hP : ∀ past id concern message, P past (.report id concern message))
    (hpost : ∀ past' e, past ⊆ past' →
      w.ValueTold past' (n.child? name) required fallback e → post past' e.text) :
    (requiredSocket n name required fallback).Tells w P post past := by
  refine tells_bind.mpr ⟨hP _ _ _ _, fun stored past' e hsub he => hpost past' e ?_ he⟩
  exact List.Subset.trans (List.subset_append_left _ _) hsub

theorem tells_body {P : List Entry → Edit → Prop} {post : List Entry → String → Prop}
    {name : String} {past : List Entry}
    (hpost : ∀ past' text, past ⊆ past' → post past' (Text.leadLines "  " text)) :
    (body n name).Tells w P post past :=
  tells_bind.mpr fun past' text hsub _ => hpost past' text hsub

theorem Structure.contributes_globalCode :
    (statement "base_define_bloc" fun _ n => globalCode n).Contributes := by
  intro w n hkind past
  refine tells_bind.mpr fun past' text _ htold => ⟨.code hkind htold, fun stored => ?_⟩
  exact headerPlaced_of_not_mem (by rw [hkind]; decide) _

theorem Structure.contributes_define : (statement "base_define" define).Contributes := by
  intro w n hkind past
  refine tells_bind.mpr (tells_requiredSocket (fun _ _ _ _ => trivial) fun past' name _ htold => ?_)
  refine ⟨.pinName hkind htold, fun stored => ?_⟩
  exact headerPlaced_of_not_mem (by rw [hkind]; decide) _

theorem Structure.blocks_contribute : ∀ b ∈ Structure.blocks, b.Contributes := by
  simp only [blocks, List.forall_mem_cons, List.not_mem_nil, false_implies, implies_true, and_true]
  refine ⟨.of_inner ?_ ?_, .of_inner ?_ ?_, .of_inner ?_ ?_, contributes_globalCode,
    contributes_define, .of_inner ?_ ?_, .of_inner ?_ ?_, .of_inner ?_ ?_, .of_inner ?_ ?_,
    .of_inner ?_ ?_⟩
  all_goals simp [statement, value, Form.Inner, headerKinds, setupLoop, setup, loop, putUserCode,
    toString]

theorem Time.contributes_atIntervals :
    (statement "tempo_no_delay" fun _ n => atIntervals n).Contributes := by
  intro w n hkind past
  refine tells_bind.mpr (tells_requiredSocket (fun _ _ _ _ => trivial)
    fun past₁ interval _ htold => ?_)
  refine tells_bind.mpr (tells_body fun past₂ text hsub => ?_)
  refine tells_bind.mpr ⟨trivial, fun x => tells_bind.mpr ⟨?_, fun stored => ?_⟩⟩
  · refine .stamp hkind (htold.mono (List.Subset.trans hsub (List.subset_append_left _ _))) ?_
    exact List.mem_append_right _ List.mem_cons_self
  · exact headerPlaced_of_not_mem (by rw [hkind]; decide) _

theorem Time.blocks_contribute : ∀ b ∈ Time.blocks, b.Contributes := by
  simp only [blocks, List.forall_mem_cons, List.not_mem_nil, false_implies, implies_true, and_true]
  refine ⟨.of_inner ?_ ?_, .of_inner ?_ ?_, .of_inner ?_ ?_, .of_inner ?_ ?_, .of_inner ?_ ?_,
    contributes_atIntervals⟩
  all_goals simp [statement, typed, Form.Inner, headerKinds, delay, delaySeconds]

/-- A node that is told an identifier for its variable may put a declaration of it under it. -/
theorem isContribution_declared {x text : String} (words tail : String)
    (hkind : n.kind ∈ declaringKinds) (htail : EndsWord tail)
    (htext : text = words ++ " " ++ x ++ tail) (past : List Entry) :
    (Edit.place .globals x text true).IsContribution w n
      (past ++ [.edited (.identifier (n.fieldD "VAR" "") .variable) x]) :=
  htext ▸ .declared words hkind htail (List.mem_append_right _ List.mem_cons_self)

theorem Variables.gives_declare (hkind : n.kind ∈ declaringKinds) (words : String)
    (past : List Entry) :
    (declare n words).Gives (Edit.IsContribution w n) (fun _ _ => True) past := by
  simp only [declare, bind_eq, pure_eq, gives_bind, gives_socket, gives_variableName, gives_put,
    gives_done]
  refine fun e => ⟨trivial, fun x => ⟨?_, fun _ => trivial⟩⟩
  refine isContribution_declared words (" = " ++ e.text ++ ";") hkind
    ⟨' ', "= ".toList ++ e.text.toList ++ [';'], by simp, rfl⟩ ?_ past
  simp [toString, String.append_assoc]

theorem Arrays.exists_dimensions (n : Node) (content : String) :
    ∃ rest, (dimensions n content).toList = '[' :: rest := by
  unfold dimensions
  split <;> simp [toString]

theorem Arrays.gives_declare (hkind : n.kind ∈ declaringKinds) (past : List Entry) :
    (declare n).Gives (Edit.IsContribution w n) (fun _ _ => True) past := by
  simp only [declare, bind_eq, pure_eq, gives_bind, gives_socket, gives_variableName, gives_put,
    gives_done]
  refine fun e => ⟨trivial, fun x => ⟨?_, fun _ => trivial⟩⟩
  obtain ⟨rest, hrest⟩ := exists_dimensions n e.text
  refine isContribution_declared (elementType n).declaration (dimensions n e.text ++ ";") hkind
    ⟨'[', rest ++ [';'], by simp [hrest], rfl⟩ ?_ past
  simp [toString, String.append_assoc]

theorem Variables.blocks_contribute : ∀ b ∈ Variables.blocks, b.Contributes := by
  simp only [blocks, List.forall_mem_cons, List.not_mem_nil, false_implies, implies_true, and_true]
  refine ⟨.of_inner ?_ ?_, .of_inner ?_ ?_, .of_inner ?_ ?_,
    .of_gives ?_ fun w n hkind => gives_declare (by rw [hkind]; decide) _ [],
    .of_gives ?_ fun w n hkind => gives_declare (by rw [hkind]; decide) _ []⟩
  all_goals simp [value, statement, Form.Inner, withTyping, withMentions, headerKinds, readKind,
    read, assign, convert]

theorem Arrays.blocks_contribute : ∀ b ∈ Arrays.blocks, b.Contributes := by
  simp only [blocks, List.forall_mem_cons, List.not_mem_nil, false_implies, implies_true, and_true]
  refine ⟨.of_inner ?_ ?_,
    .of_gives ?_ fun w n hkind => gives_declare (by rw [hkind]; decide) [],
    .of_inner ?_ ?_, .of_inner ?_ ?_⟩
  all_goals simp [value, statement, Form.Inner, withTyping, withMentions, headerKinds, list,
    element, setElement, indexedSockets]

theorem Motors.inner_claimDriverPin (p : DriverPin) : (claimDriverPin w n p).Inner := by
  unfold claimDriverPin
  simp [requirePulse]

theorem Motors.inner_defineDirection (v : String) (wiring : Wiring) (d : Direction) :
    (defineDirection v wiring d).Inner := by
  unfold defineDirection
  simp

theorem Motors.inner_directionCall (raw direction : String) :
    (directionCall w raw direction).Inner := by
  intro past
  simp only [directionCall, bind_eq, pure_eq]
  split
  · exact gives_bind.mpr ((inner_defineDirection _ _ _ past).mono (fun _ _ hP => hP)
      fun _ _ _ => trivial)
  · trivial

theorem Motors.gives_setUp_isContribution (hkind : n.kind = driverKind) (past : List Entry) :
    (setUp w n).Gives (Edit.IsContribution w n) (fun _ _ => True) past := by
  have hpins (past : List Entry) : ((Wiring.of n).pins.forM (claimDriverPin w n)).Gives
      (Edit.IsContribution w n) (fun _ _ => True) past :=
    (inner_forM (fun p _ => inner_claimDriverPin p) past).mono
      (fun _ _ => Edit.IsInner.isContribution) fun _ _ h => h
  have hdirections (past : List Entry) : (Direction.all.forM fun d => do
        let _ ← defineDirection (identifier n) (Wiring.of n) d).Gives
      (Edit.IsContribution w n) (fun _ _ => True) past := by
    refine gives_forM (fun d _ past => gives_bind.mpr ?_) past
    exact (inner_defineDirection _ _ d past).mono (fun _ _ => Edit.IsInner.isContribution)
      fun _ _ h => h
  simp only [setUp, bind_eq, pure_eq, gives_bind, gives_put, gives_done] at hdirections ⊢
  refine (hpins past).mono (fun _ _ hP => hP) fun past' _ _ => ?_
  exact ⟨.driverVariables hkind, fun _ => ⟨.driverModes hkind, fun _ => hdirections _⟩⟩

theorem Motors.blocks_contribute : ∀ b ∈ Motors.blocks, b.Contributes := by
  simp only [blocks, List.forall_mem_cons, List.not_mem_nil, false_implies, implies_true, and_true]
  refine ⟨.of_gives ?_ fun w n hkind => gives_setUp_isContribution hkind [], .of_inner ?_ ?_,
    .of_inner ?_ ?_⟩
  all_goals simp [statement, Form.Inner, headerKinds, driverKind, move, inner_directionCall,
    setSpeed]

/-! ### Kinds whose code needs a header -/

/-- Asking for a header places it. -/
theorem headerPlaced_of_asked {h : Header} {past : List Entry} (hheader : n.header? = some h)
    (hmem : h.placement ∈ placements .includes past) : HeaderPlaced n past := by
  intro h' hh'
  obtain rfl := Option.some.inj (hheader.symm.trans hh')
  exact hmem

theorem Arithmetic.contributes_property :
    (typed "math_number_property" .boolean fun _ n => property n).Contributes := by
  intro w n hkind
  refine Form.Gives.tells (lasting_isContribution w n) (lasting_headerPlaced n) ?_
  obtain hkind : n.kind = "math_number_property" := hkind
  have hheader : n.header? =
      if n.fieldD "PROPERTY" "EVEN" ∈ ["PRIME", "WHOLE"] then some .math else none := by
    simp [Node.header?, hkind]
  have hother (h : n.fieldD "PROPERTY" "EVEN" ∉ ["PRIME", "WHOLE"]) (past : List Entry) :
      HeaderPlaced n past := by
    intro h' hh'
    rw [hheader, if_neg h] at hh'
    cases hh'
  have hmath (h : n.fieldD "PROPERTY" "EVEN" ∈ ["PRIME", "WHOLE"]) : n.header? = some .math := by
    rw [hheader, if_pos h]
  have hplaced (past : List Entry) (stored : Bool) := mem_placements_edited .includes
    Header.math.placement past stored
  change (property n).Gives _ _ []
  simp only [property, bind_eq, gives_bind, gives_socket]
  intro x
  unfold propertyTest
  split
  next hfield =>
      have hn := hmath (by simp [hfield])
      simp only [bind_eq, pure_eq, gives_bind, gives_helper, includeMath, gives_offer, gives_done]
      exact ⟨trivial, fun f => ⟨.header hn, fun stored =>
        headerPlaced_of_asked hn (hplaced _ stored)⟩⟩
  next hfield => exact hother (by simp [hfield]) _
  next hfield =>
      have hn := hmath (by simp [hfield])
      exact ⟨.header hn, fun stored => headerPlaced_of_asked hn (hplaced _ stored)⟩
  next hfield => exact hother (by simp [hfield]) _
  next hfield => exact hother (by simp [hfield]) _
  next hfield => exact fun _ => hother (by simp [hfield]) _
  next => exact hother (by simp_all) _

theorem Arithmetic.inner_arithmetic : (Arithmetic.arithmetic n).Inner := by
  unfold arithmetic
  split <;> simp [Operator.recipe, power]

theorem Arithmetic.blocks_contribute : ∀ b ∈ Arithmetic.blocks, b.Contributes := by
  simp only [blocks, List.forall_mem_cons, List.not_mem_nil, false_implies, implies_true, and_true]
  refine ⟨.of_inner ?_ ?_, .of_inner ?_ ?_, .of_inner ?_ ?_, .of_inner ?_ ?_, .of_inner ?_ ?_,
    .of_inner ?_ ?_, contributes_property, .of_inner ?_ ?_, .of_inner ?_ ?_, .of_inner ?_ ?_,
    .of_inner ?_ ?_, .of_inner ?_ ?_, .of_inner ?_ ?_⟩
  all_goals simp [statement, value, typed, withTyping, withMentions, Form.Inner, headerKinds,
    inner_arithmetic, randomInt, single, opposite, modulo, constrain, arcTangent, change]

theorem Servos.contributes_setUp : (statement "motor_servo_init" setUp).Contributes := by
  intro w n hkind
  refine Form.Gives.tells (lasting_isContribution w n) (lasting_headerPlaced n) ?_
  obtain hkind : n.kind = "motor_servo_init" := hkind
  have hheader : n.header? = (servo? n).map fun _ => .servo := by simp [Node.header?, hkind]
  change (withServo n _).Gives _ _ []
  unfold withServo
  split
  next v hv =>
      have hn : n.header? = some .servo := by rw [hheader, hv]; rfl
      simp only [bind_eq, pure_eq, gives_bind, gives_claimPin, gives_report, gives_offer, gives_put,
        gives_done]
      refine ⟨trivial, fun _ => ⟨trivial, fun _ => ⟨.header hn, fun stored =>
        ⟨.servo hkind hv, fun _ => ⟨.setup (Motors.not_isModesKey_servo v), fun _ => ?_⟩⟩⟩⟩⟩
      refine headerPlaced_of_asked hn (mem_placements.mpr ⟨stored, ?_⟩)
      exact List.mem_append_left _ (List.mem_append_left _
        (List.mem_append_right _ List.mem_cons_self))
  next hv =>
      intro h hh
      rw [hheader, hv] at hh
      cases hh

theorem Servos.inner_withServo {code : String → Recipe String} (h : ∀ v, (code v).Inner) :
    (Servos.withServo n code).Inner := by
  unfold withServo
  split
  · exact h _
  · simp

theorem Servos.blocks_contribute : ∀ b ∈ Servos.blocks, b.Contributes := by
  simp only [blocks, List.forall_mem_cons, List.not_mem_nil, false_implies, implies_true, and_true]
  refine ⟨contributes_setUp, .of_inner ?_ ?_, .of_inner ?_ ?_, .of_inner ?_ ?_⟩
  all_goals simp [statement, Form.Inner, headerKinds, inner_withServo, turn]

end Block

/-! ### All kinds -/

/-- Every standard kind puts into the sections only what it may put there, and asks for the header
that its code needs. -/
theorem standardBlocks_contribute : ∀ b ∈ standardBlocks, b.Contributes := by
  simp only [standardBlocks, List.forall_mem_append]
  exact ⟨⟨⟨⟨⟨⟨⟨⟨⟨⟨⟨⟨Structure.blocks_contribute,
    contributes_of_inner (by decide) Pins.blocks_inner⟩, Time.blocks_contribute⟩,
    contributes_of_inner (by decide) Control.blocks_inner⟩,
    contributes_of_inner (by decide) Logic.blocks_inner⟩, Arithmetic.blocks_contribute⟩,
    contributes_of_inner (by decide) Texts.blocks_inner⟩,
    contributes_of_inner (by decide) Serial.blocks_inner⟩, Variables.blocks_contribute⟩,
    Arrays.blocks_contribute⟩, contributes_of_inner (by decide) Procedures.blocks_inner⟩,
    Motors.blocks_contribute⟩, Servos.blocks_contribute⟩

theorem Registry.standard_contributes {w : Workspace} {n : Node} {b : Block}
    (h : standard.get? n.kind = some b) :
    b.form.Tells w (Edit.IsContribution w n) (fun past _ => HeaderPlaced n past) n := by
  rw [standard, get?_ofList] at h
  have hkind : b.kind = n.kind := by simpa using List.find?_some h
  exact standardBlocks_contribute b (List.mem_of_find?_eq_some h) w n hkind.symm

end BlockSketch
