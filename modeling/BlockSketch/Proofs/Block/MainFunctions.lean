import BlockSketch.Block.Standard
import BlockSketch.Proofs.Block.Registry
import BlockSketch.Proofs.Emission.Told
import BlockSketch.Proofs.Sketch.Placement
import BlockSketch.Proofs.Text.Numeral

/-!
What the standard kinds put into the two main functions: the user's code in the sockets of a
container, the line that opens a serial port, and the lines that set up pins, drivers and servos,
under keys that start with words of their own. No other kind touches the main functions.
-/

namespace BlockSketch

open Recipe Block

/-! ### Containers -/

/-- A part of a container: the main function that its code goes to, the key that it has there, and
the socket that holds it. A key of its own belongs to one node only. -/
structure Part where
  main : MainFunction
  key : String
  socket : String
  own : Bool
  deriving DecidableEq, Repr

def Node.parts (n : Node) : List Part :=
  match n.kind with
  | "base_setup_loop" =>
      [⟨.setup, Sections.userSetupKey, "SETUP_FUNC", false⟩,
        ⟨.loop, Sections.userLoopKey, "LOOP_FUNC", false⟩]
  | "base_setup" => [⟨.setup, "base_setup_" ++ toString n.id.toNat, "DO", true⟩]
  | "base_loop" => [⟨.loop, Sections.userLoopKey, "LOOP_FUNC", false⟩]
  | _ => []

def MainFunction.userKey : MainFunction → String
  | setup => Sections.userSetupKey
  | loop => Sections.userLoopKey

/-- A part has the shared key of its main function, or one that its node has for itself. -/
theorem Node.mem_parts_cases {n : Node} {part : Part} (h : part ∈ n.parts) :
    part.own = false ∧ part.key = part.main.userKey ∨
      part.own = true ∧ part.main = .setup ∧ part.key = "base_setup_" ++ toString n.id.toNat := by
  unfold Node.parts at h
  split at h
  · rcases List.mem_pair.mp h with rfl | rfl
    · exact .inl ⟨rfl, rfl⟩
    · exact .inl ⟨rfl, rfl⟩
  · obtain rfl := List.mem_singleton.mp h
    exact .inr ⟨rfl, rfl, rfl⟩
  · obtain rfl := List.mem_singleton.mp h
    exact .inl ⟨rfl, rfl⟩
  · cases h

/-! ### Serial ports -/

/-- The opening of a serial port, and whether its speed was chosen by the user. -/
structure Opening where
  port : String
  speed : String
  chosen : Bool
  deriving DecidableEq, Repr

namespace Opening

def line (o : Opening) : String := o.port ++ ".begin(" ++ o.speed ++ ");"

/-- How a port is opened. One with a chosen speed replaces others. -/
def placement (o : Opening) : Placement := ⟨Serial.speedKey, o.line, o.chosen⟩

end Opening

def opening? (w : Workspace) (n : Node) : Option Opening :=
  match n.kind with
  | "text_print" => some ⟨Serial.firstPort w, "9600", false⟩
  | "serial_print" => some ⟨Serial.portOf w n, "9600", false⟩
  | "serial_init" => some ⟨Serial.portOf w n, n.fieldD "SPEED" "9600", true⟩
  | _ => none

/-! ### Proper placements -/

def deviceWords : List String := ["io_", "setup_motor_", "setup_Servo_"]

def IsDeviceKey (key : String) : Prop := ∃ word ∈ deviceWords, ∃ rest, key = word ++ rest

/-! ### Keys of different sorts -/

theorem Node.head?_key {n : Node} {part : Part} (h : part ∈ n.parts) :
    part.key.toList.head? = some (if part.own then 'b' else 'u') := by
  rcases Node.mem_parts_cases h with ⟨hown, hkey⟩ | ⟨hown, -, hkey⟩
  · rw [hown, hkey]
    cases part.main <;> rfl
  · rw [hown, hkey]
    simp

theorem IsDeviceKey.head? {key : String} (h : IsDeviceKey key) :
    key.toList.head? = some 'i' ∨ key.toList.head? = some 's' := by
  obtain ⟨word, hword, rest, rfl⟩ := h
  simp only [deviceWords, List.mem_cons, List.not_mem_nil, or_false] at hword
  rcases hword with rfl | rfl | rfl <;> simp

theorem IsDeviceKey.ne_speedKey {key : String} (h : IsDeviceKey key) : key ≠ Serial.speedKey := by
  obtain ⟨word, hword, rest, rfl⟩ := h
  intro heq
  have hchars := congrArg String.toList heq
  simp only [deviceWords, List.mem_cons, List.not_mem_nil, or_false] at hword
  rcases hword with rfl | rfl | rfl <;> simp [Serial.speedKey] at hchars

theorem IsDeviceKey.ne_part_key {key : String} (h : IsDeviceKey key) {n : Node} {part : Part}
    (hpart : part ∈ n.parts) : key ≠ part.key := by
  rintro rfl
  rcases h.head? with hhead | hhead <;> rw [Node.head?_key hpart] at hhead <;>
    split at hhead <;> cases hhead

theorem Node.part_key_ne_speedKey {n : Node} {part : Part} (hpart : part ∈ n.parts) :
    part.key ≠ Serial.speedKey := by
  intro h
  have hhead := Node.head?_key hpart
  rw [h] at hhead
  split at hhead <;> cases hhead

/-- A key of its own belongs to one node only. -/
theorem Node.id_eq_of_own {n m : Node} {part part' : Part} (hpart : part ∈ n.parts)
    (hpart' : part' ∈ m.parts) (hown : part.own = true) (hkey : part'.key = part.key) :
    m.id = n.id := by
  have hhead := Node.head?_key hpart'
  rw [hkey, Node.head?_key hpart, hown] at hhead
  rcases Node.mem_parts_cases hpart with ⟨hshared, -⟩ | ⟨-, -, hkey₁⟩
  · rw [hown] at hshared
    cases hshared
  · rcases Node.mem_parts_cases hpart' with ⟨hshared, -⟩ | ⟨-, -, hkey₂⟩
    · rw [hshared] at hhead
      cases hhead
    · rw [hkey₁, hkey₂] at hkey
      have hnumber : m.id.toNat = n.id.toNat := append_toString_injective "base_setup_" hkey
      exact congrArg NodeId.mk (UInt32.toNat_inj.mp hnumber)

/-- What may be put into a main function. Code that shares its key is put there only if there is
some. -/
inductive MainPlacement (w : Workspace) (past : List Entry) : MainFunction → Placement → Prop where
  | user {n : Node} {part : Part} {text : String} (hn : n ∈ w.program.nodes)
      (hpart : part ∈ n.parts) (htold : w.ChainTold past (n.head? part.socket) text)
      (hne : part.own = true ∨ text ≠ "") :
      MainPlacement w past part.main ⟨part.key, text, true⟩
  | serial {n : Node} {o : Opening} (hn : n ∈ w.program.nodes) (ho : opening? w n = some o) :
      MainPlacement w past .setup o.placement
  | device {key : String} (hkey : IsDeviceKey key) (text : String) (overwrite : Bool) :
      MainPlacement w past .setup ⟨key, text, overwrite⟩

def ProperPlacement (w : Workspace) (past : List Entry) : Edit → Prop
  | .place sec key text overwrite =>
      ∀ main : MainFunction, main.sec = sec → MainPlacement w past main ⟨key, text, overwrite⟩
  | _ => True

def PartPlaced (w : Workspace) (n : Node) (part : Part) (past : List Entry) : Prop :=
  ∃ text, w.ChainTold past (n.head? part.socket) text ∧
    (text = "" ∨ ⟨part.key, text, true⟩ ∈ placements part.main.sec past)

/-- What a node owes to the main functions has been placed there. -/
structure MainDuties (w : Workspace) (n : Node) (past : List Entry) : Prop where
  mem : n ∈ w.program.nodes
  parts : ∀ part ∈ n.parts, PartPlaced w n part past
  serial : ∀ o, opening? w n = some o → o.placement ∈ placements .setups past

theorem PartPlaced.mono {w : Workspace} {n : Node} {part : Part} {past past' : List Entry}
    (h : PartPlaced w n part past) (hsub : past ⊆ past') : PartPlaced w n part past' := by
  obtain ⟨text, htold, hplaced⟩ := h
  exact ⟨text, htold.mono hsub, hplaced.imp_right fun hp => placements_subset hsub hp⟩

theorem lasting_properPlacement (w : Workspace) : Lasting (ProperPlacement w) := by
  intro past past' e hsub h
  cases e with
  | place sec key text overwrite =>
      intro main hmain
      cases h main hmain with
      | user hn hpart htold hne => exact .user hn hpart (htold.mono hsub) hne
      | serial hn ho => exact .serial hn ho
      | device hkey => exact .device hkey _ _
  | helper name body => trivial
  | identifier name ns => trivial
  | freshVariable name => trivial
  | claim node pin usage label => trivial
  | report node concern message => trivial

theorem lasting_mainDuties (w : Workspace) (n : Node) :
    Lasting fun past (_ : Code) => MainDuties w n past := by
  intro past past' code hsub h
  exact ⟨h.mem, fun part hpart => (h.parts part hpart).mono hsub,
    fun o ho => placements_subset hsub (h.serial o ho)⟩

/-! ### Kinds that leave the user's part of the main functions alone -/

def mainKinds : List String :=
  ["base_setup_loop", "base_setup", "base_loop", "text_print", "serial_print", "serial_init"]

theorem mainDuties_of_not_mem {w : Workspace} {n : Node} (hn : n ∈ w.program.nodes)
    (h : n.kind ∉ mainKinds) (past : List Entry) : MainDuties w n past := by
  have hparts : n.parts = [] := by
    unfold Node.parts
    split <;> simp_all [mainKinds]
  have hopening : opening? w n = none := by
    unfold opening?
    split <;> simp_all [mainKinds]
  exact ⟨hn, by simp [hparts], by simp [hopening]⟩

def Edit.IsAside : Edit → Prop
  | place sec key _ _ => sec = .setups ∧ IsDeviceKey key ∨ sec ≠ .setups ∧ sec ≠ .loops
  | _ => True

namespace Edit

@[simp] theorem isAside_place {sec : Section} {key text : String} {overwrite : Bool} :
    (place sec key text overwrite).IsAside ↔
      sec = .setups ∧ IsDeviceKey key ∨ sec ≠ .setups ∧ sec ≠ .loops := Iff.rfl

@[simp] theorem isAside_helper {name : String} {body : String → String} :
    (helper name body).IsAside := trivial

@[simp] theorem isAside_identifier {name : String} {ns : Identifier.Namespace} :
    (identifier name ns).IsAside := trivial

@[simp] theorem isAside_freshVariable {name : String} : (freshVariable name).IsAside := trivial

@[simp] theorem isAside_claim {id : NodeId} {pin label : String} {usage : PinUsage} :
    (claim id pin usage label).IsAside := trivial

@[simp] theorem isAside_report {id : NodeId} {concern : Concern} {message : Option Diagnostic} :
    (report id concern message).IsAside := trivial

theorem IsAside.proper {w : Workspace} {past : List Entry} {e : Edit} (h : e.IsAside) :
    ProperPlacement w past e := by
  cases e with
  | place sec key text overwrite =>
      intro main hmain
      rcases h with ⟨rfl, hkey⟩ | ⟨hsetups, hloops⟩
      · cases main with
        | setup => exact .device hkey text overwrite
        | loop => cases hmain
      · cases main with
        | setup => exact absurd hmain.symm hsetups
        | loop => exact absurd hmain.symm hloops
  | helper name body => trivial
  | identifier name ns => trivial
  | freshVariable name => trivial
  | claim node pin usage label => trivial
  | report node concern message => trivial

end Edit

@[simp] theorem isDeviceKey_pin (pin : String) : IsDeviceKey ("io_" ++ pin) :=
  ⟨"io_", by simp [deviceWords], pin, rfl⟩

@[simp] theorem isDeviceKey_driver (v : String) : IsDeviceKey ("setup_motor_" ++ v) :=
  ⟨"setup_motor_", by simp [deviceWords], v, rfl⟩

@[simp] theorem isDeviceKey_servo (v : String) : IsDeviceKey ("setup_Servo_" ++ v) :=
  ⟨"setup_Servo_", by simp [deviceWords], v, rfl⟩

@[simp] abbrev Recipe.Aside {α : Type} (r : Recipe α) : Prop :=
  ∀ past, r.Gives (fun _ e => e.IsAside) (fun _ _ => True) past

/-- Whatever the node, the recipe leaves the main functions alone but for devices. -/
def Form.Aside : Form → Prop
  | .value recipe => ∀ w n, (recipe w n).Aside
  | .statement recipe => ∀ w n, (recipe w n).Aside

@[simp] theorem Recipe.aside_mapM {α β : Type} {l : List β} {f : β → Recipe α}
    (h : ∀ b ∈ l, (f b).Aside) : (l.mapM f).Aside := fun past =>
  (gives_mapM (R := fun _ _ _ => True) (fun _ _ _ _ _ h => h) h past).mono (fun _ _ hP => hP)
    fun _ _ _ => trivial

@[simp] theorem Recipe.aside_forM {β : Type} {l : List β} {f : β → Recipe Unit}
    (h : ∀ b ∈ l, (f b).Aside) : (forM l f).Aside := gives_forM h

namespace Block

variable {w : Workspace} {n : Node}

/-- Every node of the kind puts into the main functions only what may be there, and what it owes to
them. -/
def Furnishes (b : Block) : Prop :=
  ∀ w : Workspace, ∀ n ∈ w.program.nodes, n.kind = b.kind →
    b.form.Tells w (ProperPlacement w) (fun past _ => MainDuties w n past) n

theorem Furnishes.of_aside {b : Block} (hkind : b.kind ∉ mainKinds) (h : b.form.Aside) :
    b.Furnishes := by
  intro w n hn heq
  refine Form.Gives.tells (lasting_properPlacement w) (lasting_mainDuties w n) ?_
  have hduties := mainDuties_of_not_mem hn (heq ▸ hkind : n.kind ∉ mainKinds)
  obtain ⟨kind, form, typing, mentions⟩ := b
  cases form with
  | value recipe =>
      exact (h w n []).mono (fun _ _ => Edit.IsAside.proper) fun past _ _ => hduties past
  | statement recipe =>
      exact (h w n []).mono (fun _ _ => Edit.IsAside.proper) fun past _ _ => hduties past

theorem furnishes_of_aside {blocks : List Block} (hkinds : ∀ b ∈ blocks, b.kind ∉ mainKinds)
    (h : ∀ b ∈ blocks, b.form.Aside) : ∀ b ∈ blocks, b.Furnishes :=
  fun b hb => .of_aside (hkinds b hb) (h b hb)

theorem Pins.blocks_aside : ∀ b ∈ Pins.blocks, b.form.Aside := by
  simp [blocks, statement, typed, Form.Aside, digitalWrite, digitalRead, builtinLed, analogWrite,
    analogRead, openInput, openOutput, setMode, requirePulse]

theorem Time.blocks_aside : ∀ b ∈ Time.blocks, b.form.Aside := by
  simp [blocks, statement, typed, Form.Aside, delay, delaySeconds, atIntervals, requiredSocket]

theorem Control.aside_jump : (Control.jump n).Aside := by
  unfold jump
  split <;> simp

theorem Control.blocks_aside : ∀ b ∈ Control.blocks, b.form.Aside := by
  simp [blocks, statement, Form.Aside, withMentions, conditional, repeatValue, countedLoop,
    whileLoop, rangeLoop, aside_jump, arm, lastArm]

theorem Logic.blocks_aside : ∀ b ∈ Logic.blocks, b.form.Aside := by
  simp [blocks, typed, value, Form.Aside, Operator.recipe, negate, choose]

theorem Arithmetic.aside_arithmetic : (Arithmetic.arithmetic n).Aside := by
  unfold arithmetic
  split <;> simp [Operator.recipe, power]

theorem Arithmetic.aside_property : (Arithmetic.property n).Aside := by
  intro past
  simp only [property, bind_eq, gives_bind, gives_socket]
  intro x
  unfold propertyTest
  split <;> simp [includeMath]

theorem Arithmetic.blocks_aside : ∀ b ∈ Arithmetic.blocks, b.form.Aside := by
  simp [blocks, statement, value, typed, withTyping, withMentions, Form.Aside, aside_arithmetic,
    aside_property, randomInt, single, opposite, modulo, constrain, arcTangent, change]

theorem Texts.blocks_aside : ∀ b ∈ Texts.blocks, b.form.Aside := by
  simp [blocks, statement, typed, withMentions, Form.Aside, isEmpty, join, indexedSockets,
    length, append, trim]

theorem Variables.blocks_aside : ∀ b ∈ Variables.blocks, b.form.Aside := by
  simp [blocks, value, statement, Form.Aside, withTyping, withMentions, read, assign, convert,
    declare]

theorem Arrays.blocks_aside : ∀ b ∈ Arrays.blocks, b.form.Aside := by
  simp [blocks, value, statement, Form.Aside, withTyping, withMentions, list, declare, element,
    setElement, indexedSockets]

theorem Procedures.aside_parameters : ((Procedures.arguments n).mapM parameter).Aside :=
  aside_mapM fun arg _ => by simp [parameter]

theorem Procedures.blocks_aside : ∀ b ∈ Procedures.blocks, b.form.Aside := by
  simp [blocks, statement, value, withMentions, Form.Aside, define, nameOf, aside_parameters, call,
    requiredSocket, returnIf, returnText]

theorem Motors.aside_defineDirection (v : String) (wiring : Wiring) (d : Direction) :
    (defineDirection v wiring d).Aside := by
  unfold defineDirection
  simp

theorem Motors.aside_directionCall (raw direction : String) :
    (directionCall w raw direction).Aside := by
  intro past
  simp only [directionCall, bind_eq, pure_eq]
  split
  · exact gives_bind.mpr ((aside_defineDirection _ _ _ past).mono (fun _ _ hP => hP)
      fun _ _ _ => trivial)
  · trivial

theorem Motors.blocks_aside : ∀ b ∈ Motors.blocks, b.form.Aside := by
  simp [blocks, statement, Form.Aside, setUp, claimDriverPin, requirePulse, aside_defineDirection,
    move, aside_directionCall, setSpeed]

theorem Servos.aside_withServo {code : String → Recipe String} (h : ∀ v, (code v).Aside) :
    (Servos.withServo n code).Aside := by
  unfold withServo
  split
  · exact h _
  · simp

theorem Servos.blocks_aside : ∀ b ∈ Servos.blocks, b.form.Aside := by
  simp [blocks, statement, Form.Aside, aside_withServo, setUp, turn]

/-! ### Containers at work -/

theorem properPlacement_user {part : Part} {text : String} {past : List Entry}
    (hn : n ∈ w.program.nodes) (hpart : part ∈ n.parts)
    (htold : w.ChainTold past (n.head? part.socket) text) (hne : part.own = true ∨ text ≠ "") :
    ProperPlacement w past (.place part.main.sec part.key text true) := by
  intro main hmain
  obtain rfl := MainFunction.sec_injective hmain
  exact .user hn hpart htold hne

def Structure.putPart (n : Node) (part : Part) : Recipe Unit := do
  putUserCode part.main.sec part.key (← statements (n.head? part.socket))

theorem Structure.tells_putPart {part : Part} (hn : n ∈ w.program.nodes) (hpart : part ∈ n.parts)
    {post : List Entry → Unit → Prop} {past : List Entry}
    (hpost : ∀ past', past ⊆ past' → PartPlaced w n part past' → post past' ()) :
    (putPart n part).Tells w (ProperPlacement w) post past := by
  refine tells_bind.mpr fun past₁ text hsub htold => ?_
  change (putUserCode part.main.sec part.key text).Tells _ _ _ _
  unfold putUserCode
  split
  next hempty => exact hpost past₁ hsub ⟨text, htold, .inl (by simpa using hempty)⟩
  next hempty =>
      refine ⟨properPlacement_user hn hpart htold (.inr (by simpa using hempty)), fun stored => ?_⟩
      have hgrown := List.subset_append_left past₁
        [.edited (.place part.main.sec part.key text true) stored]
      refine hpost _ (List.Subset.trans hsub hgrown) ⟨text, htold.mono hgrown, .inr ?_⟩
      exact mem_placements_edited part.main.sec ⟨part.key, text, true⟩ past₁ stored

theorem Structure.furnishes_setupLoop :
    (statement "base_setup_loop" fun _ n => setupLoop n).Furnishes := by
  intro w n hn hkind past
  have hparts : n.parts = [⟨.setup, Sections.userSetupKey, "SETUP_FUNC", false⟩,
      ⟨.loop, Sections.userLoopKey, "LOOP_FUNC", false⟩] := by
    simp [Node.parts, hkind, statement]
  have hopening : opening? w n = none := by simp [opening?, hkind, statement]
  change (do
    putPart n ⟨.setup, Sections.userSetupKey, "SETUP_FUNC", false⟩
    putPart n ⟨.loop, Sections.userLoopKey, "LOOP_FUNC", false⟩
    return "" : Recipe String).Tells _ _ _ _
  refine tells_bind.mpr (tells_putPart hn (by simp [hparts]) fun past₁ _ hsetup =>
    tells_bind.mpr (tells_putPart hn (by simp [hparts]) fun past₂ hsub hloop => ⟨hn, ?_, ?_⟩))
  · simp only [hparts, List.forall_mem_cons, List.not_mem_nil, false_implies, implies_true,
      and_true]
    exact ⟨hsetup.mono hsub, hloop⟩
  · simp [hopening]

theorem Structure.furnishes_loop : (statement "base_loop" fun _ n => loop n).Furnishes := by
  intro w n hn hkind past
  have hparts : n.parts = [⟨.loop, Sections.userLoopKey, "LOOP_FUNC", false⟩] := by
    simp [Node.parts, hkind, statement]
  have hopening : opening? w n = none := by simp [opening?, hkind, statement]
  change (do
    putPart n ⟨.loop, Sections.userLoopKey, "LOOP_FUNC", false⟩
    return "" : Recipe String).Tells _ _ _ _
  refine tells_bind.mpr (tells_putPart hn (by simp [hparts]) fun past₁ _ hloop => ⟨hn, ?_, ?_⟩)
  · simpa [hparts] using hloop
  · simp [hopening]

theorem Structure.furnishes_setup : (statement "base_setup" fun _ n => setup n).Furnishes := by
  intro w n hn hkind past
  have hparts : n.parts = [⟨.setup, "base_setup_" ++ toString n.id.toNat, "DO", true⟩] := by
    simp [Node.parts, hkind, statement]
  have hopening : opening? w n = none := by simp [opening?, hkind, statement]
  have hpart : (⟨.setup, "base_setup_" ++ toString n.id.toNat, "DO", true⟩ : Part) ∈ n.parts := by
    simp [hparts]
  refine tells_bind.mpr fun past₁ text _ htold => ?_
  refine ⟨properPlacement_user hn hpart htold (.inl rfl), fun stored =>
    ⟨hn, ?_, by simp [hopening]⟩⟩
  simp only [hparts, List.forall_mem_cons, List.not_mem_nil, false_implies, implies_true, and_true]
  refine ⟨text, htold.mono (List.subset_append_left _ _), .inr ?_⟩
  exact mem_placements_edited .setups ⟨_, text, true⟩ past₁ stored

theorem Structure.blocks_furnish : ∀ b ∈ Structure.blocks, b.Furnishes := by
  simp only [blocks, List.forall_mem_cons, List.not_mem_nil, false_implies, implies_true, and_true]
  refine ⟨furnishes_setupLoop, furnishes_setup, furnishes_loop, .of_aside ?_ ?_, .of_aside ?_ ?_,
    .of_aside ?_ ?_, .of_aside ?_ ?_, .of_aside ?_ ?_, .of_aside ?_ ?_, .of_aside ?_ ?_⟩
  all_goals simp [statement, value, Form.Aside, mainKinds, globalCode, define, requiredSocket]

/-! ### Serial ports at work -/

/-- A node that opens a port owes the main functions the line for it, and nothing else. -/
theorem Serial.proper_and_duties {o : Opening} (hn : n ∈ w.program.nodes)
    (ho : opening? w n = some o) (hparts : n.parts = []) {text : String} (htext : text = o.line)
    (past : List Entry) :
    ProperPlacement w past (.place .setups speedKey text o.chosen) ∧ ∀ stored,
      MainDuties w n (past ++ [.edited (.place .setups speedKey text o.chosen) stored]) := by
  subst htext
  refine ⟨fun main hmain => ?_, fun stored => ⟨hn, by simp [hparts], fun o' ho' => ?_⟩⟩
  · obtain rfl : main = .setup := MainFunction.sec_injective hmain
    exact .serial hn ho
  · obtain rfl := Option.some.inj (ho.symm.trans ho')
    exact mem_placements_edited .setups o.placement past stored

theorem Serial.line_default (port : String) (chosen : Bool) :
    s!"{port}.begin(9600);" = Opening.line ⟨port, "9600", chosen⟩ := by
  simp [Opening.line, toString, String.append_assoc]

/-- A kind whose nodes open a port with the usual speed and leave the main functions alone then. -/
theorem Serial.furnishes_of_openPort {kind : String} {port : Workspace → Node → String}
    {rest : Workspace → Node → Recipe String}
    (hkind : ∀ w n, n.kind = kind →
      opening? w n = some ⟨port w n, "9600", false⟩ ∧ n.parts = [])
    (hrest : ∀ w n, (rest w n).Aside) :
    (statement kind fun w n => (openPort (port w n)).bind fun _ => rest w n).Furnishes := by
  intro w n hn heq
  obtain ⟨ho, hparts⟩ := hkind w n heq
  obtain ⟨hproper, hduties⟩ := proper_and_duties hn ho hparts (line_default _ _) []
  refine Form.Gives.tells (lasting_properPlacement w) (lasting_mainDuties w n) ?_
  refine ⟨hproper, fun stored => ?_⟩
  refine (hrest w n _).grows.mono (fun _ _ => Edit.IsAside.proper) fun past code h => ?_
  exact lasting_mainDuties w n (a := .statement code) h.1 (hduties stored)

theorem Serial.furnishes_printText : (statement "text_print" printText).Furnishes := by
  refine furnishes_of_openPort (fun w n hkind => ?_) fun w n => ?_
  · exact ⟨by simp [opening?, hkind], by simp [Node.parts, hkind]⟩
  · simp

theorem Serial.furnishes_print : (statement "serial_print" print).Furnishes := by
  refine furnishes_of_openPort (fun w n hkind => ?_) fun w n => ?_
  · exact ⟨by simp [opening?, hkind], by simp [Node.parts, hkind]⟩
  · simp

theorem Serial.aside_claimPort (port : String) : (claimPort w n port).Aside := by
  unfold claimPort
  split <;> simp

theorem Serial.furnishes_start : (statement "serial_init" start).Furnishes := by
  intro w n hn hkind
  have ho : opening? w n = some ⟨portOf w n, n.fieldD "SPEED" "9600", true⟩ := by
    simp [opening?, hkind, statement]
  have hparts : n.parts = [] := by simp [Node.parts, hkind, statement]
  refine Form.Gives.tells (lasting_properPlacement w) (lasting_mainDuties w n) ?_
  refine ⟨trivial, fun _ => ?_⟩
  change ((claimPort w n (portOf w n)).bind _).Gives _ _ _
  refine gives_bind.mpr ?_
  refine (aside_claimPort _ _).mono (fun _ _ => Edit.IsAside.proper) fun past _ _ => ?_
  exact proper_and_duties hn ho hparts rfl past

theorem Serial.blocks_furnish : ∀ b ∈ Serial.blocks, b.Furnishes := by
  simp only [blocks, List.forall_mem_cons, List.not_mem_nil, false_implies, implies_true, and_true]
  refine ⟨furnishes_printText, furnishes_start, furnishes_print, .of_aside ?_ ?_, .of_aside ?_ ?_,
    .of_aside ?_ ?_⟩
  all_goals simp [statement, typed, Form.Aside, mainKinds, write]

end Block

/-! ### All kinds -/

/-- Every standard kind puts into the main functions only what may be there, and what it owes to
them. -/
theorem standardBlocks_furnish : ∀ b ∈ standardBlocks, b.Furnishes := by
  simp only [standardBlocks, List.forall_mem_append]
  exact ⟨⟨⟨⟨⟨⟨⟨⟨⟨⟨⟨⟨Structure.blocks_furnish,
    furnishes_of_aside (by decide) Pins.blocks_aside⟩,
    furnishes_of_aside (by decide) Time.blocks_aside⟩,
    furnishes_of_aside (by decide) Control.blocks_aside⟩,
    furnishes_of_aside (by decide) Logic.blocks_aside⟩,
    furnishes_of_aside (by decide) Arithmetic.blocks_aside⟩,
    furnishes_of_aside (by decide) Texts.blocks_aside⟩, Serial.blocks_furnish⟩,
    furnishes_of_aside (by decide) Variables.blocks_aside⟩,
    furnishes_of_aside (by decide) Arrays.blocks_aside⟩,
    furnishes_of_aside (by decide) Procedures.blocks_aside⟩,
    furnishes_of_aside (by decide) Motors.blocks_aside⟩,
    furnishes_of_aside (by decide) Servos.blocks_aside⟩

theorem Registry.standard_tells {w : Workspace} {n : Node} (hn : n ∈ w.program.nodes) {b : Block}
    (h : standard.get? n.kind = some b) :
    b.form.Tells w (ProperPlacement w) (fun past _ => MainDuties w n past) n := by
  rw [standard, get?_ofList] at h
  have hkind : b.kind = n.kind := by simpa using List.find?_some h
  exact standardBlocks_furnish b (List.mem_of_find?_eq_some h) w n hn hkind.symm

theorem Recipe.tells_declareVariables (w : Workspace) (past : List Entry) :
    (declareVariables w).Tells w (ProperPlacement w) (fun _ _ => True) past := by
  have haside : (declareVariables w).Aside := by simp [declareVariables]
  exact Gives.tells (lasting_properPlacement w) (fun _ _ _ _ _ => trivial)
    ((haside past).mono (fun _ _ => Edit.IsAside.proper) fun _ _ h => h)

end BlockSketch
