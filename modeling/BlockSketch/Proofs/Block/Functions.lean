import BlockSketch.Block.Standard
import BlockSketch.Proofs.Block.Registry
import BlockSketch.Proofs.Emission.Journal
import BlockSketch.Proofs.Identifier.Allocation

/-!
The functions that the standard kinds define and call. Two edits touch the functions of a sketch:
asking for one of the helpers, and placing the definition of a procedure under the identifier that
the recipe was told for it. All other recipes leave the functions alone. A kind whose code calls a
helper calls it by the identifier that its recipe was told.
-/

namespace BlockSketch

open Recipe Block Identifier

/-! ### Definitions -/

/-- The helper functions of a program by the names that they are asked for, with their texts: those
of the library, and one for each direction in which a driver of the program can move. -/
inductive StandardHelper (w : Workspace) : String → (String → String) → Prop where
  | prime : StandardHelper w "mathIsPrime" Arithmetic.primeTest
  | random : StandardHelper w "mathRandomInt" Arithmetic.randomBetween
  | emptyText : StandardHelper w "textIsEmpty" Texts.emptyTest
  | direction {driver : Node} (hmem : driver ∈ w.program.nodes)
      (hkind : driver.kind = Motors.driverKind) (d : Motors.Direction)
      (hturn : d.isTurn = true → (Motors.Wiring.of driver).dual = true) :
      StandardHelper w (Motors.directionName (Identifier.spell (Motors.driverName driver)) d.name)
        (Motors.directionFunction (Identifier.spell (Motors.driverName driver))
          (Motors.Wiring.of driver) d)

def definitionKinds : List String := ["procedures_defnoreturn", "procedures_defreturn"]

/-- The definition of the procedure of a node under an identifier. Its parameters go by the
identifiers that were told for its arguments. -/
def ProcedureText (w : Workspace) (n : Node) (past : List Entry) (identifier text : String) :
    Prop :=
  ∃ result ∈ ["void", (Procedures.resultType w n).declaration], ∃ parameters code,
    List.Forall₂ (fun arg parameter => ∃ name : String,
        .edited (.identifier arg.1 .variable) name ∈ past ∧
          parameter = arg.2.declaration ++ " " ++ name)
      (Procedures.arguments n) parameters ∧
    text = commentText n.comment ++
      withBody (result ++ " " ++ identifier ++ "(" ++ ", ".intercalate parameters ++ ")") code

/-- A text defines a procedure of the program, under the identifier that was told for its name. -/
def DefinesProcedure (w : Workspace) (past : List Entry) (identifier text : String) : Prop :=
  ∃ n ∈ w.program.nodes, n.kind ∈ definitionKinds ∧
    .edited (.identifier (n.fieldD "NAME" "unnamed") .procedure) identifier ∈ past ∧
      ProcedureText w n past identifier text

def procedureKey (identifier : String) : String := "%" ++ identifier

/-- An edit touches the functions of a sketch only to define a procedure or a helper. -/
def ProperEdit (w : Workspace) (past : List Entry) : Edit → Prop
  | .place sec key text overwrite =>
      sec = .functions → overwrite = true ∧
        ∃ identifier, key = procedureKey identifier ∧ DefinesProcedure w past identifier text
  | .helper name text => StandardHelper w name text
  | _ => True

/-! ### Calls -/

/-- The function for the direction that a node names, if its driver can move in it. -/
def calledDirection? (w : Workspace) (n : Node) : Option String := do
  let driver ← Motors.driver? w (Motors.driverName n)
  let d ← Motors.Direction.ofName? (n.fieldD "DIRECTION" "Forward")
  if d.isTurn && !(Motors.Wiring.of driver).dual then none
  else some (Motors.directionName (Identifier.spell (Motors.driverName n)) d.name)

/-- The helper that the code of a node calls, by the name that it is asked for. -/
def calledHelper? (w : Workspace) (n : Node) : Option String :=
  match n.kind with
  | "math_number_property" =>
      if n.fieldD "PROPERTY" "EVEN" = "PRIME" then some "mathIsPrime" else none
  | "math_random_int" => some "mathRandomInt"
  | "text_isEmpty" => some "textIsEmpty"
  | "l298_movement" => calledDirection? w n
  | _ => none

def callingKinds : List String :=
  ["math_number_property", "math_random_int", "text_isEmpty", "l298_movement"]

def Code.IsCall (code : Code) (f : String) : Prop :=
  ∃ args, code = .value ⟨f ++ "(" ++ args ++ ")", .call⟩ ∨
    code = .statement (f ++ "(" ++ args ++ ");\n")

/-- The code of a node calls its helper by an identifier that was told for this helper. -/
def CallsHelper (w : Workspace) (n : Node) (past : List Entry) (code : Code) : Prop :=
  ∀ name, calledHelper? w n = some name →
    ∃ (text : String → String) (f : String), .edited (.helper name text) f ∈ past ∧ code.IsCall f

theorem calledHelper?_eq_none {w : Workspace} {n : Node} (h : n.kind ∉ callingKinds) :
    calledHelper? w n = none := by
  unfold calledHelper?
  split <;> simp_all [callingKinds]

theorem CallsHelper.of_eq_none {w : Workspace} {n : Node} {past : List Entry} {code : Code}
    (h : calledHelper? w n = none) : CallsHelper w n past code := by
  intro name hname
  rw [h] at hname
  cases hname

theorem CallsHelper.of_asked {w : Workspace} {n : Node} {past : List Entry} {code : Code}
    {name : String} (text : String → String) (f : String) (h : calledHelper? w n = some name)
    (hasked : .edited (.helper name text) f ∈ past) (hcall : code.IsCall f) :
    CallsHelper w n past code := by
  intro name' hname'
  obtain rfl : name = name' := Option.some.inj (h.symm.trans hname')
  exact ⟨text, f, hasked, hcall⟩

theorem lasting_properEdit (w : Workspace) : Lasting (ProperEdit w) := by
  intro past past' e hsub h
  cases e with
  | place sec key text overwrite =>
      intro hsec
      obtain ⟨hoverwrite, identifier, hkey, n, hn, hkind, hasked, result, hresult, parameters, code,
        hparameters, htext⟩ := h hsec
      refine ⟨hoverwrite, identifier, hkey, n, hn, hkind, hsub hasked, result, hresult, parameters,
        code, hparameters.imp ?_, htext⟩
      rintro arg parameter ⟨name, hname, hparameter⟩
      exact ⟨name, hsub hname, hparameter⟩
  | helper name text => exact h
  | identifier name ns => trivial
  | freshVariable name => trivial
  | claim node pin usage label => trivial
  | report node concern message => trivial

theorem lasting_callsHelper (w : Workspace) (n : Node) : Lasting (CallsHelper w n) := by
  intro past past' code hsub h name hname
  obtain ⟨text, f, hasked, hcall⟩ := h name hname
  exact ⟨text, f, hsub hasked, hcall⟩

/-! ### Recipes that leave the functions alone -/

def Edit.IsPlain : Edit → Prop
  | place sec _ _ _ => sec ≠ .functions
  | helper .. => False
  | _ => True

@[simp] abbrev Recipe.Plain {α : Type} (r : Recipe α) : Prop :=
  ∀ past, r.Gives (fun _ e => e.IsPlain) (fun _ _ => True) past

def Form.Plain : Form → Prop
  | .value recipe => ∀ w n, (recipe w n).Plain
  | .statement recipe => ∀ w n, (recipe w n).Plain

namespace Edit

@[simp] theorem isPlain_place {sec : Section} {key text : String} {overwrite : Bool} :
    (place sec key text overwrite).IsPlain ↔ sec ≠ .functions := Iff.rfl

@[simp] theorem isPlain_identifier {name : String} {ns : Identifier.Namespace} :
    (identifier name ns).IsPlain := trivial

@[simp] theorem isPlain_freshVariable {name : String} : (freshVariable name).IsPlain := trivial

@[simp] theorem isPlain_claim {id : NodeId} {pin label : String} {usage : PinUsage} :
    (claim id pin usage label).IsPlain := trivial

@[simp] theorem isPlain_report {id : NodeId} {concern : Concern} {message : Option Diagnostic} :
    (report id concern message).IsPlain := trivial

theorem IsPlain.proper {w : Workspace} {past : List Entry} {e : Edit} (h : e.IsPlain) :
    ProperEdit w past e := by
  cases e with
  | place sec key text overwrite => exact fun hsec => absurd hsec h
  | helper name text => exact h.elim
  | identifier name ns => trivial
  | freshVariable name => trivial
  | claim node pin usage label => trivial
  | report node concern message => trivial

end Edit

@[simp] theorem Recipe.plain_mapM {α β : Type} {l : List β} {f : β → Recipe α}
    (h : ∀ b ∈ l, (f b).Plain) : (l.mapM f).Plain := fun past =>
  (gives_mapM (R := fun _ _ _ => True) (fun _ _ _ _ _ h => h) h past).mono (fun _ _ hP => hP)
    fun _ _ _ => trivial

@[simp] theorem Recipe.plain_forM {β : Type} {l : List β} {f : β → Recipe Unit}
    (h : ∀ b ∈ l, (f b).Plain) : (forM l f).Plain := gives_forM h

namespace Block

variable {w : Workspace} {n : Node}

/-- Every node of the kind asks for proper edits only, and calls its helper as it was told. -/
def Proper (b : Block) : Prop :=
  ∀ w : Workspace, ∀ n ∈ w.program.nodes, n.kind = b.kind →
    b.form.Gives (ProperEdit w) (CallsHelper w n) w n

/-- A kind that calls no helper has to ask for proper edits only. -/
theorem Proper.of_asks {b : Block} (hkind : b.kind ∉ callingKinds)
    (h : ∀ w : Workspace, ∀ n ∈ w.program.nodes, n.kind = b.kind →
      b.form.Gives (ProperEdit w) (fun _ _ => True) w n) : b.Proper := by
  intro w n hn heq
  have hcalls (past : List Entry) (code : Code) : CallsHelper w n past code :=
    .of_eq_none (calledHelper?_eq_none (heq ▸ hkind))
  have hgives := h w n hn heq
  obtain ⟨kind, form, typing, mentions⟩ := b
  cases form with
  | value recipe => exact hgives.mono (fun _ _ hP => hP) fun past e _ => hcalls past _
  | statement recipe => exact hgives.mono (fun _ _ hP => hP) fun past text _ => hcalls past _

theorem Proper.of_plain {b : Block} (hkind : b.kind ∉ callingKinds) (h : b.form.Plain) :
    b.Proper := by
  refine .of_asks hkind fun w n _ _ => ?_
  obtain ⟨kind, form, typing, mentions⟩ := b
  cases form with
  | value recipe => exact (h w n []).mono (fun _ _ => Edit.IsPlain.proper) fun _ _ h => h
  | statement recipe => exact (h w n []).mono (fun _ _ => Edit.IsPlain.proper) fun _ _ h => h

theorem proper_of_plain {blocks : List Block} (hkinds : ∀ b ∈ blocks, b.kind ∉ callingKinds)
    (h : ∀ b ∈ blocks, b.form.Plain) : ∀ b ∈ blocks, b.Proper :=
  fun b hb => .of_plain (hkinds b hb) (h b hb)

theorem Structure.blocks_plain : ∀ b ∈ Structure.blocks, b.form.Plain := by
  simp [blocks, statement, value, Form.Plain, setupLoop, setup, loop, globalCode, define,
    putUserCode, requiredSocket]

theorem Pins.blocks_plain : ∀ b ∈ Pins.blocks, b.form.Plain := by
  simp [blocks, statement, typed, Form.Plain, digitalWrite, digitalRead, builtinLed, analogWrite,
    analogRead, openInput, openOutput, setMode, requirePulse]

theorem Time.blocks_plain : ∀ b ∈ Time.blocks, b.form.Plain := by
  simp [blocks, statement, typed, Form.Plain, delay, delaySeconds, atIntervals, requiredSocket]

theorem Control.plain_jump : (Control.jump n).Plain := by
  unfold jump
  split <;> simp

theorem Control.blocks_plain : ∀ b ∈ Control.blocks, b.form.Plain := by
  simp [blocks, statement, Form.Plain, withMentions, conditional, repeatValue, countedLoop,
    whileLoop, rangeLoop, plain_jump, arm, lastArm]

theorem Logic.blocks_plain : ∀ b ∈ Logic.blocks, b.form.Plain := by
  simp [blocks, typed, value, Form.Plain, Operator.recipe, negate, choose]

theorem Serial.plain_claimPort (port : String) : (Serial.claimPort w n port).Plain := by
  unfold claimPort
  split <;> simp

theorem Serial.blocks_plain : ∀ b ∈ Serial.blocks, b.form.Plain := by
  simp [blocks, typed, statement, Form.Plain, printText, openPort, start, plain_claimPort, print,
    write]

theorem Variables.blocks_plain : ∀ b ∈ Variables.blocks, b.form.Plain := by
  simp [blocks, value, statement, Form.Plain, withTyping, withMentions, read, assign, convert,
    declare]

theorem Arrays.blocks_plain : ∀ b ∈ Arrays.blocks, b.form.Plain := by
  simp [blocks, value, statement, Form.Plain, withTyping, withMentions, list, declare, element,
    setElement, indexedSockets]

theorem Servos.plain_withServo {code : String → Recipe String} (h : ∀ v, (code v).Plain) :
    (Servos.withServo n code).Plain := by
  unfold withServo
  split
  · exact h _
  · simp

theorem Servos.blocks_plain : ∀ b ∈ Servos.blocks, b.form.Plain := by
  simp [blocks, statement, Form.Plain, plain_withServo, setUp, turn]

/-! ### Kinds that call a helper -/

theorem Arithmetic.gives_property (hkind : n.kind = "math_number_property") (past : List Entry) :
    (Arithmetic.property n).Gives (ProperEdit w) (fun past e => CallsHelper w n past (.value e))
      past := by
  have hcalled : calledHelper? w n =
      if n.fieldD "PROPERTY" "EVEN" = "PRIME" then some "mathIsPrime" else none := by
    simp [calledHelper?, hkind]
  have hother (h : n.fieldD "PROPERTY" "EVEN" ≠ "PRIME") (past : List Entry) (code : Code) :
      CallsHelper w n past code := .of_eq_none (by rw [hcalled, if_neg h])
  simp only [property, bind_eq, gives_bind, gives_socket]
  intro x
  unfold propertyTest
  split
  next hfield =>
      simp only [bind_eq, pure_eq, gives_bind, gives_helper, includeMath, gives_offer, gives_done]
      refine ⟨.prime, fun f => ⟨Edit.IsPlain.proper (by simp), fun stored => ?_⟩⟩
      exact .of_asked primeTest f (by rw [hcalled, if_pos hfield]) (by simp) ⟨x.text, .inl rfl⟩
  all_goals simp_all [includeMath, ProperEdit]

theorem Arithmetic.gives_randomInt (hkind : n.kind = "math_random_int") (past : List Entry) :
    (Arithmetic.randomInt n).Gives (ProperEdit w) (fun past e => CallsHelper w n past (.value e))
      past := by
  have hcalled : calledHelper? w n = some "mathRandomInt" := by simp [calledHelper?, hkind]
  simp only [randomInt, bind_eq, pure_eq, gives_bind, gives_socket, gives_helper, gives_done]
  refine fun first last => ⟨.random, fun f => ?_⟩
  refine .of_asked randomBetween f hcalled (by simp) ⟨first.text ++ ", " ++ last.text, .inl ?_⟩
  simp [String.append_assoc, toString]

theorem Texts.gives_isEmpty (hkind : n.kind = "text_isEmpty") (past : List Entry) :
    (Texts.isEmpty n).Gives (ProperEdit w) (fun past e => CallsHelper w n past (.value e))
      past := by
  have hcalled : calledHelper? w n = some "textIsEmpty" := by simp [calledHelper?, hkind]
  simp only [isEmpty, bind_eq, pure_eq, gives_bind, gives_socket, gives_helper, gives_done]
  refine ⟨.emptyText, fun f arg => ?_⟩
  exact .of_asked emptyTest f hcalled (by simp) ⟨asText arg.text, .inl rfl⟩

/-! ### Drivers -/

theorem Motors.mem_of_driver? {raw : String} {driver : Node} (h : driver? w raw = some driver) :
    driver ∈ w.program.nodes ∧ driver.kind = driverKind ∧ driverName driver = raw := by
  have hfound := List.find?_some h
  simp only [Bool.and_eq_true, decide_eq_true_eq] at hfound
  exact ⟨List.mem_of_find?_eq_some h, hfound⟩

theorem Motors.gives_defineDirection {driver : Node} (hmem : driver ∈ w.program.nodes)
    (hkind : driver.kind = driverKind) (d : Direction) {past : List Entry}
    {post : List Entry → Option String → Prop}
    (hnone : (d.isTurn && !(Wiring.of driver).dual) = true → post past none)
    (hsome : (d.isTurn && !(Wiring.of driver).dual) = false → ∀ f : String, post (past ++
      [.edited (.helper (directionName (Identifier.spell (driverName driver)) d.name)
        (directionFunction (Identifier.spell (driverName driver)) (Wiring.of driver) d)) f])
      (some f)) :
    (defineDirection (Identifier.spell (driverName driver)) (Wiring.of driver) d).Gives
      (ProperEdit w) post past := by
  unfold defineDirection
  split
  next h => exact hnone h
  next h =>
      refine ⟨.direction hmem hkind d ?_, fun f => hsome (by simpa using h) f⟩
      simpa using h

theorem Motors.plain_claimDriverPin (p : DriverPin) : (claimDriverPin w n p).Plain := by
  unfold claimDriverPin
  simp [requirePulse]

theorem Motors.gives_setUp (hn : n ∈ w.program.nodes) (hkind : n.kind = driverKind)
    (past : List Entry) : (Motors.setUp w n).Gives (ProperEdit w) (fun _ _ => True) past := by
  have hpins (past : List Entry) : ((Wiring.of n).pins.forM (claimDriverPin w n)).Gives
      (ProperEdit w) (fun _ _ => True) past :=
    (plain_forM (fun p _ => plain_claimDriverPin p) past).mono (fun _ _ => Edit.IsPlain.proper)
      fun _ _ h => h
  have hdirections (past : List Entry) : (Direction.all.forM fun d => do
        let _ ← defineDirection (Identifier.spell (driverName n)) (Wiring.of n) d).Gives
      (ProperEdit w) (fun _ _ => True) past := by
    refine gives_forM (fun d _ past => gives_bind.mpr ?_) past
    exact gives_defineDirection hn hkind d (fun _ => trivial) fun _ _ => trivial
  simp only [setUp, bind_eq, pure_eq, gives_bind, gives_put, gives_done] at hdirections ⊢
  refine (hpins past).mono (fun _ _ hP => hP) fun past' _ _ => ?_
  exact ⟨Edit.IsPlain.proper (by simp), fun _ =>
    ⟨Edit.IsPlain.proper (by simp), fun _ => hdirections _⟩⟩

theorem Motors.gives_move (hkind : n.kind = "l298_movement") (past : List Entry) :
    (Motors.move w n).Gives (ProperEdit w)
      (fun past text => CallsHelper w n past (.statement text)) past := by
  have hcalled : calledHelper? w n = calledDirection? w n := by simp [calledHelper?, hkind]
  simp only [move, directionCall, bind_eq, pure_eq, gives_bind, gives_done]
  split
  next driver d hdriver hd =>
      obtain ⟨hmem, hkind', hname⟩ := mem_of_driver? hdriver
      rw [← hname, gives_bind]
      refine gives_defineDirection hmem hkind' d ?_ ?_
      · intro hturn
        refine .of_eq_none ?_
        simpa [hcalled, calledDirection?, hdriver, hd] using hturn
      · intro hturn f
        refine .of_asked _ f ?_ (List.mem_append_right _ (List.mem_singleton_self _)) ⟨"", .inr ?_⟩
        · simpa [hcalled, calledDirection?, hdriver, hd, hname] using hturn
        · simp [String.append_assoc]
  next hother =>
      refine .of_eq_none ?_
      rw [hcalled, calledDirection?]
      cases hdriver : driver? w (driverName n) with
      | none => rfl
      | some driver =>
          cases hd : Direction.ofName? (n.fieldD "DIRECTION" "Forward") with
          | none => rfl
          | some d => exact (hother driver d hdriver hd).elim

/-! ### Procedures -/

/-- The recipe of a definition places its text under the identifier that it was told. -/
theorem Procedures.gives_define (hn : n ∈ w.program.nodes) (hkind : n.kind ∈ definitionKinds)
    {result : Recipe String} (hresult : result.Plain) (past : List Entry) :
    (Procedures.define w n result).Gives (ProperEdit w) (fun _ _ => True) past := by
  simp only [define, nameOf, bind_eq, pure_eq, gives_bind, gives_procedureName, gives_body,
    gives_put, gives_done]
  refine ⟨trivial, fun identifier code => ?_⟩
  refine (hresult _).grows.mono (fun _ _ => Edit.IsPlain.proper) fun past' returned hpast' => ?_
  have hparameter (arg : String × DataType) (past : List Entry) :
      (parameter arg).Gives (ProperEdit w) (fun past' parameter => ∃ name : String,
        .edited (.identifier arg.1 .variable) name ∈ past' ∧
          parameter = arg.2.declaration ++ " " ++ name) past := by
    simp only [parameter, bind_eq, pure_eq, gives_bind, gives_variableName, gives_done]
    exact ⟨trivial, fun name => ⟨name, by simp, rfl⟩⟩
  refine (gives_mapM ?_ (fun arg _ => hparameter arg) past').grows.mono (fun _ _ hP => hP)
    fun past'' parameters h => ?_
  · rintro arg past past' parameter hsub ⟨name, hname, heq⟩
    exact ⟨name, hsub hname, heq⟩
  · have hasked := h.1 (hpast'.1 (List.mem_append_right past (List.mem_singleton_self
      (Entry.edited (.identifier (n.fieldD "NAME" "unnamed") .procedure) identifier))))
    refine ⟨fun _ => ⟨rfl, identifier, rfl, n, hn, hkind, hasked, _, ?_, parameters, _, h.2, rfl⟩,
      fun _ => trivial⟩
    split <;> simp

theorem Procedures.plain_call : (Procedures.call n).Plain := by
  simp [call, nameOf, requiredSocket]

/-! ### All kinds -/

theorem Arithmetic.plain_arithmetic : (Arithmetic.arithmetic n).Plain := by
  unfold arithmetic
  split <;> simp [Operator.recipe, power]

theorem Arithmetic.blocks_proper : ∀ b ∈ Arithmetic.blocks, b.Proper := by
  simp only [blocks, List.forall_mem_cons, List.not_mem_nil, false_implies, implies_true, and_true]
  refine ⟨.of_plain ?_ ?_, .of_plain ?_ ?_, .of_plain ?_ ?_, .of_plain ?_ ?_, .of_plain ?_ ?_,
    .of_plain ?_ ?_, fun _ _ _ hkind => gives_property hkind [], .of_plain ?_ ?_, .of_plain ?_ ?_,
    .of_plain ?_ ?_, fun _ _ _ hkind => gives_randomInt hkind [], .of_plain ?_ ?_, .of_plain ?_ ?_⟩
  all_goals simp [statement, value, typed, withTyping, withMentions, Form.Plain, callingKinds,
    plain_arithmetic, single, opposite, modulo, constrain, arcTangent, change]

theorem Texts.blocks_proper : ∀ b ∈ Texts.blocks, b.Proper := by
  simp only [blocks, List.forall_mem_cons, List.not_mem_nil, false_implies, implies_true, and_true]
  refine ⟨.of_plain ?_ ?_, .of_plain ?_ ?_, .of_plain ?_ ?_,
    fun _ _ _ hkind => gives_isEmpty hkind [], .of_plain ?_ ?_, .of_plain ?_ ?_⟩
  all_goals simp [statement, typed, withMentions, Form.Plain, callingKinds, join, indexedSockets,
    length, append, trim]

theorem Procedures.blocks_proper : ∀ b ∈ Procedures.blocks, b.Proper := by
  simp only [blocks, List.forall_mem_cons, List.not_mem_nil, false_implies, implies_true, and_true]
  refine ⟨.of_asks (by decide) fun w n hn hkind => ?_, .of_asks (by decide) fun w n hn hkind => ?_,
    .of_plain ?_ ?_, .of_plain ?_ ?_, .of_plain ?_ ?_⟩
  · exact gives_define hn (by rw [hkind]; decide) (by simp) []
  · exact gives_define hn (by rw [hkind]; decide) (by simp) []
  all_goals simp [statement, value, Form.Plain, callingKinds, plain_call, returnIf, returnText]

theorem Motors.blocks_proper : ∀ b ∈ Motors.blocks, b.Proper := by
  simp only [blocks, List.forall_mem_cons, List.not_mem_nil, false_implies, implies_true, and_true]
  refine ⟨.of_asks (by decide) fun _ _ hn hkind => gives_setUp hn hkind [],
    fun _ _ _ hkind => gives_move hkind [], .of_plain ?_ ?_⟩
  all_goals simp [statement, Form.Plain, callingKinds, setSpeed]

end Block

/-- Every standard kind touches the functions of a sketch only to define a procedure or a helper,
and calls helpers by the identifiers that it was told. -/
theorem standardBlocks_proper : ∀ b ∈ standardBlocks, b.Proper := by
  simp only [standardBlocks, List.forall_mem_append]
  exact ⟨⟨⟨⟨⟨⟨⟨⟨⟨⟨⟨⟨proper_of_plain (by decide) Structure.blocks_plain,
    proper_of_plain (by decide) Pins.blocks_plain⟩, proper_of_plain (by decide) Time.blocks_plain⟩,
    proper_of_plain (by decide) Control.blocks_plain⟩,
    proper_of_plain (by decide) Logic.blocks_plain⟩, Arithmetic.blocks_proper⟩,
    Texts.blocks_proper⟩, proper_of_plain (by decide) Serial.blocks_plain⟩,
    proper_of_plain (by decide) Variables.blocks_plain⟩,
    proper_of_plain (by decide) Arrays.blocks_plain⟩, Procedures.blocks_proper⟩,
    Motors.blocks_proper⟩, proper_of_plain (by decide) Servos.blocks_plain⟩

theorem Registry.standard_gives {w : Workspace} {n : Node} (hn : n ∈ w.program.nodes) {b : Block}
    (h : standard.get? n.kind = some b) :
    b.form.Gives (ProperEdit w) (CallsHelper w n) w n := by
  rw [standard, get?_ofList] at h
  have hkind : b.kind = n.kind := by simpa using List.find?_some h
  exact standardBlocks_proper b (List.mem_of_find?_eq_some h) w n hn hkind.symm

theorem Recipe.plain_program (w : Workspace) : (do
    declareVariables w
    programBody w : Recipe String).Plain := by
  simp [declareVariables, programBody]

/-! ### Texts of functions -/

/-- A text that defines a function: comments, the type of the result, the name, the parameters, and
a body in brackets. -/
def FunctionText (f text : String) : Prop :=
  ∃ (comment : Option String) (result : String) (parameters : List String) (gap body : String),
    (result = "void" ∨ ∃ t : DataType, result = t.declaration) ∧
    (∀ p ∈ parameters, ∃ (t : DataType) (x : String), IsLegal x ∧ p = t.declaration ++ " " ++ x) ∧
    gap ∈ ["", " "] ∧
    text = commentText comment ++ result ++ " " ++ f ++ "(" ++ ", ".intercalate parameters ++ ")" ++
      gap ++ braced body

theorem intercalate_eq_join {lines : List String} {last : String}
    (h : lines.getLast? = some last) :
    "\n".intercalate lines = String.join (lines.dropLast.map (· ++ "\n")) ++ last := by
  induction lines with
  | nil => cases h
  | cons line rest ih =>
      cases rest with
      | nil => simpa using h
      | cons next rest =>
          rw [String.intercalate_cons_cons, ih (by simpa using h), List.dropLast_cons_cons,
            List.map_cons, String.join_cons, ← String.append_assoc]

/-- Lines that open a block and close it. -/
theorem intercalate_braced (head : String) {lines : List String}
    (h : lines.getLast? = some "\x7d") :
    "\n".intercalate ((head ++ "\x7b") :: lines) =
      head ++ braced ("\n" ++ String.join (lines.dropLast.map (· ++ "\n"))) := by
  have hne : lines ≠ [] := by
    rintro rfl
    cases h
  rw [String.intercalate_cons_of_ne_nil hne, intercalate_eq_join h]
  simp only [braced, String.append_assoc]

theorem FunctionText.of_arguments {f text : String} (result : DataType)
    (args : List (DataType × String)) (hargs : ∀ a ∈ args, spell a.2 = a.2)
    (htext : ∃ body, text = result.declaration ++ " " ++ f ++ "(" ++
      ", ".intercalate (args.map fun a => a.1.declaration ++ " " ++ a.2) ++ ")" ++ " " ++
        braced body) : FunctionText f text := by
  obtain ⟨body, htext⟩ := htext
  refine ⟨none, result.declaration, _, " ", body, .inr ⟨result, rfl⟩, ?_, by simp, htext⟩
  intro p hp
  obtain ⟨a, ha, rfl⟩ := List.mem_map.mp hp
  exact ⟨a.1, a.2, hargs a ha ▸ isLegal_spell a.2, rfl⟩

theorem FunctionText.of_lines {f text first : String} {lines : List String} (result : DataType)
    (args : List (DataType × String)) (hargs : ∀ a ∈ args, spell a.2 = a.2)
    (htext : text = "\n".intercalate (first :: lines))
    (hfirst : first = result.declaration ++ " " ++ f ++ "(" ++
      ", ".intercalate (args.map fun a => a.1.declaration ++ " " ++ a.2) ++ ")" ++ " " ++ "\x7b")
    (hlast : lines.getLast? = some "\x7d") : FunctionText f text := by
  refine .of_arguments result args hargs ?_
  rw [htext, hfirst, intercalate_braced _ hlast]
  exact ⟨_, rfl⟩

theorem StandardHelper.functionText {w : Workspace} {name : String} {text : String → String}
    (h : StandardHelper w name text) (f : String) : FunctionText f (text f) := by
  cases h with
  | prime =>
      refine .of_lines .boolean [(.number, "n")] (by decide) rfl ?_ rfl
      simp [toString, DataType.declaration, DataType.spelling, String.append_assoc]
  | random =>
      refine .of_lines .number [(.number, "min"), (.number, "max")] (by decide) rfl ?_ rfl
      simp [toString, DataType.declaration, DataType.spelling, String.append_assoc]
  | emptyText =>
      refine .of_arguments .boolean [(.text, "msg")] (by decide)
        ⟨"\n  return msg.length() == 0;\n", ?_⟩
      simp [Texts.emptyTest, DataType.declaration, DataType.spelling, braced, toString,
        String.append_assoc]
  | @direction driver hmem hkind d hturn =>
      obtain ⟨body, hbody⟩ : ∃ body, Motors.directionFunction (spell (Motors.driverName driver))
          (Motors.Wiring.of driver) d f = "void " ++ f ++ "()" ++ braced body := by
        rw [Motors.directionFunction]
        exact ⟨_, rfl⟩
      refine ⟨none, "void", [], "", body, .inl rfl, by simp, by simp, hbody.trans ?_⟩
      simp [commentText, String.append_assoc]

/-- The text of a definition, once the names of its parameters are known to be legal. -/
theorem ProcedureText.functionText {w : Workspace} {n : Node} {past : List Entry}
    {f text : String} (h : ProcedureText w n past f text)
    (hlegal : ∀ name ns x, .edited (.identifier name ns) x ∈ past → IsLegal x) :
    FunctionText f text := by
  obtain ⟨result, hresult, parameters, code, hparameters, htext⟩ := h
  refine ⟨n.comment, result, parameters, " ", "\n" ++ code, ?_, ?_, by simp, ?_⟩
  · rcases List.mem_pair.mp hresult with rfl | rfl
    · exact .inl rfl
    · exact .inr ⟨_, rfl⟩
  · intro p hp
    obtain ⟨i, hi, rfl⟩ := List.getElem_of_mem hp
    obtain ⟨name, hname, heq⟩ := hparameters.get (hparameters.length_eq ▸ hi) hi
    exact ⟨_, name, hlegal _ _ name hname, heq⟩
  · rw [htext, withBody]
    simp only [String.append_assoc]

/-- No helper is asked for under the key of a procedure. -/
theorem StandardHelper.ne_procedureKey {w : Workspace} {name : String} {text : String → String}
    (h : StandardHelper w name text) (f : String) : name ≠ procedureKey f := by
  intro heq
  have hchars : name.toList = '%' :: f.toList := by
    rw [heq, procedureKey, String.toList_append]
    rfl
  cases h with
  | prime => simp at hchars
  | random => simp at hchars
  | emptyText => simp at hchars
  | @direction driver _ _ d _ =>
      obtain ⟨c, rest, hspell, hstart, -⟩ := isLegal_spell (Motors.driverName driver)
      rw [Motors.directionName, String.toList_append, String.toList_append, hspell,
        List.cons_append, List.cons_append, List.cons.injEq] at hchars
      rw [hchars.1] at hstart
      exact absurd hstart (by decide)

end BlockSketch
