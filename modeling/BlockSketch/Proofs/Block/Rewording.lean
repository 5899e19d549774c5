import BlockSketch.Proofs.Block.Registry
import BlockSketch.Proofs.Emission.Rewording

/-!
The standard kinds under other words. The recipes of a node with other words are akin to those that
it had before: most kinds do not look at comments, and those that ask for chains of statements put
them on lines of their own.
-/

namespace BlockSketch

open Text

/-! ### Kinds that do not look at comments -/

/-- Whatever the node, its recipe is the same with other comments in the program. -/
def Form.Deaf : Form → Prop
  | .value recipe => ∀ (u : Rewording) (w : Workspace) (n : Node) (comment : Option String),
      recipe (u.workspace w) { n with comment } = recipe w n
  | .statement recipe => ∀ (u : Rewording) (w : Workspace) (n : Node) (comment : Option String),
      recipe (u.workspace w) { n with comment } = recipe w n

/-- Whatever the node, its recipe asks for no chain of statements, and a statement is made of whole
lines. -/
def Form.Settled : Form → Prop
  | .value recipe => ∀ w n, (recipe w n).Settled fun _ => True
  | .statement recipe => ∀ w n, (recipe w n).Settled EndsLine

def Form.SelfAkin : Form → Prop
  | .value recipe => ∀ w n, (recipe w n).Akin Eq (recipe w n)
  | .statement recipe => ∀ w n, (recipe w n).Akin Kin (recipe w n)

theorem Form.Settled.selfAkin {f : Form} (h : f.Settled) : f.SelfAkin := by
  cases f with
  | value recipe => exact fun w n => (h w n).akin_eq
  | statement recipe => exact fun w n => (h w n).akin fun _ => .of_endsLine

namespace Block

/-- For every node of the kind, the recipes before and after other words are akin. -/
def Akin (b : Block) : Prop := ∀ u w n, n.kind = b.kind → b.form.Akin u w n

theorem Akin.of_deaf {b : Block} (hkind : b.kind ≠ commentKind) (hdeaf : b.form.Deaf)
    (hself : b.form.SelfAkin) : b.Akin := by
  intro u w n hn
  have hnode := u.node_of_ne (hn ▸ hkind)
  obtain ⟨kind, form, typing, mentions⟩ := b
  cases form with
  | value recipe =>
      change (recipe w n).Akin Eq (recipe (u.workspace w) (u.node n))
      rw [hnode, hdeaf u w n]
      exact hself w n
  | statement recipe =>
      change (recipe w n).Akin Kin (recipe (u.workspace w) (u.node n))
      rw [hnode, hdeaf u w n]
      exact hself w n

theorem Akin.of_settled {b : Block} (hkind : b.kind ≠ commentKind) (hdeaf : b.form.Deaf)
    (h : b.form.Settled) : b.Akin := .of_deaf hkind hdeaf h.selfAkin

/-! ### Kinds without chains of statements -/

/-- Whatever is before it, a text that ends in a line feed ends a line. -/
theorem endsLine_append_text (a : String) {b : String} (h : b.toList.getLast? = some '\n') :
    EndsLine (a ++ b) :=
  endsLine_of_getLast? (by simp [h])

theorem Pins.blocks_settled : ∀ b ∈ Pins.blocks, b.form.Settled := by
  simp [blocks, statement, typed, Form.Settled, digitalWrite, digitalRead, builtinLed, analogWrite,
    analogRead, openInput, openOutput, setMode, Recipe.requirePulse, endsLine_append_text, toString]

theorem Logic.blocks_settled : ∀ b ∈ Logic.blocks, b.form.Settled := by
  simp [blocks, typed, value, Form.Settled, Operator.recipe, negate, choose]

theorem Arithmetic.settled_arithmetic (n : Node) :
    (Arithmetic.arithmetic n).Settled fun _ => True := by
  unfold arithmetic
  split <;> simp [Operator.recipe, power]

theorem Arithmetic.settled_property (n : Node) :
    (Arithmetic.property n).Settled fun _ => True := by
  simp only [property, propertyTest, Recipe.bind_eq, Recipe.settled_bind, Recipe.settled_socket]
  intro e
  split <;> simp [includeMath]

theorem Arithmetic.blocks_settled : ∀ b ∈ Arithmetic.blocks, b.form.Settled := by
  simp [blocks, typed, value, statement, withTyping, withMentions, Form.Settled,
    settled_arithmetic, settled_property, single, opposite, modulo, constrain, arcTangent,
    randomInt, change, endsLine_append_text, toString]

theorem Texts.blocks_settled : ∀ b ∈ Texts.blocks, b.form.Settled := by
  simp [blocks, typed, statement, withMentions, Form.Settled, join, indexedSockets, length,
    isEmpty, append, trim, endsLine_append_text, toString]

theorem Serial.settled_claimPort (w : Workspace) (n : Node) (port : String) {post : Unit → Prop}
    (hpost : post ()) : (Serial.claimPort w n port).Settled post := by
  unfold claimPort
  split <;> simpa using hpost

theorem Serial.blocks_settled : ∀ b ∈ Serial.blocks, b.form.Settled := by
  simp [blocks, typed, statement, Form.Settled, printText, openPort, start, settled_claimPort,
    print, write, endsLine_empty, endsLine_append_text, toString]

theorem Variables.blocks_settled : ∀ b ∈ Variables.blocks, b.form.Settled := by
  simp [blocks, value, statement, Form.Settled, withTyping, withMentions, read, assign, convert,
    declare, endsLine_empty, endsLine_append_text, toString]

theorem Arrays.blocks_settled : ∀ b ∈ Arrays.blocks, b.form.Settled := by
  simp [blocks, value, statement, Form.Settled, withTyping, withMentions, list, declare, element,
    setElement, indexedSockets, endsLine_empty, endsLine_append_text, toString]

theorem Servos.settled_withServo {n : Node} {code : String → Recipe String}
    (h : ∀ v, (code v).Settled EndsLine) : (Servos.withServo n code).Settled EndsLine := by
  unfold withServo
  split
  · exact h _
  · exact endsLine_of_getLast? rfl

theorem Servos.blocks_settled : ∀ b ∈ Servos.blocks, b.form.Settled := by
  simp [blocks, statement, Form.Settled, settled_withServo, setUp, turn, endsLine_empty,
    endsLine_append_text, toString]

theorem Motors.settled_claimDriverPin (w : Workspace) (n : Node) (p : Motors.DriverPin) :
    (Motors.claimDriverPin w n p).Settled fun _ => True := by
  simp [claimDriverPin, Recipe.requirePulse]

theorem Motors.settled_defineDirection (v : String) (wiring : Motors.Wiring)
    (d : Motors.Direction) : (Motors.defineDirection v wiring d).Settled fun _ => True := by
  simp [defineDirection]

theorem Motors.settled_directionCall (w : Workspace) (raw direction : String) :
    (Motors.directionCall w raw direction).Settled fun _ => True := by
  unfold directionCall
  dsimp only
  split <;> simp [settled_defineDirection]

theorem Motors.blocks_settled : ∀ b ∈ Motors.blocks, b.form.Settled := by
  simp [blocks, statement, Form.Settled, setUp, move, setSpeed, endsLine_empty,
    settled_claimDriverPin, settled_defineDirection, settled_directionCall, endsLine_append_text,
    toString]

/-! ### Kinds with chains of statements -/

/-- A body with the same code makes a statement with the same code. -/
theorem sameCode_withBody (head : String) {s t : String} (h : Kin s t) :
    SameCode (withBody head s) (withBody head t) :=
  (SameCode.refl (head ++ " ")).append (((SameCode.refl _).append h.sameCode_feed).append (.refl _))

theorem kin_empty : Kin "" "" := .of_endsLine endsLine_empty

namespace Structure

theorem akin_putUserCode {sec : Section} (hsec : sec ≠ .includes) {s t : String} (h : Kin s t)
    (key : String) : (putUserCode sec key s).Akin Eq (putUserCode sec key t) := by
  unfold putUserCode
  by_cases hs : s = ""
  · rw [if_pos (by simpa using hs), if_pos (by simpa using h.empty.mp hs)]
    exact .done rfl
  · rw [if_neg (by simpa using hs), if_neg (by simpa using h.empty.not.mp hs)]
    exact Recipe.akin_put hsec h.code key

theorem akin_setupLoop (n : Node) : (setupLoop n).Akin Kin (setupLoop n) := by
  refine (Recipe.akin_statements _).bind fun _ _ hsetup => ?_
  refine (akin_putUserCode (by decide) hsetup _).bind fun _ _ _ => ?_
  refine (Recipe.akin_statements _).bind fun _ _ hloop => ?_
  exact (akin_putUserCode (by decide) hloop _).bind fun _ _ _ => .done kin_empty

theorem akin_setup (n : Node) : (setup n).Akin Kin (setup n) := by
  refine (Recipe.akin_statements _).bind fun _ _ h => ?_
  exact (Recipe.akin_put (by decide) h.code _).bind fun _ _ _ => .done kin_empty

theorem akin_loop (n : Node) : (loop n).Akin Kin (loop n) := by
  refine (Recipe.akin_statements _).bind fun _ _ h => ?_
  exact (akin_putUserCode (by decide) h _).bind fun _ _ _ => .done kin_empty

theorem akin_globalCode (n : Node) : (globalCode n).Akin Kin (globalCode n) := by
  refine (Recipe.akin_statements _).bind fun _ _ h => ?_
  exact (Recipe.akin_put (by decide) h.code _).bind fun _ _ _ => .done kin_empty

end Structure

namespace Control

theorem akin_arm (n : Node) (i : Nat) : (arm n i).Akin SameCode (arm n i) := by
  refine Recipe.Settled.bind_akin (by simp) fun condition => ?_
  exact (Recipe.akin_body n _).bind fun _ _ h => .done (sameCode_withBody _ h)

theorem akin_lastArm (n : Node) (present : Bool) :
    (lastArm n present).Akin (List.Forall₂ SameCode) (lastArm n present) := by
  unfold lastArm
  split
  · exact (Recipe.akin_body n _).bind fun _ _ h => .done (.cons (sameCode_withBody _ h) .nil)
  · exact .done .nil

theorem akin_conditional (n : Node) : (conditional n).Akin Kin (conditional n) := by
  refine (Recipe.Akin.mapM fun i _ => akin_arm n i).bind fun _ _ harms => ?_
  refine (akin_lastArm n _).bind fun _ _ hlast => .done ?_
  exact (SameCode.intercalate " " (.cons (.intercalate " else " harms) hlast)).kin_feed

theorem akin_countedLoop (n : Node) (times : String) :
    (countedLoop n times).Akin Kin (countedLoop n times) := by
  refine Recipe.Settled.bind_akin (by simp) fun counter => ?_
  exact (Recipe.akin_body n _).bind fun _ _ h => .done (sameCode_withBody _ h).kin_feed

theorem akin_repeatValue (n : Node) : (repeatValue n).Akin Kin (repeatValue n) := by
  exact Recipe.Settled.bind_akin (by simp) fun times => akin_countedLoop n times

theorem akin_whileLoop (n : Node) : (whileLoop n).Akin Kin (whileLoop n) := by
  refine Recipe.Settled.bind_akin (by simp) fun condition => ?_
  exact (Recipe.akin_body n _).bind fun _ _ h => .done (sameCode_withBody _ h).kin_feed

theorem akin_rangeLoop (n : Node) : (rangeLoop n).Akin Kin (rangeLoop n) := by
  refine Recipe.Settled.bind_akin (by simp) fun name => ?_
  refine Recipe.Settled.bind_akin (by simp) fun start => ?_
  refine Recipe.Settled.bind_akin (by simp) fun stop => ?_
  refine Recipe.Settled.bind_akin (by simp) fun step => ?_
  exact (Recipe.akin_body n _).bind fun _ _ h => .done (sameCode_withBody _ h).kin_feed

theorem settled_jump (n : Node) : (jump n).Settled EndsLine := by
  unfold jump
  split
  · exact endsLine_of_getLast? rfl
  · exact endsLine_of_getLast? rfl
  · exact fun _ => endsLine_empty

end Control

theorem Time.akin_atIntervals (n : Node) : (Time.atIntervals n).Akin Kin (Time.atIntervals n) := by
  refine Recipe.Settled.bind_akin (by simp [Recipe.requiredSocket]) fun interval => ?_
  refine (Recipe.akin_body n _).bind fun code code' h => ?_
  refine Recipe.Settled.bind_akin (by simp) fun stamp => ?_
  refine Recipe.Settled.bind_akin (by simp) fun _ => .done (sameCode_withBody _ ?_).kin_feed
  exact Kin.append (.of_endsLine (endsLine_append_text _ rfl)) h

namespace Procedures

theorem resultType_reworded (u : Rewording) (w : Workspace) (n : Node) (comment : Option String) :
    resultType (u.workspace w) { n with comment } = resultType w n := by
  have hfind : ((n.child? "RETURN").bind (u.workspace w).program.find?) =
      ((n.child? "RETURN").bind w.program.find?).map u.node := by
    cases n.child? "RETURN" with
    | none => rfl
    | some id => exact u.find?_program w.program id
  have hchild : ({ n with comment } : Node).child? "RETURN" = n.child? "RETURN" := rfl
  rw [resultType, resultType, hchild, hfind]
  cases (n.child? "RETURN").bind w.program.find? with
  | none => rfl
  | some result =>
      by_cases hkind : result.kind = Variables.readKind
      · have hnode := u.node_of_ne (n := result) (by rw [hkind]; decide)
        simp only [Option.map_some, hnode]
        rfl
      · have hkind' : (u.node result).kind ≠ Variables.readKind := hkind
        simp only [Option.map_some, if_neg hkind, if_neg hkind']

/-- Only the comments before a procedure change with its comment. -/
theorem akin_define (u : Rewording) (w : Workspace) {n : Node} (hkind : n.kind ≠ commentKind)
    {result : Recipe String} (hresult : result.Settled fun _ => True) :
    (define w n result).Akin Kin (define (u.workspace w) (u.node n) result) := by
  rw [u.node_of_ne hkind]
  have htype := resultType_reworded u w n (u.comment n)
  have hname : (nameOf n).Settled fun _ => True := fun _ => trivial
  refine hname.bind_akin fun name => ?_
  refine (Recipe.akin_body n "STACK").bind fun code code' hcode => ?_
  refine Recipe.Settled.bind_akin hresult fun returned => ?_
  have hparameters : ((arguments n).mapM parameter).Settled fun _ => True :=
    Recipe.settled_mapM (fun _ _ _ => trivial) fun _ => trivial
  refine hparameters.bind_akin fun parameters => ?_
  rw [htype]
  have hlast : EndsLine (if returned.isEmpty then "" else s!"  return {returned};\n") := by
    split
    · exact endsLine_empty
    · exact endsLine_append_text _ rfl
  refine (Recipe.akin_put (by decide) ?_ _).bind fun _ _ _ => .done kin_empty
  -- both comments leave the same code
  rw [(isCommentary_commentText _).endsLine.uncommented_append,
    (isCommentary_commentText _).endsLine.uncommented_append,
    (isCommentary_commentText _).uncommented_eq, (isCommentary_commentText _).uncommented_eq,
    (sameCode_withBody _ (hcode.append (.of_endsLine hlast))).uncommented_eq]

theorem blocks_akin : ∀ b ∈ Procedures.blocks, b.Akin := by
  have hcall (n : Node) : (call n).Settled fun _ => True := by
    simp [call, nameOf, Recipe.requiredSocket]
  have hreturn (n : Node) : (returnIf n).Settled EndsLine := by
    simp [returnIf, returnText, endsLine_feed]
  simp only [blocks, List.forall_mem_cons, List.not_mem_nil, false_implies, implies_true, and_true]
  refine ⟨fun u w n hn => ?_, fun u w n hn => ?_,
    .of_settled (by decide) (fun _ _ _ _ => rfl) ?_,
    .of_settled (by decide) (fun _ _ _ _ => rfl) ?_,
    .of_settled (by decide) (fun _ _ _ _ => rfl) fun _ => hreturn⟩
  · exact akin_define u w (by rw [hn]; decide) trivial
  · exact akin_define u w (by rw [hn]; decide) fun _ => trivial
  · simp [statement, Form.Settled, hcall, endsLine_append_text]
  · simp [value, Form.Settled, hcall]

end Procedures

/-! ### All kinds -/

theorem Structure.blocks_akin : ∀ b ∈ Structure.blocks, b.Akin := by
  simp only [blocks, List.forall_mem_cons, List.not_mem_nil, false_implies, implies_true, and_true]
  refine ⟨.of_deaf (by decide) (fun _ _ _ _ => rfl) fun _ => akin_setupLoop,
    .of_deaf (by decide) (fun _ _ _ _ => rfl) fun _ => akin_setup,
    .of_deaf (by decide) (fun _ _ _ _ => rfl) fun _ => akin_loop,
    .of_deaf (by decide) (fun _ _ _ _ => rfl) fun _ => akin_globalCode,
    .of_settled (by decide) (fun _ _ _ _ => rfl) ?_,
    .of_settled (by decide) (fun _ _ _ _ => rfl) fun _ _ => trivial,
    .of_settled (by decide) (fun _ _ _ _ => rfl) fun _ _ => trivial,
    .of_settled (by decide) (fun _ _ _ _ => rfl) fun _ n => endsLine_feed _,
    fun u w n hn => .done ?_,
    .of_settled (by decide) (fun _ _ _ _ => rfl) fun _ _ => endsLine_of_getLast? rfl⟩
  · simp [statement, Form.Settled, define, Recipe.requiredSocket, endsLine_empty]
  · have htext : (u.node n).fieldD "TEXT" "" = u.text n := by
      have hkind : n.kind = commentKind := hn
      simp only [Node.fieldD, Node.field?, Rewording.node, if_pos hkind]
      rw [SortedMap.find?_insert_self]
      rfl
    refine ⟨endsLine_feed _, endsLine_feed _, ?_, by simp⟩
    -- the new text spills what the old one spilled
    rw [uncommented_slashes, uncommented_slashes, htext, u.spills n hn]

theorem Time.blocks_akin : ∀ b ∈ Time.blocks, b.Akin := by
  simp only [blocks, List.forall_mem_cons, List.not_mem_nil, false_implies, implies_true, and_true]
  refine ⟨.of_settled (by decide) (fun _ _ _ _ => rfl) fun _ _ => trivial,
    .of_settled (by decide) (fun _ _ _ _ => rfl) fun _ _ => trivial,
    .of_settled (by decide) (fun _ _ _ _ => rfl) fun _ _ => trivial,
    .of_settled (by decide) (fun _ _ _ _ => rfl) ?_,
    .of_settled (by decide) (fun _ _ _ _ => rfl) ?_,
    .of_deaf (by decide) (fun _ _ _ _ => rfl) fun _ => akin_atIntervals⟩
  · simp [statement, Form.Settled, delay, endsLine_append_text, toString]
  · simp [statement, Form.Settled, delaySeconds, endsLine_append_text, toString]

theorem Control.blocks_akin : ∀ b ∈ Control.blocks, b.Akin := by
  simp only [blocks, List.forall_mem_cons, List.not_mem_nil, false_implies, implies_true, and_true]
  exact ⟨.of_deaf (by decide) (fun _ _ _ _ => rfl) fun _ => akin_conditional,
    .of_deaf (by decide) (fun _ _ _ _ => rfl) fun _ => akin_repeatValue,
    .of_deaf (by decide) (fun _ _ _ _ => rfl) fun _ n => akin_countedLoop n _,
    .of_deaf (by decide) (fun _ _ _ _ => rfl) fun _ => akin_whileLoop,
    .of_deaf (by decide) (fun _ _ _ _ => rfl) fun _ => akin_rangeLoop,
    .of_settled (by decide) (fun _ _ _ _ => rfl) fun _ => settled_jump⟩

/-- A driver is found under its name as before, since it is no comment. -/
theorem Motors.driver?_reworded (u : Rewording) (w : Workspace) (name : String) :
    Motors.driver? (u.workspace w) name = (Motors.driver? w name).map u.node := by
  change (w.program.nodes.map u.node).find? _ = _
  rw [List.find?_map, driver?]
  congr 2
  funext n
  by_cases hkind : n.kind = driverKind
  · rw [Function.comp_apply, u.node_of_ne (by rw [hkind]; decide)]
    rfl
  · have hkind' : (u.node n).kind ≠ driverKind := hkind
    simp only [Function.comp_apply, hkind, hkind', decide_false, Bool.false_and]

theorem Motors.blocks_deaf : ∀ b ∈ Motors.blocks, b.form.Deaf := by
  have hcall (u : Rewording) (w : Workspace) (raw direction : String) :
      directionCall (u.workspace w) raw direction = directionCall w raw direction := by
    rw [directionCall, directionCall, driver?_reworded]
    cases driver? w raw <;> cases Direction.ofName? direction <;> rfl
  have hfixed (u : Rewording) (w : Workspace) (name : String) :
      isFixedSpeed (u.workspace w) name = isFixedSpeed w name := by
    rw [isFixedSpeed, isFixedSpeed, driver?_reworded]
    cases driver? w name <;> rfl
  simp only [blocks, List.forall_mem_cons, List.not_mem_nil, false_implies, implies_true, and_true]
  refine ⟨fun _ _ _ _ => rfl, fun u w n comment => ?_, fun u w n comment => ?_⟩
  · rw [move, hcall]
    rfl
  · rw [setSpeed, hfixed]
    rfl

/-- Kinds without chains of statements that do not look at comments. -/
theorem akin_of_settled {blocks : List Block} (hkinds : ∀ b ∈ blocks, b.kind ≠ commentKind)
    (hdeaf : ∀ b ∈ blocks, b.form.Deaf) (h : ∀ b ∈ blocks, b.form.Settled) :
    ∀ b ∈ blocks, b.Akin :=
  fun b hb => .of_settled (hkinds b hb) (hdeaf b hb) (h b hb)

end Block

open Block in
/-- Every standard kind has akin recipes before and after other words. -/
theorem standardBlocks_akin : ∀ b ∈ standardBlocks, b.Akin := by
  -- apart from procedures and motors, kinds read the board and the node only
  have hdeaf : ∀ b ∈ Pins.blocks ++ Logic.blocks ++ Arithmetic.blocks ++ Texts.blocks ++
      Serial.blocks ++ Variables.blocks ++ Arrays.blocks ++ Servos.blocks, b.form.Deaf := by
    simp only [List.forall_mem_append, Pins.blocks, Logic.blocks, Arithmetic.blocks, Texts.blocks,
      Serial.blocks, Variables.blocks, Arrays.blocks, Servos.blocks, List.forall_mem_cons,
      List.not_mem_nil, false_imp_iff, implies_true, and_true]
    and_intros <;> exact fun _ _ _ _ => rfl
  simp only [List.forall_mem_append] at hdeaf
  obtain ⟨⟨⟨⟨⟨⟨⟨hpins, hlogic⟩, harithmetic⟩, htexts⟩, hserial⟩, hvariables⟩, harrays⟩, hservos⟩ :=
    hdeaf
  simp only [standardBlocks, List.forall_mem_append]
  exact ⟨⟨⟨⟨⟨⟨⟨⟨⟨⟨⟨⟨Structure.blocks_akin,
    akin_of_settled (by decide) hpins Pins.blocks_settled⟩, Time.blocks_akin⟩,
    Control.blocks_akin⟩, akin_of_settled (by decide) hlogic Logic.blocks_settled⟩,
    akin_of_settled (by decide) harithmetic Arithmetic.blocks_settled⟩,
    akin_of_settled (by decide) htexts Texts.blocks_settled⟩,
    akin_of_settled (by decide) hserial Serial.blocks_settled⟩,
    akin_of_settled (by decide) hvariables Variables.blocks_settled⟩,
    akin_of_settled (by decide) harrays Arrays.blocks_settled⟩, Procedures.blocks_akin⟩,
    akin_of_settled (by decide) Motors.blocks_deaf Motors.blocks_settled⟩,
    akin_of_settled (by decide) hservos Servos.blocks_settled⟩

theorem Registry.standard_akin {u : Rewording} {w : Workspace} {n : Node} {b : Block}
    (h : standard.get? n.kind = some b) : b.form.Akin u w n := by
  rw [get?_standard] at h
  have hkind : b.kind = n.kind := by simpa using List.find?_some h
  exact standardBlocks_akin b (List.mem_of_find?_eq_some h) u w n hkind.symm

end BlockSketch
