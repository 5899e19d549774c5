import BlockSketch.Block.Standard
import BlockSketch.Proofs.Emission.Sockets
import BlockSketch.Proofs.Text.Numeral

/-!
The standard kinds read each socket of a node at most once. Every recipe has a lemma that tells the
sockets it reads; a kind whose sockets are numbered reads a range of them.
-/

namespace BlockSketch

open Recipe

def Form.ReadsOnce (f : Form) : Prop :=
  ∀ (w : Workspace) (n : Node), ∃ vs hs : List String, vs.Nodup ∧ hs.Nodup ∧
    match f with
    | .value recipe => (recipe w n).Reads n vs hs
    | .statement recipe => (recipe w n).Reads n vs hs

/-- A recipe for values that reads the same sockets at every node. -/
theorem Form.ReadsOnce.value {recipe : Workspace → Node → Recipe Expression}
    (vs hs : List String) (hnodup : vs.Nodup ∧ hs.Nodup)
    (h : ∀ w n, (recipe w n).Reads n vs hs) : (Form.value recipe).ReadsOnce :=
  fun w n => ⟨vs, hs, hnodup.1, hnodup.2, h w n⟩

/-- A recipe for statements that reads the same sockets at every node. -/
theorem Form.ReadsOnce.statement {recipe : Workspace → Node → Recipe String}
    (vs hs : List String) (hnodup : vs.Nodup ∧ hs.Nodup)
    (h : ∀ w n, (recipe w n).Reads n vs hs) : (Form.statement recipe).ReadsOnce :=
  fun w n => ⟨vs, hs, hnodup.1, hnodup.2, h w n⟩

theorem Form.ReadsOnce.value_none {recipe : Workspace → Node → Recipe Expression}
    (h : ∀ w n, (recipe w n).Reads n [] []) : (Form.value recipe).ReadsOnce :=
  .value [] [] ⟨.nil, .nil⟩ h

theorem Form.ReadsOnce.statement_none {recipe : Workspace → Node → Recipe String}
    (h : ∀ w n, (recipe w n).Reads n [] []) : (Form.statement recipe).ReadsOnce :=
  .statement [] [] ⟨.nil, .nil⟩ h

namespace Block

variable {w : Workspace} {n : Node}

/-! ### Numbered sockets -/

def numbered (word : String) (count : Nat) : List String :=
  (List.range count).map (fun i => word ++ toString i)

theorem numbered_nodup (word : String) (count : Nat) : (numbered word count).Nodup :=
  List.nodup_range.map (append_toString_injective word)

/-- Reading one numbered socket for every number below a count. -/
theorem reads_numbered {β : Type} {count : Nat} {f : Nat → Recipe β} (word : String)
    (hf : ∀ i, (f i).Reads n [word ++ toString i] []) :
    ((List.range count).mapM f).Reads n (numbered word count) [] := by
  have h := reads_mapM (l := List.range count) fun i _ => hf i
  rwa [← List.map_eq_flatMap, List.flatMap_eq_nil_iff.mpr fun _ _ => rfl] at h

theorem reads_indexedSockets (word : String) (count : Nat) (required : Precedence)
    (fallback : String) :
    (indexedSockets n word count required fallback).Reads n (numbered word count) [] :=
  reads_numbered word fun _ => reads_socket _ required fallback

/-! ### The structure of a sketch -/

namespace Structure

theorem reads_putUserCode (sec : Section) (key code : String) :
    (putUserCode sec key code).Reads n [] [] := by
  unfold putUserCode
  split
  · exact reads_pure ()
  · exact reads_put sec key code

theorem reads_setupLoop : (setupLoop n).Reads n [] ["SETUP_FUNC", "LOOP_FUNC"] :=
  (reads_statements "SETUP_FUNC").bind fun _ => (reads_putUserCode _ _ _).bind fun _ =>
    (reads_statements "LOOP_FUNC").bind fun _ => (reads_putUserCode _ _ _).bind fun _ =>
      reads_pure ""

theorem reads_setup : (setup n).Reads n [] ["DO"] :=
  (reads_statements "DO").bind fun _ => (reads_put _ _ _).bind fun _ => reads_pure ""

theorem reads_loop : (loop n).Reads n [] ["LOOP_FUNC"] :=
  (reads_statements "LOOP_FUNC").bind fun _ => (reads_putUserCode _ _ _).bind fun _ =>
    reads_pure ""

theorem reads_globalCode : (globalCode n).Reads n [] ["DO"] :=
  (reads_statements "DO").bind fun _ => (reads_put _ _ _).bind fun _ => reads_pure ""

theorem reads_define : (define w n).Reads n ["NAME"] [] :=
  (reads_requiredSocket "NAME" _ _).bind fun _ => (reads_offer _ _ _).bind fun _ => reads_pure ""

theorem blocks_readOnce : ∀ b ∈ blocks, b.form.ReadsOnce := by
  simp only [blocks, List.forall_mem_cons, List.not_mem_nil, false_implies, implies_true, and_true]
  exact ⟨.statement [] ["SETUP_FUNC", "LOOP_FUNC"] (by decide) fun _ _ => reads_setupLoop,
    .statement [] ["DO"] (by decide) fun _ _ => reads_setup,
    .statement [] ["LOOP_FUNC"] (by decide) fun _ _ => reads_loop,
    .statement [] ["DO"] (by decide) fun _ _ => reads_globalCode,
    .statement ["NAME"] [] (by decide) fun _ _ => reads_define,
    .value_none fun _ _ => reads_pure _,
    .value_none fun _ _ => reads_pure _,
    .statement_none fun _ _ => reads_pure _,
    .statement_none fun _ _ => reads_pure _,
    .statement_none fun _ _ => reads_pure _⟩

end Structure

/-! ### Pins and time -/

namespace Pins

theorem reads_openInput (pin label : String) : (openInput w n pin label).Reads n [] [] :=
  (reads_claimPin w n pin .input label).bind fun _ => reads_offer _ _ _

theorem reads_openOutput (pin label : String) : (openOutput w n pin label).Reads n [] [] :=
  (reads_claimPin w n pin .output label).bind fun _ => reads_offer _ _ _

theorem reads_digitalWrite : (digitalWrite w n).Reads n ["STATE"] [] :=
  (reads_socket "STATE" _ _).bind fun _ => (reads_openOutput _ _).bind fun _ => reads_pure _

theorem reads_analogWrite : (analogWrite w n).Reads n ["NUM"] [] :=
  (reads_socket "NUM" _ _).bind fun _ => (reads_claimPin _ _ _ _ _).bind fun _ =>
    (reads_requirePulse _ _ _).bind fun _ => (reads_offer _ _ _).bind fun _ =>
      (reads_report _ _ _).bind fun _ => reads_pure _

theorem blocks_readOnce : ∀ b ∈ blocks, b.form.ReadsOnce := by
  simp only [blocks, List.forall_mem_cons, List.not_mem_nil, false_implies, implies_true, and_true]
  exact ⟨.statement ["STATE"] [] (by decide) fun _ _ => reads_digitalWrite,
    .value_none fun _ _ => (reads_openInput _ _).bind fun _ => reads_pure _,
    .statement_none fun _ _ => (reads_openOutput _ _).bind fun _ => reads_pure _,
    .statement ["NUM"] [] (by decide) fun _ _ => reads_analogWrite,
    .value_none fun _ _ => (reads_openInput _ _).bind fun _ => reads_pure _,
    .value_none fun _ _ => reads_pure _⟩

end Pins

namespace Time

theorem reads_atIntervals : (atIntervals n).Reads n ["DELAY_TIME"] ["branche"] :=
  (reads_requiredSocket "DELAY_TIME" _ _).bind fun _ => (reads_body "branche").bind fun _ =>
    (reads_ask _).bind fun _ => (reads_offer _ _ _).bind fun _ => reads_pure _

theorem blocks_readOnce : ∀ b ∈ blocks, b.form.ReadsOnce := by
  simp only [blocks, List.forall_mem_cons, List.not_mem_nil, false_implies, implies_true, and_true]
  exact ⟨.value_none fun _ _ => reads_pure _,
    .value_none fun _ _ => reads_pure _,
    .value_none fun _ _ => reads_pure _,
    .statement ["DELAY_TIME"] [] (by decide) fun _ _ =>
      (reads_socket _ _ _).bind fun _ => reads_pure _,
    .statement ["DELAY_TIME"] [] (by decide) fun _ _ =>
      (reads_socket _ _ _).bind fun _ => reads_pure _,
    .statement ["DELAY_TIME"] ["branche"] (by decide) fun _ _ => reads_atIntervals⟩

end Time

/-! ### The flow of control -/

namespace Control

theorem reads_arm (i : Nat) : (arm n i).Reads n ["IF" ++ toString i] ["DO" ++ toString i] :=
  (reads_socket _ _ _).bind fun _ => (reads_body _).bind fun _ => reads_pure _

theorem reads_lastArm (present : Bool) : (lastArm n present).Reads n [] ["ELSE"] := by
  cases present with
  | true => exact (reads_body "ELSE").bind fun _ => reads_pure _
  | false => exact reads_pure _

theorem reads_conditional :
    (conditional n).Reads n (numbered "IF" ((armsOf n).further + 1))
      (numbered "DO" ((armsOf n).further + 1) ++ ["ELSE"]) := by
  have harms := reads_mapM (l := List.range ((armsOf n).further + 1))
    fun i _ => reads_arm (n := n) i
  rw [← List.map_eq_flatMap, ← List.map_eq_flatMap] at harms
  rw [← List.append_nil (numbered "IF" _)]
  exact harms.bind fun _ => (reads_lastArm (armsOf n).otherwise).bind fun _ => reads_pure _

theorem conditional_readsOnce : (Form.statement fun _ n => conditional n).ReadsOnce := by
  intro w n
  refine ⟨_, _, numbered_nodup _ _, ?_, reads_conditional⟩
  rw [List.nodup_append]
  refine ⟨numbered_nodup _ _, by decide, ?_⟩
  intro name hname other hother heq
  obtain ⟨i, -, rfl⟩ := List.mem_map.mp hname
  rw [List.mem_singleton.mp hother] at heq
  simpa using congrArg String.toList heq

theorem reads_countedLoop (times : String) : (countedLoop n times).Reads n [] ["DO"] :=
  (reads_ask _).bind fun _ => (reads_body "DO").bind fun _ => reads_pure _

theorem reads_whileLoop : (whileLoop n).Reads n ["BOOL"] ["DO"] :=
  (reads_socket "BOOL" _ _).bind fun _ => (reads_body "DO").bind fun _ => reads_pure _

theorem reads_rangeLoop : (rangeLoop n).Reads n ["FROM", "TO", "BY"] ["DO"] :=
  (reads_ask _).bind fun _ => (reads_socket "FROM" _ _).bind fun _ =>
    (reads_socket "TO" _ _).bind fun _ => (reads_socket "BY" _ _).bind fun _ =>
      (reads_body "DO").bind fun _ => reads_pure _

theorem reads_jump : (jump n).Reads n [] [] := by
  unfold jump
  split
  · exact reads_pure _
  · exact reads_pure _
  · exact (reads_report _ _ _).bind fun _ => reads_pure _

theorem blocks_readOnce : ∀ b ∈ blocks, b.form.ReadsOnce := by
  simp only [blocks, List.forall_mem_cons, List.not_mem_nil, false_implies, implies_true, and_true]
  exact ⟨conditional_readsOnce,
    .statement ["TIMES"] ["DO"] (by decide) fun _ _ =>
      (reads_socket "TIMES" _ _).bind fun _ => reads_countedLoop _,
    .statement [] ["DO"] (by decide) fun _ _ => reads_countedLoop _,
    .statement ["BOOL"] ["DO"] (by decide) fun _ _ => reads_whileLoop,
    .statement ["FROM", "TO", "BY"] ["DO"] (by decide) fun _ _ => reads_rangeLoop,
    .statement_none fun _ _ => reads_jump⟩

end Control

/-! ### Truth values, numbers and texts -/

theorem Operator.reads_recipe (o : Operator) (fallback : String) :
    (o.recipe n fallback).Reads n ["A", "B"] [] :=
  (reads_socket "A" _ _).bind fun _ => (reads_socket "B" _ _).bind fun _ => reads_pure _

namespace Logic

theorem reads_choose : (choose n).Reads n ["IF", "THEN", "ELSE"] [] :=
  (reads_socket "IF" _ _).bind fun _ => (reads_socket "THEN" _ _).bind fun _ =>
    (reads_socket "ELSE" _ _).bind fun _ => reads_pure _

theorem blocks_readOnce : ∀ b ∈ blocks, b.form.ReadsOnce := by
  simp only [blocks, List.forall_mem_cons, List.not_mem_nil, false_implies, implies_true, and_true]
  exact ⟨.value_none fun _ _ => reads_pure _,
    .value ["A", "B"] [] (by decide) fun _ _ => Operator.reads_recipe _ _,
    .value ["A", "B"] [] (by decide) fun _ _ => Operator.reads_recipe _ _,
    .value ["BOOL"] [] (by decide) fun _ _ => (reads_socket "BOOL" _ _).bind fun _ => reads_pure _,
    .value_none fun _ _ => reads_pure _,
    .value ["IF", "THEN", "ELSE"] [] (by decide) fun _ _ => reads_choose⟩

end Logic

namespace Arithmetic

theorem reads_arithmetic : (arithmetic n).Reads n ["A", "B"] [] := by
  unfold arithmetic
  split
  · exact Operator.reads_recipe _ _
  · exact (reads_socket "A" _ _).bind fun _ => (reads_socket "B" _ _).bind fun _ => reads_pure _

theorem reads_modulo : (modulo n).Reads n ["DIVIDEND", "DIVISOR"] [] :=
  (reads_socket "DIVIDEND" _ _).bind fun _ => (reads_socket "DIVISOR" _ _).bind fun _ =>
    reads_pure _

theorem reads_single : (single n).Reads n ["NUM"] [] := by
  unfold single
  dsimp only
  split
  · exact (reads_socket "NUM" _ _).bind fun _ => reads_pure _
  · exact (reads_socket "NUM" _ _).bind fun _ => reads_pure _

theorem reads_constrain : (constrain n).Reads n ["VALUE", "LOW", "HIGH"] [] :=
  (reads_socket "VALUE" _ _).bind fun _ => (reads_socket "LOW" _ _).bind fun _ =>
    (reads_socket "HIGH" _ _).bind fun _ => reads_pure _

theorem reads_arcTangent : (arcTangent n).Reads n ["X", "Y"] [] :=
  (reads_socket "X" _ _).bind fun _ => (reads_socket "Y" _ _).bind fun _ => reads_pure _

theorem reads_propertyTest (x : String) : (propertyTest n x).Reads n ["DIVISOR"] [] := by
  unfold propertyTest
  split
  · exact (reads_ask _).bind fun _ => (reads_offer _ _ _).bind fun _ => reads_pure _
  · exact reads_pure _
  · exact (reads_offer _ _ _).bind fun _ => reads_pure _
  · exact reads_pure _
  · exact reads_pure _
  · exact (reads_socket "DIVISOR" _ _).bind fun _ => reads_pure _
  · exact reads_pure _

theorem reads_property : (property n).Reads n ["NUMBER_TO_CHECK", "DIVISOR"] [] :=
  (reads_socket "NUMBER_TO_CHECK" _ _).bind fun _ => reads_propertyTest _

theorem reads_randomInt : (randomInt n).Reads n ["FROM", "TO"] [] :=
  (reads_socket "FROM" _ _).bind fun _ => (reads_socket "TO" _ _).bind fun _ =>
    (reads_ask _).bind fun _ => reads_pure _

theorem reads_change : (change n).Reads n ["DELTA"] [] :=
  (reads_socket "DELTA" _ _).bind fun _ => (reads_ask _).bind fun _ => reads_pure _

theorem blocks_readOnce : ∀ b ∈ blocks, b.form.ReadsOnce := by
  simp only [blocks, List.forall_mem_cons, List.not_mem_nil, false_implies, implies_true, and_true]
  exact ⟨.value_none fun _ _ => reads_pure _,
    .value ["A", "B"] [] (by decide) fun _ _ => reads_arithmetic,
    .value ["NUM"] [] (by decide) fun _ _ => reads_single,
    .value ["NUM"] [] (by decide) fun _ _ => reads_single,
    .value ["NUM"] [] (by decide) fun _ _ => reads_single,
    .value_none fun _ _ => reads_pure _,
    .value ["NUMBER_TO_CHECK", "DIVISOR"] [] (by decide) fun _ _ => reads_property,
    .statement ["DELTA"] [] (by decide) fun _ _ => reads_change,
    .value ["DIVIDEND", "DIVISOR"] [] (by decide) fun _ _ => reads_modulo,
    .value ["VALUE", "LOW", "HIGH"] [] (by decide) fun _ _ => reads_constrain,
    .value ["FROM", "TO"] [] (by decide) fun _ _ => reads_randomInt,
    .value_none fun _ _ => reads_pure _,
    .value ["X", "Y"] [] (by decide) fun _ _ => reads_arcTangent⟩

end Arithmetic

namespace Texts

theorem reads_join : (join n).Reads n (numbered "ADD" (countSockets n "ADD")) [] := by
  rw [← List.append_nil (numbered "ADD" _)]
  refine (reads_indexedSockets "ADD" _ _ _).bind fun _ => ?_
  split
  · exact reads_pure _
  · exact reads_pure _

theorem blocks_readOnce : ∀ b ∈ blocks, b.form.ReadsOnce := by
  simp only [blocks, List.forall_mem_cons, List.not_mem_nil, false_implies, implies_true, and_true]
  exact ⟨.value_none fun _ _ => reads_pure _,
    fun _ _ => ⟨_, [], numbered_nodup _ _, by decide, reads_join⟩,
    .value ["VALUE"] [] (by decide) fun _ _ =>
      (reads_socket "VALUE" _ _).bind fun _ => reads_pure _,
    .value ["VALUE"] [] (by decide) fun _ _ => (reads_ask _).bind fun _ =>
      (reads_socket "VALUE" _ _).bind fun _ => reads_pure _,
    .statement ["TEXT"] [] (by decide) fun _ _ => (reads_ask _).bind fun _ =>
      (reads_socket "TEXT" _ _).bind fun _ => reads_pure _,
    .value ["TEXT"] [] (by decide) fun _ _ => (reads_socket "TEXT" _ _).bind fun _ => reads_pure _⟩

end Texts

namespace Serial

theorem reads_claimPort (port : String) : (claimPort w n port).Reads n [] [] := by
  unfold claimPort
  split
  · exact (reads_claimPin _ _ _ _ _).bind fun _ => (reads_claimPin _ _ _ _ _).bind fun _ =>
      reads_pure _
  · exact reads_pure _

theorem reads_start : (start w n).Reads n [] [] :=
  (reads_report _ _ _).bind fun _ => (reads_claimPort _).bind fun _ =>
    (reads_put _ _ _).bind fun _ => reads_pure _

theorem blocks_readOnce : ∀ b ∈ blocks, b.form.ReadsOnce := by
  simp only [blocks, List.forall_mem_cons, List.not_mem_nil, false_implies, implies_true, and_true]
  exact ⟨.statement ["TEXT"] [] (by decide) fun _ _ => (reads_offer _ _ _).bind fun _ =>
      (reads_socket "TEXT" _ _).bind fun _ => reads_pure _,
    .statement_none fun _ _ => reads_start,
    .statement ["CONTENT"] [] (by decide) fun _ _ => (reads_offer _ _ _).bind fun _ =>
      (reads_socket "CONTENT" _ _).bind fun _ => reads_pure _,
    .statement ["SERIAL"] [] (by decide) fun _ _ =>
      (reads_socket "SERIAL" _ _).bind fun _ => reads_pure _,
    .value_none fun _ _ => reads_pure _,
    .value_none fun _ _ => reads_pure _⟩

end Serial

/-! ### Variables, arrays and procedures -/

namespace Variables

theorem reads_assign : (assign n).Reads n ["VALUE"] [] :=
  (reads_socket "VALUE" _ _).bind fun _ => (reads_ask _).bind fun _ => reads_pure _

theorem reads_declare (words : String) : (declare n words).Reads n ["VALUE"] [] :=
  (reads_socket "VALUE" _ _).bind fun _ => (reads_ask _).bind fun _ =>
    (reads_put _ _ _).bind fun _ => reads_pure _

theorem blocks_readOnce : ∀ b ∈ blocks, b.form.ReadsOnce := by
  simp only [blocks, List.forall_mem_cons, List.not_mem_nil, false_implies, implies_true, and_true]
  exact ⟨.value_none fun _ _ => (reads_ask _).bind fun _ => reads_pure _,
    .statement ["VALUE"] [] (by decide) fun _ _ => reads_assign,
    .value ["VARIABLE_SETTYPE_INPUT"] [] (by decide) fun _ _ =>
      (reads_socket "VARIABLE_SETTYPE_INPUT" _ _).bind fun _ => reads_pure _,
    .statement ["VALUE"] [] (by decide) fun _ _ => reads_declare _,
    .statement ["VALUE"] [] (by decide) fun _ _ => reads_declare _⟩

end Variables

namespace Arrays

theorem reads_list : (list n).Reads n (numbered "ADD" (countSockets n "ADD")) [] := by
  rw [← List.append_nil (numbered "ADD" _)]
  exact (reads_indexedSockets "ADD" _ _ _).bind fun _ => reads_pure _

theorem reads_declare : (declare n).Reads n ["contenu"] [] :=
  (reads_socket "contenu" _ _).bind fun _ => (reads_ask _).bind fun _ =>
    (reads_put _ _ _).bind fun _ => reads_pure _

theorem reads_element : (element n).Reads n ["AT", "VAR"] [] :=
  (reads_socket "AT" _ _).bind fun _ => (reads_socket "VAR" _ _).bind fun _ => reads_pure _

theorem reads_setElement : (setElement n).Reads n ["indice", "name", "value"] [] :=
  (reads_socket "indice" _ _).bind fun _ => (reads_socket "name" _ _).bind fun _ =>
    (reads_socket "value" _ _).bind fun _ => reads_pure _

theorem blocks_readOnce : ∀ b ∈ blocks, b.form.ReadsOnce := by
  simp only [blocks, List.forall_mem_cons, List.not_mem_nil, false_implies, implies_true, and_true]
  exact ⟨fun _ _ => ⟨_, [], numbered_nodup _ _, by decide, reads_list⟩,
    .statement ["contenu"] [] (by decide) fun _ _ => reads_declare,
    .value ["AT", "VAR"] [] (by decide) fun _ _ => reads_element,
    .statement ["indice", "name", "value"] [] (by decide) fun _ _ => reads_setElement⟩

end Arrays

namespace Procedures

theorem reads_parameters (args : List (String × DataType)) :
    (args.mapM parameter).Reads n [] [] := by
  have hparameter : ∀ arg ∈ args, (parameter arg).Reads n [] [] :=
    fun _ _ => (reads_ask _).bind fun _ => reads_pure _
  have h := reads_mapM hparameter
  rwa [List.flatMap_eq_nil_iff.mpr fun _ _ => rfl] at h

theorem reads_define {result : Recipe String} {vs : List String} (hresult : result.Reads n vs []) :
    (define w n result).Reads n vs ["STACK"] := by
  rw [← List.append_nil vs]
  exact (reads_ask _).bind fun _ => (reads_body "STACK").bind fun _ => hresult.bind fun _ =>
    (reads_parameters _).bind fun _ => (reads_put _ _ _).bind fun _ => reads_pure _

theorem reads_call : (call n).Reads n (numbered "ARG" (argumentCount n)) [] := by
  rw [← List.append_nil (numbered "ARG" _)]
  exact (reads_ask _).bind fun _ =>
    (reads_numbered "ARG" fun _ => reads_requiredSocket _ _ _).bind fun _ => reads_pure _

theorem reads_returnText : (returnText n).Reads n ["VALUE"] [] := by
  unfold returnText
  split
  · exact (reads_socket "VALUE" _ _).bind fun _ => reads_pure _
  · exact reads_pure _

theorem blocks_readOnce : ∀ b ∈ blocks, b.form.ReadsOnce := by
  simp only [blocks, List.forall_mem_cons, List.not_mem_nil, false_implies, implies_true, and_true]
  exact ⟨.statement [] ["STACK"] (by decide) fun _ _ => reads_define (reads_pure _),
    .statement ["RETURN"] ["STACK"] (by decide) fun _ _ => reads_define (reads_socket _ _ _),
    fun _ _ => ⟨_, [], numbered_nodup _ _, by decide, reads_call.map _⟩,
    fun _ _ => ⟨_, [], numbered_nodup _ _, by decide, reads_call.map _⟩,
    .statement ["CONDITION", "VALUE"] [] (by decide) fun _ _ =>
      (reads_socket "CONDITION" _ _).bind fun _ => reads_returnText.bind fun _ => reads_pure _⟩

end Procedures

/-! ### Motors -/

namespace Motors

theorem reads_claimDriverPin (p : DriverPin) : (claimDriverPin w n p).Reads n [] [] := by
  unfold claimDriverPin
  dsimp only
  split
  · exact (reads_claimPin _ _ _ _ _).bind fun _ => reads_requirePulse _ _ _
  · exact (reads_claimPin _ _ _ _ _).bind fun _ => reads_pure _

theorem reads_defineDirection (v : String) (wiring : Wiring) (d : Direction) :
    (defineDirection v wiring d).Reads n [] [] := by
  unfold defineDirection
  split
  · exact reads_pure _
  · exact (reads_ask _).bind fun _ => reads_pure _

theorem reads_setUp : (setUp w n).Reads n [] [] :=
  (reads_forM fun _ _ => reads_claimDriverPin _).bind fun _ => (reads_put _ _ _).bind fun _ =>
    (reads_put _ _ _).bind fun _ =>
      (reads_forM fun _ _ => (reads_defineDirection _ _ _).bind fun _ => reads_pure _).bind
        fun _ => reads_pure _

theorem reads_directionCall (raw direction : String) :
    (directionCall w raw direction).Reads n [] [] := by
  unfold directionCall
  dsimp only
  split
  · exact (reads_defineDirection _ _ _).bind fun _ => reads_pure _
  · exact reads_pure _

theorem reads_setSpeed : (setSpeed w n).Reads n [] [] := by
  unfold setSpeed
  dsimp only
  split
  · exact (reads_report _ _ _).bind fun _ => reads_pure _
  · exact (reads_report _ _ _).bind fun _ => reads_pure _

theorem blocks_readOnce : ∀ b ∈ blocks, b.form.ReadsOnce := by
  simp only [blocks, List.forall_mem_cons, List.not_mem_nil, false_implies, implies_true, and_true]
  exact ⟨.statement_none fun _ _ => reads_setUp,
    .statement_none fun _ _ => (reads_directionCall _ _).bind fun _ => reads_pure _,
    .statement_none fun _ _ => reads_setSpeed⟩

end Motors

namespace Servos

theorem reads_withServo {code : String → Recipe String} (h : ∀ v, (code v).Reads n [] []) :
    (withServo n code).Reads n [] [] := by
  unfold withServo
  split
  · exact h _
  · exact reads_pure _

theorem reads_setUp : (setUp w n).Reads n [] [] :=
  reads_withServo fun _ => (reads_claimPin _ _ _ _ _).bind fun _ =>
    (reads_offer _ _ _).bind fun _ => (reads_offer _ _ _).bind fun _ =>
      (reads_put _ _ _).bind fun _ => reads_pure _

theorem blocks_readOnce : ∀ b ∈ blocks, b.form.ReadsOnce := by
  simp only [blocks, List.forall_mem_cons, List.not_mem_nil, false_implies, implies_true, and_true]
  exact ⟨.statement_none fun _ _ => reads_setUp,
    .statement_none fun _ _ => reads_withServo fun _ =>
      (reads_report _ _ _).bind fun _ => reads_pure _,
    .statement_none fun _ _ => reads_withServo fun _ => reads_pure _,
    .statement_none fun _ _ => reads_withServo fun _ => reads_pure _⟩

end Servos

end Block

/-- Every standard kind reads each socket of a node at most once. -/
theorem standardBlocks_readOnce : ∀ b ∈ standardBlocks, b.form.ReadsOnce := by
  simp only [standardBlocks, List.forall_mem_append]
  exact ⟨⟨⟨⟨⟨⟨⟨⟨⟨⟨⟨⟨Block.Structure.blocks_readOnce, Block.Pins.blocks_readOnce⟩,
    Block.Time.blocks_readOnce⟩, Block.Control.blocks_readOnce⟩, Block.Logic.blocks_readOnce⟩,
    Block.Arithmetic.blocks_readOnce⟩, Block.Texts.blocks_readOnce⟩, Block.Serial.blocks_readOnce⟩,
    Block.Variables.blocks_readOnce⟩, Block.Arrays.blocks_readOnce⟩,
    Block.Procedures.blocks_readOnce⟩, Block.Motors.blocks_readOnce⟩, Block.Servos.blocks_readOnce⟩

end BlockSketch
