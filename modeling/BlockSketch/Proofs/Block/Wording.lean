import BlockSketch.Proofs.Block.Directions
import BlockSketch.Proofs.Block.Lexicon
import BlockSketch.Proofs.Block.Registry

/-!
What the standard kinds write. Whatever a node of such a kind writes, its words are in the
vocabulary, or the node supplies them, or they come in with what its recipe is answered.
-/

namespace BlockSketch

open Recipe Block Identifier Text Lexicon

/-- The fields that are copied into a sketch as they are. -/
def copiedFields : List String :=
  ["PIN", "BUILT_IN_LED", "STATE", "NAME", "PINMODE", "TEXT", "SERIAL", "SPEED", "TIMES", "ANGLE",
    "PIN0", "PIN1", "PIN2", "PIN3", "PIN_ENA", "PIN_ENB"]

namespace Node

/-- The names that a device has from its node, if the node gives it a name or a direction. -/
def deviceTexts (n : Node) : List String :=
  (match n.field? "VAR" with
    | some name => ("" :: Motors.allSuffixes).map (spell name ++ ·)
    | none => []) ++
  if (n.field? "VAR").isSome || (n.field? "DIRECTION").isSome then
    [Motors.directionName (Motors.identifier n) (n.fieldD "DIRECTION" "Forward")]
  else []

/-- The texts that a node supplies to a sketch. -/
def suppliedTexts (n : Node) : List String :=
  copiedFields.filterMap n.field? ++ (n.field? "TEXT").toList.map quote ++ n.comment.toList ++
    n.deviceTexts

def suppliedWords (n : Node) : List String := n.suppliedTexts.flatMap words

end Node

/-- A lexicon knows a node if it covers all that the node supplies. -/
def Lexicon.Knows (L : Lexicon) (n : Node) : Prop := ∀ text ∈ n.suppliedTexts, L.Covers text

variable {L : Lexicon} {w : Workspace} {n : Node}

theorem ownWords_builtinLed (w : Workspace) : ownWords w.profile.builtinLed = true := by
  have hall : ∀ b ∈ Board.all, ownWords b.profile.builtinLed = true := by decide
  exact hall w.board (by cases w.board <;> decide)

namespace Lexicon.Knows

theorem fieldD (h : L.Knows n) {name fallback : String} (hname : name ∈ copiedFields)
    (hfallback : ownWords fallback = true) : L.Covers (n.fieldD name fallback) := by
  rw [Node.fieldD]
  cases hfield : n.field? name with
  | none => exact covers_of_ownWords hfallback
  | some text =>
      refine h text ?_
      simp only [Node.suppliedTexts, List.mem_append, List.mem_filterMap]
      exact .inl (.inl (.inl ⟨name, hname, hfield⟩))

theorem quoted (h : L.Knows n) : L.Covers (quote (n.fieldD "TEXT" "")) := by
  rw [Node.fieldD]
  cases hfield : n.field? "TEXT" with
  | none => exact covers_of_ownWords rfl
  | some text => exact h _ (by simp [Node.suppliedTexts, hfield])

theorem pinOf (h : L.Knows n) {name : String} (hname : name ∈ copiedFields) :
    L.Covers (Pins.pinOf w n name) :=
  h.fieldD hname (ownWords_builtinLed w)

/-- The name of a device, which its node gives or which it has by default. -/
theorem device (h : L.Knows n) {fallback : String} (hfallback : ownWords (spell fallback) = true) :
    L.Covers (spell (n.fieldD "VAR" fallback)) := by
  rw [Node.fieldD]
  cases hfield : n.field? "VAR" with
  | none => exact covers_of_ownWords hfallback
  | some name => exact h _ (by simp [Node.suppliedTexts, Node.deviceTexts, hfield])

theorem deviceVariable (h : L.Knows n) {s : String} (hs : s ∈ Motors.allSuffixes) :
    L.Covers (Motors.identifier n ++ s) := by
  rw [Motors.identifier, Motors.driverName, Node.fieldD]
  cases hfield : n.field? "VAR" with
  | none =>
      have hown : ∀ s ∈ Motors.allSuffixes, ownWords (spell "MT" ++ s) = true := by decide
      exact covers_of_ownWords (hown s hs)
  | some name =>
      refine h _ ?_
      simp only [Node.suppliedTexts, Node.deviceTexts, hfield, List.mem_append]
      exact .inr (.inl (List.mem_map_of_mem (List.mem_cons_of_mem _ hs)))

theorem direction (h : L.Knows n) :
    L.Covers (Motors.directionName (Motors.identifier n) (n.fieldD "DIRECTION" "Forward")) := by
  by_cases hgiven : ((n.field? "VAR").isSome || (n.field? "DIRECTION").isSome) = true
  · exact h _ (by simp [Node.suppliedTexts, Node.deviceTexts, hgiven])
  · obtain ⟨hname, hdirection⟩ : n.field? "VAR" = none ∧ n.field? "DIRECTION" = none := by
      simpa using hgiven
    rw [Motors.identifier, Motors.driverName, Node.fieldD, Node.fieldD, hname, hdirection]
    exact covers_of_ownWords (by decide)

end Lexicon.Knows

namespace Block

theorem Pins.blocks_writeIn (h : L.Knows n) : ∀ b ∈ Pins.blocks, b.form.WritesIn L w n := by
  simp only [blocks, List.forall_mem_cons, List.not_mem_nil, false_implies, implies_true, and_true]
  refine ⟨?_, ?_, ?_, ?_, ?_, ?_⟩
  all_goals
    simp (disch := decide) [statement, typed, Form.WritesIn, digitalWrite, digitalRead,
      builtinLed, analogWrite, analogRead, openInput, openOutput, setMode, requirePulse,
      Expression.atomic, h.pinOf, h.fieldD, toString]

theorem Structure.writesIn_putUserCode {sec : Section} {key code : String} (h : L.Covers code)
    {post : Unit → Prop} (hpost : post ()) : (putUserCode sec key code).WritesIn L post := by
  unfold putUserCode
  split
  · exact hpost
  · exact writesIn_put.mpr ⟨h, hpost⟩

theorem Structure.writesIn_setupLoop (n : Node) : (setupLoop n).WritesIn L L.Stops := by
  refine writesIn_bind.mpr fun setup hsetup => writesIn_bind.mpr ?_
  refine writesIn_putUserCode hsetup.1 (writesIn_bind.mpr fun loop hloop => writesIn_bind.mpr ?_)
  exact writesIn_putUserCode hloop.1 (stops_of_ownWords rfl rfl)

theorem Structure.writesIn_loop (n : Node) : (loop n).WritesIn L L.Stops := by
  refine writesIn_bind.mpr fun code hcode => writesIn_bind.mpr ?_
  exact writesIn_putUserCode hcode.1 (stops_of_ownWords rfl rfl)

theorem Structure.writesIn_define (h : L.Knows n) : (define w n).WritesIn L L.Stops := by
  have hpin : L.Covers (n.fieldD "PIN" w.profile.builtinLed) := h.pinOf (by decide)
  simp (disch := decide) [define, hpin, toString]

theorem Structure.blocks_writeIn (h : L.Knows n) :
    ∀ b ∈ Structure.blocks, b.form.WritesIn L w n := by
  simp only [blocks, List.forall_mem_cons, List.not_mem_nil, false_implies, implies_true, and_true]
  refine ⟨writesIn_setupLoop n, ?_, writesIn_loop n, ?_, writesIn_define h, ?_, ?_, ?_, ?_, ?_⟩
  all_goals
    simp (disch := decide) [statement, value, Form.WritesIn, setup, globalCode,
      Expression.atomic, h.fieldD, toString]
  · exact fun _ h => h.1
  · exact fun _ h => h.1

theorem Time.writesIn_atIntervals (n : Node) : (atIntervals n).WritesIn L L.Stops := by
  refine writesIn_bind.mpr (writesIn_requiredSocket.mpr
    ⟨covers_of_ownWords rfl, fun interval hinterval => writesIn_bind.mpr ?_⟩)
  refine writesIn_body fun code hcode => ?_
  have hclock : L.Covers (clockOf (n.fieldD "unite" "ms")) := by
    unfold clockOf
    split <;> exact covers_of_ownWords (by decide)
  have hticks : L.Covers (ticksOf (n.fieldD "unite" "ms") interval) := by
    unfold ticksOf
    split
    · exact (covers_append_closes (by decide)).mpr hinterval
    · exact hinterval
  simp +contextual (disch := decide) [hclock, hticks, hcode.covers, toString]

theorem Time.blocks_writeIn : ∀ b ∈ Time.blocks, b.form.WritesIn L w n := by
  simp only [blocks, List.forall_mem_cons, List.not_mem_nil, false_implies, implies_true, and_true]
  refine ⟨?_, ?_, ?_, ?_, ?_, writesIn_atIntervals n⟩
  all_goals
    simp (disch := decide) [statement, typed, Form.WritesIn, delay, delaySeconds,
      Expression.atomic, toString]

namespace Control

theorem writesIn_arm (n : Node) (i : Nat) : (arm n i).WritesIn L L.Covers := by
  refine writesIn_socket_bind (by decide) fun condition hcondition => writesIn_bind.mpr ?_
  refine writesIn_body fun code hcode => ?_
  simp (disch := decide) [hcondition, hcode.covers, toString]

theorem writesIn_lastArm (n : Node) (present : Bool) :
    (lastArm n present).WritesIn L (fun texts => ∀ t ∈ texts, L.Covers t) := by
  unfold lastArm
  split
  · refine writesIn_bind.mpr (writesIn_body fun code hcode => ?_)
    simp (disch := decide) [hcode.covers]
  · exact fun _ h => absurd h List.not_mem_nil

theorem writesIn_conditional (n : Node) : (conditional n).WritesIn L L.Stops := by
  refine writesIn_bind.mpr ((writesIn_mapM fun i _ => writesIn_arm n i).mono fun arms harms => ?_)
  refine writesIn_bind.mpr ((writesIn_lastArm n _).mono fun last hlast => ?_)
  have harm : L.Covers (" else ".intercalate arms) := covers_intercalate (by decide) harms
  rw [pure_eq, writesIn_done, stops_append_separates (by decide)]
  exact covers_intercalate (by decide) (List.forall_mem_cons.mpr ⟨harm, hlast⟩)

theorem writesIn_countedLoop (n : Node) {times : String} (h : L.Covers times) :
    (countedLoop n times).WritesIn L L.Stops := by
  refine writesIn_bind.mpr (writesIn_freshVariable.mpr fun counter hcounter => ?_)
  refine writesIn_bind.mpr (writesIn_body fun code hcode => ?_)
  simp (disch := decide) [hcounter, hcode.covers, h, toString]

theorem writesIn_repeatValue (n : Node) : (repeatValue n).WritesIn L L.Stops :=
  writesIn_socket_bind rfl fun _ htimes => writesIn_countedLoop n htimes

theorem covers_negated {condition : String} (h : L.Covers condition) :
    L.Covers (negated condition) := by
  unfold negated
  split <;> simpa (disch := decide) using h

theorem writesIn_whileLoop (n : Node) : (whileLoop n).WritesIn L L.Stops := by
  refine writesIn_socket_bind (by decide) fun condition hcondition => writesIn_bind.mpr ?_
  refine writesIn_body fun code hcode => ?_
  have hshown : L.Covers (if n.fieldD "MODE" "WHILE" = "UNTIL" then negated condition
      else condition) := by
    split
    · exact covers_negated hcondition
    · exact hcondition
  simp (disch := decide) [hshown, hcode.covers, toString]

/-- The end of a loop's head goes on no word before it. -/
theorem covers_append_advance (text : String) (up : Bool) (step : Double) :
    L.Covers (text ++ advance up step) ↔ L.Covers text := by
  unfold advance
  split
  · cases up <;> simp (disch := decide)
  · cases up <;> simp (disch := decide) [← String.append_assoc]

theorem covers_rangeHead {name start stop step : String} (hname : L.Covers name)
    (hstart : L.Covers start) (hstop : L.Covers stop) (hstep : L.Covers step) :
    L.Covers (rangeHead name start stop step) := by
  unfold rangeHead
  split
  next first last stride _ _ _ =>
      cases first.le last <;>
        simp (disch := decide) [covers_append_advance, hname, hstart, hstop, toString]
  next => simp (disch := decide) [hname, hstart, hstop, hstep, toString]

theorem writesIn_rangeLoop (n : Node) : (rangeLoop n).WritesIn L L.Stops := by
  refine writesIn_bind.mpr (writesIn_variableName.mpr fun name hname => ?_)
  refine writesIn_socket_bind rfl fun start hstart => ?_
  refine writesIn_socket_bind rfl fun stop hstop => ?_
  refine writesIn_socket_bind rfl fun step hstep => ?_
  refine writesIn_bind.mpr (writesIn_body fun code hcode => ?_)
  simp (disch := decide) [covers_rangeHead hname hstart hstop hstep, hcode.covers]

theorem writesIn_jump (n : Node) : (jump n).WritesIn L L.Stops := by
  unfold jump
  split <;> simp (disch := decide)

theorem blocks_writeIn (h : L.Knows n) : ∀ b ∈ blocks, b.form.WritesIn L w n := by
  simp only [blocks, List.forall_mem_cons, List.not_mem_nil, false_implies, implies_true, and_true]
  exact ⟨writesIn_conditional n, writesIn_repeatValue n,
    writesIn_countedLoop n (h.fieldD (by decide) rfl), writesIn_whileLoop n, writesIn_rangeLoop n,
    writesIn_jump n⟩

end Control

theorem writesIn_operator {o : Operator} (hsign : ownWords o.sign = true) (n : Node)
    {fallback : String} (hfallback : ownWords fallback = true) :
    (o.recipe n fallback).WritesIn L (fun e => L.Covers e.text) := by
  simp +contextual (disch := decide) [Operator.recipe, covers_of_ownWords hfallback,
    covers_of_ownWords hsign, toString]

namespace Logic

theorem ownWords_comparison (name : String) : ownWords (comparison name).sign = true := by
  unfold comparison
  split <;> rfl

theorem ownWords_connective (name : String) : ownWords (connective name).sign = true := by
  unfold connective
  split <;> rfl

theorem covers_truth (n : Node) : L.Covers (truth n).text := by
  unfold truth
  split <;> exact covers_of_ownWords (by decide)

theorem blocks_writeIn : ∀ b ∈ blocks, b.form.WritesIn L w n := by
  simp only [blocks, value, typed, Form.WritesIn, List.forall_mem_cons, List.not_mem_nil,
    false_implies, implies_true, and_true]
  refine ⟨covers_truth n, writesIn_operator (ownWords_comparison _) n rfl,
    writesIn_operator (ownWords_connective _) n (by decide), ?_, ?_, ?_⟩
  all_goals
    simp +contextual (disch := decide) [negate, choose, Expression.atomic, toString]

end Logic

namespace Arithmetic

theorem covers_spellNumber (text : String) : L.Covers (spellNumber text) := by
  rw [spellNumber]
  split
  · exact covers_toString_int _
  · split
    · exact covers_doubleText _
    · exact covers_of_ownWords rfl
  · exact covers_of_ownWords rfl

theorem covers_number (n : Node) : L.Covers (number n).text := by
  simp only [number, covers_spellNumber]

theorem writesIn_arithmetic (n : Node) :
    (arithmetic n).WritesIn L (fun e => L.Covers e.text) := by
  unfold arithmetic
  split
  next o ho =>
      refine writesIn_operator ?_ n rfl
      revert ho
      unfold operator?
      split <;> rintro ⟨⟩ <;> rfl
  next => simp +contextual (disch := decide) [power, toString]

theorem covers_applied {x : String} (h : L.Covers x) (name : String) :
    L.Covers (applied name x).text := by
  unfold applied
  split <;> simpa (disch := decide) [toString] using h

theorem writesIn_opposite (n : Node) : (opposite n).WritesIn L (fun e => L.Covers e.text) := by
  refine writesIn_socket_bind rfl fun arg harg => ?_
  change L.Covers ((if startsNegative arg then "- " else "-") ++ arg)
  split <;> simpa (disch := decide) using harg

theorem writesIn_single (n : Node) : (single n).WritesIn L (fun e => L.Covers e.text) := by
  refine writesIn_ite.mpr ⟨fun _ => writesIn_opposite n, fun _ => ?_⟩
  exact writesIn_socket_bind rfl fun arg harg => covers_applied harg _

theorem covers_constant (name : String) : L.Covers (constant name).text := by
  unfold constant
  split <;> exact covers_of_ownWords (by decide)

/-- Lines of own words behind a first line. -/
theorem covers_intercalate_cons {first : String} {rest : List String}
    (hrest : rest.all ownWords = true) (h : L.Covers first) :
    L.Covers ("\n".intercalate (first :: rest)) :=
  covers_intercalate rfl (List.forall_mem_cons.mpr
    ⟨h, fun line hline => covers_of_ownWords (List.all_eq_true.mp hrest line hline)⟩)

theorem covers_primeTest {name : String} (h : L.Covers name) : L.Covers (primeTest name) := by
  refine covers_intercalate_cons (by decide +kernel) ?_
  simpa (disch := decide) [toString] using h

theorem covers_randomBetween {name : String} (h : L.Covers name) :
    L.Covers (randomBetween name) := by
  refine covers_intercalate_cons (by decide +kernel) ?_
  simpa (disch := decide) [toString] using h

theorem writesIn_propertyTest (n : Node) {x : String} (h : L.Covers x) :
    (propertyTest n x).WritesIn L (fun e => L.Covers e.text) := by
  unfold propertyTest
  split <;> simp +contextual (disch := decide) [includeMath, h, toString]
  exact fun _ => covers_primeTest

theorem writesIn_property (n : Node) : (property n).WritesIn L (fun e => L.Covers e.text) :=
  writesIn_socket_bind rfl fun _ hx => writesIn_propertyTest n hx

theorem writesIn_randomInt (n : Node) : (randomInt n).WritesIn L (fun e => L.Covers e.text) := by
  simp +contextual (disch := decide) [randomInt, toString]
  exact fun _ _ _ _ _ => covers_randomBetween

theorem blocks_writeIn : ∀ b ∈ blocks, b.form.WritesIn L w n := by
  simp only [blocks, value, typed, statement, withTyping, withMentions, Form.WritesIn, pure_eq,
    writesIn_done, List.forall_mem_cons, List.not_mem_nil, false_implies, implies_true, and_true]
  refine ⟨covers_number n, writesIn_arithmetic n, writesIn_single n, writesIn_single n,
    writesIn_single n, covers_constant _, writesIn_property n, ?_, ?_, ?_, writesIn_randomInt n,
    ?_, ?_⟩
  all_goals
    simp +contextual (disch := decide) [change, modulo, constrain, arcTangent,
      Expression.atomic, toString]

end Arithmetic

namespace Texts

@[simp] theorem covers_asText {code : String} : L.Covers (asText code) ↔ L.Covers code := by
  unfold asText
  split
  next hempty =>
      obtain rfl : code = "" := by simpa using hempty
      exact iff_of_true (covers_of_ownWords rfl) (covers_of_ownWords rfl)
  next => simp (disch := decide) [toString]

theorem writesIn_join (n : Node) : (join n).WritesIn L (fun e => L.Covers e.text) := by
  have hpart (i : Nat) : (socket n ("ADD" ++ toString i) .loosest "").WritesIn L L.Covers :=
    writesIn_socket.mpr ⟨covers_of_ownWords rfl, fun _ h => h⟩
  refine writesIn_bind.mpr ((writesIn_mapM fun i _ => hpart i).mono fun parts hparts => ?_)
  refine writesIn_ite.mpr ⟨fun _ => covers_of_ownWords rfl, fun _ => ?_⟩
  refine covers_intercalate rfl fun text htext => ?_
  obtain ⟨part, hpart, rfl⟩ := List.mem_map.mp htext
  exact covers_asText.mpr (hparts part hpart)

theorem blocks_writeIn (h : L.Knows n) : ∀ b ∈ blocks, b.form.WritesIn L w n := by
  simp only [blocks, typed, statement, withMentions, Form.WritesIn, pure_eq, writesIn_done,
    List.forall_mem_cons, List.not_mem_nil, false_implies, implies_true, and_true]
  refine ⟨h.quoted, writesIn_join n, ?_, ?_, ?_, ?_⟩
  all_goals
    simp +contextual (disch := decide) [length, isEmpty, emptyTest, append, trim, toString]

end Texts

namespace Serial

theorem ownWords_firstPort (w : Workspace) : ownWords (firstPort w) = true := by
  have hall : ∀ b ∈ Board.all, ownWords (firstPort ⟨default, default, .empty, b⟩) = true := by
    decide
  exact hall w.board (by cases w.board <;> decide)

theorem writesIn_claimPort (n : Node) (port : String) {post : Unit → Prop} (hpost : post ()) :
    (claimPort w n port).WritesIn L post := by
  unfold claimPort
  split
  · simp [hpost]
  · exact hpost

theorem writesIn_start (h : L.Knows n) : (start w n).WritesIn L L.Stops := by
  have hport : L.Covers (portOf w n) := h.fieldD (by decide) (ownWords_firstPort w)
  refine writesIn_bind.mpr (writesIn_report.mpr (writesIn_bind.mpr (writesIn_claimPort n _ ?_)))
  simp (disch := decide) [hport, h.fieldD, toString]

theorem writesIn_print (h : L.Knows n) : (print w n).WritesIn L L.Stops := by
  have hport : L.Covers (portOf w n) := h.fieldD (by decide) (ownWords_firstPort w)
  have hmethod :
      L.Covers (if n.fieldD "NEW_LINE" "FALSE" = "TRUE" then "println" else "print") := by
    split <;> exact covers_of_ownWords (by decide)
  simp (disch := decide) [print, openPort, hport, hmethod, toString]

theorem blocks_writeIn (h : L.Knows n) : ∀ b ∈ blocks, b.form.WritesIn L w n := by
  have hport : L.Covers (firstPort w) := covers_of_ownWords (ownWords_firstPort w)
  simp only [blocks, typed, statement, Form.WritesIn, pure_eq, writesIn_done,
    List.forall_mem_cons, List.not_mem_nil, false_implies, implies_true, and_true]
  refine ⟨?_, writesIn_start h, writesIn_print h, ?_, ?_, ?_⟩
  all_goals simp (disch := decide) [printText, openPort, write, hport, toString]

end Serial

namespace Variables

@[simp] theorem covers_declaration (t : DataType) : L.Covers t.declaration := by
  refine covers_of_ownWords ?_
  cases t <;> decide

theorem writesIn_declare (n : Node) {words : String} (h : L.Covers words) :
    (declare n words).WritesIn L L.Stops := by
  simp +contextual (disch := decide) [declare, h, toString]

theorem blocks_writeIn : ∀ b ∈ blocks, b.form.WritesIn L w n := by
  simp only [blocks, value, statement, withTyping, withMentions, Form.WritesIn,
    List.forall_mem_cons, List.not_mem_nil, false_implies, implies_true, and_true]
  refine ⟨?_, ?_, ?_, writesIn_declare n (covers_of_ownWords (by decide)),
    writesIn_declare n (covers_declaration _)⟩
  all_goals
    simp +contextual (disch := decide) [read, assign, convert, Expression.atomic, toString]

end Variables

namespace Arrays

theorem covers_append_dimensions (n : Node) (text content : String) :
    L.Covers (text ++ dimensions n content) ↔ L.Covers text ∧ L.Covers content := by
  unfold dimensions
  split <;> simp (disch := decide) [← String.append_assoc, toString]

theorem covers_shifted {index : String} (h : L.Covers index) : L.Covers (shifted index) := by
  unfold shifted
  split
  · exact covers_doubleText _
  · exact h

theorem writesIn_list (n : Node) : (list n).WritesIn L (fun e => L.Covers e.text) := by
  have hitem (i : Nat) : (socket n ("ADD" ++ toString i) .comma "0").WritesIn L L.Covers :=
    writesIn_socket.mpr ⟨covers_of_ownWords rfl, fun _ h => h⟩
  refine writesIn_bind.mpr ((writesIn_mapM fun i _ => hitem i).mono fun items hitems => ?_)
  exact covers_braced.mpr (covers_intercalate rfl hitems)

theorem writesIn_element (n : Node) : (element n).WritesIn L (fun e => L.Covers e.text) := by
  refine writesIn_socket_bind rfl fun index hindex => ?_
  simp (disch := decide) [covers_shifted hindex, Expression.atomic, toString]

theorem blocks_writeIn : ∀ b ∈ blocks, b.form.WritesIn L w n := by
  simp only [blocks, value, statement, withTyping, withMentions, Form.WritesIn,
    List.forall_mem_cons, List.not_mem_nil, false_implies, implies_true, and_true]
  refine ⟨writesIn_list n, ?_, writesIn_element n, ?_⟩
  all_goals
    simp +contextual (disch := decide) [declare, setElement, covers_append_dimensions, toString]

end Arrays

namespace Procedures

theorem writesIn_parameter (arg : String × DataType) : (parameter arg).WritesIn L L.Covers := by
  simp +contextual (disch := decide) [parameter, toString]

theorem stops_commentText (h : L.Knows n) : L.Stops (commentText n.comment) := by
  unfold commentText
  split
  next text htext =>
      exact stops_leadLines (by decide) (h text (by simp [Node.suppliedTexts, htext]))
  next => exact stops_of_ownWords rfl rfl

theorem writesIn_define (h : L.Knows n) {result : Recipe String}
    (hresult : result.WritesIn L L.Covers) : (define w n result).WritesIn L L.Stops := by
  refine writesIn_bind.mpr (writesIn_procedureName.mpr fun name hname => ?_)
  refine writesIn_bind.mpr (writesIn_body fun code hcode => ?_)
  refine writesIn_bind.mpr (hresult.mono fun returned hreturned => writesIn_bind.mpr ?_)
  refine (writesIn_mapM fun arg _ => writesIn_parameter arg).mono fun parameters hparameters => ?_
  have htype : L.Covers (if returned.isEmpty then "void" else (resultType w n).declaration) := by
    split
    · exact covers_of_ownWords (by decide)
    · exact Variables.covers_declaration _
  have hlast : L.Covers (if returned.isEmpty then "" else s!"  return {returned};\n") := by
    split
    · exact covers_of_ownWords rfl
    · simpa (disch := decide) [toString] using hreturned
  have hlist : L.Covers (", ".intercalate parameters) := covers_intercalate rfl hparameters
  refine writesIn_bind.mpr (writesIn_put.mpr ⟨?_, stops_of_ownWords rfl rfl⟩)
  refine (covers_append_of_endsApart (stops_commentText h).2).mpr ⟨(stops_commentText h).1, ?_⟩
  refine covers_withBody.mpr ⟨?_, (covers_append_of_endsApart hcode.2).mpr ⟨hcode.1, hlast⟩⟩
  simpa (disch := decide) [hname, hlist] using htype

theorem writesIn_call (n : Node) : (call n).WritesIn L L.Covers := by
  have harg (i : Nat) : (requiredSocket n s!"ARG{i}" .comma "0").WritesIn L L.Covers :=
    writesIn_requiredSocket.mpr ⟨covers_of_ownWords rfl, fun _ h => h⟩
  refine writesIn_bind.mpr (writesIn_procedureName.mpr fun name hname => writesIn_bind.mpr ?_)
  refine (writesIn_mapM fun i _ => harg i).mono fun args hargs => ?_
  have hlist : L.Covers (", ".intercalate args) := covers_intercalate rfl hargs
  simp (disch := decide) [hname, hlist]

theorem writesIn_returnText (n : Node) : (returnText n).WritesIn L L.Covers := by
  simp (disch := decide) [returnText, toString]

theorem writesIn_returnIf (n : Node) : (returnIf n).WritesIn L L.Stops := by
  refine writesIn_socket_bind (by decide) fun condition hcondition => writesIn_bind.mpr ?_
  refine (writesIn_returnText n).mono fun text htext => ?_
  simp (disch := decide) [hcondition, htext, toString]

theorem blocks_writeIn (h : L.Knows n) : ∀ b ∈ blocks, b.form.WritesIn L w n := by
  simp only [blocks, value, statement, withMentions, Form.WritesIn, List.forall_mem_cons,
    List.not_mem_nil, false_implies, implies_true, and_true]
  refine ⟨writesIn_define h (covers_of_ownWords rfl), writesIn_define h ?_, ?_, ?_,
    writesIn_returnIf n⟩
  · exact writesIn_socket.mpr ⟨covers_of_ownWords rfl, fun _ hx => hx⟩
  · exact writesIn_bind.mpr ((writesIn_call n).mono fun _ hcall =>
      (stops_append_separates (by decide)).mpr hcall)
  · exact writesIn_bind.mpr (writesIn_call n)

end Procedures

namespace Motors

/-- The variables of a driver, all of which a lexicon covers. -/
def CoversDriver (L : Lexicon) (v : String) : Prop := ∀ s ∈ allSuffixes, L.Covers (v ++ s)

theorem stops_callLine {l : CallLine} (h : ∀ x ∈ l.words, L.Covers x) : L.Stops l.text := by
  obtain ⟨hname, hfirst, hsecond⟩ : L.Covers l.name ∧ L.Covers l.first ∧ L.Covers l.second := by
    simpa [CallLine.words] using h
  simp (disch := decide) [CallLine.text, hname, hfirst, hsecond]

theorem covers_of_isDriverWord {v : String} (hv : CoversDriver L v) {wiring : Wiring} {x : String}
    (h : IsDriverWord v wiring x) : L.Covers x := by
  have hplain : ∀ x ∈ plainWords, ownWords x = true := by decide
  rcases h with h | ⟨s, hs, rfl⟩ | rfl
  · exact covers_of_ownWords (hplain x h)
  · exact hv s (wiring.suffixes_subset hs)
  · exact hv "Speed" (by decide)

theorem covers_directionFunction {v f : String} (hv : CoversDriver L v) (wiring : Wiring)
    (d : Direction) (hf : L.Covers f) : L.Covers (directionFunction v wiring d f) := by
  have hlines : L.Stops (String.join ((directionCalls v wiring d).map CallLine.text)) := by
    refine stops_join fun text htext => ?_
    obtain ⟨l, hl, rfl⟩ := List.mem_map.mp htext
    exact stops_callLine fun x hx =>
      covers_of_isDriverWord hv (isDriverWord_of_mem v wiring d l hl x hx)
  simp (disch := decide) [directionFunction_eq, directionBody, hf, hlines.covers]

theorem writesIn_defineDirection {v : String} (hv : CoversDriver L v) (wiring : Wiring)
    (d : Direction) :
    (defineDirection v wiring d).WritesIn L (fun found => ∀ f ∈ found, L.Covers f) := by
  refine writesIn_ite.mpr ⟨fun _ => by simp, fun _ => writesIn_bind.mpr ?_⟩
  refine writesIn_helper.mpr ⟨fun f hf => covers_directionFunction hv wiring d hf, fun f hf => ?_⟩
  simpa using hf

theorem driverPin_of_mem (wiring : Wiring) : ∀ p ∈ wiring.pins,
    p.suffix ∈ allSuffixes ∧ p.field ∈ copiedFields ∧ ownWords p.fallback = true := by
  obtain ⟨dual, enableA, enableB⟩ := wiring
  cases dual <;> cases enableA <;> cases enableB <;> decide

theorem covers_pinVariables (h : L.Knows n) : L.Covers (pinVariables n) := by
  have hint {s : String} (hs : s ∈ allSuffixes) : L.Covers ("int " ++ identifier n ++ s) := by
    rw [String.append_assoc, covers_opens_append (by decide)]
    exact h.deviceVariable hs
  have hlines : L.Stops (String.join
      (((Wiring.of n).pins.map (variableLine n)).map (· ++ "\n"))) := by
    refine stops_join fun text htext => ?_
    obtain ⟨line, hline, rfl⟩ := List.mem_map.mp htext
    obtain ⟨p, hp, rfl⟩ := List.mem_map.mp hline
    obtain ⟨hsuffix, hfield, hfallback⟩ := driverPin_of_mem _ p hp
    simp (disch := decide) [variableLine, hint hsuffix, h.fieldD hfield hfallback]
  rw [pinVariables_eq, covers_append_of_endsApart hlines.2]
  exact ⟨hlines.1, by simp (disch := decide) [hint (s := "Speed") (by decide)]⟩

theorem stops_modes (h : L.Knows n) : L.Stops (modes n) := by
  rw [modes_eq]
  refine stops_join fun text htext => ?_
  obtain ⟨line, hline, rfl⟩ := List.mem_map.mp htext
  obtain ⟨p, hp, rfl⟩ := List.mem_map.mp hline
  have hpin : L.Covers ("pinMode(" ++ identifier n ++ p.suffix) := by
    rw [String.append_assoc, covers_opens_append (by decide)]
    exact h.deviceVariable (driverPin_of_mem _ p hp).1
  simp (disch := decide) [modeLine, hpin]

theorem writesIn_claimDriverPin (p : DriverPin) :
    (claimDriverPin w n p).WritesIn L (fun _ => True) := by
  unfold claimDriverPin
  simp [requirePulse]

theorem writesIn_setUp (h : L.Knows n) : (setUp w n).WritesIn L L.Stops := by
  have hv : CoversDriver L (identifier n) := fun s hs => h.deviceVariable hs
  refine writesIn_bind.mpr ((writesIn_forM fun p _ => writesIn_claimDriverPin p).mono fun _ _ => ?_)
  refine writesIn_bind.mpr (writesIn_put.mpr ⟨covers_pinVariables h, ?_⟩)
  refine writesIn_bind.mpr (writesIn_put.mpr ⟨(stops_modes h).1, ?_⟩)
  refine writesIn_bind.mpr ((writesIn_forM fun d _ => ?_).mono fun _ _ => ?_)
  · exact writesIn_bind.mpr ((writesIn_defineDirection hv _ d).mono fun _ _ => trivial)
  · exact stops_of_ownWords rfl rfl

theorem writesIn_move (h : L.Knows n) : (move w n).WritesIn L L.Stops := by
  have hv : CoversDriver L (identifier n) := fun s hs => h.deviceVariable hs
  have hname (found : Option String) (hfound : ∀ f ∈ found, L.Covers f) : L.Stops (found.getD
      (directionName (identifier n) (n.fieldD "DIRECTION" "Forward")) ++ "();\n") := by
    rw [stops_append_separates (by decide)]
    cases found with
    | none => exact h.direction
    | some f => exact hfound f rfl
  refine writesIn_bind.mpr ?_
  simp only [directionCall]
  split
  next driver d _ _ =>
      exact writesIn_bind.mpr ((writesIn_defineDirection hv _ d).mono hname)
  next => exact hname none (by simp)

theorem writesIn_setSpeed (h : L.Knows n) : (setSpeed w n).WritesIn L L.Stops := by
  have hdriver : L.Covers (spell (driverName n)) := h.device (by decide)
  have hspeed : L.Covers (spell (driverName n) ++ "Speed") := h.deviceVariable (by decide)
  have hsplit : spell (driverName n) ++ "Speed = " = spell (driverName n) ++ "Speed" ++ " = " := by
    rw [String.append_assoc]
    rfl
  simp (disch := decide) [setSpeed, hdriver, hsplit, hspeed, h.fieldD, toString]

theorem blocks_writeIn (h : L.Knows n) : ∀ b ∈ blocks, b.form.WritesIn L w n := by
  simp only [blocks, statement, Form.WritesIn, List.forall_mem_cons, List.not_mem_nil,
    false_implies, implies_true, and_true]
  exact ⟨writesIn_setUp h, writesIn_move h, writesIn_setSpeed h⟩

end Motors

namespace Servos

theorem covers_of_servo? (h : L.Knows n) {v : String} (hv : servo? n = some v) : L.Covers v := by
  obtain ⟨-, rfl⟩ : ¬isBlank (n.fieldD "VAR" "myServo") = true ∧
      spell (n.fieldD "VAR" "myServo") = v := by simpa [servo?] using hv
  exact h.device (by decide)

theorem writesIn_withServo (h : L.Knows n) {code : String → Recipe String}
    (hcode : ∀ v, L.Covers v → (code v).WritesIn L L.Stops) :
    (withServo n code).WritesIn L L.Stops := by
  unfold withServo
  split
  next v hv => exact hcode v (covers_of_servo? h hv)
  next => exact stops_of_ownWords (by decide) (by decide)

theorem blocks_writeIn (h : L.Knows n) : ∀ b ∈ blocks, b.form.WritesIn L w n := by
  simp only [blocks, statement, Form.WritesIn, List.forall_mem_cons, List.not_mem_nil,
    false_implies, implies_true, and_true]
  refine ⟨writesIn_withServo h fun v hv => ?_, writesIn_withServo h fun v hv => ?_,
    writesIn_withServo h fun v hv => ?_, writesIn_withServo h fun v hv => ?_⟩
  all_goals simp (disch := decide) [hv, h.fieldD, toString]

end Servos

end Block

/-- Whatever a node of a standard kind writes, its words are in every lexicon that knows the
node. -/
theorem standardBlocks_writeIn (h : L.Knows n) : ∀ b ∈ standardBlocks, b.form.WritesIn L w n := by
  simp only [standardBlocks, List.forall_mem_append]
  exact ⟨⟨⟨⟨⟨⟨⟨⟨⟨⟨⟨⟨Structure.blocks_writeIn h, Pins.blocks_writeIn h⟩, Time.blocks_writeIn⟩,
    Control.blocks_writeIn h⟩, Logic.blocks_writeIn⟩, Arithmetic.blocks_writeIn⟩,
    Texts.blocks_writeIn h⟩, Serial.blocks_writeIn h⟩, Variables.blocks_writeIn⟩,
    Arrays.blocks_writeIn⟩, Procedures.blocks_writeIn h⟩, Motors.blocks_writeIn h⟩,
    Servos.blocks_writeIn h⟩

theorem Registry.standard_writesIn (h : L.Knows n) {b : Block}
    (hb : standard.get? n.kind = some b) : b.form.WritesIn L w n := by
  rw [standard, get?_ofList] at hb
  exact standardBlocks_writeIn h b (List.mem_of_find?_eq_some hb)

end BlockSketch
