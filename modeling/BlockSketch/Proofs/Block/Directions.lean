import BlockSketch.Proofs.Block.Functions
import BlockSketch.Proofs.Block.Preamble
import BlockSketch.Proofs.Cpp.Token
import BlockSketch.Proofs.Text.Lines

/-!
The variables of motor drivers. The function of a direction is a list of calls, one on a line, and
the words in it are known. Those that belong to the driver are variables of pins that are wired, and
the speed. A driver declares the variables of its own wiring and sets the modes of these pins.
-/

namespace BlockSketch.Block.Motors

open Cpp Identifier

/-! ### Lines with calls -/

structure CallLine where
  name : String
  first : String
  second : String

namespace CallLine

def text (l : CallLine) : String :=
  "  " ++ l.name ++ "(" ++ l.first ++ ", " ++ l.second ++ ");\n"

def words (l : CallLine) : List String := [l.name, l.first, l.second]

def tokens (l : CallLine) : List Token :=
  [.word l.name, .sign "(", .word l.first, .sign ",", .word l.second, .sign ")", .sign ";"]

theorem tokensFrom_semicolon (cs : List Char) :
    tokensFrom [] (';' :: '\n' :: cs) = .sign ";" :: tokensFrom [] cs := rfl

theorem tokensFrom_text {l : CallLine} (h : ∀ x ∈ l.words, isWord x = true) (cs : List Char) :
    tokensFrom [] (l.text.toList ++ cs) = l.tokens ++ tokensFrom [] cs := by
  obtain ⟨hname, hfirst, hsecond⟩ : isWord l.name = true ∧ isWord l.first = true ∧
      isWord l.second = true := by simpa [words] using h
  have htext : l.text.toList ++ cs = ' ' :: ' ' :: (l.name.toList ++ '(' :: (l.first.toList ++
      ',' :: ' ' :: (l.second.toList ++ ')' :: ';' :: '\n' :: cs))) := by
    simp [text]
  rw [htext, tokensFrom_blank, tokensFrom_blank, tokensFrom_isWord hname (by simp),
    tokensFrom_bracket (by decide), tokensFrom_isWord hfirst (by simp [isCloser]),
    tokensFrom_bracket (by decide), tokensFrom_blank,
    tokensFrom_isWord hsecond (by simp [isCloser]), tokensFrom_bracket (by decide),
    tokensFrom_semicolon]
  rfl

theorem tokenize_join {ls : List CallLine} (h : ∀ l ∈ ls, ∀ x ∈ l.words, isWord x = true) :
    tokenize (String.join (ls.map text)) = ls.flatMap tokens := by
  rw [tokenize]
  induction ls with
  | nil => rfl
  | cons l rest ih =>
      obtain ⟨hl, hrest⟩ := List.forall_mem_cons.mp h
      rw [List.map_cons, String.join_cons, String.toList_append, tokensFrom_text hl, ih hrest,
        List.flatMap_cons]

theorem mem_words {l : CallLine} {x : String} (h : .word x ∈ l.tokens) : x ∈ l.words := by
  simpa [tokens, words] using h

end CallLine

/-! ### Functions of directions -/

def duty (v : String) (d : Direction) : String := if d = .stop then "0" else v ++ "Speed"

def motorCalls (v motor : String) (levels : String × String) (enable : Bool) (duty : String) :
    List CallLine :=
  [⟨"digitalWrite", v ++ motor ++ "1", levels.1⟩, ⟨"digitalWrite", v ++ motor ++ "2", levels.2⟩] ++
    if enable then [⟨"analogWrite", v ++ "EN" ++ motor, duty⟩] else []

def directionCalls (v : String) (wiring : Wiring) (d : Direction) : List CallLine :=
  motorCalls v "A" d.levelsA wiring.enableA (duty v d) ++
    if wiring.dual then motorCalls v "B" d.levelsB wiring.enableB (duty v d) else []

def directionBody (v : String) (wiring : Wiring) (d : Direction) : String :=
  "\n" ++ String.join ((directionCalls v wiring d).map CallLine.text)

theorem motorLines_eq (v motor : String) (levels : String × String) (enable : Bool)
    (duty : String) : motorLines v motor levels enable duty =
      String.join ((motorCalls v motor levels enable duty).map CallLine.text) := by
  unfold motorLines
  apply String.toList_injective
  cases enable <;> simp [motorCalls, CallLine.text, toString]

theorem directionFunction_eq (v : String) (wiring : Wiring) (d : Direction) (f : String) :
    directionFunction v wiring d f =
      "void " ++ f ++ "()" ++ braced (directionBody v wiring d) := by
  rw [directionFunction, directionBody, directionCalls]
  cases hdual : wiring.dual <;>
    simp [motorLines_eq, duty, toString, String.append_assoc]

def Wiring.suffixes (wiring : Wiring) : List String := wiring.pins.map DriverPin.suffix

theorem Wiring.mem_suffixes {wiring : Wiring} {s : String} :
    s ∈ wiring.suffixes ↔ s = "A1" ∨ s = "A2" ∨ wiring.enableA = true ∧ s = "ENA" ∨
      wiring.dual = true ∧ (s = "B1" ∨ s = "B2" ∨ wiring.enableB = true ∧ s = "ENB") := by
  obtain ⟨dual, enableA, enableB⟩ := wiring
  cases dual <;> cases enableA <;> cases enableB <;> simp [suffixes, pins]

/-- The words of a function of a direction that do not belong to the driver. -/
def plainWords : List String := ["digitalWrite", "analogWrite", "HIGH", "LOW", "0"]

/-- A word of a function of a direction: a plain one, the variable of a wired pin, or the speed. -/
def IsDriverWord (v : String) (wiring : Wiring) (x : String) : Prop :=
  x ∈ plainWords ∨ (∃ s ∈ wiring.suffixes, x = v ++ s) ∨ x = v ++ "Speed"

theorem Direction.levelsA_mem (d : Direction) :
    d.levelsA.1 ∈ plainWords ∧ d.levelsA.2 ∈ plainWords := by
  cases d <;> decide

theorem Direction.levelsB_mem (d : Direction) :
    d.levelsB.1 ∈ plainWords ∧ d.levelsB.2 ∈ plainWords := by
  cases d <;> decide

theorem isDriverWord_duty (v : String) (wiring : Wiring) (d : Direction) :
    IsDriverWord v wiring (duty v d) := by
  unfold duty
  split
  · exact .inl (by decide)
  · exact .inr (.inr rfl)

theorem forall_words_motorCalls {P : String → Prop} {v motor : String} {levels : String × String}
    {enable : Bool} {duty : String} (hwrite : P "digitalWrite") (hspeed : P "analogWrite")
    (hone : P (v ++ motor ++ "1")) (htwo : P (v ++ motor ++ "2"))
    (hlevels : P levels.1 ∧ P levels.2)
    (henable : enable = true → P (v ++ "EN" ++ motor)) (hduty : P duty) :
    ∀ l ∈ motorCalls v motor levels enable duty, ∀ x ∈ l.words, P x := by
  cases enable with
  | false => simp [motorCalls, CallLine.words, hwrite, hone, htwo, hlevels]
  | true => simp [motorCalls, CallLine.words, hwrite, hspeed, hone, htwo, hlevels, henable, hduty]

theorem isDriverWord_of_mem (v : String) (wiring : Wiring) (d : Direction) :
    ∀ l ∈ directionCalls v wiring d, ∀ x ∈ l.words, IsDriverWord v wiring x := by
  have hplain {x : String} (hx : x ∈ plainWords) : IsDriverWord v wiring x := .inl hx
  have hpin (motor digit s : String) (hs : s = motor ++ digit) (hmem : s ∈ wiring.suffixes) :
      IsDriverWord v wiring (v ++ motor ++ digit) :=
    .inr (.inl ⟨s, hmem, by rw [hs, String.append_assoc]⟩)
  have hduty := isDriverWord_duty v wiring d
  rw [directionCalls, List.forall_mem_append]
  constructor
  · refine forall_words_motorCalls (hplain (by decide)) (hplain (by decide))
      (hpin "A" "1" "A1" rfl (Wiring.mem_suffixes.mpr (by simp)))
      (hpin "A" "2" "A2" rfl (Wiring.mem_suffixes.mpr (by simp)))
      ⟨hplain d.levelsA_mem.1, hplain d.levelsA_mem.2⟩ (fun henable => ?_) hduty
    exact hpin "EN" "A" "ENA" rfl (Wiring.mem_suffixes.mpr (by simp [henable]))
  · split
    next hdual =>
        refine forall_words_motorCalls (hplain (by decide)) (hplain (by decide))
          (hpin "B" "1" "B1" rfl (Wiring.mem_suffixes.mpr (by simp [hdual])))
          (hpin "B" "2" "B2" rfl (Wiring.mem_suffixes.mpr (by simp [hdual])))
          ⟨hplain d.levelsB_mem.1, hplain d.levelsB_mem.2⟩ (fun henable => ?_) hduty
        exact hpin "EN" "B" "ENB" rfl (Wiring.mem_suffixes.mpr (by simp [hdual, henable]))
    next => exact fun _ hl => absurd hl List.not_mem_nil

/-! ### Variables -/

def allSuffixes : List String := ["A1", "A2", "ENA", "B1", "B2", "ENB", "Speed"]

theorem Wiring.suffixes_subset (wiring : Wiring) : wiring.suffixes ⊆ allSuffixes := by
  intro s hs
  rw [mem_suffixes] at hs
  rcases hs with rfl | rfl | ⟨-, rfl⟩ | ⟨-, rfl | rfl | ⟨-, rfl⟩⟩ <;> decide

theorem isWord_variable {v s : String} (hv : isWord v = true) (hs : s ∈ allSuffixes) :
    isWord (v ++ s) = true := by
  have hall : ∀ s ∈ allSuffixes, s.toList.all isWordChar = true := by decide
  exact isWord_append hv (List.all_eq_true.mp (hall s hs))

theorem isWord_of_isDriverWord {v : String} (hv : isWord v = true) {wiring : Wiring} {x : String}
    (h : IsDriverWord v wiring x) : isWord x = true := by
  have hplain : ∀ x ∈ plainWords, isWord x = true := by decide
  rcases h with h | ⟨s, hs, rfl⟩ | rfl
  · exact hplain x h
  · exact isWord_variable hv (wiring.suffixes_subset hs)
  · exact isWord_variable hv (by decide)

/-- No plain word is a variable of a driver. -/
theorem variable_not_mem_plainWords {v s : String} (hs : s ∈ allSuffixes) :
    v ++ s ∉ plainWords := by
  have hall : ∀ s ∈ allSuffixes, ∀ x ∈ plainWords, ¬ s.toList <:+ x.toList := by decide
  intro h
  exact hall s hs _ h ⟨v.toList, by simp⟩

/-- The variables of the driver that a function of a direction uses are those of wired pins, and the
speed. -/
theorem suffix_of_mem_tokenize {v : String} (hv : isWord v = true) {wiring : Wiring}
    {d : Direction} {s : String} (hs : s ∈ allSuffixes)
    (h : .word (v ++ s) ∈ tokenize (directionBody v wiring d)) :
    s ∈ wiring.suffixes ∨ s = "Speed" := by
  have hwords := isDriverWord_of_mem v wiring d
  have htokens : tokenize (directionBody v wiring d) =
      (directionCalls v wiring d).flatMap CallLine.tokens := by
    rw [← CallLine.tokenize_join fun l hl x hx => isWord_of_isDriverWord hv (hwords l hl x hx),
      directionBody, tokenize, String.toList_append]
    rfl
  rw [htokens, List.mem_flatMap] at h
  obtain ⟨l, hl, hword⟩ := h
  rcases hwords l hl _ (CallLine.mem_words hword) with hplain | ⟨s', hs', heq⟩ | heq
  · exact absurd hplain (variable_not_mem_plainWords hs)
  · exact .inl ((String.append_right_inj v).mp heq ▸ hs')
  · exact .inr ((String.append_right_inj v).mp heq)

def DeclaresVariable (text v s : String) : Prop := Text.StartsLine text ("int " ++ v ++ s ++ " = ")

def SetsMode (text v s : String) : Prop :=
  Text.HasLine text ("pinMode(" ++ v ++ s ++ ", OUTPUT);")

def variableLine (n : Node) (p : DriverPin) : String :=
  "int " ++ identifier n ++ p.suffix ++ " = " ++ n.fieldD p.field p.fallback ++ ";"

def modeLine (v : String) (p : DriverPin) : String := "pinMode(" ++ v ++ p.suffix ++ ", OUTPUT);"

theorem pinVariables_eq (n : Node) : pinVariables n =
    String.join (((Wiring.of n).pins.map (variableLine n)).map (· ++ "\n")) ++
      ("int " ++ identifier n ++ "Speed" ++ " = " ++ "200;") := by
  have hline : pinVariable n (identifier n) = (· ++ "\n") ∘ variableLine n := by
    funext p
    simp [pinVariable, variableLine, toString, String.append_assoc]
  simp [pinVariables, hline, toString, String.append_assoc]

theorem modes_eq (n : Node) : modes n =
    String.join (((Wiring.of n).pins.map (modeLine (identifier n))).map (· ++ "\n")) := by
  have hline : pinModeLine (identifier n) = (· ++ "\n") ∘ modeLine (identifier n) := by
    funext p
    simp [pinModeLine, modeLine, toString, String.append_assoc]
  simp [modes, hline]

/-- A driver declares the variables of its wired pins, and the speed. -/
theorem declaresVariable_pinVariables {n : Node} {s : String}
    (h : s ∈ (Wiring.of n).suffixes ∨ s = "Speed") :
    DeclaresVariable (pinVariables n) (identifier n) s := by
  rw [pinVariables_eq]
  rcases h with h | rfl
  · obtain ⟨p, hp, rfl⟩ := List.mem_map.mp h
    have hline := Text.hasLine_join (List.mem_map_of_mem (f := variableLine n) hp)
    rw [Text.HasLine, variableLine, String.append_assoc, String.append_assoc] at hline
    exact hline.of_append.append _
  · exact Text.startsLine_join_append _ _ "200;"

/-- A driver sets the modes of its wired pins. -/
theorem setsMode_modes {n : Node} {s : String} (h : s ∈ (Wiring.of n).suffixes) :
    SetsMode (modes n) (identifier n) s := by
  rw [modes_eq]
  obtain ⟨p, hp, rfl⟩ := List.mem_map.mp h
  exact Text.hasLine_join (List.mem_map_of_mem (f := modeLine (identifier n)) hp)

/-! ### Names of functions -/

theorem directionName_injective {v v' : String} {d d' : Direction}
    (h : directionName v d.name = directionName v' d'.name) : v = v' ∧ d = d' := by
  have hchars := congrArg (fun s => s.toList.reverse) h
  cases d <;> cases d' <;> simp [directionName, Direction.name] at hchars <;>
    simp [String.ext_iff, hchars]

/-- The function of a direction is asked for by a driver with the identifier in its name. -/
theorem exists_driver_of_direction {w : Workspace} {v : String} {d : Direction}
    {text : String → String} (h : StandardHelper w (directionName v d.name) text) :
    ∃ m ∈ w.program.nodes, m.kind = driverKind ∧ identifier m = v ∧
      text = directionFunction v (Wiring.of m) d := by
  generalize hname : directionName v d.name = name at h
  cases h with
  | @direction driver hmem hkind d' hturn =>
      obtain ⟨rfl, rfl⟩ := directionName_injective hname
      exact ⟨driver, hmem, hkind, rfl, rfl⟩
  | _ =>
      have hchars := congrArg (fun s => s.toList.reverse) hname
      cases d <;> simp [directionName, Direction.name] at hchars

end BlockSketch.Block.Motors
