import BlockSketch.Sketch.Assembly
import BlockSketch.Text.Quoted
import Mathlib.Data.List.Basic

/-!
String literals are read back. A literal starts with a quote and ends with the first quote that no
backslash takes away; each backslash in between takes the character behind it and stands with it for
one character. Read so, the literal of a text ends where it was meant to end and gives the text.

No line ends inside the literal of a text. So the steps that indent code, which work line by line,
change what stands around a literal and leave the literal itself as it is.
-/

namespace BlockSketch.Text

namespace Quoted

/-! ### Reading literals -/

/-- The character that a backslash and the character behind it stand for. Numbered characters are
left out. -/
def escaped? : Char → Option Char
  | '\\' => some '\\'
  | '"' => some '"'
  | '\x27' => some '\x27'
  | '?' => some '?'
  | 'a' => some '\x07'
  | 'b' => some '\x08'
  | 'f' => some '\x0c'
  | 'n' => some '\n'
  | 'r' => some '\r'
  | 't' => some '\t'
  | 'v' => some '\x0b'
  | _ => none

/-- Read a literal from behind its opening quote: the text that it stands for, and what follows the
closing quote. A literal that a line end cuts off is none. -/
def readTail? : List Char → Option (List Char × List Char)
  | [] => none
  | '"' :: rest => some ([], rest)
  | '\n' :: _ => none
  | ['\\'] => none
  | '\\' :: e :: rest =>
      match escaped? e, readTail? rest with
      | some c, some (text, rest) => some (c :: text, rest)
      | _, _ => none
  | c :: rest =>
      match readTail? rest with
      | some (text, rest) => some (c :: text, rest)
      | none => none

def read? : List Char → Option (List Char × List Char)
  | '"' :: rest => readTail? rest
  | _ => none

/-- A written character is read as that character, whatever follows. -/
theorem readTail?_escape_append {c : Char} {cs text rest : List Char}
    (h : readTail? cs = some (text, rest)) :
    readTail? (escape c ++ cs) = some (c :: text, rest) := by
  fun_cases escape c
  case case4 hslash hquote hfeed =>
      rw [List.singleton_append, readTail?, h]
      all_goals simp_all
  all_goals simp [readTail?, escaped?, h]

/-- The written characters of a text are read up to the quote behind them. -/
theorem readTail?_encode (cs rest : List Char) :
    readTail? (encode cs ++ '"' :: rest) = some (cs, rest) := by
  induction cs with
  | nil => rfl
  | cons c cs ih =>
      rw [encode_cons, List.append_assoc]
      exact readTail?_escape_append ih

theorem feed_notMem_encode (cs : List Char) : '\n' ∉ encode cs := by
  intro hmem
  obtain ⟨c, -, hc⟩ := List.mem_flatMap.mp hmem
  revert hc
  fun_cases escape c <;> simp_all [eq_comm]

end Quoted

/-! ### Literals in lines -/

theorem toList_quote (s : String) : (quote s).toList = '"' :: (Quoted.encode s.toList ++ ['"']) :=
  String.toList_ofList

theorem feed_notMem_quote (s : String) : '\n' ∉ (quote s).toList := by
  simp [toList_quote, Quoted.feed_notMem_encode]

/-- A character that ends no line goes in front of the first line. -/
theorem lineChars_cons {c : Char} {cs line : List Char} {lines : List (List Char)}
    (hfeed : c ≠ '\n') (hreturn : c = '\r' → cs.head? ≠ some '\n')
    (h : lineChars cs = line :: lines) : lineChars (c :: cs) = (c :: line) :: lines := by
  rw [lineChars, h]
  · rintro rest hc rfl
    exact hreturn hc rfl
  · exact hfeed

/-- Characters that end no line go in front of the first line. -/
theorem lineChars_append {start cs line : List Char} {lines : List (List Char)}
    (hfeed : '\n' ∉ start) (hnext : cs.head? ≠ some '\n') (h : lineChars cs = line :: lines) :
    lineChars (start ++ cs) = (start ++ line) :: lines := by
  induction start with
  | nil => exact h
  | cons c start ih =>
      have hc : c ≠ '\n' := fun hc => hfeed (hc ▸ List.mem_cons_self)
      have hstart : '\n' ∉ start := fun hmem => hfeed (List.mem_cons_of_mem c hmem)
      refine lineChars_cons hc (fun _ => ?_) (ih hstart)
      cases start with
      | nil => exact hnext
      | cons d start => simpa using fun hd : d = '\n' => hstart (hd ▸ List.mem_cons_self)

/-- A literal stands in one line, with the same lines above and below it and the same characters to
its left and right, whatever the literal is. -/
theorem exists_lineChars_quote (before after : List Char) :
    ∃ upper left right lower, ∀ s, lineChars (before ++ ((quote s).toList ++ after)) =
      upper ++ (left ++ ((quote s).toList ++ right)) :: lower := by
  induction before with
  | nil =>
      -- what follows the closing quote in its line does not depend on what is before it
      obtain ⟨right, lower, hlower⟩ : ∃ right lower, lineChars ('"' :: after) =
          ('"' :: right) :: lower := by
        cases hafter : lineChars after with
        | nil => exact ⟨[], [], by rw [lineChars, hafter] <;> simp⟩
        | cons line lines => exact ⟨line, lines, by rw [lineChars, hafter] <;> simp⟩
      refine ⟨[], [], right, lower, fun s => ?_⟩
      have hstart : '\n' ∉ '"' :: Quoted.encode s.toList := by
        simp [Quoted.feed_notMem_encode]
      simpa [toList_quote] using lineChars_append hstart (by simp) hlower
  | cons c before ih =>
      obtain ⟨upper, left, right, lower, hlines⟩ := ih
      by_cases hfeed : c = '\n'
      · refine ⟨[] :: upper, left, right, lower, fun s => ?_⟩
        rw [hfeed, List.cons_append, lineChars, hlines, List.cons_append]
      by_cases hreturn : c = '\r' ∧ before.head? = some '\n'
      · -- the line ends at both characters together
        obtain ⟨rfl, hnext⟩ := hreturn
        obtain ⟨before, rfl⟩ := List.head?_eq_some_iff.mp hnext
        refine ⟨upper, left, right, lower, fun s => ?_⟩
        rw [← hlines s]
        rfl
      have hnext (s : String) (hc : c = '\r') :
          (before ++ ((quote s).toList ++ after)).head? ≠ some '\n' := by
        cases before with
        | nil => simp [toList_quote]
        | cons d before => exact fun hd => hreturn ⟨hc, hd⟩
      cases upper with
      | nil =>
          exact ⟨[], c :: left, right, lower, fun s => lineChars_cons hfeed (hnext s) (hlines s)⟩
      | cons line upper =>
          exact ⟨(c :: line) :: upper, left, right, lower, fun s =>
            lineChars_cons hfeed (hnext s) (hlines s)⟩

/-- A step on texts that changes what stands around a literal, in the same way whatever the literal
is, and keeps the literal. -/
def SparesLiterals (f : String → String) : Prop :=
  ∀ before after, ∃ before' after', ∀ s,
    f (before ++ quote s ++ after) = before' ++ quote s ++ after'

theorem exists_lines_quote (before after : String) :
    ∃ upper left right lower, ∀ s,
      lines (before ++ quote s ++ after) = upper ++ (left ++ quote s ++ right) :: lower := by
  obtain ⟨upper, left, right, lower, hlines⟩ :=
    exists_lineChars_quote before.toList after.toList
  refine ⟨upper.map String.ofList, String.ofList left, String.ofList right,
    lower.map String.ofList, fun s => ?_⟩
  have hchars : (before ++ quote s ++ after).toList =
      before.toList ++ ((quote s).toList ++ after.toList) := by simp
  rw [lines, hchars, hlines]
  simp [String.append_assoc]

/-- A step that works line by line and only adds something at the ends of a line with a literal. -/
theorem sparesLiterals_lines {f : String → String} (lead : String)
    (hf : ∀ left s right,
      f (left ++ quote s ++ right) = lead ++ (left ++ quote s ++ right) ++ "\n") :
    SparesLiterals fun text => String.join ((lines text).map f) := by
  intro before after
  obtain ⟨upper, left, right, lower, hlines⟩ := exists_lines_quote before after
  refine ⟨String.join (upper.map f) ++ lead ++ left,
    right ++ "\n" ++ String.join (lower.map f), fun s => ?_⟩
  simp only [hlines, List.map_append, List.map_cons, hf]
  simp [String.append_assoc]

theorem SparesLiterals.comp {f g : String → String} (hf : SparesLiterals f)
    (hg : SparesLiterals g) : SparesLiterals (f ∘ g) := by
  intro before after
  obtain ⟨before', after', hg⟩ := hg before after
  obtain ⟨before'', after'', hf⟩ := hf before' after'
  exact ⟨before'', after'', fun s => by rw [Function.comp_apply, hg, hf]⟩

theorem isBlank_quote (left s right : String) : isBlank (left ++ quote s ++ right) = false := by
  rw [isBlank, List.all_eq_false]
  exact ⟨'"', by simp [toList_quote], by decide⟩

theorem isEmpty_quote (left s right : String) : (left ++ quote s ++ right).isEmpty = false := by
  cases hempty : (left ++ quote s ++ right).isEmpty with
  | false => rfl
  | true =>
      have hblank := isBlank_quote left s right
      rw [String.isEmpty_iff.mp hempty] at hblank
      cases hblank

theorem sparesLiterals_leadLines (lead : String) : SparesLiterals (leadLines lead) :=
  sparesLiterals_lines lead fun left s right => by
    rw [if_neg (by simp [isEmpty_quote])]

/-- A literal ends with a quote, so the line ends at the end of a text are all behind it. -/
theorem trimLineEnds_quote (before s after : String) :
    trimLineEnds (before ++ quote s ++ after) = before ++ quote s ++ trimLineEnds after := by
  have hchars : (before ++ quote s ++ after).toList.reverse =
      after.toList.reverse ++ '"' :: (before.toList ++ '"' :: Quoted.encode s.toList).reverse := by
    simp [toList_quote]
  rw [trimLineEnds, trimLineEnds, dropEndWhile, dropEndWhile, hchars, List.dropWhile_append]
  apply String.ext
  split
  next hnone =>
      rw [List.isEmpty_iff.mp hnone, List.dropWhile_cons_of_neg (by decide)]
      simp [toList_quote]
  next => simp [toList_quote]

theorem sparesLiterals_trimLineEnds : SparesLiterals trimLineEnds :=
  fun before after => ⟨before, trimLineEnds after, fun s => trimLineEnds_quote before s after⟩

end BlockSketch.Text

namespace BlockSketch

open Text

theorem Sections.sparesLiterals_bodyText : SparesLiterals bodyText := by
  have hlines : SparesLiterals fun text => String.join ((lines text).map bodyLine) :=
    sparesLiterals_lines "  " fun left s right => by
      rw [bodyLine, if_neg (by simp [isBlank_quote])]
  intro before after
  obtain ⟨before', after', hbody⟩ := hlines.comp sparesLiterals_trimLineEnds before after
  refine ⟨before', after', fun s => ?_⟩
  rw [← hbody, bodyText, if_neg (by simp [isBlank_quote]), Function.comp_apply]

/-- The literal of a text is read as that text and ends with its last character, whatever follows
it. No line ends in it, so indenting the code around it, as part of the body of a statement or of a
function, changes nothing in it. -/
theorem literal_reads_back_as_text (s : String) :
    (∀ rest, Quoted.read? ((quote s).toList ++ rest) = some (s.toList, rest)) ∧
      '\n' ∉ (quote s).toList ∧
      (∀ lead, SparesLiterals (leadLines lead)) ∧ SparesLiterals Sections.bodyText := by
  refine ⟨fun rest => ?_, feed_notMem_quote s, sparesLiterals_leadLines,
    Sections.sparesLiterals_bodyText⟩
  rw [toList_quote, List.cons_append, List.append_assoc]
  exact Quoted.readTail?_encode s.toList rest

end BlockSketch
