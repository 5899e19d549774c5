import BlockSketch.Proofs.Text.CodeLines

/-!
The lines of a text that are not comments, without their indentation. A lead of blanks changes none
of them, a lead of slashes leaves none, and texts of whole lines can be told apart by them in no
place where they stand on lines of their own.
-/

namespace BlockSketch.Text

def bare (line : List Char) : List Char := line.dropWhile isBlankChar

def isComment (line : List Char) : Bool := "//".toList.isPrefixOf line

def stripComments (lines : List (List Char)) : List (List Char) :=
  (lines.map bare).filter (fun line => !isComment line)

/-- The lines of a text that are neither blank nor comments, without their indentation. -/
def uncommented (text : String) : List (List Char) := stripComments (codeLines text)

/-- A text of whole lines that are all blank or comments. -/
structure IsCommentary (text : String) : Prop where
  endsLine : EndsLine text
  comments : ∀ line ∈ codeLines text, isComment (bare line) = true

def afterFirstLine (text : String) : String :=
  String.ofList ((text.toList.dropWhile (· != '\n')).drop 1)

def spill (text : String) : List (List Char) := uncommented (afterFirstLine text)

/-! ### Lines of texts put together -/

theorem stripComments_append (ls ls' : List (List Char)) :
    stripComments (ls ++ ls') = stripComments ls ++ stripComments ls' := by
  simp only [stripComments, List.map_append, List.filter_append]

theorem stripComments_flatMap {α : Type} (l : List α) (f : α → List (List Char)) :
    stripComments (l.flatMap f) = l.flatMap fun a => stripComments (f a) := by
  simp only [stripComments, List.map_flatMap, List.filter_flatMap]

theorem uncommented_empty : uncommented "" = [] := rfl

theorem uncommented_append_feed (a b : String) :
    uncommented (a ++ "\n" ++ b) = uncommented a ++ uncommented b := by
  rw [uncommented, codeLines_append_feed, stripComments_append]
  rfl

theorem uncommented_feed (a : String) : uncommented (a ++ "\n") = uncommented a := by
  have happend := uncommented_append_feed a ""
  rwa [String.append_empty, uncommented_empty, List.append_nil] at happend

theorem EndsLine.uncommented_append {a : String} (h : EndsLine a) (b : String) :
    uncommented (a ++ b) = uncommented a ++ uncommented b := by
  rw [uncommented, h.codeLines_append, stripComments_append]
  rfl

theorem endsLine_feed (a : String) : EndsLine (a ++ "\n") := .inr ⟨a, rfl⟩

theorem EndsLine.append {a b : String} (ha : EndsLine a) (hb : EndsLine b) : EndsLine (a ++ b) := by
  rcases hb with rfl | ⟨b, rfl⟩
  · rwa [String.append_empty]
  · rw [← String.append_assoc]
    exact endsLine_feed (a ++ b)

/-- A text ends in a line feed if its last character is one. -/
theorem endsLine_of_getLast? {text : String} (h : text.toList.getLast? = some '\n') :
    EndsLine text := by
  obtain ⟨cs, hcs⟩ := List.getLast?_eq_some_iff.mp h
  exact .inr ⟨String.ofList cs, String.ext (by simpa using hcs)⟩

theorem uncommented_eq_nil_iff {text : String} :
    uncommented text = [] ↔ ∀ line ∈ codeLines text, isComment (bare line) = true := by
  simp [uncommented, stripComments, List.filter_eq_nil_iff]

theorem EndsLine.isCommentary_iff {text : String} (h : EndsLine text) :
    IsCommentary text ↔ uncommented text = [] :=
  ⟨fun hc => uncommented_eq_nil_iff.mpr hc.comments, fun hc => ⟨h, uncommented_eq_nil_iff.mp hc⟩⟩

namespace IsCommentary

theorem uncommented_eq {text : String} (h : IsCommentary text) : uncommented text = [] :=
  h.endsLine.isCommentary_iff.mp h

theorem empty : IsCommentary "" := endsLine_empty.isCommentary_iff.mpr uncommented_empty

theorem append {a b : String} (ha : IsCommentary a) (hb : IsCommentary b) :
    IsCommentary (a ++ b) := by
  rw [(ha.endsLine.append hb.endsLine).isCommentary_iff, ha.endsLine.uncommented_append,
    ha.uncommented_eq, hb.uncommented_eq, List.append_nil]

theorem join {texts : List String} (h : ∀ text ∈ texts, IsCommentary text) :
    IsCommentary (String.join texts) := by
  induction texts with
  | nil => exact empty
  | cons text rest ih =>
      obtain ⟨htext, hrest⟩ := List.forall_mem_cons.mp h
      rw [String.join_cons]
      exact htext.append (ih hrest)

end IsCommentary

/-! ### Lines with a lead -/

def led (lead line : String) : String := if line.isEmpty then "" else lead ++ line

theorem leadLines_eq (lead text : String) :
    leadLines lead text = String.join (((lines text).map (led lead)).map (· ++ "\n")) := by
  rw [List.map_map]
  rfl

theorem not_feed_mem_lines {text line : String} (h : line ∈ lines text) : '\n' ∉ line.toList := by
  obtain ⟨cs, hcs, rfl⟩ := List.mem_map.mp h
  simpa using not_feed_mem_lineChars hcs

theorem endsLine_join (lines : List String) :
    EndsLine (String.join (lines.map (· ++ "\n"))) := by
  induction lines with
  | nil => exact endsLine_empty
  | cons line rest ih =>
      rw [List.map_cons, String.join_cons]
      exact (endsLine_feed line).append ih

theorem endsLine_leadLines (lead text : String) : EndsLine (leadLines lead text) := by
  rw [leadLines_eq]
  exact endsLine_join _

theorem leadLines_eq_empty_iff {lead text : String} : leadLines lead text = "" ↔ text = "" := by
  constructor
  · intro h
    rw [leadLines] at h
    cases hlines : lines text with
    | nil =>
        have hchars := lineChars_eq_nil (List.map_eq_nil_iff.mp hlines)
        exact String.ext hchars
    | cons line rest => simp [hlines, String.append_eq_empty_iff] at h
  · rintro rfl
    rfl

theorem codeLines_leadLines {lead : String} (hlead : '\n' ∉ lead.toList) (text : String) :
    codeLines (leadLines lead text) =
      (lines text).flatMap fun line => keepCode [(led lead line).toList] := by
  have hfeed : ∀ line ∈ (lines text).map (led lead), '\n' ∉ line.toList := by
    intro line hline
    obtain ⟨l, hl, rfl⟩ := List.mem_map.mp hline
    unfold led
    split
    · exact List.not_mem_nil
    · simpa [hlead] using not_feed_mem_lines hl
  rw [leadLines_eq, codeLines, feedLines_join hfeed, keepCode_append]
  change _ ++ [] = _
  rw [List.append_nil]
  induction lines text with
  | nil => rfl
  | cons line rest ih =>
      rw [List.map_cons, List.map_cons, List.flatMap_cons, ← ih, ← keepCode_append]
      rfl

theorem bare_blanks (line : List Char) : bare (' ' :: ' ' :: line) = bare line := rfl

/-- An indented line is the same line of code. -/
theorem stripComments_indented (line : String) :
    stripComments (keepCode [(led "  " line).toList]) = stripComments (keepCode [line.toList]) := by
  unfold led
  split
  next hempty => rw [String.isEmpty_iff.mp hempty]
  next =>
      have hreturns :
          dropReturns ("  " ++ line).toList = ' ' :: ' ' :: dropReturns line.toList := by
        simp [dropReturns_cons]
      have hblank : (' ' :: ' ' :: dropReturns line.toList).all isBlankChar =
          (dropReturns line.toList).all isBlankChar := rfl
      rw [keepCode, keepCode, List.map_singleton, List.map_singleton, hreturns]
      cases hall : (dropReturns line.toList).all isBlankChar with
      | true => simp [hblank, hall]
      | false => simp [hblank, hall, stripComments, bare_blanks]

/-- Indentation changes no line that is not a comment. -/
theorem uncommented_indented (text : String) :
    uncommented (leadLines "  " text) = uncommented text := by
  have hlines : codeLines text = (lines text).flatMap fun line => keepCode [line.toList] := by
    rw [codeLines_eq]
    induction lines text with
    | nil => rfl
    | cons line rest ih =>
        rw [List.map_cons, List.flatMap_cons, ← ih, ← keepCode_append]
        rfl
  rw [uncommented, uncommented, hlines, codeLines_leadLines (by decide), stripComments_flatMap,
    stripComments_flatMap]
  exact List.flatMap_congr fun line _ => stripComments_indented line

theorem stripComments_slashes (line : String) :
    stripComments (keepCode [(led "// " line).toList]) = [] := by
  unfold led
  split
  · rfl
  · have hreturns :
        dropReturns ("// " ++ line).toList = "// ".toList ++ dropReturns line.toList := by
      simp [dropReturns_cons]
    rw [keepCode, List.map_singleton, hreturns]
    rfl

/-- A lead of slashes makes every line a comment. -/
theorem isCommentary_leadLines (text : String) : IsCommentary (leadLines "// " text) := by
  rw [(endsLine_leadLines _ _).isCommentary_iff, uncommented, codeLines_leadLines (by decide),
    stripComments_flatMap, List.flatMap_eq_nil_iff]
  exact fun line _ => stripComments_slashes line

/-! ### A lead for the first line only -/

/-- A text is its first line, or its first line and what is behind that. -/
theorem eq_first_or_append (text : String) :
    ∃ first : String, '\n' ∉ first.toList ∧
      (text = first ∧ afterFirstLine text = "" ∨ text = first ++ "\n" ++ afterFirstLine text) := by
  refine ⟨String.ofList (text.toList.takeWhile (· != '\n')), ?_, ?_⟩
  · intro hmem
    have hall := List.all_eq_true.mp (List.all_takeWhile (p := (· != '\n'))) _
      (by simpa using hmem)
    simp at hall
  · have hsplit := List.takeWhile_append_dropWhile (p := (· != '\n')) (l := text.toList)
    unfold afterFirstLine
    cases hrest : text.toList.dropWhile (· != '\n') with
    | nil =>
        rw [hrest, List.append_nil] at hsplit
        exact .inl ⟨String.ext (by simp [hsplit]), rfl⟩
    | cons c rest =>
        obtain rfl : c = '\n' := by
          simpa [hrest] using List.head_dropWhile_not (p := (· != '\n')) (l := text.toList)
            (by simp [hrest])
        refine .inr (String.ext ?_)
        rw [hrest] at hsplit
        simpa using hsplit.symm

theorem uncommented_comment {line : String} (h : '\n' ∉ line.toList) :
    uncommented ("// " ++ line) = [] := by
  have hfeed : feedLines ("// " ++ line) = [("// " ++ line).toList] :=
    List.splitOn_eq_singleton (by simpa using h)
  have hreturns : dropReturns ("// " ++ line).toList = "// ".toList ++ dropReturns line.toList := by
    simp [dropReturns_cons]
  rw [uncommented, codeLines, hfeed, keepCode, List.map_singleton, hreturns]
  rfl

/-- With slashes before its first line only, a text is a comment up to what it spills. -/
theorem uncommented_slashes (text : String) : uncommented ("// " ++ text ++ "\n") = spill text := by
  rw [uncommented_feed, spill]
  obtain ⟨first, hfirst, ⟨rfl, hafter⟩ | htext⟩ := eq_first_or_append text
  · rw [hafter, uncommented_comment hfirst]
    rfl
  · have hparts : "// " ++ text = "// " ++ first ++ "\n" ++ afterFirstLine text := by
      conv_lhs => rw [htext]
      simp only [String.append_assoc]
    rw [hparts, uncommented_append_feed, uncommented_comment hfirst, List.nil_append]

/-! ### Texts with the same code -/

/-- Two texts that make the same lines of code, whatever stands around them. -/
def SameCode (s t : String) : Prop :=
  ∀ before after, uncommented (before ++ s ++ after) = uncommented (before ++ t ++ after)

namespace SameCode

theorem refl (s : String) : SameCode s s := fun _ _ => rfl

theorem append {s t s' t' : String} (h : SameCode s t) (h' : SameCode s' t') :
    SameCode (s ++ s') (t ++ t') := by
  intro before after
  calc uncommented (before ++ (s ++ s') ++ after)
      = uncommented (before ++ s ++ (s' ++ after)) := by simp only [String.append_assoc]
    _ = uncommented (before ++ t ++ (s' ++ after)) := h _ _
    _ = uncommented (before ++ t ++ s' ++ after) := by simp only [String.append_assoc]
    _ = uncommented (before ++ t ++ t' ++ after) := h' _ _
    _ = uncommented (before ++ (t ++ t') ++ after) := by simp only [String.append_assoc]

theorem uncommented_eq {s t : String} (h : SameCode s t) : uncommented s = uncommented t := by
  simpa using h "" ""

theorem intercalate {texts texts' : List String} (separator : String)
    (h : List.Forall₂ SameCode texts texts') :
    SameCode (separator.intercalate texts) (separator.intercalate texts') := by
  induction h with
  | nil => exact refl _
  | cons hfirst hrest ih =>
      cases hrest with
      | nil => simpa using hfirst
      | cons hnext hrest =>
          rw [String.intercalate_cons_cons, String.intercalate_cons_cons]
          exact (hfirst.append (refl separator)).append ih

end SameCode

/-- Two texts of whole lines with the same lines of code, both empty or neither. -/
structure Kin (s t : String) : Prop where
  left : EndsLine s
  right : EndsLine t
  code : uncommented s = uncommented t
  empty : s = "" ↔ t = ""

namespace Kin

variable {s t s' t' : String}

theorem of_endsLine (h : EndsLine s) : Kin s s := ⟨h, h, rfl, Iff.rfl⟩

theorem append (h : Kin s t) (h' : Kin s' t') : Kin (s ++ s') (t ++ t') where
  left := h.left.append h'.left
  right := h.right.append h'.right
  code := by rw [h.left.uncommented_append, h.right.uncommented_append, h.code, h'.code]
  empty := by simp only [String.append_eq_empty_iff, h.empty, h'.empty]

theorem join {texts texts' : List String} (h : List.Forall₂ Kin texts texts') :
    Kin (String.join texts) (String.join texts') := by
  induction h with
  | nil => exact of_endsLine endsLine_empty
  | cons hfirst _ ih =>
      rw [String.join_cons, String.join_cons]
      exact hfirst.append ih

/-- Comments before lines of code leave them the lines of code that they are. -/
theorem commented {before before' : String} (h : Kin s t) (hs : s ≠ "")
    (hbefore : IsCommentary before) (hbefore' : IsCommentary before') :
    Kin (before ++ s) (before' ++ t) where
  left := hbefore.endsLine.append h.left
  right := hbefore'.endsLine.append h.right
  code := by
    rw [hbefore.endsLine.uncommented_append, hbefore'.endsLine.uncommented_append,
      hbefore.uncommented_eq, hbefore'.uncommented_eq, h.code]
  empty := by
    have ht := h.empty.not.mp hs
    simp only [String.append_eq_empty_iff, hs, ht, and_false]

theorem indented (h : Kin s t) : Kin (leadLines "  " s) (leadLines "  " t) where
  left := endsLine_leadLines _ _
  right := endsLine_leadLines _ _
  code := by rw [uncommented_indented, uncommented_indented, h.code]
  empty := by rw [leadLines_eq_empty_iff, leadLines_eq_empty_iff, h.empty]

/-- On lines of their own, whole lines with the same code cannot be told apart. -/
theorem sameCode_feed (h : Kin s t) : SameCode ("\n" ++ s) ("\n" ++ t) := by
  intro before after
  have hlines (u : String) (hu : EndsLine u) : uncommented (before ++ ("\n" ++ u) ++ after) =
      uncommented before ++ (uncommented u ++ uncommented after) := by
    rw [← hu.uncommented_append, ← uncommented_append_feed]
    simp only [String.append_assoc]
  rw [hlines s h.left, hlines t h.right, h.code]

end Kin

theorem SameCode.kin_feed {s t : String} (h : SameCode s t) : Kin (s ++ "\n") (t ++ "\n") where
  left := endsLine_feed s
  right := endsLine_feed t
  code := by rw [uncommented_feed, uncommented_feed, h.uncommented_eq]
  empty := by simp [String.append_eq_empty_iff]

end BlockSketch.Text
