import BlockSketch.Text.Blank
import BlockSketch.Text.Lines
import Mathlib.Data.List.Basic

/-!
The lines of code in a text: its lines that are not blank, up to carriage returns at their ends.
Line feeds and blank lines make no difference to them, however they are read, and the lines of texts
that stand one above the other are the lines of all of them.
-/

namespace BlockSketch.Text

def feedLines (text : String) : List (List Char) := text.toList.splitOn '\n'

def dropReturns (line : List Char) : List Char := dropEndWhile (· == '\r') line

def keepCode (lines : List (List Char)) : List (List Char) :=
  (lines.map dropReturns).filter (fun line => !line.all isBlankChar)

/-- The lines of a text that are not blank, without carriage returns at their ends. -/
def codeLines (text : String) : List (List Char) := keepCode (feedLines text)

def EndsLine (text : String) : Prop := text = "" ∨ ∃ t, text = t ++ "\n"

theorem endsLine_empty : EndsLine "" := .inl rfl

/-! ### Lines of texts put together -/

theorem feedLines_append_feed (a b : String) :
    feedLines (a ++ "\n" ++ b) = feedLines a ++ feedLines b := by
  have htext : (a ++ "\n" ++ b).toList = a.toList ++ '\n' :: b.toList := by simp
  rw [feedLines, htext, List.splitOn_append_cons_self]
  rfl

theorem keepCode_append (ls ls' : List (List Char)) :
    keepCode (ls ++ ls') = keepCode ls ++ keepCode ls' := by
  simp only [keepCode, List.map_append, List.filter_append]

theorem codeLines_append_feed (a b : String) :
    codeLines (a ++ "\n" ++ b) = codeLines a ++ codeLines b := by
  rw [codeLines, feedLines_append_feed, keepCode_append]
  rfl

theorem codeLines_empty : codeLines "" = [] := by decide

theorem EndsLine.codeLines_append {a : String} (h : EndsLine a) (b : String) :
    codeLines (a ++ b) = codeLines a ++ codeLines b := by
  rcases h with rfl | ⟨a, rfl⟩
  · rw [codeLines_empty, String.empty_append, List.nil_append]
  · have hfeed := codeLines_append_feed a ""
    rw [String.append_empty, codeLines_empty, List.append_nil] at hfeed
    rw [codeLines_append_feed, hfeed]

/-- The lines of lines that are put together. -/
theorem feedLines_join {lines : List String} (h : ∀ line ∈ lines, '\n' ∉ line.toList) :
    feedLines (String.join (lines.map (· ++ "\n"))) = lines.map String.toList ++ [[]] := by
  induction lines with
  | nil => rfl
  | cons line rest ih =>
      obtain ⟨hline, hrest⟩ := List.forall_mem_cons.mp h
      have hone : feedLines line = [line.toList] := List.splitOn_eq_singleton hline
      rw [List.map_cons, String.join_cons, feedLines_append_feed, ih hrest, hone]
      rfl

/-! ### Carriage returns -/

theorem dropReturns_cons (c : Char) (line : List Char) :
    dropReturns (c :: line) =
      if c = '\r' ∧ dropReturns line = [] then [] else c :: dropReturns line := by
  simp only [dropReturns, dropEndWhile, List.reverse_cons, List.dropWhile_append,
    List.isEmpty_iff, List.reverse_eq_nil_iff]
  by_cases hline : line.reverse.dropWhile (· == '\r') = []
  · by_cases hc : c = '\r' <;> simp [hline, hc]
  · simp [hline]

theorem dropReturns_cons_congr {line line' : List Char} (c : Char)
    (h : dropReturns line = dropReturns line') :
    dropReturns (c :: line) = dropReturns (c :: line') := by
  rw [dropReturns_cons, dropReturns_cons, h]

/-- Carriage returns are blank, so a line stays blank or not without those at its end. -/
@[simp] theorem all_isBlankChar_dropReturns (line : List Char) :
    (dropReturns line).all isBlankChar = line.all isBlankChar := by
  induction line with
  | nil => rfl
  | cons c rest ih =>
      rw [dropReturns_cons, List.all_cons, ← ih]
      split
      next h =>
          rw [h.1, h.2]
          rfl
      next => rw [List.all_cons]

/-! ### Lines with any ends -/

theorem lineChars_eq_nil {cs : List Char} (h : lineChars cs = []) : cs = [] := by
  unfold lineChars at h
  split at h
  · rfl
  · cases h
  · cases h
  · split at h <;> cases h

/-- Up to carriage returns, the lines of a text are the parts between its line feeds, where an empty
part at the end may be missing. -/
theorem map_dropReturns_lineChars (cs : List Char) :
    (cs.splitOn '\n').map dropReturns = (lineChars cs).map dropReturns ∨
      (cs.splitOn '\n').map dropReturns = (lineChars cs).map dropReturns ++ [[]] := by
  fun_induction lineChars cs with
  | case1 => exact .inr rfl
  | case2 cs ih =>
      have hsplit : ('\r' :: '\n' :: cs).splitOn '\n' = ['\r'] :: cs.splitOn '\n' :=
        List.splitOn_append_cons_self ['\r'] cs
      rw [hsplit]
      exact ih.imp (congrArg ([] :: ·)) (congrArg ([] :: ·))
  | case3 cs ih =>
      have hsplit : ('\n' :: cs).splitOn '\n' = [] :: cs.splitOn '\n' :=
        List.splitOn_append_cons_self [] cs
      rw [hsplit]
      exact ih.imp (congrArg ([] :: ·)) (congrArg ([] :: ·))
  | case4 c cs _ hfeed hnil ih =>
      obtain rfl := lineChars_eq_nil hnil
      rw [List.splitOn_eq_singleton (by simpa using Ne.symm hfeed)]
      exact .inl rfl
  | case5 c cs _ hfeed line rest hlines ih =>
      -- a character goes in front of the first line, which both sides have
      obtain ⟨first, others, hsplit⟩ := List.exists_cons_of_ne_nil (List.splitOn_ne_nil '\n' cs)
      rw [hlines, hsplit] at ih
      rw [List.splitOn_cons_eq_if_modifyHead, if_neg (by simpa using hfeed), hsplit]
      simp only [List.map_cons, List.cons_append, List.cons.injEq, List.modifyHead_cons] at ih ⊢
      exact ih.imp (.imp_left (dropReturns_cons_congr c)) (.imp_left (dropReturns_cons_congr c))

theorem codeLines_eq (text : String) :
    codeLines text = keepCode ((lines text).map String.toList) := by
  have hlines : (lines text).map String.toList = lineChars text.toList := by simp [lines]
  rw [hlines, codeLines, feedLines, keepCode, keepCode]
  rcases map_dropReturns_lineChars text.toList with h | h <;> simp [h]

theorem not_feed_mem_lineChars {cs line : List Char} (h : line ∈ lineChars cs) : '\n' ∉ line := by
  fun_induction lineChars cs generalizing line with
  | case1 => cases h
  | case2 cs ih =>
      rcases List.mem_cons.mp h with rfl | h
      · exact List.not_mem_nil
      · exact ih h
  | case3 cs ih =>
      rcases List.mem_cons.mp h with rfl | h
      · exact List.not_mem_nil
      · exact ih h
  | case4 c cs _ hfeed _ _ =>
      rw [List.mem_singleton.mp h]
      simpa using Ne.symm hfeed
  | case5 c cs _ hfeed first rest hlines ih =>
      rw [hlines] at ih
      rcases List.mem_cons.mp h with rfl | h
      · simpa [Ne.symm hfeed] using ih List.mem_cons_self
      · exact ih (List.mem_cons_of_mem _ h)

/-! ### Blank texts and line feeds at the end -/

theorem subset_of_mem_splitOn {c : Char} {cs line : List Char} (h : line ∈ cs.splitOn c) :
    line ⊆ cs := by
  induction cs generalizing line with
  | nil =>
      obtain rfl := List.mem_singleton.mp ((List.splitOn_nil c) ▸ h)
      exact List.Subset.refl _
  | cons d rest ih =>
      obtain ⟨first, others, hsplit⟩ := List.exists_cons_of_ne_nil (List.splitOn_ne_nil c rest)
      rw [List.splitOn_cons_eq_if_modifyHead] at h
      rw [hsplit] at h ih
      split at h
      next =>
          rcases List.mem_cons.mp h with rfl | h
          · exact List.nil_subset _
          · exact List.subset_cons_of_subset d (ih h)
      next =>
          rcases List.mem_cons.mp h with rfl | h
          · exact List.cons_subset_cons d (ih List.mem_cons_self)
          · exact List.subset_cons_of_subset d (ih (List.mem_cons_of_mem _ h))

theorem codeLines_of_isBlank {text : String} (h : isBlank text = true) : codeLines text = [] := by
  rw [codeLines, keepCode, List.filter_eq_nil_iff]
  intro line hline
  obtain ⟨part, hpart, rfl⟩ := List.mem_map.mp hline
  have hblank : part.all isBlankChar = true := List.all_eq_true.mpr fun c hc =>
    List.all_eq_true.mp h c (subset_of_mem_splitOn hpart hc)
  rw [all_isBlankChar_dropReturns, hblank]
  decide

/-- The line feeds at the end of a text make no line that is not blank. -/
theorem codeLines_trimLineEnds (text : String) :
    codeLines (trimLineEnds text) = codeLines text := by
  have hfeeds : ∀ feeds : List Char, (∀ c ∈ feeds, c = '\n') → ∀ a : String,
      codeLines (a ++ String.ofList feeds) = codeLines a := by
    intro feeds hall a
    cases feeds with
    | nil => simp
    | cons c rest =>
        obtain ⟨rfl, hrest⟩ := List.forall_mem_cons.mp hall
        have htext : a ++ String.ofList ('\n' :: rest) = a ++ "\n" ++ String.ofList rest := by
          apply String.ext
          simp
        have hblank : isBlank (String.ofList rest) = true := by
          simp only [isBlank, String.toList_ofList, List.all_eq_true]
          exact fun c hc => hrest c hc ▸ rfl
        rw [htext, codeLines_append_feed, codeLines_of_isBlank hblank, List.append_nil]
  have hsplit : text = trimLineEnds text ++
      String.ofList (text.toList.reverse.takeWhile (· == '\n')).reverse := by
    rw [trimLineEnds, dropEndWhile, ← String.ofList_append, ← List.reverse_append,
      List.takeWhile_append_dropWhile, List.reverse_reverse, String.ofList_toList]
  conv_rhs => rw [hsplit]
  refine (hfeeds _ (fun c hc => ?_) _).symm
  exact eq_of_beq (List.all_eq_true.mp List.all_takeWhile c (List.mem_reverse.mp hc))

end BlockSketch.Text
