import BlockSketch.Proofs.Identifier.Words
import BlockSketch.Proofs.Text.CodeLines

/-!
The words of a text: its longest runs of letters, digits and underscores. Where two texts are put
behind one another and the characters that meet are not both of words, the words of the whole are
those of the two. Neither lines nor trimming changes the words of a text.
-/

namespace BlockSketch.Text

open Identifier

def runs (cs : List Char) : List (List Char) :=
  (cs.splitOnP (fun c => !isWordChar c)).filter (fun run => !run.isEmpty)

/-- The words of a text, in order and as often as they occur. -/
def words (s : String) : List String := (runs s.toList).map String.ofList

/-! ### Characters -/

@[simp] theorem runs_nil : runs [] = [] := rfl

theorem runs_append_cons (cs rest : List Char) {c : Char} (hc : isWordChar c = false) :
    runs (cs ++ c :: rest) = runs cs ++ runs rest := by
  rw [runs, List.splitOnP_append_cons _ _ (by simp [hc]), List.filter_append]
  rfl

theorem runs_cons {c : Char} (hc : isWordChar c = false) (rest : List Char) :
    runs (c :: rest) = runs rest :=
  runs_append_cons [] rest hc

theorem runs_of_wordy {cs : List Char} (h : Wordy cs) : runs cs = [cs] := by
  have hsplit : cs.splitOnP (fun c => !isWordChar c) = [cs] :=
    List.splitOnP_eq_singleton (by simpa using h.2)
  rw [runs, hsplit]
  simp [h.1]

/-- Characters of no word have no runs, and none of them goes on with a run before them. -/
theorem runs_append_of_forall (cs : List Char) {rest : List Char}
    (h : ∀ c ∈ rest, isWordChar c = false) : runs (cs ++ rest) = runs cs := by
  induction rest generalizing cs with
  | nil => rw [List.append_nil]
  | cons c rest ih =>
      obtain ⟨hc, hrest⟩ := List.forall_mem_cons.mp h
      have htail : runs rest = [] := ih [] hrest
      rw [runs_append_cons cs rest hc, htail, List.append_nil]

/-- The characters of a run are characters of words in the text. -/
theorem mem_of_mem_runs {cs run : List Char} (h : run ∈ runs cs) {c : Char} (hc : c ∈ run) :
    c ∈ cs ∧ isWordChar c = true := by
  replace h := (List.mem_filter.mp h).1
  induction cs generalizing run with
  | nil =>
      obtain rfl := List.mem_singleton.mp (List.splitOnP_nil ▸ h)
      cases hc
  | cons d rest ih =>
      rw [List.splitOnP_cons_eq_if_modifyHead] at h
      split at h
      next =>
          rcases List.mem_cons.mp h with rfl | h
          · cases hc
          · exact (ih hc h).imp_left (List.mem_cons_of_mem d)
      next hd =>
          obtain ⟨first, others, heq⟩ :=
            List.exists_cons_of_ne_nil (List.splitOnP_ne_nil (fun c => !isWordChar c) rest)
          rw [heq] at h ih
          rcases List.mem_cons.mp h with rfl | h
          · rcases List.mem_cons.mp hc with rfl | hc
            · exact ⟨List.mem_cons_self, by simpa using hd⟩
            · exact (ih hc List.mem_cons_self).imp_left (List.mem_cons_of_mem d)
          · exact (ih hc (List.mem_cons_of_mem _ h)).imp_left (List.mem_cons_of_mem d)

theorem ne_nil_of_mem_runs {cs run : List Char} (h : run ∈ runs cs) : run ≠ [] := by
  simpa using (List.mem_filter.mp h).2

/-! ### Texts that meet -/

/-- A text does not start with a character of a word. -/
def startsApart (s : String) : Bool := s.toList.head?.all (fun c => !isWordChar c)

/-- A text does not end with a character of a word. -/
def endsApart (s : String) : Bool := s.toList.getLast?.all (fun c => !isWordChar c)

theorem runs_append_of_head {cs rest : List Char}
    (h : rest.head?.all (fun c => !isWordChar c) = true) :
    runs (cs ++ rest) = runs cs ++ runs rest := by
  cases rest with
  | nil => simp
  | cons c rest =>
      have hc : isWordChar c = false := by simpa using h
      rw [runs_append_cons cs rest hc, runs_cons hc]

theorem words_append_of_startsApart {a b : String} (h : startsApart b = true) :
    words (a ++ b) = words a ++ words b := by
  rw [words, String.toList_append, runs_append_of_head h, List.map_append]
  rfl

theorem words_append_of_endsApart {a b : String} (h : endsApart a = true) :
    words (a ++ b) = words a ++ words b := by
  rcases List.eq_nil_or_concat a.toList with hnil | ⟨cs, c, hcs⟩
  · rw [words, words, String.toList_append, hnil]
    rfl
  · have hc : isWordChar c = false := by simpa [endsApart, hcs] using h
    have hrest : runs [c] = [] := runs_cons hc []
    rw [words, words, String.toList_append, hcs, List.concat_eq_append, List.append_assoc,
      List.singleton_append, runs_append_cons _ _ hc, runs_append_cons _ _ hc]
    simp [words]

theorem endsApart_append {a b : String} (ha : endsApart a = true) (hb : endsApart b = true) :
    endsApart (a ++ b) = true := by
  rw [endsApart, String.toList_append, List.getLast?_append]
  cases hlast : b.toList.getLast? with
  | none => exact ha
  | some c => simpa [endsApart, hlast] using hb

theorem endsApart_append_of_ne {a b : String} (hb : endsApart b = true) (hne : b ≠ "") :
    endsApart (a ++ b) = true := by
  have hlist : b.toList ≠ [] := by simpa [String.toList_eq_nil_iff] using hne
  rw [endsApart, String.toList_append, List.getLast?_append,
    List.getLast?_eq_some_getLast hlist]
  rwa [endsApart, List.getLast?_eq_some_getLast hlist] at hb

theorem words_of_isWord {s : String} (h : isWord s = true) : words s = [s] := by
  rw [words, runs_of_wordy (isWord_iff.mp h)]
  simp

/-! ### Lines and ends -/

/-- Lines behind some characters, which belong to the first line. -/
def linesBehind (cs : List Char) : List (List Char) → List (List Char)
  | [] => [cs]
  | line :: rest => (cs ++ line) :: rest

theorem runs_linesBehind_nil (lines : List (List Char)) :
    (linesBehind [] lines).flatMap runs = lines.flatMap runs := by
  cases lines with
  | nil => rfl
  | cons line rest => rfl

/-- The runs of a text are those of its lines. The induction is on the text from its start, with
what stands before it on the same line. -/
theorem runs_append_eq_flatMap_lines (before cs : List Char) :
    runs (before ++ cs) = (linesBehind before (lineChars cs)).flatMap runs := by
  have hfeed : isWordChar '\n' = false := by decide
  have hreturn : isWordChar '\r' = false := by decide
  fun_induction lineChars cs generalizing before with
  | case1 => simp [linesBehind]
  | case2 cs ih =>
      have hrest := ih []
      rw [runs_linesBehind_nil, List.nil_append] at hrest
      rw [runs_append_cons _ _ hreturn, runs_cons hfeed, hrest]
      simp [linesBehind]
  | case3 cs ih =>
      have hrest := ih []
      rw [runs_linesBehind_nil, List.nil_append] at hrest
      rw [runs_append_cons _ _ hfeed, hrest]
      simp [linesBehind]
  | case4 c cs _ _ hnil ih =>
      have hrest := ih (before ++ [c])
      rw [hnil, List.append_assoc] at hrest
      exact hrest
  | case5 c cs _ _ line rest hlines ih =>
      have hrest := ih (before ++ [c])
      rw [hlines, List.append_assoc] at hrest
      simpa [linesBehind] using hrest

theorem words_eq_flatMap_lines (s : String) : words s = (lines s).flatMap words := by
  have hruns := runs_append_eq_flatMap_lines [] s.toList
  rw [runs_linesBehind_nil, List.nil_append] at hruns
  rw [words, hruns, lines, List.map_flatMap, List.flatMap_map]
  simp [words]

theorem words_trimLineEnds (s : String) : words (trimLineEnds s) = words s := by
  have hends : ∀ c ∈ (s.toList.reverse.takeWhile (· == '\n')).reverse, isWordChar c = false := by
    intro c hc
    have hfeed := List.all_eq_true.mp List.all_takeWhile c (List.mem_reverse.mp hc)
    rw [beq_iff_eq.mp hfeed]
    decide
  have hsplit : s.toList = dropEndWhile (· == '\n') s.toList ++
      (s.toList.reverse.takeWhile (· == '\n')).reverse := by
    rw [dropEndWhile, ← List.reverse_append, List.takeWhile_append_dropWhile, List.reverse_reverse]
  have hruns := runs_append_of_forall (dropEndWhile (· == '\n') s.toList) hends
  rw [← hsplit] at hruns
  rw [words, words, trimLineEnds, String.toList_ofList, hruns]

end BlockSketch.Text
