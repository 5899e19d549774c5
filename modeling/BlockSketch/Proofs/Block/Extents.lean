import BlockSketch.Block.Arrays
import Mathlib.Algebra.BigOperators.Group.List.Basic
import Mathlib.Data.List.TakeWhile
import Mathlib.Tactic.Ring

/-!
The extents that are read off the text of a list of lists. Rows are counted by their opening braces,
wherever in the text these stand, and columns by the commas of the first row up to its first brace.
So both are right if the items have neither braces nor commas, and each opening brace in an item
adds a row, each comma in the first row a column.
-/

namespace BlockSketch

namespace Text

def isBrace (c : Char) : Bool := c = '\x7b' || c = '\x7d'

def openings (text : String) : Nat := text.toList.count '\x7b'

def commas (text : String) : Nat := text.toList.count ','

def leadingCommas (text : String) : Nat :=
  (text.toList.takeWhile fun c => !isBrace c).count ','

def Unbraced (text : String) : Prop := ∀ c ∈ text.toList, isBrace c = false

instance (text : String) : Decidable (Unbraced text) :=
  decidable_of_iff (text.toList.all fun c => !isBrace c) (by simp [Unbraced])

theorem count_intercalate (c : Char) (sep : String) (items : List String) :
    (sep.intercalate items).toList.count c =
      (items.map (·.toList.count c)).sum + (items.length - 1) * sep.toList.count c := by
  induction items with
  | nil => simp
  | cons item rest ih =>
      cases rest with
      | nil => simp
      | cons next rest =>
          rw [String.intercalate_cons_cons, String.toList_append, String.toList_append,
            List.count_append, List.count_append, ih]
          simp only [List.map_cons, List.sum_cons, List.length_cons, Nat.add_sub_cancel]
          ring

theorem openings_intercalate (items : List String) :
    openings (", ".intercalate items) = (items.map openings).sum := by
  rw [openings, count_intercalate, show ", ".toList.count '\x7b' = 0 from rfl, Nat.mul_zero,
    Nat.add_zero]
  rfl

theorem commas_intercalate (items : List String) :
    commas (", ".intercalate items) = (items.map commas).sum + (items.length - 1) := by
  rw [commas, count_intercalate, show ", ".toList.count ',' = 1 from rfl, Nat.mul_one]
  rfl

theorem leadingCommas_of_unbraced {text : String} (h : Unbraced text) :
    leadingCommas text = commas text := by
  rw [leadingCommas, List.takeWhile_eq_self_iff.mpr fun c hc => by simp [h c hc], commas]

theorem unbraced_append {s t : String} (hs : Unbraced s) (ht : Unbraced t) : Unbraced (s ++ t) := by
  intro c hc
  rw [String.toList_append] at hc
  exact (List.mem_append.mp hc).elim (hs c) (ht c)

theorem unbraced_intercalate {items : List String} (h : ∀ item ∈ items, Unbraced item) :
    Unbraced (", ".intercalate items) := by
  induction items with
  | nil => exact fun c hc => (List.not_mem_nil hc).elim
  | cons item rest ih =>
      obtain ⟨hitem, hrest⟩ := List.forall_mem_cons.mp h
      cases rest with
      | nil => simpa using hitem
      | cons next rest =>
          rw [String.intercalate_cons_cons]
          exact unbraced_append (unbraced_append hitem (by decide)) (ih hrest)

theorem openings_of_unbraced {text : String} (h : Unbraced text) : openings text = 0 :=
  List.count_eq_zero.mpr fun hmem => absurd (h _ hmem) (by decide)

end Text

namespace Block.Arrays

open Text

def listText (items : List String) : String := braced (", ".intercalate items)

def matrixText (rows : List (List String)) : String := listText (rows.map listText)

/-! ### Splitting -/

/-- The first part is what stands before the first occurrence, and there is one more part for each
occurrence. -/
theorem exists_split_eq (c : Char) (cs : List Char) :
    ∃ parts, split c cs = cs.takeWhile (· ≠ c) :: parts ∧ parts.length = cs.count c := by
  induction cs with
  | nil => exact ⟨[], rfl, rfl⟩
  | cons d rest ih =>
      obtain ⟨parts, hparts, hlength⟩ := ih
      by_cases hd : d = c
      · refine ⟨split c rest, by simp [split, hd], ?_⟩
        rw [hparts, List.length_cons, hlength, hd, List.count_cons_self]
      · refine ⟨parts, by simp [split, hd, hparts], ?_⟩
        rw [List.count_cons_of_ne hd, hlength]

theorem length_split (c : Char) (cs : List Char) : (split c cs).length = cs.count c + 1 := by
  obtain ⟨parts, hparts, hlength⟩ := exists_split_eq c cs
  rw [hparts, List.length_cons, hlength]

theorem headD_split (c : Char) (cs : List Char) :
    (split c cs).headD [] = cs.takeWhile (· ≠ c) := by
  obtain ⟨parts, hparts, -⟩ := exists_split_eq c cs
  rw [hparts, List.headD_cons]

/-! ### Extents -/

/-- What is behind the first two opening braces tells the extents. -/
theorem extents_of_toList {content : String} {cs : List Char}
    (h : content.toList = '\x7b' :: '\x7b' :: cs) :
    extents content = (cs.count '\x7b' + 1, (cs.takeWhile fun c => !isBrace c).count ',' + 1) := by
  obtain ⟨parts, hparts, hlength⟩ := exists_split_eq '\x7b' cs
  have hsplit : split '\x7b' content.toList =
      [] :: [] :: cs.takeWhile (· ≠ '\x7b') :: parts := by
    rw [h, split, if_pos rfl, split, if_pos rfl, hparts]
  have hrow : (cs.takeWhile (· ≠ '\x7b')).takeWhile (· ≠ '\x7d') =
      cs.takeWhile fun c => !isBrace c := by
    rw [List.takeWhile_takeWhile]
    congr 1
    funext c
    simp [isBrace, Bool.and_comm]
  rw [extents, hsplit]
  dsimp only
  rw [headD_split, hrow, length_split, hlength]

theorem takeWhile_append_cons {p : Char → Bool} {cs rest : List Char} {c : Char}
    (hc : p c = false) : (cs ++ c :: rest).takeWhile p = cs.takeWhile p := by
  induction cs with
  | nil => simp [hc]
  | cons d cs ih => simp only [List.cons_append, List.takeWhile_cons, ih]

/-- A list of lists starts with two braces, its first row and a closing brace. -/
theorem exists_toList_matrixText (first : List String) (rest : List (List String)) :
    ∃ more, (matrixText (first :: rest)).toList =
      '\x7b' :: '\x7b' :: ((", ".intercalate first).toList ++ '\x7d' :: more) := by
  cases rest with
  | nil => exact ⟨['\x7d'], by simp [matrixText, listText, braced]⟩
  | cons next rest =>
      rw [matrixText, listText, List.map_cons, List.map_cons, String.intercalate_cons_cons]
      generalize ", ".intercalate (listText next :: rest.map listText) = tail
      exact ⟨", ".toList ++ tail.toList ++ ['\x7d'], by simp [listText, braced]⟩

theorem openings_listText (items : List String) :
    openings (listText items) = 1 + (items.map openings).sum := by
  rw [← openings_intercalate, listText, braced, openings, openings]
  simp [List.count_append, Nat.add_comm]

theorem openings_matrixText (rows : List (List String)) :
    openings (matrixText rows) = 1 + rows.length + (rows.flatten.map openings).sum := by
  have hrows : ((rows.map listText).map openings).sum =
      rows.length + (rows.flatten.map openings).sum := by
    induction rows with
    | nil => rfl
    | cons row rows ih =>
        simp only [List.map_cons, List.sum_cons, List.length_cons, List.flatten_cons,
          List.map_append, List.sum_append, ih, openings_listText]
        omega
  rw [matrixText, openings_listText, hrows, Nat.add_assoc]

/-- The extents of a list of lists. -/
theorem extents_matrixText (first : List String) (rest : List (List String)) :
    extents (matrixText (first :: rest)) =
      ((first :: rest).length + ((first :: rest).flatten.map openings).sum,
        leadingCommas (", ".intercalate first) + 1) := by
  obtain ⟨more, hmore⟩ := exists_toList_matrixText first rest
  have hopenings := openings_matrixText (first :: rest)
  rw [openings, hmore] at hopenings
  simp only [List.count_cons_self] at hopenings
  rw [extents_of_toList hmore, takeWhile_append_cons (by decide)]
  refine Prod.ext ?_ rfl
  dsimp only
  omega

/-- Without braces in the first row, each of its items counts once, and once more for each comma in
it. -/
theorem columns_of_unbraced {first : List String} (hne : first ≠ [])
    (h : ∀ item ∈ first, Unbraced item) :
    leadingCommas (", ".intercalate first) + 1 = first.length + (first.map commas).sum := by
  have hlength := List.length_pos_iff.mpr hne
  rw [leadingCommas_of_unbraced (unbraced_intercalate h), commas_intercalate]
  omega

end Block.Arrays

end BlockSketch
