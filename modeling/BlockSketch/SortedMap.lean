/-!
Finite maps as lists of entries in strictly ascending key order. The order is part of the type, so
two maps with the same entries are the same value, and listing a map needs no sorting.
-/

namespace BlockSketch

structure SortedMap (κ α : Type) [Ord κ] where
  entries : List (κ × α)
  ascending : entries.Pairwise (fun x y => compare x.1 y.1 = .lt)

namespace SortedMap

variable {κ α β : Type} [Ord κ]

/-! ### Entry lists -/

/-- Put an entry at its place in an ascending list, over an entry with the same key. -/
def insertEntry (k : κ) (v : α) : List (κ × α) → List (κ × α)
  | [] => [(k, v)]
  | e :: rest =>
      match compare k e.1 with
      | .lt => (k, v) :: e :: rest
      | .eq => (k, v) :: rest
      | .gt => e :: insertEntry k v rest

def lookupIn? (k : κ) : List (κ × α) → Option α
  | [] => none
  | e :: rest => if compare k e.1 = .eq then some e.2 else lookupIn? k rest

theorem mem_insertEntry {k : κ} {v : α} {e : κ × α} {l : List (κ × α)}
    (h : e ∈ insertEntry k v l) : e = (k, v) ∨ e ∈ l := by
  induction l with
  | nil => simpa [insertEntry] using h
  | cons hd tl ih =>
      rw [insertEntry] at h
      split at h
      · simpa using h
      · simp only [List.mem_cons] at h ⊢
        exact h.imp_right .inr
      · simp only [List.mem_cons] at h ⊢
        rcases h with h | h
        · exact .inr (.inl h)
        · exact (ih h).imp_right .inr

theorem insertEntry_ascending [Std.TransOrd κ] (k : κ) (v : α) {l : List (κ × α)}
    (h : l.Pairwise (fun x y => compare x.1 y.1 = .lt)) :
    (insertEntry k v l).Pairwise (fun x y => compare x.1 y.1 = .lt) := by
  induction l with
  | nil => simp [insertEntry]
  | cons hd tl ih =>
      obtain ⟨hhead, htail⟩ := List.pairwise_cons.mp h
      rw [insertEntry]
      split
      next hlt =>
        refine List.pairwise_cons.mpr ⟨fun e he => ?_, h⟩
        rcases List.mem_cons.mp he with rfl | he
        · exact hlt
        · exact Std.TransCmp.lt_trans hlt (hhead e he)
      next heq =>
        refine List.pairwise_cons.mpr ⟨fun e he => ?_, htail⟩
        exact Std.TransCmp.lt_of_eq_of_lt heq (hhead e he)
      next hgt =>
        refine List.pairwise_cons.mpr ⟨fun e he => ?_, ih htail⟩
        rcases mem_insertEntry he with rfl | he
        · exact Std.OrientedCmp.gt_iff_lt.mp hgt
        · exact hhead e he

theorem lookupIn?_insertEntry_self [Std.LawfulEqOrd κ] (k : κ) (v : α) (l : List (κ × α)) :
    lookupIn? k (insertEntry k v l) = some v := by
  induction l with
  | nil => simp [insertEntry, lookupIn?]
  | cons hd tl ih =>
      rw [insertEntry]
      split
      · simp [lookupIn?]
      · simp [lookupIn?]
      next hgt => simp [lookupIn?, hgt, ih]

theorem lookupIn?_insertEntry_of_ne [Std.LawfulEqOrd κ] {k k' : κ} (hne : k' ≠ k) (v : α)
    (l : List (κ × α)) : lookupIn? k' (insertEntry k v l) = lookupIn? k' l := by
  induction l with
  | nil => simp [insertEntry, lookupIn?, hne]
  | cons hd tl ih =>
      rw [insertEntry]
      split
      · simp [lookupIn?, hne]
      next heq =>
        have hk : k = hd.1 := Std.LawfulEqOrd.eq_of_compare heq
        simp [lookupIn?, hne, ← hk]
      · simp [lookupIn?, ih]

/-! ### Maps -/

def empty : SortedMap κ α := ⟨[], .nil⟩

instance : EmptyCollection (SortedMap κ α) := ⟨empty⟩

instance : Inhabited (SortedMap κ α) := ⟨empty⟩

instance [DecidableEq κ] [DecidableEq α] : DecidableEq (SortedMap κ α) := fun a b =>
  decidable_of_iff (a.entries = b.entries) (by cases a; cases b; simp)

def find? (m : SortedMap κ α) (k : κ) : Option α := lookupIn? k m.entries

def contains (m : SortedMap κ α) (k : κ) : Bool := (m.find? k).isSome

def insert [Std.TransOrd κ] (m : SortedMap κ α) (k : κ) (v : α) : SortedMap κ α :=
  ⟨insertEntry k v m.entries, insertEntry_ascending k v m.ascending⟩

def erase (m : SortedMap κ α) (k : κ) : SortedMap κ α :=
  ⟨m.entries.filter (fun e => compare k e.1 ≠ .eq), m.ascending.filter _⟩

def toList (m : SortedMap κ α) : List (κ × α) := m.entries

def keys (m : SortedMap κ α) : List κ := m.entries.map Prod.fst

def size (m : SortedMap κ α) : Nat := m.entries.length

def isEmpty (m : SortedMap κ α) : Bool := m.entries.isEmpty

/-- The map of a list of entries; of two entries with one key the later counts. -/
def ofList [Std.TransOrd κ] (l : List (κ × α)) : SortedMap κ α :=
  l.foldl (fun m e => m.insert e.1 e.2) empty

@[ext] theorem ext {a b : SortedMap κ α} (h : a.entries = b.entries) : a = b := by
  cases a; cases b; simp_all

@[simp] theorem find?_empty (k : κ) : (empty : SortedMap κ α).find? k = none := rfl

@[simp] theorem find?_insert_self [Std.TransOrd κ] [Std.LawfulEqOrd κ] (m : SortedMap κ α) (k : κ)
    (v : α) : (m.insert k v).find? k = some v :=
  lookupIn?_insertEntry_self k v m.entries

theorem find?_insert_of_ne [Std.TransOrd κ] [Std.LawfulEqOrd κ] (m : SortedMap κ α) {k k' : κ}
    (h : k' ≠ k) (v : α) : (m.insert k v).find? k' = m.find? k' :=
  lookupIn?_insertEntry_of_ne h v m.entries

theorem find?_insert [Std.TransOrd κ] [Std.LawfulEqOrd κ] [DecidableEq κ] (m : SortedMap κ α)
    (k k' : κ) (v : α) : (m.insert k v).find? k' = if k' = k then some v else m.find? k' := by
  split
  next h => rw [h, find?_insert_self]
  next h => exact find?_insert_of_ne m h v

theorem find?_erase [Std.LawfulEqOrd κ] [DecidableEq κ] (m : SortedMap κ α) (k k' : κ) :
    (m.erase k).find? k' = if k' = k then none else m.find? k' := by
  simp only [find?, erase]
  induction m.entries with
  | nil => simp [lookupIn?]
  | cons hd tl ih =>
      by_cases hk : k = hd.1 <;> by_cases hk' : k' = k <;>
        simp_all [lookupIn?]

end SortedMap

end BlockSketch
