/-!
Fragments of a sketch under keys, in the order in which the keys came first.
-/

namespace BlockSketch

structure Bucket where
  entries : List (String × String)
  deriving DecidableEq, Repr, Inhabited

namespace Bucket

def empty : Bucket := ⟨[]⟩

def get? (b : Bucket) (key : String) : Option String := b.entries.lookup key

def contains (b : Bucket) (key : String) : Bool := (b.get? key).isSome

def size (b : Bucket) : Nat := b.entries.length

def isEmpty (b : Bucket) : Bool := b.entries.isEmpty

def texts (b : Bucket) : List String := b.entries.map Prod.snd

def replace (b : Bucket) (key text : String) : Bucket :=
  ⟨b.entries.map (fun e => if e.1 = key then (e.1, text) else e)⟩

/-- Store a fragment. A new key goes to the end; a key that is there keeps its place, and its
fragment too unless `overwrite` is set. Also tells whether the fragment was stored. -/
def insert (b : Bucket) (key text : String) (overwrite : Bool) : Bool × Bucket :=
  if b.contains key then
    if overwrite then (true, b.replace key text) else (false, b)
  else (true, ⟨b.entries ++ [(key, text)]⟩)

def textsWithLast (b : Bucket) (key : String) : List String :=
  (b.entries.filter (fun e => e.1 ≠ key)).map Prod.snd ++ (b.get? key).toList

@[simp] theorem get?_empty (key : String) : empty.get? key = none := rfl

theorem get?_cons (e : String × String) (l : List (String × String)) (key : String) :
    (⟨e :: l⟩ : Bucket).get? key = if key = e.1 then some e.2 else (⟨l⟩ : Bucket).get? key := by
  obtain ⟨key', text⟩ := e
  by_cases h : key = key'
  · simp [get?, h]
  · simp [get?, List.lookup_cons, h, beq_eq_false_iff_ne.2 h]

theorem get?_replace (b : Bucket) (key key' text : String) :
    (b.replace key text).get? key' =
      if key' = key then (b.get? key').map (fun _ => text) else b.get? key' := by
  obtain ⟨l⟩ := b
  induction l with
  | nil => simp [replace, get?]
  | cons e l ih =>
      simp only [replace, List.map_cons, get?_cons] at ih ⊢
      rw [ih]
      by_cases he : e.1 = key <;> by_cases h : key' = key <;> by_cases h' : key' = e.1 <;>
        simp_all

theorem get?_append (b : Bucket) (key key' text : String) :
    (⟨b.entries ++ [(key, text)]⟩ : Bucket).get? key' =
      (b.get? key').or (if key' = key then some text else none) := by
  obtain ⟨l⟩ := b
  induction l with
  | nil =>
      rw [List.nil_append, get?_cons]
      simp [get?]
  | cons e l ih =>
      simp only [List.cons_append, get?_cons] at ih ⊢
      rw [ih]
      split <;> simp

/-- What is under a key after a fragment was offered: only the key of the fragment can change, and
only if it was free or is overwritten. -/
theorem get?_insert (b : Bucket) (key key' text : String) (overwrite : Bool) :
    (b.insert key text overwrite).2.get? key' =
      if key' = key ∧ (overwrite ∨ b.get? key = none) then some text else b.get? key' := by
  cases hk : b.get? key with
  | none => simp only [insert, contains, hk]; by_cases h : key' = key <;> simp_all [get?_append]
  | some v =>
      cases overwrite <;> by_cases h : key' = key <;> simp_all [insert, contains, get?_replace]

end Bucket

end BlockSketch
