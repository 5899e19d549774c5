import BlockSketch.Proofs.Sketch.Placement

/-!
A bucket is a map that remembers the order in which its keys came. After any placements, each key
stands once, in the order of the first placements, with the text of the last placement under the key
that was stored: one that was the first or replaces others.

A bucket can also be kept as a row of entries beside an index of their positions, so that no look-up
goes through the row. The two ways of keeping it give the same answers, and the index leads from
every key to its entry and from no other text to anything.
-/

namespace BlockSketch

/-! ### Placements that are stored -/

namespace Placement

variable {ps : List Placement} {key text : String}

/-- After some others, a placement is stored if it is the first one under its key or replaces
others. -/
def StoredAfter (p : Placement) (before : List Placement) : Prop :=
  p.overwrite = true ∨ ∀ q ∈ before, q.key ≠ p.key

def LastStored (ps : List Placement) (key text : String) : Prop :=
  ∃ before p after, ps = before ++ p :: after ∧ p.key = key ∧ p.text = text ∧
    p.StoredAfter before ∧
    ∀ mid q rest, after = mid ++ q :: rest → q.key = key → ¬q.StoredAfter (before ++ p :: mid)

theorem storedAfter_iff {p : Placement} :
    p.StoredAfter ps ↔ p.overwrite = true ∨ standing? ps p.key = none := by
  rw [StoredAfter, standing?_eq_none_iff, under, List.filter_eq_nil_iff]
  simp

/-- A member of a list with one more at the end is that one, or a member of the list before. -/
theorem split_append_singleton {p q : Placement} {before after : List Placement}
    (h : ps ++ [p] = before ++ q :: after) :
    ps = before ∧ p = q ∧ after = [] ∨ ∃ mid, after = mid ++ [p] ∧ ps = before ++ q :: mid := by
  rcases List.eq_nil_or_concat after with rfl | ⟨mid, x, rfl⟩
  · obtain ⟨hbefore, hq⟩ := List.append_inj' h rfl
    exact .inl ⟨hbefore, (List.cons.inj hq).1, rfl⟩
  · have hlast : ps ++ [p] = (before ++ q :: mid) ++ [x] := by simpa using h
    obtain ⟨hmid, hx⟩ := List.append_inj' hlast rfl
    obtain rfl : p = x := (List.cons.inj hx).1
    exact .inr ⟨mid, List.concat_eq_append, hmid⟩

/-- A placement that is stored becomes the last one. -/
theorem lastStored_of_stored {p : Placement} (hstored : p.StoredAfter ps) :
    LastStored (ps ++ [p]) p.key text ↔ p.text = text := by
  constructor
  · rintro ⟨before, q, after, heq, -, htext, -, hlast⟩
    obtain ⟨-, rfl, -⟩ | ⟨mid, rfl, rfl⟩ := split_append_singleton heq
    · exact htext
    · -- an earlier one is not the last, since this one is stored behind it
      exact absurd hstored (hlast mid p [] rfl rfl)
  · intro htext
    exact ⟨ps, p, [], rfl, rfl, htext, hstored, fun mid q rest h => by simp at h⟩

/-- A placement that is not stored, or not under the key, changes nothing. -/
theorem lastStored_of_not_stored {p : Placement} (hnot : ¬(key = p.key ∧ p.StoredAfter ps)) :
    LastStored (ps ++ [p]) key text ↔ LastStored ps key text := by
  constructor
  · rintro ⟨before, q, after, heq, hkey, htext, hstored, hlast⟩
    obtain ⟨rfl, rfl, -⟩ | ⟨mid, rfl, rfl⟩ := split_append_singleton heq
    · exact absurd ⟨hkey.symm, hstored⟩ hnot
    · refine ⟨before, q, mid, rfl, hkey, htext, hstored, fun mid' x rest h => ?_⟩
      exact hlast mid' x (rest ++ [p]) (by rw [h, List.append_assoc, List.cons_append])
  · rintro ⟨before, q, after, rfl, hkey, htext, hstored, hlast⟩
    refine ⟨before, q, after ++ [p], by simp, hkey, htext, hstored, fun mid x rest h hx => ?_⟩
    obtain ⟨rfl, rfl, -⟩ | ⟨rest', -, rfl⟩ := split_append_singleton h
    · exact fun h => hnot ⟨hx.symm, h⟩
    · exact hlast mid x rest' rfl hx

theorem lastStored_iff : LastStored ps key text ↔ standing? ps key = some text := by
  induction ps using List.reverseRecOn with
  | nil => simp [LastStored, standing?, under]
  | append_singleton ps p ih =>
      rw [standing?_append_singleton]
      split
      next hstored =>
          obtain ⟨rfl, hstored⟩ := hstored
          rw [lastStored_of_stored (storedAfter_iff.mpr hstored), Option.some.injEq]
      next hnot =>
          rw [lastStored_of_not_stored fun h => hnot ⟨h.1, storedAfter_iff.mp h.2⟩, ih]

end Placement

/-! ### The order of the keys -/

namespace Bucket

theorem keys_ofPlacements (ps : List Placement) :
    (ofPlacements ps).keys = (ps.map (·.key)).eraseDups := by
  induction ps using List.reverseRecOn with
  | nil => rfl
  | append_singleton ps p ih =>
      rw [ofPlacements, List.foldl_append]
      change ((ofPlacements ps).insert p.key p.text p.overwrite).2.keys = _
      rw [keys_insert, ih, List.map_append, List.eraseDups_append]
      split
      next hold => simp_all [List.removeAll]
      next hnew => simp_all [List.removeAll, List.eraseDups_cons]

theorem contains_iff {b : Bucket} {key : String} : b.contains key = true ↔ key ∈ b.keys := by
  rw [contains, Option.isSome_iff_ne_none, Ne, get?_eq_none_iff, Classical.not_not]

theorem insert_fst_ofPlacements (ps : List Placement) (p : Placement) :
    ((ofPlacements ps).insert p.key p.text p.overwrite).1 = true ↔ p.StoredAfter ps := by
  rw [Placement.storedAfter_iff, ← get?_ofPlacements, insert, contains]
  cases (ofPlacements ps).get? p.key <;> cases p.overwrite <;> simp

end Bucket

/-! ### Keeping an index -/

/-- A bucket as a row of entries, with an index of their positions. -/
structure IndexedBucket where
  entries : List (String × String)
  index : SortedMap String Nat

namespace IndexedBucket

def empty : IndexedBucket := ⟨[], .empty⟩

def get? (x : IndexedBucket) (key : String) : Option String :=
  (x.index.find? key).bind fun i => (x.entries[i]?).map Prod.snd

def contains (x : IndexedBucket) (key : String) : Bool := x.index.contains key

def size (x : IndexedBucket) : Nat := x.entries.length

/-- Store a fragment as `Bucket.insert` does, at the position that the index tells. -/
def insert (x : IndexedBucket) (key text : String) (overwrite : Bool) : Bool × IndexedBucket :=
  match x.index.find? key with
  | some i =>
      (overwrite,
        if overwrite then { x with entries := x.entries.modify i fun e => (e.1, text) } else x)
  | none => (true, ⟨x.entries ++ [(key, text)], x.index.insert key x.entries.length⟩)

def ofPlacements (ps : List Placement) : IndexedBucket :=
  ps.foldl (fun x p => (x.insert p.key p.text p.overwrite).2) .empty

/-- The row is that of a bucket, and the index tells where its keys stand. -/
structure Keeps (x : IndexedBucket) (b : Bucket) : Prop where
  entries : x.entries = b.entries
  index : ∀ key i, x.index.find? key = some i ↔ b.keys[i]? = some key

namespace Keeps

variable {x : IndexedBucket} {b : Bucket} {key : String}

theorem find?_eq_none_iff (h : x.Keeps b) : x.index.find? key = none ↔ key ∉ b.keys := by
  simp only [Option.eq_none_iff_forall_ne_some, ne_eq, h.index, List.mem_iff_getElem?, not_exists]

theorem find?_eq_some_iff (h : x.Keeps b) {i : Nat} :
    x.index.find? key = some i ↔ ∃ text, x.entries[i]? = some (key, text) := by
  rw [h.index, Bucket.keys, ← h.entries, List.getElem?_map, Option.map_eq_some_iff]
  constructor
  · rintro ⟨⟨_, text⟩, hentry, rfl⟩
    exact ⟨text, hentry⟩
  · rintro ⟨text, hentry⟩
    exact ⟨_, hentry, rfl⟩

theorem contains_eq (h : x.Keeps b) : x.contains key = b.contains key := by
  rw [Bool.eq_iff_iff, Bucket.contains_iff, contains, SortedMap.contains,
    Option.isSome_iff_ne_none, Ne, h.find?_eq_none_iff, Classical.not_not]

theorem get?_eq (h : x.Keeps b) (hkeys : b.keys.Nodup) : x.get? key = b.get? key := by
  cases hi : x.index.find? key with
  | none =>
      rw [get?, hi, Bucket.get?_eq_none_iff.mpr (h.find?_eq_none_iff.mp hi)]
      rfl
  | some i =>
      obtain ⟨text, hentry⟩ := h.find?_eq_some_iff.mp hi
      have hmem := List.mem_of_getElem? hentry
      rw [h.entries] at hmem
      rw [get?, hi, Option.bind_some, hentry, (Bucket.get?_eq_some_iff hkeys).mpr hmem]
      rfl

/-- Where the index tells the position of a key, the entry there is the one with the key. -/
theorem modify_entries (h : x.Keeps b) {i : Nat} (hi : x.index.find? key = some i)
    (text : String) :
    (x.entries.modify i fun e => (e.1, text)) = (b.replace key text).entries := by
  refine List.ext_getElem? fun j => ?_
  rw [List.getElem?_modify, Bucket.replace, List.getElem?_map, ← h.entries]
  cases hentry : x.entries[j]? with
  | none => rfl
  | some e =>
      have hj : x.index.find? e.1 = some j := h.find?_eq_some_iff.mpr ⟨e.2, hentry⟩
      have hsame : i = j ↔ e.1 = key := by
        constructor
        · rintro rfl
          have hkeys := ((h.index _ _).mp hj).symm.trans ((h.index _ _).mp hi)
          exact Option.some.inj hkeys
        · rintro rfl
          exact Option.some.inj (hi.symm.trans hj)
      by_cases hij : i = j <;> simp [hij, ← hsame]

/-- A new key is indexed at the end of the row. -/
theorem push (h : x.Keeps b) (hnew : x.index.find? key = none) (text : String) :
    Keeps ⟨x.entries ++ [(key, text)], x.index.insert key x.entries.length⟩
      ⟨b.entries ++ [(key, text)]⟩ where
  entries := by rw [h.entries]
  index key' i := by
    have hold := h.index key' i
    have hlength : x.entries.length = b.keys.length := by
      rw [Bucket.keys, h.entries, List.length_map]
    change (x.index.insert key x.entries.length).find? key' = some i ↔
      ((b.entries ++ [(key, text)]).map Prod.fst)[i]? = some key'
    rw [SortedMap.find?_insert, List.map_append, ← Bucket.keys, List.getElem?_append, hlength]
    by_cases hkey : key' = key
    · subst hkey
      rw [hnew] at hold
      by_cases hi : i < b.keys.length
      · simpa [hi, Nat.ne_of_gt hi] using hold
      · have hlast : b.keys.length = i ↔ i - b.keys.length = 0 := by omega
        simp [hi, hlast, List.getElem?_singleton]
    · rw [if_neg hkey, hold]
      by_cases hi : i < b.keys.length
      · rw [if_pos hi]
      · simp [hi, Ne.symm hkey, List.getElem?_singleton]

/-- One insertion keeps row and index in step with the bucket, and has the same answer. -/
theorem insert (h : x.Keeps b) (key text : String) (overwrite : Bool) :
    (x.insert key text overwrite).1 = (b.insert key text overwrite).1 ∧
      (x.insert key text overwrite).2.Keeps (b.insert key text overwrite).2 := by
  have hcontains : x.contains key = b.contains key := h.contains_eq
  rw [contains, SortedMap.contains] at hcontains
  unfold IndexedBucket.insert Bucket.insert
  rw [← hcontains]
  cases hi : x.index.find? key with
  | none => exact ⟨rfl, h.push hi text⟩
  | some i =>
      cases overwrite with
      | false => exact ⟨rfl, h⟩
      | true =>
          refine ⟨rfl, h.modify_entries hi text, fun key' j => ?_⟩
          exact (b.keys_replace key text).symm ▸ h.index key' j

end Keeps

theorem keeps_ofPlacements (ps : List Placement) :
    (ofPlacements ps).Keeps (.ofPlacements ps) := by
  induction ps using List.reverseRecOn with
  | nil =>
      refine ⟨rfl, fun key i => ?_⟩
      simp [ofPlacements, empty, Bucket.ofPlacements, Bucket.keys, Bucket.empty]
  | append_singleton ps p ih =>
      rw [ofPlacements, Bucket.ofPlacements, List.foldl_append, List.foldl_append]
      exact (ih.insert p.key p.text p.overwrite).2

end IndexedBucket

/-- Insertions make a map that remembers the order of its keys. After any placements the keys stand
in the order in which they came first, each of them once, and the text of a key is that of the last
placement under it that was stored. A further placement answers that it is stored exactly if it is
the first one under its key or replaces others. Look-ups and the size agree with the entries. A row
with an index gives the same entries and the same answers, and the index has a position for a key
exactly if the entry there has the key. -/
theorem insertions_make_ordered_map (ps : List Placement) :
    let b := Bucket.ofPlacements ps
    let x := IndexedBucket.ofPlacements ps
    let keys := (ps.map (·.key)).eraseDups
    (b.entries.map Prod.fst = keys ∧ keys.Nodup) ∧
      (∀ key text, (key, text) ∈ b.entries ↔ Placement.LastStored ps key text) ∧
      (∀ p : Placement, (b.insert p.key p.text p.overwrite).1 = true ↔ p.StoredAfter ps) ∧
      (∀ key text, b.get? key = some text ↔ (key, text) ∈ b.entries) ∧
      (∀ key, b.contains key = true ↔ key ∈ keys) ∧
      b.size = keys.length ∧
      x.entries = b.entries ∧
      (∀ p : Placement,
        (x.insert p.key p.text p.overwrite).1 = (b.insert p.key p.text p.overwrite).1) ∧
      (∀ key, x.get? key = b.get? key ∧ x.contains key = b.contains key) ∧
      x.size = b.size ∧
      ∀ key i, x.index.find? key = some i ↔ ∃ text, x.entries[i]? = some (key, text) := by
  intro b x keys
  have hkeys : b.keys = keys := Bucket.keys_ofPlacements ps
  have hnodup : b.keys.Nodup := Bucket.nodup_keys_ofPlacements ps
  have hkeeps : x.Keeps b := IndexedBucket.keeps_ofPlacements ps
  refine ⟨⟨hkeys, hkeys ▸ hnodup⟩, fun key text => ?_, Bucket.insert_fst_ofPlacements ps,
    fun key text => Bucket.get?_eq_some_iff hnodup, fun key => ?_, ?_, hkeeps.entries,
    fun p => (hkeeps.insert p.key p.text p.overwrite).1,
    fun key => ⟨hkeeps.get?_eq hnodup, hkeeps.contains_eq⟩, ?_,
    fun key i => hkeeps.find?_eq_some_iff⟩
  · rw [← Bucket.get?_eq_some_iff hnodup, Bucket.get?_ofPlacements, Placement.lastStored_iff]
  · rw [Bucket.contains_iff, hkeys]
  · rw [← hkeys, Bucket.keys, List.length_map, Bucket.size]
  · rw [IndexedBucket.size, hkeeps.entries, Bucket.size]

example :
    (Bucket.ofPlacements [⟨"x", "1", false⟩, ⟨"y", "2", false⟩, ⟨"x", "3", true⟩]).entries =
      [("x", "3"), ("y", "2")] := by
  decide

end BlockSketch
