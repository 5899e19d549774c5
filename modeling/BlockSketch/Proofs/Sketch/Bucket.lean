import BlockSketch.Sketch.Bucket
import Mathlib.Data.List.Nodup

/-!
The keys of a bucket. Each of them is there once, whatever is inserted, so an entry is what is found
under its key.
-/

namespace BlockSketch

namespace Bucket

def keys (b : Bucket) : List String := b.entries.map Prod.fst

theorem get?_eq_none_iff {b : Bucket} {key : String} : b.get? key = none ↔ key ∉ b.keys := by
  simp only [get?, keys, List.lookup_eq_none_iff, List.mem_map, not_exists, not_and]
  exact forall₂_congr fun e _ => by rw [bne_iff_ne, ne_comm]

theorem keys_replace (b : Bucket) (key text : String) : (b.replace key text).keys = b.keys := by
  simp only [keys, replace, List.map_map]
  refine List.map_congr_left fun e _ => ?_
  by_cases he : e.1 = key <;> simp [he]

/-- A new key goes to the end, and one that is there keeps its place. -/
theorem keys_insert (b : Bucket) (key text : String) (overwrite : Bool) :
    (b.insert key text overwrite).2.keys = if key ∈ b.keys then b.keys else b.keys ++ [key] := by
  unfold insert contains
  cases hkey : b.get? key with
  | none =>
      rw [if_neg (get?_eq_none_iff.mp hkey)]
      simp [keys]
  | some other =>
      have hmem : key ∈ b.keys := by
        by_contra hnew
        rw [get?_eq_none_iff.mpr hnew] at hkey
        cases hkey
      rw [if_pos hmem]
      cases overwrite with
      | false => rfl
      | true => exact keys_replace b key text

theorem nodup_keys_insert {b : Bucket} (h : b.keys.Nodup) (key text : String)
    (overwrite : Bool) : (b.insert key text overwrite).2.keys.Nodup := by
  rw [keys_insert]
  split
  next => exact h
  next hnew => exact h.append (List.nodup_singleton _) (by simpa using hnew)

theorem get?_eq_some_iff {b : Bucket} (h : b.keys.Nodup) {key text : String} :
    b.get? key = some text ↔ (key, text) ∈ b.entries := by
  obtain ⟨l⟩ := b
  induction l with
  | nil => simp [get?]
  | cons e rest ih =>
      obtain ⟨hhead, hrest⟩ := List.nodup_cons.mp h
      rw [get?_cons, List.mem_cons]
      by_cases hkey : key = e.1
      · subst hkey
        have hother : (e.1, text) ∉ rest := fun hmem =>
          hhead (List.mem_map.mpr ⟨_, hmem, rfl⟩)
        simp [hother, Prod.ext_iff, eq_comm]
      · rw [if_neg hkey, ih hrest]
        simp [Prod.ext_iff, hkey]

end Bucket

end BlockSketch
