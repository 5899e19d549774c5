import Mathlib.Data.List.Basic

/-!
The bytes of a text. Texts with the same bytes are the same, and the byte of a line end occurs in
them only where the text has a line end. So byte strings without that byte can be written one after
the other, each with the byte behind it, and are read back in one way.
-/

namespace BlockSketch.Text

/-! ### Bytes as lists -/

theorem toList_loop (bytes : ByteArray) (i : Nat) (done : List UInt8) :
    ByteArray.toList.loop bytes i done = done.reverse ++ bytes.data.toList.drop i := by
  -- by induction on the number of bytes that are left
  induction hleft : bytes.size - i generalizing i done with
  | zero =>
      have hend : bytes.data.toList.length ≤ i := Nat.le_of_sub_eq_zero hleft
      rw [ByteArray.toList.loop, if_neg (by omega), List.drop_eq_nil_of_le hend, List.append_nil]
  | succ n ih =>
      have hi : i < bytes.data.toList.length := Nat.lt_of_sub_eq_succ hleft
      have hbyte : bytes.get! i = bytes.data.toList[i] := getElem!_pos bytes.data i hi
      rw [ByteArray.toList.loop, if_pos (by omega), ih (i + 1) _ (by omega),
        List.drop_eq_getElem_cons hi, hbyte, List.reverse_cons, List.append_assoc,
        List.singleton_append]

theorem toList_eq_toList_data (bytes : ByteArray) : bytes.toList = bytes.data.toList := by
  simp [ByteArray.toList, toList_loop]

theorem eq_of_toList_toUTF8_eq {s t : String} (h : s.toUTF8.toList = t.toUTF8.toList) : s = t := by
  rw [toList_eq_toList_data, toList_eq_toList_data, Array.toList_inj] at h
  exact String.toByteArray_inj.mp (ByteArray.ext h)

theorem toList_toUTF8 (s : String) :
    s.toUTF8.toList = s.toList.flatMap String.utf8EncodeChar := by
  rw [String.toUTF8_eq_toByteArray, ← String.utf8Encode_toList, toList_eq_toList_data]
  exact List.toList_data_toByteArray

/-! ### Line ends -/

def lineEndByte : UInt8 := '\n'.toNat.toUInt8

/-- One of the first 128 characters is its own byte, and all others have high bytes only. -/
theorem toNat_of_mem_utf8EncodeChar {c : Char} {byte : UInt8}
    (h : byte ∈ String.utf8EncodeChar c) : byte.toNat = c.val.toNat ∨ 128 ≤ byte.toNat := by
  have hbyte {n : Nat} (h : byte = UInt8.ofNat n) : byte.toNat = n % 256 := by
    rw [h, UInt8.toNat_ofNat']
  simp only [String.utf8EncodeChar] at h
  split at h
  next hlow =>
      have hval := hbyte (List.mem_singleton.mp h)
      exact .inl (by omega)
  next =>
      right
      split at h
      · simp only [List.mem_cons, List.not_mem_nil, or_false] at h
        rcases h with h | h <;> have hval := hbyte h <;> omega
      · split at h
        · simp only [List.mem_cons, List.not_mem_nil, or_false] at h
          rcases h with h | h | h <;> have hval := hbyte h <;> omega
        · simp only [List.mem_cons, List.not_mem_nil, or_false] at h
          rcases h with h | h | h | h <;> have hval := hbyte h <;> omega

theorem lineEndByte_notMem_toUTF8 {s : String} (h : '\n' ∉ s.toList) :
    lineEndByte ∉ s.toUTF8.toList := by
  rw [toList_toUTF8, List.mem_flatMap]
  rintro ⟨c, hc, hmem⟩
  have hval : lineEndByte.toNat = c.val.toNat :=
    (toNat_of_mem_utf8EncodeChar hmem).resolve_right (by decide)
  have hnewline : '\n' = c := Char.ext (UInt32.toNat_inj.mp hval)
  exact h (hnewline ▸ hc)

/-! ### Rows of byte strings -/

/-- What stands before the first end mark is told by the whole, and so is what stands behind. -/
theorem append_cons_inj_of_notMem_of_notMem {α : Type} {mark : α} {x y t t' : List α}
    (hx : mark ∉ x) (hy : mark ∉ y) (h : x ++ mark :: t = y ++ mark :: t') : x = y ∧ t = t' := by
  induction x generalizing y with
  | nil =>
      cases y with
      | nil => exact ⟨rfl, (List.cons.inj h).2⟩
      | cons b y => exact absurd (List.cons.inj h).1 (List.ne_of_not_mem_cons hy)
  | cons a x ih =>
      cases y with
      | nil => exact absurd (List.cons.inj h).1.symm (List.ne_of_not_mem_cons hx)
      | cons b y =>
          obtain ⟨rfl, hrest⟩ := List.cons.inj h
          obtain ⟨rfl, rfl⟩ := ih (List.not_mem_of_not_mem_cons hx)
            (List.not_mem_of_not_mem_cons hy) hrest
          exact ⟨rfl, rfl⟩

/-- Lines with an end mark behind each of them, and none inside, are read back in one way. -/
theorem flatMap_ended_inj {α : Type} {mark : α} {l l' : List (List α)}
    (hl : ∀ line ∈ l, mark ∉ line) (hl' : ∀ line ∈ l', mark ∉ line)
    (h : l.flatMap (· ++ [mark]) = l'.flatMap (· ++ [mark])) : l = l' := by
  induction l generalizing l' with
  | nil =>
      cases l' with
      | nil => rfl
      | cons line rest => simp at h
  | cons line rest ih =>
      cases l' with
      | nil => simp at h
      | cons line' rest' =>
          simp only [List.flatMap_cons, List.append_assoc, List.singleton_append] at h
          obtain ⟨rfl, hrest⟩ := append_cons_inj_of_notMem_of_notMem (hl line List.mem_cons_self)
            (hl' line' List.mem_cons_self) h
          rw [ih (fun x hx => hl x (List.mem_cons_of_mem _ hx))
            (fun x hx => hl' x (List.mem_cons_of_mem _ hx)) hrest]

end BlockSketch.Text
