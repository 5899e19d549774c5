import BlockSketch.Text.Numeral

/-!
The decimal digits of a number. They are digits, there is one at least, and they read back as the
number, so different numbers have different digits.
-/

namespace BlockSketch

theorem toList_toString (n : Nat) : (toString n).toList = Nat.toDigits 10 n :=
  Nat.toList_repr

theorem toList_toString_ne_nil (n : Nat) : (toString n).toList ≠ [] := by
  rw [toList_toString]
  exact Nat.toDigits_ne_nil

theorem append_toString_injective (word : String) :
    Function.Injective (fun i : Nat => word ++ toString i) := by
  intro i j h
  have hdigits : Nat.toDigits 10 i = Nat.toDigits 10 j := by
    have htext : toString i = toString j := (String.append_right_inj word).mp h
    rw [← toList_toString, htext, toList_toString]
  rw [← Nat.ofDigitChars_ten_toDigits (n := i), hdigits, Nat.ofDigitChars_ten_toDigits]

namespace Text

theorem isDigit_of_mem_toString {n : Nat} {c : Char} (h : c ∈ (toString n).toList) :
    isDigit c = true := by
  rw [toList_toString] at h
  have hdigit := Nat.isDigit_of_mem_toDigits (by decide) (by decide) h
  simp only [Char.isDigit, Bool.and_eq_true, decide_eq_true_eq] at hdigit
  have hc : '0' ≤ c ∧ c ≤ '9' := hdigit
  simp [isDigit, hc]

theorem exists_toString_eq_cons (n : Nat) :
    ∃ c cs, (toString n).toList = c :: cs ∧ isDigit c = true := by
  obtain ⟨c, cs, hcons⟩ := List.exists_cons_of_ne_nil (toList_toString_ne_nil n)
  have hmem : c ∈ (toString n).toList := by
    rw [hcons]
    exact List.mem_cons_self
  exact ⟨c, cs, hcons, isDigit_of_mem_toString hmem⟩

theorem head?_toDigits_ne_zero {n : Nat} (h : 0 < n) : (Nat.toDigits 10 n).head? ≠ some '0' := by
  induction n using Nat.strongRecOn with
  | ind n ih =>
      by_cases hlt : n < 10
      · rw [Nat.toDigits_of_lt_base hlt]
        have hdigits : ∀ d < 10, 0 < d → d.digitChar ≠ '0' := by decide
        simpa using hdigits n hlt h
      · rw [Nat.toDigits_of_base_le (by omega) (by omega)]
        have hhead := ih (n / 10) (by omega) (by omega)
        obtain ⟨c, cs, hcons⟩ := List.exists_cons_of_ne_nil (Nat.toDigits_ne_nil (n := n / 10))
        rw [hcons] at hhead ⊢
        exact hhead

/-- There is no leading zero. -/
theorem toString_ne_zero_cons (n : Nat) (c : Char) (cs : List Char) :
    (toString n).toList ≠ '0' :: c :: cs := by
  rw [toList_toString]
  intro h
  by_cases hn : n = 0
  · subst hn
    simp at h
  · exact head?_toDigits_ne_zero (Nat.pos_of_ne_zero hn) (by rw [h]; rfl)

theorem digitsValue_eq (cs : List Char) : digitsValue cs = Nat.ofDigitChars 10 cs 0 := by
  simp only [digitsValue, Nat.ofDigitChars, Nat.mul_comm]

theorem readDigits?_toString (n : Nat) : readDigits? (toString n).toList = some n := by
  have hall : (toString n).toList.all isDigit = true :=
    List.all_eq_true.mpr fun c hc => isDigit_of_mem_toString hc
  rw [readDigits?, if_pos ⟨toList_toString_ne_nil n, hall⟩, digitsValue_eq, toList_toString,
    Nat.ofDigitChars_ten_toDigits]

theorem readNat?_toString (n : Nat) : readNat? (toString n).toList = some n := by
  obtain ⟨c, cs, hcons, hdigit⟩ := exists_toString_eq_cons n
  rw [← readDigits?_toString n, hcons]
  unfold readNat?
  split
  next heq =>
      -- a plus sign is no digit
      cases heq
      cases hdigit
  next => rfl

theorem readWord?_toString {n : Nat} (h : n < 0x100000000) : readWord? (toString n) = some n := by
  rw [readWord?, readNat?_toString]
  simp [h]

end Text

end BlockSketch
