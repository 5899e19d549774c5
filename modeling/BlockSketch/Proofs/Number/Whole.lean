import Mathlib.Algebra.Group.Nat.Defs
import BlockSketch.Block.Arrays
import BlockSketch.Proofs.Number.Literal

/-!
Whole numbers as doubles. A whole number of 53 bits is a double, so that it is read, made one less
and written without a loss. An index that is such a number counts from zero in a sketch.
-/

namespace BlockSketch

open Text

namespace Double

/-! ### Rounding -/

/-- One and the bound of all doubles as powers, with exponents that nothing evaluates. -/
theorem exists_exponents : ∃ a b, one = Nat.pow 2 a ∧ overflow = Nat.pow 2 b ∧ 53 + a ≤ b := by
  refine ⟨1074, 2098, ?_, ?_, by omega⟩
  · unfold one
    with_reducible rfl
  · unfold overflow
    with_reducible rfl

theorem one_pos : 0 < one := by
  obtain ⟨a, -, hone, -⟩ := exists_exponents
  rw [hone]
  exact Nat.two_pow_pos a

/-- Doubles of no more than 53 bits are no farther apart than one. -/
theorem spacing_dvd {m : Nat} (h : m < 2 ^ 53) (a : Nat) : spacing (m * 2 ^ a) ∣ 2 ^ a := by
  refine Nat.pow_dvd_pow 2 ?_
  by_cases hm : m = 0
  · rw [hm, Nat.zero_mul, Nat.log2_zero]
    omega
  · have hne : m * 2 ^ a ≠ 0 := Nat.mul_ne_zero hm (Nat.ne_of_gt (Nat.two_pow_pos a))
    have hlt : m * 2 ^ a < 2 ^ (53 + a) := by
      rw [Nat.pow_add]
      exact Nat.mul_lt_mul_of_pos_right h (Nat.two_pow_pos a)
    have hlog := (Nat.log2_lt hne).mpr hlt
    omega

theorem roundDiv_mul {den : Nat} (h : 0 < den) (q : Nat) : roundDiv (q * den) den = q := by
  rw [roundDiv, Nat.mul_div_cancel _ h, Nat.mul_mod_left]
  exact if_pos h

/-- A whole number of 53 bits is a double. -/
theorem round_whole {m : Nat} (h : m < 2 ^ 53) (negative : Bool) :
    round negative (m * one) 1 = .finite ((if negative then -(m : Int) else m) * one) := by
  obtain ⟨a, b, hone, hoverflow, hle⟩ := exists_exponents
  have hunits : roundDiv (m * one) (1 * spacing (m * one)) * spacing (m * one) = m * one := by
    have hdvd : spacing (m * one) ∣ m * one := by
      rw [hone]
      exact Nat.dvd_mul_left_of_dvd (spacing_dvd h a) m
    obtain ⟨q, hq⟩ := hdvd
    have hstep : 0 < spacing (m * one) := Nat.two_pow_pos _
    generalize spacing (m * one) = step at hq hstep
    rw [Nat.one_mul, hq, Nat.mul_comm step, roundDiv_mul hstep]
  have hsmall : ¬overflow ≤ m * one := by
    rw [Nat.not_le, hone, hoverflow]
    calc
      m * 2 ^ a < 2 ^ 53 * 2 ^ a := Nat.mul_lt_mul_of_pos_right h (Nat.two_pow_pos a)
      _ = 2 ^ (53 + a) := (Nat.pow_add 2 53 a).symm
      _ ≤ 2 ^ b := Nat.pow_le_pow_right (by omega) hle
  simp only [round, Nat.div_one, hunits, if_neg hsmall]
  cases negative with
  | true => rw [if_pos rfl, if_pos rfl, Int.natCast_mul, Int.neg_mul]
  | false => rw [if_neg Bool.false_ne_true, if_neg Bool.false_ne_true, Int.natCast_mul]

/-! ### Reading and writing -/

theorem ofDecimal_whole {m : Nat} (h : m < 2 ^ 53) (negative : Bool) :
    ofDecimal ⟨negative, m, 0⟩ = .finite ((if negative then -(m : Int) else m) * one) := by
  have hlength : (Nat.toDigits 10 m).length ≤ 16 :=
    (Nat.length_toDigits_le_iff (by omega) (by omega)).mpr (Nat.lt_trans h (by decide))
  simp only [ofDecimal, Int.add_zero]
  split
  next hzero =>
      obtain rfl : m = 0 := by omega
      rw [Int.natCast_zero, Int.neg_zero, ite_self, Int.zero_mul]
  next hne =>
      have hwhole : m * Nat.pow 10 (0 : Int).natAbs = m := Nat.mul_one m
      rw [if_neg (by omega), if_neg (by omega), hwhole, round_whole h negative]

theorem pred_whole {k : Int} (h : (k - 1).natAbs < 2 ^ 53) :
    pred (.finite (k * one)) = .finite ((k - 1) * one) := by
  have hexact : k * one - one = (k - 1) * one := by rw [Int.sub_mul, Int.one_mul]
  have habs : ((k - 1) * one).natAbs = (k - 1).natAbs * one := by
    rw [Int.natAbs_mul, Int.natAbs_natCast]
  have hsign : (k - 1) * one < 0 ↔ k - 1 < 0 := by
    have hmul := Int.mul_lt_mul_right (b := k - 1) (c := 0) (Int.natCast_pos.mpr one_pos)
    rwa [Int.zero_mul] at hmul
  simp only [pred, hexact, habs, hsign, round_whole h]
  by_cases hneg : k - 1 < 0
  · have hvalue : -((k - 1).natAbs : Int) = k - 1 := by omega
    rw [decide_eq_true hneg, if_pos rfl, hvalue]
  · have hvalue : ((k - 1).natAbs : Int) = k - 1 := by omega
    rw [decide_eq_false hneg, if_neg Bool.false_ne_true, hvalue]

theorem text_whole {k : Int} (h : k.natAbs < 1000000000000000) :
    text (.finite (k * one)) = toString k := by
  have hone : (one : Int) ≠ 0 := Int.natCast_ne_zero.mpr (Nat.ne_of_gt one_pos)
  have hint : toInt? (.finite (k * one)) = some k := by
    simp only [toInt?, Int.mul_emod_left, if_true, Int.mul_ediv_cancel k hone]
  rw [text]
  simp only [hint, if_pos h]

end Double

/-! ### Indices -/

theorem Decimal.readUnsigned?_toString (negative : Bool) (m : Nat) :
    Decimal.readUnsigned? negative (toString m).toList = some ⟨negative, m, 0⟩ := by
  have hall : ∀ c ∈ (toString m).toList, isDigit c = true := fun c => isDigit_of_mem_toString
  have hsplit : Decimal.split (toString m).toList = ((toString m).toList, [], []) := by
    rw [Decimal.split, List.takeWhile_eq_self_iff.mpr hall, List.dropWhile_eq_nil_iff.mpr hall]
  have hvalue : digitsValue (toString m).toList = m := by
    rw [digitsValue_eq, toList_toString, Nat.ofDigitChars_ten_toDigits]
  have hne : ¬((toString m).toList.isEmpty = true ∧ ([] : List Char).isEmpty = true) := by
    simp
  rw [Decimal.readUnsigned?, hsplit]
  simp only [if_neg hne, Decimal.readExponent?, List.append_nil, hvalue, Option.map_some]
  rfl

def Text.signed (negative : Bool) (m : Nat) : String :=
  if negative then "-" ++ toString m else toString m

theorem Decimal.read?_signed (negative : Bool) (m : Nat) :
    Decimal.read? (Text.signed negative m) = some ⟨negative, m, 0⟩ := by
  cases negative with
  | true =>
      have htext : (Text.signed true m).toList = '-' :: (toString m).toList := by
        simp [Text.signed]
      simp only [Decimal.read?, htext]
      exact Decimal.readUnsigned?_toString true m
  | false =>
      obtain ⟨c, cs, hcons, hdigit⟩ := exists_toString_eq_cons m
      have hminus : c ≠ '-' := by
        rintro rfl
        cases hdigit
      have hplus : c ≠ '+' := by
        rintro rfl
        cases hdigit
      have htext : Text.signed false m = String.ofList (c :: cs) := by
        rw [← hcons, String.ofList_toList]
        rfl
      rw [htext, Decimal.read?_cons hminus hplus, ← hcons, Decimal.readUnsigned?_toString]

theorem Text.mem_signed {negative : Bool} {m : Nat} {c : Char}
    (h : c ∈ (Text.signed negative m).toList) : isDigit c = true ∨ c = '-' := by
  cases negative with
  | true =>
      rw [Text.signed, if_pos rfl, String.toList_append, List.mem_append] at h
      rcases h with h | h
      · exact .inr (List.mem_singleton.mp h)
      · exact .inl (isDigit_of_mem_toString h)
  | false => exact .inl (isDigit_of_mem_toString h)

namespace Block

theorem plainNumber?_signed {m : Nat} (h : m < 2 ^ 53) (negative : Bool) :
    plainNumber? (Text.signed negative m) =
      some (.finite ((if negative then -(m : Int) else m) * Double.one)) := by
  have htrim : trimChars (Text.signed negative m).toList = (Text.signed negative m).toList := by
    refine trimChars_eq_self fun c hc => ?_
    rcases mem_signed hc with hdigit | rfl
    · exact isBlankChar_of_isWordChar (isWordChar_of_isDigit hdigit)
    · decide
  have hplain : ((Text.signed negative m).toList.isEmpty || !(Text.signed negative m).toList.all
      fun c => isDigit c || "-+.eE".toList.contains c) = false := by
    have hne : (Text.signed negative m).toList ≠ [] := by
      cases negative with
      | true => simp [Text.signed]
      | false => exact toList_toString_ne_nil m
    have hall : (Text.signed negative m).toList.all
        (fun c => isDigit c || "-+.eE".toList.contains c) = true := by
      refine List.all_eq_true.mpr fun c hc => ?_
      rcases mem_signed hc with hdigit | rfl
      · rw [hdigit, Bool.true_or]
      · decide
    rw [hall, List.isEmpty_eq_false_iff.mpr hne]
    rfl
  simp only [plainNumber?, htrim, hplain, Bool.false_eq_true, if_false, String.ofList_toList,
    Double.read?, Decimal.read?_signed, Option.map_some, Double.ofDecimal_whole h]

/-- An index that is a number counts from zero in a sketch. -/
theorem shifted_signed {negative : Bool} {m : Nat} {k : Int}
    (hk : k = if negative then -(m : Int) else m) (h : (k - 1).natAbs < 1000000000000000) :
    Arrays.shifted (Text.signed negative m) = toString (k - 1) := by
  have hm : m < 2 ^ 53 := by
    rw [hk] at h
    split at h <;> omega
  rw [Arrays.shifted, plainNumber?_signed hm, ← hk]
  simp only
  rw [Double.pred_whole (by omega), Double.text_whole h]

end Block

end BlockSketch
