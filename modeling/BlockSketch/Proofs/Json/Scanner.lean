import BlockSketch.Json.Scanner
import BlockSketch.Json.Writer
import BlockSketch.Proofs.Text.Numeral
import Mathlib.Algebra.Group.Nat.Defs

/-!
Quoted texts and written numbers are scanned back. A quoted text ends at its closing quote, whatever
follows it; a number ends only where the text goes on with a comma or a closing bracket, or ends.
-/

namespace BlockSketch

/-! ### Quoted texts -/

namespace Json

theorem hexValue?_lowerHexDigit : ∀ n < 16, hexValue? (lowerHexDigit n) = some n := by
  decide

theorem unitOf?_lowerHexDigit {n : Nat} (h : n < 0x20) :
    unitOf? '0' '0' (lowerHexDigit (n / 16)) (lowerHexDigit (n % 16)) = some n := by
  have hzero : hexValue? '0' = some 0 := rfl
  have hhigh := hexValue?_lowerHexDigit (n / 16) (by omega)
  have hlow := hexValue?_lowerHexDigit (n % 16) (by omega)
  simp only [unitOf?, hzero, hhigh, hlow, bind, Option.bind, pure]
  congr 1
  omega

theorem joinPieces_unit {n : Nat} (h : n < 0xD800) (outcome : Except Fault (List Char))
    (ps : List Piece) :
    joinPieces outcome (.unit n :: ps) =
      (joinPieces outcome ps).map (fun r => (Char.ofNat n :: r.1, r.2)) := by
  have htrailing : isTrailing n = false := by
    simp only [isTrailing, Bool.and_eq_false_iff, decide_eq_false_iff_not]
    omega
  have hleading : isLeading n = false := by
    simp only [isLeading, Bool.and_eq_false_iff, decide_eq_false_iff_not]
    omega
  rw [joinPieces.eq_def]
  simp [htrailing, hleading]

/-- A character that is written inside a quoted text is scanned as one piece, which gives the
character back. -/
theorem exists_piece_of_escape (c : Char) :
    ∃ piece, (∀ cs, scanText (escape c ++ cs) = (scanText cs).cons piece) ∧
      ∀ outcome ps, joinPieces outcome (piece :: ps) =
        (joinPieces outcome ps).map (fun r => (c :: r.1, r.2)) := by
  fun_cases escape c
  case case8 _ _ _ _ _ _ _ hcontrol =>
      -- a control character without a letter of its own is given by number
      refine ⟨.unit c.toNat, fun cs => ?_, fun outcome ps => ?_⟩
      · simp only [List.cons_append, List.nil_append, scanText, unitOf?_lowerHexDigit hcontrol]
      · rw [joinPieces_unit (by omega), Char.ofNat_toNat]
  case case9 _ _ _ _ _ _ _ hplain =>
      -- any other character stands for itself, since it neither ends the text nor starts an escape
      refine ⟨.char c, fun cs => ?_, fun _ _ => rfl⟩
      rw [List.singleton_append, scanText, if_neg hplain]
      all_goals simp_all
  all_goals exact ⟨.char _, fun _ => rfl, fun _ _ => rfl⟩

theorem joinPieces_scanText (cs rest : List Char) :
    joinPieces (scanText (cs.flatMap escape ++ '"' :: rest)).outcome
      (scanText (cs.flatMap escape ++ '"' :: rest)).pieces = .ok (cs, rest) := by
  induction cs with
  | nil => rfl
  | cons c cs ih =>
      obtain ⟨piece, hscan, hjoin⟩ := exists_piece_of_escape c
      rw [List.flatMap_cons, List.append_assoc, hscan]
      simp only [Scan.cons]
      rw [hjoin, ih]
      rfl

theorem readQuoted_escape (s : String) (rest : List Char) :
    readQuoted (s.toList.flatMap escape ++ '"' :: rest) = .ok (s, rest) := by
  rw [readQuoted, joinPieces_scanText]
  simp [Except.map]

end Json

/-! ### Sizes of numbers -/

namespace Double

theorem roundDiv_le (num den : Nat) : roundDiv num den ≤ num / den + 1 := by
  simp only [roundDiv]
  split
  · omega
  · split
    · omega
    · have := Nat.mod_lt (num / den) (show 0 < 2 by omega)
      omega

theorem spacing_le (units : Nat) : spacing units ≤ units + 1 := by
  by_cases h : units = 0
  · subst h
    decide
  · calc
      spacing units ≤ 2 ^ units.log2 := Nat.pow_le_pow_right (by omega) (by omega)
      _ ≤ units := Nat.log2_self_le h
      _ ≤ units + 1 := Nat.le_succ _

theorem pow_le_overflow {k : Nat} (h : k ≤ 2098) : 2 ^ k ≤ overflow := by
  unfold overflow
  generalize 2098 = m at h ⊢
  exact Nat.pow_le_pow_right (by omega) h

theorem mul_one_lt {n k : Nat} (h : n < 2 ^ k) : n * one < 2 ^ (k + 1074) := by
  unfold one
  generalize 1074 = m
  rw [Nat.pow_add]
  exact Nat.mul_lt_mul_of_pos_right h (Nat.pow_pos (by omega))

theorem div_one_lt {n k : Nat} (h : n < 2 ^ (1074 + k)) : n / one < 2 ^ k := by
  unfold one
  generalize 1074 = m at h ⊢
  rw [Nat.pow_add] at h
  exact Nat.div_lt_of_lt_mul h

/-- Rounding at most doubles a magnitude, so one that is far from the largest stays finite. -/
theorem exists_round_eq_finite {num den k : Nat} (h : num / den < 2 ^ k) (hk : k < 2098) :
    ∃ u : Nat, u < 2 ^ (k + 1) ∧ round false num den = .finite u := by
  have hunits : roundDiv num (den * spacing (num / den)) * spacing (num / den) < 2 ^ (k + 1) := by
    have hpos : 0 < spacing (num / den) := Nat.pow_pos (by omega)
    have hround := roundDiv_le num (den * spacing (num / den))
    rw [← Nat.div_div_eq_div_mul] at hround
    have hmul := Nat.mul_le_mul_right (spacing (num / den)) hround
    rw [Nat.add_mul, Nat.one_mul] at hmul
    have hdiv := Nat.div_mul_le_self (num / den) (spacing (num / den))
    have hspacing := spacing_le (num / den)
    rw [Nat.pow_succ]
    omega
  refine ⟨_, hunits, ?_⟩
  have hoverflow : 2 ^ (k + 1) ≤ overflow := pow_le_overflow (by omega)
  simp only [round]
  rw [if_neg (by omega)]
  simp

theorem exists_nearest_eq_finite {n k : Nat} (h : n < 2 ^ k) (hk : k < 1024) :
    ∃ u : Nat, u < 2 ^ (k + 1074 + 1) ∧ nearest n = .finite u := by
  refine exists_round_eq_finite ?_ (by omega)
  rw [Nat.div_one]
  exact mul_one_lt h

theorem isFinite_ofProduct {m n j k : Nat} (hm : m < 2 ^ j) (hn : n < 2 ^ k) (h : j + k < 1000) :
    (ofProduct m n).isFinite = true := by
  obtain ⟨u, hu, hmu⟩ := exists_nearest_eq_finite hm (by omega)
  obtain ⟨v, hv, hnv⟩ := exists_nearest_eq_finite hn (by omega)
  have hproduct : u * v < 2 ^ (j + 1074 + 1 + (k + 1074 + 1)) := by
    rw [Nat.pow_add]
    exact Nat.mul_lt_mul'' hu hv
  have hexponent : j + 1074 + 1 + (k + 1074 + 1) = 1074 + (j + k + 1076) := by omega
  rw [hexponent] at hproduct
  obtain ⟨w, -, hw⟩ := exists_round_eq_finite (div_one_lt hproduct) (by omega)
  rw [ofProduct, hmu, hnv, mulAbs, Int.natAbs_natCast, Int.natAbs_natCast, hw, isFinite]

end Double

namespace Json

namespace Magnitude

theorem le_ofDigitChars (ds : List Char) (s : Nat) : s ≤ Nat.ofDigitChars 10 ds s := by
  induction ds generalizing s with
  | nil => exact Nat.le_refl s
  | cons d ds ih =>
      have htail := ih (10 * s + (d.toNat - '0'.toNat))
      rw [Nat.ofDigitChars, List.foldl_cons]
      rw [Nat.ofDigitChars] at htail
      omega

theorem absorb_eq {s : Nat} {ds : List Char} (h : Nat.ofDigitChars 10 ds s ≤ maxSignificand) :
    absorb s ds = (Nat.ofDigitChars 10 ds s, []) := by
  induction ds generalizing s with
  | nil => rfl
  | cons d ds ih =>
      have hstep : Nat.ofDigitChars 10 (d :: ds) s =
          Nat.ofDigitChars 10 ds (s * 10 + (d.toNat - '0'.toNat)) := by
        rw [Nat.mul_comm s 10]
        rfl
      rw [hstep] at h ⊢
      have hle : s * 10 + (d.toNat - '0'.toNat) ≤ maxSignificand :=
        Nat.le_trans (le_ofDigitChars ds _) h
      simp only [absorb, if_pos hle, ih h]

end Magnitude

/-! ### Numbers -/

/-- A text that cannot go on with the number in front of it. -/
inductive Closes : List Char → Prop where
  | done : Closes []
  | comma (rest : List Char) : Closes (',' :: rest)
  | bracket (rest : List Char) : Closes (']' :: rest)
  | brace (rest : List Char) : Closes ('\x7d' :: rest)

theorem takeWhile_toString_append (n : Nat) {rest : List Char} (h : Closes rest) :
    ((toString n).toList ++ rest).takeWhile Text.isDigit = (toString n).toList := by
  rw [List.takeWhile_append_of_pos fun c hc => Text.isDigit_of_mem_toString hc]
  cases h <;> simp [Text.isDigit]

theorem dropWhile_toString_append (n : Nat) {rest : List Char} (h : Closes rest) :
    ((toString n).toList ++ rest).dropWhile Text.isDigit = rest := by
  rw [List.dropWhile_append_of_pos fun c hc => Text.isDigit_of_mem_toString hc]
  cases h <;> simp [Text.isDigit]

theorem split_toString (n : Nat) :
    Decimal.split (toString n).toList = ((toString n).toList, [], []) := by
  have htake := takeWhile_toString_append n .done
  have hdrop := dropWhile_toString_append n .done
  rw [List.append_nil] at htake hdrop
  simp only [Decimal.split, htake, hdrop]

theorem ofLiteral_toString {n : Nat} (h : n ≤ Magnitude.maxSignificand) :
    Magnitude.ofLiteral (toString n).toList = ⟨n, 0⟩ := by
  obtain ⟨c, cs, hcons, hdigit⟩ := Text.exists_toString_eq_cons n
  have hunsigned : (toString n).toList.dropWhile (· == '-') = (toString n).toList := by
    have hsign : (c == '-') = false := by
      rw [beq_eq_false_iff_ne]
      rintro rfl
      exact absurd hdigit (by decide)
    rw [hcons, List.dropWhile_cons_of_neg (by simp [hsign])]
  have habsorb : Magnitude.absorb 0 (toString n).toList = (n, []) := by
    have hvalue : Nat.ofDigitChars 10 (toString n).toList 0 = n := by
      rw [toList_toString, Nat.ofDigitChars_ten_toDigits]
    rw [Magnitude.absorb_eq (by omega), hvalue]
  simp only [Magnitude.ofLiteral, hunsigned, split_toString, Magnitude.ofDigits, habsorb,
    Magnitude.absorb, Decimal.readExponent?]
  rfl

theorem isTooLarge_ofLiteral_toString {n : Nat} (h : n < 2 ^ 64) :
    (Magnitude.ofLiteral (toString n).toList).isTooLarge = false := by
  have hle : n ≤ Magnitude.maxSignificand := Nat.le_of_lt_succ h
  have hfinite : (Double.ofProduct n 1).isFinite = true :=
    Double.isFinite_ofProduct h (show 1 < 2 ^ 1 by decide) (by omega)
  rw [ofLiteral_toString hle]
  simp [Magnitude.isTooLarge, Magnitude.maxExponent, hfinite]

theorem scanDigits_toString_append (n : Nat) {rest : List Char} (h : Closes rest) :
    scanDigits ((toString n).toList ++ rest) = .ok ((toString n).toList, rest) := by
  obtain ⟨c, cs, hcons, -⟩ := Text.exists_toString_eq_cons n
  rw [scanDigits, takeWhile_toString_append n h, dropWhile_toString_append n h, hcons]

theorem scanWhole_toString_append (n : Nat) {rest : List Char} (h : Closes rest) :
    scanWhole ((toString n).toList ++ rest) = .ok ((toString n).toList, rest) := by
  rw [scanWhole, scanDigits_toString_append n h]
  simp only [bind, Except.bind]
  split
  next c cs hzero => exact absurd hzero (Text.toString_ne_zero_cons n c cs)
  next => rfl

theorem scanNumber_toString_append (n : Nat) {rest : List Char} (h : Closes rest) :
    scanNumber ((toString n).toList ++ rest) = .ok ((toString n).toList, rest) := by
  have hfraction : scanFraction rest = .ok ([], rest) := by cases h <;> rfl
  have hexponent : scanExponent rest = .ok ([], rest) := by cases h <;> rfl
  have hsign : ∀ cs, (toString n).toList ++ rest ≠ '-' :: cs := by
    obtain ⟨c, cs, hcons, hdigit⟩ := Text.exists_toString_eq_cons n
    rw [hcons]
    rintro _ ⟨⟩
    exact absurd hdigit (by decide)
  simp only [scanNumber, scanWhole_toString_append n h, hfraction, hexponent, bind, Except.bind,
    pure, Except.pure, List.nil_append, List.append_nil]

theorem readNumber_toString_append {n : Nat} (hn : n < 2 ^ 64) {rest : List Char}
    (h : Closes rest) :
    readNumber ((toString n).toList ++ rest) = .ok (toString n, rest) := by
  rw [readNumber, scanNumber_toString_append n h]
  simp only [isTooLarge_ofLiteral_toString hn, String.ofList_toList]
  rfl

end Json

end BlockSketch
