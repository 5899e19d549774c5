import BlockSketch.DataType
import Mathlib.Computability.Language
import Mathlib.Data.Nat.Digits.Lemmas
import Mathlib.Tactic.Ring

/-!
The grammar of number literals. The type of a literal is told by two regular languages, that of the
whole numbers and that of the numbers with a decimal point, and by the value of a whole number, of
however many digits. A scanner that takes the longest number at the start of a text, and reads whole
numbers as 64 bit numbers, gives the same type.
-/

namespace BlockSketch

namespace Literal

open Computability Text

/-! ### Languages -/

def digit : Language Char := fun cs => ∃ c, '0' ≤ c ∧ c ≤ '9' ∧ cs = [c]

def digits : Language Char := digit * digit∗

def sign : Language Char := 1 + {['-']}

def fraction : Language Char := digit∗ * {['.']} * digits

def whole : Language Char := sign * digits

def pointed : Language Char := sign * fraction

def magnitude (cs : List Char) : Nat :=
  Nat.ofDigits 10 (cs.reverse.map fun c => c.toNat - '0'.toNat)

def value : List Char → Int
  | '-' :: cs => -(magnitude cs : Int)
  | cs => magnitude cs

theorem mem_digit {cs : List Char} : cs ∈ digit ↔ ∃ c, isDigit c = true ∧ cs = [c] := by
  simp only [isDigit, Bool.and_eq_true, decide_eq_true_eq, and_assoc]
  rfl

theorem mem_star_digit {cs : List Char} : cs ∈ digit∗ ↔ ∀ c ∈ cs, isDigit c = true := by
  rw [Language.mem_kstar]
  constructor
  · rintro ⟨parts, rfl, hparts⟩ c hc
    obtain ⟨part, hpart, hmem⟩ := List.mem_flatten.mp hc
    obtain ⟨d, hd, rfl⟩ := mem_digit.mp (hparts part hpart)
    rwa [List.mem_singleton.mp hmem]
  · intro hcs
    refine ⟨cs.map ([·]), by rw [← List.flatMap_def, List.flatMap_singleton'], ?_⟩
    intro part hpart
    obtain ⟨c, hc, rfl⟩ := List.mem_map.mp hpart
    exact mem_digit.mpr ⟨c, hcs c hc, rfl⟩

theorem mem_digits {cs : List Char} : cs ∈ digits ↔ cs ≠ [] ∧ ∀ c ∈ cs, isDigit c = true := by
  rw [digits, Language.mem_mul]
  constructor
  · rintro ⟨first, hfirst, rest, hrest, rfl⟩
    obtain ⟨c, hc, rfl⟩ := mem_digit.mp hfirst
    exact ⟨by simp, List.forall_mem_cons.mpr ⟨hc, mem_star_digit.mp hrest⟩⟩
  · rintro ⟨hne, hcs⟩
    obtain ⟨c, rest, rfl⟩ := List.exists_cons_of_ne_nil hne
    obtain ⟨hc, hrest⟩ := List.forall_mem_cons.mp hcs
    exact ⟨[c], mem_digit.mpr ⟨c, hc, rfl⟩, rest, mem_star_digit.mpr hrest, rfl⟩

theorem mem_fraction {cs : List Char} : cs ∈ fraction ↔
    ∃ before after, (∀ c ∈ before, isDigit c = true) ∧ after ∈ digits ∧
      cs = before ++ '.' :: after := by
  simp only [fraction, Language.mem_mul, mem_star_digit]
  constructor
  · rintro ⟨_, ⟨before, hbefore, _, rfl, rfl⟩, after, hafter, rfl⟩
    exact ⟨before, after, hbefore, hafter, by simp⟩
  · rintro ⟨before, after, hbefore, hafter, rfl⟩
    exact ⟨before ++ ['.'], ⟨before, hbefore, ['.'], rfl, rfl⟩, after, hafter, by simp⟩

/-- A literal of either language may have a minus sign in front. -/
theorem mem_sign_mul {l : Language Char} {cs : List Char} :
    cs ∈ sign * l ↔ cs ∈ l ∨ ∃ rest ∈ l, cs = '-' :: rest := by
  rw [sign, add_mul, one_mul, Language.mem_add, Language.mem_mul]
  refine or_congr_right ⟨?_, ?_⟩
  · rintro ⟨_, rfl, rest, hrest, rfl⟩
    exact ⟨rest, hrest, rfl⟩
  · rintro ⟨rest, hrest, rfl⟩
    exact ⟨['-'], rfl, rest, hrest, rfl⟩

/-! ### Values -/

theorem digitsValue_eq_magnitude (cs : List Char) : digitsValue cs = magnitude cs := by
  have hfold (cs : List Char) (n : Nat) :
      cs.foldl (fun n c => n * 10 + (c.toNat - '0'.toNat)) n =
        magnitude cs + n * 10 ^ cs.length := by
    induction cs generalizing n with
    | nil => simp [magnitude]
    | cons c cs ih =>
        rw [List.foldl_cons, ih, magnitude, magnitude, List.reverse_cons, List.map_append,
          Nat.ofDigits_append, List.length_map, List.length_reverse, List.length_cons]
        simp only [List.map_cons, List.map_nil, Nat.ofDigits_singleton]
        ring
  rw [digitsValue, hfold, Nat.zero_mul, Nat.add_zero]

theorem readDigits?_of_mem {cs : List Char} (h : cs ∈ digits) :
    readDigits? cs = some (magnitude cs) := by
  obtain ⟨hne, hcs⟩ := mem_digits.mp h
  rw [readDigits?, if_pos ⟨hne, List.all_eq_true.mpr hcs⟩, digitsValue_eq_magnitude]

theorem readDigits?_of_notMem {cs : List Char} (h : cs ∉ digits) : readDigits? cs = none := by
  rw [readDigits?, if_neg]
  rintro ⟨hne, hcs⟩
  exact h (mem_digits.mpr ⟨hne, List.all_eq_true.mp hcs⟩)

/-- Digits do not start with a sign. -/
theorem value_of_mem_digits {cs : List Char} (h : cs ∈ digits) : value cs = magnitude cs := by
  obtain ⟨-, hcs⟩ := mem_digits.mp h
  unfold value
  split
  next => exact absurd (hcs '-' List.mem_cons_self) (by decide)
  next => rfl

/-! ### Types -/

theorem ofUnsigned_of_mem_digits {cs : List Char} (h : cs ∈ digits) (negative : Bool) :
    DataType.ofUnsigned negative cs =
      if magnitude cs ≤ (if negative then 32768 else 32767) then .number else .largeNumber := by
  rw [DataType.ofUnsigned, readDigits?_of_mem h]

theorem ofUnsigned_of_mem_fraction {cs : List Char} (h : cs ∈ fraction) (negative : Bool) :
    DataType.ofUnsigned negative cs = .decimal := by
  obtain ⟨before, after, hbefore, hafter, rfl⟩ := mem_fraction.mp h
  have hpoint : before ++ '.' :: after ∉ digits := fun hmem =>
    absurd ((mem_digits.mp hmem).2 '.' (by simp)) (by decide)
  have hdrop : (before ++ '.' :: after).dropWhile isDigit = '.' :: after := by
    rw [List.dropWhile_append_of_pos hbefore, List.dropWhile_cons_of_neg (by decide)]
  rw [DataType.ofUnsigned, readDigits?_of_notMem hpoint, hdrop]
  simp [readDigits?_of_mem hafter]

theorem ofUnsigned_of_notMem {cs : List Char} (hwhole : cs ∉ digits) (hpoint : cs ∉ fraction)
    (negative : Bool) : DataType.ofUnsigned negative cs = .null := by
  rw [DataType.ofUnsigned, readDigits?_of_notMem hwhole]
  dsimp only
  split
  next after hdrop =>
      have hafter : after ∉ digits := by
        refine fun hafter => hpoint (mem_fraction.mpr ⟨cs.takeWhile isDigit, after, ?_, hafter, ?_⟩)
        · exact fun c hc => List.all_eq_true.mp List.all_takeWhile c hc
        · rw [← hdrop, List.takeWhile_append_dropWhile]
      rw [readDigits?_of_notMem hafter]
      rfl
  next => rfl

/-- A literal without a sign starts with a digit or a point. -/
theorem head?_ne_of_mem {cs : List Char} (h : cs ∈ digits ∨ cs ∈ fraction) {c : Char}
    (hdigit : isDigit c = false) (hpoint : c ≠ '.') : cs.head? ≠ some c := by
  intro hhead
  obtain ⟨rest, rfl⟩ := List.head?_eq_some_iff.mp hhead
  rcases h with h | h
  · rw [(mem_digits.mp h).2 c List.mem_cons_self] at hdigit
    cases hdigit
  · obtain ⟨before, after, hbefore, -, heq⟩ := mem_fraction.mp h
    cases before with
    | nil => exact hpoint (List.cons.inj heq).1
    | cons d before =>
        rw [(List.cons.inj heq).1, hbefore d List.mem_cons_self] at hdigit
        cases hdigit

theorem ofLiteral_of_minus {s : String} {cs : List Char} (h : s.toList = '-' :: cs) :
    DataType.ofLiteral s = DataType.ofUnsigned true cs := by
  rw [DataType.ofLiteral, h]
  rfl

theorem ofLiteral_of_head?_ne {s : String} (h : s.toList.head? ≠ some '-') :
    DataType.ofLiteral s = DataType.ofUnsigned false s.toList := by
  unfold DataType.ofLiteral
  split
  next cs hcs => exact absurd (by rw [hcs]; rfl) h
  next => rfl

def IsShort (n : Int) : Prop := -32768 ≤ n ∧ n ≤ 32767

instance (n : Int) : Decidable (IsShort n) := inferInstanceAs (Decidable (_ ∧ _))

theorem ofLiteral_of_mem_whole {s : String} (h : s.toList ∈ whole) :
    DataType.ofLiteral s = if IsShort (value s.toList) then .number else .largeNumber := by
  rcases mem_sign_mul.mp h with h | ⟨rest, h, hminus⟩
  · rw [ofLiteral_of_head?_ne (head?_ne_of_mem (.inl h) (by decide) (by decide)),
      ofUnsigned_of_mem_digits h, value_of_mem_digits h]
    refine if_congr ?_ rfl rfl
    simp only [IsShort, Bool.false_eq_true, if_false]
    omega
  · rw [ofLiteral_of_minus hminus, ofUnsigned_of_mem_digits h, hminus, value]
    refine if_congr ?_ rfl rfl
    simp only [IsShort, if_true]
    omega

theorem ofLiteral_of_mem_pointed {s : String} (h : s.toList ∈ pointed) :
    DataType.ofLiteral s = .decimal := by
  rcases mem_sign_mul.mp h with h | ⟨rest, h, hminus⟩
  · rw [ofLiteral_of_head?_ne (head?_ne_of_mem (.inr h) (by decide) (by decide)),
      ofUnsigned_of_mem_fraction h]
  · rw [ofLiteral_of_minus hminus, ofUnsigned_of_mem_fraction h]

theorem ofLiteral_of_notMem {s : String} (hwhole : s.toList ∉ whole)
    (hpointed : s.toList ∉ pointed) : DataType.ofLiteral s = .null := by
  rw [whole, mem_sign_mul, not_or] at hwhole
  rw [pointed, mem_sign_mul, not_or] at hpointed
  by_cases hhead : s.toList.head? = some '-'
  · obtain ⟨rest, hminus⟩ := List.head?_eq_some_iff.mp hhead
    rw [ofLiteral_of_minus hminus]
    exact ofUnsigned_of_notMem (fun h => hwhole.2 ⟨rest, h, hminus⟩)
      (fun h => hpointed.2 ⟨rest, h, hminus⟩) true
  · rw [ofLiteral_of_head?_ne hhead]
    exact ofUnsigned_of_notMem hwhole.1 hpointed.1 false

/-- No literal is in both languages. -/
theorem notMem_pointed_of_mem_whole {s : String} (h : s.toList ∈ whole) :
    s.toList ∉ pointed := by
  intro hpointed
  have htype := ofLiteral_of_mem_pointed hpointed
  rw [ofLiteral_of_mem_whole h] at htype
  split at htype <;> cases htype

/-! ### Scanning -/

structure Leads (text word : List Char) : Prop where
  isPrefix : word <+: text
  isNumber : word ∈ whole + pointed
  longest : ∀ other, other <+: text → other ∈ whole + pointed → other.length ≤ word.length

/-- A text that is a number is the longest number at its start. -/
theorem leads_self_iff {text : List Char} : Leads text text ↔ text ∈ whole + pointed :=
  ⟨fun h => h.isNumber, fun h => ⟨List.prefix_rfl, h, fun _ hother _ => hother.length_le⟩⟩

/-- The type of a text by the longest number at its start, which has to be all of the text. A whole
number is read as a number of 64 bits; one that does not fit is large. -/
inductive ScannedAs (s : String) : DataType → Prop where
  | nothing : (∀ word, ¬Leads s.toList word) → ScannedAs s .null
  | rest (word : List Char) : Leads s.toList word → word ≠ s.toList → ScannedAs s .null
  | short (n : Int) : Leads s.toList s.toList → s.toList ∈ whole → readLong? s = some n →
      IsShort n → ScannedAs s .number
  | long (n : Int) : Leads s.toList s.toList → s.toList ∈ whole → readLong? s = some n →
      ¬IsShort n → ScannedAs s .largeNumber
  | huge : Leads s.toList s.toList → s.toList ∈ whole → readLong? s = none →
      ScannedAs s .largeNumber
  | point : Leads s.toList s.toList → s.toList ∈ pointed → ScannedAs s .decimal

theorem readInt?_of_mem_whole {cs : List Char} (hwhole : cs ∈ whole) :
    readInt? cs = some (value cs) := by
  rcases mem_sign_mul.mp hwhole with h | ⟨rest, h, rfl⟩
  · have hminus := head?_ne_of_mem (.inl h) (by decide : isDigit '-' = false) (by decide)
    have hplus := head?_ne_of_mem (.inl h) (by decide : isDigit '+' = false) (by decide)
    have hread : readNat? cs = readDigits? cs := by
      unfold readNat?
      split
      next => exact absurd rfl hplus
      next => rfl
    unfold readInt?
    split
    next => exact absurd rfl hminus
    next => simp [hread, readDigits?_of_mem h, value_of_mem_digits h]
  · simp [readInt?, readDigits?_of_mem h, value]

/-- If a whole number is read as a number of 64 bits, it is its value. -/
theorem eq_value_of_readLong? {s : String} {n : Int} (h : s.toList ∈ whole)
    (hread : readLong? s = some n) : n = value s.toList := by
  rw [readLong?, readInt?_of_mem_whole h, Option.filter_eq_some_iff] at hread
  exact (Option.some.inj hread.1).symm

/-- A whole number that is not read as a number of 64 bits is not short. -/
theorem not_isShort_of_readLong? {s : String} (h : s.toList ∈ whole) (hread : readLong? s = none) :
    ¬IsShort (value s.toList) := by
  rintro ⟨hlow, hhigh⟩
  rw [readLong?, readInt?_of_mem_whole h, Option.filter_eq_none_iff] at hread
  have hfit := hread _ rfl
  simp only [decide_eq_true_eq] at hfit
  omega

theorem ScannedAs.ofLiteral_eq {s : String} {t : DataType} (h : ScannedAs s t) :
    DataType.ofLiteral s = t := by
  have hnull (hnumber : s.toList ∉ whole + pointed) : DataType.ofLiteral s = .null := by
    rw [Language.mem_add, not_or] at hnumber
    exact ofLiteral_of_notMem hnumber.1 hnumber.2
  cases h with
  | nothing hnone => exact hnull fun hnumber => hnone s.toList (leads_self_iff.mpr hnumber)
  | rest word hword hne =>
      refine hnull fun hnumber => hne (hword.isPrefix.eq_of_length_le ?_)
      exact hword.longest s.toList List.prefix_rfl hnumber
  | short n _ hwhole hread hshort =>
      rw [ofLiteral_of_mem_whole hwhole, ← eq_value_of_readLong? hwhole hread, if_pos hshort]
  | long n _ hwhole hread hlong =>
      rw [ofLiteral_of_mem_whole hwhole, ← eq_value_of_readLong? hwhole hread, if_neg hlong]
  | huge _ hwhole hread =>
      rw [ofLiteral_of_mem_whole hwhole, if_neg (not_isShort_of_readLong? hwhole hread)]
  | point _ hpointed => exact ofLiteral_of_mem_pointed hpointed

/-- Every text is scanned as something. -/
theorem exists_scannedAs (s : String) : ∃ t, ScannedAs s t := by
  by_cases hwhole : s.toList ∈ whole
  · have hleads : Leads s.toList s.toList := leads_self_iff.mpr (.inl hwhole)
    cases hread : readLong? s with
    | none => exact ⟨_, .huge hleads hwhole hread⟩
    | some n =>
        by_cases hshort : IsShort n
        · exact ⟨_, .short n hleads hwhole hread hshort⟩
        · exact ⟨_, .long n hleads hwhole hread hshort⟩
  by_cases hpointed : s.toList ∈ pointed
  · exact ⟨_, .point (leads_self_iff.mpr (.inr hpointed)) hpointed⟩
  by_cases hword : ∃ word, Leads s.toList word
  · obtain ⟨word, hword⟩ := hword
    refine ⟨_, .rest word hword ?_⟩
    rintro rfl
    exact hword.isNumber.elim hwhole hpointed
  · exact ⟨_, .nothing (not_exists.mp hword)⟩

theorem scannedAs_iff {s : String} {t : DataType} :
    ScannedAs s t ↔ DataType.ofLiteral s = t := by
  refine ⟨ScannedAs.ofLiteral_eq, ?_⟩
  rintro rfl
  obtain ⟨t, ht⟩ := exists_scannedAs s
  rwa [ht.ofLiteral_eq]

end Literal

open Literal in
/-- The type of a number literal is told by the grammar of the whole text: a whole number has the
type of its value, whatever the number of its digits, a number with a decimal point is a decimal,
and any other text has no type. Scanning the longest number gives the same type. -/
theorem literal_typed_by_grammar (s : String) :
    (DataType.ofLiteral s = .number ↔ s.toList ∈ whole ∧ IsShort (value s.toList)) ∧
    (DataType.ofLiteral s = .largeNumber ↔ s.toList ∈ whole ∧ ¬IsShort (value s.toList)) ∧
    (DataType.ofLiteral s = .decimal ↔ s.toList ∈ pointed) ∧
    (DataType.ofLiteral s = .null ↔ s.toList ∉ whole ∧ s.toList ∉ pointed) ∧
    ∀ t, ScannedAs s t ↔ DataType.ofLiteral s = t := by
  simp only [← and_assoc, scannedAs_iff, implies_true, and_true]
  by_cases hwhole : s.toList ∈ whole
  · have hpointed := notMem_pointed_of_mem_whole hwhole
    by_cases hshort : IsShort (value s.toList)
    · simp [ofLiteral_of_mem_whole hwhole, hwhole, hpointed, hshort]
    · simp [ofLiteral_of_mem_whole hwhole, hwhole, hpointed, hshort]
  by_cases hpointed : s.toList ∈ pointed
  · simp [ofLiteral_of_mem_pointed hpointed, hwhole, hpointed]
  · simp [ofLiteral_of_notMem hwhole hpointed, hwhole, hpointed]

end BlockSketch
