import BlockSketch.Block.Arithmetic
import BlockSketch.Proofs.Cpp.Token
import Mathlib.Data.List.TakeWhile

/-!
Texts of numbers. Numbers are written as one token, with or without a minus sign in front.

Read as numbers are texts that have only digits, signs, points and letters of an exponent between
the blanks at their ends, and that start with a digit or a point once their sign is taken away. So
no text with a parenthesis in it, with a blank between other characters, or that starts like a name
is read as a number.
-/

namespace BlockSketch

/-! ### Numbers as they are written -/

def Cpp.IsLiteral (text : String) : Prop :=
  ∃ digits, IsLeaf digits ∧ (text = digits ∨ text = "-" ++ digits)

theorem Text.isWordChar_of_isDigit {c : Char} (h : Text.isDigit c = true) :
    Identifier.isWordChar c = true := by
  rw [Text.isDigit] at h
  simp [Identifier.isWordChar, h]

theorem Cpp.isLeaf_of_digits {whole tail : List Char} (hne : whole ≠ [])
    (hwhole : ∀ c ∈ whole, Text.isDigit c = true)
    (htail : ∀ c ∈ tail, Text.isDigit c = true ∨ c = '.') :
    IsLeaf (String.ofList (whole ++ tail)) := by
  obtain ⟨first, rest, rfl⟩ := List.exists_cons_of_ne_nil hne
  obtain ⟨hfirst, hrest⟩ := List.forall_mem_cons.mp hwhole
  refine ⟨first, rest ++ tail, String.toList_ofList, Text.isWordChar_of_isDigit hfirst, ?_⟩
  intro c hc
  rcases List.mem_append.mp hc with hc | hc
  · exact .inl (Text.isWordChar_of_isDigit (hrest c hc))
  · rcases htail c hc with hdigit | rfl
    · exact .inl (Text.isWordChar_of_isDigit hdigit)
    · exact .inr ⟨hfirst, rfl⟩

theorem toString_of_nonneg {k : Int} (h : 0 ≤ k) : toString k = toString k.natAbs := by
  cases k with
  | ofNat m => rfl
  | negSucc m => exact absurd h (by omega)

theorem toString_of_neg {k : Int} (h : k < 0) : toString k = "-" ++ toString k.natAbs := by
  cases k with
  | ofNat m => exact absurd h (by simp)
  | negSucc m => rfl

theorem Cpp.isLiteral_toString (k : Int) : IsLiteral (toString k) := by
  refine ⟨toString k.natAbs, .of_isWord (Identifier.isWord_toString _), ?_⟩
  by_cases h : k < 0
  · exact .inr (toString_of_neg h)
  · exact .inl (toString_of_nonneg (by omega))

namespace Double

open Cpp Text

theorem isDigit_of_mem_toDigits {n : Nat} {c : Char} (h : c ∈ Nat.toDigits 10 n) :
    isDigit c = true := by
  rw [← toList_toString] at h
  exact isDigit_of_mem_toString h

/-- In positional notation a number has digits, one at least, and then more digits and a point. -/
theorem Shortest.exists_digits (d : Shortest) : ∃ whole tail,
    d.positional = String.ofList (whole ++ tail) ∧ whole ≠ [] ∧
      (∀ c ∈ whole, isDigit c = true) ∧ ∀ c ∈ tail, isDigit c = true ∨ c = '.' := by
  have hdigits (c : Char) (hc : c ∈ Nat.toDigits 10 d.digits) : isDigit c = true :=
    isDigit_of_mem_toDigits hc
  have hzeros (k : Nat) (c : Char) (hc : c ∈ List.replicate k '0') : isDigit c = true := by
    rw [List.eq_of_mem_replicate hc]
    decide
  rw [positional]
  split
  next =>
      exact ⟨_, _, rfl, Nat.toDigits_ne_nil, hdigits, fun c hc => .inl (hzeros _ c hc)⟩
  next =>
      -- there is one digit at least before the point
      let places := d.exponent.natAbs
      let padded := List.replicate (places + 1 - (Nat.toDigits 10 d.digits).length) '0' ++
        Nat.toDigits 10 d.digits
      have hpadded : ∀ c ∈ padded, isDigit c = true := by
        intro c hc
        rcases List.mem_append.mp hc with hc | hc
        · exact hzeros _ c hc
        · exact hdigits c hc
      have hlength : places < padded.length := by
        rw [List.length_append, List.length_replicate]
        omega
      have hwhole : padded.take (padded.length - places) ≠ [] := by
        intro hnil
        have := congrArg List.length hnil
        rw [List.length_take, List.length_nil] at this
        omega
      have htake (c : Char) (hc : c ∈ padded.take (padded.length - places)) : isDigit c = true :=
        hpadded c (List.mem_of_mem_take hc)
      let fraction := dropZeros (padded.drop (padded.length - places))
      have hfraction (c : Char) (hc : c ∈ fraction) : isDigit c = true := by
        rw [show fraction = dropZeros _ from rfl, dropZeros, List.mem_reverse] at hc
        exact hpadded c (List.mem_of_mem_drop (List.mem_reverse.mp
          ((List.dropWhile_sublist _).mem hc)))
      change ∃ whole tail, (if fraction.isEmpty then
          String.ofList (padded.take (padded.length - places))
        else String.ofList (padded.take (padded.length - places) ++ '.' :: fraction)) =
          String.ofList (whole ++ tail) ∧ _
      split
      · exact ⟨_, [], by rw [List.append_nil], hwhole, htake, by simp⟩
      · refine ⟨_, _, rfl, hwhole, htake, fun c hc => ?_⟩
        rcases List.mem_cons.mp hc with rfl | hc
        · exact .inr rfl
        · exact .inl (hfraction c hc)

theorem Shortest.isLeaf_positional (d : Shortest) : IsLeaf d.positional := by
  obtain ⟨whole, tail, htext, hne, hwhole, htail⟩ := d.exists_digits
  exact htext ▸ isLeaf_of_digits hne hwhole htail

theorem isLiteral_signed (u : Int) : IsLiteral (text.signed u) := by
  refine ⟨(shortest u.natAbs).positional, Shortest.isLeaf_positional _, ?_⟩
  rw [text.signed]
  split
  · exact .inr rfl
  · exact .inl String.empty_append

theorem isLiteral_text (d : Double) : IsLiteral d.text := by
  cases d with
  | infinite negative =>
      have hword : IsLeaf "inf" := .of_isWord (by decide)
      cases negative with
      | false => exact ⟨"inf", hword, .inl rfl⟩
      | true => exact ⟨"inf", hword, .inr rfl⟩
  | finite u =>
      rw [text]
      split
      · split
        · exact isLiteral_toString _
        · exact isLiteral_signed u
      · exact isLiteral_signed u

end Double

/-! ### Texts that are read as numbers -/

namespace Text

theorem mem_dropWhile {α : Type} {p : α → Bool} {xs : List α} {x : α} (h : x ∈ xs)
    (hx : p x = false) : x ∈ xs.dropWhile p := by
  rw [← List.takeWhile_append_dropWhile (p := p) (l := xs)] at h
  rcases List.mem_append.mp h with hmem | hmem
  · rw [List.all_eq_true.mp List.all_takeWhile x hmem] at hx
    cases hx
  · exact hmem

theorem mem_trimChars {cs : List Char} {c : Char} (h : c ∈ cs) (hc : isBlankChar c = false) :
    c ∈ trimChars cs := by
  rw [trimChars, dropEndWhile, List.mem_reverse]
  exact mem_dropWhile (List.mem_reverse.mpr (mem_dropWhile h hc)) hc

theorem dropWhile_append_of_mem {α : Type} {p : α → Bool} {xs : List α} {x : α} (h : x ∈ xs)
    (hx : p x = false) (ys : List α) : (xs ++ ys).dropWhile p = xs.dropWhile p ++ ys := by
  have hne : xs.dropWhile p ≠ [] := List.ne_nil_of_mem (mem_dropWhile h hx)
  rw [List.dropWhile_append, if_neg (by simpa using hne)]

/-- Nothing is taken away between characters that stay. -/
theorem mem_trimChars_between {left right : List Char} {x y : Char} (hx : x ∈ left)
    (hblankx : isBlankChar x = false) (hy : y ∈ right) (hblanky : isBlankChar y = false)
    (c : Char) : c ∈ trimChars (left ++ c :: right) := by
  have hy' : y ∈ right.reverse := List.mem_reverse.mpr hy
  rw [trimChars, dropEndWhile, dropWhile_append_of_mem hx hblankx, List.reverse_append,
    List.reverse_cons, List.append_assoc, dropWhile_append_of_mem hy' hblanky]
  simp

theorem trimChars_cons {c : Char} (hc : isBlankChar c = false) (cs : List Char) :
    trimChars (c :: cs) = c :: dropEndWhile isBlankChar cs := by
  have hkeep : (c :: cs).dropWhile isBlankChar = c :: cs :=
    List.dropWhile_cons_of_neg (by simp [hc])
  rw [trimChars, hkeep, dropEndWhile, dropEndWhile, List.reverse_cons, List.dropWhile_append]
  split
  next hempty => simp [List.isEmpty_iff.mp hempty, hc]
  next => simp

theorem trimChars_eq_self {cs : List Char} (h : ∀ c ∈ cs, isBlankChar c = false) :
    trimChars cs = cs := by
  have hkeep {l : List Char} (hl : ∀ c ∈ l, isBlankChar c = false) :
      l.dropWhile isBlankChar = l := by
    rw [List.dropWhile_eq_self_iff]
    intro hlength
    rw [hl _ (List.getElem_mem hlength)]
    exact Bool.false_ne_true
  rw [trimChars, hkeep h, dropEndWhile, hkeep fun c hc => h c (List.mem_reverse.mp hc),
    List.reverse_reverse]

theorem isBlankChar_of_isWordChar {c : Char} (h : Identifier.isWordChar c = true) :
    isBlankChar c = false := by
  have hbounds : 48 ≤ c.toNat ∧ c.toNat ≤ 122 := by
    simp only [Identifier.isWordChar, Bool.or_eq_true, Bool.and_eq_true, decide_eq_true_eq,
      beq_iff_eq] at h
    rcases h with ((⟨hl, hr⟩ | ⟨hl, hr⟩) | ⟨hl, hr⟩) | rfl
    · have hl' : 97 ≤ c.toNat := hl
      have hr' : c.toNat ≤ 122 := hr
      omega
    · have hl' : 65 ≤ c.toNat := hl
      have hr' : c.toNat ≤ 90 := hr
      omega
    · have hl' : 48 ≤ c.toNat := hl
      have hr' : c.toNat ≤ 57 := hr
      omega
    · decide
  have hranges : ∀ r ∈ blankRanges, r.2 < 48 ∨ 122 < r.1 := by decide
  refine List.any_eq_false.mpr fun r hr => ?_
  have houtside := hranges r hr
  simp only [Bool.and_eq_true, decide_eq_true_eq]
  omega

end Text

/-- A literal without a sign starts with a digit or a point. -/
theorem Decimal.readUnsigned?_cons {negative : Bool} {c : Char} (hdigit : Text.isDigit c = false)
    (hpoint : c ≠ '.') (cs : List Char) : Decimal.readUnsigned? negative (c :: cs) = none := by
  have hsplit : Decimal.split (c :: cs) = ([], [], c :: cs) := by
    simp only [Decimal.split, List.takeWhile_cons, List.dropWhile_cons, hdigit, Bool.false_eq_true,
      if_false]
    split
    next heq =>
        cases heq
        exact absurd rfl hpoint
    next => rfl
  simp [Decimal.readUnsigned?, hsplit]

/-- The sign counts only for the sign of the number. -/
theorem Decimal.isSome_readUnsigned? (negative negative' : Bool) (cs : List Char) :
    (Decimal.readUnsigned? negative cs).isSome = (Decimal.readUnsigned? negative' cs).isSome := by
  simp only [Decimal.readUnsigned?]
  split <;> simp

theorem Decimal.read?_cons {c : Char} (hminus : c ≠ '-') (hplus : c ≠ '+') (cs : List Char) :
    Decimal.read? (String.ofList (c :: cs)) = Decimal.readUnsigned? false (c :: cs) := by
  rw [Decimal.read?, String.toList_ofList]
  split
  next heq =>
      cases heq
      exact absurd rfl hminus
  next heq =>
      cases heq
      exact absurd rfl hplus
  next => rfl

namespace Block

open Text

def isNumberChar (c : Char) : Bool := isDigit c || "-+.eE".toList.contains c

theorem plainNumber?_eq_none {text : String} {c : Char} (h : c ∈ trimChars text.toList)
    (hc : isNumberChar c = false) : plainNumber? text = none := by
  have hall : (trimChars text.toList).all
      (fun c => isDigit c || "-+.eE".toList.contains c) = false :=
    List.all_eq_false.mpr ⟨c, h, by simpa [isNumberChar] using hc⟩
  simp only [plainNumber?, hall, Bool.not_false, Bool.or_true, if_true]

/-- A plain number has no other characters in it. -/
theorem plainNumber?_eq_none_of_mem {text : String} {c : Char} (h : c ∈ text.toList)
    (hblank : isBlankChar c = false) (hc : isNumberChar c = false) : plainNumber? text = none :=
  plainNumber?_eq_none (mem_trimChars h hblank) hc

theorem isSome_plainNumber? {text : String} {c : Char} {cs : List Char}
    (htext : text.toList = c :: cs) (hblank : isBlankChar c = false) :
    (plainNumber? text).isSome = ((c :: dropEndWhile isBlankChar cs).all isNumberChar &&
      (Decimal.read? (String.ofList (c :: dropEndWhile isBlankChar cs))).isSome) := by
  have hplain : plainNumber? text = if !((c :: dropEndWhile isBlankChar cs).all isNumberChar)
      then none else Double.read? (String.ofList (c :: dropEndWhile isBlankChar cs)) := by
    rw [plainNumber?, htext, trimChars_cons hblank]
    rfl
  rw [hplain]
  cases (c :: dropEndWhile isBlankChar cs).all isNumberChar <;> simp [Double.read?]

/-- A name is no plain number. -/
theorem isDigit_of_plainNumber? {text : String} {c : Char} {cs : List Char}
    (htext : text.toList = c :: cs) (hc : Identifier.isWordChar c = true)
    (h : (plainNumber? text).isSome = true) : isDigit c = true := by
  have hne : c ≠ '-' ∧ c ≠ '+' ∧ c ≠ '.' := by
    refine ⟨?_, ?_, ?_⟩ <;> rintro rfl <;> exact absurd hc (by decide)
  cases hdigit : isDigit c with
  | true => rfl
  | false =>
      rw [isSome_plainNumber? htext (isBlankChar_of_isWordChar hc),
        Decimal.read?_cons hne.1 hne.2.1, Decimal.readUnsigned?_cons hdigit hne.2.2] at h
      simp at h

/-- Behind the minus sign of a plain number there is a plain number. -/
theorem isSome_plainNumber?_of_minus {text : String} (hopens : Cpp.Opens text)
    (h : (plainNumber? ("-" ++ text)).isSome = true) : (plainNumber? text).isSome = true := by
  obtain ⟨c, cs, htext, hc⟩ := hopens
  have hblank : isBlankChar c = false := by
    rcases hc with hc | rfl
    · exact isBlankChar_of_isWordChar hc
    · decide
  have hne : c ≠ '-' ∧ c ≠ '+' := by
    constructor <;> rintro rfl <;> rcases hc with hc | hc <;> exact absurd hc (by decide)
  have hend : dropEndWhile isBlankChar (c :: cs) = c :: dropEndWhile isBlankChar cs := by
    have hkeep : (c :: cs).dropWhile isBlankChar = c :: cs :=
      List.dropWhile_cons_of_neg (by simp [hblank])
    rw [← trimChars_cons hblank, trimChars, hkeep]
  have hminus : ("-" ++ text).toList = '-' :: (c :: cs) := by simp [htext]
  rw [isSome_plainNumber? hminus (by decide), hend, List.all_cons, Bool.and_eq_true,
    Bool.and_eq_true] at h
  rw [isSome_plainNumber? htext hblank, Decimal.read?_cons hne.1 hne.2, h.1.2, Bool.true_and,
    Decimal.isSome_readUnsigned? false true]
  simpa [Decimal.read?] using h.2

end Block

end BlockSketch
