import BlockSketch.Emission.Expression
import BlockSketch.Proofs.Cpp.Parentheses
import BlockSketch.Proofs.Number.Literal

/-!
Expressions and their parses. The level that an expression carries is the level of its outermost
operator, at which the grammar derives its text. An expression put into a place that asks for a
level is tighter than that place afterwards, with or without parentheses, so an operator can be put
between two of them.
-/

namespace BlockSketch

open Cpp Identifier

def Precedence.grade (p : Precedence) : Nat :=
  if p.level < 2 then 0
  else if p.level < 3 then 1
  else if p.level < 4 then 2
  else if p.level < 6 then 3
  else if p.level < 7 then 4
  else if p.level < 11 then 5
  else if p.level < 12 then 6
  else if p.level < 13 then 7
  else 8

def Precedence.operators : List Precedence :=
  [unary, multiplicative, additive, relational, equality, conjunction, disjunction, conditional]

namespace Precedence

theorem grade_le_eight (p : Precedence) : p.grade ≤ 8 := by
  grind [grade]

theorem grade_eq_zero {p : Precedence} (h : p.level < 2) : p.grade = 0 := if_pos h

/-- What is tighter than the place of an operator has a tighter level in the grammar. -/
theorem grade_lt {p required : Precedence} (hrequired : required ∈ operators)
    (h : p.level < required.level) : p.grade < required.grade := by
  simp only [operators, List.mem_cons, List.not_mem_nil, or_false] at hrequired
  -- a grade begins at the level of each operator
  rcases hrequired with rfl | rfl | rfl | rfl | rfl | rfl | rfl | rfl <;>
    grind [grade, unary, multiplicative, additive, relational, equality, conjunction, disjunction,
      conditional]

end Precedence

def Cpp.Expr.isNumeral : Cpp.Expr → Bool
  | .leaf text | .unary "-" (.leaf text) => text.toList.head?.any Text.isDigit
  | _ => false

theorem Cpp.Expr.isNumeral_minus {e : Cpp.Expr} (hlevel : e.level = 0)
    (h : e.isNumeral = true) : (Cpp.Expr.unary "-" e).isNumeral = true := by
  cases e with
  | leaf text => exact h
  | unary sign e => cases hlevel
  | _ => cases h

namespace Expression

/-- The text of an expression is derived by the grammar at the level that the expression carries. -/
structure Prints (e : Expression) (parse : Cpp.Expr) : Prop where
  derives : ∃ ts, Spells e.text ts ∧ Derives e.precedence.grade ts parse
  opens : e.precedence.level < 2 → Opens e.text
  tight : parse.level = e.precedence.grade
  inked : ∃ c ∈ e.text.toList, Text.isBlankChar c = false
  /-- Only numbers are read as numbers. -/
  numeral : (Block.plainNumber? e.text).isSome = true → parse.isNumeral = true

def Fits (e : Expression) (required : Precedence) : Prop :=
  e.precedence.level < required.level ∨ e.precedence.level = 0 ∨ required = .loosest

theorem Fits.level_lt {e : Expression} {required : Precedence} (h : e.Fits required)
    (hrequired : required ∈ Precedence.operators) : e.precedence.level < required.level := by
  rcases h with h | h | rfl
  · exact h
  · rw [h]
    exact (by decide : ∀ p ∈ Precedence.operators, 0 < p.level) required hrequired
  · exact absurd hrequired (by decide)

theorem Fits.grade_lt {e : Expression} {required : Precedence} (h : e.Fits required)
    (hrequired : required ∈ Precedence.operators) : e.precedence.grade < required.grade :=
  Precedence.grade_lt hrequired (h.level_lt hrequired)

theorem Prints.isEmpty_text {e : Expression} {parse : Cpp.Expr} (h : e.Prints parse) :
    e.text.isEmpty = false := by
  obtain ⟨ts, hspells, hderives⟩ := h.derives
  obtain ⟨t, rest, rfl, -⟩ := hderives.head
  cases hempty : e.text.isEmpty with
  | false => rfl
  | true =>
      have htokens := hspells.tokenize_eq
      rw [String.isEmpty_iff.mp hempty] at htokens
      cases htokens

/-- A tight expression stays as it is. -/
theorem wrapped_of_lt {e : Expression} {required : Precedence}
    (h : e.precedence.level < required.level) : e.wrapped required = e := by
  simp [wrapped, needsParentheses, h]

theorem wrapped_atomic (text : String) (required : Precedence) :
    (atomic text).wrapped required = atomic text := by
  by_cases h : 0 < required.level
  · exact wrapped_of_lt h
  · obtain rfl : required = .atomic := by
      cases required
      simpa [Precedence.atomic] using h
    simp [wrapped, needsParentheses, atomic]

/-- A text with some character in it is not read as a number. -/
theorem not_plainNumber? {text : String} {c : Char} (h : c ∈ text.toList)
    (hblank : Text.isBlankChar c = false) (hc : Block.isNumberChar c = false) {parse : Cpp.Expr}
    (hplain : (Block.plainNumber? text).isSome = true) : parse.isNumeral = true := by
  rw [Block.plainNumber?_eq_none_of_mem h hblank hc] at hplain
  cases hplain

/-- The parentheses that a place asks for do not change what is read. -/
theorem Prints.wrapped {e : Expression} {parse : Cpp.Expr} (h : e.Prints parse)
    (required : Precedence) :
    ∃ parse', (e.wrapped required).Prints parse' ∧ parse'.erase = parse.erase ∧
      (e.wrapped required).Fits required := by
  unfold Expression.wrapped
  split
  next =>
      obtain ⟨ts, hspells, hderives⟩ := h.derives
      have hopen : '(' ∈ (atomic ("(" ++ e.text ++ ")")).text.toList := by simp [atomic]
      refine ⟨.paren parse, ⟨⟨_, hspells.paren, ?_⟩, fun _ => ?_, rfl, ⟨'(', hopen, by decide⟩,
        not_plainNumber? hopen (by decide) (by decide)⟩, rfl, .inr (.inl rfl)⟩
      · exact .paren (hderives.mono e.precedence.grade_le_eight)
      · exact ⟨'(', (e.text ++ ")").toList, by simp [atomic], .inr rfl⟩
  next hneeds =>
      refine ⟨parse, h, rfl, ?_⟩
      simp only [needsParentheses, h.isEmpty_text, Bool.false_or, decide_eq_true_eq] at hneeds
      split at hneeds
      next hlt => exact .inl hlt
      next =>
          obtain ⟨heq, hrequired⟩ : e.precedence = required ∧
              (required = .atomic ∨ required = .loosest) := by
            simpa [Decidable.or_iff_not_imp_left] using hneeds
          -- a tie goes without parentheses only at the two ends of the scale
          rcases hrequired with rfl | rfl
          · exact .inr (.inl (by rw [heq]; rfl))
          · exact .inr (.inr rfl)

/-! ### Texts made of other texts -/

variable {a b c : Expression} {pa pb pc : Cpp.Expr}

theorem prints_leaf {text : String} (h : IsLeaf text) :
    (Expression.atomic text).Prints (.leaf text) := by
  obtain ⟨first, rest, htext, hfirst, -⟩ := id h
  refine ⟨⟨_, spells_leaf h, .word text⟩, fun _ => h.opens, rfl, ⟨first, ?_, ?_⟩, ?_⟩
  · rw [atomic, htext]
    exact List.mem_cons_self
  · exact Text.isBlankChar_of_isWordChar hfirst
  · intro hplain
    rw [Cpp.Expr.isNumeral, htext]
    exact Block.isDigit_of_plainNumber? htext hfirst hplain

theorem prints_call {name : String} (hname : isWord name = true) (ha : a.Prints pa) :
    Prints ⟨name ++ "(" ++ a.text ++ ")", .call⟩ (.call (.leaf name) pa) := by
  obtain ⟨ts, hspells, hderives⟩ := ha.derives
  have hargs : Derives 9 ts pa := hderives.mono (by have := a.precedence.grade_le_eight; omega)
  have hopen : '(' ∈ (name ++ "(" ++ a.text ++ ")").toList := by simp
  refine ⟨⟨_, hspells.call hname, .call (.word name) hargs⟩, fun _ => ?_, rfl,
    ⟨'(', hopen, by decide⟩, not_plainNumber? hopen (by decide) (by decide)⟩
  exact (((IsLeaf.of_isWord hname).opens.append _).append _).append _

theorem prints_call₂ {name : String} (hname : isWord name = true) (ha : a.Prints pa)
    (hb : b.Prints pb) :
    Prints ⟨name ++ "(" ++ (a.text ++ ", " ++ b.text) ++ ")", .call⟩
      (.call (.leaf name) (.binary "," pa pb)) := by
  obtain ⟨as, hspellsa, hderivesa⟩ := ha.derives
  obtain ⟨bs, hspellsb, hderivesb⟩ := hb.derives
  have hargs : Derives 9 (as ++ .sign "," :: bs) (.binary "," pa pb) := by
    refine .binary (by decide) (hderivesa.mono ?_) (hderivesb.mono b.precedence.grade_le_eight)
    have := a.precedence.grade_le_eight
    omega
  have hopen : '(' ∈ (name ++ "(" ++ (a.text ++ ", " ++ b.text) ++ ")").toList := by simp
  refine ⟨⟨_, (hspellsa.comma hspellsb).call hname, .call (.word name) hargs⟩, fun _ => ?_, rfl,
    ⟨'(', hopen, by decide⟩, not_plainNumber? hopen (by decide) (by decide)⟩
  exact (((IsLeaf.of_isWord hname).opens.append _).append _).append _

/-- A sign in front of an operand that starts with a word or a parenthesis. -/
theorem prints_unary {d : Char} (hd : d = '-' ∨ d = '!') (ha : a.Prints pa)
    (hlevel : a.precedence.level < 2) :
    Prints ⟨String.ofList [d] ++ a.text, .unary⟩ (.unary (String.ofList [d]) pa) := by
  obtain ⟨ts, hspells, hderives⟩ := ha.derives
  rw [Precedence.grade_eq_zero hlevel] at hderives
  have hsign : d ∈ (String.ofList [d] ++ a.text).toList := by simp
  refine ⟨⟨_, hspells.unary hd (ha.opens hlevel), .unary ?_ (.loosen hderives)⟩, fun h => ?_, rfl,
    ⟨d, hsign, ?_⟩, fun hplain => ?_⟩
  · rcases hd with rfl | rfl <;> decide
  · cases (by decide : ¬Precedence.unary.level < 2) h
  · rcases hd with rfl | rfl <;> decide
  · rcases hd with rfl | rfl
    · have hnumber := Block.isSome_plainNumber?_of_minus (ha.opens hlevel) hplain
      have hzero : pa.level = 0 := ha.tight.trans (Precedence.grade_eq_zero hlevel)
      exact Cpp.Expr.isNumeral_minus hzero (ha.numeral hnumber)
    · exact not_plainNumber? hsign (by decide) (by decide) hplain

theorem inked_of_spaced {sign : String} (h : sign ∈ spacedSigns) :
    ∃ c ∈ sign.toList, Text.isBlankChar c = false := by
  have hany : ∀ sign ∈ spacedSigns, sign.toList.any (fun c => !Text.isBlankChar c) = true := by
    decide
  simpa using List.any_eq_true.mp (hany sign h)

theorem prints_binary {sign : String} {required : Precedence} (hsign : sign ∈ spacedSigns)
    (hrequired : required ∈ Precedence.operators)
    (hlevel : binaryLevel? sign = some required.grade) (ha : a.Prints pa) (hfita : a.Fits required)
    (hb : b.Prints pb) (hfitb : b.Fits required) :
    Prints ⟨a.text ++ " " ++ sign ++ " " ++ b.text, required⟩ (.binary sign pa pb) := by
  obtain ⟨as, hspellsa, hderivesa⟩ := ha.derives
  obtain ⟨bs, hspellsb, hderivesb⟩ := hb.derives
  have hlta := hfita.grade_lt hrequired
  have hltb := hfitb.grade_lt hrequired
  obtain ⟨level, hgrade⟩ : ∃ level, required.grade = level + 1 :=
    Nat.exists_eq_succ_of_ne_zero (by omega)
  obtain ⟨x, hx, hblankx⟩ := ha.inked
  refine ⟨⟨_, hspellsa.binary hsign hspellsb, ?_⟩, fun h => ?_, ?_, ⟨x, by simp [hx], hblankx⟩,
    fun hplain => ?_⟩
  · change Derives required.grade _ _
    rw [hgrade] at hlevel ⊢
    exact .binary hlevel (hderivesa.mono (by omega)) (hderivesb.mono (by omega))
  · rw [Precedence.grade_eq_zero h] at hgrade
    cases hgrade
  · rw [Cpp.Expr.level, hlevel]
    rfl
  · -- the blank in front of the sign stands between other characters
    obtain ⟨y, hy, hblanky⟩ := inked_of_spaced hsign
    have hblank := Text.mem_trimChars_between hx hblankx
      (List.mem_append_left (' ' :: b.text.toList) hy) hblanky ' '
    have htext : (a.text ++ " " ++ sign ++ " " ++ b.text).toList =
        a.text.toList ++ ' ' :: (sign.toList ++ ' ' :: b.text.toList) := by simp
    rw [Block.plainNumber?_eq_none (htext ▸ hblank) (by decide)] at hplain
    cases hplain

theorem prints_cond (hc : c.Prints pc) (hfitc : c.Fits .conditional) (ha : a.Prints pa)
    (hb : b.Prints pb) :
    Prints ⟨c.text ++ " ? " ++ a.text ++ " : " ++ b.text, .conditional⟩ (.cond pc pa pb) := by
  obtain ⟨cs, hspellsc, hderivesc⟩ := hc.derives
  obtain ⟨as, hspellsa, hderivesa⟩ := ha.derives
  obtain ⟨bs, hspellsb, hderivesb⟩ := hb.derives
  have hltc : c.precedence.grade < 8 := hfitc.grade_lt (by decide)
  have hspells := (hspellsc.binary (by decide : "?" ∈ spacedSigns) hspellsa).binary
    (by decide : ":" ∈ spacedSigns) hspellsb
  have htext : c.text ++ " ? " ++ a.text ++ " : " ++ b.text =
      c.text ++ " " ++ "?" ++ " " ++ a.text ++ " " ++ ":" ++ " " ++ b.text := by
    rw [show " ? " = " " ++ "?" ++ " " from rfl, show " : " = " " ++ ":" ++ " " from rfl]
    simp only [String.append_assoc]
  have hquestion : '?' ∈ (c.text ++ " ? " ++ a.text ++ " : " ++ b.text).toList := by simp
  refine ⟨⟨_, htext ▸ hspells, ?_⟩, fun h => ?_, rfl, ⟨'?', hquestion, by decide⟩,
    not_plainNumber? hquestion (by decide) (by decide)⟩
  · exact .cond (hderivesc.mono (by omega)) (hderivesa.mono a.precedence.grade_le_eight)
      (hderivesb.mono b.precedence.grade_le_eight)
  · cases (by decide : ¬Precedence.conditional.level < 2) h

end Expression

end BlockSketch
