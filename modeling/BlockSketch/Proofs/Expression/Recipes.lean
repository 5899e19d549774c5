import BlockSketch.Generation
import BlockSketch.Proofs.Block.Registry
import BlockSketch.Proofs.Expression.Printing
import BlockSketch.Proofs.Expression.Tree

/-!
The recipes of expression trees. Every operator of a tree asks for its operands at one level and
puts their texts together; the standard library has a recipe of this form for each node of a tree.
If the operands are read as their trees, so is the text that is made of them.
-/

namespace BlockSketch

open Cpp Identifier Recipe

/-! ### Recipes -/

def UnaryOp.required : UnaryOp → Precedence
  | opposite | negation => .unary
  | root => .loosest
  | absolute => .call

def UnaryOp.code (x : String) : UnaryOp → Expression
  | opposite => ⟨(if Block.Arithmetic.startsNegative x then "- " else "-") ++ x, .unary⟩
  | negation => ⟨"!" ++ x, .unary⟩
  | root => ⟨s!"sqrt({x})", .call⟩
  | absolute => ⟨s!"abs({x})", .call⟩

def UnaryOp.recipe (o : UnaryOp) (n : Node) : Recipe Expression := do
  let x ← socket n o.operand.1 o.required o.operand.2
  return o.code x

def BinaryOp.code (o : BinaryOp) (a b : String) : Expression :=
  match o.sign? with
  | some sign => ⟨s!"{a} {sign} {b}", o.required⟩
  | none => ⟨s!"pow({a}, {b})", .call⟩

def BinaryOp.recipe (o : BinaryOp) (n : Node) : Recipe Expression := do
  let a ← socket n o.operands.1 o.required o.fallback
  let b ← socket n o.operands.2 o.required o.fallback
  return o.code a b

def Atom.recipe : Atom → Recipe Expression
  | number k => return ⟨toString k, if k < 0 then .unary else .atomic⟩
  | decimal x => return ⟨x.text, if Block.Arithmetic.startsNegative x.text then .unary else .atomic⟩
  | name text => do
      return .atomic (← variableName text)
  | truth b => return .atomic (if b then "true" else "false")
  | null => return .atomic "NULL"

def Shape.recipe (s : Shape) (n : Node) : Recipe Expression :=
  match s with
  | atom a => a.recipe
  | unary o => o.recipe n
  | binary o => o.recipe n
  | choice => Block.Logic.choose n

/-! ### The standard recipes -/

theorem Cpp.Opens.startsNegative_eq {text : String} (h : Opens text) :
    Block.Arithmetic.startsNegative text = false := by
  obtain ⟨c, rest, htext, hc⟩ := h
  have hne : c ≠ '-' := by
    rintro rfl
    rcases hc with hc | hc <;> exact absurd hc (by decide)
  simp [Block.Arithmetic.startsNegative, htext, hne]

theorem startsNegative_toString (k : Int) :
    Block.Arithmetic.startsNegative (toString k) = decide (k < 0) := by
  by_cases h : k < 0
  · rw [toString_of_neg h, decide_eq_true h]
    simp [Block.Arithmetic.startsNegative]
  · rw [toString_of_nonneg (by omega),
      (IsLeaf.of_isWord (isWord_toString _)).opens.startsNegative_eq]
    exact (decide_eq_false h).symm

theorem number_eq (n : Node) : (pure (Block.Arithmetic.number n) : Recipe Expression) =
    (Atom.ofNumber (n.fieldD "NUM" "0")).recipe := by
  rw [Block.Arithmetic.number]
  generalize n.fieldD "NUM" "0" = text
  have hzero : Atom.recipe (.number 0) = pure ⟨"0", .atomic⟩ := rfl
  cases hlong : Text.readLong? (Text.trim text) with
  | some k =>
      have hspell : Block.Arithmetic.spellNumber text = toString k := by
        rw [Block.Arithmetic.spellNumber, hlong]
      have hatom : Atom.ofNumber text = .number k := by rw [Atom.ofNumber, hlong]
      simp only [hspell, hatom, startsNegative_toString, decide_eq_true_eq, Atom.recipe]
  | none =>
      cases hdouble : Double.read? (Text.trim text) with
      | none =>
          have hspell : Block.Arithmetic.spellNumber text = "0" := by
            rw [Block.Arithmetic.spellNumber, hlong, hdouble]
          have hatom : Atom.ofNumber text = .number 0 := by rw [Atom.ofNumber, hlong, hdouble]
          rw [hspell, hatom, hzero]
          rfl
      | some x =>
          have hspell : Block.Arithmetic.spellNumber text = if x.isFinite then x.text else "0" := by
            rw [Block.Arithmetic.spellNumber, hlong, hdouble]
          have hatom : Atom.ofNumber text = if x.isFinite then .decimal x else .number 0 := by
            rw [Atom.ofNumber, hlong, hdouble]
          rw [hspell, hatom]
          split
          · rfl
          · rw [hzero]
            rfl

theorem arithmetic_eq (n : Node) :
    Block.Arithmetic.arithmetic n = (BinaryOp.arithmetic (n.fieldD "OP" "ADD")).recipe n := by
  unfold Block.Arithmetic.arithmetic
  generalize n.fieldD "OP" "ADD" = name
  fun_cases Block.Arithmetic.operator? name
  case case5 =>
      simp only [BinaryOp.arithmetic]
      rfl
  all_goals rfl

theorem comparison_eq (name : String) (n : Node) :
    (Block.Logic.comparison name).recipe n "0" = (BinaryOp.comparison name).recipe n := by
  fun_cases Block.Logic.comparison name
  case case6 =>
      simp only [BinaryOp.comparison]
      rfl
  all_goals rfl

theorem connective_eq (name : String) (n : Node) :
    (Block.Logic.connective name).recipe n "false" = (BinaryOp.connective name).recipe n := by
  fun_cases Block.Logic.connective name
  case case2 =>
      simp only [BinaryOp.connective]
      rfl
  all_goals rfl

theorem single_eq {n : Node} {o : UnaryOp}
    (h : UnaryOp.function? (n.fieldD "OP" "ROOT") = some o) :
    Block.Arithmetic.single n = o.recipe n := by
  unfold UnaryOp.function? at h
  split at h
  next hname =>
      cases h
      exact if_pos hname
  next hname =>
      cases h
      simp only [Block.Arithmetic.single, hname]
      exact if_neg (by decide)
  next hname =>
      cases h
      simp only [Block.Arithmetic.single, hname]
      exact if_neg (by decide)
  next => cases h

theorem truth_eq (n : Node) : (pure (Block.Logic.truth n) : Recipe Expression) =
    (Atom.truth (n.fieldD "BOOL" "FALSE" = "TRUE")).recipe := by
  simp only [Block.Logic.truth, Atom.recipe, decide_eq_true_eq]

theorem modulo_eq (n : Node) : Block.Arithmetic.modulo n = BinaryOp.modulo.recipe n := by
  -- here the sign is part of a longer literal
  have htext (a b : String) : s!"{a} % {b}" = a ++ " " ++ "%" ++ " " ++ b := by
    change a ++ (" " ++ "%" ++ " ") ++ b = _
    simp only [String.append_assoc]
  unfold Block.Arithmetic.modulo
  simp only [htext]
  rfl

/-- The standard library has the recipe of a tree for each of its nodes. -/
theorem Registry.standard_of_shape {n : Node} {s : Shape} (h : n.shape? = some s) (w : Workspace) :
    ∃ b recipe, Registry.standard.get? n.kind = some b ∧ b.form = .value recipe ∧
      recipe w n = s.recipe n := by
  unfold Node.shape? at h
  split at h
  next hkind =>
      cases h
      exact ⟨_, _, Registry.standard_get? hkind rfl, rfl, number_eq n⟩
  next hkind =>
      cases h
      exact ⟨_, _, Registry.standard_get? hkind rfl, rfl, rfl⟩
  next hkind =>
      cases h
      exact ⟨_, _, Registry.standard_get? hkind rfl, rfl, truth_eq n⟩
  next hkind =>
      cases h
      exact ⟨_, _, Registry.standard_get? hkind rfl, rfl, rfl⟩
  next hkind =>
      cases h
      exact ⟨_, _, Registry.standard_get? hkind rfl, rfl, arithmetic_eq n⟩
  next hkind =>
      cases h
      exact ⟨_, _, Registry.standard_get? hkind rfl, rfl, modulo_eq n⟩
  next hkind =>
      obtain ⟨o, ho, rfl⟩ := Option.map_eq_some_iff.mp h
      exact ⟨_, _, Registry.standard_get? hkind rfl, rfl, single_eq ho⟩
  next hkind =>
      cases h
      exact ⟨_, _, Registry.standard_get? hkind rfl, rfl, comparison_eq _ n⟩
  next hkind =>
      cases h
      exact ⟨_, _, Registry.standard_get? hkind rfl, rfl, connective_eq _ n⟩
  next hkind =>
      cases h
      exact ⟨_, _, Registry.standard_get? hkind rfl, rfl, rfl⟩
  next hkind =>
      cases h
      exact ⟨_, _, Registry.standard_get? hkind rfl, rfl, rfl⟩
  next => cases h

/-! ### Texts of operators -/

theorem UnaryOp.precedence_code (o : UnaryOp) (x : String) (t : ExprTree) :
    (o.code x).precedence = (ExprTree.unary o t).precedence := by
  cases o <;> rfl

theorem BinaryOp.precedence_code (o : BinaryOp) (x y : String) (t u : ExprTree) :
    (o.code x y).precedence = (ExprTree.binary o t u).precedence := by
  cases o <;> rfl

theorem UnaryOp.prints_code (o : UnaryOp) {a : Expression} {pa : Cpp.Expr} (ha : a.Prints pa)
    (hfit : a.Fits o.required) : (o.code a.text).Prints (o.expr pa) := by
  cases o with
  | opposite =>
      -- a tight operand starts with a word or a parenthesis, so no blank goes in between
      have hlevel : a.precedence.level < 2 := hfit.level_lt (by decide)
      have hprints := Expression.prints_unary (.inl rfl) ha hlevel
      simp only [code, (ha.opens hlevel).startsNegative_eq]
      exact hprints
  | negation => exact Expression.prints_unary (.inr rfl) ha (hfit.level_lt (by decide))
  | root => exact Expression.prints_call (by decide : isWord "sqrt" = true) ha
  | absolute => exact Expression.prints_call (by decide : isWord "abs" = true) ha

theorem BinaryOp.sign?_spec {o : BinaryOp} {sign : String} (h : o.sign? = some sign) :
    sign ∈ spacedSigns ∧ o.required ∈ Precedence.operators ∧
      binaryLevel? sign = some o.required.grade := by
  cases o <;> cases h <;> decide

theorem BinaryOp.prints_code (o : BinaryOp) {a b : Expression} {pa pb : Cpp.Expr}
    (ha : a.Prints pa) (hfita : a.Fits o.required) (hb : b.Prints pb) (hfitb : b.Fits o.required) :
    (o.code a.text b.text).Prints (o.expr pa pb) := by
  cases hsign : o.sign? with
  | some sign =>
      obtain ⟨hspaced, hrequired, hlevel⟩ := BinaryOp.sign?_spec hsign
      simp only [BinaryOp.code, BinaryOp.expr, hsign]
      exact Expression.prints_binary hspaced hrequired hlevel ha hfita hb hfitb
  | none =>
      have hprints := Expression.prints_call₂ (by decide : isWord "pow" = true) ha hb
      have htext : "pow" ++ "(" ++ (a.text ++ ", " ++ b.text) ++ ")" =
          s!"pow({a.text}, {b.text})" := by
        change "pow(" ++ (a.text ++ ", " ++ b.text) ++ ")" =
          "pow(" ++ a.text ++ ", " ++ b.text ++ ")"
        simp only [String.append_assoc]
      rw [htext] at hprints
      simp only [BinaryOp.code, BinaryOp.expr, hsign]
      exact hprints

theorem Atom.prints_number (k : Int) (names : String → String) :
    Expression.Prints ⟨toString k, if k < 0 then .unary else .atomic⟩
      ((Atom.number k).expr names) := by
  have hword := Expression.prints_leaf (.of_isWord (isWord_toString k.natAbs))
  by_cases h : k < 0
  · rw [toString_of_neg h, Atom.expr, if_pos h, if_pos h]
    exact Expression.prints_unary (.inl rfl) hword (Nat.succ_pos 1)
  · rw [toString_of_nonneg (by omega), Atom.expr, if_neg h, if_neg h]
    exact hword

theorem Atom.prints_decimal (x : Double) (names : String → String) :
    Expression.Prints ⟨x.text, if Block.Arithmetic.startsNegative x.text then .unary else .atomic⟩
      ((Atom.decimal x).expr names) := by
  obtain ⟨digits, hdigits, htext | htext⟩ := x.isLiteral_text
  · -- a token does not start with a minus sign
    obtain ⟨first, rest, hfirst, hword, -⟩ := id hdigits
    have hliteral : Cpp.literal digits = .leaf digits := by
      rw [Cpp.literal, hfirst]
      split
      next heq =>
          cases heq
          exact absurd hword (by decide)
      next => rfl
    rw [Atom.expr, htext, hliteral, hdigits.opens.startsNegative_eq]
    exact Expression.prints_leaf hdigits
  · have hnegative : Block.Arithmetic.startsNegative ("-" ++ digits) = true := by
      simp [Block.Arithmetic.startsNegative]
    have hliteral : Cpp.literal ("-" ++ digits) = .unary "-" (.leaf digits) := by
      simp [Cpp.literal]
    rw [Atom.expr, htext, hliteral, hnegative]
    exact Expression.prints_unary (.inl rfl) (Expression.prints_leaf hdigits) (Nat.succ_pos 1)

end BlockSketch
