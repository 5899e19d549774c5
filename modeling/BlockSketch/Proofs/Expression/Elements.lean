import BlockSketch.Proofs.Cpp.Evaluation
import BlockSketch.Proofs.Expression.LoopHeads
import BlockSketch.Proofs.Expression.Operands
import BlockSketch.Proofs.Generation.Preamble
import BlockSketch.Proofs.Number.Whole

/-!
Elements of arrays. An index counts from one in a block, but only one that is written as a number is
made to count from zero in a sketch. Any other index stands in the sketch as it is, so that it reads
the element behind the one that it counts to.
-/

namespace BlockSketch

open Cpp Identifier

/-! ### Numbers as expressions -/

def Cpp.Expr.digits (negative : Bool) (m : Nat) : Cpp.Expr :=
  if negative then .unary "-" (.leaf (toString m)) else .leaf (toString m)

theorem Cpp.Expr.isNumeral_leaf_toString (m : Nat) : (leaf (toString m)).isNumeral = true := by
  obtain ⟨c, cs, hcons, hdigit⟩ := Text.exists_toString_eq_cons m
  rw [isNumeral, hcons]
  exact hdigit

theorem Cpp.Env.leaf_of_isNumeral {env : Env} {text : String} {k : Int}
    (h : (Expr.leaf text).isNumeral = true) (hvalue : env.leaf text = some k) :
    ∃ m : Nat, text = toString m ∧ k = m := by
  have hne (word : String) (hword : (Expr.leaf word).isNumeral = false) : text ≠ word := by
    rintro rfl
    rw [hword] at h
    cases h
  rw [Env.leaf, if_neg (hne _ (by decide)),
    if_neg (not_or.mpr ⟨hne _ (by decide), hne _ (by decide)⟩)] at hvalue
  split at hvalue
  next m _ =>
      split at hvalue
      next htext => exact ⟨m, htext.symm, (Option.some.inj hvalue).symm⟩
      next => cases hvalue
  next =>
      have hdigit : text.toList.head?.any Text.isDigit = true := h
      rw [if_pos hdigit] at hvalue
      cases hvalue

/-- A numeral that has a value is a whole number in digits. -/
theorem Cpp.Expr.exists_digits_of_isNumeral {env : Env} {e : Cpp.Expr} {k : Int}
    (h : e.isNumeral = true) (hvalue : e.value env = some k) :
    ∃ negative m, e = digits negative m ∧ k = if negative then -(m : Int) else m := by
  unfold isNumeral at h
  split at h
  next text =>
      rw [value_leaf] at hvalue
      obtain ⟨m, rfl, rfl⟩ := Env.leaf_of_isNumeral h hvalue
      exact ⟨false, m, rfl, rfl⟩
  next text =>
      rw [value_unary, value_leaf] at hvalue
      obtain ⟨x, hx, hneg⟩ := Option.bind_eq_some_iff.mp hvalue
      obtain ⟨m, rfl, rfl⟩ := Env.leaf_of_isNumeral h hx
      exact ⟨true, m, rfl, (Option.some.inj hneg).symm⟩
  next => cases h

theorem Cpp.Env.leaf_toString (env : Env) (m : Nat) : env.leaf (toString m) = some (m : Int) := by
  have hne (word : String) (hword : (Expr.leaf word).isNumeral = false) : toString m ≠ word := by
    rintro rfl
    rw [Expr.isNumeral_leaf_toString] at hword
    cases hword
  rw [Env.leaf, if_neg (hne _ (by decide)),
    if_neg (not_or.mpr ⟨hne _ (by decide), hne _ (by decide)⟩), Text.readDigits?_toString]
  exact if_pos rfl

def Cpp.Denotes (env : Env) (text : String) (k : Int) : Prop :=
  ∃ ts e, Spells text ts ∧ Derives 9 ts e ∧ e.value env = some k

theorem Expression.Prints.denotes {env : Env} {x : Expression} {i : Cpp.Expr} {k : Int}
    (h : x.Prints i) (hvalue : i.value env = some k) : Denotes env x.text k := by
  obtain ⟨ts, hspells, hderives⟩ := h.derives
  exact ⟨ts, i, hspells, hderives.mono (Nat.le_succ_of_le x.precedence.grade_le_eight), hvalue⟩

theorem Cpp.denotes_toString (env : Env) (k : Int) : Denotes env (toString k) k := by
  refine (Atom.prints_number k id).denotes ?_
  rw [Atom.expr]
  split
  next hneg =>
      rw [Expr.value_unary, Expr.value_leaf, env.leaf_toString]
      exact congrArg some (by omega)
  next hnonneg =>
      rw [Expr.value_leaf, env.leaf_toString]
      exact congrArg some (by omega)

/-! ### Numbers as they are emitted -/

section Numbers

variable {w : Workspace} {d : Draft} {names : String → String} {negative : Bool} {m : Nat}

theorem startsNegative_signed (negative : Bool) (m : Nat) :
    Block.Arithmetic.startsNegative (Text.signed negative m) = negative := by
  cases negative with
  | true => simp [Block.Arithmetic.startsNegative, Text.signed]
  | false => exact (IsLeaf.of_isWord (isWord_toString m)).opens.startsNegative_eq

def Expression.ofSigned (negative : Bool) (m : Nat) : Expression :=
  ⟨Text.signed negative m, if negative then .unary else .atomic⟩

theorem Cpp.Expr.leaf_eq_digits {text : String} (h : Expr.leaf text = digits negative m) :
    negative = false ∧ text = toString m := by
  cases negative with
  | true => cases h
  | false => exact ⟨rfl, Expr.leaf.inj h⟩

theorem Cpp.Expr.minus_eq_digits {text : String}
    (h : Expr.unary "-" (.leaf text) = digits negative m) :
    negative = true ∧ text = toString m := by
  cases negative with
  | true => exact ⟨rfl, Expr.leaf.inj (Expr.unary.inj h).2⟩
  | false => cases h

theorem Cpp.text_of_literal_eq_digits {text : String} (h : Cpp.literal text = .digits negative m) :
    text = Text.signed negative m := by
  unfold Cpp.literal at h
  split at h
  next digits heq =>
      obtain ⟨rfl, hdigits⟩ := Cpp.Expr.minus_eq_digits h
      refine String.ext ?_
      simp [heq, Text.signed, ← hdigits]
  next =>
      obtain ⟨rfl, htext⟩ := Cpp.Expr.leaf_eq_digits h
      exact htext

/-- Where no name looks like a number, a block without sockets that stands for a whole number has
the number as its code. -/
theorem Atom.recipe_of_digits {a : Atom} (hnames : ∀ name, IsLegal (names name))
    (h : a.expr names = .digits negative m) : a.recipe = pure (Expression.ofSigned negative m) := by
  have hword (word : String) (hword : (Cpp.Expr.leaf word).isNumeral = false) :
      Cpp.Expr.leaf word ≠ .digits negative m := by
    intro heq
    obtain ⟨rfl, rfl⟩ := Cpp.Expr.leaf_eq_digits heq
    rw [Cpp.Expr.isNumeral_leaf_toString] at hword
    cases hword
  cases a with
  | number k =>
      have htext : toString k = Text.signed negative m ∧ (k < 0 ↔ negative = true) := by
        rw [Atom.expr] at h
        split at h
        next hneg =>
            obtain ⟨rfl, hdigits⟩ := Cpp.Expr.minus_eq_digits h
            rw [toString_of_neg hneg, hdigits]
            exact ⟨rfl, iff_of_true hneg rfl⟩
        next hnonneg =>
            obtain ⟨rfl, hdigits⟩ := Cpp.Expr.leaf_eq_digits h
            rw [toString_of_nonneg (by omega), hdigits]
            exact ⟨rfl, iff_of_false hnonneg Bool.false_ne_true⟩
      simp only [Atom.recipe, Expression.ofSigned, htext]
  | decimal x =>
      have htext : x.text = Text.signed negative m := Cpp.text_of_literal_eq_digits h
      simp only [Atom.recipe, Expression.ofSigned, htext, startsNegative_signed]
  | name text => exact absurd h (hword _ (hnames text).not_isNumeral)
  | truth b => exact absurd h (hword _ (by cases b <;> decide))
  | null => exact absurd h (hword _ (by decide))

/-- A node of a tree has its code at a place that asks for a level. -/
theorem Shape.childValue_yields_wrapped {id : NodeId} {n : Node} {s : Shape} {bare : Expression}
    {depth : Nat} (hn : w.program.find? id = some n) (hshape : n.shape? = some s)
    (h : ((s.recipe n).perform w (Registry.standard.emitNode w depth)).Yields d
      (fun e _ => e = bare)) (hbare : bare.text.isEmpty = false) (required : Precedence)
    (fallback : String) :
    (w.childValue (Registry.standard.emitNode w (depth + 1)) (some id) required fallback).Yields d
      (fun e _ => e = bare.wrapped required) := by
  have hnode : w.node id = pure n := by rw [Workspace.node, hn]
  obtain ⟨b, recipe, hget, hform, hrecipe⟩ := Registry.standard_of_shape hshape w
  rw [Workspace.childValue, hnode, pure_bind, Registry.emitNode, hget]
  simp only [Form.perform, hform, hrecipe]
  have hcode : ((s.recipe n).perform w (Registry.standard.emitNode w depth) >>=
      fun e => pure (Code.value e)).Yields d (fun code _ => code = .value bare) :=
    h.bind fun e d' he => Emit.yields_pure (congrArg Code.value he)
  refine hcode.bind ?_
  rintro code d' rfl
  refine Emit.yields_pure ?_
  rw [hbare]
  rfl

theorem Expression.isEmpty_ofSigned (negative : Bool) (m : Nat) :
    (Expression.ofSigned negative m).text.isEmpty = false := by
  have hne : (Text.signed negative m).toList ≠ [] := by
    cases negative with
    | true => simp [Text.signed]
    | false => exact toList_toString_ne_nil m
  rw [String.isEmpty_eq_false_iff]
  intro heq
  exact hne (congrArg String.toList heq)

/-- A minus sign stands without parentheses only where every operator does. -/
theorem Expression.wrapped_ofSigned {required : Precedence}
    (h : negative = true → required = .loosest) :
    (Expression.ofSigned negative m).wrapped required = Expression.ofSigned negative m := by
  cases negative with
  | true =>
      rw [h rfl]
      exact Expression.wrapped_of_lt (by decide : Precedence.unary.level < Precedence.loosest.level)
  | false => exact Expression.wrapped_atomic _ _

/-- Digits have no sign of their own, so that no blank is put behind the new one. -/
theorem UnaryOp.code_opposite_signed (m : Nat) :
    UnaryOp.opposite.code (Text.signed false m) = Expression.ofSigned true m := by
  simp only [UnaryOp.code, startsNegative_signed]
  rfl

/-- A tree that stands for a whole number is emitted as the number. -/
theorem Program.Holds.yields_signed {child : Option NodeId} {fallback : String} {t : ExprTree}
    (h : w.program.Holds child fallback t) (hnames : ∀ name, IsLegal (names name))
    (ht : t.expr names = .digits negative m) {depth : Nat} (hdepth : t.height ≤ depth)
    {required : Precedence} (hrequired : negative = true → required = .loosest) :
    (w.childValue (Registry.standard.emitNode w depth) child required fallback).Yields d
      (fun e _ => e = Expression.ofSigned negative m) := by
  induction h generalizing depth required negative with
  | default fallback =>
      obtain ⟨rfl, rfl⟩ := Cpp.Expr.leaf_eq_digits ht
      exact Emit.yields_pure rfl
  | @atom id n a fallback hn hshape =>
      cases depth with
      | zero => cases hdepth
      | succ depth =>
          rw [← Expression.wrapped_ofSigned hrequired]
          refine Shape.childValue_yields_wrapped hn hshape ?_ (Expression.isEmpty_ofSigned _ m) _ _
          rw [Shape.recipe, Atom.recipe_of_digits hnames ht]
          exact Emit.yields_pure rfl
  | @unary id n o fallback a hn hshape _ iha =>
      cases depth with
      | zero => cases hdepth
      | succ depth =>
          have hheight : a.height ≤ depth := Nat.le_of_succ_le_succ hdepth
          obtain ⟨rfl, rfl, ha⟩ :
              o = .opposite ∧ negative = true ∧ a.expr names = .digits false m := by
            cases negative with
            | false => cases o <;> cases ht
            | true =>
                cases o with
                | opposite => exact ⟨rfl, rfl, (Cpp.Expr.unary.inj ht).2⟩
                | negation => exact absurd (Cpp.Expr.unary.inj ht).1 (by decide)
                | root => cases ht
                | absolute => cases ht
          rw [← Expression.wrapped_ofSigned hrequired]
          refine Shape.childValue_yields_wrapped hn hshape ?_ (Expression.isEmpty_ofSigned _ m) _ _
          refine (iha ha hheight (by simp)).bind ?_
          rintro x d' rfl
          exact Emit.yields_pure (UnaryOp.code_opposite_signed m)
  | @binary id n o fallback a b hn hshape _ _ _ _ =>
      cases negative <;> cases o <;> cases ht
  | choice hn hshape _ _ _ _ _ _ => cases negative <;> cases ht

end Numbers

/-! ### Elements -/

/-- In an environment, a text reads an element of an array: it is read as a subscript of the array,
with the place of the element as the value of the index. -/
def Cpp.ReadsElement (env : Env) (text array : String) (k : Int) : Prop :=
  ∃ a i, Parses text (.index a i) ∧ a.word? = some array ∧ i.value env = some k

theorem Cpp.ReadsElement.unique {env : Env} {text array array' : String} {k k' : Int}
    (h : ReadsElement env text array k) (h' : ReadsElement env text array' k') :
    array = array' ∧ k = k' := by
  obtain ⟨a, i, hparse, ha, hi⟩ := h
  obtain ⟨a', i', hparse', ha', hi'⟩ := h'
  obtain ⟨rfl, rfl⟩ := Expr.index.inj (hparse.unique hparse')
  exact ⟨Option.some.inj (ha.symm.trans ha'), Option.some.inj (hi.symm.trans hi')⟩

section Element

variable {w : Workspace} {d : Draft} {n : Node} {v : String}

/-- The code of an element, given the run for its index. -/
theorem exists_run_element (hkind : n.kind = "array_getIndex")
    (harray : w.program.Holds (n.child? "VAR") "\x7b\x7d" (.atom (.name v)))
    (hd : d.names.variableScope.Worded) {x : Expression} {d₁ : Draft}
    (hindex : (w.childValue (Registry.standard.emitNode w w.program.size) (n.child? "AT") .loosest
      "1").run.run d = (.ok x, d₁)) :
    ∃ e d', (Registry.standard.emit w n).run.run d = (.ok (.value e), d') ∧ d₁.LeadsTo d' ∧
      ∀ env k, Denotes env (Block.Arrays.shifted x.text) k →
        ReadsElement env e.text (d'.variableText v) k := by
  have hleads : d.LeadsTo d₁ :=
    (Workspace.leads_childValue (Registry.standard.leads_emitNode w _) _ _ _ d).ok x d₁ hindex
  have hchild : n.child? "VAR" ≠ none := by
    intro hnone
    rw [hnone] at harray
    cases harray
  have hyields : (w.childValue (Registry.standard.emitNode w w.program.size) (n.child? "AT")
      .loosest "1").Yields d (fun x' d' => x = x' ∧ d₁ = d') := ⟨x, d₁, hindex, rfl, rfl⟩
  refine Registry.standard_emit_value hkind rfl rfl (hyields.bind ?_)
  rintro _ _ ⟨rfl, rfl⟩
  refine Recipe.socket_yields harray (fun hnone => absurd hnone hchild) (hleads.worded hd)
    fun y d₂ hy => ?_
  obtain ⟨hleads', ⟨a, hprints, herase⟩, hprecedence⟩ := hy.bare (by decide)
  obtain ⟨as, hspells, hderives⟩ := hprints.derives
  rw [hprecedence] at hderives
  refine Emit.yields_pure ⟨hleads', fun env k hdenotes => ?_⟩
  obtain ⟨ts, i, hts, hi, hvalue⟩ := hdenotes
  refine ⟨a, i, ?_, ?_, hvalue⟩
  · change Derives 8 (tokenize (y.text ++ "[" ++ Block.Arrays.shifted x.text ++ "]")) _
    rw [(hspells.index hts).tokenize_eq]
    exact (Derives.index hderives hi).mono (by decide)
  · rw [← Expr.word?_erase, herase d₂ (.refl d₂)]
    rfl

/-- An index that is no number stands in the sketch as it is. -/
theorem shifted_of_plainNumber? {text : String} (h : Block.plainNumber? text = none) :
    Block.Arrays.shifted text = text := by
  rw [Block.Arrays.shifted, h]

/-- An index that is a number is made one less, any other index is not. -/
theorem exists_run_element_of_tree (hkind : n.kind = "array_getIndex")
    (harray : w.program.Holds (n.child? "VAR") "\x7b\x7d" (.atom (.name v)))
    {position : ExprTree} (hposition : w.program.Holds (n.child? "AT") "1" position)
    (hd : d.Reachable) :
    ∃ e d', (Registry.standard.emit w n).run.run d = (.ok (.value e), d') ∧
      ∀ env k, (position.expr d'.variableText).value env = some k →
        if (position.expr d'.variableText).isNumeral then
          (k - 1).natAbs < 1000000000000000 →
            ReadsElement env e.text (d'.variableText v) (k - 1)
        else ReadsElement env e.text (d'.variableText v) k := by
  obtain ⟨x, d₁, hindex, hgives⟩ := hposition.yields (fun _ => by decide)
    hposition.height_le_size .loosest hd.worded
  obtain ⟨hleads₁, ⟨i, hprints, herase⟩, -⟩ := hgives.bare (by decide)
  obtain ⟨e, d', hrun, hleads, hreads⟩ := exists_run_element hkind harray hd.worded hindex
  have hlegal : ∀ name, IsLegal (d'.variableText name) :=
    Draft.isLegal_variableText ((hleads₁.trans hleads).assigns _ Scope.isLegal_free
      (hd.assigns Scope.isLegal_free))
  refine ⟨e, d', hrun, fun env k hvalue => ?_⟩
  split
  next hnumeral =>
      intro hsmall
      obtain ⟨negative, m, hdigits, hk⟩ := Expr.exists_digits_of_isNumeral hnumeral hvalue
      obtain ⟨_, _, hindex', rfl⟩ := hposition.yields_signed (d := d) hlegal hdigits
        hposition.height_le_size (fun _ => rfl)
      cases hindex.symm.trans hindex'
      refine hreads env _ ?_
      rw [Expression.ofSigned, Block.shifted_signed hk hsmall]
      exact denotes_toString env (k - 1)
  next hnumeral =>
      have hplain : Block.plainNumber? x.text = none := by
        cases hx : Block.plainNumber? x.text with
        | none => rfl
        | some y =>
            have hi := Cpp.Expr.isNumeral_erase (hprints.numeral (by rw [hx]; rfl))
            rw [herase d' hleads] at hi
            exact absurd hi hnumeral
      rw [← herase d' hleads, Expr.value_erase] at hvalue
      refine hreads env k ?_
      rw [shifted_of_plainNumber? hplain]
      exact hprints.denotes hvalue

end Element

/-- For every array variable and every tree plugged in as its index, the block for an element has
code. In every environment in which the tree has a value, this code reads the element before the one
with that value as its place if the tree is written as a number, so that it counts from one. If it
is not, the code reads the element with that value as its place. So it does for any other code that
is plugged in, if this is an expression and no number. -/
theorem elements_counted_from_one_only_by_numbers {w : Workspace} {d : Draft} {n : Node}
    {v : String} (hd : d.Reachable) (hkind : n.kind = "array_getIndex")
    (harray : w.program.Holds (n.child? "VAR") "\x7b\x7d" (.atom (.name v))) :
    (∀ position, w.program.Holds (n.child? "AT") "1" position →
      ∃ e d', (Registry.standard.emit w n).run.run d = (.ok (.value e), d') ∧
        ∀ env k, (position.expr d'.variableText).value env = some k →
          if (position.expr d'.variableText).isNumeral then
            (k - 1).natAbs < 1000000000000000 →
              ReadsElement env e.text (d'.variableText v) (k - 1)
          else ReadsElement env e.text (d'.variableText v) k) ∧
    ∀ x d₁ i, (w.childValue (Registry.standard.emitNode w w.program.size) (n.child? "AT") .loosest
        "1").run.run d = (.ok x, d₁) →
      x.Prints i → Block.plainNumber? x.text = none →
      ∃ e d', (Registry.standard.emit w n).run.run d = (.ok (.value e), d') ∧
        ∀ env k, i.value env = some k → ReadsElement env e.text (d'.variableText v) k := by
  refine ⟨fun position hposition => exists_run_element_of_tree hkind harray hposition hd,
    fun x d₁ i hindex hprints hplain => ?_⟩
  obtain ⟨e, d', hrun, -, hreads⟩ := exists_run_element hkind harray hd.worded hindex
  refine ⟨e, d', hrun, fun env k hvalue => hreads env k ?_⟩
  rw [shifted_of_plainNumber? hplain]
  exact hprints.denotes hvalue

def elementNode : Node where
  id := ⟨2⟩
  kind := "array_getIndex"
  values := [{ name := "VAR", child := some ⟨3⟩ }, { name := "AT", child := some ⟨4⟩ }]

def elementSample (index : Node) : Program where
  variableNames := ["i"]
  nodes :=
    [{ id := ⟨1⟩, kind := "base_delay", values := [{ name := "DELAY_TIME", child := some ⟨2⟩ }] },
      elementNode, { id := ⟨3⟩, kind := "variables_get", fields := .ofList [("VAR", "xs")] }, index]
  topLevel := [⟨1⟩]

def thirdSample : Program :=
  elementSample { id := ⟨4⟩, kind := "math_number", fields := .ofList [("NUM", "3")] }

def variableSample : Program :=
  elementSample { id := ⟨4⟩, kind := "variables_get", fields := .ofList [("VAR", "i")] }

/-- The third element is the one at the second place behind the first. -/
theorem thirdSample_counted_from_one :
    let w : Workspace := ⟨thirdSample, .empty, .empty, .uno⟩
    ∃ e d', (Registry.standard.emit w elementNode).run.run { diagnostics := .empty } =
        (.ok (.value e), d') ∧
      ∀ env, ReadsElement env e.text (d'.variableText "xs") 2 := by
  intro w
  have hindex : thirdSample.Holds (elementNode.child? "AT") "1" (.atom (.number 3)) :=
    .atom rfl (by decide)
  obtain ⟨e, d', hrun, hreads⟩ := (elements_counted_from_one_only_by_numbers (w := w)
    (n := elementNode) (v := "xs") (.start .empty) rfl (.atom rfl (by decide))).1 _ hindex
  refine ⟨e, d', hrun, fun env => ?_⟩
  have hvalue : (Cpp.Expr.leaf "3").value env = some 3 := by
    rw [Expr.value_leaf]
    exact env.leaf_toString 3
  exact hreads env 3 hvalue (by decide)

/-- With the same number in a variable, the element at the third place is read. -/
theorem variableSample_not_counted_from_one :
    variableSample.Holds (elementNode.child? "AT") "1" (.atom (.name "i")) ∧
    (∃ c, Registry.standard.compile variableSample .uno false = .ok c ∧
      c.sketch.source = "int i;\n\nvoid setup() \x7b\n\x7d\n\n" ++
        "void loop() \x7b\n  delay(xs[i]);\n\x7d\n") ∧
    ∀ env : Env, env.word "i" = 3 → (Expr.leaf "i").value env = some 3 ∧
      ReadsElement env "xs[i]" "xs" 3 ∧ ¬ReadsElement env "xs[i]" "xs" 2 := by
  refine ⟨.atom rfl (by decide), ?_, fun env hi => ?_⟩
  · exact Registry.exists_compile_of_plainSource rfl rfl (by decide +kernel)
  · have hvalue : (Expr.leaf "i").value env = some 3 := by
      rw [← hi]
      rfl
    have hspells := (spells_leaf (.of_isWord (by decide : isWord "xs" = true))).index
      (spells_leaf (.of_isWord (by decide : isWord "i" = true)))
    have hreads : ReadsElement env "xs[i]" "xs" 3 := by
      refine ⟨.leaf "xs", .leaf "i", ?_, rfl, hvalue⟩
      rw [Parses, show "xs[i]" = "xs" ++ "[" ++ "i" ++ "]" from rfl, hspells.tokenize_eq]
      exact (Derives.index (.word "xs") ((Derives.word "i").mono (by decide))).mono (by decide)
    exact ⟨hvalue, hreads, fun h => absurd (h.unique hreads).2 (by decide)⟩

end BlockSketch
