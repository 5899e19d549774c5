import BlockSketch.Proofs.Emission.Observed
import BlockSketch.Proofs.Expression.Recipes

/-!
The code of an expression tree is read back as the tree. The induction is on the tree that a program
holds at a place: emission gives an expression whose text has a parse that is, without its
parentheses, what the tree stands for. Variables stand for the identifiers that they have when
emission is done; those that have one already keep it.
-/

namespace BlockSketch

open Cpp Identifier

/-! ### Steps that succeed -/

def Emit.Yields {α : Type} (x : Emit α) (d : Draft) (post : α → Draft → Prop) : Prop :=
  ∃ a d', x.run.run d = (.ok a, d') ∧ post a d'

theorem Emit.yields_pure {α : Type} {a : α} {d : Draft} {post : α → Draft → Prop} (h : post a d) :
    (pure a : Emit α).Yields d post := ⟨a, d, rfl, h⟩

theorem Emit.Yields.bind {α β : Type} {x : Emit α} {f : α → Emit β} {d : Draft}
    {post : α → Draft → Prop} {post' : β → Draft → Prop} (hx : x.Yields d post)
    (hf : ∀ a d', post a d' → (f a).Yields d' post') : (x >>= f).Yields d post' := by
  obtain ⟨a, d', hrun, ha⟩ := hx
  obtain ⟨b, d'', hrun', hb⟩ := hf a d' ha
  refine ⟨b, d'', ?_, hb⟩
  rw [Emit.run_bind, hrun]
  exact hrun'

/-! ### Identifiers along the way -/

/-- From one draft to a later one the variables keep their identifiers, and the identifiers keep
each property that new ones have. -/
structure Draft.LeadsTo (d d' : Draft) : Prop where
  keeps : d.names.variableScope.Keeps d'.names.variableScope
  assigns : ∀ P : String → Prop, (∀ (s : Scope) (name : String), P (s.free name)) →
    d.names.variableScope.Assigns P → d'.names.variableScope.Assigns P

namespace Draft

theorem LeadsTo.refl (d : Draft) : d.LeadsTo d := ⟨fun _ _ => id, fun _ _ => id⟩

theorem LeadsTo.trans {d d' d'' : Draft} (h : d.LeadsTo d') (h' : d'.LeadsTo d'') :
    d.LeadsTo d'' :=
  ⟨fun key identifier hkey => h'.keeps key identifier (h.keeps key identifier hkey),
    fun P hfree hd => h'.assigns P hfree (h.assigns P hfree hd)⟩

theorem LeadsTo.worded {d d' : Draft} (h : d.LeadsTo d') (hd : d.names.variableScope.Worded) :
    d'.names.variableScope.Worded :=
  h.assigns _ Scope.isWord_free hd

theorem leadsTo_identifier (d : Draft) (name : String) :
    d.LeadsTo (d.identifier name .variable).2 :=
  ⟨Scope.keeps_nameOf _ name, fun _ hfree hd => hd.nameOf hfree name⟩

/-- A variable that was asked for has the identifier that was given, from then on. -/
theorem LeadsTo.variableText_eq {d d' : Draft} {name : String}
    (h : (d.identifier name .variable).2.LeadsTo d') :
    d'.variableText name = (d.identifier name .variable).1 := by
  have hlookup := h.keeps _ _ (Scope.lookup_nameOf d.names.variableScope name)
  change (d'.names.variableScope.nameOf name).1 = (d.names.variableScope.nameOf name).1
  rw [Scope.nameOf_of_lookup hlookup]

end Draft

/-! ### Expressions that are read as trees -/

theorem UnaryOp.erase_expr (o : UnaryOp) (a : Cpp.Expr) : (o.expr a).erase = o.expr a.erase := by
  cases o <;> rfl

theorem BinaryOp.erase_expr (o : BinaryOp) (a b : Cpp.Expr) :
    (o.expr a b).erase = o.expr a.erase b.erase := by
  cases o <;> rfl

def Expression.Shows (e : Expression) (d : Draft) (t : ExprTree) : Prop :=
  ∃ parse, e.Prints parse ∧ ∀ d', d.LeadsTo d' → parse.erase = t.expr d'.variableText

namespace Expression.Shows

variable {d d' : Draft} {e x a b c : Expression} {t ta tb tc : ExprTree}

theorem mono (h : e.Shows d t) (hd : d.LeadsTo d') : e.Shows d' t := by
  obtain ⟨parse, hprints, herase⟩ := h
  exact ⟨parse, hprints, fun d'' hd' => herase d'' (hd.trans hd')⟩

theorem wrapped (h : e.Shows d t) (required : Precedence) :
    (e.wrapped required).Shows d t ∧ (e.wrapped required).Fits required := by
  obtain ⟨parse, hprints, herase⟩ := h
  obtain ⟨parse', hprints', herase', hfits⟩ := hprints.wrapped required
  exact ⟨⟨parse', hprints', fun d' hd => herase'.trans (herase d' hd)⟩, hfits⟩

theorem unary (o : UnaryOp) (ha : a.Shows d ta) (hfit : a.Fits o.required) :
    (o.code a.text).Shows d (.unary o ta) := by
  obtain ⟨parse, hprints, herase⟩ := ha
  refine ⟨_, o.prints_code hprints hfit, fun d' hd => ?_⟩
  rw [o.erase_expr, herase d' hd]
  rfl

theorem binary (o : BinaryOp) (ha : a.Shows d ta) (hfita : a.Fits o.required) (hb : b.Shows d tb)
    (hfitb : b.Fits o.required) : (o.code a.text b.text).Shows d (.binary o ta tb) := by
  obtain ⟨pa, hprintsa, herasea⟩ := ha
  obtain ⟨pb, hprintsb, heraseb⟩ := hb
  refine ⟨_, o.prints_code hprintsa hfita hprintsb hfitb, fun d' hd => ?_⟩
  rw [o.erase_expr, herasea d' hd, heraseb d' hd]
  rfl

theorem choice (hc : c.Shows d tc) (hfitc : c.Fits .conditional) (ha : a.Shows d ta)
    (hb : b.Shows d tb) :
    Expression.Shows ⟨s!"{c.text} ? {a.text} : {b.text}", .conditional⟩ d (.choice tc ta tb) := by
  obtain ⟨pc, hprintsc, herasec⟩ := hc
  obtain ⟨pa, hprintsa, herasea⟩ := ha
  obtain ⟨pb, hprintsb, heraseb⟩ := hb
  refine ⟨_, Expression.prints_cond hprintsc hfitc hprintsa hprintsb, fun d' hd => ?_⟩
  rw [Cpp.Expr.erase, herasec d' hd, herasea d' hd, heraseb d' hd]
  rfl

end Expression.Shows

theorem Expression.shows_word {text : String} {t : ExprTree} {d : Draft}
    (h : isWord text = true) (ht : ∀ d', d.LeadsTo d' → t.expr d'.variableText = .leaf text) :
    (Expression.atomic text).Shows d t :=
  ⟨_, Expression.prints_leaf (.of_isWord h), fun d' hd => (ht d' hd).symm⟩

/-! ### Emission of trees -/

variable {w : Workspace} {d : Draft}

/-- What emission of a tree gives: a later draft, in which an expression is read as the tree, and
which has the level of its outermost operator. -/
def Gives (d : Draft) (t : ExprTree) (e : Expression) (d' : Draft) : Prop :=
  d.LeadsTo d' ∧ e.Shows d' t ∧ e.precedence = t.precedence

def GivesAt (d : Draft) (t : ExprTree) (required : Precedence) (e : Expression) (d' : Draft) :
    Prop :=
  ∃ bare, Gives d t bare d' ∧ e = bare.wrapped required

theorem GivesAt.fits {t : ExprTree} {required : Precedence} {e : Expression} {d' : Draft}
    (h : GivesAt d t required e d') : d.LeadsTo d' ∧ e.Shows d' t ∧ e.Fits required := by
  obtain ⟨bare, ⟨hleads, hshows, -⟩, rfl⟩ := h
  exact ⟨hleads, hshows.wrapped required⟩

theorem Atom.recipe_yields (a : Atom) (emit : Node → Emit Code)
    (hd : d.names.variableScope.Worded) :
    (a.recipe.perform w emit).Yields d (Gives d (.atom a)) := by
  cases a with
  | number k =>
      refine Emit.yields_pure ⟨.refl d, ⟨_, Atom.prints_number k d.variableText, fun d' _ => ?_⟩,
        rfl⟩
      rw [ExprTree.expr, Atom.expr, Atom.expr]
      split <;> rfl
  | decimal x =>
      refine Emit.yields_pure ⟨.refl d, ⟨_, Atom.prints_decimal x d.variableText, fun d' _ => ?_⟩,
        ?_⟩
      · rw [ExprTree.expr, Atom.expr, Atom.expr, Cpp.literal]
        split <;> rfl
      · simp only [ExprTree.precedence, Block.Arithmetic.startsNegative, decide_eq_true_eq]
  | name text =>
      refine ⟨_, (d.identifier text .variable).2, rfl, d.leadsTo_identifier text, ?_, rfl⟩
      refine Expression.shows_word ?_ fun d' hd' => congrArg _ hd'.variableText_eq
      exact (d.leadsTo_identifier text).worded hd _ _ (Scope.lookup_nameOf _ text)
  | truth b =>
      refine Emit.yields_pure ⟨.refl d, Expression.shows_word ?_ fun _ _ => rfl, rfl⟩
      cases b <;> decide
  | null =>
      exact Emit.yields_pure ⟨.refl d, Expression.shows_word (by decide) fun _ _ => rfl, rfl⟩

/-- At a place that asks for a level, a tree gets the parentheses that it needs there. -/
theorem Workspace.childValue_yields {emit : Node → Emit Code} {id : NodeId} {n : Node}
    {t : ExprTree} (hn : w.program.find? id = some n)
    (h : (emit n).Yields d (fun code d' => ∃ e, code = .value e ∧ Gives d t e d'))
    (required : Precedence) (fallback : String) :
    (w.childValue emit (some id) required fallback).Yields d (GivesAt d t required) := by
  have hnode : w.node id = pure n := by rw [Workspace.node, hn]
  rw [Workspace.childValue, hnode, pure_bind]
  refine h.bind ?_
  rintro code d' ⟨e, rfl, hgives⟩
  obtain ⟨parse, hprints, _⟩ := hgives.2.1
  refine Emit.yields_pure ⟨e, hgives, ?_⟩
  rw [hprints.isEmpty_text]
  rfl

/-- The tree at a node is emitted with the recipe of its shape. -/
theorem Shape.childValue_yields {id : NodeId} {n : Node} {s : Shape} {t : ExprTree} {depth : Nat}
    (hn : w.program.find? id = some n) (hshape : n.shape? = some s)
    (h : ((s.recipe n).perform w (Registry.standard.emitNode w depth)).Yields d (Gives d t))
    (required : Precedence) (fallback : String) :
    (w.childValue (Registry.standard.emitNode w (depth + 1)) (some id) required fallback).Yields d
      (GivesAt d t required) := by
  refine Workspace.childValue_yields hn ?_ required fallback
  obtain ⟨b, recipe, hget, hform, hrecipe⟩ := Registry.standard_of_shape hshape w
  rw [Registry.emitNode, hget]
  simp only [Form.perform, hform, hrecipe]
  exact h.bind fun e d' he => Emit.yields_pure ⟨e, rfl, he⟩

/-- Emission of a tree succeeds, at every place and from every draft whose identifiers are words, if
the bound on the depth is no less than the height of the tree. -/
theorem Program.Holds.yields {child : Option NodeId} {fallback : String} {t : ExprTree}
    (h : w.program.Holds child fallback t) (hfallback : child = none → isWord fallback = true)
    {depth : Nat} (hdepth : t.height ≤ depth) (required : Precedence)
    (hd : d.names.variableScope.Worded) :
    (w.childValue (Registry.standard.emitNode w depth) child required fallback).Yields d
      (GivesAt d t required) := by
  induction h generalizing depth required d with
  | default fallback =>
      -- nothing hangs here, and a word needs no parentheses
      have hword := hfallback rfl
      refine Emit.yields_pure ⟨.atomic fallback, ⟨.refl d, ?_, rfl⟩, ?_⟩
      · exact Expression.shows_word hword fun _ _ => rfl
      · exact (Expression.wrapped_atomic _ _).symm
  | @atom id n a fallback hn hshape =>
      cases depth with
      | zero => cases hdepth
      | succ depth =>
          exact Shape.childValue_yields hn hshape (a.recipe_yields _ hd) required _
  | @unary id n o fallback a hn hshape _ iha =>
      cases depth with
      | zero => cases hdepth
      | succ depth =>
          have hheight : a.height ≤ depth := Nat.le_of_succ_le_succ hdepth
          have hword : isWord o.operand.2 = true := by cases o <;> decide
          refine Shape.childValue_yields hn hshape ?_ required _
          refine (iha (fun _ => hword) hheight o.required hd).bind ?_
          rintro x d₁ hx
          obtain ⟨hleads, hshows, hfits⟩ := hx.fits
          exact Emit.yields_pure ⟨hleads, hshows.unary o hfits, o.precedence_code _ _⟩
  | @binary id n o fallback a b hn hshape _ _ iha ihb =>
      cases depth with
      | zero => cases hdepth
      | succ depth =>
          have hheight : max a.height b.height ≤ depth := Nat.le_of_succ_le_succ hdepth
          have hword : isWord o.fallback = true := by cases o <;> decide
          refine Shape.childValue_yields hn hshape ?_ required _
          refine (iha (fun _ => hword) (by omega) o.required hd).bind ?_
          rintro x d₁ hx
          obtain ⟨hleads, hshows, hfits⟩ := hx.fits
          -- the second operand starts from the draft that the first one leaves
          refine (ihb (fun _ => hword) (by omega) o.required (hleads.worded hd)).bind ?_
          rintro y d₂ hy
          obtain ⟨hleads', hshows', hfits'⟩ := hy.fits
          exact Emit.yields_pure ⟨hleads.trans hleads',
            (hshows.mono hleads').binary o hfits hshows' hfits', o.precedence_code _ _ _ _⟩
  | @choice id n fallback c a b hn hshape _ _ _ ihc iha ihb =>
      cases depth with
      | zero => cases hdepth
      | succ depth =>
          have hheight : max c.height (max a.height b.height) ≤ depth :=
            Nat.le_of_succ_le_succ hdepth
          refine Shape.childValue_yields hn hshape ?_ required _
          refine (ihc (fun _ => by decide) (by omega) .conditional hd).bind ?_
          rintro x d₁ hx
          obtain ⟨hleads, hshows, hfits⟩ := hx.fits
          have hd₁ := hleads.worded hd
          refine (iha (fun _ => by decide) (by omega) .conditional hd₁).bind ?_
          rintro y d₂ hy
          obtain ⟨hleads', hshows', -⟩ := hy.fits
          have hd₂ := hleads'.worded hd₁
          refine (ihb (fun _ => by decide) (by omega) .conditional hd₂).bind ?_
          rintro z d₃ hz
          obtain ⟨hleads'', hshows'', -⟩ := hz.fits
          refine Emit.yields_pure ⟨hleads.trans (hleads'.trans hleads''), ?_, rfl⟩
          -- only the condition has to be tight: the other two may be any expressions
          exact (hshows.mono (hleads'.trans hleads'')).choice hfits (hshows'.mono hleads'')
            hshows''

/-- The code of a tree at a place, whatever level the place asks for, is an expression of C++ with
one parse, and this parse without its parentheses is what the tree stands for. -/
theorem tree_code_parses_as_tree {w : Workspace} {n : Node} {socket fallback : String}
    {t : ExprTree} (ht : w.program.Holds (n.child? socket) fallback t)
    (hfallback : n.child? socket = none → isWord fallback = true) (required : Precedence)
    {d : Draft} (hd : d.Reachable) :
    ∃ e d', (Registry.standard.follow w
        (Recipe.socketValue n socket required fallback)).run.run d = (.ok e, d') ∧
      ∃ parse, Cpp.Parses e.text parse ∧ parse.erase = t.expr d'.variableText ∧
        ∀ other, Cpp.Parses e.text other → other = parse := by
  have hdepth : t.height ≤ w.program.size + 1 := Nat.le_succ_of_le ht.height_le_size
  obtain ⟨e, d', hrun, hgives⟩ := ht.yields hfallback hdepth required hd.worded
  obtain ⟨-, ⟨parse, hprints, herase⟩, -⟩ := hgives.fits
  obtain ⟨ts, hspells, hderives⟩ := hprints.derives
  have hparses : Cpp.Parses e.text parse := by
    rw [Cpp.Parses, hspells.tokenize_eq]
    exact hderives.mono e.precedence.grade_le_eight
  refine ⟨e, d', ?_, parse, hparses, herase d' (.refl d'), fun other hother =>
    hother.unique hparses⟩
  have hemit : Registry.standard.emit w = Registry.standard.emitNode w (w.program.size + 1) :=
    funext fun _ => rfl
  simp only [Registry.follow, Recipe.socketValue, Recipe.perform, bind_pure, hemit]
  exact hrun

def assignmentSample : Node where
  id := ⟨1⟩
  kind := "variables_set"
  fields := .ofList [("VAR", "y")]
  values := [{ name := "VALUE", child := some ⟨2⟩ }]

/-- An assignment of a difference whose second operand is a difference again, with a negative number
in it and an empty socket. -/
def differenceSample : Program where
  nodes :=
    [assignmentSample,
      { id := ⟨2⟩, kind := "math_arithmetic", fields := .ofList [("OP", "MINUS")],
        values := [{ name := "A", child := some ⟨3⟩ }, { name := "B", child := some ⟨4⟩ }] },
      { id := ⟨3⟩, kind := "variables_get", fields := .ofList [("VAR", "x")] },
      { id := ⟨4⟩, kind := "math_arithmetic", fields := .ofList [("OP", "MINUS")],
        values := [{ name := "A", child := some ⟨5⟩ }] },
      { id := ⟨5⟩, kind := "math_number", fields := .ofList [("NUM", "-5")] }]
  topLevel := [⟨1⟩]

theorem differenceSample_holds : differenceSample.Holds (assignmentSample.child? "VALUE") "0"
    (.binary .minus (.atom (.name "x"))
      (.binary .minus (.atom (.number (-5))) (.default "0"))) := by
  refine .binary rfl (by decide) (.atom rfl (by decide)) (.binary rfl (by decide) ?_ ?_)
  · exact .atom rfl (by decide)
  · exact .default "0"

theorem differenceSample_code_parses_as_tree :
    let w : Workspace := ⟨differenceSample, .empty, .empty, .uno⟩
    ∃ e d', (Registry.standard.follow w (Recipe.socketValue assignmentSample "VALUE" .additive
        "0")).run.run { diagnostics := .empty } = (.ok e, d') ∧
      ∃ parse, Cpp.Parses e.text parse ∧
        parse.erase = .binary "-" (.leaf (d'.variableText "x"))
          (.binary "-" (.unary "-" (.leaf "5")) (.leaf "0")) ∧
        ∀ other, Cpp.Parses e.text other → other = parse := by
  intro w
  exact tree_code_parses_as_tree (w := w) differenceSample_holds (by decide) .additive
    (.start .empty)

end BlockSketch
