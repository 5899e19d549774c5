import BlockSketch.Proofs.Block.Extents
import BlockSketch.Proofs.Block.Registry
import BlockSketch.Proofs.Emission.Told
import BlockSketch.Proofs.Expression.Recipes

/-!
The commas in the texts of expression trees. Powers are calls with two arguments, and no other
operator of a tree puts a comma into the text; none puts a brace into it. So a journal tells texts
for trees that have as many commas as the trees have powers.
-/

namespace BlockSketch

open Cpp Identifier

/-! ### Flat texts -/

/-- A text without braces that has some number of commas. -/
structure Text.Flat (text : String) (count : Nat) : Prop where
  unbraced : Unbraced text
  commas : commas text = count

instance (text : String) (count : Nat) : Decidable (Text.Flat text count) :=
  decidable_of_iff (Text.Unbraced text ∧ Text.commas text = count)
    ⟨fun h => ⟨h.1, h.2⟩, fun h => ⟨h.1, h.2⟩⟩

namespace Text.Flat

variable {s t : String} {i k : Nat}

theorem append (hs : Flat s i) (ht : Flat t k) : Flat (s ++ t) (i + k) where
  unbraced := unbraced_append hs.unbraced ht.unbraced
  commas := by
    rw [Text.commas, String.toList_append, List.count_append]
    exact congrArg₂ (· + ·) hs.commas ht.commas

theorem behind {before : String} (hbefore : Flat before 0) (h : Flat s k) :
    Flat (before ++ s) k := by
  have happend := hbefore.append h
  rwa [Nat.zero_add] at happend

theorem within {before after : String} (hbefore : Flat before 0) (h : Flat s k)
    (hafter : Flat after 0) : Flat (before ++ s ++ after) k :=
  (hbefore.behind h).append hafter

theorem of_isLeaf (h : IsLeaf s) : Flat s 0 := by
  obtain ⟨first, rest, hs, hfirst, hrest⟩ := h
  have hchar (c : Char) (hc : c ∈ s.toList) : isWordChar c = true ∨ c = '.' := by
    rw [hs] at hc
    rcases List.mem_cons.mp hc with rfl | hc
    · exact .inl hfirst
    · exact (hrest c hc).imp_right And.right
  constructor
  · intro c hc
    by_contra hbrace
    rw [Bool.not_eq_false, isBrace, Bool.or_eq_true, decide_eq_true_eq, decide_eq_true_eq]
      at hbrace
    rcases hbrace with rfl | rfl <;> exact absurd (hchar _ hc) (by decide)
  · exact List.count_eq_zero.mpr fun hc => absurd (hchar _ hc) (by decide)

theorem of_isLiteral (h : IsLiteral s) : Flat s 0 := by
  obtain ⟨digits, hdigits, rfl | rfl⟩ := h
  · exact of_isLeaf hdigits
  · exact (by decide : Flat "-" 0).behind (of_isLeaf hdigits)

theorem wrapped {e : Expression} (h : Flat e.text k) (required : Precedence) :
    Flat (e.wrapped required).text k := by
  rw [Expression.wrapped]
  split
  · exact (by decide : Flat "(" 0).within h (by decide)
  · exact h

/-- An empty text has no commas, so a default without commas may take its place. -/
theorem placed {e : Expression} {fallback : String} (h : Flat e.text k)
    (hfallback : Flat fallback 0) (required : Precedence) :
    Flat (if e.text.isEmpty then Expression.atomic fallback else e.wrapped required).text k := by
  split
  next hempty =>
      obtain rfl : 0 = k := by
        rw [← h.commas, String.isEmpty_iff.mp hempty]
        rfl
      exact hfallback
  next => exact h.wrapped required

end Text.Flat

/-! ### Codes of trees in a journal -/

def Atom.Told (past : List Entry) (e : Expression) : Atom → Prop
  | number k => e.text = toString k
  | decimal x => e.text = x.text
  | name text => .edited (.identifier text .variable) e.text ∈ past
  | truth b => e.text = if b then "true" else "false"
  | null => e.text = "NULL"

def Shape.Told (w : Workspace) (n : Node) (past : List Entry) (e : Expression) : Shape → Prop
  | atom a => a.Told past e
  | unary o => ∃ x, w.ValueTold past (n.child? o.operand.1) o.required o.operand.2 x ∧
      e = o.code x.text
  | binary o => ∃ x y, w.ValueTold past (n.child? o.operands.1) o.required o.fallback x ∧
      w.ValueTold past (n.child? o.operands.2) o.required o.fallback y ∧ e = o.code x.text y.text
  | choice => ∃ x y z, w.ValueTold past (n.child? "IF") .conditional "false" x ∧
      w.ValueTold past (n.child? "THEN") .conditional "NULL" y ∧
      w.ValueTold past (n.child? "ELSE") .conditional "NULL" z ∧
      e.text = x.text ++ " ? " ++ y.text ++ " : " ++ z.text

def Node.TreeTold (w : Workspace) (n : Node) (past : List Entry) (code : Code) : Prop :=
  ∀ s, n.shape? = some s → ∃ e, code = .value e ∧ s.Told w n past e

section Told

variable {w : Workspace} {n : Node}

theorem Shape.lasting_told (w : Workspace) (n : Node) (s : Shape) :
    Lasting fun past e => s.Told w n past e := by
  intro past past' e hsub h
  cases s with
  | atom a =>
      cases a with
      | name text => exact hsub h
      | _ => exact h
  | unary o =>
      obtain ⟨x, hx, he⟩ := h
      exact ⟨x, hx.mono hsub, he⟩
  | binary o =>
      obtain ⟨x, y, hx, hy, he⟩ := h
      exact ⟨x, y, hx.mono hsub, hy.mono hsub, he⟩
  | choice =>
      obtain ⟨x, y, z, hx, hy, hz, he⟩ := h
      exact ⟨x, y, z, hx.mono hsub, hy.mono hsub, hz.mono hsub, he⟩

theorem Node.lasting_treeTold (w : Workspace) (n : Node) : Lasting (n.TreeTold w) := by
  intro past past' code hsub h s hs
  obtain ⟨e, hcode, he⟩ := h s hs
  exact ⟨e, hcode, s.lasting_told w n hsub he⟩

theorem Shape.tells_recipe (s : Shape) (past : List Entry) :
    (s.recipe n).Tells w (fun _ _ => True) (fun past e => s.Told w n past e) past := by
  cases s with
  | atom a =>
      cases a with
      | name text =>
          exact Recipe.tells_bind.mpr ⟨trivial, fun _ =>
            List.mem_append_right _ List.mem_cons_self⟩
      | _ => exact rfl
  | unary o => exact Recipe.tells_bind.mpr fun _ x _ hx => ⟨x, hx, rfl⟩
  | binary o =>
      refine Recipe.tells_bind.mpr fun _ x _ hx => Recipe.tells_bind.mpr fun _ y hsub hy => ?_
      exact ⟨x, y, hx.mono hsub, hy, rfl⟩
  | choice =>
      refine Recipe.tells_bind.mpr fun _ x _ hx => Recipe.tells_bind.mpr fun _ y hsub hy =>
        Recipe.tells_bind.mpr fun _ z hsub' hz => ?_
      exact ⟨x, y, z, (hx.mono hsub).mono hsub', hy.mono hsub', hz, rfl⟩

theorem Registry.standard_tellsTree {b : Block} (hb : standard.get? n.kind = some b) :
    b.form.Tells w (fun _ _ => True) (n.TreeTold w) n := by
  cases hs : n.shape? with
  | none =>
      refine (b.form.tells_trivial w n).mono fun _ _ _ s hs' => ?_
      rw [hs] at hs'
      cases hs'
  | some s =>
      obtain ⟨b', recipe, hb', hform, hrecipe⟩ := standard_of_shape hs w
      obtain rfl := Option.some.inj (hb'.symm.trans hb)
      rw [hform]
      intro past
      rw [hrecipe]
      refine (s.tells_recipe past).mono fun past' e _ he s' hs' => ?_
      obtain rfl := Option.some.inj (hs.symm.trans hs')
      exact ⟨e, rfl, he⟩

end Told

/-! ### Commas -/

def ExprTree.powers : ExprTree → Nat
  | default _ | atom _ => 0
  | unary _ a => a.powers
  | binary o a b => a.powers + b.powers + if o = .power then 1 else 0
  | choice c a b => c.powers + a.powers + b.powers

open Text

theorem Atom.Told.flat {past : List Entry} {e : Expression} {a : Atom} (h : a.Told past e)
    (hnames : ∀ name x, .edited (.identifier name .variable) x ∈ past → IsLeaf x) :
    Flat e.text 0 := by
  cases a with
  | number k =>
      rw [show e.text = _ from h]
      exact .of_isLiteral (isLiteral_toString k)
  | decimal x =>
      rw [show e.text = _ from h]
      exact .of_isLiteral x.isLiteral_text
  | name text => exact .of_isLeaf (hnames text _ h)
  | truth b =>
      rw [show e.text = _ from h]
      cases b <;> decide
  | null =>
      rw [show e.text = _ from h]
      decide

theorem UnaryOp.flat_code (o : UnaryOp) {x : String} {k : Nat} (h : Flat x k) :
    Flat (o.code x).text k := by
  cases o with
  | opposite =>
      have hsign : Flat (if Block.Arithmetic.startsNegative x then "- " else "-") 0 := by
        split <;> decide
      exact hsign.behind h
  | negation => exact (by decide : Flat "!" 0).behind h
  | root => exact (by decide : Flat "sqrt(" 0).within h (by decide : Flat ")" 0)
  | absolute => exact (by decide : Flat "abs(" 0).within h (by decide : Flat ")" 0)

theorem BinaryOp.flat_sign {o : BinaryOp} {sign : String} (h : o.sign? = some sign) :
    Flat sign 0 := by
  cases o <;> cases h <;> decide

theorem BinaryOp.flat_code (o : BinaryOp) {x y : String} {i k : Nat} (hx : Flat x i)
    (hy : Flat y k) : Flat (o.code x y).text (i + k + if o = .power then 1 else 0) := by
  cases hsign : o.sign? with
  | some sign =>
      have hne : o ≠ .power := by
        rintro rfl
        cases hsign
      have htext : (o.code x y).text = x ++ " " ++ sign ++ " " ++ y := by
        rw [code, hsign]
        rfl
      have hblank : Flat " " 0 := by decide
      rw [htext, if_neg hne]
      exact (((hx.append hblank).append (flat_sign hsign)).append hblank).append hy
  | none =>
      obtain rfl : o = .power := by
        cases o with
        | power => rfl
        | _ => cases hsign
      have hcall : Flat ("pow(" ++ x ++ ", " ++ y ++ ")") (0 + i + 1 + k + 0) :=
        ((((by decide : Flat "pow(" 0).append hx).append (by decide : Flat ", " 1)).append
          hy).append (by decide : Flat ")" 0)
      have hcount : 0 + i + 1 + k + 0 = i + k + 1 := by omega
      rw [hcount] at hcall
      exact hcall

/-- What is told for a node of a tree is its code at its place. -/
theorem Workspace.ValueTold.exists_shapeTold {w : Workspace} {told : List Entry} {id : NodeId}
    {n : Node} {s : Shape} {required : Precedence} {fallback : String} {e : Expression}
    (he : w.ValueTold told (some id) required fallback e)
    (htrees : ∀ n code, .coded n code ∈ told → n.TreeTold w told code)
    (hn : w.program.find? id = some n) (hs : n.shape? = some s) :
    ∃ e', s.Told w n told e' ∧
      e = if e'.text.isEmpty then .atomic fallback else e'.wrapped required := by
  obtain ⟨m, e', hm, hmem, rfl⟩ := he
  obtain rfl := Option.some.inj (hn.symm.trans hm)
  obtain ⟨_, hvalue, htold⟩ := htrees n _ hmem s hs
  cases hvalue
  exact ⟨e', htold, rfl⟩

/-- In a journal with the codes of trees and legal names, the text of a tree has a comma for each
power in it, and no braces. -/
theorem Program.Holds.flat {w : Workspace} {told : List Entry} {child : Option NodeId}
    {fallback : String} {t : ExprTree} (h : w.program.Holds child fallback t)
    (htrees : ∀ n code, .coded n code ∈ told → n.TreeTold w told code)
    (hnames : ∀ name x, .edited (.identifier name .variable) x ∈ told → IsLeaf x)
    (hfallback : Flat fallback 0) {required : Precedence} {e : Expression}
    (he : w.ValueTold told child required fallback e) : Flat e.text t.powers := by
  induction h generalizing required e with
  | default fallback =>
      obtain rfl := he
      exact hfallback
  | atom hn hs =>
      obtain ⟨e', hatom, rfl⟩ := he.exists_shapeTold htrees hn hs
      exact (Atom.Told.flat hatom hnames).placed hfallback required
  | @unary _ _ o _ _ hn hs _ iha =>
      obtain ⟨_, ⟨x, hx, rfl⟩, rfl⟩ := he.exists_shapeTold htrees hn hs
      have hdefault : Flat o.operand.2 0 := by cases o <;> decide
      exact (o.flat_code (iha hdefault hx)).placed hfallback required
  | @binary _ _ o _ _ _ hn hs _ _ iha ihb =>
      obtain ⟨_, ⟨x, y, hx, hy, rfl⟩, rfl⟩ := he.exists_shapeTold htrees hn hs
      have hdefault : Flat o.fallback 0 := by cases o <;> decide
      exact (o.flat_code (iha hdefault hx) (ihb hdefault hy)).placed hfallback required
  | choice hn hs _ _ _ ihc iha ihb =>
      obtain ⟨e', ⟨x, y, z, hx, hy, hz, htext⟩, rfl⟩ := he.exists_shapeTold htrees hn hs
      refine Flat.placed ?_ hfallback required
      rw [htext]
      exact ((((ihc (by decide) hx).append (by decide : Flat " ? " 0)).append
        (iha (by decide) hy)).append (by decide : Flat " : " 0)).append (ihb (by decide) hz)

end BlockSketch
