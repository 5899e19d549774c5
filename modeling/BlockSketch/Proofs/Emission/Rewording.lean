import BlockSketch.Proofs.Emission.Akin
import BlockSketch.Proofs.Emission.Observed
import BlockSketch.Proofs.Program.Rewording
import BlockSketch.Proofs.Sketch.Code

/-!
Emission under other words. The runs over two programs that differ in the words of their comments go
side by side: values are the same, statements have the same code, and so have the sections of the
drafts. The recipes of the nodes have to be akin for that.
-/

namespace BlockSketch

open Text

def Rewording.workspace (u : Rewording) (w : Workspace) : Workspace :=
  { w with program := u.program w.program }

/-! ### Comments in front of statements -/

theorem isCommentary_commentText (comment : Option String) :
    IsCommentary (commentText comment) := by
  cases comment with
  | none => exact .empty
  | some text => exact isCommentary_leadLines text

theorem Program.isCommentary_commentsFrom (p : Program) (depth : Nat) (id : NodeId) :
    IsCommentary (p.commentsFrom depth id) := by
  induction depth generalizing id with
  | zero => exact .empty
  | succ depth ih =>
      rw [commentsFrom]
      split
      · exact .empty
      · refine (isCommentary_commentText _).append (.join fun text htext => ?_)
        obtain ⟨child, -, rfl⟩ := List.mem_map.mp htext
        exact ih child

theorem Workspace.isCommentary_commentsBefore (w : Workspace) (n : Node) :
    IsCommentary (w.commentsBefore n) := by
  rw [commentsBefore]
  split
  · exact .empty
  · refine (isCommentary_commentText _).append (.join fun text htext => ?_)
    obtain ⟨child, -, rfl⟩ := List.mem_map.mp htext
    exact w.program.isCommentary_commentsFrom _ child

/-- Whatever the comments, a statement with its comments has the code that it has without. -/
theorem Workspace.kin_commented {s t : String} (h : Kin s t) (w w' : Workspace) (n n' : Node) :
    Kin (w.commented n s) (w'.commented n' t) := by
  by_cases hs : s = ""
  · have ht := h.empty.mp hs
    subst hs ht
    exact h
  · have ht := h.empty.not.mp hs
    rw [commented, commented, if_neg (by simpa using hs), if_neg (by simpa using ht)]
    exact h.commented hs (w.isCommentary_commentsBefore n) (w'.isCommentary_commentsBefore n')

/-! ### Drafts -/

/-- Two drafts that differ at most in the comments in their sections. -/
structure Draft.SameLines (d d' : Draft) : Prop where
  sections : d.sections.SameLines d'.sections
  names : d.names = d'.names
  pins : d.pins = d'.pins
  diagnostics : d.diagnostics = d'.diagnostics
  helpers : d.helpers = d'.helpers

namespace Draft.SameLines

variable {d d' : Draft}

theorem refl (d : Draft) : d.SameLines d := ⟨.refl _, rfl, rfl, rfl, rfl⟩

theorem place (h : d.SameLines d') {sec : Section} {text text' : String}
    (htext : uncommented text = uncommented text') (hsec : sec = .includes → text = text')
    (key : String) (overwrite : Bool) :
    (d.place sec key text overwrite).1 = (d'.place sec key text' overwrite).1 ∧
      (d.place sec key text overwrite).2.SameLines (d'.place sec key text' overwrite).2 := by
  obtain ⟨hstored, hsections⟩ := h.sections.insert htext hsec key overwrite
  exact ⟨hstored, hsections, h.names, h.pins, h.diagnostics, h.helpers⟩

theorem helper (h : d.SameLines d') (name : String) (body : String → String) :
    (d.helper name body).1 = (d'.helper name body).1 ∧
      (d.helper name body).2.SameLines (d'.helper name body).2 := by
  unfold Draft.helper
  rw [← h.helpers, ← h.names]
  cases d.helpers.find? name with
  | some identifier => exact ⟨rfl, h⟩
  | none =>
      have hsections (text : String) : (d.sections.insert .functions name text false).2.SameLines
          (d'.sections.insert .functions name text false).2 :=
        (h.sections.insert rfl (fun _ => rfl) name false).2
      exact ⟨rfl, hsections _, rfl, h.pins, h.diagnostics, rfl⟩

/-- Such drafts answer every edit alike, and stay such. -/
theorem apply (h : d.SameLines d') (e : Edit) :
    (d.apply e).1 = (d'.apply e).1 ∧ (d.apply e).2.SameLines (d'.apply e).2 := by
  cases e with
  | place sec key text overwrite => exact h.place rfl (fun _ => rfl) key overwrite
  | helper name body => exact h.helper name body
  | identifier name ns =>
      simp only [Draft.apply, Draft.identifier, h.names]
      exact ⟨rfl, h.sections, rfl, h.pins, h.diagnostics, h.helpers⟩
  | freshVariable name =>
      simp only [Draft.apply, Draft.freshVariable, h.names]
      exact ⟨rfl, h.sections, rfl, h.pins, h.diagnostics, h.helpers⟩
  | claim node pin usage label =>
      simp only [Draft.apply, Draft.claim, h.pins, h.diagnostics]
      exact ⟨rfl, h.sections, h.names, rfl, rfl, h.helpers⟩
  | report node concern message =>
      refine ⟨rfl, ?_⟩
      simp only [Draft.apply, Draft.report, h.diagnostics]
      cases message with
      | some m => exact ⟨h.sections, h.names, h.pins, rfl, h.helpers⟩
      | none => exact ⟨h.sections, h.names, h.pins, rfl, h.helpers⟩

end Draft.SameLines

/-! ### Steps -/

inductive Outcome {α : Type} (ρ : α → α → Prop) : Except EmitError α → Except EmitError α → Prop
  | ok {a b : α} (h : ρ a b) : Outcome ρ (.ok a) (.ok b)
  | error (e : EmitError) : Outcome ρ (.error e) (.error e)

/-- From drafts with the same code, two steps have related results or fail alike, and lead to drafts
with the same code. -/
def Emit.Akin {α : Type} (ρ : α → α → Prop) (x y : Emit α) : Prop :=
  ∀ d d', d.SameLines d' →
    Outcome ρ (x.run.run d).1 (y.run.run d').1 ∧ (x.run.run d).2.SameLines (y.run.run d').2

namespace Emit.Akin

variable {α β : Type} {ρ : α → α → Prop} {σ : β → β → Prop}

theorem pure {a b : α} (h : ρ a b) : Akin ρ (pure a) (pure b) := fun _ _ hd => ⟨.ok h, hd⟩

theorem throw (e : EmitError) : Akin ρ (throw e) (throw e) := fun _ _ hd => ⟨.error e, hd⟩

theorem edit (e : Edit) :
    Akin Eq (modifyGet (fun d => d.apply e) : Emit e.Answer) (modifyGet fun d => d.apply e) := by
  intro d d' hd
  exact ⟨.ok (hd.apply e).1, (hd.apply e).2⟩

theorem place {sec : Section} {text text' : String} (hsec : sec ≠ .includes)
    (htext : uncommented text = uncommented text') (key : String) (overwrite : Bool) :
    Akin Eq (modifyGet (fun d => d.place sec key text overwrite) : Emit Bool)
      (modifyGet fun d => d.place sec key text' overwrite) := by
  intro d d' hd
  obtain ⟨hstored, hdraft⟩ := hd.place htext (absurd · hsec) key overwrite
  exact ⟨.ok hstored, hdraft⟩

theorem bind {x y : Emit α} {f g : α → Emit β} (hx : Akin ρ x y)
    (hf : ∀ a b, ρ a b → Akin σ (f a) (g b)) : Akin σ (x >>= f) (y >>= g) := by
  intro d d' hd
  have hpair := hx d d' hd
  rw [Emit.run_bind, Emit.run_bind]
  generalize x.run.run d = first, y.run.run d' = second at hpair
  obtain ⟨result, after⟩ := first
  obtain ⟨result', after'⟩ := second
  obtain ⟨hresult, hdraft⟩ := hpair
  cases hresult with
  | ok h => exact hf _ _ h after after' hdraft
  | error e => exact ⟨.error e, hdraft⟩

end Emit.Akin

/-! ### Runs -/

inductive Code.Akin : Code → Code → Prop
  | value (e : Expression) : Akin (.value e) (.value e)
  | statement {s t : String} (h : Kin s t) : Akin (.statement s) (.statement t)

section Runs

variable {u : Rewording} {w : Workspace} {emit emit' : Node → Emit Code}

namespace Workspace

theorem akin_node (id : NodeId) :
    Emit.Akin (fun n n' => n' = u.node n) (w.node id) ((u.workspace w).node id) := by
  have hfind : (u.workspace w).program.find? id = (w.program.find? id).map u.node :=
    u.find?_program w.program id
  rw [node, node, hfind]
  cases w.program.find? id with
  | none => exact .throw _
  | some n => exact .pure rfl

theorem akin_childValue (hemit : ∀ n, Emit.Akin Code.Akin (emit n) (emit' (u.node n)))
    (child : Option NodeId) (required : Precedence) (fallback : String) :
    Emit.Akin Eq (w.childValue emit child required fallback)
      ((u.workspace w).childValue emit' child required fallback) := by
  cases child with
  | none => exact .pure rfl
  | some id =>
      refine (akin_node id).bind ?_
      rintro n _ rfl
      refine (hemit n).bind fun code code' hcode => ?_
      cases hcode with
      | value e => exact .pure rfl
      | statement h => exact .throw _

theorem endsLine_nakedValue (text : String) : EndsLine (nakedValue text) := by
  rw [nakedValue]
  split
  · exact endsLine_empty
  · exact endsLine_of_getLast? (by simp)

theorem akin_statementText (n : Node) {code code' : Code} (h : code.Akin code') :
    Emit.Akin Kin (w.statementText n code) ((u.workspace w).statementText (u.node n) code') := by
  cases h with
  | statement h => exact .pure h
  | value e =>
      change Emit.Akin Kin (if (w.places.place? n.id).isNone then _ else _)
        (if (w.places.place? n.id).isNone then _ else _)
      split
      · exact .pure (.of_endsLine (endsLine_nakedValue e.text))
      · exact .throw _

theorem akin_chainSteps (hemit : ∀ n, Emit.Akin Code.Akin (emit n) (emit' (u.node n)))
    (count : Nat) (head : Option NodeId) :
    Emit.Akin Kin (w.chainSteps emit count head)
      ((u.workspace w).chainSteps emit' count head) := by
  have hempty : Kin "" "" := .of_endsLine endsLine_empty
  induction count generalizing head with
  | zero => exact .pure hempty
  | succ count ih =>
      cases head with
      | none => exact .pure hempty
      | some id =>
          refine (akin_node id).bind ?_
          rintro n _ rfl
          refine (hemit n).bind fun code code' hcode => (akin_statementText n hcode).bind
            fun s t hst => (ih n.next).bind fun rest rest' hrest => .pure ?_
          exact (kin_commented hst w _ n _).append hrest

end Workspace

/-- Akin recipes that are followed in workspaces which differ in words only give akin steps. -/
theorem Recipe.Akin.perform {α : Type} {ρ : α → α → Prop} {r r' : Recipe α} (h : r.Akin ρ r')
    (hemit : ∀ n, Emit.Akin Code.Akin (emit n) (emit' (u.node n))) :
    Emit.Akin ρ (r.perform w emit) (r'.perform (u.workspace w) emit') := by
  induction h with
  | done h => exact .pure h
  | value h ih =>
      refine (Workspace.akin_childValue hemit _ _ _).bind ?_
      rintro e _ rfl
      exact ih e
  | chain h ih =>
      refine Emit.Akin.bind ?_ ih
      rw [Workspace.chainText, Workspace.chainText,
        show (u.workspace w).program.size = w.program.size from u.size_program _]
      exact Workspace.akin_chainSteps hemit _ _
  | edit h ih =>
      refine (Emit.Akin.edit _).bind ?_
      rintro answer _ rfl
      exact ih answer
  | place hsec htext h ih =>
      refine (Emit.Akin.place hsec htext _ _).bind ?_
      rintro answer _ rfl
      exact ih answer

/-- The recipes of a kind for a node and for the node with other words are akin. -/
def Form.Akin (f : Form) (u : Rewording) (w : Workspace) (n : Node) : Prop :=
  match f with
  | .value recipe => (recipe w n).Akin Eq (recipe (u.workspace w) (u.node n))
  | .statement recipe => (recipe w n).Akin Kin (recipe (u.workspace w) (u.node n))

theorem Form.Akin.perform {f : Form} {n : Node} (h : f.Akin u w n)
    (hemit : ∀ n, Emit.Akin Code.Akin (emit n) (emit' (u.node n))) :
    Emit.Akin Code.Akin (f.perform w emit n) (f.perform (u.workspace w) emit' (u.node n)) := by
  cases f with
  | value recipe =>
      refine (Recipe.Akin.perform h hemit).bind ?_
      rintro e _ rfl
      exact .pure (.value e)
  | statement recipe =>
      exact (Recipe.Akin.perform h hemit).bind fun _ _ hst => .pure (.statement hst)

namespace Registry

variable {r : Registry}

theorem akin_emitNode (hr : ∀ n b, r.get? n.kind = some b → b.form.Akin u w n) (depth : Nat)
    (n : Node) :
    Emit.Akin Code.Akin (r.emitNode w depth n) (r.emitNode (u.workspace w) depth (u.node n)) := by
  induction depth generalizing n with
  | zero => exact .throw _
  | succ depth ih =>
      rw [emitNode, emitNode, show (u.node n).kind = n.kind from rfl]
      cases hkind : r.get? n.kind with
      | none => exact .throw _
      | some b => exact (hr n b hkind).perform ih

/-- Two runs over programs that differ in words only end with texts of the same code or with the
same failure, and with drafts of the same code. -/
theorem akin_draftProgram (hr : ∀ n b, r.get? n.kind = some b → b.form.Akin u w n)
    (ds : Diagnostics) :
    Outcome Kin (r.draftProgram w ds).1 (r.draftProgram (u.workspace w) ds).1 ∧
      (r.draftProgram w ds).2.SameLines (r.draftProgram (u.workspace w) ds).2 := by
  have hemit (n : Node) : Emit.Akin Code.Akin (r.emit w n) (r.emit (u.workspace w) (u.node n)) := by
    rw [emit, emit, show (u.workspace w).program.size = w.program.size from u.size_program _]
    exact akin_emitNode hr _ n
  have hdeclare : (Recipe.declareVariables w).Settled fun _ => True := by
    simp [Recipe.declareVariables]
  have hbody : (Recipe.programBody w).Akin Kin (Recipe.programBody w) :=
    (Recipe.Akin.mapM fun id _ => Recipe.akin_statements (some id)).bind fun _ _ h =>
      .done (.join h)
  exact (hdeclare.bind_akin fun _ => hbody).perform hemit _ _ (.refl _)

end Registry

end Runs

end BlockSketch
