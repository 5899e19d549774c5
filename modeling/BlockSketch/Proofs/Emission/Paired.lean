import BlockSketch.Proofs.Emission.Observed

/-!
Two runs of emission side by side. The runs may differ in the order in which the nodes of the
program are stored, and in what their drafts hold. As long as look-ups of nodes agree and edits of
related drafts get the same answers, both runs give the same text or fail alike, and their drafts
stay related.
-/

namespace BlockSketch

/-! ### Programs under look-up -/

/-- Two programs that cannot be told apart by looking nodes up. -/
structure Program.Alike (p q : Program) : Prop where
  find? : ∀ id, q.find? id = p.find? id
  size : q.size = p.size
  topLevel : q.topLevel = p.topLevel
  variableNames : q.variableNames = p.variableNames

namespace Program.Alike

variable {p q : Program}

theorem refl (p : Program) : p.Alike p := ⟨fun _ => rfl, rfl, rfl, rfl⟩

theorem commentsFrom (h : p.Alike q) (depth : Nat) (id : NodeId) :
    q.commentsFrom depth id = p.commentsFrom depth id := by
  induction depth generalizing id with
  | zero => rfl
  | succ depth ih =>
      rw [Program.commentsFrom, Program.commentsFrom, h.find? id]
      cases p.find? id with
      | none => rfl
      | some n => simp only [funext ih]

end Program.Alike

/-! ### Pairs of steps -/

/-- Two steps give the same result or fail alike, and lead from related drafts to related drafts. -/
def Emit.Paired {α : Type} (R : Draft → Draft → Prop) (x y : Emit α) : Prop :=
  ∀ d d', R d d' →
    (x.run.run d).1 = (y.run.run d').1 ∧ R (x.run.run d).2 (y.run.run d').2

def Draft.Congruent (R : Draft → Draft → Prop) : Prop :=
  ∀ d d' e, R d d' → (d.apply e).1 = (d'.apply e).1 ∧ R (d.apply e).2 (d'.apply e).2

namespace Emit.Paired

variable {α β : Type} {R : Draft → Draft → Prop}

theorem pure (a : α) : Paired R (pure a) (pure a) := fun _ _ hR => ⟨rfl, hR⟩

theorem throw (e : EmitError) : Paired R (throw e : Emit α) (throw e) := fun _ _ hR => ⟨rfl, hR⟩

theorem edit (hR : Draft.Congruent R) (e : Edit) :
    Paired R (modifyGet (fun d => d.apply e) : Emit e.Answer) (modifyGet fun d => d.apply e) := by
  intro d d' hd
  exact ⟨congrArg Except.ok (hR d d' e hd).1, (hR d d' e hd).2⟩

theorem bind {x y : Emit α} {f g : α → Emit β} (hx : Paired R x y)
    (hf : ∀ a, Paired R (f a) (g a)) : Paired R (x >>= f) (y >>= g) := by
  intro d d' hd
  have hpair := hx d d' hd
  rw [Emit.run_bind, Emit.run_bind]
  generalize x.run.run d = first, y.run.run d' = second at hpair
  rcases first with ⟨result, after⟩
  rcases second with ⟨result', after'⟩
  obtain ⟨rfl, hdraft⟩ := hpair
  cases result with
  | ok a => exact hf a after after' hdraft
  | error e => exact ⟨rfl, hdraft⟩

end Emit.Paired

/-! ### Two runs -/

section Runs

open Emit

variable {R : Draft → Draft → Prop} {w : Workspace} {q : Program} {emit emit' : Node → Emit Code}

namespace Workspace

theorem paired_node (hq : w.program.Alike q) (id : NodeId) :
    Paired R (w.node id) ({ w with program := q }.node id) := by
  rw [node, node, hq.find? id]
  cases w.program.find? id with
  | none => exact .throw _
  | some n => exact .pure n

theorem commented_alike (hq : w.program.Alike q) (n : Node) (text : String) :
    { w with program := q }.commented n text = w.commented n text := by
  simp only [commented, commentsBefore, hq.size, funext (hq.commentsFrom (w.program.size + 1))]

theorem paired_statementText (n : Node) (code : Code) :
    Paired R (w.statementText n code) ({ w with program := q }.statementText n code) := by
  cases code with
  | statement text => exact .pure text
  | value e =>
      rw [statementText, statementText]
      split
      · exact .pure _
      · exact .throw _

theorem paired_childValue (hq : w.program.Alike q) (hemit : ∀ n, Paired R (emit n) (emit' n))
    (child : Option NodeId) (required : Precedence) (fallback : String) :
    Paired R (w.childValue emit child required fallback)
      ({ w with program := q }.childValue emit' child required fallback) := by
  cases child with
  | none => exact .pure _
  | some id =>
      refine .bind (paired_node hq id) fun n => .bind (hemit n) fun code => ?_
      cases code with
      | value e => exact .pure _
      | statement text => exact .throw _

theorem paired_chainSteps (hq : w.program.Alike q) (hemit : ∀ n, Paired R (emit n) (emit' n))
    (count : Nat) (head : Option NodeId) :
    Paired R (w.chainSteps emit count head)
      ({ w with program := q }.chainSteps emit' count head) := by
  induction count generalizing head with
  | zero => exact .pure _
  | succ count ih =>
      cases head with
      | none => exact .pure _
      | some id =>
          refine .bind (paired_node hq id) fun n => .bind (hemit n) fun code =>
            .bind (paired_statementText n code) fun text => .bind (ih n.next) fun rest => ?_
          rw [commented_alike hq]
          exact .pure _

end Workspace

theorem Recipe.paired_perform {α : Type} (hR : Draft.Congruent R) (hq : w.program.Alike q)
    (hemit : ∀ n, Paired R (emit n) (emit' n)) (r : Recipe α) :
    Paired R (r.perform w emit) (r.perform { w with program := q } emit') := by
  induction r with
  | done a => exact .pure a
  | value child required fallback next ih =>
      exact .bind (Workspace.paired_childValue hq hemit child required fallback) ih
  | chain head next ih =>
      refine .bind ?_ ih
      rw [Workspace.chainText, Workspace.chainText, hq.size]
      exact Workspace.paired_chainSteps hq hemit _ head
  | edit e next ih => exact .bind (.edit hR e) ih

def Form.SameAt (f : Form) (w v : Workspace) (n : Node) : Prop :=
  match f with
  | .value recipe => recipe v n = recipe w n
  | .statement recipe => recipe v n = recipe w n

theorem Form.paired_perform (hR : Draft.Congruent R) (hq : w.program.Alike q)
    (hemit : ∀ n, Paired R (emit n) (emit' n)) {f : Form} {n : Node}
    (hf : f.SameAt w { w with program := q } n) :
    Paired R (f.perform w emit n) (f.perform { w with program := q } emit' n) := by
  cases f with
  | value recipe =>
      rw [Form.perform, Form.perform, show recipe { w with program := q } n = recipe w n from hf]
      exact .bind (Recipe.paired_perform hR hq hemit _) fun e => .pure _
  | statement recipe =>
      rw [Form.perform, Form.perform, show recipe { w with program := q } n = recipe w n from hf]
      exact .bind (Recipe.paired_perform hR hq hemit _) fun text => .pure _

namespace Registry

variable {r : Registry}

theorem paired_emitNode (hR : Draft.Congruent R) (hq : w.program.Alike q)
    (hr : ∀ kind b, r.get? kind = some b → ∀ n, b.form.SameAt w { w with program := q } n)
    (depth : Nat) (n : Node) :
    Paired R (r.emitNode w depth n) (r.emitNode { w with program := q } depth n) := by
  induction depth generalizing n with
  | zero => exact .throw _
  | succ depth ih =>
      rw [emitNode, emitNode]
      cases hkind : r.get? n.kind with
      | none => exact .throw _
      | some b => exact Form.paired_perform hR hq ih (hr n.kind b hkind n)

/-- Two runs over programs that look alike, from drafts with related messages, end with the same
text or the same failure, and with related drafts. -/
theorem paired_draftProgram (hR : Draft.Congruent R) (hq : w.program.Alike q)
    (hr : ∀ kind b, r.get? kind = some b → ∀ n, b.form.SameAt w { w with program := q } n)
    {ds ds' : Diagnostics} (hds : R { diagnostics := ds } { diagnostics := ds' }) :
    (r.draftProgram w ds).1 = (r.draftProgram { w with program := q } ds').1 ∧
      R (r.draftProgram w ds).2 (r.draftProgram { w with program := q } ds').2 := by
  have hemit (n : Node) : Paired R (r.emit w n) (r.emit { w with program := q } n) := by
    rw [emit, emit, hq.size]
    exact paired_emitNode hR hq hr _ n
  have hrecipe : (do
      Recipe.declareVariables { w with program := q }
      Recipe.programBody { w with program := q } : Recipe String) = (do
      Recipe.declareVariables w
      Recipe.programBody w) := by
    simp only [Recipe.declareVariables, Recipe.programBody, hq.topLevel, hq.variableNames]
  rw [draftProgram, draftProgram, follow, follow, hrecipe]
  exact Recipe.paired_perform hR hq hemit _ _ _ hds

end Registry

end Runs

end BlockSketch
