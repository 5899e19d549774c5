import BlockSketch.Generation

/-!
Emission under observation. An observed step does what a step of emission does and also tells, in
order, which nodes were visited, how deep below other visits each of them was, and where a chain was
given up before its end. Forgetting the events gives back emission as it is.
-/

namespace BlockSketch

/-- A step that fails leaves out what comes behind it. -/
theorem Emit.run_bind {α β : Type} (x : Emit α) (f : α → Emit β) (d : Draft) :
    (x >>= f).run.run d =
      match x.run.run d with
      | (.ok a, d') => (f a).run.run d'
      | (.error e, d') => (.error e, d') := by
  rw [ExceptT.run_bind, StateT.run_bind]
  change (match x.run.run d with | (result, d') => _) = _
  rcases x.run.run d with ⟨result, d'⟩
  cases result with
  | ok a => rfl
  | error e => rfl

inductive Event where
  /-- The recipe of a node is looked up. The depth counts the visits that are open, this one
  included. -/
  | visit (node : NodeId) (depth : Nat)
  /-- A chain is given up although it goes on with a node. -/
  | cut (node : NodeId)
  deriving DecidableEq, Repr

/-- A step of emission with the events in it. What happened before a failure stays. -/
def Observed (α : Type) : Type := Draft → (Except EmitError α × Draft) × List Event

namespace Observed

variable {α β : Type}

def lift (x : Emit α) : Observed α := fun d => (x.run.run d, [])

def note (event : Event) : Observed Unit := fun d => ((.ok (), d), [event])

def bind (x : Observed α) (f : α → Observed β) : Observed β := fun d =>
  match x d with
  | ((.ok a, d'), events) => ((f a d').1, events ++ (f a d').2)
  | ((.error e, d'), events) => ((.error e, d'), events)

instance : Monad Observed where
  pure a := lift (pure a)
  bind := bind

theorem pure_bind (a : α) (f : α → Observed β) : (pure a >>= f) = f a := rfl

def erase (x : Observed α) : Emit α := ExceptT.mk (fun d => (x d).1)

theorem run_erase (x : Observed α) (d : Draft) : x.erase.run.run d = (x d).1 := rfl

@[simp] theorem erase_lift (x : Emit α) : (lift x).erase = x := rfl

@[simp] theorem erase_pure (a : α) : (pure a : Observed α).erase = pure a := rfl

@[simp] theorem erase_note (event : Event) : (note event).erase = pure () := rfl

@[simp] theorem erase_bind (x : Observed α) (f : α → Observed β) :
    (x >>= f).erase = x.erase >>= fun a => (f a).erase := by
  funext d
  change (bind x f d).1 = (x.erase >>= fun a => (f a).erase).run.run d
  rw [Emit.run_bind, run_erase]
  unfold bind
  rcases x d with ⟨⟨result, d'⟩, events⟩
  cases result with
  | ok a => rfl
  | error e => rfl

end Observed

/-! ### The parts of emission -/

namespace Workspace

def observeValue (w : Workspace) (emit : Node → Observed Code) (child : Option NodeId)
    (required : Precedence) (fallback : String) : Observed Expression :=
  match child with
  | none => pure (.atomic fallback)
  | some id => do
      let n ← .lift (w.node id)
      match ← emit n with
      | .value e => pure (if e.text.isEmpty then .atomic fallback else e.wrapped required)
      | .statement _ => .lift (throw (.notAValue id n.kind))

def observeChain (w : Workspace) (emit : Node → Observed Code) :
    Nat → Option NodeId → Observed String
  | _, none => pure ""
  | 0, some id => do
      .note (.cut id)
      pure ""
  | count + 1, some id => do
      let n ← .lift (w.node id)
      let code ← emit n
      let text ← .lift (w.statementText n code)
      let rest ← w.observeChain emit count n.next
      pure (w.commented n text ++ rest)

theorem observeChain_none (w : Workspace) (emit : Node → Observed Code) (count : Nat) :
    w.observeChain emit count none = pure "" := by
  cases count <;> rfl

theorem erase_observeValue (w : Workspace) (emit : Node → Observed Code) (child : Option NodeId)
    (required : Precedence) (fallback : String) :
    (w.observeValue emit child required fallback).erase =
      w.childValue (fun n => (emit n).erase) child required fallback := by
  cases child with
  | none => rfl
  | some id =>
      simp only [observeValue, childValue, Observed.erase_bind, Observed.erase_lift]
      congr 1
      funext n
      congr 1
      funext code
      cases code <;> rfl

theorem erase_observeChain (w : Workspace) (emit : Node → Observed Code) (count : Nat)
    (head : Option NodeId) :
    (w.observeChain emit count head).erase =
      w.chainSteps (fun n => (emit n).erase) count head := by
  induction count generalizing head with
  | zero => cases head <;> rfl
  | succ count ih =>
      cases head with
      | none => rfl
      | some id =>
          simp only [observeChain, chainSteps, Observed.erase_bind, Observed.erase_lift, ih,
            Observed.erase_pure]

end Workspace

def Recipe.observe {α : Type} (w : Workspace) (emit : Node → Observed Code) : Recipe α → Observed α
  | .done a => pure a
  | .value child required fallback next => do
      let e ← w.observeValue emit child required fallback
      (next e).observe w emit
  | .chain head next => do
      let text ← w.observeChain emit w.program.size head
      (next text).observe w emit
  | .edit e next => do
      let answer ← .lift (modifyGet (fun d => d.apply e))
      (next answer).observe w emit

theorem Recipe.erase_observe {α : Type} (w : Workspace) (emit : Node → Observed Code)
    (r : Recipe α) : (r.observe w emit).erase = r.perform w (fun n => (emit n).erase) := by
  induction r with
  | done a => rfl
  | value child required fallback next ih =>
      simp only [observe, perform, Observed.erase_bind, Workspace.erase_observeValue, ih]
  | chain head next ih =>
      simp only [observe, perform, Observed.erase_bind, Workspace.erase_observeChain, ih,
        Workspace.chainText]
  | edit e next ih =>
      simp only [observe, perform, Observed.erase_bind, Observed.erase_lift, ih]

def Form.observe (f : Form) (w : Workspace) (emit : Node → Observed Code) (n : Node) :
    Observed Code :=
  match f with
  | .value recipe => do
      let e ← (recipe w n).observe w emit
      pure (.value e)
  | .statement recipe => do
      let text ← (recipe w n).observe w emit
      pure (.statement text)

theorem Form.erase_observe (f : Form) (w : Workspace) (emit : Node → Observed Code) (n : Node) :
    (f.observe w emit n).erase = f.perform w (fun n => (emit n).erase) n := by
  cases f <;> simp only [observe, perform, Observed.erase_bind, Recipe.erase_observe,
    Observed.erase_pure]

namespace Registry

/-- The code of a node, with at most `depth` nodes from there down and with `above` visits open. -/
def observeNode (r : Registry) (w : Workspace) : Nat → Nat → Node → Observed Code
  | 0, _, n => .lift (throw (.endless n.id))
  | depth + 1, above, n => do
      .note (.visit n.id (above + 1))
      match r.get? n.kind with
      | none => .lift (throw (.unknownKind n.kind n.id))
      | some b => b.form.observe w (r.observeNode w depth (above + 1)) n

theorem erase_observeNode (r : Registry) (w : Workspace) (depth above : Nat) (n : Node) :
    (r.observeNode w depth above n).erase = r.emitNode w depth n := by
  induction depth generalizing above n with
  | zero => rfl
  | succ depth ih =>
      rw [observeNode, emitNode, Observed.erase_bind, Observed.erase_note, pure_bind]
      cases r.get? n.kind with
      | none => rfl
      | some b =>
          have hbelow : (fun n => (r.observeNode w depth (above + 1) n).erase) =
              r.emitNode w depth := funext fun n => ih (above + 1) n
          rw [Form.erase_observe, hbelow]

def observeProgram (r : Registry) (w : Workspace) : Observed String :=
  Recipe.observe w (r.observeNode w (w.program.size + 1) 0) do
    Recipe.declareVariables w
    Recipe.programBody w

/-- Observation does not change what emission gives. -/
theorem observeProgram_fst (r : Registry) (w : Workspace) (ds : Diagnostics) :
    (r.observeProgram w { diagnostics := ds }).1 = r.draftProgram w ds := by
  have hnode : (fun n => (r.observeNode w (w.program.size + 1) 0 n).erase) = r.emit w :=
    funext fun n => r.erase_observeNode w _ 0 n
  rw [observeProgram, ← Observed.run_erase, Recipe.erase_observe, hnode]
  rfl

end Registry

end BlockSketch
