import BlockSketch.Block.Registry
import BlockSketch.Emission.Comment

/-!
Recipes at work. The recipe of a node asks for the code of the nodes below it, which is made with
their recipes in turn.
-/

namespace BlockSketch

inductive EmitError where
  | unknownKind (kind : String) (node : NodeId)
  | danglingNode (node : NodeId)
  | notAValue (node : NodeId) (kind : String)
  | notAStatement (node : NodeId) (kind : String)
  /-- A node that hangs below itself. -/
  | endless (node : NodeId)
  deriving DecidableEq, Repr, Inhabited

def EmitError.message : EmitError → String
  | unknownKind kind node =>
      "no handler registered for node kind '" ++ kind ++ "' (node " ++ node.text ++ ")"
  | danglingNode node => s!"node {node.text} does not exist"
  | notAValue node kind => s!"node {node.text} ({kind}) is used as a value but produced a statement"
  | notAStatement node kind =>
      s!"node {node.text} ({kind}) is used as a statement but produced a value"
  | endless node => s!"node {node.text} hangs below itself"

/-- A step that changes the draft and may fail. What it changed before it failed stays. -/
abbrev Emit := ExceptT EmitError (StateM Draft)

namespace Workspace

def node (w : Workspace) (id : NodeId) : Emit Node :=
  match w.program.find? id with
  | some n => pure n
  | none => throw (.danglingNode id)

def childValue (w : Workspace) (emit : Node → Emit Code) (child : Option NodeId)
    (required : Precedence) (fallback : String) : Emit Expression :=
  match child with
  | none => pure (.atomic fallback)
  | some id => do
      let n ← w.node id
      match ← emit n with
      | .value e => return if e.text.isEmpty then .atomic fallback else e.wrapped required
      | .statement _ => throw (.notAValue id n.kind)

def nakedValue (text : String) : String := if text.isEmpty then "" else text ++ ";\n"

/-- The text of code in the place of a statement. A value can stand there only if it hangs
nowhere. -/
def statementText (w : Workspace) (n : Node) : Code → Emit String
  | .statement text => pure text
  | .value e =>
      if (w.places.place? n.id).isNone then pure (nakedValue e.text)
      else throw (.notAStatement n.id n.kind)

def commented (w : Workspace) (n : Node) (text : String) : String :=
  if text.isEmpty then "" else w.commentsBefore n ++ text

def chainSteps (w : Workspace) (emit : Node → Emit Code) : Nat → Option NodeId → Emit String
  | 0, _ => pure ""
  | _ + 1, none => pure ""
  | count + 1, some id => do
      let n ← w.node id
      let text ← w.statementText n (← emit n)
      let rest ← w.chainSteps emit count n.next
      return w.commented n text ++ rest

def chainText (w : Workspace) (emit : Node → Emit Code) (head : Option NodeId) : Emit String :=
  w.chainSteps emit w.program.size head

end Workspace

def Recipe.perform {α : Type} (w : Workspace) (emit : Node → Emit Code) : Recipe α → Emit α
  | .done a => pure a
  | .value child required fallback next => do
      let e ← w.childValue emit child required fallback
      (next e).perform w emit
  | .chain head next => do
      let text ← w.chainText emit head
      (next text).perform w emit
  | .edit e next => do
      let answer ← modifyGet (fun d => d.apply e)
      (next answer).perform w emit

def Form.perform (f : Form) (w : Workspace) (emit : Node → Emit Code) (n : Node) : Emit Code :=
  match f with
  | .value recipe => return .value (← (recipe w n).perform w emit)
  | .statement recipe => return .statement (← (recipe w n).perform w emit)

namespace Registry

def emitNode (r : Registry) (w : Workspace) : Nat → Node → Emit Code
  | 0, n => throw (.endless n.id)
  | depth + 1, n =>
      match r.get? n.kind with
      | none => throw (.unknownKind n.kind n.id)
      | some b => b.form.perform w (r.emitNode w depth) n

/-- The code of a node. No way down has more nodes than the program. -/
def emit (r : Registry) (w : Workspace) (n : Node) : Emit Code :=
  r.emitNode w (w.program.size + 1) n

def follow {α : Type} (r : Registry) (w : Workspace) (recipe : Recipe α) : Emit α :=
  recipe.perform w (r.emit w)

end Registry

namespace Recipe

def declareVariables (w : Workspace) : Recipe Unit :=
  w.program.variableNames.forM fun name => do
    let identifier ← variableName name
    offer .globals identifier s!"{(w.types.get name).declaration} {identifier};"

def programBody (w : Workspace) : Recipe String := do
  let texts ← w.program.topLevel.mapM (fun id => statements (some id))
  return String.join texts

end Recipe

end BlockSketch
