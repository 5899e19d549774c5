import BlockSketch.Program.NodeId
import BlockSketch.Program.Variant
import BlockSketch.SortedMap

/-!
Block programs. A program is a list of nodes. A node has text fields, sockets that take one value
each, sockets that take a chain of statements each, and a link to the next statement.
-/

namespace BlockSketch

structure ValueSocket where
  name : String
  /-- The type that the editor asks for here. -/
  check : Option DataType := none
  child : Option NodeId := none
  deriving DecidableEq, Repr, Inhabited

structure StatementSocket where
  name : String
  head : Option NodeId := none
  deriving DecidableEq, Repr, Inhabited

structure Node where
  id : NodeId
  kind : String
  fields : SortedMap String String := .empty
  values : List ValueSocket := []
  statements : List StatementSocket := []
  next : Option NodeId := none
  comment : Option String := none
  variant : Option Variant := none
  deriving DecidableEq, Inhabited

/-- Where a node hangs: the node above it and how it is attached there. -/
inductive Place where
  | value (owner : NodeId) (socket : String)
  | statement (owner : NodeId) (socket : String)
  | next (owner : NodeId)
  deriving DecidableEq, Repr, Inhabited

namespace Node

def field? (n : Node) (name : String) : Option String := n.fields.find? name

def fieldD (n : Node) (name fallback : String) : String := (n.field? name).getD fallback

def value? (n : Node) (name : String) : Option ValueSocket :=
  n.values.find? (fun s => s.name = name)

def child? (n : Node) (name : String) : Option NodeId := (n.value? name).bind (·.child)

def head? (n : Node) (name : String) : Option NodeId :=
  (n.statements.find? (fun s => s.name = name)).bind (·.head)

def indexAfter? (word name : String) : Option Nat :=
  if word.toList.isPrefixOf name.toList then
    Text.readWord? (String.ofList (name.toList.drop word.length))
  else none

/-- The indices of the arms of a conditional that the node has sockets for, each once. -/
def armIndices (n : Node) : List Nat :=
  (n.values.filterMap (fun s => indexAfter? "IF" s.name) ++
    n.statements.filterMap (fun s => indexAfter? "DO" s.name)).eraseDups

def armCount (n : Node) : Nat := n.armIndices.length.toUInt32.toNat

/-- The nodes that a node refers to, each with its place there: values, then statements, then the
next node. -/
def references (n : Node) : List (Place × NodeId) :=
  n.values.filterMap (fun s => s.child.map (fun c => (.value n.id s.name, c))) ++
    n.statements.filterMap (fun s => s.head.map (fun h => (.statement n.id s.name, h))) ++
    (n.next.map (fun m => (.next n.id, m))).toList

def targets (n : Node) : List NodeId := n.references.map Prod.snd

end Node

/-- A program: its nodes, those that start at the top level, and the names of its variables. -/
structure Program where
  nodes : List Node
  topLevel : List NodeId := []
  variableNames : List String := []
  deriving DecidableEq, Inhabited

namespace Program

def find? (p : Program) (id : NodeId) : Option Node := p.nodes.find? (fun n => n.id = id)

def has (p : Program) (id : NodeId) : Bool := (p.find? id).isSome

def size (p : Program) : Nat := p.nodes.length

end Program

end BlockSketch
