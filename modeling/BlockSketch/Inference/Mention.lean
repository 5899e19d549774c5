import BlockSketch.Program.Basic

/-!
What a block says about types: where the type of its value comes from, and which variables a
statement gives a type. A block whose kind says nothing about its value has the type of its first
operand.
-/

namespace BlockSketch

inductive DeclaredType where
  | known (t : DataType)
  /-- The type of a variable. -/
  | sameAs (name : String)
  /-- The type of the elements of an array variable. -/
  | elementOf (name : String)
  deriving DecidableEq, Repr, Inhabited

structure Mention where
  name : String
  declared : DeclaredType
  /-- The type of the elements, where an array is declared. -/
  element : Option DataType := none
  deriving DecidableEq, Repr, Inhabited

def Mention.array (name : String) (element : DataType) : Mention :=
  ⟨name, .known .array, some element⟩

abbrev ValueTyping := Program → Node → DeclaredType

/-- What is looked up to find the type of a value: the program, and how each kind of block tells its
type. -/
structure Probe where
  program : Program
  typing? : String → Option ValueTyping

abbrev MentionTyping := Probe → Node → List Mention

namespace Probe

/-- The type of the value at a node, found by going down first sockets to a block that tells its
type. An empty socket on the way has the type of an empty socket; a block without sockets that
does not tell its type has none. The count bounds the way down. -/
def typeFrom (probe : Probe) : Nat → Option NodeId → DeclaredType
  | 0, _ => .known .null
  | _ + 1, none => .known .missing
  | count + 1, some id =>
      match probe.program.find? id with
      | none => .known .null
      | some n =>
          match probe.typing? n.kind with
          | some typing => typing probe.program n
          | none =>
              match n.values with
              | [] => .known .null
              | s :: _ => typeFrom probe count s.child

def typeOf (probe : Probe) (s : ValueSocket) : DeclaredType :=
  probe.typeFrom (probe.program.size + 1) s.child

def childType (probe : Probe) (n : Node) : DeclaredType :=
  match n.values with
  | [] => .known .null
  | s :: _ => probe.typeOf s

def socketType (probe : Probe) (n : Node) (socket : String) : DeclaredType :=
  match n.value? socket with
  | none => .known .missing
  | some s => probe.typeOf s

end Probe

end BlockSketch
