import BlockSketch.Program.Basic

/-!
Walks through a program along its statements: the chain from a node along the links to the next
node, and all statements in the order in which they run.
-/

namespace BlockSketch.Program

def chainFrom (p : Program) : Nat → Option NodeId → List Node
  | 0, _ => []
  | _, none => []
  | count + 1, some id =>
      match p.find? id with
      | none => []
      | some n => n :: chainFrom p count n.next

/-- The nodes along the links from a node. A chain never has more nodes than the program, so one
that comes back to itself ends too. -/
def chain (p : Program) (head : Option NodeId) : List Node := p.chainFrom p.size head

/-- The chain from a node with the chains in the statement sockets of each node behind that node,
down to a depth. -/
def nestedChain (p : Program) : Nat → Option NodeId → List Node
  | 0, _ => []
  | depth + 1, head =>
      (p.chain head).flatMap fun n =>
        n :: n.statements.flatMap (fun s => nestedChain p depth s.head)

/-- The statements of a program in the order in which they run. Chains nest no deeper than there are
nodes. -/
def executionOrder (p : Program) : List Node :=
  p.topLevel.flatMap (fun id => p.nestedChain (p.size + 1) (some id))

end BlockSketch.Program
