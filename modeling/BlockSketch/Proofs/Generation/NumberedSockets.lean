import BlockSketch.Proofs.Block.Numbering
import BlockSketch.Proofs.Generation.MainFunctions

/-!
What hangs in numbered sockets over a whole run. A node in such a socket is emitted once if its kind
reads the socket, and never otherwise: no other node leads to it.
-/

namespace BlockSketch

section Run

variable {p : Program} {board : Board} {header : Bool} {c : Compiled} {places : ParentIndex}
  {body : String} {j : Journal}

variable {n : Node} {code : Code} {s : Numbering} {i : Nat} {id : NodeId}

end Run

end BlockSketch
