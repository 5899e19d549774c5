import BlockSketch.Emission.Workspace
import BlockSketch.Text.Lines

/-!
The comments written before a statement: its own, and those of the nodes in its value sockets.
-/

namespace BlockSketch

def commentText (comment : Option String) : String :=
  match comment with
  | some text => Text.leadLines "// " text
  | none => ""

def Program.commentsFrom (p : Program) : Nat → NodeId → String
  | 0, _ => ""
  | depth + 1, id =>
      match p.find? id with
      | none => ""
      | some n => commentText n.comment ++ String.join (n.targets.map (p.commentsFrom depth))

def Workspace.commentsBefore (w : Workspace) (n : Node) : String :=
  if w.places.isValue n.id then ""
  else
    commentText n.comment ++
      String.join ((n.values.filterMap (·.child)).map (w.program.commentsFrom (w.program.size + 1)))

end BlockSketch
