import BlockSketch.Program.Basic

/-!
Building a program node by node. Nodes get their numbers in the order in which they are added.
-/

namespace BlockSketch

structure ProgramBuilder where
  nextId : NodeId := ⟨0⟩
  program : Program := ⟨[], [], []⟩
  deriving Inhabited

namespace ProgramBuilder

def empty : ProgramBuilder := {}

/-- Add a node. The number and the link that it comes with do not count. -/
def add (b : ProgramBuilder) (n : Node) : NodeId × ProgramBuilder :=
  (b.nextId,
    { b with
      nextId := b.nextId.succ
      program.nodes := b.program.nodes ++ [{ n with id := b.nextId, next := none }] })

def link (b : ProgramBuilder) (first second : NodeId) : ProgramBuilder :=
  let nodes := b.program.nodes.map (fun n =>
    if n.id = first then { n with next := some second } else n)
  { b with program.nodes := nodes }

def chain (b : ProgramBuilder) (ids : List NodeId) : Option NodeId × ProgramBuilder :=
  (ids.head?, (ids.zip ids.tail).foldl (fun b pair => b.link pair.1 pair.2) b)

def top (b : ProgramBuilder) (id : NodeId) : ProgramBuilder :=
  { b with program.topLevel := b.program.topLevel ++ [id] }

def declare (b : ProgramBuilder) (name : String) : ProgramBuilder :=
  { b with program.variableNames := b.program.variableNames ++ [name] }

end ProgramBuilder

end BlockSketch
