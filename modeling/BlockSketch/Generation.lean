import BlockSketch.Block.Standard
import BlockSketch.Emission.Run
import BlockSketch.Inference.Engine

/-!
The way from a program to a sketch: the program is checked, types are found for its variables, and
the blocks are turned into code.
-/

namespace BlockSketch

def version : String := "0.3.0"

structure Sketch where
  source : String
  pins : PinTable
  diagnostics : Diagnostics
  deriving Inhabited

namespace Registry

def inferTypes (r : Registry) (p : Program) : Inference :=
  Inference.run (r.probe p) r.mentions? .empty

/-- Follow the recipe of a whole program, from a draft that has only messages. -/
def draftProgram (r : Registry) (w : Workspace) (ds : Diagnostics) :
    Except EmitError String × Draft :=
  (r.follow w do
    Recipe.declareVariables w
    Recipe.programBody w).run.run { diagnostics := ds }

def sketch (r : Registry) (w : Workspace) (ds : Diagnostics) : Except EmitError Sketch :=
  match r.draftProgram w ds with
  | (.ok body, d) => .ok ⟨d.source body, d.pins, d.diagnostics⟩
  | (.error e, _) => .error e

end Registry

inductive CompileError where
  | graph (e : GraphError)
  | emit (e : EmitError)
  deriving DecidableEq, Repr, Inhabited

def CompileError.message : CompileError → String
  | graph e => "invalid program: " ++ e.message
  | emit e => e.message

/-- A compiled program: its sketch and the types of its variables. -/
structure Compiled where
  sketch : Sketch
  types : TypeMap
  deriving Inhabited

def heading (board : Board) : String :=
  s!"// Generated by inoc {version} for {board.profile.name}\n\n"

/-- Put the line that names the version and the board before a sketch, if it is wanted. -/
def Sketch.withHeading (s : Sketch) (board : Board) (wanted : Bool) : Sketch :=
  if wanted then { s with source := heading board ++ s.source } else s

namespace Registry

def compile (r : Registry) (p : Program) (board : Board) (header : Bool) :
    Except CompileError Compiled := do
  let places ← p.validate.mapError .graph
  let found := r.inferTypes p
  let s ← (r.sketch ⟨p, places, found.map, board⟩ found.diagnostics).mapError .emit
  return ⟨s.withHeading board header, found.map⟩

end Registry

end BlockSketch
