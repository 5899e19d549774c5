import BlockSketch.Board.Catalog
import BlockSketch.Emission.Recipe
import BlockSketch.Inference.TypeMap
import BlockSketch.Program.Validation

/-!
What a block may read while it makes its code: the program, where its nodes hang, the types of its
variables, and the board. With the board come the steps that claim a pin.
-/

namespace BlockSketch

structure Workspace where
  program : Program
  places : ParentIndex
  types : TypeMap
  board : Board
  deriving Inhabited

namespace Workspace

def profile (w : Workspace) : BoardProfile := w.board.profile

end Workspace

namespace Recipe

def missingPin (board : BoardProfile) (pin : String) : Diagnostic :=
  .warning Diagnostic.pinMissing s!"Pin {pin} does not exist on {board.name}"

def plainPin (board : BoardProfile) (pin : String) : Diagnostic :=
  (Diagnostic.warning Diagnostic.pinCapability
    s!"Pin {pin} cannot output PWM on {board.name}").withHint
    ("PWM pins: " ++ ", ".intercalate board.pwm)

def claimPin (w : Workspace) (n : Node) (pin : String) (usage : PinUsage) (label : String) :
    Recipe Bool := do
  report n (.boardPin pin) (if w.profile.hasPin pin then none else some (missingPin w.profile pin))
  ask (.claim n.id pin usage label)

def requirePulse (w : Workspace) (n : Node) (pin : String) : Recipe Unit :=
  report n (.pulse pin)
    (if w.profile.isPwm pin || !w.profile.hasPin pin then none else some (plainPin w.profile pin))

end Recipe

end BlockSketch
