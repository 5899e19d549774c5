import BlockSketch.Identifier.NameTable
import BlockSketch.Pin
import BlockSketch.Sketch.Assembly

/-!
The draft of a sketch: all that the blocks emitted so far have left besides the code in place. A
block changes it through edits, and each edit has an answer. No answer depends on the messages in
the draft.
-/

namespace BlockSketch

/-- What a message of a block is about. Each concern has a slot of its own at a node. -/
inductive Concern where
  /-- A socket that is empty. -/
  | input (socket : String)
  /-- A pin that the board does not have. -/
  | boardPin (pin : String)
  /-- A pin that cannot give out a pulse width. -/
  | pulse (pin : String)
  | pulseWidth
  | flow
  | serialSpeed
  | motorEnable
  | servoAngle
  deriving DecidableEq, Repr, Inhabited

def Concern.slot : Concern → String
  | input socket => "input:" ++ socket
  | boardPin pin => "board-pin:" ++ pin
  | pulse pin => "pwm:" ++ pin
  | pulseWidth => "pwm_value"
  | flow => "flow"
  | serialSpeed => "serial-speed"
  | motorEnable => "L298_NoEN"
  | servoAngle => "servo_angle"

structure Draft where
  sections : Sections := .empty
  names : Identifier.NameTable := .empty
  pins : PinTable := .empty
  diagnostics : Diagnostics := .empty
  /-- The identifiers of the helper functions, by the names that they were asked for. -/
  helpers : SortedMap String String := .empty
  deriving DecidableEq, Inhabited

inductive Edit where
  /-- Put a fragment into a section. -/
  | place (sec : Section) (key text : String) (overwrite : Bool)
  /-- Define a helper function whose text depends on its identifier. -/
  | helper (name : String) (body : String → String)
  /-- Ask for the identifier of a user's name. -/
  | identifier (name : String) (ns : Identifier.Namespace)
  /-- Ask for a new identifier of a variable. -/
  | freshVariable (name : String)
  /-- Claim a pin. -/
  | claim (node : NodeId) (pin : String) (usage : PinUsage) (label : String)
  /-- Put a message on a node, or take the one about this concern away. -/
  | report (node : NodeId) (concern : Concern) (message : Option Diagnostic)

namespace Edit

/-- What an edit tells: whether a fragment was stored, which identifier was given, whether a pin was
granted. -/
def Answer : Edit → Type
  | place .. => Bool
  | helper .. => String
  | identifier .. => String
  | freshVariable .. => String
  | claim .. => Bool
  | report .. => Unit

end Edit

namespace Draft

def place (d : Draft) (sec : Section) (key text : String) (overwrite : Bool) : Bool × Draft :=
  let (stored, sections) := d.sections.insert sec key text overwrite
  (stored, { d with sections })

/-- The identifier of a helper function. It is defined when it is asked for the first time. -/
def helper (d : Draft) (name : String) (body : String → String) : String × Draft :=
  match d.helpers.find? name with
  | some identifier => (identifier, d)
  | none =>
      let (identifier, names) := d.names.fresh name .procedure
      let (_, sections) := d.sections.insert .functions name (body identifier) false
      (identifier, { d with names, sections, helpers := d.helpers.insert name identifier })

def identifier (d : Draft) (name : String) (ns : Identifier.Namespace) : String × Draft :=
  let (identifier, names) := d.names.nameOf name ns
  (identifier, { d with names })

def freshVariable (d : Draft) (name : String) : String × Draft :=
  let (identifier, names) := d.names.fresh name .variable
  (identifier, { d with names })

def claim (d : Draft) (node : NodeId) (pin : String) (usage : PinUsage) (label : String) :
    Bool × Draft :=
  let r := d.pins.reserve d.diagnostics node pin usage label
  (r.granted, { d with pins := r.pins, diagnostics := r.diagnostics })

def report (d : Draft) (node : NodeId) (concern : Concern) (message : Option Diagnostic) : Draft :=
  match message with
  | some m => { d with diagnostics := d.diagnostics.set node concern.slot m }
  | none => { d with diagnostics := d.diagnostics.clear node concern.slot }

def apply (d : Draft) : (e : Edit) → e.Answer × Draft
  | .place sec key text overwrite => d.place sec key text overwrite
  | .helper name body => d.helper name body
  | .identifier name ns => d.identifier name ns
  | .freshVariable name => d.freshVariable name
  | .claim node pin usage label => d.claim node pin usage label
  | .report node concern message => ((), d.report node concern message)

/-- The sketch that a draft stands for, with code that is left over at the top level. -/
def source (d : Draft) (body : String) : String := d.sections.assemble body

end Draft

end BlockSketch
