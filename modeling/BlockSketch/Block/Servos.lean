import BlockSketch.Block.Basic
import BlockSketch.Identifier.Spelling

/-!
Blocks for servo motors. A servo goes by its name, which must not be blank.
-/

namespace BlockSketch.Block.Servos

open Recipe

def servo? (n : Node) : Option String :=
  let name := n.fieldD "VAR" "myServo"
  if Text.isBlank name then none else some (Identifier.spell name)

def namelessText : String := "// Error: Servo variable name cannot be empty\n"

def withServo (n : Node) (code : String → Recipe String) : Recipe String :=
  match servo? n with
  | some v => code v
  | none => pure namelessText

def setUp (w : Workspace) (n : Node) : Recipe String :=
  withServo n fun v => do
    let pin := n.fieldD "PIN" "9"
    let _ ← claimPin w n pin .servo "Servo"
    offer .includes "include-Servo" "#include <Servo.h>"
    offer .declarations ("define_Servo_" ++ v) s!"Servo {v};"
    put .setups ("setup_Servo_" ++ v) s!"{v}.attach({pin});"
    return ""

def badAngle : Diagnostic :=
  .warning Diagnostic.outOfRange "Servo angle must be between 0 and 180"

def turn (n : Node) : Recipe String :=
  withServo n fun v => do
    let angle := n.fieldD "ANGLE" "90"
    report n .servoAngle (if isOutside 180 angle then some badAngle else none)
    return s!"{v}.write({angle});\n"

def blocks : List Block :=
  [statement "motor_servo_init" setUp,
    statement "motor_servo_write" fun _ n => turn n,
    statement "motor_servo_attach" fun _ n => withServo n (fun v => return s!"{v}.attach();\n"),
    statement "motor_servo_detach" fun _ n => withServo n (fun v => return s!"{v}.detach();\n")]

end BlockSketch.Block.Servos
