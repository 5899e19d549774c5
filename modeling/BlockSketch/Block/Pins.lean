import BlockSketch.Block.Basic

/-!
Blocks that read and write pins. Each claims its pin and sets the mode of the pin once.
-/

namespace BlockSketch.Block.Pins

open Recipe

def pinOf (w : Workspace) (n : Node) (field : String) : String :=
  n.fieldD field w.profile.builtinLed

def setMode (pin mode : String) : Recipe Unit :=
  offer .setups ("io_" ++ pin) s!"pinMode({pin}, {mode});"

def openInput (w : Workspace) (n : Node) (pin label : String) : Recipe Unit := do
  let _ ← claimPin w n pin .input label
  setMode pin "INPUT"

def openOutput (w : Workspace) (n : Node) (pin label : String) : Recipe Unit := do
  let _ ← claimPin w n pin .output label
  setMode pin "OUTPUT"

def digitalWrite (w : Workspace) (n : Node) : Recipe String := do
  let pin := pinOf w n "PIN"
  let state ← socket n "STATE" .loosest "LOW"
  openOutput w n pin "Digital Write"
  return s!"digitalWrite({pin}, {state});\n"

def digitalRead (w : Workspace) (n : Node) : Recipe Expression := do
  let pin := pinOf w n "PIN"
  openInput w n pin "Digital Read"
  return .atomic s!"digitalRead({pin})"

def builtinLed (w : Workspace) (n : Node) : Recipe String := do
  let pin := pinOf w n "BUILT_IN_LED"
  let state := n.fieldD "STATE" "HIGH"
  openOutput w n pin "Set LED"
  return s!"digitalWrite({pin}, {state});\n"

def badPulseWidth : Diagnostic :=
  .warning Diagnostic.outOfRange "The analogue value set must be between 0 and 255"

def analogWrite (w : Workspace) (n : Node) : Recipe String := do
  let pin := pinOf w n "PIN"
  let level ← socket n "NUM" .loosest "0"
  let _ ← claimPin w n pin .pwm "Analogue Write"
  requirePulse w n pin
  setMode pin "OUTPUT"
  report n .pulseWidth (if isOutside 255 level then some badPulseWidth else none)
  return s!"analogWrite({pin}, {level});\n"

def analogRead (w : Workspace) (n : Node) : Recipe Expression := do
  let pin := pinOf w n "PIN"
  openInput w n pin "Analogue Read"
  return .atomic s!"analogRead({pin})"

def blocks : List Block :=
  [statement "io_digitalwrite" digitalWrite,
    typed "io_digitalread" .number digitalRead,
    statement "io_builtin_led" builtinLed,
    statement "io_analogwrite" analogWrite,
    typed "io_analogread" .number analogRead,
    typed "io_highlow" .boolean fun _ n => return .atomic (n.fieldD "STATE" "HIGH")]

end BlockSketch.Block.Pins
