import BlockSketch.Block.Texts

/-!
Blocks for serial ports. A port that is written to is opened at the start; a block that opens it
with a chosen speed has the last word.
-/

namespace BlockSketch.Block.Serial

open Recipe

def firstPort (w : Workspace) : String :=
  match w.profile.serial with
  | port :: _ => port.name
  | [] => "Serial"

def portOf (w : Workspace) (n : Node) : String := n.fieldD "SERIAL" (firstPort w)

def speedKey : String := "setup_serial_speed"

def openPort (port : String) : Recipe Unit := offer .setups speedKey s!"{port}.begin(9600);"

def printText (w : Workspace) (n : Node) : Recipe String := do
  let port := firstPort w
  openPort port
  let arg := Texts.asText (← socket n "TEXT" .loosest "")
  return s!"{port}.print({arg});\n"

def isUsualSpeed (speed : String) : Bool :=
  match Text.readWord? speed with
  | some s => serialSpeeds.contains s
  | none => false

def oddSpeed (speed : String) : Diagnostic :=
  (Diagnostic.warning Diagnostic.outOfRange s!"{speed} is not a standard serial speed").withHint
    "common speeds are 9600 and 115200"

def claimPort (w : Workspace) (n : Node) (port : String) : Recipe Unit := do
  match w.profile.serialPort? port with
  | some pins =>
      let _ ← claimPin w n pins.rx .serial "Serial RX"
      let _ ← claimPin w n pins.tx .serial "Serial TX"
  | none => pure ()

def start (w : Workspace) (n : Node) : Recipe String := do
  let port := portOf w n
  let speed := n.fieldD "SPEED" "9600"
  report n .serialSpeed (if isUsualSpeed speed then none else some (oddSpeed speed))
  claimPort w n port
  put .setups speedKey s!"{port}.begin({speed});"
  return ""

def print (w : Workspace) (n : Node) : Recipe String := do
  let port := portOf w n
  openPort port
  let arg ← socket n "CONTENT" .loosest "\"\""
  let method := if n.fieldD "NEW_LINE" "FALSE" = "TRUE" then "println" else "print"
  return s!"{port}.{method}({arg});\n"

def write (n : Node) : Recipe String := do
  let arg ← socket n "SERIAL" .loosest "0"
  return s!"Serial.write({arg});\n"

def blocks : List Block :=
  [statement "text_print" printText,
    statement "serial_init" start,
    statement "serial_print" print,
    statement "serial_write" fun _ n => write n,
    typed "serial_receive" .boolean fun _ _ => return ⟨"Serial.available() > 0", .relational⟩,
    typed "serial_receive_byte" .number fun _ _ => return ⟨"Serial.read()", .call⟩]

end BlockSketch.Block.Serial
