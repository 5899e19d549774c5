import BlockSketch.Diagnostic
import BlockSketch.Json.Basic

/-!
The pins that the nodes of a program claim. The first claim of a pin holds; a claim by another node
leaves the table as it is and puts a warning on that node.
-/

namespace BlockSketch

/-- What a pin is used for. Claims are compared by node, never by use. -/
inductive PinUsage where
  | input
  | output
  | pwm
  | servo
  | stepper
  | serial
  | twoWire
  | spi
  deriving DecidableEq, Repr, Inhabited

namespace PinUsage

def all : List PinUsage := [input, output, pwm, servo, stepper, serial, twoWire, spi]

def text : PinUsage → String
  | input => "INPUT"
  | output => "OUTPUT"
  | pwm => "PWM"
  | servo => "SERVO"
  | stepper => "STEPPER"
  | serial => "SERIAL"
  | twoWire => "I2C/TWI"
  | spi => "SPI"

def tag : PinUsage → String
  | input => "input"
  | output => "output"
  | pwm => "pwm"
  | servo => "servo"
  | stepper => "stepper"
  | serial => "serial"
  | twoWire => "i2c"
  | spi => "spi"

def ofTag? (s : String) : Option PinUsage := all.find? (fun u => u.tag = s)

end PinUsage

structure PinClaim where
  usage : PinUsage
  node : NodeId
  label : String
  deriving DecidableEq, Repr, Inhabited

def PinClaim.toJson (c : PinClaim) : Json :=
  .object [("label", .text c.label), ("node", .ofNat c.node.toNat), ("usage", .text c.usage.tag)]

structure PinTable where
  claims : SortedMap String PinClaim
  deriving DecidableEq, Inhabited

namespace PinTable

def empty : PinTable := ⟨.empty⟩

def owner? (t : PinTable) (pin : String) : Option PinClaim := t.claims.find? pin

def toList (t : PinTable) : List (String × PinClaim) := t.claims.toList

def size (t : PinTable) : Nat := t.claims.size

def isEmpty (t : PinTable) : Bool := t.claims.isEmpty

def slot (pin : String) : String := "pin:" ++ pin

def conflict (pin : String) (claim : PinClaim) : Diagnostic :=
  (Diagnostic.warning Diagnostic.pinConflict
    s!"Pin {pin} is already used by \"{claim.label}\"").withHint
    s!"pin {pin} is claimed as {claim.usage.text}"

structure Reservation where
  granted : Bool
  pins : PinTable
  diagnostics : Diagnostics

def reserve (t : PinTable) (ds : Diagnostics) (node : NodeId) (pin : String) (usage : PinUsage)
    (label : String) : Reservation :=
  match t.owner? pin with
  | some claim =>
      if claim.node = node then ⟨true, t, ds.clear node (slot pin)⟩
      else ⟨false, t, ds.set node (slot pin) (conflict pin claim)⟩
  | none => ⟨true, ⟨t.claims.insert pin ⟨usage, node, label⟩⟩, ds.clear node (slot pin)⟩

def toJson (t : PinTable) : Json := .object (t.toList.map (fun e => (e.1, e.2.toJson)))

end PinTable

end BlockSketch
