import BlockSketch.Block.Basic
import BlockSketch.Identifier.Spelling

/-!
Blocks for motors on a bridge driver. The block that sets a driver up owns its pins, its speed and
the functions for its directions; the other blocks refer to the driver by its name.
-/

namespace BlockSketch.Block.Motors

open Recipe

/-! ### Drivers -/

/-- What is wired to a driver: one or two motors, each with or without a pin for its speed. -/
structure Wiring where
  dual : Bool
  enableA : Bool
  enableB : Bool
  deriving DecidableEq, Repr

namespace Wiring

/-- The wiring of a driver: two motors with all pins, unless its variant says otherwise. -/
def of (n : Node) : Wiring :=
  match n.variant with
  | some (.motorDriver count enableA enableB) => ⟨2 ≤ count.toNat, enableA, enableB⟩
  | _ => ⟨true, true, true⟩

def hasEnable (w : Wiring) : Bool := w.enableA || (w.dual && w.enableB)

end Wiring

/-- A pin of a driver: the ending of its variable, the field that names it, its number by default,
and what it is for. -/
structure DriverPin where
  suffix : String
  field : String
  fallback : String
  label : String
  setsSpeed : Bool
  deriving DecidableEq, Repr

def Wiring.pins (w : Wiring) : List DriverPin :=
  [⟨"A1", "PIN0", "7", "L298 Motor A1", false⟩, ⟨"A2", "PIN1", "8", "L298 Motor A2", false⟩] ++
    (if w.enableA then [⟨"ENA", "PIN_ENA", "5", "L298 Motor A EN", true⟩] else []) ++
    (if w.dual then
      [⟨"B1", "PIN2", "9", "L298 Motor B1", false⟩, ⟨"B2", "PIN3", "10", "L298 Motor B2", false⟩]
    else []) ++
    (if w.dual && w.enableB then [⟨"ENB", "PIN_ENB", "6", "L298 Motor B EN", true⟩] else [])

def driverKind : String := "l298_init"

def driverName (n : Node) : String := n.fieldD "VAR" "MT"

def driver? (w : Workspace) (name : String) : Option Node :=
  w.program.nodes.find? (fun n => n.kind = driverKind && driverName n = name)

/-! ### Directions -/

inductive Direction where
  | forward
  | backward
  | stop
  | left
  | right
  deriving DecidableEq, Repr, Inhabited

namespace Direction

def all : List Direction := [forward, backward, stop, left, right]

def name : Direction → String
  | forward => "Forward"
  | backward => "Backward"
  | stop => "Stop"
  | left => "Left"
  | right => "Right"

def ofName? (s : String) : Option Direction := all.find? (fun d => d.name = s)

def isTurn : Direction → Bool
  | left | right => true
  | _ => false

def levelsA : Direction → String × String
  | forward | right => ("HIGH", "LOW")
  | backward | left => ("LOW", "HIGH")
  | stop => ("LOW", "LOW")

def levelsB : Direction → String × String
  | forward | left => ("HIGH", "LOW")
  | backward | right => ("LOW", "HIGH")
  | stop => ("LOW", "LOW")

end Direction

def motorLines (v motor : String) (levels : String × String) (enable : Bool) (duty : String) :
    String :=
  s!"  digitalWrite({v}{motor}1, {levels.1});\n  digitalWrite({v}{motor}2, {levels.2});\n" ++
    if enable then s!"  analogWrite({v}EN{motor}, {duty});\n" else ""

def directionFunction (v : String) (wiring : Wiring) (d : Direction) (name : String) : String :=
  let duty := if d = .stop then "0" else v ++ "Speed"
  s!"void {name}()" ++
    braced ("\n" ++ motorLines v "A" d.levelsA wiring.enableA duty ++
      if wiring.dual then motorLines v "B" d.levelsB wiring.enableB duty else "")

def directionName (v direction : String) : String := v ++ "_" ++ direction

def defineDirection (v : String) (wiring : Wiring) (d : Direction) : Recipe (Option String) := do
  if d.isTurn && !wiring.dual then return none
  else return some (← helper (directionName v d.name) (directionFunction v wiring d))

/-! ### Blocks -/

def claimDriverPin (w : Workspace) (n : Node) (p : DriverPin) : Recipe Unit := do
  let pin := n.fieldD p.field p.fallback
  if p.setsSpeed then
    let _ ← claimPin w n pin .pwm p.label
    requirePulse w n pin
  else
    let _ ← claimPin w n pin .output p.label

def pinVariable (n : Node) (v : String) (p : DriverPin) : String :=
  s!"int {v}{p.suffix} = {n.fieldD p.field p.fallback};\n"

def pinModeLine (v : String) (p : DriverPin) : String := s!"pinMode({v}{p.suffix}, OUTPUT);\n"

def setUp (w : Workspace) (n : Node) : Recipe String := do
  let v := Identifier.spell (driverName n)
  let wiring := Wiring.of n
  wiring.pins.forM (claimDriverPin w n)
  put .globals ("init-motor_" ++ v)
    (String.join (wiring.pins.map (pinVariable n v)) ++ s!"int {v}Speed = 200;")
  put .setups ("setup_motor_" ++ v) (String.join (wiring.pins.map (pinModeLine v)))
  Direction.all.forM (fun d => do let _ ← defineDirection v wiring d)
  return ""

/-- The function of a direction of a driver. One that cannot be found goes by the name that would
have been asked for. -/
def directionCall (w : Workspace) (raw direction : String) : Recipe String := do
  let v := Identifier.spell raw
  let found ← match driver? w raw, Direction.ofName? direction with
    | some n, some d => defineDirection v (Wiring.of n) d
    | _, _ => pure none
  return found.getD (directionName v direction)

def move (w : Workspace) (n : Node) : Recipe String := do
  return (← directionCall w (driverName n) (n.fieldD "DIRECTION" "Forward")) ++ "();\n"

def noEnable : Diagnostic :=
  .warning Diagnostic.enableMissing
    ("Speed control requires at least one motor with EN pin. " ++
      "Motors without EN pins run at full speed.")

def isFixedSpeed (w : Workspace) (name : String) : Bool :=
  match driver? w name with
  | some n => !(Wiring.of n).hasEnable
  | none => false

def setSpeed (w : Workspace) (n : Node) : Recipe String := do
  let v := Identifier.spell (driverName n)
  let speed := n.fieldD "SPEED" "200"
  if isFixedSpeed w (driverName n) then
    report n .motorEnable (some noEnable)
    return s!"// {v}: No EN pins configured for speed control\n"
  else
    report n .motorEnable none
    return s!"{v}Speed = {speed};\n"

def blocks : List Block :=
  [statement driverKind setUp,
    statement "l298_movement" move,
    statement "l298_set_speed" setSpeed]

end BlockSketch.Block.Motors
