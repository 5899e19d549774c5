import BlockSketch.Block.Standard

/-!
The words that recipes write by themselves, in one table. With each word stands a node of a kind
whose recipe writes it, although the node does not supply it.
-/

namespace BlockSketch

open Block

/-- Words, and a recipe that writes them: the one of a node on a board, with other nodes in the
program if need be, and with a value in each socket if one is given. -/
structure WordSource where
  words : List String
  node : Node
  board : Board := .uno
  others : List Node := []
  given : Option String := none

def plainNode (kind : String) : Node := { id := ⟨1⟩, kind }

def chosenNode (kind field choice : String) : Node :=
  { id := ⟨1⟩, kind, fields := .ofList [(field, choice)] }

def elseNode : Node :=
  { id := ⟨1⟩, kind := "controls_if", statements := [⟨"ELSE", none⟩] }

def fixedDriver : Node :=
  { id := ⟨2⟩, kind := Motors.driverKind, variant := some (.motorDriver 2 false false) }

/-- A kind that writes other words for each choice in a field. -/
def choices (kind field : String) (words : List (String × List String)) : List WordSource :=
  words.map fun c => { words := c.2, node := chosenNode kind field c.1 }

def wordSources : List WordSource :=
  [{ words := ["while", "true"], node := plainNode "base_end" },
    { words := ["define", "unnamed"], node := plainNode "base_define" },
    { words := ["INPUT"], node := plainNode "pinmode" },
    { words := ["pinMode", "OUTPUT", "digitalWrite", "D4", "LOW"],
      node := plainNode "io_digitalwrite", board := .esp8266 },
    { words := ["digitalRead"], node := plainNode "io_digitalread" },
    { words := ["HIGH"], node := plainNode "io_highlow" },
    { words := ["analogWrite"], node := plainNode "io_analogwrite" },
    { words := ["analogRead"], node := plainNode "io_analogread" },
    { words := ["millis"], node := plainNode "millis" },
    { words := ["micros"], node := plainNode "micros" },
    { words := ["delay"], node := plainNode "base_delay" },
    { words := ["long", "if"], node := plainNode "tempo_no_delay" },
    { words := ["else", "false"], node := elseNode },
    { words := ["for", "int", "inf"], node := plainNode "controls_for", given := some "1e999" },
    { words := ["NULL"], node := plainNode "logic_null" }] ++
  choices "controls_flow_statements" "FLOW" [("BREAK", ["break"]), ("CONTINUE", ["continue"])] ++
  choices "math_arithmetic" "OP" [("POWER", ["pow"])] ++
  choices "math_single" "OP"
    [("ROOT", ["sqrt"]), ("ABS", ["abs"]), ("LN", ["log"]), ("EXP", ["exp"]), ("ROUND", ["round"]),
      ("ROUNDUP", ["ceil"]), ("ROUNDDOWN", ["floor"]), ("SIN", ["sin", "M_PI"]), ("COS", ["cos"]),
      ("TAN", ["tan"]), ("ASIN", ["asin"]), ("ACOS", ["acos"]), ("ATAN", ["atan"])] ++
  choices "math_constant" "CONSTANT"
    [("E", ["M_E"]), ("SQRT2", ["M_SQRT2"]), ("SQRT1_2", ["M_SQRT1_2"]),
      ("INFINITY", ["INFINITY"])] ++
  choices "math_number_property" "PROPERTY"
    [("PRIME", ["boolean", "n", "return", "x", "include", "math", "h"])] ++
  [{ words := ["min", "max", "temp", "rand"], node := plainNode "math_random_int" },
    { words := ["float", "RAND_MAX"], node := plainNode "math_random_float" },
    { words := ["atan2"], node := plainNode "math_atan2" },
    { words := ["String", "length"], node := plainNode "text_length" },
    { words := ["msg"], node := plainNode "text_isEmpty" },
    { words := ["trim"], node := plainNode "text_trim" },
    { words := ["Serial", "begin", "print"], node := plainNode "serial_print" },
    { words := ["write"], node := plainNode "serial_write" },
    { words := ["available"], node := plainNode "serial_receive" },
    { words := ["read"], node := plainNode "serial_receive_byte" },
    { words := ["const", "auto"], node := plainNode "variables_const" }] ++
  choices "serial_print" "NEW_LINE" [("TRUE", ["println"])] ++
  choices "variables_set_type" "VARIABLE_SETTYPE_TYPE"
    [("CHARACTER", ["char"]), ("UNS_NUMBER", ["unsigned"]), ("VOLATIL_NUMBER", ["volatile"])] ++
  [{ words := ["MTA1", "MTA2", "MTENA", "MTB1", "MTB2", "MTENB", "MTSpeed"],
      node := plainNode Motors.driverKind },
    { words := ["MT_Forward"], node := plainNode "l298_movement" },
    { words := ["MT", "No", "EN", "pins", "configured", "speed", "control"],
      node := plainNode "l298_set_speed", others := [fixedDriver] },
    { words := ["Servo", "myServo", "attach"], node := plainNode "motor_servo_init" },
    { words := ["detach"], node := plainNode "motor_servo_detach" },
    { words := ["Error", "variable", "name", "cannot", "be", "empty"],
      node := chosenNode "motor_servo_detach" "VAR" " " }]

/-- The words that the layout of a sketch and the standard recipes write by themselves: all but what
a program supplies and the identifiers that are handed out. -/
def vocabulary : List String :=
  ["void", "setup", "loop"] ++ wordSources.flatMap WordSource.words

end BlockSketch
