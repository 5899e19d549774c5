import BlockSketch.Block.Basic
import BlockSketch.Identifier.Spelling

/-!
Blocks for the flow of control: conditionals, loops, and jumps out of them.
-/

namespace BlockSketch.Block.Control

open Recipe

/-! ### Conditionals -/

/-- The arms of a conditional: the number of those after the first, and whether one is for all other
cases. -/
structure Arms where
  further : Nat
  otherwise : Bool
  deriving DecidableEq, Repr

/-- The arms of a conditional. A variant declares them, but never more than there are sockets for;
without a variant the sockets tell. -/
def armsOf (n : Node) : Arms :=
  match n.variant with
  | some (.conditional count otherwise) => ⟨min count.toNat (n.armCount - 1), otherwise⟩
  | _ => ⟨countSockets n "IF" - 1, n.statements.any (fun s => s.name = "ELSE")⟩

def arm (n : Node) (i : Nat) : Recipe String := do
  let condition ← socket n s!"IF{i}" .loosest "false"
  let code ← body n s!"DO{i}"
  return withBody s!"if ({condition})" code

def lastArm (n : Node) (present : Bool) : Recipe (List String) := do
  if present then return [withBody "else" (← body n "ELSE")] else return []

def conditional (n : Node) : Recipe String := do
  let arms := armsOf n
  let conditional ← (List.range (arms.further + 1)).mapM (arm n)
  let last ← lastArm n arms.otherwise
  return " ".intercalate (" else ".intercalate conditional :: last) ++ "\n"

/-! ### Loops -/

def countedLoop (n : Node) (times : String) : Recipe String := do
  let counter ← freshVariable "count"
  let code ← body n "DO"
  return withBody s!"for (int {counter} = 0; {counter} < {times}; {counter}++)" code ++ "\n"

def repeatValue (n : Node) : Recipe String := do
  countedLoop n (← socket n "TIMES" .assignment "0")

def negated (condition : String) : String :=
  if Identifier.isWord condition then "!" ++ condition else "!(" ++ condition ++ ")"

def whileLoop (n : Node) : Recipe String := do
  let condition ← socket n "BOOL" .loosest "false"
  let code ← body n "DO"
  let shown := if n.fieldD "MODE" "WHILE" = "UNTIL" then negated condition else condition
  return withBody s!"while ({shown})" code ++ "\n"

def advance (up : Bool) (step : Double) : String :=
  if step = Double.ofNat 1 then if up then "++" else "--"
  else (if up then " += " else " -= ") ++ step.text

/-- The head of a loop from one number to another. If all three numbers are plain, the loop counts
towards its end whatever the sign of the step; otherwise it counts up. -/
def rangeHead (name start stop step : String) : String :=
  match plainNumber? start, plainNumber? stop, plainNumber? step with
  | some first, some last, some stride =>
      let up := first.le last
      let sign := if up then "<=" else ">="
      s!"for (int {name} = {start}; {name} {sign} {stop}; {name}{advance up stride.abs})"
  | _, _, _ => s!"for (int {name} = {start}; {name} <= {stop}; {name} += {step})"

def rangeLoop (n : Node) : Recipe String := do
  let name ← variableName (n.fieldD "VAR" "i")
  let start ← socket n "FROM" .assignment "0"
  let stop ← socket n "TO" .assignment "0"
  let step ← socket n "BY" .assignment "1"
  let code ← body n "DO"
  return withBody (rangeHead name start stop step) code ++ "\n"

/-! ### Jumps -/

def unknownJump (name : String) : Diagnostic :=
  .warning Diagnostic.outOfRange s!"Unknown flow statement {name}"

def jump (n : Node) : Recipe String := do
  match n.fieldD "FLOW" "BREAK" with
  | "BREAK" => return "break;\n"
  | "CONTINUE" => return "continue;\n"
  | other =>
      report n .flow (some (unknownJump other))
      return ""

def blocks : List Block :=
  [statement "controls_if" fun _ n => conditional n,
    statement "controls_repeat_ext" fun _ n => repeatValue n,
    statement "controls_repeat" fun _ n => countedLoop n (n.fieldD "TIMES" "0"),
    statement "controls_whileUntil" fun _ n => whileLoop n,
    (statement "controls_for" fun _ n => rangeLoop n).withMentions
      fun _ n => mentionOf n (fun name => ⟨name, .known .number, none⟩),
    statement "controls_flow_statements" fun _ n => jump n]

end BlockSketch.Block.Control
