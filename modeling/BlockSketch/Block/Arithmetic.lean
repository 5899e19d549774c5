import BlockSketch.Block.Logic

/-!
Blocks for numbers. The levels asked of operands are such that a sketch computes what the blocks
show; functions of angles take and give degrees.
-/

namespace BlockSketch.Block.Arithmetic

open Recipe

/-! ### Number literals -/

/-- The normal spelling of a number. A text that is no number stands for zero. -/
def spellNumber (text : String) : String :=
  let trimmed := Text.trim text
  match Text.readLong? trimmed, Double.read? trimmed with
  | some n, _ => toString n
  | none, some x => if x.isFinite then x.text else "0"
  | none, none => "0"

def startsNegative (text : String) : Bool := text.toList.head? = some '-'

def number (n : Node) : Expression :=
  let text := spellNumber (n.fieldD "NUM" "0")
  ⟨text, if startsNegative text then .unary else .atomic⟩

/-! ### Operators -/

/-- The operator with a name. Powers have none. -/
def operator? : String → Option Operator
  | "MINUS" => some ⟨"-", .additive⟩
  | "MULTIPLY" => some ⟨"*", .multiplicative⟩
  | "DIVIDE" => some ⟨"/", .multiplicative⟩
  | "POWER" => none
  | _ => some ⟨"+", .additive⟩

def power (n : Node) : Recipe Expression := do
  let a ← socket n "A" .loosest "0"
  let b ← socket n "B" .loosest "0"
  return ⟨s!"pow({a}, {b})", .call⟩

def arithmetic (n : Node) : Recipe Expression :=
  match operator? (n.fieldD "OP" "ADD") with
  | some o => o.recipe n "0"
  | none => power n

def modulo (n : Node) : Recipe Expression := do
  let a ← socket n "DIVIDEND" .multiplicative "0"
  let b ← socket n "DIVISOR" .multiplicative "0"
  return ⟨s!"{a} % {b}", .multiplicative⟩

/-! ### Functions -/

/-- The opposite of a number. Two minus signs never touch. -/
def opposite (n : Node) : Recipe Expression := do
  let arg ← socket n "NUM" .unary "0"
  return ⟨(if startsNegative arg then "- " else "-") ++ arg, .unary⟩

def operandLevel : String → Precedence
  | "ABS" | "ROUND" | "ROUNDUP" | "ROUNDDOWN" => .call
  | "SIN" | "COS" | "TAN" => .multiplicative
  | _ => .loosest

def applied (name x : String) : Expression :=
  match name with
  | "ABS" => ⟨s!"abs({x})", .call⟩
  | "LN" => ⟨s!"log({x})", .call⟩
  | "EXP" => ⟨s!"exp({x})", .call⟩
  | "POW10" => ⟨s!"pow(10, {x})", .call⟩
  | "ROUND" => ⟨s!"round({x})", .call⟩
  | "ROUNDUP" => ⟨s!"ceil({x})", .call⟩
  | "ROUNDDOWN" => ⟨s!"floor({x})", .call⟩
  | "SIN" => ⟨s!"sin({x} / 180 * M_PI)", .call⟩
  | "COS" => ⟨s!"cos({x} / 180 * M_PI)", .call⟩
  | "TAN" => ⟨s!"tan({x} / 180 * M_PI)", .call⟩
  | "LOG10" => ⟨s!"log({x}) / log(10)", .multiplicative⟩
  | "ASIN" => ⟨s!"asin({x}) / M_PI * 180", .multiplicative⟩
  | "ACOS" => ⟨s!"acos({x}) / M_PI * 180", .multiplicative⟩
  | "ATAN" => ⟨s!"atan({x}) / M_PI * 180", .multiplicative⟩
  | _ => ⟨s!"sqrt({x})", .call⟩

def single (n : Node) : Recipe Expression := do
  let name := n.fieldD "OP" "ROOT"
  if name = "NEG" then opposite n
  else return applied name (← socket n "NUM" (operandLevel name) "0")

def constant : String → Expression
  | "E" => .atomic "M_E"
  | "GOLDEN_RATIO" => ⟨"(1 + sqrt(5)) / 2", .multiplicative⟩
  | "SQRT2" => .atomic "M_SQRT2"
  | "SQRT1_2" => .atomic "M_SQRT1_2"
  | "INFINITY" => .atomic "INFINITY"
  | _ => .atomic "M_PI"

def constrain (n : Node) : Recipe Expression := do
  let x ← socket n "VALUE" .loosest "0"
  let low ← socket n "LOW" .loosest "0"
  let high ← socket n "HIGH" .loosest "0"
  return ⟨s!"({x} < {low} ? {low} : ( {x} > {high} ? {high} : {x}))", .call⟩

def arcTangent (n : Node) : Recipe Expression := do
  let x ← socket n "X" .loosest "0"
  let y ← socket n "Y" .loosest "0"
  return ⟨s!"atan2({y}, {x}) / M_PI * 180", .multiplicative⟩

/-! ### Properties of numbers -/

def primeTest (name : String) : String :=
  "\n".intercalate
    [s!"boolean {name}(int n) \x7b",
      "  if (n == 2 || n == 3) \x7b",
      "    return true;",
      "  \x7d",
      "  if (n <= 1 || n % 2 == 0 || n % 3 == 0) \x7b",
      "    return false;",
      "  \x7d",
      "  for (int x = 6; x <= sqrt(n) + 1; x += 6) \x7b",
      "    if (n % (x - 1) == 0 || n % (x + 1) == 0) \x7b",
      "      return false;",
      "    \x7d",
      "  \x7d",
      "  return true;",
      "\x7d"]

def includeMath : Recipe Unit := offer .includes "math" "#include <math.h>"

def propertyTest (n : Node) (x : String) : Recipe Expression := do
  match n.fieldD "PROPERTY" "EVEN" with
  | "PRIME" =>
      let test ← helper "mathIsPrime" primeTest
      includeMath
      return ⟨s!"{test}({x})", .call⟩
  | "ODD" => return ⟨s!"{x} % 2 == 1", .equality⟩
  | "WHOLE" =>
      includeMath
      return ⟨s!"(floor({x}) == {x})", .equality⟩
  | "POSITIVE" => return ⟨s!"{x} > 0", .equality⟩
  | "NEGATIVE" => return ⟨s!"{x} < 0", .equality⟩
  | "DIVISIBLE_BY" =>
      let divisor ← socket n "DIVISOR" .multiplicative "0"
      return ⟨s!"{x} % {divisor} == 0", .equality⟩
  | _ => return ⟨s!"{x} % 2 == 0", .equality⟩

def property (n : Node) : Recipe Expression := do
  propertyTest n (← socket n "NUMBER_TO_CHECK" .multiplicative "0")

/-! ### Random numbers -/

def randomBetween (name : String) : String :=
  "\n".intercalate
    [s!"int {name}(int min, int max) \x7b",
      "  if (min > max) \x7b",
      "    int temp = min;",
      "    min = max;",
      "    max = temp;",
      "  \x7d",
      "  return min + (rand() % (max - min + 1));",
      "\x7d"]

def randomInt (n : Node) : Recipe Expression := do
  let first ← socket n "FROM" .loosest "0"
  let last ← socket n "TO" .loosest "0"
  let name ← helper "mathRandomInt" randomBetween
  return ⟨s!"{name}({first}, {last})", .call⟩

/-! ### Statements -/

def change (n : Node) : Recipe String := do
  let delta ← socket n "DELTA" .additive "0"
  let name ← variableName (n.fieldD "VAR" "")
  return s!"{name} = {name} + {delta};\n"

def blocks : List Block :=
  [(value "math_number" fun _ n => return number n).withTyping
      fun _ n => .known (.ofLiteral (n.fieldD "NUM" "0")),
    value "math_arithmetic" fun _ n => arithmetic n,
    typed "math_single" .decimal fun _ n => single n,
    typed "math_trig" .decimal fun _ n => single n,
    typed "math_round" .decimal fun _ n => single n,
    value "math_constant" fun _ n => return constant (n.fieldD "CONSTANT" "PI"),
    typed "math_number_property" .boolean fun _ n => property n,
    (statement "math_change" fun _ n => change n).withMentions
      fun _ n => mentionOf n (fun name => ⟨name, .known .number, none⟩),
    typed "math_modulo" .number fun _ n => modulo n,
    value "math_constrain" fun _ n => constrain n,
    typed "math_random_int" .number fun _ n => randomInt n,
    typed "math_random_float" .decimal fun _ _ => return .atomic "((float)rand() / RAND_MAX)",
    typed "math_atan2" .decimal fun _ n => arcTangent n]

end BlockSketch.Block.Arithmetic
