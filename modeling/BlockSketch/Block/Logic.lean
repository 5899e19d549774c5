import BlockSketch.Block.Basic

/-!
Blocks for truth values: constants, comparisons and connectives.
-/

namespace BlockSketch.Block

structure Operator where
  sign : String
  precedence : Precedence
  deriving DecidableEq, Repr

def Operator.recipe (o : Operator) (n : Node) (fallback : String) : Recipe Expression := do
  let a ← Recipe.socket n "A" o.precedence fallback
  let b ← Recipe.socket n "B" o.precedence fallback
  return ⟨s!"{a} {o.sign} {b}", o.precedence⟩

end BlockSketch.Block

namespace BlockSketch.Block.Logic

open Recipe

def comparison : String → Operator
  | "NEQ" => ⟨"!=", .equality⟩
  | "LT" => ⟨"<", .relational⟩
  | "LTE" => ⟨"<=", .relational⟩
  | "GT" => ⟨">", .relational⟩
  | "GTE" => ⟨">=", .relational⟩
  | _ => ⟨"==", .equality⟩

def connective : String → Operator
  | "OR" => ⟨"||", .disjunction⟩
  | _ => ⟨"&&", .conjunction⟩

def truth (n : Node) : Expression :=
  .atomic (if n.fieldD "BOOL" "FALSE" = "TRUE" then "true" else "false")

def negate (n : Node) : Recipe Expression := do
  let arg ← socket n "BOOL" .unary "false"
  return ⟨"!" ++ arg, .unary⟩

def choose (n : Node) : Recipe Expression := do
  let condition ← socket n "IF" .conditional "false"
  let yes ← socket n "THEN" .conditional "NULL"
  let no ← socket n "ELSE" .conditional "NULL"
  return ⟨s!"{condition} ? {yes} : {no}", .conditional⟩

def blocks : List Block :=
  [typed "logic_boolean" .boolean fun _ n => return truth n,
    typed "logic_compare" .boolean fun _ n => (comparison (n.fieldD "OP" "EQ")).recipe n "0",
    typed "logic_operation" .boolean fun _ n => (connective (n.fieldD "OP" "AND")).recipe n "false",
    typed "logic_negate" .boolean fun _ n => negate n,
    value "logic_null" fun _ _ => return .atomic "NULL",
    value "logic_ternary" fun _ n => choose n]

end BlockSketch.Block.Logic
