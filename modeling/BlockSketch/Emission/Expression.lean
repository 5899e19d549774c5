/-!
Expressions of a sketch. An expression carries the level of its outermost operator, and is put into
parentheses where the place it goes to asks for a tighter one.
-/

namespace BlockSketch

/-- How tightly an operator binds. A lower level binds tighter. -/
structure Precedence where
  level : Nat
  deriving DecidableEq, Repr, Inhabited

namespace Precedence

def atomic : Precedence := ⟨0⟩

def call : Precedence := ⟨1⟩

def unary : Precedence := ⟨2⟩

def multiplicative : Precedence := ⟨3⟩

def additive : Precedence := ⟨4⟩

def relational : Precedence := ⟨6⟩

def equality : Precedence := ⟨7⟩

def conjunction : Precedence := ⟨11⟩

def disjunction : Precedence := ⟨12⟩

def conditional : Precedence := ⟨13⟩

def assignment : Precedence := ⟨14⟩

def comma : Precedence := ⟨15⟩

def member : Precedence := ⟨17⟩

def loosest : Precedence := ⟨99⟩

end Precedence

/-- An expression: its text and the level of its outermost operator. -/
structure Expression where
  text : String
  precedence : Precedence
  deriving DecidableEq, Repr, Inhabited

namespace Expression

def atomic (text : String) : Expression := ⟨text, .atomic⟩

/-- Whether an expression needs parentheses at a place that asks for a level. An operand with an
operator of the same level gets them too. -/
def needsParentheses (e : Expression) (required : Precedence) : Bool :=
  if e.text.isEmpty || e.precedence.level < required.level then false
  else !(e.precedence = required && (required = .atomic || required = .loosest))

def wrapped (e : Expression) (required : Precedence) : Expression :=
  if e.needsParentheses required then atomic ("(" ++ e.text ++ ")") else e

end Expression

inductive Code where
  | value (e : Expression)
  | statement (text : String)
  deriving DecidableEq, Repr, Inhabited

end BlockSketch
