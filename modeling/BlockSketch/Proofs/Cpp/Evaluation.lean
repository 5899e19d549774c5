import BlockSketch.Proofs.Cpp.Grammar
import BlockSketch.Proofs.Text.Numeral

/-!
The values of expressions, over whole numbers without a bound. Truth values are zero and one.
Variables, the elements of arrays and the results of functions have the values that an environment
gives them. Parentheses do not count.
-/

namespace BlockSketch.Cpp

structure Env where
  /-- The value of a variable. -/
  word : String → Int
  /-- An element of an array, counted from zero. -/
  element : String → Int → Int
  /-- The result of a function, if it has one for the arguments. -/
  call : String → List Int → Option Int

/-- The value of a word. A numeral has one only if it is spelled without zeros in front, which would
change its base. -/
def Env.leaf (env : Env) (text : String) : Option Int :=
  if text = "true" then some 1
  else if text = "false" ∨ text = "NULL" then some 0
  else
    match Text.readDigits? text.toList with
    | some m => if toString m = text then some m else none
    | none => if text.toList.head?.any Text.isDigit then none else some (env.word text)

def truth (p : Prop) [Decidable p] : Int := if p then 1 else 0

def signed? (sign : String) (x : Int) : Option Int :=
  match sign with
  | "-" => some (-x)
  | "!" => some (truth (x = 0))
  | _ => none

/-- The value of a sign between two operands that are both evaluated. Quotients go towards zero. -/
def combined? (sign : String) (x y : Int) : Option Int :=
  match sign with
  | "+" => some (x + y)
  | "-" => some (x - y)
  | "*" => some (x * y)
  | "/" => if y = 0 then none else some (x.tdiv y)
  | "%" => if y = 0 then none else some (x.tmod y)
  | "==" => some (truth (x = y))
  | "!=" => some (truth (x ≠ y))
  | "<" => some (truth (x < y))
  | "<=" => some (truth (x ≤ y))
  | ">" => some (truth (y < x))
  | ">=" => some (truth (y ≤ x))
  | _ => none

/-- The value of a sign between two operands. A connective evaluates the second one only if the
first one does not decide. -/
def joined? (sign : String) (x : Int) (y : Option Int) : Option Int :=
  match sign with
  | "&&" => if x = 0 then some 0 else y.map fun y => truth (y ≠ 0)
  | "||" => if x = 0 then y.map fun y => truth (y ≠ 0) else some 1
  | _ => y.bind (combined? sign x)

def only? : List Int → Option Int
  | [x] => some x
  | _ => none

def Expr.word? : Expr → Option String
  | leaf text => some text
  | paren e => e.word?
  | _ => none

def Expr.values (env : Env) : Expr → Option (List Int)
  | leaf text => (env.leaf text).map ([·])
  | paren e => e.values env
  | invoke f => (f.word?.bind fun name => env.call name []).map ([·])
  | call f args =>
      (f.word?.bind fun name => (args.values env).bind (env.call name)).map ([·])
  | index a i =>
      (a.word?.bind fun name => ((i.values env).bind only?).map (env.element name)).map ([·])
  | unary sign e => (((e.values env).bind only?).bind (signed? sign)).map ([·])
  | binary sign a b =>
      if sign = "," then (a.values env).bind fun xs => (b.values env).map (xs ++ ·)
      else (((a.values env).bind only?).bind fun x =>
        joined? sign x ((b.values env).bind only?)).map ([·])
  | cond c a b =>
      ((c.values env).bind only?).bind fun x => if x = 0 then b.values env else a.values env

def Expr.value (env : Env) (e : Expr) : Option Int := (e.values env).bind only?

namespace Expr

theorem word?_erase (e : Expr) : e.erase.word? = e.word? := by
  induction e with
  | paren e ih => exact ih
  | _ => rfl

theorem values_erase (env : Env) (e : Expr) : e.erase.values env = e.values env := by
  induction e with
  | leaf text => rfl
  | paren e ih => exact ih
  | invoke f _ => rw [erase, values, values, word?_erase]
  | call f args _ ih => rw [erase, values, values, word?_erase, ih]
  | index a i _ ih => rw [erase, values, values, word?_erase, ih]
  | unary sign e ih => rw [erase, values, values, ih]
  | binary sign a b iha ihb => rw [erase, values, values, iha, ihb]
  | cond c a b ihc iha ihb => rw [erase, values, values, ihc, iha, ihb]

/-- Parentheses do not count. -/
theorem value_erase (env : Env) (e : Expr) : e.erase.value env = e.value env := by
  rw [value, value, values_erase]

theorem value_leaf (env : Env) (text : String) : (leaf text).value env = env.leaf text := by
  rw [value, values]
  cases env.leaf text <;> rfl

theorem value_unary (env : Env) (sign : String) (e : Expr) :
    (unary sign e).value env = (e.value env).bind (signed? sign) := by
  rw [value, values, ← value]
  cases (e.value env).bind (signed? sign) <;> rfl

end Expr

end BlockSketch.Cpp
