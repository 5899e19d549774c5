import BlockSketch.Number.Decimal

/-!
Double precision numbers, exactly. Every finite double is a whole number of units of `2 ^ -1074`,
so comparing doubles is comparing whole numbers, and arithmetic is exact arithmetic followed by
rounding to 53 significant bits, to nearest with ties to even.
-/

namespace BlockSketch

/-- A double that is not a NaN. The two zeros are one value here. -/
inductive Double where
  | finite (units : Int)
  | infinite (negative : Bool)
  deriving DecidableEq, Repr

namespace Double

def one : Nat := Nat.pow 2 1074

def overflow : Nat := Nat.pow 2 2098

/-- The nearest whole number to a quotient, a tie going to the even neighbour. -/
def roundDiv (num den : Nat) : Nat :=
  let q := num / den
  let r := num % den
  if 2 * r < den then q else if den < 2 * r then q + 1 else q + q % 2

def spacing (units : Nat) : Nat := Nat.pow 2 (Nat.log2 units + 1 - 53)

def round (negative : Bool) (num den : Nat) : Double :=
  let step := spacing (num / den)
  let units := roundDiv num (den * step) * step
  if overflow ≤ units then .infinite negative
  else .finite (if negative then -(units : Int) else units)

def nearest (n : Nat) : Double := round false (n * one) 1

def mulAbs : Double → Double → Double
  | .finite u, .finite v => round false (u.natAbs * v.natAbs) one
  | _, _ => .infinite false

/-- The product of two whole numbers, with both of them rounded before it is taken, and itself
rounded. -/
def ofProduct (m n : Nat) : Double := mulAbs (nearest m) (nearest n)

def ofDecimal (d : Decimal) : Double :=
  let order := (Nat.toDigits 10 d.digits).length + d.exponent
  if d.digits = 0 ∨ order < -400 then .finite 0
  else if 400 < order then .infinite d.negative
  else if d.exponent < 0 then round d.negative (d.digits * one) (Nat.pow 10 d.exponent.natAbs)
  else round d.negative (d.digits * Nat.pow 10 d.exponent.natAbs * one) 1

def read? (s : String) : Option Double := (Decimal.read? s).map ofDecimal

def isFinite : Double → Bool
  | .finite _ => true
  | .infinite _ => false

def pred : Double → Double
  | .finite u =>
      let exact := u - one
      round (decide (exact < 0)) exact.natAbs 1
  | .infinite negative => .infinite negative

def abs : Double → Double
  | .finite u => .finite u.natAbs
  | .infinite _ => .infinite false

def le : Double → Double → Bool
  | .finite u, .finite v => u ≤ v
  | .infinite negative, .finite _ => negative
  | .finite _, .infinite negative => !negative
  | .infinite a, .infinite b => a || !b

def ofNat (n : Nat) : Double := .finite (n * one : Nat)

def toInt? : Double → Option Int
  | .finite u => if u % one = 0 then some (u / one) else none
  | .infinite _ => none

end Double

end BlockSketch
