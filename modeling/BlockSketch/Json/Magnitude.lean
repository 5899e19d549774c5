import BlockSketch.Number.Double

/-!
How large a number in a JSON text is taken to be. Its digits go into a significand of 64 bits while
they fit, and those left over count by their place only. The significand and the power of ten that
goes with it are rounded to doubles before they are multiplied. So the largest numbers that can be
read depend on how they are spelled.
-/

namespace BlockSketch.Json

structure Magnitude where
  significand : Nat
  exponent : Int
  deriving DecidableEq, Repr

namespace Magnitude

def maxSignificand : Nat := 0xFFFFFFFFFFFFFFFF

/-- Append digits to a significand while they fit. The second part is what is left of them. -/
def absorb (s : Nat) : List Char → Nat × List Char
  | [] => (s, [])
  | d :: ds =>
      let longer := s * 10 + (d.toNat - '0'.toNat)
      if longer ≤ maxSignificand then absorb longer ds else (s, d :: ds)

/-- The number with given digits before and behind the point. A digit before the point that is left
over multiplies by ten, and one behind the point that is taken divides by it. -/
def ofDigits (whole fraction : List Char) (exponent : Int) : Magnitude :=
  let (s, excess) := absorb 0 whole
  let (s, unused) := absorb s fraction
  ⟨s, exponent + excess.length - (fraction.length - unused.length : Nat)⟩

def ofLiteral (cs : List Char) : Magnitude :=
  let (whole, fraction, rest) := Decimal.split (cs.dropWhile (· == '-'))
  ofDigits whole fraction ((Decimal.readExponent? rest).getD 0)

def maxExponent : Int := 308

def isTooLarge (m : Magnitude) : Bool :=
  if m.exponent < 0 then false
  else if maxExponent < m.exponent then m.significand != 0
  else !(Double.ofProduct m.significand (Nat.pow 10 m.exponent.toNat)).isFinite

end Magnitude

end BlockSketch.Json
