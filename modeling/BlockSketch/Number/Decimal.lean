import BlockSketch.Text.Numeral

/-!
Decimal literals: an optional sign, digits with at most one point among or around them, and an
optional exponent.
-/

namespace BlockSketch

structure Decimal where
  negative : Bool
  digits : Nat
  exponent : Int
  deriving DecidableEq, Repr

namespace Decimal

open Text

/-- Read what may follow the digits: nothing, or an exponent. -/
def readExponent? : List Char → Option Int
  | [] => some 0
  | c :: cs => if c = 'e' ∨ c = 'E' then readInt? cs else none

/-- The parts of a literal that has no sign: the digits before the point, those behind it, and what
follows them. -/
def split (cs : List Char) : List Char × List Char × List Char :=
  let whole := cs.takeWhile isDigit
  match cs.dropWhile isDigit with
  | '.' :: tail => (whole, tail.takeWhile isDigit, tail.dropWhile isDigit)
  | rest => (whole, [], rest)

def readUnsigned? (negative : Bool) (cs : List Char) : Option Decimal :=
  let (whole, fraction, rest) := split cs
  if whole.isEmpty ∧ fraction.isEmpty then none
  else
    (readExponent? rest).map fun e =>
      ⟨negative, digitsValue (whole ++ fraction), e - fraction.length⟩

def read? (s : String) : Option Decimal :=
  match s.toList with
  | '-' :: cs => readUnsigned? true cs
  | '+' :: cs => readUnsigned? false cs
  | cs => readUnsigned? false cs

end Decimal

end BlockSketch
