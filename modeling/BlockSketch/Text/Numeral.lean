/-!
Whole numbers in decimal digits. Only the ten digits of ASCII count as digits; leading zeros are
allowed.
-/

namespace BlockSketch.Text

def isDigit (c : Char) : Bool := '0' ≤ c && c ≤ '9'

def digitsValue (cs : List Char) : Nat :=
  cs.foldl (fun n c => n * 10 + (c.toNat - '0'.toNat)) 0

def readDigits? (cs : List Char) : Option Nat :=
  if cs ≠ [] ∧ cs.all isDigit then some (digitsValue cs) else none

def readNat? : List Char → Option Nat
  | '+' :: cs => readDigits? cs
  | cs => readDigits? cs

def readInt? : List Char → Option Int
  | '-' :: cs => (readDigits? cs).map (fun n => -(n : Int))
  | cs => (readNat? cs).map (fun n => (n : Int))

def readWord? (s : String) : Option Nat := (readNat? s.toList).filter (· < 0x100000000)

def readLong? (s : String) : Option Int :=
  (readInt? s.toList).filter (fun n => -0x8000000000000000 ≤ n ∧ n < 0x8000000000000000)

end BlockSketch.Text
