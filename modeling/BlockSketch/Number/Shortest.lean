import BlockSketch.Number.Double

/-!
The text of a double: the fewest digits that read back as it, and of those the nearest, written in
positional notation.
-/

namespace BlockSketch.Double

structure Shortest where
  digits : Nat
  exponent : Int
  deriving DecidableEq, Repr

structure Interval where
  low : Nat
  high : Nat
  closed : Bool

/-- The interval of a positive magnitude. Below a power of two the spacing halves, so there the
interval reaches only half as far down. -/
def interval (units : Nat) : Interval :=
  let step := spacing units
  let mantissa := units / step
  let down := if mantissa = Nat.pow 2 52 ∧ 1 < step then step else 2 * step
  ⟨4 * units - down, 4 * units + 2 * step, mantissa % 2 = 0⟩

/-- A decimal number and a number of quarters as two whole numbers that compare the same way. -/
def scaled (digits : Nat) (exponent : Int) (quarters : Nat) : Nat × Nat :=
  if exponent < 0 then (digits * 4 * one, quarters * Nat.pow 10 exponent.natAbs)
  else (digits * Nat.pow 10 exponent.natAbs * 4 * one, quarters)

def Interval.holds (i : Interval) (digits : Nat) (exponent : Int) : Bool :=
  let (low, bottom) := scaled digits exponent i.low
  let (high, top) := scaled digits exponent i.high
  if i.closed then bottom ≤ low && high ≤ top else bottom < low && high < top

/-- The place of the first digit: a positive magnitude is at least `10 ^ (order - 1)` and less than
`10 ^ order`. -/
def order (units : Nat) : Int :=
  (Nat.toDigits 10 (units * Nat.pow 10 400 / one)).length - 400

/-- The better of the two neighbours of a magnitude on the grid of `count` digits; halfway between
them it is the upper one. -/
def onGrid? (units count : Nat) : Option Shortest :=
  let exponent := order units - count
  let below :=
    if exponent < 0 then units * Nat.pow 10 exponent.natAbs / one
    else units / (Nat.pow 10 exponent.natAbs * one)
  let range := interval units
  let (twice, middle) := scaled (2 * below + 1) exponent (8 * units)
  let nearBelow := middle < twice
  match range.holds below exponent, range.holds (below + 1) exponent with
  | true, true => some ⟨if nearBelow then below else below + 1, exponent⟩
  | true, false => some ⟨below, exponent⟩
  | false, true => some ⟨below + 1, exponent⟩
  | false, false => none

/-- The shortest decimal number that reads back as a positive magnitude. Seventeen digits always
suffice. -/
def shortest (units : Nat) : Shortest :=
  ((List.range 17).findSome? (fun i => onGrid? units (i + 1))).getD ⟨0, 0⟩

def dropZeros (cs : List Char) : List Char := (cs.reverse.dropWhile (· == '0')).reverse

def Shortest.positional (d : Shortest) : String :=
  let ds := Nat.toDigits 10 d.digits
  if 0 ≤ d.exponent then String.ofList (ds ++ List.replicate d.exponent.natAbs '0')
  else
    let places := d.exponent.natAbs
    let padded := List.replicate (places + 1 - ds.length) '0' ++ ds
    let whole := padded.take (padded.length - places)
    let fraction := dropZeros (padded.drop (padded.length - places))
    if fraction.isEmpty then String.ofList whole else String.ofList (whole ++ '.' :: fraction)

/-- The text of a double: a whole number below `10 ^ 15` as such, any other number by its shortest
digits. -/
def text (d : Double) : String :=
  match d with
  | .infinite negative => if negative then "-inf" else "inf"
  | .finite u =>
      match d.toInt? with
      | some n => if n.natAbs < 1000000000000000 then toString n else signed u
      | none => signed u
where
  /-- The shortest text with its sign. -/
  signed (u : Int) : String :=
    (if u < 0 then "-" else "") ++ (shortest u.natAbs).positional

end BlockSketch.Double
