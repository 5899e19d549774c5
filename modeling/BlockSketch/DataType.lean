import BlockSketch.Text.Numeral

/-!
The types that values and variables have in a sketch: their tags in program files, their spelling in
a sketch, and which types one accepts in an assignment. The type of a number is read off its text.
-/

namespace BlockSketch

/-- The type of a value. `null` is no type, `undefined` a type that is not known yet, and
`missing` the type of an empty socket. -/
inductive DataType where
  | constNumber
  | character
  | text
  | boolean
  | shortNumber
  | number
  | unsignedNumber
  | volatileNumber
  | largeNumber
  | unsignedLargeNumber
  | decimal
  | array
  | null
  | undefined
  | missing
  deriving DecidableEq, Repr, Inhabited

namespace DataType

def all : List DataType :=
  [constNumber, character, text, boolean, shortNumber, number, unsignedNumber, volatileNumber,
    largeNumber, unsignedLargeNumber, decimal, array, null, undefined, missing]

def tag : DataType → String
  | constNumber => "CONST_NUMBER"
  | character => "CHARACTER"
  | text => "TEXT"
  | boolean => "BOOLEAN"
  | shortNumber => "SHORT_NUMBER"
  | number => "NUMBER"
  | unsignedNumber => "UNS_NUMBER"
  | volatileNumber => "VOLATIL_NUMBER"
  | largeNumber => "LARGE_NUMBER"
  | unsignedLargeNumber => "LARGE_UNS_NUMBER"
  | decimal => "DECIMAL"
  | array => "ARRAY"
  | null => "NULL"
  | undefined => "UNDEF"
  | missing => "CHILD_BLOCK_MISSING"

/-- The type with a tag. An unknown tag stands for no type. -/
def ofTag (s : String) : DataType := (all.find? (fun t => t.tag = s)).getD null

theorem ofTag_tag (t : DataType) : ofTag t.tag = t := by cases t <;> decide

def spelling : DataType → String
  | constNumber => "const int"
  | character => "char"
  | text => "String"
  | boolean => "boolean"
  | shortNumber => "char"
  | number => "int"
  | unsignedNumber => "unsigned int"
  | volatileNumber => "volatile int"
  | largeNumber => "long"
  | unsignedLargeNumber => "unsigned long"
  | decimal => "float"
  | array => "array"
  | null => "void"
  | undefined => "undefined"
  | missing => "int"

/-- The spelling of a type where a variable is declared: one that says nothing about storage becomes
`int`. -/
def declaration : DataType → String
  | null | undefined | array => "int"
  | t => t.spelling

def displayName : DataType → String
  | constNumber => "NUMBER"
  | character => "CHAR"
  | text => "TEXT"
  | boolean => "BOOL"
  | shortNumber => "SHORT"
  | number => "NUMBER"
  | unsignedNumber => "UNS_NUMBER"
  | volatileNumber => "VOLATILE"
  | largeNumber => "LONG"
  | unsignedLargeNumber => "UNS_LONG"
  | decimal => "DECIMAL"
  | array => "ARRAY"
  | null => "NULL"
  | undefined => "UNDEF"
  | missing => "CHILDBLOCKMISSING"

def accepted : DataType → List DataType
  | text => [character]
  | unsignedNumber => [boolean, shortNumber, number, decimal]
  | unsignedLargeNumber => [boolean, shortNumber, unsignedNumber, number, largeNumber, decimal]
  | number | constNumber => [boolean, shortNumber, largeNumber, decimal]
  | shortNumber => [boolean, number, decimal]
  | largeNumber => [boolean, shortNumber, unsignedNumber, number, decimal]
  | volatileNumber => [shortNumber, largeNumber, unsignedNumber, number]
  | decimal => [boolean, shortNumber, number, largeNumber]
  | character | boolean | array | null | undefined | missing => []

def accepts (t u : DataType) : Bool := t.accepted.contains u

def isPlaceholder : DataType → Bool
  | null | undefined | missing => true
  | _ => false

def declarable : List DataType := all.filter (fun t => !t.isPlaceholder && t ≠ array)

open Text in
def ofUnsigned (negative : Bool) (cs : List Char) : DataType :=
  match readDigits? cs with
  | some n =>
      if n ≤ (if negative then 32768 else 32767) then number else largeNumber
  | none =>
      match cs.dropWhile isDigit with
      | '.' :: fraction => if (readDigits? fraction).isSome then decimal else null
      | _ => null

/-- The type of a number literal. A whole number that 16 bits hold is a `number`, any other whole
number is large, a number with a decimal point is a `decimal`, and any other text has no type. -/
def ofLiteral (s : String) : DataType :=
  match s.toList with
  | '-' :: cs => ofUnsigned true cs
  | cs => ofUnsigned false cs

end DataType

end BlockSketch
