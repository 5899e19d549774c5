import BlockSketch.Json.Basic
import BlockSketch.Json.Magnitude

/-!
The words, numbers and quoted texts of JSON, read from the front of a list of characters. What goes
wrong first decides the fault: the text may end too early, not be JSON, or be JSON of another shape
than the one asked for.
-/

namespace BlockSketch.Json

inductive Fault where
  /-- It is not JSON. -/
  | malformed
  /-- It is JSON up to here, but not of the shape asked for. -/
  | misshapen
  /-- It ends too early. -/
  | truncated
  deriving DecidableEq, Repr, Inhabited

abbrev Reader (α : Type) := List Char → Except Fault (α × List Char)

def isBlankChar (c : Char) : Bool := c == ' ' || c == '\n' || c == '\t' || c == '\r'

def skipBlanks (cs : List Char) : List Char := cs.dropWhile isBlankChar

def expect : List Char → List Char → Except Fault (List Char)
  | [], cs => .ok cs
  | _ :: _, [] => .error .truncated
  | w :: word, c :: cs => if w = c then expect word cs else .error .malformed

/-! ### Quoted texts -/

/-- What stands between the quotes of a text: characters, and code units given by number. -/
inductive Piece where
  | char (c : Char)
  | unit (n : Nat)
  deriving DecidableEq, Repr

def hexValue? (c : Char) : Option Nat :=
  if '0' ≤ c ∧ c ≤ '9' then some (c.toNat - 48)
  else if 'a' ≤ c ∧ c ≤ 'f' then some (c.toNat - 87)
  else if 'A' ≤ c ∧ c ≤ 'F' then some (c.toNat - 55)
  else none

def unitOf? (a b c d : Char) : Option Nat := do
  let a ← hexValue? a
  let b ← hexValue? b
  let c ← hexValue? c
  let d ← hexValue? d
  return ((a * 16 + b) * 16 + c) * 16 + d

def escaped? : Char → Option Char
  | '"' => some '"'
  | '\\' => some '\\'
  | '/' => some '/'
  | 'b' => some '\x08'
  | 'f' => some '\x0c'
  | 'n' => some '\n'
  | 'r' => some '\r'
  | 't' => some '\t'
  | _ => none

/-- The pieces of a quoted text up to where scanning ended, and either the text behind the closing
quote or the fault. -/
structure Scan where
  pieces : List Piece
  outcome : Except Fault (List Char)

def Scan.cons (p : Piece) (s : Scan) : Scan := { s with pieces := p :: s.pieces }

/-- Scan a quoted text from behind its opening quote. The four digits of a numbered unit are missing
if fewer than four bytes follow, and wrong otherwise. -/
def scanText : List Char → Scan
  | [] => ⟨[], .error .truncated⟩
  | '"' :: cs => ⟨[], .ok cs⟩
  | '\\' :: 'u' :: a :: b :: c :: d :: cs =>
      match unitOf? a b c d with
      | some n => (scanText cs).cons (.unit n)
      | none => ⟨[], .error .malformed⟩
  | '\\' :: 'u' :: cs =>
      ⟨[], .error (if (String.ofList cs).utf8ByteSize < 4 then .truncated else .malformed)⟩
  | '\\' :: e :: cs =>
      match escaped? e with
      | some c => (scanText cs).cons (.char c)
      | none => ⟨[], .error .malformed⟩
  | ['\\'] => ⟨[], .error .truncated⟩
  | c :: cs =>
      if c.toNat < 0x20 then ⟨[], .error .malformed⟩ else (scanText cs).cons (.char c)

def isLeading (n : Nat) : Bool := 0xD800 ≤ n && n ≤ 0xDBFF

def isTrailing (n : Nat) : Bool := 0xDC00 ≤ n && n ≤ 0xDFFF

def pairChar (n m : Nat) : Char := Char.ofNat ((n - 0xD800) * 0x400 + (m - 0xDC00) + 0x10000)

/-- The characters of scanned pieces, and the rest of the text. A leading code unit has to have a
trailing one behind it. -/
def joinPieces (outcome : Except Fault (List Char)) :
    List Piece → Except Fault (List Char × List Char)
  | [] => outcome.map (fun rest => ([], rest))
  | .char c :: ps => (joinPieces outcome ps).map (fun r => (c :: r.1, r.2))
  | .unit n :: ps =>
      if isTrailing n then .error .malformed
      else if isLeading n then
        match ps with
        | .unit m :: ps =>
            if isTrailing m then
              (joinPieces outcome ps).map (fun r => (pairChar n m :: r.1, r.2))
            else .error .malformed
        | .char _ :: _ => .error .malformed
        | [] =>
            match outcome with
            | .error f => .error f
            | .ok _ => .error .malformed
      else (joinPieces outcome ps).map (fun r => (Char.ofNat n :: r.1, r.2))

def readQuoted : Reader String := fun cs =>
  let s := scanText cs
  (joinPieces s.outcome s.pieces).map (fun r => (String.ofList r.1, r.2))

/-! ### Numbers -/

/-- Why no number can be read: the text ended inside it, or a character does not belong to it. -/
inductive NumberFault where
  | ended
  | wrong
  deriving DecidableEq, Repr

def scanDigits (cs : List Char) : Except NumberFault (List Char × List Char) :=
  match cs.takeWhile Text.isDigit with
  | [] => .error (if cs.isEmpty then .ended else .wrong)
  | ds => .ok (ds, cs.dropWhile Text.isDigit)

/-- The whole part of a number. It has no leading zero. -/
def scanWhole (cs : List Char) : Except NumberFault (List Char × List Char) := do
  let (ds, rest) ← scanDigits cs
  match ds with
  | '0' :: _ :: _ => .error .wrong
  | _ => .ok (ds, rest)

def scanFraction : List Char → Except NumberFault (List Char × List Char)
  | '.' :: cs => do
      let (ds, rest) ← scanDigits cs
      return ('.' :: ds, rest)
  | cs => .ok ([], cs)

def scanExponent : List Char → Except NumberFault (List Char × List Char)
  | [] => .ok ([], [])
  | c :: cs =>
      if c = 'e' ∨ c = 'E' then do
        let (sign, cs) := match cs with
          | '+' :: cs => (['+'], cs)
          | '-' :: cs => (['-'], cs)
          | cs => ([], cs)
        let (ds, rest) ← scanDigits cs
        return (c :: (sign ++ ds), rest)
      else .ok ([], c :: cs)

def scanNumber (cs : List Char) : Except NumberFault (List Char × List Char) := do
  let (sign, cs) := match cs with
    | '-' :: cs => (['-'], cs)
    | cs => ([], cs)
  let (whole, cs) ← scanWhole cs
  let (fraction, cs) ← scanFraction cs
  let (exponent, cs) ← scanExponent cs
  return (sign ++ whole ++ fraction ++ exponent, cs)

/-- Read a number, as it is spelled. A number that is too large is none. -/
def readNumber : Reader String := fun cs =>
  match scanNumber cs with
  | .error .ended => .error .truncated
  | .error .wrong => .error .malformed
  | .ok (ds, rest) =>
      if (Magnitude.ofLiteral ds).isTooLarge then .error .malformed
      else .ok (String.ofList ds, rest)

def startsNumber (c : Char) : Bool := c == '-' || Text.isDigit c

/-- The natural number that a literal spells, without sign, point or exponent. -/
def natural? (literal : String) : Option Nat := Text.readDigits? literal.toList

end BlockSketch.Json
