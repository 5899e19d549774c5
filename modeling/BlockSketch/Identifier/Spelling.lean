import BlockSketch.Text.Numeral

/-!
The identifier that a user's name is spelled as. Letters, digits and underscores stay, most other
characters of ASCII become an underscore, and the rest is spelled out byte by byte.
-/

namespace BlockSketch.Identifier

def isWordChar (c : Char) : Bool :=
  ('a' ≤ c && c ≤ 'z') || ('A' ≤ c && c ≤ 'Z') || ('0' ≤ c && c ≤ '9') || c == '_'

def isWord (s : String) : Bool := !s.isEmpty && s.toList.all isWordChar

/-- The characters of ASCII that are spelled out: those that a web address has to escape, the space
apart. -/
def isSpelledOut (c : Char) : Bool :=
  ['"', '%', '<', '>', '[', '\\', ']', '^', '`', '\x7b', '|', '\x7d'].contains c ||
    c.toNat < 0x20 || c.toNat = 0x7F

def hexDigit (n : Nat) : Char := if n < 10 then Char.ofNat (n + 48) else Char.ofNat (n + 55)

def spellByte (b : UInt8) : List Char :=
  ['_', hexDigit (b.toNat / 16), hexDigit (b.toNat % 16)]

def spellChar (c : Char) : List Char :=
  if isWordChar c then [c]
  else if c.toNat < 0x80 && !isSpelledOut c then ['_']
  else (String.utf8EncodeChar c).flatMap spellByte

/-- The spelling of a name. It never starts with a digit and is never empty. -/
def spellChars (cs : List Char) : List Char :=
  match cs.flatMap spellChar with
  | [] => "unnamed".toList
  | c :: rest => if Text.isDigit c then "my_".toList ++ c :: rest else c :: rest

def spell (name : String) : String := String.ofList (spellChars name.toList)

end BlockSketch.Identifier
