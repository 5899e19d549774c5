import BlockSketch.Json.Basic

/-!
JSON texts of values: a compact one without blanks, and one with an item to a line. Both keep the
order of entries, so equal values have equal texts.
-/

namespace BlockSketch.Json

/-! ### Texts -/

def lowerHexDigit (n : Nat) : Char := if n < 10 then Char.ofNat (n + 48) else Char.ofNat (n + 87)

/-- A character inside a quoted text. Only quote, backslash and the control characters of ASCII are
escaped. -/
def escape (c : Char) : List Char :=
  match c with
  | '"' => ['\\', '"']
  | '\\' => ['\\', '\\']
  | '\x08' => ['\\', 'b']
  | '\x0c' => ['\\', 'f']
  | '\n' => ['\\', 'n']
  | '\r' => ['\\', 'r']
  | '\t' => ['\\', 't']
  | c =>
      if c.toNat < 0x20 then
        ['\\', 'u', '0', '0', lowerHexDigit (c.toNat / 16), lowerHexDigit (c.toNat % 16)]
      else [c]

def quotedChars (cs : List Char) : List Char := '"' :: (cs.flatMap escape ++ ['"'])

def quoted (s : String) : String := String.ofList (quotedChars s.toList)

/-! ### Compact texts -/

mutual

def compact : Json → String
  | .null => "null"
  | .bool true => "true"
  | .bool false => "false"
  | .number literal => literal
  | .text s => quoted s
  | .array items => "[" ++ ",".intercalate (compactItems items) ++ "]"
  | .object entries => "\x7b" ++ ",".intercalate (compactEntries entries) ++ "\x7d"

def compactItems : List Json → List String
  | [] => []
  | v :: rest => compact v :: compactItems rest

def compactEntries : List (String × Json) → List String
  | [] => []
  | e :: rest => compactEntry e :: compactEntries rest

def compactEntry : String × Json → String
  | (key, v) => quoted key ++ ":" ++ compact v

end

/-! ### Texts with an item to a line -/

def newline (depth : Nat) : String := "\n" ++ String.ofList (List.replicate (2 * depth) ' ')

def spread (left right : String) (depth : Nat) : List String → String
  | [] => left ++ right
  | items =>
      left ++ newline (depth + 1) ++ ("," ++ newline (depth + 1)).intercalate items ++
        newline depth ++ right

mutual

def prettyAt (depth : Nat) : Json → String
  | .null => "null"
  | .bool true => "true"
  | .bool false => "false"
  | .number literal => literal
  | .text s => quoted s
  | .array items => spread "[" "]" depth (prettyItems (depth + 1) items)
  | .object entries => spread "\x7b" "\x7d" depth (prettyEntries (depth + 1) entries)

def prettyItems (depth : Nat) : List Json → List String
  | [] => []
  | v :: rest => prettyAt depth v :: prettyItems depth rest

def prettyEntries (depth : Nat) : List (String × Json) → List String
  | [] => []
  | e :: rest => prettyEntry depth e :: prettyEntries depth rest

def prettyEntry (depth : Nat) : String × Json → String
  | (key, v) => quoted key ++ ": " ++ prettyAt depth v

end

def pretty (v : Json) : String := prettyAt 0 v

end BlockSketch.Json
