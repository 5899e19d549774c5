/-!
JSON values. A number keeps its spelling, since `1` and `1.0` are different where a whole number is
asked for; an object keeps the order of its entries.
-/

namespace BlockSketch

inductive Json where
  | null
  | bool (b : Bool)
  | number (literal : String)
  | text (s : String)
  | array (items : List Json)
  | object (entries : List (String × Json))
  deriving Repr, Inhabited

namespace Json

def ofNat (n : Nat) : Json := .number (toString n)

def ofText? : Option String → Json
  | some s => .text s
  | none => .null

def ofTexts (l : List String) : Json := .array (l.map .text)

def get? : Json → String → Option Json
  | .object entries, key => entries.lookup key
  | _, _ => none

/-- The items of an array; any other value has none. -/
def items : Json → List Json
  | .array l => l
  | _ => []

def text? : Json → Option String
  | .text s => some s
  | _ => none

end Json

end BlockSketch
