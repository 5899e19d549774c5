import BlockSketch.Block.Variables

/-!
Blocks for arrays. An index counts from one in a block and from zero in a sketch.
-/

namespace BlockSketch.Block.Arrays

open Recipe

def elementType (n : Node) : DataType := .ofTag (n.fieldD "type" "NUMBER")

def list (n : Node) : Recipe Expression := do
  let items ← indexedSockets n "ADD" (countSockets n "ADD") .comma "0"
  return .atomic (braced (", ".intercalate items))

/-! ### Extents -/

def split (c : Char) : List Char → List (List Char)
  | [] => [[]]
  | d :: rest =>
      if d = c then [] :: split c rest
      else
        match split c rest with
        | [] => [[d]]
        | part :: parts => (d :: part) :: parts

/-- The numbers of rows and columns of a list of lists. The columns are counted in the first row. -/
def extents (content : String) : Nat × Nat :=
  match split '\x7b' content.toList with
  | _ :: _ :: row :: rest =>
      (rest.length + 1, (split ',' ((split '\x7d' row).headD [])).length)
  | _ => (0, 0)

/-- The brackets behind the name of an array, and its content if the user gives one. -/
def dimensions (n : Node) (content : String) : String :=
  match n.fieldD "choix" "c1" == "c2", n.fieldD "dim" "d1" == "d2" with
  | true, true =>
      let (rows, columns) := extents content
      s!"[{rows}][{columns}] = {content}"
  | true, false => s!"[] = {content}"
  | false, true => s!"[{content}][{content}]"
  | false, false => s!"[{content}]"

def declare (n : Node) : Recipe String := do
  let content ← socket n "contenu" .assignment ""
  let name ← variableName (n.fieldD "VAR" "")
  put .globals name s!"{(elementType n).declaration} {name}{dimensions n content};"
  return ""

/-! ### Elements -/

/-- An index as it stands in a sketch. Only a plain number can be made to count from zero. -/
def shifted (index : String) : String :=
  match plainNumber? index with
  | some x => x.pred.text
  | none => index

def element (n : Node) : Recipe Expression := do
  let index ← socket n "AT" .loosest "1"
  let array ← socket n "VAR" .member "\x7b\x7d"
  return .atomic s!"{array}[{shifted index}]"

def setElement (n : Node) : Recipe String := do
  let index ← socket n "indice" .atomic "0"
  let array ← socket n "name" .atomic ""
  let x ← socket n "value" .atomic "0"
  return s!"{array}[{index}] = {x};\n"

def elementTyping (p : Program) (n : Node) : DeclaredType :=
  match (n.child? "VAR").bind (fun id => (p.find? id).bind Variables.variableRead?) with
  | some name => .elementOf name
  | none => .known .null

def blocks : List Block :=
  [value "array_create_with" fun _ n => list n,
    (statement "array_declare" fun _ n => declare n).withMentions
      fun _ n => mentionOf n (fun name => .array name (elementType n)),
    (value "array_getIndex" fun _ n => element n).withTyping elementTyping,
    statement "array_modify" fun _ n => setElement n]

end BlockSketch.Block.Arrays
