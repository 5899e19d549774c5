import BlockSketch.Block.Basic

/-!
Blocks for variables. A declaration with a type takes the place of the one that every variable of
the program has; an assignment leaves that one alone.
-/

namespace BlockSketch.Block.Variables

open Recipe

def readKind : String := "variables_get"

def variableRead? (n : Node) : Option String := if n.kind = readKind then n.field? "VAR" else none

def chosenType (n : Node) : DataType := .ofTag (n.fieldD "VARIABLE_SETTYPE_TYPE" "NUMBER")

def read (n : Node) : Recipe Expression := do
  return .atomic (← variableName (n.fieldD "VAR" ""))

def assign (n : Node) : Recipe String := do
  let x ← socket n "VALUE" .assignment "0"
  let name ← variableName (n.fieldD "VAR" "")
  return s!"{name} = {x};\n"

def convert (n : Node) : Recipe Expression := do
  let x ← socket n "VARIABLE_SETTYPE_INPUT" .assignment "0"
  return .atomic s!"({(chosenType n).declaration})({x})"

def declare (n : Node) (words : String) : Recipe String := do
  let x ← socket n "VALUE" .assignment "0"
  let name ← variableName (n.fieldD "VAR" "")
  put .globals name s!"{words} {name} = {x};"
  return ""

def mentionsValue (probe : Probe) (n : Node) : List Mention :=
  mentionOf n (fun name => ⟨name, probe.childType n, none⟩)

def blocks : List Block :=
  [(value readKind fun _ n => read n).withTyping fun _ n => .sameAs (n.fieldD "VAR" ""),
    (statement "variables_set" fun _ n => assign n).withMentions mentionsValue,
    (value "variables_set_type" fun _ n => convert n).withTyping fun _ n => .known (chosenType n),
    (statement "variables_const" fun _ n => declare n "const auto").withMentions mentionsValue,
    (statement "variables_set_init" fun _ n => declare n (chosenType n).declaration).withMentions
      fun _ n => mentionOf n (fun name => ⟨name, .known (chosenType n), none⟩)]

end BlockSketch.Block.Variables
