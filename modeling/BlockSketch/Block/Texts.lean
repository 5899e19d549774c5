import BlockSketch.Block.Basic

/-!
Blocks for texts. Operands are turned into texts first, so that numbers can be joined too.
-/

namespace BlockSketch.Block.Texts

open Recipe

/-- The text of a value. An absent value is the empty text. -/
def asText (code : String) : String := if code.isEmpty then "\"\"" else s!"String({code})"

def join (n : Node) : Recipe Expression := do
  let count := countSockets n "ADD"
  let parts ← indexedSockets n "ADD" count .loosest ""
  if count = 0 then return .atomic "\"\""
  else return ⟨" + ".intercalate (parts.map asText), if count = 1 then .call else .additive⟩

def length (n : Node) : Recipe Expression := do
  let arg ← socket n "VALUE" .loosest "\"\""
  return ⟨s!"String({arg}).length()", .call⟩

def emptyTest (name : String) : String :=
  s!"boolean {name}(String msg) \x7b\n  return msg.length() == 0;\n\x7d"

def isEmpty (n : Node) : Recipe Expression := do
  let name ← helper "textIsEmpty" emptyTest
  let arg := asText (← socket n "VALUE" .loosest "")
  return ⟨s!"{name}({arg})", .call⟩

def append (n : Node) : Recipe String := do
  let name ← variableName (n.fieldD "VAR" "")
  let arg := asText (← socket n "TEXT" .loosest "")
  return s!"{name} += {arg};\n"

def trim (n : Node) : Recipe Expression := do
  let arg := asText (← socket n "TEXT" .loosest "")
  return ⟨s!"{arg}.trim()", .call⟩

def blocks : List Block :=
  [typed "text" .text fun _ n => return .atomic (Text.quote (n.fieldD "TEXT" "")),
    typed "text_join" .text fun _ n => join n,
    typed "text_length" .number fun _ n => length n,
    typed "text_isEmpty" .boolean fun _ n => isEmpty n,
    (statement "text_append" fun _ n => append n).withMentions
      fun _ n => mentionOf n (fun name => ⟨name, .known .text, none⟩),
    typed "text_trim" .text fun _ n => trim n]

end BlockSketch.Block.Texts
