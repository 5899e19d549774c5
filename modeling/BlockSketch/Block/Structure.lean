import BlockSketch.Block.Basic

/-!
Blocks for the structure of a sketch: the two main functions, definitions, and text that is taken as
it is.
-/

namespace BlockSketch.Block.Structure

open Recipe

def putUserCode (sec : Section) (key code : String) : Recipe Unit :=
  if code.isEmpty then pure () else put sec key code

def setupLoop (n : Node) : Recipe String := do
  putUserCode .setups Sections.userSetupKey (← statements (n.head? "SETUP_FUNC"))
  putUserCode .loops Sections.userLoopKey (← statements (n.head? "LOOP_FUNC"))
  return ""

/-- Code that runs once. Each such block has a place of its own. -/
def setup (n : Node) : Recipe String := do
  put .setups s!"base_setup_{n.id.toNat}" (← statements (n.head? "DO"))
  return ""

def loop (n : Node) : Recipe String := do
  putUserCode .loops Sections.userLoopKey (← statements (n.head? "LOOP_FUNC"))
  return ""

def globalCode (n : Node) : Recipe String := do
  put .globals s!"base_define_bloc_{n.id.toNat}" (← statements (n.head? "DO"))
  return ""

def define (w : Workspace) (n : Node) : Recipe String := do
  let name ← requiredSocket n "NAME" .atomic "unnamed"
  let pin := n.fieldD "PIN" w.profile.builtinLed
  offer .includes name s!"#define {name} {pin}"
  return ""

def blocks : List Block :=
  [statement "base_setup_loop" fun _ n => setupLoop n,
    statement "base_setup" fun _ n => setup n,
    statement "base_loop" fun _ n => loop n,
    statement "base_define_bloc" fun _ n => globalCode n,
    statement "base_define" define,
    value "base_define_name" fun _ n => return .atomic (n.fieldD "NAME" ""),
    value "pinmode" fun _ n => return .atomic (n.fieldD "PINMODE" "INPUT"),
    statement "base_code" fun _ n => return n.fieldD "TEXT" "" ++ "\n",
    statement "base_comment" fun _ n => return "// " ++ n.fieldD "TEXT" "" ++ "\n",
    statement "base_end" fun _ _ => return "while(true);\n"]

end BlockSketch.Block.Structure
