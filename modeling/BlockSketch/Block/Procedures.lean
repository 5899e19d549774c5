import BlockSketch.Block.Variables
import BlockSketch.Emission.Comment

/-!
Blocks for the user's own procedures. The identifier of a procedure comes from its name, and the
arguments are variables.
-/

namespace BlockSketch.Block.Procedures

open Recipe

def arguments (n : Node) : List (String × DataType) :=
  match n.variant with
  | some (.procedureDef names) =>
      names.zipIdx.map (fun (name, i) => (name, .ofTag (n.fieldD s!"ARGTYPE{i}" "NUMBER")))
  | _ => []

/-- The type of the result: that of a variable that is returned as it is, else a number. -/
def resultType (w : Workspace) (n : Node) : DataType :=
  match (n.child? "RETURN").bind w.program.find? with
  | some result =>
      if result.kind = Variables.readKind then
        let t := w.types.get (result.fieldD "VAR" "")
        if t.isPlaceholder then .number else t
      else .number
  | none => .number

def parameter (arg : String × DataType) : Recipe String := do
  let name ← variableName arg.1
  return s!"{arg.2.declaration} {name}"

def nameOf (n : Node) : Recipe String := procedureName (n.fieldD "NAME" "unnamed")

def define (w : Workspace) (n : Node) (result : Recipe String) : Recipe String := do
  let name ← nameOf n
  let code ← body n "STACK"
  let returned ← result
  let parameters ← (arguments n).mapM parameter
  let type := if returned.isEmpty then "void" else (resultType w n).declaration
  let last := if returned.isEmpty then "" else s!"  return {returned};\n"
  let heading := type ++ " " ++ name ++ "(" ++ ", ".intercalate parameters ++ ")"
  put .functions ("%" ++ name) (commentText n.comment ++ withBody heading (code ++ last))
  return ""

def argumentCount (n : Node) : Nat :=
  match n.variant with
  | some (.procedureCall names) => names.length
  | _ => countSockets n "ARG"

def call (n : Node) : Recipe String := do
  let name ← nameOf n
  let args ← (List.range (argumentCount n)).mapM (fun i => requiredSocket n s!"ARG{i}" .comma "0")
  return name ++ "(" ++ ", ".intercalate args ++ ")"

def returnText (n : Node) : Recipe String := do
  if n.fieldD "HAS_RETURN" "FALSE" = "TRUE" then
    let result ← socket n "VALUE" .loosest "0"
    return s!"  return {result};\n"
  else return "  return;\n"

def returnIf (n : Node) : Recipe String := do
  let condition ← socket n "CONDITION" .loosest "false"
  return withBody s!"if ({condition})" (← returnText n) ++ "\n"

def mentionsArguments (_ : Probe) (n : Node) : List Mention :=
  (arguments n).map (fun arg => ⟨arg.1, .known arg.2, none⟩)

def blocks : List Block :=
  [(statement "procedures_defnoreturn" fun w n => define w n (pure "")).withMentions
      mentionsArguments,
    (statement "procedures_defreturn" fun w n =>
      define w n (socket n "RETURN" .loosest "")).withMentions mentionsArguments,
    statement "procedures_callnoreturn" fun _ n => return (← call n) ++ ";\n",
    value "procedures_callreturn" fun _ n => return ⟨← call n, .call⟩,
    statement "procedures_ifreturn" fun _ n => returnIf n]

end BlockSketch.Block.Procedures
