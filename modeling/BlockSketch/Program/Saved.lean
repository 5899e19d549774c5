import BlockSketch.Json.Writer
import BlockSketch.Program.Basic

/-!
The saved form of a program: a JSON object in which every part has its fixed place and parts that
are empty or absent are left out. Equal programs have equal texts.
-/

namespace BlockSketch

def Json.entryOf? {α : Type} (key : String) (write : α → Json) (part : Option α) :
    List (String × Json) :=
  (part.map (fun a => (key, write a))).toList

def Json.entriesOf? {α : Type} (key : String) (write : α → Json) (parts : List α) :
    List (String × Json) :=
  if parts.isEmpty then [] else [(key, .array (parts.map write))]

def NodeId.toJson (id : NodeId) : Json := .ofNat id.toNat

def Variant.tag : Variant → String
  | motorDriver .. => "motor_driver"
  | conditional .. => "if_else"
  | procedureDef .. => "procedure_def"
  | procedureCall .. => "procedure_call"

def Variant.toJson (v : Variant) : Json :=
  .object (("type", .text v.tag) :: settings v)
where
  /-- The settings of a variant. -/
  settings : Variant → List (String × Json)
    | .motorDriver motorCount aHasEnable bHasEnable =>
        [("motor_count", .ofNat motorCount.toNat), ("a_has_enable", .bool aHasEnable),
          ("b_has_enable", .bool bHasEnable)]
    | .conditional elseIfCount hasElse =>
        [("else_if_count", .ofNat elseIfCount.toNat), ("has_else", .bool hasElse)]
    | .procedureDef arguments => [("arguments", .ofTexts arguments)]
    | .procedureCall arguments => [("arguments", .ofTexts arguments)]

def ValueSocket.toJson (s : ValueSocket) : Json :=
  .object
    (("name", .text s.name) :: Json.entryOf? "check" (fun t : DataType => .text t.tag) s.check ++
      Json.entryOf? "child" NodeId.toJson s.child)

def StatementSocket.toJson (s : StatementSocket) : Json :=
  .object (("name", .text s.name) :: Json.entryOf? "head" NodeId.toJson s.head)

def Json.ofFields (m : SortedMap String String) : Json :=
  .object (m.toList.map (fun e => (e.1, .text e.2)))

def Node.toJson (n : Node) : Json :=
  .object
    ([("id", n.id.toJson), ("kind", .text n.kind)] ++
      (if n.fields.isEmpty then [] else [("fields", Json.ofFields n.fields)]) ++
      Json.entriesOf? "values" ValueSocket.toJson n.values ++
      Json.entriesOf? "statements" StatementSocket.toJson n.statements ++
      Json.entryOf? "next" NodeId.toJson n.next ++
      Json.entryOf? "comment" .text n.comment ++
      Json.entryOf? "variant" Variant.toJson n.variant)

def Program.toJson (p : Program) : Json :=
  .object
    [("variables", .ofTexts p.variableNames), ("top_level", .array (p.topLevel.map NodeId.toJson)),
      ("nodes", .array (p.nodes.map Node.toJson))]

def Program.save (p : Program) : String := p.toJson.compact

end BlockSketch
