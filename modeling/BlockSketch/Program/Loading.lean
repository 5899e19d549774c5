import BlockSketch.Json.Reader
import BlockSketch.Program.Basic

/-!
Reading saved programs. Records may be written as objects, with entries in any order, or as arrays
of their fields in order. Parts with a default may be missing, and entries with unknown keys are
skipped.
-/

namespace BlockSketch

open Json

/-! ### Variants -/

namespace Variant

def settingNames : String → Option (List String)
  | "motor_driver" => some ["motor_count", "a_has_enable", "b_has_enable"]
  | "if_else" => some ["else_if_count", "has_else"]
  | "procedure_def" => some ["arguments"]
  | "procedure_call" => some ["arguments"]
  | _ => none

def isTag (tag : String) : Bool := (settingNames tag).isSome

def naturalBelow? (bound : Nat) : Json → Option Nat
  | .number literal => (natural? literal).filter (· < bound)
  | _ => none

def boolean? : Json → Option Bool
  | .bool b => some b
  | _ => none

def texts? : Json → Option (List String)
  | .array items => items.mapM Json.text?
  | _ => none

/-- A setting, or its default if it is missing. It may be there once only. -/
def setting? {α : Type} (entries : List (String × Json)) (key : String) (read : Json → Option α)
    (fallback : α) : Option α :=
  match entries.filter (fun e => e.1 = key) with
  | [] => some fallback
  | [e] => read e.2
  | _ => none

def ofSettings? (tag : String) (entries : List (String × Json)) : Option Variant :=
  match tag with
  | "motor_driver" => do
      let motorCount ← setting? entries "motor_count" (naturalBelow? 256) 2
      let aHasEnable ← setting? entries "a_has_enable" boolean? true
      let bHasEnable ← setting? entries "b_has_enable" boolean? true
      return .motorDriver (.ofNat motorCount) aHasEnable bHasEnable
  | "if_else" => do
      let elseIfCount ← setting? entries "else_if_count" (naturalBelow? 0x100000000) 0
      let hasElse ← setting? entries "has_else" boolean? false
      return .conditional (.ofNat elseIfCount) hasElse
  | "procedure_def" => (setting? entries "arguments" texts? []).map .procedureDef
  | "procedure_call" => (setting? entries "arguments" texts? []).map .procedureCall
  | _ => none

/-- The variant with a tag and settings given in order. Those at the end may be missing. -/
def ofItems? (tag : String) (items : List Json) : Option Variant := do
  let names ← settingNames tag
  if items.length ≤ names.length then ofSettings? tag (names.zip items) else none

def ofJson? : Json → Option Variant
  | .object entries => do
      match entries.filter (fun e => e.1 = "type") with
      | [(_, .text tag)] => ofSettings? tag (entries.filter (fun e => e.1 ≠ "type"))
      | _ => none
  | .array (.text tag :: items) => ofItems? tag items
  | _ => none

/-- How deep arrays and objects may be nested in the settings of a variant. -/
def settingDepth : Nat := 123

def readTag : Reader String := fun cs => do
  let (tag, rest) ← readText cs
  if isTag tag then .ok (tag, rest) else .error .misshapen

/-- Read what follows a key in a variant. The tag has to be known when it is met, and comes once. -/
def entryStep (entries : List (String × Json)) (key : String) : Reader (List (String × Json)) :=
  fun cs =>
    if key = "type" then
      if entries.any (fun e => e.1 = "type") then .error .misshapen
      else do
        let rest ← readColon cs
        let (tag, rest) ← readTag rest
        .ok (entries ++ [(key, .text tag)], rest)
    else do
      let rest ← readColon cs
      let (v, rest) ← readValue settingDepth rest
      .ok (entries ++ [(key, v)], rest)

/-- Read the settings of a variant written as an array, from behind its tag. -/
def readSettings : Reader (List Json) := fun cs =>
  match skipBlanks cs with
  | [] => .error .truncated
  | ']' :: rest => .ok ([], rest)
  | ',' :: rest =>
      match skipBlanks rest with
      | [] => .error .truncated
      | ']' :: _ => .error .malformed
      | rest => readItems (readValue settingDepth) rest.length rest
  | _ => .error .malformed

def orMisshapen (v : Option Variant) (rest : List Char) : Except Fault (Variant × List Char) :=
  match v with
  | some v => .ok (v, rest)
  | none => .error .misshapen

/-- Read a variant. All of it is read before its settings are looked at. -/
def read : Reader Variant := fun cs =>
  match skipBlanks cs with
  | '\x7b' :: rest => do
      let (entries, rest) ← readObject entryStep [] rest
      orMisshapen (ofJson? (.object entries)) rest
  | '[' :: rest =>
      match skipBlanks rest with
      | ']' :: _ => .error .misshapen
      | rest => do
          let (tag, rest) ← readTag rest
          let (items, rest) ← readSettings rest
          orMisshapen (ofItems? tag items) rest
  | cs => .error (mismatch cs)

end Variant

/-! ### Nodes -/

def NodeId.read : Reader NodeId := fun cs =>
  (readNatural 0x100000000 cs).map (fun r => (⟨.ofNat r.1⟩, r.2))

def DataType.read : Reader DataType := fun cs => (readText cs).map (fun r => (.ofTag r.1, r.2))

/-- Read texts under keys. Of two texts under one key the later counts. -/
def readFields : Reader (SortedMap String String) := fun cs =>
  match skipBlanks cs with
  | '\x7b' :: rest => readObject step .empty rest
  | cs => .error (mismatch cs)
where
  /-- Read the text under a key. -/
  step (m : SortedMap String String) (key : String) : Reader (SortedMap String String) :=
    fun cs => do
      let rest ← readColon cs
      let (content, rest) ← readText rest
      .ok (m.insert key content, rest)

def Json.RecordField.of {σ α : Type} (name : String) (get : σ → Option α) (set : σ → α → σ)
    (item : Reader α) : RecordField σ where
  name := name
  isFilled s := (get s).isSome
  read s cs := (item cs).map (fun r => (set s r.1, r.2))

structure PartialValueSocket where
  name : Option String := none
  check : Option (Option DataType) := none
  child : Option (Option NodeId) := none

def PartialValueSocket.fields : List (RecordField PartialValueSocket) :=
  [.of "name" (·.name) (fun s a => { s with name := some a }) readText,
    .of "check" (·.check) (fun s a => { s with check := some a }) (readOptional DataType.read),
    .of "child" (·.child) (fun s a => { s with child := some a }) (readOptional NodeId.read)]

def PartialValueSocket.finish (s : PartialValueSocket) : Option ValueSocket :=
  s.name.map (fun name => ⟨name, s.check.getD none, s.child.getD none⟩)

def ValueSocket.read : Reader ValueSocket :=
  readRecord PartialValueSocket.fields {} PartialValueSocket.finish

structure PartialStatementSocket where
  name : Option String := none
  head : Option (Option NodeId) := none

def PartialStatementSocket.fields : List (RecordField PartialStatementSocket) :=
  [.of "name" (·.name) (fun s a => { s with name := some a }) readText,
    .of "head" (·.head) (fun s a => { s with head := some a }) (readOptional NodeId.read)]

def PartialStatementSocket.finish (s : PartialStatementSocket) : Option StatementSocket :=
  s.name.map (fun name => ⟨name, s.head.getD none⟩)

def StatementSocket.read : Reader StatementSocket :=
  readRecord PartialStatementSocket.fields {} PartialStatementSocket.finish

structure PartialNode where
  id : Option NodeId := none
  kind : Option String := none
  fields : Option (SortedMap String String) := none
  values : Option (List ValueSocket) := none
  statements : Option (List StatementSocket) := none
  next : Option (Option NodeId) := none
  comment : Option (Option String) := none
  variant : Option (Option Variant) := none

def PartialNode.parts : List (RecordField PartialNode) :=
  [.of "id" (·.id) (fun s a => { s with id := some a }) NodeId.read,
    .of "kind" (·.kind) (fun s a => { s with kind := some a }) readText,
    .of "fields" (·.fields) (fun s a => { s with fields := some a }) readFields,
    .of "values" (·.values) (fun s a => { s with values := some a }) (readList ValueSocket.read),
    .of "statements" (·.statements) (fun s a => { s with statements := some a })
      (readList StatementSocket.read),
    .of "next" (·.next) (fun s a => { s with next := some a }) (readOptional NodeId.read),
    .of "comment" (·.comment) (fun s a => { s with comment := some a }) (readOptional readText),
    .of "variant" (·.variant) (fun s a => { s with variant := some a })
      (readOptional Variant.read)]

def PartialNode.finish (s : PartialNode) : Option Node := do
  let id ← s.id
  let kind ← s.kind
  return {
    id
    kind
    fields := s.fields.getD .empty
    values := s.values.getD []
    statements := s.statements.getD []
    next := s.next.getD none
    comment := s.comment.getD none
    variant := s.variant.getD none }

def Node.read : Reader Node := readRecord PartialNode.parts {} PartialNode.finish

/-! ### Programs -/

structure PartialProgram where
  variableNames : Option (List String) := none
  topLevel : Option (List NodeId) := none
  nodes : Option (List Node) := none

def PartialProgram.fields : List (RecordField PartialProgram) :=
  [.of "variables" (·.variableNames) (fun s a => { s with variableNames := some a })
      (readList readText),
    .of "top_level" (·.topLevel) (fun s a => { s with topLevel := some a }) (readList NodeId.read),
    .of "nodes" (·.nodes) (fun s a => { s with nodes := some a }) (readList Node.read)]

def PartialProgram.finish (s : PartialProgram) : Option Program :=
  s.nodes.map (fun nodes => ⟨nodes, s.topLevel.getD [], s.variableNames.getD []⟩)

def Program.read : Reader Program := readRecord PartialProgram.fields {} PartialProgram.finish

def Program.load (text : String) : Except Fault Program := readAll Program.read text

end BlockSketch
