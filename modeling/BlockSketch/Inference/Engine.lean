import BlockSketch.Diagnostic
import BlockSketch.Inference.Mention
import BlockSketch.Inference.TypeMap
import BlockSketch.Program.Traversal

/-!
Finding the types of variables. The statements are taken in the order in which they run, and a
variable keeps the first type that it gets. A variable that takes the type of another one which has
none yet waits for it, and gets it as soon as the other one does.
-/

namespace BlockSketch

/-- The state of the search: the types found, who waits for the type of which variable, and the
messages. -/
structure Inference where
  map : TypeMap := .empty
  waiting : SortedMap String (List (String × NodeId)) := .empty
  diagnostics : Diagnostics := .empty
  deriving Inhabited

namespace Inference

def slot (name : String) : String := "var-type:" ++ name

def mismatch (name : String) (old new : DataType) : Diagnostic :=
  (Diagnostic.warning Diagnostic.typeMismatch
    s!"Variable \"{name}\" is already {old.displayName}, cannot assign {new.displayName}").withHint
    ("the first assignment fixes the type of '" ++ name ++ "'")

/-- Whether a value of a type may not be given to a variable of another type. -/
def clashes (old new : DataType) : Bool :=
  old ≠ new && !old.accepts new && !old.isPlaceholder && !new.isPlaceholder

def learn (s : Inference) (node : NodeId) (name : String) (t : DataType) : Inference :=
  { s with
    map.types := s.map.types.insert name t
    diagnostics := s.diagnostics.clear node (slot name) }

def compareTypes (s : Inference) (node : NodeId) (name : String) (old new : DataType) :
    Inference :=
  { s with
    diagnostics :=
      if clashes old new then s.diagnostics.set node (slot name) (mismatch name old new)
      else s.diagnostics.clear node (slot name) }

def known? (s : Inference) (name : String) : Option DataType :=
  (s.map.get? name).filter (· ≠ .undefined)

/-- Give a variable a type, unless it has one, and then give it to those that wait for it. Each
round of waiting variables belongs to another one that they wait for, which bounds the number of
rounds. -/
def assignSteps : Nat → Inference → NodeId → String → DataType → Inference
  | rounds, s, node, name, t =>
      match s.known? name with
      | some old => s.compareTypes node name old t
      | none =>
          let s := s.learn node name t
          if t = .undefined then s
          else
            match rounds, s.waiting.find? name with
            | rounds + 1, some dependents =>
                dependents.foldl (fun s d => assignSteps rounds s d.2 d.1 t)
                  { s with waiting := s.waiting.erase name }
            | _, _ => s

/-- Give a variable a type, unless it has one, and then give it to those that wait for it. -/
def assign (s : Inference) (node : NodeId) (name : String) (t : DataType) : Inference :=
  assignSteps s.waiting.size s node name t

def await (s : Inference) (source name : String) (node : NodeId) : Inference :=
  let dependents := (s.waiting.find? source).getD []
  { s with waiting := s.waiting.insert source (dependents ++ [(name, node)]) }

def resolve (s : Inference) : DeclaredType → DataType
  | .known t => t
  | .sameAs source => s.map.get source
  | .elementOf array =>
      match s.map.get? array with
      | some .array => (s.map.element? array).getD .undefined
      | some t => t
      | none => .undefined

/-- Let the variable of a mention wait, if it takes its type from one that has none yet. -/
def park (s : Inference) (node : NodeId) (m : Mention) : Inference :=
  match m.declared with
  | .sameAs source => if (s.known? source).isNone then s.await source m.name node else s
  | _ => s

def learnElement (s : Inference) (m : Mention) (isNew : Bool) : Inference :=
  match m.element with
  | some t => if isNew then { s with map.elements := s.map.elements.insert m.name t } else s
  | none => s

def apply (s : Inference) (node : NodeId) (m : Mention) : Inference :=
  let t := s.resolve m.declared
  let isNew := (s.known? m.name).isNone
  ((s.park node m).assign node m.name t).learnElement m isNew

/-- The mentions of variables in a program, in the order in which they run. -/
def mentions (probe : Probe) (mentions? : String → Option MentionTyping) :
    List (NodeId × Mention) :=
  probe.program.executionOrder.flatMap fun n =>
    match mentions? n.kind with
    | some typing => (typing probe n).map (fun m => (n.id, m))
    | none => []

def run (probe : Probe) (mentions? : String → Option MentionTyping) (ds : Diagnostics) :
    Inference :=
  (mentions probe mentions?).foldl (fun s m => s.apply m.1 m.2) { diagnostics := ds }

end Inference

end BlockSketch
