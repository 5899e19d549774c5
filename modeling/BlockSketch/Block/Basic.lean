import BlockSketch.Emission.Workspace
import BlockSketch.Inference.Mention
import BlockSketch.Number.Shortest
import BlockSketch.Text.Quoted

/-!
Kinds of blocks. A kind stands for values or for statements of a sketch, and has a recipe for their
code. It may also tell the type of its value, and which variables it gives a type.
-/

namespace BlockSketch

/-- What the nodes of a kind are in a sketch, with the recipe for their code. -/
inductive Form where
  | value (recipe : Workspace → Node → Recipe Expression)
  | statement (recipe : Workspace → Node → Recipe String)

structure Block where
  kind : String
  form : Form
  /-- How the type of the value is told. -/
  typing? : Option ValueTyping := none
  /-- How it is told which variables get a type. -/
  mentions? : Option MentionTyping := none

namespace Block

def value (kind : String) (recipe : Workspace → Node → Recipe Expression) : Block :=
  ⟨kind, .value recipe, none, none⟩

def typed (kind : String) (t : DataType) (recipe : Workspace → Node → Recipe Expression) : Block :=
  ⟨kind, .value recipe, some (fun _ _ => .known t), none⟩

def statement (kind : String) (recipe : Workspace → Node → Recipe String) : Block :=
  ⟨kind, .statement recipe, none, none⟩

def withTyping (b : Block) (typing : ValueTyping) : Block := { b with typing? := some typing }

def withMentions (b : Block) (mentions : MentionTyping) : Block :=
  { b with mentions? := some mentions }

/-! ### Common parts of kinds -/

/-- The mention of the variable that a field names, if the node has the field. -/
def mentionOf (n : Node) (mention : String → Mention) : List Mention :=
  match n.field? "VAR" with
  | some name => [mention name]
  | none => []

def plainNumber? (text : String) : Option Double :=
  let cs := Text.trimChars text.toList
  if cs.isEmpty || !cs.all (fun c => Text.isDigit c || "-+.eE".toList.contains c) then none
  else Double.read? (String.ofList cs)

def isOutside (last : Nat) (text : String) : Bool :=
  match plainNumber? text with
  | some x => !((Double.ofNat 0).le x && x.le (Double.ofNat last))
  | none => false

def countSockets (n : Node) (word : String) : Nat :=
  n.values.countP (fun s => word.toList.isPrefixOf s.name.toList)

/-- The texts of the values in the sockets with a word and the numbers below a count as names. -/
def indexedSockets (n : Node) (word : String) (count : Nat) (required : Precedence)
    (fallback : String) : Recipe (List String) :=
  (List.range count).mapM (fun i => Recipe.socket n (word ++ toString i) required fallback)

def braced (text : String) : String := "\x7b" ++ text ++ "\x7d"

def withBody (head body : String) : String := head ++ " " ++ braced ("\n" ++ body)

end Block

end BlockSketch
