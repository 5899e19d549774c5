import BlockSketch.Emission.Draft
import BlockSketch.Emission.Expression
import BlockSketch.Program.Basic

/-!
Recipes. A recipe says how a block makes its code: it asks for the code of other nodes and for edits
of the draft, one after the other, and goes on with the answers. It cannot look at the draft, and
it cannot fail by itself.
-/

namespace BlockSketch

inductive Recipe (α : Type) where
  | done (a : α)
  /-- Ask for the value of a node at a place that asks for a level. An absent or empty value is
  replaced by a default. -/
  | value (child : Option NodeId) (required : Precedence) (fallback : String)
      (next : Expression → Recipe α)
  /-- Ask for the text of a chain of statements. -/
  | chain (head : Option NodeId) (next : String → Recipe α)
  | edit (e : Edit) (next : e.Answer → Recipe α)

namespace Recipe

def bind {α β : Type} : Recipe α → (α → Recipe β) → Recipe β
  | done a, f => f a
  | value child required fallback next, f =>
      value child required fallback (fun e => (next e).bind f)
  | chain head next, f => chain head (fun text => (next text).bind f)
  | edit e next, f => edit e (fun answer => (next answer).bind f)

instance : Monad Recipe where
  pure := done
  bind := bind

@[simp] theorem pure_eq {α : Type} (a : α) : (pure a : Recipe α) = done a := rfl

@[simp] theorem bind_eq {α β : Type} (r : Recipe α) (f : α → Recipe β) : r >>= f = r.bind f := rfl

theorem bind_done {α : Type} (r : Recipe α) : r.bind done = r := by
  induction r with
  | done a => rfl
  | value child required fallback next ih => simp [bind, ih]
  | chain head next ih => simp [bind, ih]
  | edit e next ih => simp [bind, ih]

theorem bind_assoc {α β γ : Type} (r : Recipe α) (f : α → Recipe β) (g : β → Recipe γ) :
    (r.bind f).bind g = r.bind (fun a => (f a).bind g) := by
  induction r with
  | done a => rfl
  | value child required fallback next ih => simp [bind, ih]
  | chain head next ih => simp [bind, ih]
  | edit e next ih => simp [bind, ih]

instance : LawfulMonad Recipe := LawfulMonad.mk' Recipe
  (fun r => bind_done r) (fun _ _ => rfl) (fun r f g => bind_assoc r f g)

/-! ### Steps -/

def ask (e : Edit) : Recipe e.Answer := edit e done

def place (sec : Section) (key text : String) (overwrite : Bool) : Recipe Bool :=
  ask (.place sec key text overwrite)

def offer (sec : Section) (key text : String) : Recipe Unit := do
  let _ ← place sec key text false

/-- Put a fragment into a section, in the place of one that is there under its key. -/
def put (sec : Section) (key text : String) : Recipe Unit := do
  let _ ← place sec key text true

def helper (name : String) (body : String → String) : Recipe String := ask (.helper name body)

/-- What stands for the identifier of a helper function in a template of it. -/
def namePlaceholder : String := "%%FUNCTION_NAME%%"

def templateHelper (name template : String) : Recipe String :=
  helper name (fun identifier => template.replace namePlaceholder identifier)

def variableName (name : String) : Recipe String := ask (.identifier name .variable)

def procedureName (name : String) : Recipe String := ask (.identifier name .procedure)

def freshVariable (name : String) : Recipe String := ask (.freshVariable name)

def report (n : Node) (concern : Concern) (message : Option Diagnostic) : Recipe Unit :=
  ask (.report n.id concern message)

def socketValue (n : Node) (socket : String) (required : Precedence) (fallback : String) :
    Recipe Expression :=
  value (n.child? socket) required fallback done

def socket (n : Node) (socket : String) (required : Precedence) (fallback : String) :
    Recipe String := do
  return (← socketValue n socket required fallback).text

def emptyInput (socket fallback : String) : Diagnostic :=
  .warning Diagnostic.inputMissing s!"Input {socket} is empty; using {fallback}"

/-- The text of the value in a socket, with a warning if the socket is empty. -/
def requiredSocket (n : Node) (name : String) (required : Precedence) (fallback : String) :
    Recipe String := do
  report n (.input name) (if (n.child? name).isNone then some (emptyInput name fallback) else none)
  socket n name required fallback

def statements (head : Option NodeId) : Recipe String := chain head done

def body (n : Node) (socket : String) : Recipe String := do
  return Text.leadLines "  " (← statements (n.head? socket))

end Recipe

end BlockSketch
