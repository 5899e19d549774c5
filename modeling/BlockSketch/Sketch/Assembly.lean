import BlockSketch.Sketch.Bucket
import BlockSketch.Text.Blank
import BlockSketch.Text.Lines

/-!
The sections of a sketch and how a sketch is laid out from them: includes, declarations, global
variables and functions, then the two functions `setup` and `loop`.
-/

namespace BlockSketch

/-- A section of a sketch. The last one holds what runs first in every round of `loop`. -/
inductive Section where
  | includes
  | declarations
  | globals
  | functions
  | setups
  | loops
  | loopStarts
  deriving DecidableEq, Repr, Inhabited

structure Sections where
  includes : Bucket := .empty
  declarations : Bucket := .empty
  globals : Bucket := .empty
  functions : Bucket := .empty
  setups : Bucket := .empty
  loops : Bucket := .empty
  loopStarts : Bucket := .empty
  deriving DecidableEq, Repr, Inhabited

namespace Sections

def empty : Sections := {}

def get (s : Sections) : Section → Bucket
  | .includes => s.includes
  | .declarations => s.declarations
  | .globals => s.globals
  | .functions => s.functions
  | .setups => s.setups
  | .loops => s.loops
  | .loopStarts => s.loopStarts

def set (s : Sections) (b : Bucket) : Section → Sections
  | .includes => { s with includes := b }
  | .declarations => { s with declarations := b }
  | .globals => { s with globals := b }
  | .functions => { s with functions := b }
  | .setups => { s with setups := b }
  | .loops => { s with loops := b }
  | .loopStarts => { s with loopStarts := b }

def insert (s : Sections) (sec : Section) (key text : String) (overwrite : Bool) :
    Bool × Sections :=
  let (stored, b) := (s.get sec).insert key text overwrite
  (stored, s.set b sec)

@[simp] theorem get_set_self (s : Sections) (b : Bucket) (sec : Section) :
    (s.set b sec).get sec = b := by
  cases sec <;> rfl

theorem get_set_of_ne (s : Sections) (b : Bucket) {sec sec' : Section} (h : sec' ≠ sec) :
    (s.set b sec).get sec' = s.get sec' := by
  cases sec <;> cases sec' <;> first | rfl | exact absurd rfl h

/-! ### Layout -/

def userSetupKey : String := "userSetupCode"

/-- The key of the user's own loop code, which comes after the rest of the section. -/
def userLoopKey : String := "userLoopCode"

/-- A block of fragments: those that are not blank, joined, with an empty line behind them. -/
def block (separator : String) (texts : List String) : String :=
  let kept := (texts.map Text.trimLineEnds).filter (fun t => !Text.isBlank t)
  if kept.isEmpty then "" else separator.intercalate kept ++ "\n\n"

def bodyLine (line : String) : String := if Text.isBlank line then "\n" else "  " ++ line ++ "\n"

/-- A fragment inside a function. A blank one leaves no trace. -/
def bodyText (text : String) : String :=
  if Text.isBlank text then ""
  else String.join ((Text.lines (Text.trimLineEnds text)).map bodyLine)

def function (name : String) (texts : List String) : String :=
  "void " ++ name ++ "() \x7b\n" ++ String.join (texts.map bodyText) ++ "\x7d\n"

def setupTexts (s : Sections) : List String := s.setups.textsWithLast userSetupKey

def loopTexts (s : Sections) (body : String) : List String :=
  s.loopStarts.texts ++ s.loops.textsWithLast userLoopKey ++ [body]

/-- What stands before `setup`. An include text that occurs twice is written once. -/
def preamble (s : Sections) : String :=
  block "\n" s.includes.texts.eraseDups ++ block "\n" s.declarations.texts ++
    block "\n" s.globals.texts ++ block "\n\n" s.functions.texts

/-- The sketch with the given sections. The body is code at the top level that no section took; it
runs at the end of `loop`. -/
def assemble (s : Sections) (body : String) : String :=
  s.preamble ++ function "setup" s.setupTexts ++ "\n" ++ function "loop" (s.loopTexts body)

end Sections

end BlockSketch
