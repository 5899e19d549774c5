import BlockSketch.Identifier.Reserved
import BlockSketch.Identifier.Spelling
import BlockSketch.Text.Lowercase

/-!
Identifiers handed out for names. Variables and functions are two namespaces, each with a scope of
its own. A scope never hands out a reserved word, nor one identifier for two purposes; a user's name
keeps its identifier, in whatever case it is written.
-/

namespace BlockSketch.Identifier

/-- The identifiers of one namespace: those handed out, the newest first, and those that belong to a
user's name in lower case. -/
structure Scope where
  taken : List String
  assigned : List (String × String)
  deriving DecidableEq, Repr, Inhabited

namespace Scope

def empty : Scope := ⟨[], []⟩

def isTaken (s : Scope) (identifier : String) : Bool := s.taken.contains identifier

def isBlocked (s : Scope) (identifier : String) : Bool :=
  isReserved identifier || s.isTaken identifier

/-- The candidates for a name: its spelling, then the spelling with 2, 3, … behind it. The number
exceeds that of the blocked identifiers by one at most, so it is not bounded here. -/
def candidate (base : String) (k : Nat) : String := if k ≤ 1 then base else base ++ toString k

/-- The first candidate from the `k`-th on that is not blocked, if one is among the next `count`. -/
def firstFree (s : Scope) (base : String) (k : Nat) : Nat → String
  | 0 => candidate base k
  | count + 1 =>
      if s.isBlocked (candidate base k) then firstFree s base (k + 1) count else candidate base k

/-- The identifier that a new name would get. There are more candidates than blocked identifiers, so
one of them is free. -/
def free (s : Scope) (name : String) : String :=
  s.firstFree (spell name) 1 (reservedWords.length + s.taken.length)

def fresh (s : Scope) (name : String) : String × Scope :=
  let identifier := s.free name
  (identifier, { s with taken := identifier :: s.taken })

/-- The identifier of a user's name, handed out when it is first asked for. -/
def nameOf (s : Scope) (name : String) : String × Scope :=
  let key := Text.lowercase name
  match s.assigned.lookup key with
  | some identifier => (identifier, s)
  | none =>
      let (identifier, s') := s.fresh name
      (identifier, { s' with assigned := (key, identifier) :: s'.assigned })

end Scope

/-- What an identifier names. Helper functions share a namespace with the user's procedures. -/
inductive Namespace where
  | variable
  | procedure
  deriving DecidableEq, Repr, Inhabited

structure NameTable where
  variableScope : Scope
  procedureScope : Scope
  deriving DecidableEq, Repr, Inhabited

namespace NameTable

def empty : NameTable := ⟨.empty, .empty⟩

def scope (t : NameTable) : Namespace → Scope
  | .variable => t.variableScope
  | .procedure => t.procedureScope

def setScope (t : NameTable) (s : Scope) : Namespace → NameTable
  | .variable => { t with variableScope := s }
  | .procedure => { t with procedureScope := s }

/-- Hand out an identifier that was never handed out before in a namespace. -/
def fresh (t : NameTable) (name : String) (ns : Namespace) : String × NameTable :=
  let (identifier, s) := (t.scope ns).fresh name
  (identifier, t.setScope s ns)

def nameOf (t : NameTable) (name : String) (ns : Namespace) : String × NameTable :=
  let (identifier, s) := (t.scope ns).nameOf name
  (identifier, t.setScope s ns)

def isTaken (t : NameTable) (identifier : String) (ns : Namespace) : Bool :=
  (t.scope ns).isTaken identifier

end NameTable

end BlockSketch.Identifier
