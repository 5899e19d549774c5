import BlockSketch.Program.NodeId
import BlockSketch.SortedMap

/-!
Messages about a program, and the table that holds those attached to its nodes. A node has at most
one message in each slot, so a message about one concern never replaces one about another.
-/

namespace BlockSketch

inductive Severity where
  | error
  | warning
  deriving DecidableEq, Repr, Inhabited

def Severity.text : Severity → String
  | error => "error"
  | warning => "warning"

structure Diagnostic where
  severity : Severity
  code : Option String
  node : Option NodeId
  message : String
  hint : Option String
  deriving DecidableEq, Repr, Inhabited

namespace Diagnostic

/-! ### Codes -/

def pinConflict : String := "W0101"

def pinCapability : String := "W0102"

def pinMissing : String := "W0103"

def typeMismatch : String := "W0201"

def inputMissing : String := "W0301"

def outOfRange : String := "W0302"

def enableMissing : String := "W0303"

/-! ### Messages -/

def warning (code message : String) : Diagnostic :=
  ⟨.warning, some code, none, message, none⟩

def withHint (d : Diagnostic) (hint : String) : Diagnostic := { d with hint := some hint }

def text (d : Diagnostic) : String :=
  let code := match d.code with
    | some c => "[" ++ c ++ "]"
    | none => ""
  let node := match d.node with
    | some id => "node " ++ id.text ++ ": "
    | none => ""
  let hint := match d.hint with
    | some h => "\n  hint: " ++ h
    | none => ""
  d.severity.text ++ code ++ ": " ++ node ++ d.message ++ hint

end Diagnostic

/-- Where a message is kept: a slot of a node. -/
structure SlotKey where
  node : NodeId
  slot : String
  deriving DecidableEq, Repr, Inhabited

namespace SlotKey

instance : Ord SlotKey := ⟨compareLex (compareOn SlotKey.node) (compareOn SlotKey.slot)⟩

instance : Std.TransOrd SlotKey :=
  inferInstanceAs (Std.TransCmp (compareLex (compareOn SlotKey.node) (compareOn SlotKey.slot)))

instance : Std.LawfulEqOrd SlotKey where
  compare_self {a} := by
    change (compareLex (compareOn SlotKey.node) (compareOn SlotKey.slot)) a a = .eq
    simp [compareLex, compareOn]
  eq_of_compare {a b} h := by
    change (compareLex (compareOn SlotKey.node) (compareOn SlotKey.slot)) a b = .eq at h
    simp only [compareLex, compareOn, Ordering.then_eq_eq, Std.compare_eq_iff_eq] at h
    cases a; cases b; simp_all

end SlotKey

structure Diagnostics where
  table : SortedMap SlotKey Diagnostic
  deriving DecidableEq, Inhabited

namespace Diagnostics

def empty : Diagnostics := ⟨.empty⟩

def set (ds : Diagnostics) (node : NodeId) (slot : String) (d : Diagnostic) : Diagnostics :=
  ⟨ds.table.insert ⟨node, slot⟩ { d with node := some node }⟩

def clear (ds : Diagnostics) (node : NodeId) (slot : String) : Diagnostics :=
  ⟨ds.table.erase ⟨node, slot⟩⟩

def get? (ds : Diagnostics) (node : NodeId) (slot : String) : Option Diagnostic :=
  ds.table.find? ⟨node, slot⟩

def toList (ds : Diagnostics) : List (SlotKey × Diagnostic) := ds.table.toList

def ofNode (ds : Diagnostics) (node : NodeId) : List (String × Diagnostic) :=
  (ds.toList.filter (fun e => e.1.node = node)).map (fun e => (e.1.slot, e.2))

def size (ds : Diagnostics) : Nat := ds.table.size

def isEmpty (ds : Diagnostics) : Bool := ds.table.isEmpty

theorem get?_set (ds : Diagnostics) (node node' : NodeId) (slot slot' : String) (d : Diagnostic) :
    (ds.set node slot d).get? node' slot' =
      if node' = node ∧ slot' = slot then some { d with node := some node }
      else ds.get? node' slot' := by
  simp [get?, set, SortedMap.find?_insert]

theorem get?_clear (ds : Diagnostics) (node node' : NodeId) (slot slot' : String) :
    (ds.clear node slot).get? node' slot' =
      if node' = node ∧ slot' = slot then none else ds.get? node' slot' := by
  simp [get?, clear, SortedMap.find?_erase]

end Diagnostics

end BlockSketch
