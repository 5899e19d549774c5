import BlockSketch.Program.Traversal
import BlockSketch.Program.Validation
import BlockSketch.Proofs.Text.Comments

/-!
Programs with other words in their comments. Validation does not look at words, and walks through a
program meet the same nodes, each with its other words.
-/

namespace BlockSketch

open Text

def commentKind : String := "base_comment"

/-- Other comments for the nodes of programs, and other texts for the blocks that are comments. Such
a text spills the same lines as the one before. -/
structure Rewording where
  comment : Node → Option String
  text : Node → String
  spills : ∀ n, n.kind = commentKind → spill (text n) = spill (n.fieldD "TEXT" "")

namespace Rewording

variable (u : Rewording)

def node (n : Node) : Node :=
  { n with
    comment := u.comment n
    fields := if n.kind = commentKind then n.fields.insert "TEXT" (u.text n) else n.fields }

def program (p : Program) : Program := { p with nodes := p.nodes.map u.node }

/-- Only the blocks that are comments have other fields. -/
theorem node_of_ne {n : Node} (h : n.kind ≠ commentKind) :
    u.node n = { n with comment := u.comment n } := by
  rw [node, if_neg h]

variable (p : Program)

theorem find?_program (id : NodeId) : (u.program p).find? id = (p.find? id).map u.node := by
  simp only [Program.find?, program, List.find?_map]
  rfl

theorem size_program : (u.program p).size = p.size := List.length_map ..

theorem has_program (id : NodeId) : (u.program p).has id = p.has id := by
  rw [Program.has, find?_program, Option.isSome_map]
  rfl

/-! ### Validation -/

theorem ownReferences_program (owner : NodeId) (refs : List (Place × NodeId))
    (index : ParentIndex) :
    (u.program p).ownReferences owner refs index = p.ownReferences owner refs index := by
  induction refs generalizing index with
  | nil => rfl
  | cons ref rest ih =>
      obtain ⟨place, target⟩ := ref
      simp only [Program.ownReferences, has_program, ih]

theorem ownAll_program (nodes : List Node) (index : ParentIndex) :
    (u.program p).ownAll (nodes.map u.node) index = p.ownAll nodes index := by
  induction nodes generalizing index with
  | nil => rfl
  | cons n rest ih =>
      have hreferences : (u.node n).references = n.references := rfl
      have hshape : (u.node n).checkShape = n.checkShape := rfl
      simp only [List.map_cons, Program.ownAll, ownReferences_program, ih, hreferences, hshape]
      rfl

theorem checkTopLevel_program (index : ParentIndex) (ids : List NodeId) :
    (u.program p).checkTopLevel index ids = p.checkTopLevel index ids := by
  induction ids with
  | nil => rfl
  | cons id rest ih => simp only [Program.checkTopLevel, has_program, ih]

theorem targetsOf_program : (u.program p).targetsOf = p.targetsOf := by
  ext1 id
  rw [Program.targetsOf, find?_program, Program.targetsOf]
  cases p.find? id <;> rfl

theorem search_program (steps : Nat) (pending reached : List NodeId) :
    (u.program p).search steps pending reached = p.search steps pending reached := by
  induction steps generalizing pending reached with
  | zero => cases pending <;> rfl
  | succ steps ih =>
      cases pending with
      | nil => rfl
      | cons id rest => simp only [Program.search, targetsOf_program, ih]

/-- Validation does not depend on the words in a program. -/
theorem validate_program : (u.program p).validate = p.validate := by
  have hids : (u.program p).nodes.map (·.id) = p.nodes.map (·.id) := List.map_map ..
  have hown : (u.program p).ownAll (u.program p).nodes .empty = p.ownAll p.nodes .empty :=
    u.ownAll_program p p.nodes .empty
  have hcheck (index : ParentIndex) (reached : List NodeId) :
      (u.program p).nodes.forM (Program.checkReached index reached) =
        p.nodes.forM (Program.checkReached index reached) :=
    List.forM_map
  simp only [Program.validate, hids, hown, checkTopLevel_program, size_program, search_program,
    hcheck]
  rfl

/-! ### Walks -/

theorem chainFrom_program (count : Nat) (head : Option NodeId) :
    (u.program p).chainFrom count head = (p.chainFrom count head).map u.node := by
  induction count generalizing head with
  | zero => rfl
  | succ count ih =>
      cases head with
      | none => rfl
      | some id =>
          rw [Program.chainFrom, Program.chainFrom, find?_program]
          cases p.find? id with
          | none => rfl
          | some n => exact congrArg (u.node n :: ·) (ih n.next)

theorem nestedChain_program (depth : Nat) (head : Option NodeId) :
    (u.program p).nestedChain depth head = (p.nestedChain depth head).map u.node := by
  induction depth generalizing head with
  | zero => rfl
  | succ depth ih =>
      simp only [Program.nestedChain, Program.chain, size_program, chainFrom_program, ih,
        List.flatMap_map, List.map_flatMap, List.map_cons]
      rfl

theorem executionOrder_program :
    (u.program p).executionOrder = p.executionOrder.map u.node := by
  simp only [Program.executionOrder, size_program, nestedChain_program, List.map_flatMap]
  rfl

end Rewording

end BlockSketch
