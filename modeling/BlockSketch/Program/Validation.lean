import BlockSketch.Program.Basic

/-!
The check that a program is a forest: every node hangs in one place or stands at the top level, and
all are reached from there. The check also tells where each node hangs.
-/

namespace BlockSketch

inductive GraphError where
  | duplicateId (id : NodeId)
  | danglingReference (source target : NodeId)
  | unknownTopLevel (id : NodeId)
  | multipleOwners (id : NodeId)
  | ownedTopLevel (id : NodeId)
  | cycle (id : NodeId)
  | unreachable (id : NodeId)
  | shapeMismatch (node : NodeId) (socket : String)
  | armCountMismatch (node : NodeId) (declared present : UInt32)
  deriving DecidableEq, Repr, Inhabited

def GraphError.message : GraphError → String
  | duplicateId id => s!"duplicate node id {id.text}"
  | danglingReference source target => s!"node {source.text} refers to missing node {target.text}"
  | unknownTopLevel id => s!"top-level entry {id.text} does not exist"
  | multipleOwners id => s!"node {id.text} is connected in more than one place"
  | ownedTopLevel id =>
      s!"node {id.text} is listed at top level but is also connected under another node"
  | cycle id => s!"node {id.text} is part of a cycle"
  | unreachable id => s!"node {id.text} is neither connected nor listed at top level"
  | shapeMismatch node socket =>
      "node " ++ node.text ++ " has socket '" ++ socket ++ "' that its variant does not define"
  | armCountMismatch node declared present =>
      s!"node {node.text} declares {declared} else-if arm(s) but carries sockets for " ++
        s!"{present} arm(s)"

/-- Where the nodes of a program hang. A node at the top level hangs nowhere. -/
structure ParentIndex where
  places : SortedMap NodeId Place
  deriving DecidableEq, Inhabited

namespace ParentIndex

def empty : ParentIndex := ⟨.empty⟩

def place? (index : ParentIndex) (id : NodeId) : Option Place := index.places.find? id

def isValue (index : ParentIndex) (id : NodeId) : Bool :=
  match index.place? id with
  | some (.value _ _) => true
  | _ => false

def previous? (index : ParentIndex) (id : NodeId) : Option NodeId :=
  match index.place? id with
  | some (.next owner) => some owner
  | _ => none

def insert (index : ParentIndex) (id : NodeId) (place : Place) : ParentIndex :=
  ⟨index.places.insert id place⟩

end ParentIndex

def firstRepeat? {α : Type} [DecidableEq α] (seen : List α) : List α → Option α
  | [] => none
  | a :: rest => if a ∈ seen then some a else firstRepeat? (a :: seen) rest

def Node.checkArms (n : Node) : Variant → Except GraphError Unit
  | .conditional count _ =>
      let present := (max n.armCount 1).toUInt32
      if present ≤ count then .error (.armCountMismatch n.id count present) else .ok ()
  | _ => .ok ()

def Node.checkShape (n : Node) : Except GraphError Unit :=
  match n.variant with
  | none => .ok ()
  | some v => do
      n.checkArms v
      if let some s := n.values.find? (fun s => !v.allows s.name .value) then
        throw (.shapeMismatch n.id s.name)
      if let some s := n.statements.find? (fun s => !v.allows s.name .statement) then
        throw (.shapeMismatch n.id s.name)

namespace Program

def ownReferences (p : Program) (owner : NodeId) :
    List (Place × NodeId) → ParentIndex → Except GraphError ParentIndex
  | [], index => .ok index
  | (place, target) :: rest, index =>
      if !p.has target then .error (.danglingReference owner target)
      else if (index.place? target).isSome then .error (.multipleOwners target)
      else ownReferences p owner rest (index.insert target place)

def ownAll (p : Program) : List Node → ParentIndex → Except GraphError ParentIndex
  | [], index => .ok index
  | n :: rest, index => do
      let index ← p.ownReferences n.id n.references index
      n.checkShape
      ownAll p rest index

def checkTopLevel (p : Program) (index : ParentIndex) : List NodeId → Except GraphError Unit
  | [] => .ok ()
  | id :: rest =>
      if !p.has id then .error (.unknownTopLevel id)
      else if (index.place? id).isSome then .error (.ownedTopLevel id)
      else checkTopLevel p index rest

def targetsOf (p : Program) (id : NodeId) : List NodeId :=
  match p.find? id with
  | some n => n.targets
  | none => []

/-- Take node after node from a worklist, and put those that it refers to on top of the others, the
last one uppermost. A node must not come up twice. Each step reaches one node more, so there are no
more steps than nodes. -/
def search (p : Program) : Nat → List NodeId → List NodeId → Except GraphError (List NodeId)
  | _, [], reached => .ok reached
  | 0, _ :: _, reached => .ok reached
  | steps + 1, id :: rest, reached =>
      if id ∈ reached then .error (.multipleOwners id)
      else search p steps ((p.targetsOf id).reverse ++ rest) (id :: reached)

def checkReached (index : ParentIndex) (reached : List NodeId) (n : Node) :
    Except GraphError Unit :=
  if n.id ∈ reached then .ok ()
  else if (index.place? n.id).isSome then .error (.cycle n.id)
  else .error (.unreachable n.id)

def validate (p : Program) : Except GraphError ParentIndex := do
  if let some id := firstRepeat? [] (p.nodes.map (·.id)) then
    throw (.duplicateId id)
  let index ← p.ownAll p.nodes .empty
  p.checkTopLevel index p.topLevel
  let reached ← p.search (p.size + 1) p.topLevel []
  p.nodes.forM (checkReached index reached)
  return index

end Program

end BlockSketch
