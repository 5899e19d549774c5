/-!
Node numbers. A program names its nodes by numbers of 32 bits that it keeps when it is saved, so
that messages and pin claims can point at a node.
-/

namespace BlockSketch

structure NodeId where
  number : UInt32
  deriving DecidableEq, Repr, Inhabited

namespace NodeId

instance : Ord NodeId := ⟨compareOn NodeId.number⟩

instance : Std.TransOrd NodeId := inferInstanceAs (Std.TransCmp (compareOn NodeId.number))

instance : Std.LawfulEqOrd NodeId where
  eq_of_compare {a b} h := by
    have : a.number = b.number := Std.LawfulEqOrd.eq_of_compare h
    cases a; cases b; simp_all

def toNat (id : NodeId) : Nat := id.number.toNat

def text (id : NodeId) : String := "#" ++ toString id.toNat

def succ (id : NodeId) : NodeId := ⟨id.number + 1⟩

/-- Fresh node numbers in ascending order, from zero or from behind a given one. -/
def allocate (after : Option NodeId) (count : Nat) : List NodeId :=
  let first := match after with
    | some last => last.number + 1
    | none => 0
  (List.range count).map (fun i => ⟨first + UInt32.ofNat i⟩)

end NodeId

end BlockSketch
