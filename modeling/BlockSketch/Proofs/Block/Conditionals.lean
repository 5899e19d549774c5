import BlockSketch.Block.Control
import BlockSketch.Proofs.Program.Shapes
import BlockSketch.Proofs.Program.Validation

/-!
Conditionals with a declared number of arms. One check bounds the declared number by the indices
that the socket names spell; the other allows only the names of the declared arms, which spell that
many indices at most. In a program that passes both, a conditional therefore has exactly the arms
that it declares, and its recipe reads exactly the sockets of its shape.
-/

namespace BlockSketch

/-! ### The arms of a checked node -/

namespace Node

variable {n : Node} {count : UInt32} {otherwise : Bool} {i : Nat}

theorem indexAfter?_append (word : String) (hi : i < 0x100000000) :
    indexAfter? word (word ++ toString i) = some i := by
  have hprefix : word.toList.isPrefixOf (word ++ toString i).toList = true := by
    rw [String.toList_append, List.isPrefixOf_iff_prefix]
    exact List.prefix_append _ _
  have hrest : (word ++ toString i).toList.drop word.length = (toString i).toList := by
    rw [String.toList_append, ← String.length_toList, List.drop_left]
  rw [indexAfter?, if_pos hprefix, hrest, String.ofList_toList, Text.readWord?_toString hi]

/-- A node with only the sockets of some arms, and perhaps one for all other cases. -/
structure HasOnlyArms (n : Node) (count : UInt32) (otherwise : Bool) : Prop where
  values : ∀ s ∈ n.values, ∃ i ≤ count.toNat, s.name = "IF" ++ toString i
  statements : ∀ s ∈ n.statements, (∃ i ≤ count.toNat, s.name = "DO" ++ toString i) ∨
    otherwise = true ∧ s.name = "ELSE"

theorem hasOnlyArms_of_checkShape (hvariant : n.variant = some (.conditional count otherwise))
    (h : n.checkShape = .ok ()) : n.HasOnlyArms count otherwise := by
  obtain ⟨-, hvalues, hstatements⟩ := (checkShape_eq_ok_iff hvariant).mp h
  exact ⟨fun s hs => Variant.allows_conditional_value.mp (hvalues s hs),
    fun s hs => Variant.allows_conditional_statement.mp (hstatements s hs)⟩

namespace HasOnlyArms

variable (h : n.HasOnlyArms count otherwise)
include h

theorem index_of_value {s : ValueSocket} (hs : s ∈ n.values) :
    ∃ i ≤ count.toNat, indexAfter? "IF" s.name = some i := by
  obtain ⟨i, hi, hname⟩ := h.values s hs
  have hcount := count.toNat_lt
  rw [hname]
  exact ⟨i, hi, indexAfter?_append "IF" (by omega)⟩

/-- A body has the index of its arm, or it is the one for all other cases and has none. -/
theorem index_of_statement {s : StatementSocket} (hs : s ∈ n.statements) :
    (∃ i ≤ count.toNat, indexAfter? "DO" s.name = some i) ∨
      s.name = "ELSE" ∧ indexAfter? "DO" s.name = none := by
  rcases h.statements s hs with ⟨i, hi, hname⟩ | ⟨-, hname⟩
  · have hcount := count.toNat_lt
    rw [hname]
    exact .inl ⟨i, hi, indexAfter?_append "DO" (by omega)⟩
  · rw [hname]
    exact .inr ⟨rfl, rfl⟩

theorem index_le (harm : n.HasArm i) : i ≤ count.toNat := by
  rcases harm with ⟨s, hs, hindex⟩ | ⟨s, hs, hindex⟩
  · obtain ⟨j, hj, hindex'⟩ := h.index_of_value hs
    rw [hindex] at hindex'
    cases hindex'
    exact hj
  · rcases h.index_of_statement hs with ⟨j, hj, hindex'⟩ | ⟨-, hnone⟩
    · rw [hindex] at hindex'
      cases hindex'
      exact hj
    · rw [hindex] at hnone
      cases hnone

/-- The names of the declared arms spell no more indices than there are declared arms. -/
theorem length_armIndices_le : n.armIndices.length ≤ count.toNat + 1 := by
  have hsub : n.armIndices ⊆ List.range (count.toNat + 1) := by
    intro i hi
    rw [List.mem_range, Nat.lt_succ_iff]
    exact h.index_le (mem_armIndices.mp hi)
  have hle := (n.nodup_armIndices.subperm hsub).length_le
  rwa [List.length_range] at hle

/-- A node that declares one arm, and whose count of arms is zero, has no sockets for arms at
all. -/
theorem no_arms (hcount : count.toNat = 0) (hzero : n.armCount = 0) :
    (∀ s ∈ n.values, ¬"IF".toList <+: s.name.toList) ∧
      ∀ s ∈ n.statements, ¬"DO".toList <+: s.name.toList := by
  have hlength : n.armIndices.length = 0 := by
    have hle := h.length_armIndices_le
    rw [armCount_eq_mod] at hzero
    omega
  have hnone (i : Nat) : ¬n.HasArm i := by
    rw [← mem_armIndices, List.length_eq_zero_iff.mp hlength]
    exact List.not_mem_nil
  refine ⟨fun s hs => ?_, fun s hs => ?_⟩
  · obtain ⟨i, -, hindex⟩ := h.index_of_value hs
    exact absurd (.inl ⟨s, hs, hindex⟩) (hnone i)
  · rcases h.index_of_statement hs with ⟨i, -, hindex⟩ | ⟨hname, -⟩
    · exact absurd (.inr ⟨s, hs, hindex⟩) (hnone i)
    · rw [hname]
      decide

end HasOnlyArms

end Node

/-! ### What a recipe asks for -/

namespace Recipe

variable {α β : Type}

/-- A recipe asks for the code of some nodes, one after the other, whatever answers it gets. -/
def Asks : Recipe α → List NodeId → Prop
  | done _, ids => ids = []
  | value child _ _ next, ids => ∃ rest, ids = child.toList ++ rest ∧ ∀ e, (next e).Asks rest
  | chain head next, ids => ∃ rest, ids = head.toList ++ rest ∧ ∀ text, (next text).Asks rest
  | edit _ next, ids => ∀ answer, (next answer).Asks ids

theorem Asks.bind {r : Recipe α} {f : α → Recipe β} {ids ids' : List NodeId} (hr : r.Asks ids)
    (hf : ∀ a, (f a).Asks ids') : (r >>= f).Asks (ids ++ ids') := by
  rw [bind_eq]
  induction r generalizing ids with
  | done a =>
      obtain rfl := hr
      exact hf a
  | value child required fallback next ih =>
      obtain ⟨rest, rfl, hnext⟩ := hr
      exact ⟨rest ++ ids', List.append_assoc _ _ _, fun e => ih e (hnext e)⟩
  | chain head next ih =>
      obtain ⟨rest, rfl, hnext⟩ := hr
      exact ⟨rest ++ ids', List.append_assoc _ _ _, fun text => ih text (hnext text)⟩
  | edit e next ih => exact fun answer => ih answer (hr answer)

theorem Asks.map {r : Recipe α} {ids : List NodeId} (hr : r.Asks ids) (g : α → β) :
    (r >>= fun a => pure (g a)).Asks ids := by
  rw [← List.append_nil ids]
  exact hr.bind fun _ => rfl

theorem asks_mapM {f : α → Recipe β} {ids : α → List NodeId} (hf : ∀ a, (f a).Asks (ids a))
    (l : List α) : (l.mapM f).Asks (l.flatMap ids) := by
  induction l with
  | nil => rfl
  | cons a rest ih =>
      rw [List.mapM_cons, List.flatMap_cons]
      exact (hf a).bind fun b => ih.map _

variable {n : Node}

theorem asks_socket (name : String) (required : Precedence) (fallback : String) :
    (socket n name required fallback).Asks (n.child? name).toList := by
  have hvalue : (socketValue n name required fallback).Asks (n.child? name).toList :=
    ⟨[], (List.append_nil _).symm, fun _ => rfl⟩
  exact hvalue.map _

theorem asks_body (name : String) : (body n name).Asks (n.head? name).toList := by
  have hchain : (statements (n.head? name)).Asks (n.head? name).toList :=
    ⟨[], (List.append_nil _).symm, fun _ => rfl⟩
  exact hchain.map _

end Recipe

/-! ### What a conditional asks for -/

def Node.plugged? (n : Node) (spec : SocketSpec) : Option NodeId :=
  match spec.kind with
  | .value => n.child? spec.name
  | .statement => n.head? spec.name
  | .field => none

namespace Block.Control

open Recipe Variant

variable {n : Node} {count : UInt32} {otherwise : Bool}

theorem asks_arm (n : Node) (i : Nat) : (arm n i).Asks ((armSpecs i).filterMap n.plugged?) := by
  have hids : (armSpecs i).filterMap n.plugged? =
      (n.child? ("IF" ++ toString i)).toList ++ (n.head? ("DO" ++ toString i)).toList := by
    unfold armSpecs
    rw [← List.singleton_append, List.filterMap_append]
    rfl
  rw [hids]
  exact (asks_socket _ _ _).bind fun _ => (asks_body _).map _

theorem asks_lastArm (n : Node) (present : Bool) :
    (lastArm n present).Asks
      ((if present then [statementSpec "ELSE"] else []).filterMap n.plugged?) := by
  cases present with
  | true => exact (asks_body "ELSE").map _
  | false => rfl

/-- A conditional with the arms that it declares asks for what hangs in the sockets of its shape. -/
theorem asks_conditional (harms : armsOf n = ⟨count.toNat, otherwise⟩) :
    (conditional n).Asks ((Variant.conditional count otherwise).shape.filterMap n.plugged?) := by
  rw [shape, List.filterMap_append, List.filterMap_flatMap, conditional, harms]
  exact (asks_mapM (asks_arm n) _).bind fun _ => (asks_lastArm n otherwise).map _

end Block.Control

open Block

/-- In a program that passes the validation, a conditional has sockets for exactly the arms that it
declares, or it declares a single arm and has none. The recipe takes the number of arms as it is
declared, the node has no other sockets than those of its shape, the recipe asks for what hangs in
these, and the declared number is bounded by the number of sockets. -/
theorem conditional_has_declared_arms {p : Program} {index : ParentIndex}
    (hvalid : p.validate = .ok index) {n : Node} (hn : n ∈ p.nodes) {count : UInt32}
    {otherwise : Bool} (hvariant : n.variant = some (.conditional count otherwise)) :
    ((∀ s ∈ n.values, ¬"IF".toList <+: s.name.toList) ∧
        (∀ s ∈ n.statements, ¬"DO".toList <+: s.name.toList) ∧ count = 0 ∨
      n.armCount = count.toNat + 1) ∧
    Control.armsOf n = ⟨count.toNat, otherwise⟩ ∧
    (∀ s ∈ n.values, ∃ i ≤ count.toNat, s.name = "IF" ++ toString i) ∧
    (∀ s ∈ n.statements, (∃ i ≤ count.toNat, s.name = "DO" ++ toString i) ∨
      otherwise = true ∧ s.name = "ELSE") ∧
    (Control.conditional n).Asks
      ((Variant.conditional count otherwise).shape.filterMap n.plugged?) ∧
    count.toNat < n.values.length + n.statements.length + 1 ∧
    (Variant.conditional count otherwise).shape.length ≤
      2 * (n.values.length + n.statements.length + 1) + 1 := by
  obtain ⟨hforest, -⟩ := Program.validate_eq_ok_iff_isForest.mp hvalid
  have hshape := hforest.shaped n hn (by rw [hvariant]; rfl)
  have hchecked := ((Node.checkShape_eq_ok_iff hvariant).mp hshape).1
  have hlower := Node.checkArms_conditional_eq_ok_iff.mp hchecked
  have honly := Node.hasOnlyArms_of_checkShape hvariant hshape
  have hupper := n.armCount_le_length.trans honly.length_armIndices_le
  have hsockets := n.armCount_le
  have harms : Control.armsOf n = ⟨count.toNat, otherwise⟩ := by
    rw [Control.armsOf, hvariant]
    dsimp only
    rw [Nat.min_eq_left (by omega)]
  refine ⟨?_, harms, honly.values, honly.statements, Control.asks_conditional harms, by omega, ?_⟩
  · by_cases hzero : n.armCount = 0
    · have hcount : count.toNat = 0 := by omega
      obtain ⟨hvalues, hstatements⟩ := honly.no_arms hcount hzero
      exact .inl ⟨hvalues, hstatements, UInt32.toNat_inj.mp hcount⟩
    · exact .inr (by omega)
  · have hbool := otherwise.toNat_le
    rw [Variant.length_shape_conditional]
    omega

/-- A conditional with two arms and one for all other cases, whose sockets stand in no order. -/
def twoArms : Node where
  id := ⟨1⟩
  kind := "controls_if"
  variant := some (.conditional 1 true)
  values := [{ name := "IF1", child := some ⟨2⟩ }, { name := "IF0" }]
  statements := [{ name := "ELSE", head := some ⟨3⟩ }, { name := "DO0" }]

def twoArmsSample : Program where
  nodes := [twoArms, { id := ⟨2⟩, kind := "logic_boolean" }, { id := ⟨3⟩, kind := "base_delay" }]
  topLevel := [⟨1⟩]

theorem twoArmsSample_has_declared_arms :
    (∃ index, twoArmsSample.validate = .ok index) ∧ twoArms ∈ twoArmsSample.nodes ∧
      Control.armsOf twoArms = ⟨1, true⟩ ∧ (Control.conditional twoArms).Asks [⟨2⟩, ⟨3⟩] := by
  have hvalid : ∃ index, twoArmsSample.validate = .ok index := ⟨_, rfl⟩
  have hmem : twoArms ∈ twoArmsSample.nodes := List.mem_cons_self
  obtain ⟨index, hindex⟩ := hvalid
  obtain ⟨-, harms, -, -, hasks, -⟩ := conditional_has_declared_arms hindex hmem rfl
  exact ⟨⟨index, hindex⟩, hmem, harms, hasks⟩

end BlockSketch
