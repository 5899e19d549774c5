import BlockSketch.Program.Validation
import Mathlib.Data.List.Nodup
import Mathlib.Data.List.Pairwise
import Mathlib.Data.List.Perm.Subperm
import Mathlib.Logic.Relation

/-!
Forests. A program is a forest if every node hangs in exactly one place or stands at the top level,
and all nodes are reached from the top level. Nothing in this description forbids cycles; that there
are none follows. The way down from a node is therefore finite, and is measured by the number of
nodes below it.
-/

namespace BlockSketch

/-- Look-ups of different names in a list of named entries find different entries. -/
theorem filterMap_find?_subperm {α κ : Type} [DecidableEq κ] (l : List α) (name : α → κ)
    {names : List κ} (hnames : names.Nodup) :
    (names.filterMap (fun k => l.find? (fun a => name a = k))).Subperm l := by
  have hname : ∀ k a, l.find? (fun a => name a = k) = some a → name a = k := by
    intro k a h
    simpa using List.find?_some h
  apply List.Nodup.subperm
  · refine hnames.filterMap fun k k' a h h' => ?_
    rw [← hname k a h, ← hname k' a h']
  · intro a ha
    obtain ⟨k, -, hk⟩ := List.mem_filterMap.mp ha
    exact List.mem_of_find?_eq_some hk

namespace Program

variable {p : Program}

/-! ### Nodes by their numbers -/

theorem mem_of_find? {id : NodeId} {n : Node} (h : p.find? id = some n) : n ∈ p.nodes :=
  List.mem_of_find?_eq_some h

theorem id_of_find? {id : NodeId} {n : Node} (h : p.find? id = some n) : n.id = id := by
  simpa using List.find?_some h

theorem has_iff {id : NodeId} : p.has id = true ↔ ∃ n ∈ p.nodes, n.id = id := by
  simp [has, find?, List.find?_isSome]

theorem exists_find? {id : NodeId} (h : ∃ n ∈ p.nodes, n.id = id) : ∃ n, p.find? id = some n :=
  Option.isSome_iff_exists.mp (has_iff.mpr h)

/-- Where no number is given twice, a node is found by its number. -/
theorem find?_of_mem (hids : (p.nodes.map (·.id)).Nodup) {n : Node} (hn : n ∈ p.nodes) :
    p.find? n.id = some n := by
  obtain ⟨m, hm⟩ := exists_find? ⟨n, hn, rfl⟩
  rw [hm, List.inj_on_of_nodup_map hids (mem_of_find? hm) hn (id_of_find? hm)]

/-! ### References -/

def references (p : Program) : List (Place × NodeId) := p.nodes.flatMap Node.references

def targets (p : Program) : List NodeId := p.references.map Prod.snd

theorem targets_eq (p : Program) : p.targets = p.nodes.flatMap Node.targets := by
  simp only [targets, references, List.map_flatMap]
  rfl

theorem mem_targets {id : NodeId} : id ∈ p.targets ↔ ∃ n ∈ p.nodes, id ∈ n.targets := by
  simp [targets_eq]

theorem nodup_targets_of_mem (h : p.targets.Nodup) {n : Node} (hn : n ∈ p.nodes) :
    n.targets.Nodup := by
  rw [targets_eq, List.nodup_flatMap] at h
  exact h.1 n hn

/-- A node refers to another one through a socket or through its link to the next node. -/
def Refers (p : Program) (a b : NodeId) : Prop := ∃ n ∈ p.nodes, n.id = a ∧ b ∈ n.targets

abbrev Reaches (p : Program) : NodeId → NodeId → Prop := Relation.ReflTransGen p.Refers

theorem Refers.mem_targets {a b : NodeId} (h : p.Refers a b) : b ∈ p.targets := by
  obtain ⟨n, hn, -, hb⟩ := h
  exact Program.mem_targets.mpr ⟨n, hn, hb⟩

/-- A node leads to nodes that are referred to, besides itself. -/
theorem Reaches.eq_or_mem_targets {a b : NodeId} (h : p.Reaches a b) : b = a ∨ b ∈ p.targets := by
  rcases Relation.ReflTransGen.cases_tail h with rfl | ⟨c, -, hc⟩
  · exact .inl rfl
  · exact .inr hc.mem_targets

/-! ### Forests -/

/-- A program whose references make a forest, with sockets as the variants of its nodes declare
them. -/
structure IsForest (p : Program) : Prop where
  ids_nodup : (p.nodes.map (·.id)).Nodup
  targets_exist : ∀ id ∈ p.targets, ∃ n ∈ p.nodes, n.id = id
  targets_nodup : p.targets.Nodup
  topLevel_nodup : p.topLevel.Nodup
  topLevel_exist : ∀ id ∈ p.topLevel, ∃ n ∈ p.nodes, n.id = id
  topLevel_free : ∀ id ∈ p.topLevel, id ∉ p.targets
  reached : ∀ n ∈ p.nodes, ∃ head ∈ p.topLevel, p.Reaches head n.id
  shaped : ∀ n ∈ p.nodes, n.variant.isSome → n.checkShape = .ok ()

/-- Where no target is referred to twice, a node is referred to by one node only. -/
theorem Refers.owner_unique (htargets : p.targets.Nodup) {a b c : NodeId} (ha : p.Refers a c)
    (hb : p.Refers b c) : a = b := by
  obtain ⟨n, hn, rfl, hc⟩ := ha
  obtain ⟨m, hm, rfl, hc'⟩ := hb
  rw [targets_eq, List.nodup_flatMap] at htargets
  by_contra hne
  have hnm : n ≠ m := fun h => hne (by rw [h])
  have : Std.Symm (Function.onFun List.Disjoint Node.targets) :=
    ⟨fun _ _ h _ ha hb => h hb ha⟩
  exact htargets.2.forall hn hm hnm hc hc'

/-- Where no target is referred to twice, nodes that lead to a common node lie on one way down. -/
theorem Reaches.total (htargets : p.targets.Nodup) {a b c : NodeId} (ha : p.Reaches a c)
    (hb : p.Reaches b c) : p.Reaches a b ∨ p.Reaches b a := by
  have hunique : Relator.RightUnique (Function.swap p.Refers) :=
    fun _ _ _ h h' => h.owner_unique htargets h'
  rcases Relation.ReflTransGen.total_of_right_unique hunique
      (Relation.reflTransGen_swap.mpr ha) (Relation.reflTransGen_swap.mpr hb) with h | h
  · exact .inr (Relation.reflTransGen_swap.mp h)
  · exact .inl (Relation.reflTransGen_swap.mp h)

/-! ### Cycles -/

def OnCycle (p : Program) (id : NodeId) : Prop := Relation.TransGen p.Refers id id

theorem OnCycle.mem_targets {id : NodeId} (h : p.OnCycle id) : id ∈ p.targets := by
  obtain ⟨owner, -, howner⟩ := Relation.TransGen.tail'_iff.mp h
  exact howner.mem_targets

/-- Where no target is referred to twice, what leads to a cycle lies on it. The way down cannot
enter the cycle: the node where it entered would be referred to from two sides. -/
theorem OnCycle.of_reaches (htargets : p.targets.Nodup) {a c : NodeId} (hc : p.OnCycle c)
    (hreach : p.Reaches a c) : p.OnCycle a := by
  induction hreach with
  | refl => exact hc
  | tail _ hstep ih =>
      obtain ⟨owner, hback, howner⟩ := Relation.TransGen.tail'_iff.mp hc
      obtain rfl := hstep.owner_unique htargets howner
      exact ih (Relation.TransGen.head' hstep hback)

namespace IsForest

variable (hp : p.IsForest)
include hp

theorem owner_unique {a b c : NodeId} (ha : p.Refers a c) (hb : p.Refers b c) : a = b :=
  ha.owner_unique hp.targets_nodup hb

theorem exists_of_refers {a b : NodeId} (h : p.Refers a b) : ∃ n ∈ p.nodes, n.id = b :=
  hp.targets_exist b h.mem_targets

/-- No node leads back to itself: the node at the top level that leads to it would lie on the cycle
too, and be referred to. -/
theorem acyclic {a : NodeId} (ha : ∃ n ∈ p.nodes, n.id = a) :
    ¬Relation.TransGen p.Refers a a := by
  intro hcycle
  obtain ⟨n, hn, rfl⟩ := ha
  obtain ⟨head, hhead, hreach⟩ := hp.reached n hn
  have honCycle : p.OnCycle head := OnCycle.of_reaches hp.targets_nodup hcycle hreach
  exact hp.topLevel_free head hhead honCycle.mem_targets

theorem not_reaches_of_refers {a b : NodeId} (h : p.Refers a b) : ¬p.Reaches b a := by
  intro hback
  obtain ⟨n, hn, ha, -⟩ := id h
  exact hp.acyclic ⟨n, hn, ha⟩ (Relation.TransGen.head' h hback)

/-- Two nodes that lead to a common node lie on one way down. -/
theorem reaches_total {a b c : NodeId} (ha : p.Reaches a c) (hb : p.Reaches b c) :
    p.Reaches a b ∨ p.Reaches b a := ha.total hp.targets_nodup hb

/-- One of two different nodes below a node does not lead to the other. -/
theorem not_reaches_sibling {a b c : NodeId} (hb : p.Refers a b) (hc : p.Refers a c) (hne : b ≠ c) :
    ¬p.Reaches b c := by
  intro h
  rcases Relation.ReflTransGen.cases_tail h with rfl | ⟨d, hd, hdc⟩
  · exact hne rfl
  · obtain rfl := hp.owner_unique hc hdc
    exact hp.not_reaches_of_refers hb hd

/-- Different nodes below one node lead to different nodes. -/
theorem eq_of_common_below {a b c d : NodeId} (hb : p.Refers a b) (hc : p.Refers a c)
    (hbd : p.Reaches b d) (hcd : p.Reaches c d) : b = c := by
  by_contra hne
  rcases hp.reaches_total hbd hcd with h | h
  · exact hp.not_reaches_sibling hb hc hne h
  · exact hp.not_reaches_sibling hc hb (Ne.symm hne) h

/-- Different nodes at the top level lead to different nodes. -/
theorem eq_of_common_below_topLevel {a b c : NodeId} (ha : a ∈ p.topLevel) (hb : b ∈ p.topLevel)
    (hac : p.Reaches a c) (hbc : p.Reaches b c) : a = b := by
  rcases hp.reaches_total hac hbc with h | h
  · rcases h.eq_or_mem_targets with h | h
    · exact h.symm
    · exact absurd h (hp.topLevel_free b hb)
  · rcases h.eq_or_mem_targets with h | h
    · exact h
    · exact absurd h (hp.topLevel_free a ha)

end IsForest

/-! ### The number of nodes below a node -/

open Classical in
noncomputable def below (p : Program) (id : NodeId) : List NodeId :=
  (p.nodes.map (·.id)).filter (fun b => p.Reaches id b)

noncomputable def weight (p : Program) (id : NodeId) : Nat := (p.below id).length

theorem mem_below {a b : NodeId} : b ∈ p.below a ↔ (∃ n ∈ p.nodes, n.id = b) ∧ p.Reaches a b := by
  simp [below]

theorem weight_le_size (p : Program) (id : NodeId) : p.weight id ≤ p.size := by
  classical
  calc
    p.weight id ≤ (p.nodes.map (·.id)).length := List.length_filter_le _ _
    _ = p.size := List.length_map _

theorem weight_pos {id : NodeId} (h : ∃ n ∈ p.nodes, n.id = id) : 0 < p.weight id :=
  List.length_pos_of_mem (mem_below.mpr ⟨h, .refl⟩)

/-- A step down that does not lead back leaves fewer nodes below. -/
theorem weight_lt_of_not_reaches (hids : (p.nodes.map (·.id)).Nodup) {a b : NodeId}
    (h : p.Refers a b) (hback : ¬p.Reaches b a) : p.weight b < p.weight a := by
  classical
  obtain ⟨n, hn, ha, -⟩ := id h
  have hsub : p.below b ⊆ p.below a := by
    intro c hc
    obtain ⟨hexists, hreach⟩ := mem_below.mp hc
    exact mem_below.mpr ⟨hexists, .head h hreach⟩
  have hnot : a ∉ p.below b := fun hmem => hback (mem_below.mp hmem).2
  have hmem : a ∈ p.below a := mem_below.mpr ⟨⟨n, hn, ha⟩, .refl⟩
  have hnodup : (a :: p.below b).Nodup := List.nodup_cons.mpr ⟨hnot, hids.filter _⟩
  exact (List.subperm_of_subset hnodup (List.cons_subset.mpr ⟨hmem, hsub⟩)).length_le

/-- Each step down in a forest leaves fewer nodes below. -/
theorem IsForest.weight_lt (hp : p.IsForest) {a b : NodeId} (h : p.Refers a b) :
    p.weight b < p.weight a :=
  weight_lt_of_not_reaches hp.ids_nodup h (hp.not_reaches_of_refers h)

theorem IsForest.weight_le (hp : p.IsForest) {a b : NodeId} (h : p.Reaches a b) :
    p.weight b ≤ p.weight a := by
  induction h with
  | refl => exact Nat.le_refl _
  | tail _ hstep ih =>
      have hlt := hp.weight_lt hstep
      omega

end Program

end BlockSketch
