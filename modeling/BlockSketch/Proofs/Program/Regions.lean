import BlockSketch.Proofs.Emission.Sockets
import BlockSketch.Proofs.Program.Forest

/-!
Regions of a program. The code of a node is made of the node and of what hangs in its sockets. In a
forest, different sockets lead to different nodes, and what follows a node is not below it.
-/

namespace BlockSketch

namespace Program

variable {p : Program}

def IsInput (p : Program) (id : NodeId) : Prop := ∃ owner ∈ p.nodes, id ∈ owner.children

/-- A node that starts the chain in a statement socket or follows another node. -/
def IsStep (p : Program) (id : NodeId) : Prop :=
  ∃ owner ∈ p.nodes, id ∈ owner.heads ∨ owner.next = some id

theorem IsInput.mem_targets {id : NodeId} (h : p.IsInput id) : id ∈ p.targets := by
  obtain ⟨owner, howner, hid⟩ := h
  refine Program.mem_targets.mpr ⟨owner, howner, ?_⟩
  simp [Node.targets_eq, hid]

theorem IsStep.mem_targets {id : NodeId} (h : p.IsStep id) : id ∈ p.targets := by
  obtain ⟨owner, howner, hid⟩ := h
  refine Program.mem_targets.mpr ⟨owner, howner, ?_⟩
  rcases hid with hid | hid <;> simp [Node.targets_eq, hid]

/-- The nodes that the code of a node is made of: itself and what hangs in its sockets, but not what
follows it. -/
def Region (p : Program) (n : Node) (id : NodeId) : Prop :=
  id = n.id ∨ ∃ c ∈ n.children ++ n.heads, p.Reaches c id

theorem refers_of_mem {n : Node} (hn : n ∈ p.nodes) {c : NodeId} (hc : c ∈ n.targets) :
    p.Refers n.id c := ⟨n, hn, rfl, hc⟩

theorem mem_targets_of_mem_sockets {n : Node} {c : NodeId} (hc : c ∈ n.children ++ n.heads) :
    c ∈ n.targets := by
  rw [Node.targets_eq]
  exact List.mem_append_left _ hc

theorem mem_targets_of_next {n : Node} {c : NodeId} (hc : n.next = some c) : c ∈ n.targets := by
  simp [Node.targets_eq, hc]

theorem Region.reaches {n : Node} (hn : n ∈ p.nodes) {id : NodeId} (h : p.Region n id) :
    p.Reaches n.id id := by
  rcases h with rfl | ⟨c, hc, hreach⟩
  · exact .refl
  · exact .head (refers_of_mem hn (mem_targets_of_mem_sockets hc)) hreach

theorem IsForest.nodup_sockets_next (hp : p.IsForest) {n : Node} (hn : n ∈ p.nodes) :
    (n.children ++ n.heads ++ n.next.toList).Nodup := by
  rw [← Node.targets_eq]
  exact nodup_targets_of_mem hp.targets_nodup hn

/-- What follows a node is not below it. -/
theorem IsForest.region_next (hp : p.IsForest) {n : Node} (hn : n ∈ p.nodes) {next id : NodeId}
    (hnext : n.next = some next) (hregion : p.Region n id) : ¬p.Reaches next id := by
  intro hreach
  have hrefers := refers_of_mem hn (mem_targets_of_next hnext)
  rcases hregion with rfl | ⟨c, hc, hbelow⟩
  · exact hp.not_reaches_of_refers hrefers hreach
  · obtain rfl := hp.eq_of_common_below
      (refers_of_mem hn (mem_targets_of_mem_sockets hc)) hrefers hbelow hreach
    have hdisjoint := List.disjoint_of_nodup_append (hp.nodup_sockets_next hn)
    exact hdisjoint hc (by simp [hnext])

/-- Nodes that lead to different nodes, with places where their code can stand: as values, and as
heads of chains. -/
structure Apart (p : Program) (values heads : List NodeId) : Prop where
  input : ∀ id ∈ values, p.IsInput id
  step : ∀ id ∈ heads, p.IsStep id ∨ id ∈ p.topLevel
  nodup : (values ++ heads).Nodup
  apart : ∀ a ∈ values ++ heads, ∀ b ∈ values ++ heads, ∀ id,
    p.Reaches a id → p.Reaches b id → a = b

namespace Apart

variable {values values' heads heads' : List NodeId} {id : NodeId}

theorem perm (h : p.Apart values heads) (hvalues : values.Perm values')
    (hheads : heads.Perm heads') : p.Apart values' heads' := by
  have hperm := hvalues.append hheads
  refine ⟨fun a ha => h.input a (hvalues.mem_iff.mpr ha),
    fun a ha => h.step a (hheads.mem_iff.mpr ha), hperm.nodup_iff.mp h.nodup, ?_⟩
  intro a ha b hb
  exact h.apart a (hperm.mem_iff.mpr ha) b (hperm.mem_iff.mpr hb)

theorem sublist (h : p.Apart values heads) (hvalues : values'.Sublist values)
    (hheads : heads'.Sublist heads) : p.Apart values' heads' := by
  have hsub := hvalues.append hheads
  refine ⟨fun a ha => h.input a (hvalues.subset ha), fun a ha => h.step a (hheads.subset ha),
    h.nodup.sublist hsub, ?_⟩
  intro a ha b hb
  exact h.apart a (hsub.subset ha) b (hsub.subset hb)

/-- A node that stands alone leads to nothing that the others lead to. -/
theorem disjoint {rest : List NodeId} (h : p.Apart values heads)
    (hperm : (values ++ heads).Perm (id :: rest)) {x : NodeId} (hx : p.Reaches id x) :
    ¬∃ a ∈ rest, p.Reaches a x := by
  rintro ⟨a, ha, hax⟩
  have hmem : a ∈ values ++ heads := hperm.mem_iff.mpr (List.mem_cons_of_mem _ ha)
  have hid : id ∈ values ++ heads := hperm.mem_iff.mpr List.mem_cons_self
  obtain rfl := h.apart id hid a hmem x hx hax
  exact (List.nodup_cons.mp (hperm.nodup_iff.mp h.nodup)).1 ha

end Apart

/-- What hangs in the sockets of a node. -/
theorem IsForest.apart_sockets (hp : p.IsForest) {n : Node} (hn : n ∈ p.nodes) :
    p.Apart n.children n.heads where
  input _ hid := ⟨n, hn, hid⟩
  step _ hid := .inl ⟨n, hn, .inl hid⟩
  nodup := (hp.nodup_sockets_next hn).of_append_left
  apart _ ha _ hb _ hax hbx := hp.eq_of_common_below
    (refers_of_mem hn (mem_targets_of_mem_sockets ha))
    (refers_of_mem hn (mem_targets_of_mem_sockets hb)) hax hbx

theorem IsForest.apart_topLevel (hp : p.IsForest) : p.Apart [] p.topLevel where
  input _ hid := absurd hid (List.not_mem_nil)
  step _ hid := .inr hid
  nodup := hp.topLevel_nodup
  apart _ ha _ hb _ hax hbx := hp.eq_of_common_below_topLevel ha hb hax hbx

end Program

end BlockSketch
