import BlockSketch.Program.Traversal
import BlockSketch.Proofs.Program.Regions

/-!
The order in which statements run. A chain lists its nodes one after the other, each with the chains
in its statement sockets behind it. In a forest the nodes of such a piece lie in the region of the
node that it starts with, and what follows that node lies outside, so no statement is listed twice.
-/

namespace BlockSketch.Program

variable {p : Program}

def piece (p : Program) (depth : Nat) (n : Node) : List Node :=
  n :: n.heads.flatMap (fun id => p.nestedChain depth (some id))

theorem chainFrom_none (count : Nat) : p.chainFrom count none = [] := by
  cases count <;> rfl

theorem nestedChain_none (depth : Nat) : p.nestedChain depth none = [] := by
  cases depth with
  | zero => rfl
  | succ depth => rw [nestedChain, chain, chainFrom_none, List.flatMap_nil]

/-- An empty statement socket adds nothing to the order. -/
theorem flatMap_heads (depth : Nat) (sockets : List StatementSocket) :
    (sockets.filterMap (·.head)).flatMap (fun id => p.nestedChain depth (some id)) =
      sockets.flatMap (fun s => p.nestedChain depth s.head) := by
  induction sockets with
  | nil => rfl
  | cons s rest ih =>
      rw [List.flatMap_cons, ← ih]
      cases hhead : s.head with
      | none => rw [List.filterMap_cons_none hhead, nestedChain_none, List.nil_append]
      | some id => rw [List.filterMap_cons_some hhead, List.flatMap_cons]

theorem piece_eq (depth : Nat) (n : Node) :
    p.piece depth n = n :: n.statements.flatMap (fun s => p.nestedChain depth s.head) := by
  rw [← flatMap_heads]
  rfl

theorem nestedChain_succ (depth : Nat) (head : Option NodeId) :
    p.nestedChain (depth + 1) head = (p.chain head).flatMap (p.piece depth) := by
  simp only [nestedChain, ← piece_eq]

/-! ### Where the listed nodes lie -/

theorem mem_chainFrom {count : Nat} {id : NodeId} {n : Node}
    (hn : n ∈ p.chainFrom count (some id)) :
    p.find? n.id = some n ∧ p.Reaches id n.id := by
  induction count generalizing id with
  | zero => cases hn
  | succ count ih =>
      rw [chainFrom] at hn
      cases hfind : p.find? id with
      | none =>
          rw [hfind] at hn
          cases hn
      | some m =>
          rw [hfind] at hn
          obtain rfl : m.id = id := id_of_find? hfind
          rcases List.mem_cons.mp hn with rfl | hn
          · exact ⟨hfind, .refl⟩
          · cases hnext : m.next with
            | none =>
                rw [hnext, chainFrom_none] at hn
                cases hn
            | some next =>
                rw [hnext] at hn
                obtain ⟨hfound, hreach⟩ := ih hn
                have hrefers := refers_of_mem (mem_of_find? hfind) (mem_targets_of_next hnext)
                exact ⟨hfound, .head hrefers hreach⟩

theorem mem_nestedChain {depth : Nat} {id : NodeId} {n : Node}
    (hn : n ∈ p.nestedChain depth (some id)) : p.find? n.id = some n ∧ p.Reaches id n.id := by
  induction depth generalizing id n with
  | zero => cases hn
  | succ depth ih =>
      rw [nestedChain_succ, List.mem_flatMap] at hn
      obtain ⟨m, hm, hn⟩ := hn
      obtain ⟨hfind, hreach⟩ := mem_chainFrom hm
      rcases List.mem_cons.mp hn with rfl | hn
      · exact ⟨hfind, hreach⟩
      · obtain ⟨c, hc, hn⟩ := List.mem_flatMap.mp hn
        obtain ⟨hfound, hbelow⟩ := ih hn
        have hrefers := refers_of_mem (mem_of_find? hfind)
          (mem_targets_of_mem_sockets (List.mem_append_right _ hc))
        exact ⟨hfound, hreach.trans (.head hrefers hbelow)⟩

theorem mem_piece {depth : Nat} {n m : Node} (hm : m ∈ p.piece depth n) : p.Region n m.id := by
  rcases List.mem_cons.mp hm with rfl | hm
  · exact .inl rfl
  · obtain ⟨c, hc, hm⟩ := List.mem_flatMap.mp hm
    exact .inr ⟨c, List.mem_append_right _ hc, (mem_nestedChain hm).2⟩

/-! ### No node is listed twice -/

def ids (nodes : List Node) : List NodeId := nodes.map (·.id)

theorem mem_ids {nodes : List Node} {id : NodeId} : id ∈ ids nodes ↔ ∃ n ∈ nodes, n.id = id :=
  List.mem_map

theorem ids_flatMap {α : Type} (l : List α) (f : α → List Node) :
    ids (l.flatMap f) = l.flatMap (fun a => ids (f a)) :=
  List.map_flatMap

/-- Lists of what lies below different nodes have no number in common. -/
theorem nodup_flatMap_of_apart {l : List NodeId} {f : NodeId → List Node} (hl : l.Nodup)
    (hbelow : ∀ c ∈ l, ∀ n ∈ f c, p.Reaches c n.id) (hnodup : ∀ c ∈ l, (ids (f c)).Nodup)
    (hapart : ∀ a ∈ l, ∀ b ∈ l, ∀ id, p.Reaches a id → p.Reaches b id → a = b) :
    (ids (l.flatMap f)).Nodup := by
  rw [ids_flatMap, List.nodup_flatMap]
  refine ⟨hnodup, hl.pairwise_of_forall_ne fun a ha b hb hne => ?_⟩
  intro id hida hidb
  obtain ⟨n, hn, rfl⟩ := mem_ids.mp hida
  obtain ⟨m, hm, hid⟩ := mem_ids.mp hidb
  exact hne (hapart a ha b hb n.id (hbelow a ha n hn) (hid ▸ hbelow b hb m hm))

namespace IsForest

variable (hp : p.IsForest)
include hp

theorem nodup_piece {depth : Nat} (hdepth : ∀ id, (ids (p.nestedChain depth (some id))).Nodup)
    {n : Node} (hn : n ∈ p.nodes) : (ids (p.piece depth n)).Nodup := by
  have hrefers (c : NodeId) (hc : c ∈ n.heads) : p.Refers n.id c :=
    refers_of_mem hn (mem_targets_of_mem_sockets (List.mem_append_right _ hc))
  refine List.nodup_cons.mpr ⟨?_, ?_⟩
  · intro hmem
    obtain ⟨m, hm, hid⟩ := mem_ids.mp hmem
    obtain ⟨c, hc, hm⟩ := List.mem_flatMap.mp hm
    have hback : p.Reaches c m.id := (mem_nestedChain hm).2
    rw [hid] at hback
    exact hp.not_reaches_of_refers (hrefers c hc) hback
  · apply nodup_flatMap_of_apart
    · exact (hp.apart_sockets hn).nodup.of_append_right
    · exact fun c _ m hm => (mem_nestedChain hm).2
    · exact fun c _ => hdepth c
    · exact fun a ha b hb id => hp.eq_of_common_below (hrefers a ha) (hrefers b hb)

theorem nodup_pieces {depth : Nat} (hdepth : ∀ id, (ids (p.nestedChain depth (some id))).Nodup)
    (count : Nat) (id : NodeId) :
    (ids ((p.chainFrom count (some id)).flatMap (p.piece depth))).Nodup := by
  induction count generalizing id with
  | zero => exact List.nodup_nil
  | succ count ih =>
      rw [chainFrom]
      cases hfind : p.find? id with
      | none => exact List.nodup_nil
      | some n =>
          have hn := mem_of_find? hfind
          rw [List.flatMap_cons, ids, List.map_append]
          refine (hp.nodup_piece hdepth hn).append ?_ ?_
          · cases hnext : n.next with
            | none =>
                rw [chainFrom_none]
                exact List.nodup_nil
            | some next => exact ih next
          · intro x hpiece hrest
            obtain ⟨m, hm, rfl⟩ := mem_ids.mp hpiece
            obtain ⟨m', hm', hid⟩ := mem_ids.mp hrest
            obtain ⟨k, hk, hm'⟩ := List.mem_flatMap.mp hm'
            cases hnext : n.next with
            | none =>
                rw [hnext, chainFrom_none] at hk
                cases hk
            | some next =>
                rw [hnext] at hk
                obtain ⟨hfound, hreach⟩ := mem_chainFrom hk
                have hbelow := (mem_piece hm').reaches (mem_of_find? hfound)
                exact hp.region_next hn hnext (mem_piece hm) (hid ▸ hreach.trans hbelow)

theorem nodup_nestedChain (depth : Nat) (id : NodeId) :
    (ids (p.nestedChain depth (some id))).Nodup := by
  induction depth generalizing id with
  | zero => exact List.nodup_nil
  | succ depth ih =>
      rw [nestedChain_succ]
      exact hp.nodup_pieces ih p.size id

/-- No statement of a forest runs twice. -/
theorem nodup_executionOrder : (ids p.executionOrder).Nodup := by
  apply nodup_flatMap_of_apart hp.topLevel_nodup
  · exact fun c _ n hn => (mem_nestedChain hn).2
  · exact fun c _ => hp.nodup_nestedChain _ c
  · exact fun a ha b hb id => hp.eq_of_common_below_topLevel ha hb

end IsForest

end BlockSketch.Program
