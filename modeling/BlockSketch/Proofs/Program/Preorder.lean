import BlockSketch.Proofs.Program.ExecutionOrder
import BlockSketch.Proofs.Program.Validation

/-!
The execution order as a preorder. A statement runs before what hangs in its statement sockets, and
that before the next statement. This is stated as a relation without bounds on the length of a chain
or on the depth of nesting, so it holds only where the walk comes to an end by itself. In a forest
it does: each step leads to a node with fewer nodes below it, and both bounds of the walk are the
number of all nodes.
-/

namespace BlockSketch.Program

variable {p : Program} {id : NodeId} {n : Node}

/-! ### Walks without bounds -/

/-- The nodes along the links from a node, up to one without a next node. -/
inductive IsChain (p : Program) : Option NodeId → List Node → Prop where
  | stop : p.IsChain none []
  | link {id : NodeId} {n : Node} {rest : List Node} (hn : p.find? id = some n)
      (hrest : p.IsChain n.next rest) : p.IsChain (some id) (n :: rest)

/-- What the walk lists from a node on: the node, then what it lists for the statement sockets in
their order, then what it lists from the next node on. -/
inductive Listing (p : Program) : Option NodeId → List Node → Prop where
  | stop : p.Listing none []
  | node {id : NodeId} {n : Node} {parts : StatementSocket → List Node} {rest : List Node}
      (hn : p.find? id = some n) (hparts : ∀ s ∈ n.statements, p.Listing s.head (parts s))
      (hrest : p.Listing n.next rest) :
      p.Listing (some id) (n :: n.statements.flatMap parts ++ rest)

/-- A statement is followed by another one: the first in a statement socket, or the next one. -/
def GoesOn (p : Program) (a b : NodeId) : Prop :=
  ∃ n ∈ p.nodes, n.id = a ∧ (b ∈ n.heads ∨ n.next = some b)

/-- A statement leads to another one through statement sockets and links only. -/
abbrev Runs (p : Program) : NodeId → NodeId → Prop := Relation.ReflTransGen p.GoesOn

theorem GoesOn.refers {a b : NodeId} (h : p.GoesOn a b) : p.Refers a b := by
  obtain ⟨n, hn, rfl, hb | hb⟩ := h
  · exact refers_of_mem hn (mem_targets_of_mem_sockets (List.mem_append_right _ hb))
  · exact refers_of_mem hn (mem_targets_of_next hb)

/-- A walk lists the same whenever it comes to an end. -/
theorem Listing.unique {head : Option NodeId} {l l' : List Node} (h : p.Listing head l)
    (h' : p.Listing head l') : l = l' := by
  induction h generalizing l' with
  | stop =>
      cases h'
      rfl
  | node hn hparts hrest ihparts ihrest =>
      cases h' with
      | node hn' hparts' hrest' =>
          obtain rfl := Option.some.inj (hn.symm.trans hn')
          rw [ihrest hrest', List.flatMap_congr fun s hs => ihparts s hs (hparts' s hs)]

/-- A walk lists the statements that its first node leads to. -/
theorem Listing.mem_iff (hids : (p.nodes.map (·.id)).Nodup) {head : Option NodeId} {l : List Node}
    (h : p.Listing head l) {m : Node} :
    m ∈ l ↔ ∃ id, head = some id ∧ p.find? m.id = some m ∧ p.Runs id m.id := by
  induction h with
  | stop => simp
  | @node id n parts rest hn _ _ ihparts ihrest =>
      obtain rfl : n.id = id := id_of_find? hn
      have hmem := mem_of_find? hn
      have hhead (s : StatementSocket) (hs : s ∈ n.statements) (c : NodeId)
          (hc : s.head = some c) : p.GoesOn n.id c :=
        ⟨n, hmem, rfl, .inl (List.mem_filterMap.mpr ⟨s, hs, hc⟩)⟩
      rw [List.cons_append, List.mem_cons, List.mem_append, List.mem_flatMap]
      constructor
      · rintro (rfl | ⟨s, hs, hm⟩ | hm)
        · exact ⟨m.id, rfl, hn, .refl⟩
        · obtain ⟨c, hc, hfind, hruns⟩ := (ihparts s hs).mp hm
          exact ⟨n.id, rfl, hfind, .head (hhead s hs c hc) hruns⟩
        · obtain ⟨c, hc, hfind, hruns⟩ := ihrest.mp hm
          exact ⟨n.id, rfl, hfind, .head ⟨n, hmem, rfl, .inr hc⟩ hruns⟩
      · rintro ⟨_, heq, hfind, hruns⟩
        cases heq
        rcases Relation.ReflTransGen.cases_head hruns with hid | ⟨c, ⟨owner, howner, hid, hc⟩, hon⟩
        · rw [← hid, hn] at hfind
          exact .inl (Option.some.inj hfind).symm
        · obtain rfl := List.inj_on_of_nodup_map hids howner hmem hid
          rcases hc with hc | hc
          · obtain ⟨s, hs, hc⟩ := List.mem_filterMap.mp hc
            exact .inr (.inl ⟨s, hs, (ihparts s hs).mpr ⟨c, hc, hfind, hon⟩⟩)
          · exact .inr (.inr (ihrest.mpr ⟨c, hc, hfind, hon⟩))

/-! ### Walks in forests -/

namespace IsForest

variable (hp : p.IsForest)
include hp

/-- A chain has no more nodes than there are below its first one. -/
theorem isChain_chainFrom {count : Nat} (hid : ∃ n ∈ p.nodes, n.id = id)
    (hcount : p.weight id ≤ count) : p.IsChain (some id) (p.chainFrom count (some id)) := by
  induction count generalizing id with
  | zero =>
      have hpos := weight_pos hid
      omega
  | succ count ih =>
      obtain ⟨n, hn⟩ := exists_find? hid
      obtain rfl := id_of_find? hn
      rw [chainFrom, hn]
      refine .link hn ?_
      cases hnext : n.next with
      | none =>
          rw [chainFrom_none]
          exact .stop
      | some next =>
          have hrefers := refers_of_mem (mem_of_find? hn) (mem_targets_of_next hnext)
          have hlt := hp.weight_lt hrefers
          exact ih (hp.exists_of_refers hrefers) (by omega)

/-- A walk comes to an end if its bounds are no less than the number of nodes below its first
one. -/
theorem listing_pieces {count depth : Nat} (hid : ∃ n ∈ p.nodes, n.id = id)
    (hcount : p.weight id ≤ count) (hdepth : p.weight id ≤ depth + 1) :
    p.Listing (some id) ((p.chainFrom count (some id)).flatMap (p.piece depth)) := by
  induction hweight : p.weight id using Nat.strongRecOn generalizing id count depth with
  | ind weight ih =>
      have hpos := weight_pos hid
      obtain ⟨n, hn⟩ := exists_find? hid
      obtain rfl := id_of_find? hn
      have hmem := mem_of_find? hn
      obtain ⟨count, rfl⟩ : ∃ k, count = k + 1 := Nat.exists_eq_succ_of_ne_zero (by omega)
      rw [chainFrom, hn, List.flatMap_cons, piece_eq]
      refine .node hn (fun s hs => ?_) ?_
      · cases hhead : s.head with
        | none =>
            rw [nestedChain_none]
            exact .stop
        | some head =>
            have hheads : head ∈ n.heads := List.mem_filterMap.mpr ⟨s, hs, hhead⟩
            have hrefers : p.Refers n.id head := GoesOn.refers ⟨n, hmem, rfl, .inl hheads⟩
            have hexists := hp.exists_of_refers hrefers
            have hlt := hp.weight_lt hrefers
            have hheadPos := weight_pos hexists
            obtain ⟨depth, rfl⟩ : ∃ k, depth = k + 1 := Nat.exists_eq_succ_of_ne_zero (by omega)
            rw [nestedChain_succ]
            exact ih _ (by omega) hexists (p.weight_le_size head) (by omega) rfl
      · cases hnext : n.next with
        | none =>
            rw [chainFrom_none]
            exact .stop
        | some next =>
            have hrefers : p.Refers n.id next := GoesOn.refers ⟨n, hmem, rfl, .inr hnext⟩
            have hlt := hp.weight_lt hrefers
            exact ih _ (by omega) (hp.exists_of_refers hrefers) (by omega) (by omega) rfl

theorem listing_nestedChain (hid : ∃ n ∈ p.nodes, n.id = id) :
    p.Listing (some id) (p.nestedChain (p.size + 1) (some id)) := by
  have hle := p.weight_le_size id
  rw [nestedChain_succ]
  exact hp.listing_pieces hid hle (by omega)

/-- What hangs in a value socket, or further below it, is not run from the top level. -/
theorem not_reaches_of_runs {head c : NodeId} (hhead : head ∈ p.topLevel) (hn : n ∈ p.nodes)
    (hc : c ∈ n.children) (hruns : p.Runs head id) : ¬p.Reaches c id := by
  have hrefers : p.Refers n.id c :=
    refers_of_mem hn (mem_targets_of_mem_sockets (List.mem_append_left _ hc))
  induction hruns with
  | refl =>
      intro hreach
      rcases hreach.eq_or_mem_targets with rfl | hmem
      · exact hp.topLevel_free head hhead hrefers.mem_targets
      · exact hp.topLevel_free head hhead hmem
  | tail _ hstep ih =>
      intro hreach
      rcases Relation.ReflTransGen.cases_tail hreach with rfl | ⟨owner, hback, howner⟩
      · -- the node itself would hang in a value socket and follow a statement
        obtain ⟨m, hm, hid, hnext⟩ := hstep
        have hsame : m.id = n.id := by
          rw [hid]
          exact hp.owner_unique (GoesOn.refers ⟨m, hm, hid, hnext⟩) hrefers
        obtain rfl := List.inj_on_of_nodup_map hp.ids_nodup hm hn hsame
        have hnodup := hp.nodup_sockets_next hm
        rw [List.append_assoc] at hnodup
        refine List.disjoint_of_nodup_append hnodup hc ?_
        rcases hnext with hnext | hnext <;> simp [hnext]
      · obtain rfl := hp.owner_unique howner hstep.refers
        exact ih hback

end IsForest

/-- In a program that passes the validation, the execution order is the preorder of its statements.
It puts together what unbounded walks list from the nodes at the top level, in their order. It has
each statement once that the top level leads to through statement sockets and links, and nothing
that hangs below a value socket. No chain is cut off. -/
theorem executionOrder_is_preorder {p : Program} {index : ParentIndex}
    (hvalid : p.validate = .ok index) :
    (∃ walks : NodeId → List Node, p.executionOrder = p.topLevel.flatMap walks ∧
      ∀ id ∈ p.topLevel, ∀ l, p.Listing (some id) l ↔ l = walks id) ∧
    (p.executionOrder.map (·.id)).Nodup ∧
    (∀ n, n ∈ p.executionOrder ↔ n ∈ p.nodes ∧ ∃ head ∈ p.topLevel, p.Runs head n.id) ∧
    (∀ n ∈ p.nodes, ∀ c ∈ n.children, ∀ m ∈ p.executionOrder, ¬p.Reaches c m.id) ∧
    ∀ n ∈ p.nodes, p.IsChain (some n.id) (p.chain (some n.id)) := by
  obtain ⟨hp, -⟩ := validate_eq_ok_iff_isForest.mp hvalid
  have hlisting (id : NodeId) (hid : id ∈ p.topLevel) :=
    hp.listing_nestedChain (hp.topLevel_exist id hid)
  have hmem (n : Node) : n ∈ p.executionOrder ↔
      n ∈ p.nodes ∧ ∃ head ∈ p.topLevel, p.Runs head n.id := by
    rw [executionOrder, List.mem_flatMap]
    constructor
    · rintro ⟨head, hhead, hn⟩
      obtain ⟨_, heq, hfind, hruns⟩ := ((hlisting head hhead).mem_iff hp.ids_nodup).mp hn
      cases heq
      exact ⟨mem_of_find? hfind, head, hhead, hruns⟩
    · rintro ⟨hn, head, hhead, hruns⟩
      exact ⟨head, hhead, ((hlisting head hhead).mem_iff hp.ids_nodup).mpr
        ⟨head, rfl, find?_of_mem hp.ids_nodup hn, hruns⟩⟩
  refine ⟨⟨_, rfl, fun id hid l => ⟨fun h => h.unique (hlisting id hid), ?_⟩⟩,
    hp.nodup_executionOrder, hmem, ?_, ?_⟩
  · rintro rfl
    exact hlisting id hid
  · intro n hn c hc m hm
    obtain ⟨-, head, hhead, hruns⟩ := (hmem m).mp hm
    exact hp.not_reaches_of_runs hhead hn hc hruns
  · exact fun n hn => hp.isChain_chainFrom ⟨n, hn, rfl⟩ (p.weight_le_size n.id)

/-- A loop with a count and a body of two statements, one behind it, and a chain of its own. -/
def loopSample : Program where
  nodes :=
    [{ id := ⟨6⟩, kind := "base_delay" }, { id := ⟨4⟩, kind := "base_delay" },
      { id := ⟨5⟩, kind := "base_delay" }, { id := ⟨3⟩, kind := "base_delay", next := some ⟨5⟩ },
      { id := ⟨2⟩, kind := "math_number" },
      { id := ⟨1⟩, kind := "controls_repeat_ext", next := some ⟨4⟩
        values := [{ name := "TIMES", child := some ⟨2⟩ }]
        statements := [{ name := "DO", head := some ⟨3⟩ }] }]
  topLevel := [⟨1⟩, ⟨6⟩]

theorem loopSample_in_preorder :
    (∃ index, loopSample.validate = .ok index) ∧
      loopSample.executionOrder.map (·.id.number) = [1, 3, 5, 4, 6] ∧
      ∃ walks : NodeId → List Node, loopSample.executionOrder = loopSample.topLevel.flatMap walks ∧
        ∀ id ∈ loopSample.topLevel, loopSample.Listing (some id) (walks id) := by
  have hvalid : ∃ index, loopSample.validate = .ok index := ⟨_, rfl⟩
  obtain ⟨index, hindex⟩ := hvalid
  obtain ⟨⟨walks, horder, hwalks⟩, -⟩ := executionOrder_is_preorder hindex
  exact ⟨⟨index, hindex⟩, rfl, walks, horder, fun id hid => (hwalks id hid _).mpr rfl⟩

end BlockSketch.Program
