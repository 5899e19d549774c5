import BlockSketch.Proofs.Program.Forest
import Mathlib.Data.List.Flatten

/-!
Validation accepts exactly the forests, and the index that it returns is the inverse of the
references. Each pass of the check gets a lemma that says when it succeeds. What the search from the
top level has on its worklist or has reached by then are the nodes at the top level and those below
the reached ones, each as often as it stands there, so a node that comes up twice stands at two
places.
-/

namespace BlockSketch

/-! ### Single checks -/

theorem firstRepeat?_eq_none_iff {α : Type} [DecidableEq α] {seen l : List α} :
    firstRepeat? seen l = none ↔ l.Nodup ∧ ∀ a ∈ l, a ∉ seen := by
  induction l generalizing seen with
  | nil => simp [firstRepeat?]
  | cons a rest ih =>
      rw [firstRepeat?]
      split
      next h =>
        constructor
        · intro hnone
          cases hnone
        · intro hall
          exact absurd h (hall.2 a List.mem_cons_self)
      next h =>
        rw [ih, List.nodup_cons]
        constructor
        · rintro ⟨hnodup, hfresh⟩
          refine ⟨⟨fun hmem => hfresh a hmem List.mem_cons_self, hnodup⟩, ?_⟩
          intro b hb
          rcases List.mem_cons.mp hb with rfl | hb
          · exact h
          · exact fun hseen => hfresh b hb (List.mem_cons_of_mem a hseen)
        · rintro ⟨⟨hhead, hnodup⟩, hfresh⟩
          refine ⟨hnodup, fun b hb hseen => ?_⟩
          rcases List.mem_cons.mp hseen with rfl | hseen
          · exact hhead hb
          · exact hfresh b (List.mem_cons_of_mem a hb) hseen

theorem bind_eq_ok_iff {ε α β : Type} {x : Except ε α} {f : α → Except ε β} {b : β} :
    x >>= f = .ok b ↔ ∃ a, x = .ok a ∧ f a = .ok b := by
  cases x <;> simp [bind, Except.bind]

theorem forM_eq_ok_iff {ε α : Type} {f : α → Except ε Unit} {l : List α} :
    l.forM f = .ok () ↔ ∀ a ∈ l, f a = .ok () := by
  induction l with
  | nil => simp [pure, Except.pure]
  | cons a rest ih =>
      rw [List.forall_mem_cons, ← ih]
      change (f a >>= fun _ => rest.forM f) = .ok () ↔ _
      cases f a <;> simp [bind, Except.bind]

/-! ### The index of places -/

namespace ParentIndex

@[simp] theorem place?_empty (id : NodeId) : empty.place? id = none := rfl

theorem place?_insert (index : ParentIndex) (target id : NodeId) (place : Place) :
    (index.insert target place).place? id =
      if id = target then some place else index.place? id :=
  SortedMap.find?_insert index.places target id place

def record (index : ParentIndex) (refs : List (Place × NodeId)) : ParentIndex :=
  refs.foldl (fun index r => index.insert r.2 r.1) index

theorem record_cons (index : ParentIndex) (r : Place × NodeId) (rest : List (Place × NodeId)) :
    index.record (r :: rest) = (index.insert r.2 r.1).record rest := rfl

theorem record_append (index : ParentIndex) (refs rest : List (Place × NodeId)) :
    index.record (refs ++ rest) = (index.record refs).record rest := List.foldl_append

/-- Some references can be recorded: no target has a place yet, and none is referred to twice. -/
def Admits (index : ParentIndex) (refs : List (Place × NodeId)) : Prop :=
  (refs.map Prod.snd).Nodup ∧ ∀ r ∈ refs, index.place? r.2 = none

theorem admits_nil (index : ParentIndex) : index.Admits [] := by simp [Admits]

theorem admits_cons {index : ParentIndex} {r : Place × NodeId} {rest : List (Place × NodeId)} :
    index.Admits (r :: rest) ↔
      index.place? r.2 = none ∧ (index.insert r.2 r.1).Admits rest := by
  simp only [Admits, List.map_cons, List.nodup_cons, List.forall_mem_cons, place?_insert]
  constructor
  · rintro ⟨⟨hhead, hnodup⟩, hfree, hrest⟩
    refine ⟨hfree, hnodup, fun s hs => ?_⟩
    have hne : s.2 ≠ r.2 := fun h => hhead (h ▸ List.mem_map_of_mem hs)
    rw [if_neg hne]
    exact hrest s hs
  · rintro ⟨hfree, hnodup, hrest⟩
    have hne : ∀ s ∈ rest, s.2 ≠ r.2 := by
      intro s hs heq
      simpa [heq] using hrest s hs
    refine ⟨⟨fun hmem => ?_, hnodup⟩, hfree, fun s hs => ?_⟩
    · obtain ⟨s, hs, heq⟩ := List.mem_map.mp hmem
      exact hne s hs heq
    · simpa [hne s hs] using hrest s hs

theorem admits_append {index : ParentIndex} {refs rest : List (Place × NodeId)} :
    index.Admits (refs ++ rest) ↔ index.Admits refs ∧ (index.record refs).Admits rest := by
  induction refs generalizing index with
  | nil => simp [admits_nil, record]
  | cons r refs ih =>
      rw [List.cons_append, admits_cons, admits_cons, ih, record_cons, and_assoc]

/-- A node has the place that was recorded for it. -/
theorem place?_record {index : ParentIndex} {refs : List (Place × NodeId)} (h : index.Admits refs)
    {id : NodeId} {place : Place} :
    (index.record refs).place? id = some place ↔
      (place, id) ∈ refs ∨ index.place? id = some place := by
  induction refs generalizing index with
  | nil => simp [record]
  | cons r refs ih =>
      obtain ⟨hfree, hrest⟩ := admits_cons.mp h
      rw [record_cons, ih hrest, place?_insert, List.mem_cons, Prod.ext_iff]
      by_cases hid : id = r.2
      · simp [hid, hfree, eq_comm, or_comm]
      · simp [hid]

end ParentIndex

namespace Program

variable {p : Program}

/-! ### Recording the places -/

theorem ownReferences_eq_ok_iff {owner : NodeId} {refs : List (Place × NodeId)}
    {index index' : ParentIndex} :
    p.ownReferences owner refs index = .ok index' ↔
      (∀ r ∈ refs, p.has r.2) ∧ index.Admits refs ∧ index.record refs = index' := by
  induction refs generalizing index with
  | nil => simp [ownReferences, ParentIndex.admits_nil, ParentIndex.record]
  | cons r rest ih =>
      obtain ⟨place, target⟩ := r
      rw [ownReferences, List.forall_mem_cons, ParentIndex.admits_cons, ParentIndex.record_cons]
      by_cases hhas : p.has target = true
      · by_cases hfree : index.place? target = none
        · simp [hhas, hfree, ih]
        · obtain ⟨other, hother⟩ := Option.ne_none_iff_exists'.mp hfree
          simp [hhas, hother]
      · simp [hhas]

theorem ownAll_eq_ok_iff {nodes : List Node} {index index' : ParentIndex} :
    p.ownAll nodes index = .ok index' ↔
      (∀ r ∈ nodes.flatMap Node.references, p.has r.2) ∧
        index.Admits (nodes.flatMap Node.references) ∧
        index.record (nodes.flatMap Node.references) = index' ∧
        ∀ n ∈ nodes, n.checkShape = .ok () := by
  induction nodes generalizing index with
  | nil => simp [ownAll, ParentIndex.admits_nil, ParentIndex.record]
  | cons n rest ih =>
      rw [ownAll, List.flatMap_cons, List.forall_mem_append, ParentIndex.admits_append,
        ParentIndex.record_append, List.forall_mem_cons]
      simp only [bind_eq_ok_iff, ownReferences_eq_ok_iff, ih]
      constructor
      · rintro ⟨_, ⟨hhas, hadmits, rfl⟩, _, hshape, hhas', hadmits', hrecord, hshapes⟩
        exact ⟨⟨hhas, hhas'⟩, ⟨hadmits, hadmits'⟩, hrecord, hshape, hshapes⟩
      · rintro ⟨⟨hhas, hhas'⟩, ⟨hadmits, hadmits'⟩, hrecord, hshape, hshapes⟩
        exact ⟨_, ⟨hhas, hadmits, rfl⟩, (), hshape, hhas', hadmits', hrecord, hshapes⟩

theorem checkTopLevel_eq_ok_iff {index : ParentIndex} {l : List NodeId} :
    p.checkTopLevel index l = .ok () ↔ ∀ id ∈ l, p.has id ∧ index.place? id = none := by
  induction l with
  | nil => simp [checkTopLevel]
  | cons id rest ih =>
      rw [checkTopLevel, List.forall_mem_cons]
      by_cases hhas : p.has id = true
      · cases index.place? id <;> simp [hhas, ih]
      · simp [hhas]

/-! ### The search from the top level -/

theorem mem_targetsOf_iff (hids : (p.nodes.map (·.id)).Nodup) {owner id : NodeId} :
    id ∈ p.targetsOf owner ↔ p.Refers owner id := by
  unfold targetsOf
  constructor
  · intro h
    cases hn : p.find? owner with
    | none => simp [hn] at h
    | some n =>
        rw [hn] at h
        exact ⟨n, mem_of_find? hn, id_of_find? hn, h⟩
  · rintro ⟨n, hn, rfl, h⟩
    rw [find?_of_mem hids hn]
    exact h

/-- What lies below different nodes stands at different places among all targets. -/
theorem flatMap_targetsOf_subperm {ids : List NodeId} (hids : ids.Nodup) :
    (ids.flatMap p.targetsOf).Subperm p.targets := by
  have hbelow : ids.flatMap p.targetsOf = (ids.filterMap p.find?).flatMap Node.targets := by
    induction ids with
    | nil => rfl
    | cons id rest ih =>
        rw [List.flatMap_cons, ih hids.of_cons, targetsOf, List.filterMap_cons]
        cases p.find? id <;> rfl
  obtain ⟨found, hperm, hsub⟩ := filterMap_find?_subperm p.nodes (·.id) hids
  rw [hbelow, targets_eq]
  exact ⟨found.flatMap Node.targets, hperm.flatMap_right _, hsub.flatMap _⟩

/-- The state of the search between two steps. No node has been reached twice. What has come in,
pending or reached by now, are the nodes at the top level and those below the reached ones, each as
often as it stands there, and the top level leads to all of it. -/
structure SearchState (p : Program) (pending reached : List NodeId) : Prop where
  nodup : reached.Nodup
  came : (pending ++ reached).Perm (p.topLevel ++ reached.flatMap p.targetsOf)
  leads : ∀ id ∈ pending ++ reached, ∃ head ∈ p.topLevel, p.Reaches head id

theorem searchState_start : p.SearchState p.topLevel [] where
  nodup := List.nodup_nil
  came := .refl _
  leads id hid := ⟨id, by simpa using hid, .refl⟩

namespace SearchState

variable {pending reached : List NodeId}

/-- One step of the search. -/
theorem step {id : NodeId} {rest : List NodeId} (hids : (p.nodes.map (·.id)).Nodup)
    (h : p.SearchState (id :: rest) reached) (hnew : id ∉ reached) :
    p.SearchState ((p.targetsOf id).reverse ++ rest) (id :: reached) := by
  have hperm : ((p.targetsOf id).reverse ++ rest ++ id :: reached).Perm
      (p.targetsOf id ++ (id :: rest ++ reached)) := by
    rw [List.append_assoc]
    exact (List.reverse_perm _).append List.perm_middle
  refine ⟨List.nodup_cons.mpr ⟨hnew, h.nodup⟩, ?_, fun target htarget => ?_⟩
  · calc
      ((p.targetsOf id).reverse ++ rest ++ id :: reached).Perm _ := hperm
      List.Perm _ (p.targetsOf id ++ (p.topLevel ++ reached.flatMap p.targetsOf)) :=
        h.came.append_left _
      List.Perm _ (p.topLevel ++ (p.targetsOf id ++ reached.flatMap p.targetsOf)) := by
        rw [← List.append_assoc, ← List.append_assoc]
        exact List.perm_append_comm.append_right _
  · rcases List.mem_append.mp (hperm.mem_iff.mp htarget) with hbelow | hold
    · obtain ⟨head, hhead, hreach⟩ := h.leads id (by simp)
      exact ⟨head, hhead, hreach.tail ((mem_targetsOf_iff hids).mp hbelow)⟩
    · exact h.leads target hold

/-- A node that comes up for the second time stands at two places, below nodes or at the top
level. -/
theorem two_le_count {id : NodeId} {rest : List NodeId} (h : p.SearchState (id :: rest) reached)
    (hold : id ∈ reached) : 2 ≤ (p.targets ++ p.topLevel).count id := by
  have hreached := List.count_pos_iff.mpr hold
  have hbelow := (flatMap_targetsOf_subperm (p := p) h.nodup).count_le id
  have hcame := h.came.count_eq id
  simp only [List.cons_append, List.count_cons_self, List.count_append] at hcame ⊢
  omega

theorem length_le (hexist : ∀ id ∈ p.topLevel ++ p.targets, ∃ n ∈ p.nodes, n.id = id)
    (h : p.SearchState pending reached) : reached.length ≤ p.size := by
  have hsub : reached ⊆ p.nodes.map (·.id) := by
    intro id hid
    have hcame := h.came.mem_iff.mp (List.mem_append_right pending hid)
    refine List.mem_map.mpr (hexist id ?_)
    rw [List.mem_append] at hcame ⊢
    exact hcame.imp_right fun hbelow => (flatMap_targetsOf_subperm h.nodup).subset hbelow
  have hle := (h.nodup.subperm hsub).length_le
  rwa [List.length_map] at hle

/-- When nothing is pending, the search has reached exactly what the top level leads to. -/
theorem mem_iff (hids : (p.nodes.map (·.id)).Nodup) (h : p.SearchState [] reached) {id : NodeId} :
    id ∈ reached ↔ ∃ head ∈ p.topLevel, p.Reaches head id := by
  refine ⟨h.leads id, ?_⟩
  rintro ⟨head, hhead, hreach⟩
  induction hreach with
  | refl => exact h.came.mem_iff.mpr (List.mem_append_left _ hhead)
  | @tail owner id _ hstep ih =>
      have hbelow : id ∈ reached.flatMap p.targetsOf :=
        List.mem_flatMap.mpr ⟨owner, ih, (mem_targetsOf_iff hids).mpr hstep⟩
      exact h.came.mem_iff.mpr (List.mem_append_right _ hbelow)

end SearchState

/-- The search comes to its end, or to a node that stands at two places. There are enough steps,
since each of them reaches another node. -/
theorem SearchState.search_cases (hids : (p.nodes.map (·.id)).Nodup)
    (hexist : ∀ id ∈ p.topLevel ++ p.targets, ∃ n ∈ p.nodes, n.id = id) {steps : Nat}
    {pending reached : List NodeId} (h : p.SearchState pending reached)
    (hsteps : p.size < steps + reached.length) :
    (∃ found, p.search steps pending reached = .ok found ∧ p.SearchState [] found) ∨
      ∃ id, p.search steps pending reached = .error (.multipleOwners id) ∧
        2 ≤ (p.targets ++ p.topLevel).count id := by
  induction steps generalizing pending reached with
  | zero =>
      have hlength := h.length_le hexist
      omega
  | succ steps ih =>
      cases pending with
      | nil => exact .inl ⟨reached, by rw [search], h⟩
      | cons id rest =>
          rw [search]
          by_cases hold : id ∈ reached
          · exact .inr ⟨id, if_pos hold, h.two_le_count hold⟩
          · rw [if_neg hold]
            apply ih (h.step hids hold)
            rw [List.length_cons]
            omega

/-- The search from the top level, once the references have been checked. -/
theorem search_cases (hids : (p.nodes.map (·.id)).Nodup)
    (htargets : ∀ id ∈ p.targets, ∃ n ∈ p.nodes, n.id = id)
    (htop : ∀ id ∈ p.topLevel, ∃ n ∈ p.nodes, n.id = id) :
    (∃ found, p.search (p.size + 1) p.topLevel [] = .ok found ∧ p.SearchState [] found) ∨
      ∃ id, p.search (p.size + 1) p.topLevel [] = .error (.multipleOwners id) ∧
        2 ≤ (p.targets ++ p.topLevel).count id :=
  searchState_start.search_cases hids (List.forall_mem_append.mpr ⟨htop, htargets⟩) (by simp)

theorem searchState_of_search (hids : (p.nodes.map (·.id)).Nodup)
    (htargets : ∀ id ∈ p.targets, ∃ n ∈ p.nodes, n.id = id)
    (htop : ∀ id ∈ p.topLevel, ∃ n ∈ p.nodes, n.id = id) {found : List NodeId}
    (h : p.search (p.size + 1) p.topLevel [] = .ok found) : p.SearchState [] found := by
  obtain ⟨found', hfound, hstate⟩ | ⟨id, herror, -⟩ := search_cases hids htargets htop
  · rwa [Except.ok.inj (h.symm.trans hfound)]
  · rw [h] at herror
    cases herror

/-! ### Validation -/

theorem checkReached_eq_ok_iff {index : ParentIndex} {reached : List NodeId} {n : Node} :
    checkReached index reached n = .ok () ↔ n.id ∈ reached := by
  simp only [checkReached]
  split
  · simp_all
  · split <;> simp_all

/-- What each pass of the validation asks for. -/
theorem validate_eq_ok_iff {index : ParentIndex} :
    p.validate = .ok index ↔
      (p.nodes.map (·.id)).Nodup ∧ p.ownAll p.nodes .empty = .ok index ∧
        p.checkTopLevel index p.topLevel = .ok () ∧
        ∃ reached, p.search (p.size + 1) p.topLevel [] = .ok reached ∧
          ∀ n ∈ p.nodes, n.id ∈ reached := by
  have hids : firstRepeat? [] (p.nodes.map (·.id)) = none ↔ (p.nodes.map (·.id)).Nodup := by
    simp [firstRepeat?_eq_none_iff]
  have hall (found : ParentIndex) (reached : List NodeId) :
      p.nodes.forM (checkReached found reached) = .ok () ↔ ∀ n ∈ p.nodes, n.id ∈ reached := by
    simp only [forM_eq_ok_iff, checkReached_eq_ok_iff]
  rw [← hids, validate]
  cases firstRepeat? [] (p.nodes.map (·.id)) with
  | some id => simp [bind, Except.bind, throw, throwThe, MonadExceptOf.throw]
  | none =>
      simp only [bind_eq_ok_iff, pure, Except.pure, Except.ok.injEq, true_and]
      constructor
      · rintro ⟨found, hown, _, hcheck, reached, hsearch, _, hreached, rfl⟩
        exact ⟨hown, hcheck, reached, hsearch, (hall found reached).mp hreached⟩
      · rintro ⟨hown, hcheck, reached, hsearch, hreached⟩
        exact ⟨index, hown, (), hcheck, reached, hsearch, (), (hall index reached).mpr hreached,
          rfl⟩

/-- A node without a variant passes the check of its shape. -/
theorem checkShape_of_variant_eq_none {n : Node} (h : n.variant = none) :
    n.checkShape = .ok () := by
  rw [Node.checkShape, h]

/-- All nodes pass the check of their shapes if those with a variant do. -/
theorem forall_checkShape_iff :
    (∀ n ∈ p.nodes, n.checkShape = .ok ()) ↔
      ∀ n ∈ p.nodes, n.variant.isSome → n.checkShape = .ok () := by
  refine forall₂_congr fun n _ => ⟨fun h _ => h, fun h => ?_⟩
  cases hv : n.variant with
  | none => exact checkShape_of_variant_eq_none hv
  | some v => exact h (by rw [hv]; rfl)

/-- An empty index admits the references of a program where no node is referred to twice. -/
theorem empty_admits_iff : ParentIndex.empty.Admits p.references ↔ p.targets.Nodup := by
  simp [ParentIndex.Admits, targets]

theorem forall_references_has_iff :
    (∀ r ∈ p.references, p.has r.2) ↔ ∀ id ∈ p.targets, ∃ n ∈ p.nodes, n.id = id := by
  simp only [targets, List.forall_mem_map, has_iff]

/-- The places of all nodes of a program can be recorded if each reference leads to a node, none of
them to the same one, and all nodes are well-shaped. -/
theorem ownAll_nodes_eq_ok_iff {index : ParentIndex} :
    p.ownAll p.nodes .empty = .ok index ↔
      (∀ id ∈ p.targets, ∃ n ∈ p.nodes, n.id = id) ∧ p.targets.Nodup ∧
        ParentIndex.empty.record p.references = index ∧ ∀ n ∈ p.nodes, n.checkShape = .ok () := by
  rw [ownAll_eq_ok_iff, ← empty_admits_iff, ← forall_references_has_iff]
  rfl

/-- What the recorded index says when a program's references are recorded from the start. -/
theorem place?_record_references (htargets : p.targets.Nodup) {id : NodeId} {place : Place} :
    (ParentIndex.empty.record p.references).place? id = some place ↔
      (place, id) ∈ p.references := by
  rw [ParentIndex.place?_record (empty_admits_iff.mpr htargets)]
  simp

theorem place?_record_references_eq_none (htargets : p.targets.Nodup) {id : NodeId} :
    (ParentIndex.empty.record p.references).place? id = none ↔ id ∉ p.targets := by
  rw [Option.eq_none_iff_forall_ne_some, targets, List.mem_map]
  simp only [ne_eq, place?_record_references htargets]
  constructor
  · rintro h ⟨⟨place, target⟩, hmem, rfl⟩
    exact h place hmem
  · intro h place hmem
    exact h ⟨_, hmem, rfl⟩

/-- Nodes that stand at two places make no forest. -/
theorem IsForest.count_le_one (hp : p.IsForest) (id : NodeId) :
    (p.targets ++ p.topLevel).count id ≤ 1 := by
  refine List.nodup_iff_count_le_one.mp (hp.targets_nodup.append hp.topLevel_nodup ?_) id
  exact fun target htarget htop => hp.topLevel_free target htop htarget

/-- The validation succeeds on forests only, with the index of their references. -/
theorem validate_eq_ok_iff_isForest {index : ParentIndex} :
    p.validate = .ok index ↔ p.IsForest ∧ ParentIndex.empty.record p.references = index := by
  rw [validate_eq_ok_iff, ownAll_nodes_eq_ok_iff, checkTopLevel_eq_ok_iff, forall_checkShape_iff]
  constructor
  · rintro ⟨hids, ⟨hexist, htargets, rfl, hshaped⟩, htop, reached, hsearch, hreached⟩
    have htopExist : ∀ id ∈ p.topLevel, ∃ n ∈ p.nodes, n.id = id :=
      fun id hid => has_iff.mp (htop id hid).1
    have hfree : ∀ id ∈ p.topLevel, id ∉ p.targets :=
      fun id hid => (place?_record_references_eq_none htargets).mp (htop id hid).2
    have hstate := searchState_of_search hids hexist htopExist hsearch
    have hnodup : p.topLevel.Nodup := (hstate.came.nodup_iff.mp hstate.nodup).of_append_left
    exact ⟨⟨hids, hexist, htargets, hnodup, htopExist, hfree,
      fun n hn => hstate.leads n.id (hreached n hn), hshaped⟩, rfl⟩
  · rintro ⟨hp, rfl⟩
    refine ⟨hp.ids_nodup, ⟨hp.targets_exist, hp.targets_nodup, rfl, hp.shaped⟩, fun id hid => ?_,
      ?_⟩
    · exact ⟨has_iff.mpr (hp.topLevel_exist id hid),
        (place?_record_references_eq_none hp.targets_nodup).mpr (hp.topLevel_free id hid)⟩
    · obtain ⟨found, hfound, hstate⟩ | ⟨id, -, htwice⟩ :=
        search_cases hp.ids_nodup hp.targets_exist hp.topLevel_exist
      · exact ⟨found, hfound, fun n hn => (hstate.mem_iff hp.ids_nodup).mpr (hp.reached n hn)⟩
      · have honce := hp.count_le_one id
        omega

/-- A node of a forest stands at the top level exactly if no reference leads to it. -/
theorem IsForest.not_mem_targets_iff (hp : p.IsForest) {n : Node} (hn : n ∈ p.nodes) :
    n.id ∉ p.targets ↔ n.id ∈ p.topLevel := by
  constructor
  · intro hfree
    obtain ⟨head, hhead, hreach⟩ := hp.reached n hn
    rcases hreach.eq_or_mem_targets with h | h
    · exact h ▸ hhead
    · exact absurd h hfree
  · exact hp.topLevel_free n.id

/-- Validation accepts exactly the forests. The index that it returns gives each node the one place
where it hangs, and none to the nodes at the top level. -/
theorem validate_accepts_forests (p : Program) :
    ((∃ index, p.validate = .ok index) ↔ p.IsForest) ∧
      ∀ index, p.validate = .ok index →
        (∀ id place, index.place? id = some place ↔ (place, id) ∈ p.references) ∧
        ∀ n ∈ p.nodes, index.place? n.id = none ↔ n.id ∈ p.topLevel := by
  refine ⟨?_, fun index hvalid => ?_⟩
  · constructor
    · rintro ⟨index, hvalid⟩
      exact (validate_eq_ok_iff_isForest.mp hvalid).1
    · intro hp
      exact ⟨_, validate_eq_ok_iff_isForest.mpr ⟨hp, rfl⟩⟩
  · obtain ⟨hp, rfl⟩ := validate_eq_ok_iff_isForest.mp hvalid
    refine ⟨fun id place => place?_record_references hp.targets_nodup, fun n hn => ?_⟩
    rw [place?_record_references_eq_none hp.targets_nodup, hp.not_mem_targets_iff hn]

end Program

end BlockSketch
