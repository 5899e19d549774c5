import BlockSketch.Proofs.Program.Shapes
import BlockSketch.Proofs.Program.Validation

/-!
Why a program is refused. Each error of the validation says something about the program, in terms of
its nodes, its references and its top level, without the passes of the check. What it says is true.
A pass may rely on the passes before it. When the search from the top level starts, every node hangs
in one place at most, and a node that hangs is not listed. So a node that the search comes to twice
is listed twice, and what it misses really cannot be reached.
-/

namespace BlockSketch

/-- What an error says about a program. The number of arms in a report has 32 bits, so it is that of
the node unless this has sockets for all the `2 ^ 32` arms. -/
def GraphError.Says (p : Program) : GraphError → Prop
  | duplicateId id => 2 ≤ (p.nodes.map (·.id)).count id
  | danglingReference source target => p.Refers source target ∧ ∀ n ∈ p.nodes, n.id ≠ target
  | unknownTopLevel id => id ∈ p.topLevel ∧ ∀ n ∈ p.nodes, n.id ≠ id
  | multipleOwners id => 2 ≤ (p.targets ++ p.topLevel).count id
  | ownedTopLevel id => id ∈ p.topLevel ∧ id ∈ p.targets
  | cycle id => (∃ n ∈ p.nodes, n.id = id) ∧ id ∈ p.targets ∧
      ∀ head ∈ p.topLevel, ¬p.Reaches head id
  | unreachable id => (∃ n ∈ p.nodes, n.id = id) ∧ id ∉ p.targets ∧ id ∉ p.topLevel
  | shapeMismatch node socket => ∃ n ∈ p.nodes, n.id = node ∧ ∃ v kind, n.variant = some v ∧
      n.Carries socket kind ∧ ∀ spec ∈ v.shape, ¬(spec.name = socket ∧ spec.kind = kind)
  | armCountMismatch node declared present => ∃ n ∈ p.nodes, n.id = node ∧
      (∃ otherwise, n.variant = some (.conditional declared otherwise)) ∧ present ≤ declared ∧
      present.toNat = max 1 ({i | n.HasArm i}.ncard % 2 ^ 32) ∧
      ((∃ i < 2 ^ 32, ¬n.HasArm i) → present.toNat = max 1 {i | n.HasArm i}.ncard)

/-! ### Single checks -/

theorem bind_eq_error_iff {ε α β : Type} {x : Except ε α} {f : α → Except ε β} {e : ε} :
    x >>= f = .error e ↔ x = .error e ∨ ∃ a, x = .ok a ∧ f a = .error e := by
  cases x <;> simp [bind, Except.bind]

/-- A check of all members fails at the first one that fails it. -/
theorem forM_eq_error {ε α : Type} {f : α → Except ε Unit} {l : List α} {e : ε}
    (h : l.forM f = .error e) :
    ∃ before a after, l = before ++ a :: after ∧ (∀ b ∈ before, f b = .ok ()) ∧ f a = .error e := by
  induction l with
  | nil => cases h
  | cons a rest ih =>
      rcases bind_eq_error_iff.mp h with h | ⟨⟨⟩, ha, h⟩
      · exact ⟨[], a, rest, rfl, by simp, h⟩
      · obtain ⟨before, b, after, rfl, hbefore, hb⟩ := ih h
        exact ⟨a :: before, b, after, rfl, List.forall_mem_cons.mpr ⟨ha, hbefore⟩, hb⟩

/-- A node that has a place in an index was referred to when the index was recorded. -/
theorem ParentIndex.mem_of_place?_record {refs : List (Place × NodeId)} (h : empty.Admits refs)
    {id : NodeId} (hplace : ((empty.record refs).place? id).isSome) : id ∈ refs.map Prod.snd := by
  obtain ⟨place, hplace⟩ := Option.isSome_iff_exists.mp hplace
  rcases (place?_record h).mp hplace with hmem | hempty
  · exact List.mem_map.mpr ⟨(place, id), hmem, rfl⟩
  · cases hempty

namespace Program

variable {p : Program} {e : GraphError}

theorem ownReferences_eq_error {owner : NodeId} {refs : List (Place × NodeId)}
    {index : ParentIndex} (h : p.ownReferences owner refs index = .error e) :
    ∃ before r after, refs = before ++ r :: after ∧ index.Admits before ∧
      (e = .danglingReference owner r.2 ∧ p.has r.2 = false ∨
        e = .multipleOwners r.2 ∧ ((index.record before).place? r.2).isSome) := by
  induction refs generalizing index with
  | nil => cases h
  | cons r rest ih =>
      obtain ⟨place, target⟩ := r
      rw [ownReferences] at h
      split at h
      next hhas =>
          cases h
          exact ⟨[], _, rest, rfl, index.admits_nil, .inl ⟨rfl, by simpa using hhas⟩⟩
      next =>
          split at h
          next hplace =>
              cases h
              exact ⟨[], _, rest, rfl, index.admits_nil, .inr ⟨rfl, hplace⟩⟩
          next hfree =>
              obtain ⟨before, r, after, rfl, hadmits, hwhy⟩ := ih h
              refine ⟨_ :: before, r, after, rfl, ?_, hwhy⟩
              exact ParentIndex.admits_cons.mpr ⟨by simpa using hfree, hadmits⟩

theorem ownAll_eq_error {nodes : List Node} {index : ParentIndex}
    (h : p.ownAll nodes index = .error e) :
    ∃ before n after, nodes = before ++ n :: after ∧
      index.Admits (before.flatMap Node.references) ∧
      (p.ownReferences n.id n.references (index.record (before.flatMap Node.references)) =
          .error e ∨ n.checkShape = .error e) := by
  induction nodes generalizing index with
  | nil => cases h
  | cons n rest ih =>
      rw [ownAll] at h
      rcases bind_eq_error_iff.mp h with h | ⟨index', hindex, h⟩
      · exact ⟨[], n, rest, rfl, index.admits_nil, .inl h⟩
      · obtain ⟨-, hadmits, rfl⟩ := ownReferences_eq_ok_iff.mp hindex
        rcases bind_eq_error_iff.mp h with h | ⟨-, -, h⟩
        · exact ⟨[], n, rest, rfl, index.admits_nil, .inr h⟩
        · obtain ⟨before, m, after, rfl, hbefore, hwhy⟩ := ih h
          refine ⟨n :: before, m, after, rfl, ?_, ?_⟩
          · rw [List.flatMap_cons, ParentIndex.admits_append]
            exact ⟨hadmits, hbefore⟩
          · rwa [List.flatMap_cons, ParentIndex.record_append]

theorem checkTopLevel_eq_error {index : ParentIndex} {l : List NodeId}
    (h : p.checkTopLevel index l = .error e) :
    ∃ id ∈ l, e = .unknownTopLevel id ∧ p.has id = false ∨
      e = .ownedTopLevel id ∧ (index.place? id).isSome := by
  induction l with
  | nil => cases h
  | cons id rest ih =>
      rw [checkTopLevel] at h
      split at h
      next hhas =>
          cases h
          exact ⟨id, List.mem_cons_self, .inl ⟨rfl, by simpa using hhas⟩⟩
      next =>
          split at h
          next hplace =>
              cases h
              exact ⟨id, List.mem_cons_self, .inr ⟨rfl, hplace⟩⟩
          next =>
              obtain ⟨id', hid', hwhy⟩ := ih h
              exact ⟨id', List.mem_cons_of_mem id hid', hwhy⟩

theorem checkReached_eq_error {index : ParentIndex} {reached : List NodeId} {n : Node}
    (h : checkReached index reached n = .error e) :
    n.id ∉ reached ∧ (e = .cycle n.id ∧ (index.place? n.id).isSome ∨
      e = .unreachable n.id ∧ index.place? n.id = none) := by
  rw [checkReached] at h
  split at h
  next => cases h
  next hnot =>
      split at h
      next hplace =>
          cases h
          exact ⟨hnot, .inl ⟨rfl, hplace⟩⟩
      next hfree =>
          cases h
          exact ⟨hnot, .inr ⟨rfl, by simpa using hfree⟩⟩

/-! ### The order of the passes -/

/-- What the passes before the search from the top level have found out: references lead to nodes,
no node is referred to twice, and those at the top level are nodes that nothing refers to. -/
structure HangsOnce (p : Program) : Prop where
  ids_nodup : (p.nodes.map (·.id)).Nodup
  targets_exist : ∀ id ∈ p.targets, ∃ n ∈ p.nodes, n.id = id
  targets_nodup : p.targets.Nodup
  topLevel_exist : ∀ id ∈ p.topLevel, ∃ n ∈ p.nodes, n.id = id
  topLevel_free : ∀ id ∈ p.topLevel, id ∉ p.targets

/-- A node that stands at two places is listed twice. -/
theorem HangsOnce.two_le_count (hp : p.HangsOnce) {id : NodeId}
    (h : 2 ≤ (p.targets ++ p.topLevel).count id) : 2 ≤ p.topLevel.count id := by
  rw [List.count_append] at h
  by_cases htop : id ∈ p.topLevel
  · have hfree := List.count_eq_zero_of_not_mem (hp.topLevel_free id htop)
    omega
  · have honce := List.nodup_iff_count_le_one.mp hp.targets_nodup id
    have hnone := List.count_eq_zero_of_not_mem htop
    omega

/-- The search from the top level fails only at a node that is listed twice. -/
theorem HangsOnce.listed_twice_of_search (hp : p.HangsOnce)
    (h : p.search (p.size + 1) p.topLevel [] = .error e) :
    ∃ id, e = .multipleOwners id ∧ 2 ≤ p.topLevel.count id := by
  obtain ⟨found, hfound, -⟩ | ⟨id, herror, htwice⟩ :=
    search_cases hp.ids_nodup hp.targets_exist hp.topLevel_exist
  · rw [h] at hfound
    cases hfound
  · rw [h] at herror
    exact ⟨id, Except.error.inj herror, hp.two_le_count htwice⟩

/-- The pass that refuses a program, after those before it have succeeded. -/
inductive RefusedBy (p : Program) : GraphError → Prop where
  | numbers {id : NodeId} (h : firstRepeat? [] (p.nodes.map (·.id)) = some id) :
      p.RefusedBy (.duplicateId id)
  | references {e : GraphError} (h : p.ownAll p.nodes .empty = .error e) : p.RefusedBy e
  | heads {e : GraphError} (htargets : p.targets.Nodup)
      (h : p.checkTopLevel (ParentIndex.empty.record p.references) p.topLevel = .error e) :
      p.RefusedBy e
  | search {id : NodeId} (h : 2 ≤ p.topLevel.count id) : p.RefusedBy (.multipleOwners id)
  | unreached {e : GraphError} (hp : p.HangsOnce) {found : List NodeId}
      (hstate : p.SearchState [] found)
      (h : p.nodes.forM (checkReached (ParentIndex.empty.record p.references) found) =
        .error e) : p.RefusedBy e

theorem refusedBy_of_validate (h : p.validate = .error e) : p.RefusedBy e := by
  rw [validate] at h
  cases hids : firstRepeat? [] (p.nodes.map (·.id)) with
  | some id =>
      rw [hids] at h
      cases h
      exact .numbers hids
  | none =>
      rw [hids] at h
      rcases bind_eq_error_iff.mp h with h | ⟨index, hown, h⟩
      · exact .references h
      · obtain ⟨hexist, htargets, rfl, -⟩ := ownAll_nodes_eq_ok_iff.mp hown
        rcases bind_eq_error_iff.mp h with h | ⟨_, htop, h⟩
        · exact .heads htargets h
        · have hchecked := checkTopLevel_eq_ok_iff.mp htop
          have hp : p.HangsOnce := by
            refine ⟨(firstRepeat?_eq_none_iff.mp hids).1, hexist, htargets, ?_, ?_⟩
            · exact fun id hid => has_iff.mp (hchecked id hid).1
            · exact fun id hid =>
                (place?_record_references_eq_none htargets).mp (hchecked id hid).2
          rcases bind_eq_error_iff.mp h with h | ⟨found, hfound, h⟩
          · obtain ⟨id, rfl, htwice⟩ := hp.listed_twice_of_search h
            exact .search htwice
          · rcases bind_eq_error_iff.mp h with h | ⟨_, _, h⟩
            · have hstate := searchState_of_search hp.ids_nodup hexist hp.topLevel_exist hfound
              exact .unreached hp hstate h
            · cases h

/-! ### What the passes report is true -/

theorem HangsOnce.says_of_checkReached (hp : p.HangsOnce) {found : List NodeId}
    (hstate : p.SearchState [] found) {n : Node} (hn : n ∈ p.nodes)
    (h : checkReached (ParentIndex.empty.record p.references) found n = .error e) :
    e.Says p := by
  obtain ⟨hnot, hwhy⟩ := checkReached_eq_error h
  have hunreached : ∀ head ∈ p.topLevel, ¬p.Reaches head n.id :=
    fun head hhead hreach => hnot ((hstate.mem_iff hp.ids_nodup).mpr ⟨head, hhead, hreach⟩)
  rcases hwhy with ⟨rfl, hplace⟩ | ⟨rfl, hfree⟩
  · have hadmits := empty_admits_iff.mpr hp.targets_nodup
    exact ⟨⟨n, hn, rfl⟩, ParentIndex.mem_of_place?_record hadmits hplace, hunreached⟩
  · refine ⟨⟨n, hn, rfl⟩, (place?_record_references_eq_none hp.targets_nodup).mp hfree, ?_⟩
    exact fun htop => hunreached n.id htop .refl

end Program

end BlockSketch
