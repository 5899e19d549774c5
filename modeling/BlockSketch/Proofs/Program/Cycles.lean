import BlockSketch.Proofs.Program.Refusals

/-!
Reported cycles. The validation reports a cycle at the first node that the top level does not lead
to, if this node hangs somewhere. Going up from such a node never comes to the top level. The way up
either goes round a cycle or ends at a node that hangs nowhere and is not listed, and only in the
first case does a cycle lead to it. Even then the reported node may hang below the cycle.
-/

namespace BlockSketch.Program

variable {p : Program} {id : NodeId}

def IsLoose (p : Program) (id : NodeId) : Prop :=
  (∃ n ∈ p.nodes, n.id = id) ∧ id ∉ p.targets ∧ id ∉ p.topLevel

/-! ### The way up -/

/-- The way up from a node goes round a cycle or ends at a node that hangs nowhere. Each step up
that does not lead back comes to a node with more nodes below it, and there are only so many. -/
theorem exists_cycle_or_end (hids : (p.nodes.map (·.id)).Nodup) (hid : ∃ n ∈ p.nodes, n.id = id) :
    ∃ a, p.Reaches a id ∧ (p.OnCycle a ∨ (∃ n ∈ p.nodes, n.id = a) ∧ a ∉ p.targets) := by
  induction hgap : p.size - p.weight id using Nat.strongRecOn generalizing id with
  | ind gap ih =>
      by_cases htarget : id ∈ p.targets
      · obtain ⟨owner, howner, hmem⟩ := mem_targets.mp htarget
        have hrefers : p.Refers owner.id id := ⟨owner, howner, rfl, hmem⟩
        by_cases hback : p.Reaches id owner.id
        · exact ⟨id, .refl, .inl (Relation.TransGen.tail' hback hrefers)⟩
        · have hlt := weight_lt_of_not_reaches hids hrefers hback
          have hle := p.weight_le_size owner.id
          obtain ⟨a, hreach, ha⟩ := ih _ (by omega) ⟨owner, howner, rfl⟩ rfl
          exact ⟨a, hreach.tail hrefers, ha⟩
      · exact ⟨id, .refl, .inr ⟨hid, htarget⟩⟩

/-- Where no target is referred to twice, nothing that hangs nowhere leads to what is below a
cycle. -/
theorem OnCycle.not_reaches_of_free (htargets : p.targets.Nodup) {a c : NodeId} (hc : p.OnCycle c)
    (hreach : p.Reaches c id) (ha : a ∉ p.targets) : ¬p.Reaches a id := by
  intro hbelow
  have hcycle : p.OnCycle a := by
    rcases hbelow.total htargets hreach with hac | hca
    · exact hc.of_reaches htargets hac
    · rcases hca.eq_or_mem_targets with rfl | hmem
      · exact hc
      · exact absurd hmem ha
  exact ha hcycle.mem_targets

/-- A node that hangs somewhere lies on a cycle exactly if it leads back to all that leads to it. -/
theorem onCycle_iff_leads_back (htargets : p.targets.Nodup) (hid : id ∈ p.targets) :
    p.OnCycle id ↔ ∀ a, p.Reaches a id → p.Reaches id a := by
  constructor
  · intro hcycle a hreach
    induction hreach using Relation.ReflTransGen.head_induction_on with
    | refl => exact .refl
    | head hstep _ ih =>
        -- `ih` leads to the node below, whose only owner is the one that the cycle comes from
        rcases Relation.ReflTransGen.cases_tail ih with rfl | ⟨owner, hback, howner⟩
        · obtain ⟨owner, hback, howner⟩ := Relation.TransGen.tail'_iff.mp hcycle
          obtain rfl := hstep.owner_unique htargets howner
          exact hback
        · obtain rfl := hstep.owner_unique htargets howner
          exact hback
  · intro hback
    obtain ⟨owner, howner, hmem⟩ := mem_targets.mp hid
    have hrefers : p.Refers owner.id id := ⟨owner, howner, rfl, hmem⟩
    exact Relation.TransGen.tail' (hback owner.id (.single hrefers)) hrefers

/-! ### The report -/

/-- Cycles are reported after the search from the top level only. -/
theorem search_of_reported_cycle (h : p.validate = .error (.cycle id)) :
    p.HangsOnce ∧ ∃ found, p.SearchState [] found ∧
      p.nodes.forM (checkReached (ParentIndex.empty.record p.references) found) =
        .error (.cycle id) := by
  cases refusedBy_of_validate h with
  | references hown =>
      obtain ⟨_, n, _, -, -, hrefs | hshape⟩ := ownAll_eq_error hown
      · obtain ⟨_, _, _, -, -, ⟨he, -⟩ | ⟨he, -⟩⟩ := ownReferences_eq_error hrefs <;> cases he
      · obtain ⟨v, -, harms | ⟨_, _, -, -, he⟩⟩ := Node.checkShape_eq_error hshape
        · obtain ⟨_, _, _, -, -, -, he⟩ := Node.checkArms_eq_error harms
          cases he
        · cases he
  | heads _ htop =>
      obtain ⟨_, -, ⟨he, -⟩ | ⟨he, -⟩⟩ := checkTopLevel_eq_error htop <;> cases he
  | unreached hp hstate hcheck => exact ⟨hp, _, hstate, hcheck⟩

/-- If the validation reports a cycle at a node, then the node hangs somewhere, the top level does
not lead to it, and it is the first node of this kind. A cycle leads to it exactly if no loose node
does, and it lies on a cycle itself exactly if it leads back to all that leads to it. -/
theorem reported_cycle_is_cut_off {p : Program} {id : NodeId}
    (h : p.validate = .error (.cycle id)) :
    (∃ before n after, p.nodes = before ++ n :: after ∧ n.id = id ∧
      ∀ m ∈ before, ∃ head ∈ p.topLevel, p.Reaches head m.id) ∧
    id ∈ p.targets ∧ (∀ head ∈ p.topLevel, ¬p.Reaches head id) ∧
    ((∃ c, p.OnCycle c ∧ p.Reaches c id) ↔ ¬∃ a, p.IsLoose a ∧ p.Reaches a id) ∧
    (p.OnCycle id ↔ ∀ a, p.Reaches a id → p.Reaches id a) := by
  obtain ⟨hp, found, hstate, hcheck⟩ := search_of_reported_cycle h
  obtain ⟨before, n, after, hnodes, hbefore, hn⟩ := forM_eq_error hcheck
  have hmem : n ∈ p.nodes := by simp [hnodes]
  obtain ⟨hid, htarget, hunreached⟩ := hp.says_of_checkReached hstate hmem hn
  refine ⟨⟨before, n, after, hnodes, ?_, fun m hm => ?_⟩, htarget, hunreached, ?_,
    onCycle_iff_leads_back hp.targets_nodup htarget⟩
  · obtain ⟨-, ⟨he, -⟩ | ⟨he, -⟩⟩ := checkReached_eq_error hn
    · cases he
      rfl
    · cases he
  · exact hstate.leads m.id (checkReached_eq_ok_iff.mp (hbefore m hm))
  · constructor
    · rintro ⟨c, hc, hreach⟩ ⟨a, ⟨-, hfree, -⟩, hbelow⟩
      exact hc.not_reaches_of_free hp.targets_nodup hreach hfree hbelow
    · intro hloose
      obtain ⟨a, hreach, hcycle | ⟨hexists, hfree⟩⟩ := exists_cycle_or_end hp.ids_nodup hid
      · exact ⟨a, hcycle, hreach⟩
      · have hnotTop : a ∉ p.topLevel := fun htop => hunreached a htop hreach
        exact absurd ⟨a, ⟨hexists, hfree, hnotTop⟩, hreach⟩ hloose

/-- A node at the top level, and one that hangs below a node that follows itself. -/
def belowLoop : Program where
  nodes :=
    [{ id := ⟨1⟩, kind := "base_delay" }, { id := ⟨3⟩, kind := "math_number" },
      { id := ⟨2⟩, kind := "base_delay", next := some ⟨2⟩
        values := [{ name := "DELAY_TIME", child := some ⟨3⟩ }] }]
  topLevel := [⟨1⟩]

theorem belowLoop_report_is_cut_off :
    belowLoop.validate = .error (.cycle ⟨3⟩) ∧
      (∃ c, belowLoop.OnCycle c ∧ belowLoop.Reaches c ⟨3⟩) ∧ ¬belowLoop.OnCycle ⟨3⟩ := by
  have hvalid : belowLoop.validate = .error (.cycle ⟨3⟩) := rfl
  have hrefers (a b : NodeId) : belowLoop.Refers a b ↔ a = ⟨2⟩ ∧ (b = ⟨3⟩ ∨ b = ⟨2⟩) := by
    simp [Refers, belowLoop, Node.targets, Node.references, eq_comm]
  have hself : belowLoop.Refers ⟨2⟩ ⟨2⟩ := (hrefers _ _).mpr ⟨rfl, .inr rfl⟩
  have hbelow : belowLoop.Refers ⟨2⟩ ⟨3⟩ := (hrefers _ _).mpr ⟨rfl, .inl rfl⟩
  obtain ⟨-, -, -, -, hcycle⟩ := reported_cycle_is_cut_off hvalid
  refine ⟨hvalid, ⟨⟨2⟩, .single hself, .single hbelow⟩, fun h => ?_⟩
  rcases Relation.ReflTransGen.cases_head (hcycle.mp h ⟨2⟩ (.single hbelow)) with heq | ⟨c, hc, -⟩
  · cases heq
  · cases ((hrefers _ _).mp hc).1

/-- A chain of two nodes that is not listed at the top level. The second node comes first. -/
def looseChain : Program where
  nodes :=
    [{ id := ⟨2⟩, kind := "base_delay" }, { id := ⟨1⟩, kind := "base_delay", next := some ⟨2⟩ }]

/-- A cycle is reported although there is none. -/
theorem looseChain_reported_as_cycle :
    looseChain.validate = .error (.cycle ⟨2⟩) ∧ ∀ id, ¬looseChain.OnCycle id := by
  have hrefers (a b : NodeId) (h : looseChain.Refers a b) : a = ⟨1⟩ ∧ b = ⟨2⟩ := by
    simpa [Refers, looseChain, Node.targets, Node.references, eq_comm] using h
  refine ⟨rfl, fun id hcycle => ?_⟩
  obtain ⟨_, hfirst, -⟩ := Relation.TransGen.head'_iff.mp hcycle
  obtain ⟨_, -, hlast⟩ := Relation.TransGen.tail'_iff.mp hcycle
  have heq := (hrefers _ _ hfirst).1.symm.trans (hrefers _ _ hlast).2
  cases heq

end BlockSketch.Program
