import BlockSketch.Proofs.Emission.Paired
import BlockSketch.Proofs.Program.Validation
import Mathlib.Data.List.Sort

/-!
The order in which the nodes of a program are stored. Nodes are looked up by their numbers, so the
same nodes in another order make the same forest: it passes the same checks, each node hangs in the
same place, and every walk through the program meets the same nodes.
-/

namespace BlockSketch

/-! ### Look-ups that do not depend on an order -/

/-- Where at most one member of a list passes a test, it is found in any order. -/
theorem find?_eq_of_perm {α : Type} {test : α → Bool} {l l' : List α} (hperm : l'.Perm l)
    (hone : ∀ a ∈ l, ∀ b ∈ l, test a = true → test b = true → a = b) :
    l'.find? test = l.find? test := by
  cases h : l.find? test with
  | none =>
      rw [List.find?_eq_none] at h ⊢
      exact fun a ha => h a (hperm.mem_iff.mp ha)
  | some a =>
      obtain ⟨b, hb⟩ : ∃ b, l'.find? test = some b := by
        rw [← Option.isSome_iff_exists, List.find?_isSome]
        exact ⟨a, hperm.mem_iff.mpr (List.mem_of_find?_eq_some h), List.find?_some h⟩
      have hmem : b ∈ l := hperm.mem_iff.mp (List.mem_of_find?_eq_some hb)
      rw [hb, hone b hmem a (List.mem_of_find?_eq_some h) (List.find?_some hb)
        (List.find?_some h)]

namespace SortedMap

variable {κ α : Type} [Ord κ] [Std.LawfulEqOrd κ]

theorem mem_entries_iff (m : SortedMap κ α) {k : κ} {v : α} :
    (k, v) ∈ m.entries ↔ m.find? k = some v := by
  obtain ⟨entries, ascending⟩ := m
  change (k, v) ∈ entries ↔ lookupIn? k entries = some v
  induction entries with
  | nil => simp [lookupIn?]
  | cons e rest ih =>
      obtain ⟨hhead, hrest⟩ := List.pairwise_cons.mp ascending
      rw [List.mem_cons, lookupIn?, ih hrest]
      by_cases hk : k = e.1
      · -- the rest has greater keys only
        have hnone : lookupIn? k rest ≠ some v := by
          intro h
          have hlt : compare e.1 k = .lt := hhead _ ((ih hrest).mpr h)
          simp [hk] at hlt
        simp [hnone, ← hk, Prod.ext_iff, eq_comm]
      · simp [hk, Prod.ext_iff]

/-- Maps with the same values at all keys are the same. -/
theorem ext_find? [Std.TransOrd κ] {m m' : SortedMap κ α} (h : ∀ k, m.find? k = m'.find? k) :
    m = m' := by
  have hantisymm : Std.Antisymm fun x y : κ × α => compare x.1 y.1 = .lt :=
    ⟨fun x y hxy hyx => by
      rw [Std.OrientedCmp.gt_iff_lt.mpr hyx] at hxy
      cases hxy⟩
  have hirrefl : Std.Irrefl fun x y : κ × α => compare x.1 y.1 = .lt := ⟨fun x => by simp⟩
  refine SortedMap.ext (m.ascending.eq_of_mem_iff m'.ascending fun e => ?_)
  rw [mem_entries_iff, mem_entries_iff, h]

end SortedMap

theorem ParentIndex.ext_place? {index index' : ParentIndex}
    (h : ∀ id, index.place? id = index'.place? id) : index = index' := by
  cases index
  cases index'
  exact congrArg _ (SortedMap.ext_find? h)

namespace Program

/-! ### Walks -/

namespace Alike

variable {p q : Program}

theorem chainFrom (h : p.Alike q) (count : Nat) (head : Option NodeId) :
    q.chainFrom count head = p.chainFrom count head := by
  induction count generalizing head with
  | zero => rfl
  | succ count ih =>
      cases head with
      | none => rfl
      | some id =>
          rw [Program.chainFrom, Program.chainFrom, h.find? id]
          cases p.find? id with
          | none => rfl
          | some n => simp only [ih]

theorem nestedChain (h : p.Alike q) (depth : Nat) (head : Option NodeId) :
    q.nestedChain depth head = p.nestedChain depth head := by
  induction depth generalizing head with
  | zero => rfl
  | succ depth ih =>
      simp only [Program.nestedChain, Program.chain, h.size, h.chainFrom, ih]

theorem executionOrder (h : p.Alike q) : q.executionOrder = p.executionOrder := by
  simp only [Program.executionOrder, h.topLevel, h.size, h.nestedChain]

end Alike

/-! ### The same nodes in another order -/

/-- A program with the nodes of another one, in any order. -/
structure Reordered (p q : Program) : Prop where
  nodes : q.nodes.Perm p.nodes
  topLevel : q.topLevel = p.topLevel
  variableNames : q.variableNames = p.variableNames

namespace Reordered

variable {p q : Program} (h : p.Reordered q)

include h

theorem alike (hids : (p.nodes.map (·.id)).Nodup) : p.Alike q where
  find? _ := find?_eq_of_perm h.nodes fun _ ha _ hb hid hid' =>
    List.inj_on_of_nodup_map hids ha hb
      ((of_decide_eq_true hid).trans (of_decide_eq_true hid').symm)
  size := h.nodes.length_eq
  topLevel := h.topLevel
  variableNames := h.variableNames

theorem references : q.references.Perm p.references := h.nodes.flatMap_right _

theorem targets : q.targets.Perm p.targets := h.references.map _

theorem refers : q.Refers = p.Refers := by
  funext a b
  simp only [Refers, h.nodes.mem_iff]

theorem isForest (hp : p.IsForest) : q.IsForest where
  ids_nodup := (h.nodes.map _).nodup_iff.mpr hp.ids_nodup
  targets_exist id hid := by
    obtain ⟨n, hn, hid⟩ := hp.targets_exist id (h.targets.mem_iff.mp hid)
    exact ⟨n, h.nodes.mem_iff.mpr hn, hid⟩
  targets_nodup := h.targets.nodup_iff.mpr hp.targets_nodup
  topLevel_nodup := h.topLevel ▸ hp.topLevel_nodup
  topLevel_exist id hid := by
    obtain ⟨n, hn, hid⟩ := hp.topLevel_exist id (h.topLevel ▸ hid)
    exact ⟨n, h.nodes.mem_iff.mpr hn, hid⟩
  topLevel_free id hid hmem :=
    hp.topLevel_free id (h.topLevel ▸ hid) (h.targets.mem_iff.mp hmem)
  reached n hn := by
    rw [h.topLevel, Reaches, h.refers]
    exact hp.reached n (h.nodes.mem_iff.mp hn)
  shaped n hn := hp.shaped n (h.nodes.mem_iff.mp hn)

/-- Validation accepts the nodes in any order, and tells the same places. -/
theorem validate {places : ParentIndex} (hvalid : p.validate = .ok places) :
    q.validate = .ok places := by
  obtain ⟨hp, rfl⟩ := validate_eq_ok_iff_isForest.mp hvalid
  have hq := h.isForest hp
  refine validate_eq_ok_iff_isForest.mpr ⟨hq, ParentIndex.ext_place? fun id => ?_⟩
  refine Option.ext fun place => ?_
  rw [place?_record_references hq.targets_nodup, place?_record_references hp.targets_nodup,
    h.references.mem_iff]

end Reordered

end Program

end BlockSketch
