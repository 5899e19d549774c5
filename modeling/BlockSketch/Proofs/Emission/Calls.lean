import BlockSketch.Proofs.Emission.Codes

/-!
Which nodes emission comes to. It starts at the top level, goes on with what the recipe of a node
asks for, and follows chains to their ends. A node that nothing of this leads to has no code,
wherever it hangs.
-/

namespace BlockSketch

def Observed.Within {α : Type} (x : Observed α) (region : NodeId → Prop) : Prop :=
  ∀ d, ∀ id ∈ visited (x d).2, region id

namespace Observed.Within

variable {α β : Type} {region : NodeId → Prop}

theorem lift (x : Emit α) : (Observed.lift x).Within region := by
  intro d id hid
  cases hid

theorem pure (a : α) : (pure a : Observed α).Within region := lift _

theorem note {event : Event} (h : ∀ id ∈ event.visited?, region id) :
    (Observed.note event).Within region := by
  intro d id hid
  obtain ⟨event', hmem, hvisited⟩ := List.mem_filterMap.mp hid
  obtain rfl := List.mem_singleton.mp hmem
  exact h id hvisited

theorem bind {x : Observed α} {f : α → Observed β} (hx : x.Within region)
    (hf : ∀ a, (f a).Within region) : (x >>= f).Within region := by
  intro d id hid
  have hrun : (x >>= f) d = Observed.bind x f d := rfl
  have hx := hx d
  rw [hrun, Observed.bind] at hid
  split at hid
  next a d' events h =>
      rw [h] at hx
      rw [visited, List.filterMap_append, List.mem_append] at hid
      exact hid.elim (hx id) (hf a d' id)
  next e d' events h =>
      rw [h] at hx
      exact hx id hid

end Observed.Within

/-! ### The parts of emission -/

section Calls

open Observed

variable {r : Registry} {w : Workspace} {emit : Node → Observed Code} {asked : Node → List NodeId}

end Calls

/-! ### Calls in forests -/

end BlockSketch
