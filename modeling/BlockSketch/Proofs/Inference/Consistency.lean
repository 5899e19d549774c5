import BlockSketch.Proofs.Inference.Assignment
import Mathlib.Data.List.Induction

/-!
What the search for types keeps, whatever mentions it takes in. Giving a type to a variable and to
those who wait for it always comes to an end. After each mention nobody waits for a variable whose
type is known, no type that is known has changed, and only arrays have types of elements, which have
not changed either.
-/

namespace BlockSketch.Inference

variable {s s' : Inference} {node : NodeId} {name : String} {t : DataType}

/-! ### The recursion without a count -/

inductive Task where
  /-- Give the type to a variable. -/
  | assign (node : NodeId) (name : String)
  /-- Give it to those who wait for a variable. -/
  | drain (name : String)
  /-- Give it to several variables, one after the other. -/
  | each (requests : List (String × NodeId))

/-- A task for a type is completed between two states. There is a rule for each branch of the
recursion, so a task is completed exactly if the recursion comes to an end. -/
inductive Completes (t : DataType) : Task → Inference → Inference → Prop where
  | compare {s : Inference} {node : NodeId} {name : String} {old : DataType}
      (hknown : s.known? name = some old) :
      Completes t (.assign node name) s (s.compareTypes node name old t)
  | enter {s : Inference} {node : NodeId} {name : String} (hknown : s.known? name = none)
      (ht : t = .undefined) : Completes t (.assign node name) s (s.learn node name t)
  | learn {s s' : Inference} {node : NodeId} {name : String} (hknown : s.known? name = none)
      (ht : t ≠ .undefined) (hdrain : Completes t (.drain name) (s.learn node name t) s') :
      Completes t (.assign node name) s s'
  | idle {s : Inference} {name : String} (hnobody : s.waiting.find? name = none) :
      Completes t (.drain name) s s
  | release {s s' : Inference} {name : String} {requests : List (String × NodeId)}
      (hwaiting : s.waiting.find? name = some requests)
      (heach : Completes t (.each requests) (s.release name) s') :
      Completes t (.drain name) s s'
  | done (s : Inference) : Completes t (.each []) s s
  | next {s mid s' : Inference} {node : NodeId} {name : String} {rest : List (String × NodeId)}
      (hfirst : Completes t (.assign node name) s mid) (hrest : Completes t (.each rest) mid s') :
      Completes t (.each ((name, node) :: rest)) s s'

namespace Completes

theorem unique {task : Task} {s₁ s₂ : Inference} (h₁ : Completes t task s s₁)
    (h₂ : Completes t task s s₂) : s₁ = s₂ := by
  induction h₁ generalizing s₂ with
  | compare hknown =>
      cases h₂ with
      | compare hknown' => rw [Option.some.inj (hknown.symm.trans hknown')]
      | enter hknown' => rw [hknown] at hknown'; cases hknown'
      | learn hknown' => rw [hknown] at hknown'; cases hknown'
  | enter hknown ht =>
      cases h₂ with
      | compare hknown' => rw [hknown] at hknown'; cases hknown'
      | enter => rfl
      | learn _ hne => exact absurd ht hne
  | learn hknown hne _ ih =>
      cases h₂ with
      | compare hknown' => rw [hknown] at hknown'; cases hknown'
      | enter _ ht => exact absurd ht hne
      | learn _ _ hdrain => exact ih hdrain
  | idle hnobody =>
      cases h₂ with
      | idle => rfl
      | release hwaiting => rw [hnobody] at hwaiting; cases hwaiting
  | release hwaiting _ ih =>
      cases h₂ with
      | idle hnobody => rw [hwaiting] at hnobody; cases hnobody
      | release hwaiting' heach =>
          obtain rfl := Option.some.inj (hwaiting.symm.trans hwaiting')
          exact ih heach
  | done => cases h₂ with | done => rfl
  | next _ _ ihfirst ihrest =>
      cases h₂ with
      | next hfirst hrest =>
          obtain rfl := ihfirst hfirst
          exact ihrest hrest

theorem split_append {first second : List (String × NodeId)}
    (h : Completes t (.each (first ++ second)) s s') :
    ∃ mid, Completes t (.each first) s mid ∧ Completes t (.each second) mid s' := by
  induction first generalizing s with
  | nil => exact ⟨s, .done s, h⟩
  | cons request first ih =>
      cases h with
      | next hfirst hrest =>
          obtain ⟨mid, hmid, hsecond⟩ := ih hrest
          exact ⟨mid, .next hfirst hmid, hsecond⟩

end Completes

/-- Those who wait for a variable that has just learned its type are served, and that is the task of
draining it. -/
theorem Completes.drain_of_each {mid : Inference}
    (h : Completes t (.each (s.waitingOn name)) (s.release name) mid) :
    Completes t (.drain name) s mid := by
  rw [waitingOn] at h
  cases hwaiting : s.waiting.find? name with
  | some requests =>
      rw [hwaiting, Option.getD_some] at h
      exact .release hwaiting h
  | none =>
      have hrelease : s.release name = s := by
        rw [Inference.release, SortedMap.erase_of_find?_eq_none hwaiting]
      rw [hwaiting, hrelease] at h
      cases h with
      | done => exact .idle hwaiting

theorem Serves.completes {todo : List (String × NodeId)} (ht : t ≠ .undefined)
    (h : Serves t todo s s') : Completes t (.each todo) s s' := by
  induction h with
  | done s => exact .done s
  | compared hknown _ ih => exact .next (.compare hknown) ih
  | learned hknown _ ih =>
      obtain ⟨mid, hserved, hrest⟩ := ih.split_append
      exact .next (.learn hknown ht (Completes.drain_of_each hserved)) hrest

/-- Giving a variable a type comes to an end, with the state that `assign` tells. -/
theorem completes_assign (s : Inference) (node : NodeId) (name : String) (t : DataType) :
    Completes t (.assign node name) s (s.assign node name t) := by
  by_cases ht : t = .undefined
  · subst ht
    rw [assign_undefined, enter]
    cases hknown : s.known? name with
    | some old => exact .compare hknown
    | none => exact .enter hknown rfl
  · have hserves : Serves t [(name, node)] s (s.assign node name t) :=
      assignSteps_serves ht (Nat.le_refl _)
    cases hserves.completes ht with
    | next hfirst hrest =>
        cases hrest with
        | done => exact hfirst

/-! ### What is known stays known -/

theorem known?_eq_some_iff {n : String} :
    s.known? n = some t ↔ s.map.get? n = some t ∧ t ≠ .undefined := by
  rw [known?, Option.filter_eq_some_iff]
  simp

theorem known?_eq_none_iff {n : String} :
    s.known? n = none ↔ s.map.get? n = none ∨ s.map.get? n = some .undefined := by
  rw [known?]
  cases s.map.get? n with
  | none => simp
  | some t => by_cases ht : t = .undefined <;> simp [Option.filter, ht]

structure Extends (s s' : Inference) : Prop where
  known : ∀ n t, s.known? n = some t → s'.known? n = some t
  elements : ∀ n t, s.map.element? n = some t → s'.map.element? n = some t

theorem Extends.refl (s : Inference) : s.Extends s := ⟨fun _ _ h => h, fun _ _ h => h⟩

theorem Extends.trans {s'' : Inference} (h : s.Extends s') (h' : s'.Extends s'') : s.Extends s'' :=
  ⟨fun n t hn => h'.known n t (h.known n t hn), fun n t hn => h'.elements n t (h.elements n t hn)⟩

/-- Nobody waits for a variable that is known, and only arrays have types of elements. -/
structure Consistent (s : Inference) : Prop where
  waiting : ∀ source, s.waiting.contains source = true → s.known? source = none
  arrays : ∀ n t, s.map.element? n = some t → s.known? n = some .array

namespace Serves

variable {todo : List (String × NodeId)}

theorem elements_eq (h : Serves t todo s s') : s'.map.elements = s.map.elements := by
  induction h with
  | done => rfl
  | compared _ _ ih => exact ih
  | learned _ _ ih => exact ih

theorem known_of_known (h : Serves t todo s s') {n : String} {u : DataType}
    (hn : s.known? n = some u) : s'.known? n = some u := by
  induction h with
  | done => exact hn
  | compared _ _ ih => exact ih hn
  | @learned _ _ name _ _ hknown _ ih =>
      have hne : n ≠ name := by
        rintro rfl
        rw [hknown] at hn
        cases hn
      exact ih (by rw [known?_release, known?_learn, if_neg hne, hn])

/-- A variable without a type that is served first has the type in the end. -/
theorem known_of_unknown (ht : t ≠ .undefined) (h : Serves t ((name, node) :: todo) s s')
    (hknown : s.known? name = none) : s'.known? name = some t := by
  cases h with
  | compared hsome => rw [hknown] at hsome; cases hsome
  | learned _ h =>
      exact h.known_of_known (by rw [known?_release, known?_learn, if_pos rfl, if_neg ht])

theorem waiting_unknown (h : Serves t todo s s')
    (hs : ∀ source, s.waiting.contains source = true → s.known? source = none) :
    ∀ source, s'.waiting.contains source = true → s'.known? source = none := by
  induction h with
  | done => exact hs
  | compared _ _ ih => exact ih hs
  | @learned s _ name node _ _ _ ih =>
      refine ih fun source hsource => ?_
      -- the variable that learned its type is no longer waited for
      change (((s.learn node name t).waiting.erase name).find? source).isSome = true at hsource
      rw [SortedMap.find?_erase] at hsource
      split at hsource
      next => cases hsource
      next hne =>
          rw [known?_release, known?_learn, if_neg hne]
          exact hs source hsource

end Serves

/-! ### Taking in a mention -/

theorem waiting_enter : (s.enter node name).waiting = s.waiting := by
  rw [enter]
  cases s.known? name <;> rfl

theorem elements_enter : (s.enter node name).map.elements = s.map.elements := by
  rw [enter]
  cases s.known? name <;> rfl

theorem contains_await {source n : String} :
    (s.await source name node).waiting.contains n = true ↔
      n = source ∨ s.waiting.contains n = true := by
  simp only [await, SortedMap.contains, SortedMap.find?_insert]
  by_cases hn : n = source <;> simp [hn]

section

variable (s : Inference) (node : NodeId) (m : Mention)

theorem elements_give : (s.give node m).map.elements = s.map.elements := by
  obtain ⟨source, -, -, -, hgive⟩ | ⟨-, -, hgive⟩ | ⟨-, hserves⟩ := s.give_cases node m
  · rw [hgive, elements_enter]
    rfl
  · rw [hgive, elements_enter]
  · exact hserves.elements_eq

variable {s} in
theorem known_give {n : String} {u : DataType} (hn : s.known? n = some u) :
    (s.give node m).known? n = some u := by
  obtain ⟨source, -, -, -, hgive⟩ | ⟨-, -, hgive⟩ | ⟨-, hserves⟩ := s.give_cases node m
  · rw [hgive, known?_enter, known?_await, hn]
  · rw [hgive, known?_enter, hn]
  · exact hserves.known_of_known hn

variable {s m} in
theorem known_give_self (hne : s.resolve m.declared ≠ .undefined)
    (hnew : s.known? m.name = none) :
    (s.give node m).known? m.name = some (s.resolve m.declared) := by
  obtain ⟨source, -, hundefined, -⟩ | ⟨-, hundefined, -⟩ | ⟨-, hserves⟩ := s.give_cases node m
  · exact absurd hundefined hne
  · exact absurd hundefined hne
  · exact hserves.known_of_unknown hne hnew

variable {s} in
theorem Consistent.waiting_give (h : s.Consistent) {source : String}
    (hsource : (s.give node m).waiting.contains source = true) :
    (s.give node m).known? source = none := by
  obtain ⟨awaited, -, -, hawaited, hgive⟩ | ⟨-, -, hgive⟩ | ⟨-, hserves⟩ := s.give_cases node m
  · rw [hgive, waiting_enter, contains_await] at hsource
    rw [hgive, known?_enter, known?_await]
    rcases hsource with rfl | hsource
    · exact hawaited
    · exact h.waiting source hsource
  · rw [hgive, waiting_enter] at hsource
    rw [hgive, known?_enter]
    exact h.waiting source hsource
  · exact hserves.waiting_unknown h.waiting source hsource

end

theorem element?_learnElement (m : Mention) (isNew : Bool) (n : String) :
    (s.learnElement m isNew).map.element? n =
      if n = m.name ∧ isNew = true ∧ m.element.isSome then m.element else s.map.element? n := by
  unfold learnElement
  cases m.element with
  | none => simp
  | some e =>
      cases isNew with
      | false => simp
      | true =>
          change (s.map.elements.insert m.name e).find? n = _
          rw [SortedMap.find?_insert]
          simp [TypeMap.element?]

theorem waiting_learnElement (m : Mention) (isNew : Bool) :
    (s.learnElement m isNew).waiting = s.waiting := by
  obtain ⟨elements, heq⟩ := s.learnElement_eq m isNew
  rw [heq]

/-- A mention keeps what is known and leaves a consistent state. The clauses need each other: an
array that is new had no type of elements before, since then its own type would have been known. -/
theorem Consistent.apply (h : s.Consistent) (node : NodeId) {m : Mention}
    (harray : m.element ≠ none → m.declared = .known .array) :
    s.Extends (s.apply node m) ∧ (s.apply node m).Consistent := by
  have happly : s.apply node m = (s.give node m).learnElement m (s.known? m.name).isNone := rfl
  have helement (n : String) : (s.give node m).map.element? n = s.map.element? n :=
    congrArg (·.find? n) (s.elements_give node m)
  rw [happly]
  refine ⟨⟨fun n t hn => ?_, fun n t hn => ?_⟩, fun source hsource => ?_, fun n t hn => ?_⟩
  · rw [known?_learnElement]
    exact known_give node m hn
  · rw [element?_learnElement, helement]
    split
    next hnew =>
        obtain ⟨rfl, hnone, -⟩ := hnew
        rw [h.arrays _ _ hn] at hnone
        cases hnone
    next => exact hn
  · rw [waiting_learnElement] at hsource
    rw [known?_learnElement]
    exact h.waiting_give node m hsource
  · rw [known?_learnElement]
    rw [element?_learnElement, helement] at hn
    split at hn
    next hnew =>
        obtain ⟨rfl, hnone, hsome⟩ := hnew
        have hresolve : s.resolve m.declared = .array := by
          rw [harray (Option.isSome_iff_ne_none.mp hsome), resolve]
        rw [← hresolve]
        apply known_give_self node
        · rw [hresolve]
          decide
        · exact Option.isNone_iff_eq_none.mp hnone
    next => exact known_give node m (h.arrays _ _ hn)

/-! ### Whole searches -/

/-- The search after some mentions were taken in, one after the other, as `run` takes in those of a
program. -/
def taking (ds : Diagnostics) (calls : List (NodeId × Mention)) : Inference :=
  calls.foldl (fun s c => s.apply c.1 c.2) { diagnostics := ds }

theorem taking_append_singleton (ds : Diagnostics) (calls : List (NodeId × Mention))
    (c : NodeId × Mention) : taking ds (calls ++ [c]) = (taking ds calls).apply c.1 c.2 := by
  simp [taking]

def DeclareArrays (calls : List (NodeId × Mention)) : Prop :=
  ∀ c ∈ calls, c.2.element ≠ none → c.2.declared = .known .array

theorem consistent_taking (ds : Diagnostics) {calls : List (NodeId × Mention)}
    (h : DeclareArrays calls) : (taking ds calls).Consistent := by
  induction calls using List.reverseRecOn with
  | nil =>
      refine ⟨fun source hsource => ?_, fun n t hn => ?_⟩
      · cases hsource
      · cases hn
  | append_singleton calls c ih =>
      have hcalls : DeclareArrays calls := fun d hd => h d (List.mem_append_left _ hd)
      rw [taking_append_singleton]
      exact ((ih hcalls).apply c.1 (h c (by simp))).2

theorem extends_taking (ds : Diagnostics) {calls more : List (NodeId × Mention)}
    (h : DeclareArrays (calls ++ more)) :
    (taking ds calls).Extends (taking ds (calls ++ more)) := by
  induction more using List.reverseRecOn with
  | nil => rw [List.append_nil]; exact .refl _
  | append_singleton more c ih =>
      rw [← List.append_assoc] at h ⊢
      have hmore : DeclareArrays (calls ++ more) := fun d hd => h d (List.mem_append_left _ hd)
      rw [taking_append_singleton]
      exact (ih hmore).trans ((consistent_taking ds hmore).apply c.1 (h c (by simp))).1

/-- At any point of a search the recursion for the next mention comes to an end, in one state only.
Nobody waits for a variable whose type is known, and whatever is taken in later, a type that is
known stays as it is. Only arrays have types of elements, and these stay as well. -/
theorem search_keeps_first_types (ds : Diagnostics) (calls more : List (NodeId × Mention))
    (harrays : DeclareArrays (calls ++ more)) :
    let s := taking ds calls
    let later := taking ds (calls ++ more)
    (∀ node m, ∃ after,
        (∀ u, Completes (s.resolve m.declared) (.assign node m.name) (s.park node m) u ↔
          u = after) ∧
        s.apply node m = after.learnElement m (s.known? m.name).isNone) ∧
      (∀ source, s.waiting.contains source = true →
        s.map.get? source = none ∨ s.map.get? source = some .undefined) ∧
      (∀ n t, s.map.get? n = some t → t ≠ .undefined → later.map.get? n = some t) ∧
      (∀ n e, s.map.element? n = some e →
        s.map.get? n = some .array ∧ later.map.element? n = some e) := by
  intro s later
  have hcalls : DeclareArrays calls := fun c hc => harrays c (List.mem_append_left _ hc)
  have hconsistent : s.Consistent := consistent_taking ds hcalls
  have hextends : s.Extends later := extends_taking ds harrays
  refine ⟨fun node m => ?_, fun source hsource => ?_, fun n t hn ht => ?_, fun n e he => ?_⟩
  · have hends := (s.park node m).completes_assign node m.name (s.resolve m.declared)
    refine ⟨_, fun u => ⟨fun hu => hu.unique hends, ?_⟩, rfl⟩
    rintro rfl
    exact hends
  · exact known?_eq_none_iff.mp (hconsistent.waiting source hsource)
  · exact (known?_eq_some_iff.mp (hextends.known n t (known?_eq_some_iff.mpr ⟨hn, ht⟩))).1
  · exact ⟨(known?_eq_some_iff.mp (hconsistent.arrays n e he)).1, hextends.elements n e he⟩

/-- A variable that takes its own type, two that take each other's, and an array. -/
def circularSample : List (NodeId × Mention) :=
  [(⟨1⟩, ⟨"x", .sameAs "x", none⟩), (⟨2⟩, ⟨"y", .sameAs "x", none⟩),
    (⟨3⟩, ⟨"x", .sameAs "y", none⟩), (⟨4⟩, .array "a" .number)]

def resolvingSample : List (NodeId × Mention) :=
  [(⟨5⟩, ⟨"y", .known .text, none⟩), (⟨6⟩, ⟨"x", .elementOf "a", none⟩),
    (⟨7⟩, .array "a" .text)]

theorem circularSample_keeps_first_types :
    DeclareArrays (circularSample ++ resolvingSample) ∧
      let s := taking .empty circularSample
      let later := taking .empty (circularSample ++ resolvingSample)
      (∃ after, Completes .text (.assign ⟨5⟩ "y") s after ∧
          s.apply ⟨5⟩ ⟨"y", .known .text, none⟩ = after) ∧
        (s.waiting.contains "x" = true ∧
          (s.map.get? "x" = none ∨ s.map.get? "x" = some .undefined)) ∧
        (s.map.get? "a" = some .array ∧ later.map.get? "a" = some .array) ∧
        s.map.element? "a" = some .number ∧ later.map.element? "a" = some .number := by
  have harrays : DeclareArrays (circularSample ++ resolvingSample) := by
    simp [DeclareArrays, circularSample, resolvingSample, Mention.array]
  have hwaiting : (taking .empty circularSample).waiting.contains "x" = true := by decide +kernel
  have helement : (taking .empty circularSample).map.element? "a" = some .number := by
    decide +kernel
  obtain ⟨hends, hunknown, hkept, helements⟩ :=
    search_keeps_first_types .empty circularSample resolvingSample harrays
  obtain ⟨after, hafter, happly⟩ := hends ⟨5⟩ ⟨"y", .known .text, none⟩
  obtain ⟨harray, hlater⟩ := helements "a" .number helement
  exact ⟨harrays, ⟨after, (hafter after).mpr rfl, happly⟩, ⟨hwaiting, hunknown "x" hwaiting⟩,
    ⟨harray, hkept "a" .array harray (by decide)⟩, helement, hlater⟩

end BlockSketch.Inference
