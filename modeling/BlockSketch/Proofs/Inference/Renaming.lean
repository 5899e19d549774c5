import BlockSketch.Proofs.Inference.Assignment

/-!
Renaming of variables. A search for types on renamed mentions finds under the new names what it
found under the old ones, as long as no two variables get the same name. Both searches run side by
side; what they have found and who waits for whom agree after every step.
-/

namespace BlockSketch

def DeclaredType.rename (f : String → String) : DeclaredType → DeclaredType
  | known t => known t
  | sameAs name => sameAs (f name)
  | elementOf name => elementOf (f name)

def DeclaredType.names : DeclaredType → List String
  | known _ => []
  | sameAs name => [name]
  | elementOf name => [name]

namespace Mention

def rename (f : String → String) (m : Mention) : Mention :=
  ⟨f m.name, m.declared.rename f, m.element⟩

def names (m : Mention) : List String := m.name :: m.declared.names

end Mention

namespace Inference

def runOn (ms : List (NodeId × Mention)) : Inference :=
  ms.foldl (fun s m => s.apply m.1 m.2) {}

variable {f : String → String} {scope : List String} {s s' u u' : Inference} {node : NodeId}
  {name : String} {t : DataType}

/-- Two searches agree on the variables of a scope, which have other names in the second one. -/
structure Agree (f : String → String) (scope : List String) (s s' : Inference) : Prop where
  types : ∀ n ∈ scope, s'.map.get? (f n) = s.map.get? n
  elements : ∀ n ∈ scope, s'.map.element? (f n) = s.map.element? n
  waiting : ∀ n ∈ scope, s'.waitingOn (f n) = (s.waitingOn n).map (fun d => (f d.1, d.2))
  inside : ∀ n ∈ scope, ∀ d ∈ s.waitingOn n, d.1 ∈ scope

theorem Agree.known? (h : Agree f scope s s') {n : String} (hn : n ∈ scope) :
    s'.known? (f n) = s.known? n := by
  rw [Inference.known?, Inference.known?, h.types n hn]

theorem Agree.get (h : Agree f scope s s') {n : String} (hn : n ∈ scope) :
    s'.map.get (f n) = s.map.get n := by
  rw [TypeMap.get, TypeMap.get, h.types n hn]

theorem Agree.resolve (h : Agree f scope s s') {d : DeclaredType} (hd : d.names ⊆ scope) :
    s'.resolve (d.rename f) = s.resolve d := by
  cases d with
  | known t => rfl
  | sameAs source => exact h.get (hd List.mem_cons_self)
  | elementOf array =>
      have harray : array ∈ scope := hd List.mem_cons_self
      simp only [DeclaredType.rename, Inference.resolve, h.types array harray,
        h.elements array harray]

/-! ### Steps -/

theorem Agree.compareTypes (h : Agree f scope s s') (old : DataType) :
    Agree f scope (s.compareTypes node name old t) (s'.compareTypes node (f name) old t) :=
  ⟨h.types, h.elements, h.waiting, h.inside⟩

section Injective

variable (hf : ∀ u ∈ scope, ∀ v ∈ scope, f u = f v → u = v)

include hf

theorem rename_eq_iff {n m : String} (hn : n ∈ scope) (hm : m ∈ scope) : f n = f m ↔ n = m :=
  ⟨hf n hn m hm, congrArg f⟩

theorem Agree.learn (h : Agree f scope s s') (hname : name ∈ scope) :
    Agree f scope (s.learn node name t) (s'.learn node (f name) t) where
  types n hn := by
    simp only [get?_learn, rename_eq_iff hf hn hname, h.types n hn]
  elements := h.elements
  waiting := h.waiting
  inside := h.inside

theorem Agree.release (h : Agree f scope s s') (hname : name ∈ scope) :
    Agree f scope (s.release name) (s'.release (f name)) where
  types := h.types
  elements := h.elements
  waiting n hn := by
    simp only [waitingOn_release, rename_eq_iff hf hn hname, h.waiting n hn]
    split <;> rfl
  inside n hn d hd := by
    rw [waitingOn_release] at hd
    split at hd
    · cases hd
    · exact h.inside n hn d hd

theorem Agree.await (h : Agree f scope s s') {source : String} (hsource : source ∈ scope)
    (hname : name ∈ scope) :
    Agree f scope (s.await source name node) (s'.await (f source) (f name) node) where
  types := h.types
  elements := h.elements
  waiting n hn := by
    simp only [waitingOn_await, rename_eq_iff hf hn hsource, h.waiting source hsource,
      h.waiting n hn]
    split <;> simp
  inside n hn d hd := by
    rw [waitingOn_await] at hd
    split at hd
    · rcases List.mem_append.mp hd with hd | hd
      · exact h.inside source hsource d hd
      · rw [List.mem_singleton.mp hd]
        exact hname
    · exact h.inside n hn d hd

/-- Both searches serve the same requests: what is known decides in both which rule applies. -/
theorem Agree.serves {todo : List (String × NodeId)} (hs : Serves t todo s u)
    (h : Agree f scope s s') (htodo : ∀ d ∈ todo, d.1 ∈ scope)
    (hs' : Serves t (todo.map fun d => (f d.1, d.2)) s' u') : Agree f scope u u' := by
  induction hs generalizing s' with
  | done s =>
      cases hs'
      exact h
  | @compared s u name node old rest hknown _ ih =>
      obtain ⟨hname, hrest⟩ := List.forall_mem_cons.mp htodo
      cases hs' with
      | compared hknown' hnext =>
          rw [h.known? hname, hknown] at hknown'
          cases hknown'
          exact ih (h.compareTypes old) hrest hnext
      | learned hknown' hnext =>
          rw [h.known? hname, hknown] at hknown'
          cases hknown'
  | @learned s u name node rest hknown _ ih =>
      obtain ⟨hname, hrest⟩ := List.forall_mem_cons.mp htodo
      cases hs' with
      | compared hknown' hnext =>
          rw [h.known? hname, hknown] at hknown'
          cases hknown'
      | learned hknown' hnext =>
          refine ih ((h.learn hf hname).release hf hname) ?_ ?_
          · exact List.forall_mem_append.mpr ⟨h.inside name hname, hrest⟩
          · rwa [h.waiting name hname, ← List.map_append] at hnext

theorem Agree.enter (h : Agree f scope s s') (hname : name ∈ scope) :
    Agree f scope (s.enter node name) (s'.enter node (f name)) := by
  rw [Inference.enter, Inference.enter, h.known? hname]
  cases s.known? name with
  | some old => exact h.compareTypes old
  | none => exact h.learn hf hname

theorem Agree.assign (h : Agree f scope s s') (hname : name ∈ scope) :
    Agree f scope (s.assign node name t) (s'.assign node (f name) t) := by
  by_cases ht : t = .undefined
  · rw [ht, assign_undefined, assign_undefined]
    exact h.enter hf hname
  · exact h.serves hf (assignSteps_serves ht (Nat.le_refl _)) (by simpa using hname)
      (assignSteps_serves ht (Nat.le_refl _))

theorem Agree.park (h : Agree f scope s s') {m : Mention} (hm : m.names ⊆ scope) :
    Agree f scope (s.park node m) (s'.park node (m.rename f)) := by
  obtain ⟨hname, hdeclared⟩ := List.cons_subset.mp hm
  obtain ⟨name, declared, element⟩ := m
  cases declared with
  | known t => exact h
  | elementOf array => exact h
  | sameAs source =>
      have hsource : source ∈ scope := hdeclared List.mem_cons_self
      simp only [Inference.park, Mention.rename, DeclaredType.rename, h.known? hsource]
      split
      · exact h.await hf hsource hname
      · exact h

theorem Agree.learnElement (h : Agree f scope s s') {m : Mention} (hname : m.name ∈ scope)
    (isNew : Bool) :
    Agree f scope (s.learnElement m isNew) (s'.learnElement (m.rename f) isNew) := by
  obtain ⟨name, declared, element⟩ := m
  cases element with
  | none => exact h
  | some t =>
      cases isNew with
      | false => exact h
      | true =>
          refine ⟨h.types, fun n hn => ?_, h.waiting, h.inside⟩
          have hfind := h.elements n hn
          simp only [Inference.learnElement, Mention.rename, TypeMap.element?, if_true,
            SortedMap.find?_insert, rename_eq_iff hf hn hname] at hfind ⊢
          rw [hfind]

theorem Agree.apply (h : Agree f scope s s') {m : Mention} (hm : m.names ⊆ scope) :
    Agree f scope (s.apply node m) (s'.apply node (m.rename f)) := by
  obtain ⟨hname, hdeclared⟩ := List.cons_subset.mp hm
  have hresolve : s'.resolve (m.rename f).declared = s.resolve m.declared := h.resolve hdeclared
  have hknown : s'.known? (m.rename f).name = s.known? m.name := h.known? hname
  rw [Inference.apply, Inference.apply, hresolve, hknown]
  exact ((h.park hf hm).assign hf hname).learnElement hf hname _

/-- Searching for types commutes with renaming. -/
theorem get?_runOn_rename {ms : List (NodeId × Mention)} (hms : ∀ m ∈ ms, m.2.names ⊆ scope)
    (hname : name ∈ scope) :
    (runOn (ms.map fun m => (m.1, m.2.rename f))).map.get? (f name) =
      (runOn ms).map.get? name := by
  have hrun {s s' : Inference} (h : Agree f scope s s') :
      Agree f scope (ms.foldl (fun s m => s.apply m.1 m.2) s)
        ((ms.map fun m => (m.1, m.2.rename f)).foldl (fun s m => s.apply m.1 m.2) s') := by
    induction ms generalizing s s' with
    | nil => exact h
    | cons m rest ih =>
        obtain ⟨hfirst, hrest⟩ := List.forall_mem_cons.mp hms
        exact ih hrest (h.apply hf hfirst)
  have hstart : Agree f scope {} {} :=
    ⟨fun _ _ => rfl, fun _ _ => rfl, fun _ _ => rfl, fun _ _ _ hd => nomatch hd⟩
  exact (hrun hstart).types name hname

end Injective

end Inference

end BlockSketch
