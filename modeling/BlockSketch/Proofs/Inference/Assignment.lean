import BlockSketch.Inference.Engine

/-!
What one assignment does. An assignment of a known type serves a list of requests: each of them
either compares the type with the one that the variable has, or gives it to the variable, and then
those who waited for that variable are served next. Serving is written here as a relation with one
rule for each of the two, so that what assignments keep is proved rule by rule, without the count
that bounds the rounds.
-/

namespace BlockSketch

namespace SortedMap

variable {κ α : Type} [Ord κ] [Std.LawfulEqOrd κ]

theorem lookupIn?_eq_none_iff {k : κ} {l : List (κ × α)} :
    lookupIn? k l = none ↔ ∀ e ∈ l, compare k e.1 ≠ .eq := by
  induction l with
  | nil => simp [lookupIn?]
  | cons e rest ih =>
      rw [lookupIn?, List.forall_mem_cons]
      split
      next h => simp [h]
      next h => simp [h, ih]

theorem erase_of_find?_eq_none {m : SortedMap κ α} {k : κ} (h : m.find? k = none) :
    m.erase k = m := by
  have hall := lookupIn?_eq_none_iff.mp h
  apply SortedMap.ext
  simp only [erase]
  exact List.filter_eq_self.mpr fun e he => decide_eq_true (hall e he)

theorem size_erase_lt {m : SortedMap κ α} {k : κ} {v : α} (h : m.find? k = some v) :
    (m.erase k).size < m.size := by
  have hmem : ∃ e ∈ m.entries, compare k e.1 = .eq := by
    apply Classical.byContradiction
    intro hno
    have hnone : m.find? k = none := lookupIn?_eq_none_iff.mpr fun e he heq => hno ⟨e, he, heq⟩
    rw [hnone] at h
    cases h
  obtain ⟨e, he, heq⟩ := hmem
  exact List.length_filter_lt_length_iff_exists.mpr ⟨e, he, by simpa using heq⟩

omit [Std.LawfulEqOrd κ] in
theorem size_erase_le (m : SortedMap κ α) (k : κ) : (m.erase k).size ≤ m.size :=
  List.length_filter_le _ _

end SortedMap

namespace Inference

variable {s s' : Inference} {node : NodeId} {name : String} {t : DataType}

/-! ### Reading a changed state -/

/-- Those who wait for the type of a variable, with the nodes that ask for it. -/
def waitingOn (s : Inference) (name : String) : List (String × NodeId) :=
  (s.waiting.find? name).getD []

def release (s : Inference) (name : String) : Inference :=
  { s with waiting := s.waiting.erase name }

theorem get_eq (s : Inference) (n : String) : s.map.get n = (s.known? n).getD .undefined := by
  rw [TypeMap.get, known?]
  cases s.map.get? n with
  | none => rfl
  | some t => by_cases h : t = .undefined <;> simp [Option.filter, h]

theorem known?_ne_undefined {n : String} (h : s.known? n = some t) : t ≠ .undefined := by
  rw [known?, Option.filter_eq_some_iff] at h
  simpa using h.2

theorem get_of_known? {n : String} (h : s.known? n = some t) : s.map.get n = t := by
  rw [get_eq, h, Option.getD_some]

theorem get_ne_undefined_iff {n : String} :
    s.map.get n ≠ .undefined ↔ (s.known? n).isSome := by
  rw [get_eq]
  cases h : s.known? n with
  | none => simp
  | some t => simpa using known?_ne_undefined h

theorem known?_of_get {n : String} (h : s.map.get n = t) (ht : t ≠ .undefined) :
    s.known? n = some t := by
  subst h
  obtain ⟨u, hu⟩ := Option.isSome_iff_exists.mp (get_ne_undefined_iff.mp ht)
  rw [hu, get_of_known? hu]

theorem isSome_get?_of_known? {n : String} (h : s.known? n = some t) :
    (s.map.get? n).isSome := by
  rw [known?, Option.filter_eq_some_iff] at h
  rw [h.1, Option.isSome_some]

@[simp] theorem get?_learn (n : String) :
    (s.learn node name t).map.get? n = if n = name then some t else s.map.get? n :=
  SortedMap.find?_insert s.map.types name n t

@[simp] theorem known?_learn (n : String) :
    (s.learn node name t).known? n =
      if n = name then if t = .undefined then none else some t else s.known? n := by
  rw [known?, get?_learn]
  by_cases hn : n = name
  · by_cases ht : t = .undefined <;> simp [hn, ht]
  · simp [hn, known?]

@[simp] theorem waitingOn_learn (n : String) :
    (s.learn node name t).waitingOn n = s.waitingOn n := rfl

@[simp] theorem map_compareTypes (old new : DataType) :
    (s.compareTypes node name old new).map = s.map := rfl

@[simp] theorem known?_compareTypes (old new : DataType) (n : String) :
    (s.compareTypes node name old new).known? n = s.known? n := rfl

@[simp] theorem waitingOn_compareTypes (old new : DataType) (n : String) :
    (s.compareTypes node name old new).waitingOn n = s.waitingOn n := rfl

@[simp] theorem map_release : (s.release name).map = s.map := rfl

@[simp] theorem known?_release (n : String) : (s.release name).known? n = s.known? n := rfl

@[simp] theorem waitingOn_release (n : String) :
    (s.release name).waitingOn n = if n = name then [] else s.waitingOn n := by
  simp only [waitingOn, release, SortedMap.find?_erase]
  split <;> rfl

@[simp] theorem map_await (source : String) : (s.await source name node).map = s.map := rfl

@[simp] theorem known?_await (source n : String) :
    (s.await source name node).known? n = s.known? n := rfl

@[simp] theorem waitingOn_await (source n : String) :
    (s.await source name node).waitingOn n =
      if n = source then s.waitingOn source ++ [(name, node)] else s.waitingOn n := by
  simp only [waitingOn, await, SortedMap.find?_insert]
  split <;> rfl

/-- Only the types of elements change when an array is declared. -/
theorem learnElement_eq (m : Mention) (isNew : Bool) :
    ∃ elements, s.learnElement m isNew = { s with map.elements := elements } := by
  unfold learnElement
  cases m.element with
  | none => exact ⟨_, rfl⟩
  | some t => cases isNew <;> exact ⟨_, rfl⟩

@[simp] theorem known?_learnElement (m : Mention) (isNew : Bool) (n : String) :
    (s.learnElement m isNew).known? n = s.known? n := by
  obtain ⟨elements, heq⟩ := s.learnElement_eq m isNew
  rw [heq]
  rfl

@[simp] theorem get?_learnElement (m : Mention) (isNew : Bool) (n : String) :
    (s.learnElement m isNew).map.get? n = s.map.get? n := by
  obtain ⟨elements, heq⟩ := s.learnElement_eq m isNew
  rw [heq]
  rfl

@[simp] theorem waitingOn_learnElement (m : Mention) (isNew : Bool) (n : String) :
    (s.learnElement m isNew).waitingOn n = s.waitingOn n := by
  obtain ⟨elements, heq⟩ := s.learnElement_eq m isNew
  rw [heq]
  rfl

@[simp] theorem diagnostics_learnElement (m : Mention) (isNew : Bool) :
    (s.learnElement m isNew).diagnostics = s.diagnostics := by
  obtain ⟨elements, heq⟩ := s.learnElement_eq m isNew
  rw [heq]

/-! ### Serving requests -/

/-- Requests for one type are served from the first to the last. A variable that learns its type
puts those who waited for it in front of the others. -/
inductive Serves (t : DataType) : List (String × NodeId) → Inference → Inference → Prop where
  | done (s : Inference) : Serves t [] s s
  | compared {s s' : Inference} {name : String} {node : NodeId} {old : DataType}
      {rest : List (String × NodeId)} (hknown : s.known? name = some old)
      (h : Serves t rest (s.compareTypes node name old t) s') : Serves t ((name, node) :: rest) s s'
  | learned {s s' : Inference} {name : String} {node : NodeId} {rest : List (String × NodeId)}
      (hknown : s.known? name = none)
      (h : Serves t (s.waitingOn name ++ rest) ((s.learn node name t).release name) s') :
      Serves t ((name, node) :: rest) s s'

theorem Serves.append {first second : List (String × NodeId)} {mid : Inference}
    (h : Serves t first s mid) (h' : Serves t second mid s') : Serves t (first ++ second) s s' := by
  induction h with
  | done s => exact h'
  | compared hknown _ ih => exact .compared hknown (ih h')
  | learned hknown _ ih =>
      refine .learned hknown ?_
      have hserved := ih h'
      rwa [List.append_assoc] at hserved

theorem Serves.size_le {todo : List (String × NodeId)} (h : Serves t todo s s') :
    s'.waiting.size ≤ s.waiting.size := by
  induction h with
  | done s => exact Nat.le_refl _
  | compared _ _ ih => exact ih
  | learned _ _ ih => exact Nat.le_trans ih (SortedMap.size_erase_le _ _)

theorem Serves.foldl {rounds : Nat} (todo : List (String × NodeId))
    (hone : ∀ s node name, s.waiting.size ≤ rounds →
      Serves t [(name, node)] s (assignSteps rounds s node name t))
    (hsize : s.waiting.size ≤ rounds) :
    Serves t todo s (todo.foldl (fun s d => assignSteps rounds s d.2 d.1 t) s) := by
  induction todo generalizing s with
  | nil => exact .done s
  | cons d rest ih =>
      have hfirst := hone s d.2 d.1 hsize
      exact hfirst.append (ih (Nat.le_trans hfirst.size_le hsize))

/-- A variable for which nobody waits learns its type, and that is all. -/
theorem serves_of_waiting_eq_none (hknown : s.known? name = none)
    (hwaiting : s.waiting.find? name = none) : Serves t [(name, node)] s (s.learn node name t) := by
  have hrelease : (s.learn node name t).release name = s.learn node name t := by
    simp only [release, learn, SortedMap.erase_of_find?_eq_none hwaiting]
  have hnobody : s.waitingOn name = [] := by
    rw [waitingOn, hwaiting, Option.getD_none]
  refine .learned hknown ?_
  rw [hnobody, hrelease]
  exact .done _

/-- The rounds suffice: every round erases a variable for which others wait, so there are no more
rounds than such variables. -/
theorem assignSteps_serves (ht : t ≠ .undefined) {rounds : Nat}
    (hsize : s.waiting.size ≤ rounds) :
    Serves t [(name, node)] s (assignSteps rounds s node name t) := by
  induction rounds generalizing s node name with
  | zero =>
      have hnone : s.waiting.find? name = none := by
        have hempty : s.waiting.entries = [] := List.length_eq_zero_iff.mp (Nat.le_zero.mp hsize)
        rw [SortedMap.find?, hempty]
        rfl
      rw [assignSteps]
      cases hknown : s.known? name with
      | some old => exact .compared hknown (.done _)
      | none => simpa [ht] using serves_of_waiting_eq_none hknown hnone
  | succ rounds ih =>
      rw [assignSteps]
      cases hknown : s.known? name with
      | some old => exact .compared hknown (.done _)
      | none =>
          have hsame : (s.learn node name t).waiting = s.waiting := rfl
          simp only [ht, if_false, hsame]
          cases hwaiting : s.waiting.find? name with
          | none => exact serves_of_waiting_eq_none hknown hwaiting
          | some dependents =>
              have hon : s.waitingOn name = dependents := by
                rw [waitingOn, hwaiting, Option.getD_some]
              refine .learned hknown ?_
              rw [hon, List.append_nil]
              apply Serves.foldl dependents (fun s node name h => ih h)
              have hlt := SortedMap.size_erase_lt hwaiting
              exact Nat.le_of_lt_succ (Nat.lt_of_lt_of_le hlt hsize)

/-! ### Taking in a mention -/

/-- A variable is mentioned, but nothing is known about the value that it is given. -/
def enter (s : Inference) (node : NodeId) (name : String) : Inference :=
  match s.known? name with
  | some old => s.compareTypes node name old .undefined
  | none => s.learn node name .undefined

theorem assign_undefined : s.assign node name .undefined = s.enter node name := by
  rw [assign, assignSteps, enter]
  cases s.known? name with
  | some old => rfl
  | none => simp

@[simp] theorem known?_enter (n : String) : (s.enter node name).known? n = s.known? n := by
  rw [enter]
  cases h : s.known? name with
  | some old => rfl
  | none =>
      rw [known?_learn]
      by_cases hn : n = name
      · simp [hn, h]
      · simp [hn]

@[simp] theorem waitingOn_enter (n : String) :
    (s.enter node name).waitingOn n = s.waitingOn n := by
  rw [enter]
  cases s.known? name <;> rfl

@[simp] theorem isSome_get?_enter (n : String) :
    ((s.enter node name).map.get? n).isSome ↔ n = name ∨ (s.map.get? n).isSome := by
  rw [enter]
  cases h : s.known? name with
  | some old =>
      have hname := isSome_get?_of_known? h
      constructor
      · exact .inr
      · rintro (rfl | hn)
        · exact hname
        · exact hn
  | none =>
      rw [get?_learn]
      by_cases hn : n = name <;> simp [hn]

theorem resolve_sameAs_eq_undefined_iff {source : String} :
    s.resolve (.sameAs source) = .undefined ↔ s.known? source = none := by
  rw [resolve, get_eq]
  cases h : s.known? source with
  | none => simp
  | some t => simpa using known?_ne_undefined h

def give (s : Inference) (node : NodeId) (m : Mention) : Inference :=
  (s.park node m).assign node m.name (s.resolve m.declared)

/-- What happens when the variable of a mention is given its type: it starts to wait for another
one, or is mentioned without a type, or a type that is known is assigned. -/
theorem give_cases (s : Inference) (node : NodeId) (m : Mention) :
    (∃ source, m.declared = .sameAs source ∧ s.resolve m.declared = .undefined ∧
        s.known? source = none ∧
        s.give node m = (s.await source m.name node).enter node m.name) ∨
      ((∀ source, m.declared ≠ .sameAs source) ∧ s.resolve m.declared = .undefined ∧
        s.give node m = s.enter node m.name) ∨
      (s.resolve m.declared ≠ .undefined ∧
        Serves (s.resolve m.declared) [(m.name, node)] s (s.give node m)) := by
  by_cases ht : s.resolve m.declared = .undefined
  · have hgive : s.give node m = (s.park node m).enter node m.name := by
      rw [give, ht, assign_undefined]
    cases hdeclared : m.declared with
    | sameAs source =>
        rw [hdeclared] at ht
        have hsource := resolve_sameAs_eq_undefined_iff.mp ht
        exact .inl ⟨source, rfl, ht, hsource, by rw [hgive]; simp [park, hdeclared, hsource]⟩
    | known t =>
        rw [hdeclared] at ht
        exact .inr (.inl ⟨by simp, ht, by rw [hgive]; simp [park, hdeclared]⟩)
    | elementOf array =>
        rw [hdeclared] at ht
        exact .inr (.inl ⟨by simp, ht, by rw [hgive]; simp [park, hdeclared]⟩)
  · have hpark : s.park node m = s := by
      unfold park
      split
      next source hdeclared =>
          rw [hdeclared, resolve_sameAs_eq_undefined_iff] at ht
          simp [ht]
      next => rfl
    refine .inr (.inr ⟨ht, ?_⟩)
    rw [give, hpark]
    exact assignSteps_serves ht (Nat.le_refl _)

/-- What happens when a mention is taken in, apart from the elements of arrays. -/
theorem apply_cases (s : Inference) (node : NodeId) (m : Mention) :
    ∃ s' isNew, s.apply node m = s'.learnElement m isNew ∧
      ((∃ source, m.declared = .sameAs source ∧ s.resolve m.declared = .undefined ∧
          s.known? source = none ∧ s' = (s.await source m.name node).enter node m.name) ∨
        ((∀ source, m.declared ≠ .sameAs source) ∧ s.resolve m.declared = .undefined ∧
          s' = s.enter node m.name) ∨
        (s.resolve m.declared ≠ .undefined ∧
          Serves (s.resolve m.declared) [(m.name, node)] s s')) :=
  ⟨_, _, rfl, s.give_cases node m⟩

end Inference

end BlockSketch
