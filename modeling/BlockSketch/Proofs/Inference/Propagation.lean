import BlockSketch.Generation
import BlockSketch.Proofs.Block.Registry
import BlockSketch.Proofs.Inference.Assignment
import Mathlib.Logic.Relation

/-!
Types travel along chains of variables. A variable gets a type if it is given a value of a known
type, or the value of a variable that gets one, in whatever order the statements come. The invariant
says of every mention taken in so far that its variable waits as long as nothing is known about the
value, and has a type as soon as something is. It holds while requests are served, up to those that
are still to be served.
-/

namespace BlockSketch

/-- A mention of a variable that was taken in, with the type that the value stood for then. -/
structure Application where
  node : NodeId
  mention : Mention
  found : DataType
  deriving DecidableEq, Repr

namespace Application

/-- What a waiting list holds for a mention: the variable, and the node that mentions it. -/
def request (a : Application) : String × NodeId := (a.mention.name, a.node)

theorem request_mem_cons {a : Application} {name : String} {node : NodeId}
    {rest : List (String × NodeId)} (h : a.request ∈ (name, node) :: rest) :
    a.mention.name = name ∨ a.request ∈ rest :=
  (List.mem_cons.mp h).imp_left (congrArg Prod.fst)

/-- The type of the value under given types of the variables. The element of an array keeps the type
that it had when the mention was taken in. -/
def valueType (a : Application) (types : TypeMap) : DataType :=
  match a.mention.declared with
  | .known t => t
  | .sameAs source => types.get source
  | .elementOf _ => a.found

end Application

namespace Inference

variable {h : List Application} {s s' : Inference} {t : DataType}

def applications (s : Inference) : List (NodeId × Mention) → List Application
  | [] => []
  | (node, m) :: rest =>
      ⟨node, m, s.resolve m.declared⟩ :: (s.apply node m).applications rest

/-- What every mention keeps holds after a run. -/
theorem foldl_apply_induction {I : List Application → Inference → Prop}
    (hstep : ∀ h s node m, I h s →
      I (h ++ [⟨node, m, s.resolve m.declared⟩]) (s.apply node m))
    (l : List (NodeId × Mention)) (hstart : I h s) :
    I (h ++ s.applications l) (l.foldl (fun s m => s.apply m.1 m.2) s) := by
  induction l generalizing h s with
  | nil => simpa [applications] using hstart
  | cons m rest ih =>
      have hnext := ih (hstep h s m.1 m.2 hstart)
      rwa [List.append_assoc] at hnext

/-! ### Chains of variables -/

def Copies (h : List Application) (v w : String) : Prop :=
  ∃ a ∈ h, a.mention.name = v ∧ a.mention.declared = .sameAs w

/-- A variable is given a value whose type is known from the start, or an element of an array whose
type was known when the mention was taken in. -/
def Grounds (h : List Application) (v : String) (t : DataType) : Prop :=
  t ≠ .undefined ∧ ∃ a ∈ h, a.mention.name = v ∧
    (a.mention.declared = .known t ∨
      ∃ array, a.mention.declared = .elementOf array ∧ a.found = t)

def Traced (h : List Application) (n : String) (t : DataType) : Prop :=
  ∃ v, Relation.ReflTransGen (Copies h) n v ∧ Grounds h v t

/-- Chains depend on which mentions there are, not on their order, apart from what was found of the
elements of arrays. -/
theorem Traced.transfer {h' : List Application} {n : String}
    (hsub : ∀ a ∈ h, ∃ b ∈ h', b.mention = a.mention ∧
      ∀ array, a.mention.declared = .elementOf array → b.found = a.found)
    (ht : Traced h n t) : Traced h' n t := by
  obtain ⟨v, hchain, hne, a, ha, hname, hground⟩ := ht
  have hcopies : ∀ x y, Copies h x y → Copies h' x y := by
    rintro x y ⟨b, hb, hcopy⟩
    obtain ⟨b', hb', hmention, -⟩ := hsub b hb
    exact ⟨b', hb', by rw [hmention]; exact hcopy⟩
  obtain ⟨a', ha', hmention, hfound⟩ := hsub a ha
  refine ⟨v, Relation.ReflTransGen.mono hcopies _ _ hchain, hne, a', ha', ?_, ?_⟩
  · rw [hmention, hname]
  · rw [hmention]
    rcases hground with hground | ⟨array, hdeclared, rfl⟩
    · exact .inl hground
    · exact .inr ⟨array, hdeclared, hfound array hdeclared⟩

theorem Traced.mono {h' : List Application} (hsub : h ⊆ h') {n : String} (ht : Traced h n t) :
    Traced h' n t :=
  ht.transfer fun a ha => ⟨a, hsub ha, rfl, fun _ _ => rfl⟩

/-! ### The invariant -/

/-- The state is what the mentions taken in so far ask for, apart from requests for a type that are
still to be served. -/
structure Tracks (h : List Application) (todo : List (String × NodeId)) (t : DataType)
    (s : Inference) : Prop where
  mentioned : ∀ n, (s.map.get? n).isSome → ∃ a ∈ h, a.mention.name = n
  entered : ∀ a ∈ h, (s.map.get? a.mention.name).isSome ∨ a.request ∈ todo
  traced : ∀ n u, s.known? n = some u → Traced h n u
  waits : ∀ a ∈ h, ∀ source, a.mention.declared = .sameAs source → s.known? source = none →
    a.request ∈ s.waitingOn source
  waiting : ∀ source, ∀ d ∈ s.waitingOn source,
    ∃ a ∈ h, a.request = d ∧ a.mention.declared = .sameAs source
  offered : ∀ d ∈ todo, ∃ a ∈ h, a.request = d ∧ a.valueType s.map = t
  settled : ∀ a ∈ h, a.valueType s.map ≠ .undefined →
    (s.known? a.mention.name).isSome ∨ a.request ∈ todo

/-- A mention of a value with a known type traces its variable to that type. -/
theorem Tracks.traced_name {todo : List (String × NodeId)} {u : DataType}
    (hs : Tracks h todo u s) {a : Application} (ha : a ∈ h) (hvalue : a.valueType s.map = t)
    (ht : t ≠ .undefined) : Traced h a.mention.name t := by
  unfold Application.valueType at hvalue
  split at hvalue
  next u hdeclared =>
      subst hvalue
      exact ⟨_, .refl, ht, a, ha, rfl, .inl hdeclared⟩
  next source hdeclared =>
      obtain ⟨v, hchain, hground⟩ := hs.traced source t (known?_of_get hvalue ht)
      exact ⟨v, .head ⟨a, ha, rfl, hdeclared⟩ hchain, hground⟩
  next array hdeclared =>
      exact ⟨_, .refl, ht, a, ha, rfl, .inr ⟨array, hdeclared, hvalue⟩⟩

theorem valueType_congr (hknown : ∀ n, s'.known? n = s.known? n) (a : Application) :
    a.valueType s'.map = a.valueType s.map := by
  unfold Application.valueType
  simp only [get_eq, hknown]

theorem valueType_learn {node : NodeId} {name : String} (ht : t ≠ .undefined) (a : Application) :
    a.valueType (s.learn node name t).map =
      if a.mention.declared = .sameAs name then t else a.valueType s.map := by
  unfold Application.valueType
  cases hdeclared : a.mention.declared with
  | known u => simp
  | elementOf array => simp
  | sameAs source =>
      simp only [get_eq, known?_learn, DeclaredType.sameAs.injEq]
      by_cases hs : source = name <;> simp [hs, ht]

/-! ### Serving requests keeps the invariant -/

theorem Tracks.compared {name : String} {node : NodeId} {old : DataType}
    {rest : List (String × NodeId)} (hs : Tracks h ((name, node) :: rest) t s)
    (hknown : s.known? name = some old) :
    Tracks h rest t (s.compareTypes node name old t) where
  mentioned := hs.mentioned
  entered a ha := by
    rcases hs.entered a ha with hentry | hmem
    · exact .inl hentry
    · rcases Application.request_mem_cons hmem with rfl | hmem
      · exact .inl (isSome_get?_of_known? hknown)
      · exact .inr hmem
  traced := hs.traced
  waits := hs.waits
  waiting := hs.waiting
  offered d hd := hs.offered d (List.mem_cons_of_mem _ hd)
  settled a ha hvalue := by
    rcases hs.settled a ha hvalue with hsome | hmem
    · exact .inl hsome
    · rcases Application.request_mem_cons hmem with rfl | hmem
      · exact .inl (Option.isSome_of_eq_some hknown)
      · exact .inr hmem

theorem Tracks.learned {name : String} {node : NodeId} {rest : List (String × NodeId)}
    (ht : t ≠ .undefined) (hs : Tracks h ((name, node) :: rest) t s)
    (hknown : s.known? name = none) :
    Tracks h (s.waitingOn name ++ rest) t ((s.learn node name t).release name) := by
  obtain ⟨b, hb, hrequest, hvalue⟩ := hs.offered (name, node) List.mem_cons_self
  obtain rfl : b.mention.name = name := congrArg Prod.fst hrequest
  refine ⟨?_, ?_, ?_, ?_, ?_, ?_, ?_⟩
  · intro n hn
    rw [map_release, get?_learn] at hn
    split at hn
    next heq => exact ⟨b, hb, heq.symm⟩
    next => exact hs.mentioned n hn
  · intro a ha
    rw [map_release, get?_learn]
    by_cases hname : a.mention.name = b.mention.name
    · simp [hname]
    · rcases hs.entered a ha with hentry | hmem
      · exact .inl (by simpa [hname] using hentry)
      · have hrest := (Application.request_mem_cons hmem).resolve_left hname
        exact .inr (List.mem_append_right _ hrest)
  · intro n u hu
    rw [known?_release, known?_learn] at hu
    split at hu
    next heq =>
        obtain rfl : t = u := by simpa [ht] using hu
        subst heq
        exact hs.traced_name hb hvalue ht
    next => exact hs.traced n u hu
  · intro a ha source hdeclared hsource
    rw [known?_release, known?_learn] at hsource
    have hne : source ≠ b.mention.name := by
      rintro rfl
      simp [ht] at hsource
    rw [if_neg hne] at hsource
    rw [waitingOn_release, if_neg hne, waitingOn_learn]
    exact hs.waits a ha source hdeclared hsource
  · intro source d hd
    rw [waitingOn_release, waitingOn_learn] at hd
    split at hd
    · cases hd
    · exact hs.waiting source d hd
  · intro d hd
    rw [map_release]
    rcases List.mem_append.mp hd with hd | hd
    · obtain ⟨a, ha, hrequest, hdeclared⟩ := hs.waiting _ d hd
      exact ⟨a, ha, hrequest, by rw [valueType_learn ht, if_pos hdeclared]⟩
    · obtain ⟨a, ha, hrequest, hvalue⟩ := hs.offered d (List.mem_cons_of_mem _ hd)
      refine ⟨a, ha, hrequest, ?_⟩
      rw [valueType_learn ht, hvalue, ite_self]
  · intro a ha hvalue
    rw [map_release, valueType_learn ht] at hvalue
    by_cases hdeclared : a.mention.declared = .sameAs b.mention.name
    · -- the value was not known before, so the mention has been waiting for this
      exact .inr (List.mem_append_left _ (hs.waits a ha _ hdeclared hknown))
    · rw [if_neg hdeclared] at hvalue
      rw [known?_release, known?_learn]
      by_cases hname : a.mention.name = b.mention.name
      · simp [hname, ht]
      · rcases hs.settled a ha hvalue with hsome | hmem
        · exact .inl (by simpa [hname] using hsome)
        · have hrest := (Application.request_mem_cons hmem).resolve_left hname
          exact .inr (List.mem_append_right _ hrest)

theorem Tracks.serves {todo : List (String × NodeId)} (ht : t ≠ .undefined)
    (hserves : Serves t todo s s') (hs : Tracks h todo t s) : Tracks h [] t s' := by
  induction hserves with
  | done s => exact hs
  | compared hknown _ ih => exact ih (hs.compared hknown)
  | learned hknown _ ih => exact ih (hs.learned ht hknown)

/-! ### Taking in a mention keeps the invariant -/

theorem Tracks.congr {todo : List (String × NodeId)} (hs : Tracks h todo t s)
    (hentries : ∀ n, (s'.map.get? n).isSome ↔ (s.map.get? n).isSome)
    (hknown : ∀ n, s'.known? n = s.known? n)
    (hwaiting : ∀ n, s'.waitingOn n = s.waitingOn n) : Tracks h todo t s' := by
  have hvalue := valueType_congr hknown
  constructor
  · simpa only [hentries] using hs.mentioned
  · simpa only [hentries] using hs.entered
  · simpa only [hknown] using hs.traced
  · simpa only [hknown, hwaiting] using hs.waits
  · simpa only [hwaiting] using hs.waiting
  · simpa only [hvalue] using hs.offered
  · simpa only [hvalue, hknown] using hs.settled

theorem valueType_of_found {a : Application} (hfound : s.resolve a.mention.declared = a.found) :
    a.valueType s.map = a.found := by
  unfold Application.valueType
  cases hdeclared : a.mention.declared with
  | known u => simpa [hdeclared, resolve] using hfound
  | sameAs source => simpa [hdeclared, resolve] using hfound
  | elementOf array => rfl

/-- A mention of a value with a known type leaves a request to be served. -/
theorem Tracks.request {a : Application} (hfound : s.resolve a.mention.declared = a.found)
    (hne : a.found ≠ .undefined) (hs : Tracks h [] t s) :
    Tracks (h ++ [a]) [a.request] a.found s where
  mentioned n hn := by
    obtain ⟨b, hb, hname⟩ := hs.mentioned n hn
    exact ⟨b, List.mem_append_left _ hb, hname⟩
  entered b hb := by
    rcases List.mem_append.mp hb with hb | hb
    · exact .inl ((hs.entered b hb).resolve_right List.not_mem_nil)
    · obtain rfl := List.mem_singleton.mp hb
      exact .inr List.mem_cons_self
  traced n u hu := (hs.traced n u hu).mono (List.subset_append_left _ _)
  waits b hb source hdeclared hsource := by
    rcases List.mem_append.mp hb with hb | hb
    · exact hs.waits b hb source hdeclared hsource
    · obtain rfl := List.mem_singleton.mp hb
      rw [hdeclared] at hfound
      exact absurd (hfound.symm.trans (resolve_sameAs_eq_undefined_iff.mpr hsource)) hne
  waiting source d hd := by
    obtain ⟨b, hb, hrequest⟩ := hs.waiting source d hd
    exact ⟨b, List.mem_append_left _ hb, hrequest⟩
  offered d hd := by
    obtain rfl := List.mem_singleton.mp hd
    exact ⟨a, by simp, rfl, valueType_of_found hfound⟩
  settled b hb hvalue := by
    rcases List.mem_append.mp hb with hb | hb
    · exact .inl ((hs.settled b hb hvalue).resolve_right List.not_mem_nil)
    · obtain rfl := List.mem_singleton.mp hb
      exact .inr List.mem_cons_self

/-- A mention of a value of unknown type is entered, with its variable waiting if it can. -/
theorem Tracks.enter {a : Application} {w : Inference} (hs : Tracks h [] t s)
    (hfound : s.resolve a.mention.declared = a.found) (hundefined : a.found = .undefined)
    (hmap : w.map = s.map) (hkept : ∀ source, s.waitingOn source ⊆ w.waitingOn source)
    (hwaits : ∀ source, a.mention.declared = .sameAs source → a.request ∈ w.waitingOn source)
    (hnew : ∀ source, ∀ d ∈ w.waitingOn source,
      d ∈ s.waitingOn source ∨ a.request = d ∧ a.mention.declared = .sameAs source) :
    Tracks (h ++ [a]) [] t (w.enter a.node a.mention.name) := by
  have hknown (n : String) : (w.enter a.node a.mention.name).known? n = s.known? n := by
    rw [known?_enter, known?, hmap, known?]
  refine ⟨?_, ?_, ?_, ?_, ?_, by simp, ?_⟩
  · intro n hn
    rw [isSome_get?_enter, hmap] at hn
    rcases hn with rfl | hn
    · exact ⟨a, by simp, rfl⟩
    · obtain ⟨b, hb, hname⟩ := hs.mentioned n hn
      exact ⟨b, List.mem_append_left _ hb, hname⟩
  · intro b hb
    rw [isSome_get?_enter, hmap]
    rcases List.mem_append.mp hb with hb | hb
    · exact .inl (.inr ((hs.entered b hb).resolve_right List.not_mem_nil))
    · obtain rfl := List.mem_singleton.mp hb
      exact .inl (.inl rfl)
  · intro n u hu
    rw [hknown] at hu
    exact (hs.traced n u hu).mono (List.subset_append_left _ _)
  · intro b hb source hdeclared hsource
    rw [hknown] at hsource
    rw [waitingOn_enter]
    rcases List.mem_append.mp hb with hb | hb
    · exact hkept source (hs.waits b hb source hdeclared hsource)
    · obtain rfl := List.mem_singleton.mp hb
      exact hwaits source hdeclared
  · intro source d hd
    rw [waitingOn_enter] at hd
    rcases hnew source d hd with hd | ⟨hrequest, hdeclared⟩
    · obtain ⟨b, hb, hrequest⟩ := hs.waiting source d hd
      exact ⟨b, List.mem_append_left _ hb, hrequest⟩
    · exact ⟨a, by simp, hrequest, hdeclared⟩
  · intro b hb hne
    rw [valueType_congr hknown] at hne
    rw [hknown]
    rcases List.mem_append.mp hb with hb | hb
    · exact hs.settled b hb hne
    · obtain rfl := List.mem_singleton.mp hb
      exact absurd ((valueType_of_found hfound).trans hundefined) hne

/-- The type that requests are for does not matter where there are none. -/
theorem Tracks.idle {u : DataType} (hs : Tracks h [] t s) : Tracks h [] u s :=
  { hs with offered := by simp }

theorem Tracks.apply (hs : Tracks h [] t s) (node : NodeId) (m : Mention) :
    Tracks (h ++ [⟨node, m, s.resolve m.declared⟩]) [] t (s.apply node m) := by
  obtain ⟨s', isNew, happly, hcases⟩ := s.apply_cases node m
  have hmain : Tracks (h ++ [⟨node, m, s.resolve m.declared⟩]) [] t s' := by
    rcases hcases with ⟨source, hdeclared, hundefined, -, rfl⟩ | ⟨hother, hundefined, rfl⟩ |
      ⟨hne, hserves⟩
    · refine hs.enter (w := s.await source m.name node) rfl hundefined rfl ?_ ?_ ?_
      · intro x d hd
        rw [waitingOn_await]
        split
        next heq => exact List.mem_append_left _ (heq ▸ hd)
        next => exact hd
      · intro x hx
        obtain rfl : source = x := DeclaredType.sameAs.inj (hdeclared.symm.trans hx)
        simp [Application.request]
      · intro x d hd
        rw [waitingOn_await] at hd
        split at hd
        next heq =>
            subst heq
            rcases List.mem_append.mp hd with hd | hd
            · exact .inl hd
            · exact .inr ⟨(List.mem_singleton.mp hd).symm, hdeclared⟩
        next => exact .inl hd
    · exact hs.enter (w := s) rfl hundefined rfl (fun _ => List.Subset.refl _)
        (fun x hx => absurd hx (hother x)) (fun _ _ hd => .inl hd)
    · exact ((hs.request rfl hne).serves hne hserves).idle
  rw [happly]
  exact hmain.congr (by simp) (by simp) (by simp)

/-! ### Whole runs -/

def history (probe : Probe) (mentions? : String → Option MentionTyping) (ds : Diagnostics) :
    List Application :=
  ({ diagnostics := ds } : Inference).applications (mentions probe mentions?)

def reported (probe : Probe) (mentions? : String → Option MentionTyping) : List Mention :=
  (mentions probe mentions?).map Prod.snd

theorem map_applications (s : Inference) (l : List (NodeId × Mention)) :
    (s.applications l).map (fun a => (a.node, a.mention)) = l := by
  induction l generalizing s with
  | nil => rfl
  | cons m rest ih => rw [applications, List.map_cons, ih]

/-- Where nothing is left to be served, a variable that is traced to a type has one. The proof goes
along the chain from its end: what is known about the value reaches the variable. -/
theorem Tracks.isSome_of_traced (hs : Tracks h [] t s) {n : String} {u : DataType}
    (htraced : Traced h n u) : (s.known? n).isSome := by
  obtain ⟨v, hchain, hne, a, ha, rfl, hground⟩ := htraced
  induction hchain using Relation.ReflTransGen.head_induction_on with
  | refl =>
      have hvalue : a.valueType s.map = u := by
        unfold Application.valueType
        rcases hground with hdeclared | ⟨array, hdeclared, hfound⟩
        · rw [hdeclared]
        · rw [hdeclared, hfound]
      exact (hs.settled a ha (hvalue ▸ hne)).resolve_right List.not_mem_nil
  | head hcopy _ ih =>
      obtain ⟨b, hb, rfl, hdeclared⟩ := hcopy
      have hvalue : b.valueType s.map ≠ .undefined := by
        unfold Application.valueType
        rw [hdeclared]
        exact get_ne_undefined_iff.mpr ih
      exact (hs.settled b hb hvalue).resolve_right List.not_mem_nil

theorem Tracks.get_ne_undefined_iff_traced (hs : Tracks h [] t s) {n : String} :
    s.map.get n ≠ .undefined ↔ ∃ u, Traced h n u := by
  rw [get_ne_undefined_iff]
  constructor
  · intro hsome
    obtain ⟨u, hu⟩ := Option.isSome_iff_exists.mp hsome
    exact ⟨u, hs.traced n u hu⟩
  · rintro ⟨u, hu⟩
    exact hs.isSome_of_traced hu

theorem Tracks.traced_get (hs : Tracks h [] t s) {n : String} (hn : s.map.get n ≠ .undefined) :
    Traced h n (s.map.get n) :=
  hs.traced n _ (known?_of_get rfl hn)

theorem Tracks.isSome_get?_iff (hs : Tracks h [] t s) {n : String} :
    (s.map.get? n).isSome ↔ ∃ a ∈ h, a.mention.name = n := by
  constructor
  · exact hs.mentioned n
  · rintro ⟨a, ha, rfl⟩
    exact (hs.entered a ha).resolve_right List.not_mem_nil

end Inference

theorem TypeMap.get?_eq_undefined_iff {types : TypeMap} {n : String} :
    types.get? n = some .undefined ↔ (types.get? n).isSome ∧ types.get n = .undefined := by
  rw [TypeMap.get]
  cases types.get? n <;> simp

namespace Inference

section

variable {probe probe' : Probe} {mentions? : String → Option MentionTyping} {ds : Diagnostics}

theorem mem_reported_iff (ds : Diagnostics) {m : Mention} :
    m ∈ reported probe mentions? ↔ ∃ a ∈ history probe mentions? ds, a.mention = m := by
  have hmap := map_applications { diagnostics := ds } (mentions probe mentions?)
  rw [reported, ← hmap, List.map_map, List.mem_map]
  rfl

theorem tracks_start (ds : Diagnostics) : Tracks [] [] t { diagnostics := ds } := by
  constructor <;> simp [known?, TypeMap.get?, TypeMap.empty, waitingOn]

theorem tracks_run :
    Tracks (history probe mentions? ds) [] .undefined (run probe mentions? ds) :=
  foldl_apply_induction (I := fun h s => Tracks h [] .undefined s)
    (fun _ _ node m hs => hs.apply node m) (mentions probe mentions?) (tracks_start ds)

theorem isSome_get?_run_iff {n : String} :
    ((run probe mentions? ds).map.get? n).isSome ↔
      ∃ m ∈ reported probe mentions?, m.name = n := by
  rw [tracks_run.isSome_get?_iff]
  constructor
  · rintro ⟨a, ha, hname⟩
    exact ⟨a.mention, (mem_reported_iff ds).mpr ⟨a, ha, rfl⟩, hname⟩
  · rintro ⟨m, hm, hname⟩
    obtain ⟨a, ha, rfl⟩ := (mem_reported_iff ds).mp hm
    exact ⟨a, ha, hname⟩

theorem get?_run_eq_undefined_iff {n : String} :
    (run probe mentions? ds).map.get? n = some .undefined ↔
      (∃ m ∈ reported probe mentions?, m.name = n) ∧
        ¬∃ t, Traced (history probe mentions? ds) n t := by
  rw [TypeMap.get?_eq_undefined_iff, isSome_get?_run_iff, ← tracks_run.get_ne_undefined_iff_traced,
    Classical.not_not]

/-- A program that mentions at least what another one does, and no elements of arrays there, has
the same chains. -/
theorem traced_of_reported_subset
    (hsub : ∀ m ∈ reported probe mentions?, m ∈ reported probe' mentions?)
    (hplain : ∀ m ∈ reported probe mentions?, ∀ array, m.declared ≠ .elementOf array)
    {n : String} (ht : Traced (history probe mentions? ds) n t) :
    Traced (history probe' mentions? ds) n t := by
  refine ht.transfer fun a ha => ?_
  have hmem : a.mention ∈ reported probe mentions? := (mem_reported_iff ds).mpr ⟨a, ha, rfl⟩
  obtain ⟨b, hb, hmention⟩ := (mem_reported_iff ds).mp (hsub _ hmem)
  exact ⟨b, hb, hmention, fun array hdeclared => absurd hdeclared (hplain _ hmem array)⟩

end

/-- Types travel along chains of variables. The variables with an entry are those that are
mentioned. One of them has a type exactly if a chain leads from it to a variable that is given a
value of a known type, and its type is that of such a value. So, where no elements of arrays are
involved, the order of the statements does not matter for which variables stay without a type. -/
theorem propagation_converges (r : Registry) (p : Program) (ds : Diagnostics) :
    let types := (run (r.probe p) r.mentions? ds).map
    let h := history (r.probe p) r.mentions? ds
    (∀ n, (types.get? n).isSome ↔ ∃ m ∈ reported (r.probe p) r.mentions?, m.name = n) ∧
      (∀ n, types.get n ≠ .undefined ↔
        ∃ v t, Relation.ReflTransGen (Copies h) n v ∧ Grounds h v t) ∧
      (∀ n, types.get n ≠ .undefined →
        ∃ v, Relation.ReflTransGen (Copies h) n v ∧ Grounds h v (types.get n)) ∧
      ∀ q : Program,
        (∀ m, m ∈ reported (r.probe q) r.mentions? ↔ m ∈ reported (r.probe p) r.mentions?) →
        (∀ m ∈ reported (r.probe p) r.mentions?, ∀ array, m.declared ≠ .elementOf array) →
        ∀ n, types.get? n = some .undefined ↔
          (run (r.probe q) r.mentions? ds).map.get? n = some .undefined := by
  intro types h
  have hrun : Tracks h [] .undefined (run (r.probe p) r.mentions? ds) := tracks_run
  refine ⟨fun n => isSome_get?_run_iff, fun n => ?_, fun n hn => hrun.traced_get hn, ?_⟩
  · rw [hrun.get_ne_undefined_iff_traced, exists_comm]
    rfl
  · intro q hsame hplain n
    have hplain' : ∀ m ∈ reported (r.probe q) r.mentions?, ∀ array, m.declared ≠ .elementOf array :=
      fun m hm => hplain m ((hsame m).mp hm)
    rw [get?_run_eq_undefined_iff, get?_run_eq_undefined_iff]
    refine and_congr ?_ (not_congr ?_)
    · simp only [hsame]
    · exact ⟨fun ⟨t, ht⟩ => ⟨t, traced_of_reported_subset (fun m => (hsame m).mpr) hplain ht⟩,
        fun ⟨t, ht⟩ => ⟨t, traced_of_reported_subset (fun m => (hsame m).mp) hplain' ht⟩⟩

def assignmentNode (id : NodeId) (name : String) (value : NodeId) (next : Option NodeId) : Node :=
  { id, kind := "variables_set", fields := .ofList [("VAR", name)],
    values := [{ name := "VALUE", child := some value }], next }

def readingNode (id : NodeId) (name : String) : Node :=
  { id, kind := "variables_get", fields := .ofList [("VAR", name)] }

/-- The assignments `z = y`, `y = x`, `w = u` and `x = 5`, each linked to the next one as given. -/
def copySample (head : NodeId) (links : NodeId → Option NodeId) : Program where
  nodes :=
    [assignmentNode ⟨1⟩ "z" ⟨5⟩ (links ⟨1⟩), assignmentNode ⟨2⟩ "y" ⟨6⟩ (links ⟨2⟩),
      assignmentNode ⟨3⟩ "w" ⟨7⟩ (links ⟨3⟩), assignmentNode ⟨4⟩ "x" ⟨8⟩ (links ⟨4⟩),
      readingNode ⟨5⟩ "y", readingNode ⟨6⟩ "x", readingNode ⟨7⟩ "u",
      { id := ⟨8⟩, kind := "math_number", fields := .ofList [("NUM", "5")] }]
  topLevel := [head]

/-- The assignments in the order in which they stand, so that every variable is used before it is
given a value. -/
def copiesForward : Program := copySample ⟨1⟩ (fun id => if id = ⟨4⟩ then none else some id.succ)

def copiesBackward : Program :=
  copySample ⟨4⟩ (fun id => if id = ⟨1⟩ then none else some ⟨id.number - 1⟩)

theorem copies_undefined_in_any_order :
    let r := Registry.standard
    reported (r.probe copiesForward) r.mentions? =
        [⟨"z", .sameAs "y", none⟩, ⟨"y", .sameAs "x", none⟩, ⟨"w", .sameAs "u", none⟩,
          ⟨"x", .known .number, none⟩] ∧
      reported (r.probe copiesBackward) r.mentions? =
        (reported (r.probe copiesForward) r.mentions?).reverse ∧
      ∀ n, (run (r.probe copiesForward) r.mentions? .empty).map.get? n = some .undefined ↔
        (run (r.probe copiesBackward) r.mentions? .empty).map.get? n = some .undefined := by
  intro r
  have hforward : reported (r.probe copiesForward) r.mentions? =
      [⟨"z", .sameAs "y", none⟩, ⟨"y", .sameAs "x", none⟩, ⟨"w", .sameAs "u", none⟩,
        ⟨"x", .known .number, none⟩] := by
    rw [Registry.probe, Registry.typing?_standard, Registry.mentions?_standard]
    decide
  have hbackward : reported (r.probe copiesBackward) r.mentions? =
      (reported (r.probe copiesForward) r.mentions?).reverse := by
    rw [hforward, Registry.probe, Registry.typing?_standard, Registry.mentions?_standard]
    decide
  refine ⟨hforward, hbackward, ?_⟩
  refine (propagation_converges r copiesForward .empty).2.2.2 copiesBackward ?_ ?_
  · simp [hbackward]
  · simp [hforward]

end Inference

end BlockSketch
