import BlockSketch.Proofs.Inference.Propagation
import BlockSketch.Proofs.Program.ExecutionOrder
import BlockSketch.Proofs.Program.Validation

/-!
Which assignments get a warning. A node that mentions a variable once ends up with a warning exactly
if the type of the variable and the type of the value clash, as both stand at the end. The verdict
may be reached when the mention is taken in, or later, when the variable it waits for gets a type;
in between it is always the verdict for the types known so far.
-/

namespace BlockSketch.Inference

variable {h : List Application} {s s' : Inference} {t : DataType} {node : NodeId} {name : String}

/-! ### Clashing types -/

theorem clashes_iff {old new : DataType} :
    clashes old new = true ↔
      old.isPlaceholder = false ∧ new.isPlaceholder = false ∧ old ≠ new ∧ new ∉ old.accepted := by
  simp only [clashes, DataType.accepts, Bool.and_eq_true, Bool.not_eq_true', decide_eq_true_eq,
    List.contains_eq_mem, decide_eq_false_iff_not]
  tauto

@[simp] theorem clashes_undefined_left (new : DataType) : clashes .undefined new = false := by
  simp [clashes, DataType.isPlaceholder]

@[simp] theorem clashes_undefined_right (old : DataType) : clashes old .undefined = false := by
  simp [clashes, DataType.isPlaceholder]

@[simp] theorem clashes_self (t : DataType) : clashes t t = false := by
  simp [clashes]

/-! ### Warnings of a state -/

def HasMismatch (s : Inference) (d : String × NodeId) : Prop :=
  ∃ w, s.diagnostics.get? d.2 (slot d.1) = some w ∧ w.severity = .warning ∧
    w.code = some Diagnostic.typeMismatch

theorem slot_inj {a b : String} : slot a = slot b ↔ a = b := by
  rw [slot, slot, String.append_right_inj]

theorem eq_slot_iff {d : String × NodeId} :
    d.2 = node ∧ slot d.1 = slot name ↔ d = (name, node) := by
  rw [slot_inj, Prod.ext_iff, and_comm]

@[simp] theorem hasMismatch_learn {d : String × NodeId} :
    (s.learn node name t).HasMismatch d ↔ d ≠ (name, node) ∧ s.HasMismatch d := by
  simp only [HasMismatch, learn, Diagnostics.get?_clear, eq_slot_iff]
  by_cases hd : d = (name, node) <;> simp [hd]

theorem hasMismatch_compareTypes {d : String × NodeId} {old new : DataType} :
    (s.compareTypes node name old new).HasMismatch d ↔
      if d = (name, node) then clashes old new = true else s.HasMismatch d := by
  simp only [HasMismatch, compareTypes]
  by_cases hclash : clashes old new = true
  · rw [if_pos hclash]
    simp only [Diagnostics.get?_set, eq_slot_iff]
    by_cases hd : d = (name, node)
    · simp [hd, hclash, mismatch, Diagnostic.withHint, Diagnostic.warning]
    · simp [hd]
  · rw [if_neg hclash]
    simp only [Diagnostics.get?_clear, eq_slot_iff]
    by_cases hd : d = (name, node) <;> simp [hd, hclash]

@[simp] theorem hasMismatch_enter {d : String × NodeId} :
    (s.enter node name).HasMismatch d ↔ d ≠ (name, node) ∧ s.HasMismatch d := by
  rw [enter]
  cases s.known? name with
  | none => exact hasMismatch_learn
  | some old =>
      simp only [hasMismatch_compareTypes, clashes_undefined_right]
      by_cases hd : d = (name, node) <;> simp [hd]

@[simp] theorem hasMismatch_learnElement {m : Mention} {isNew : Bool} {d : String × NodeId} :
    (s.learnElement m isNew).HasMismatch d ↔ s.HasMismatch d := by
  rw [HasMismatch, diagnostics_learnElement, HasMismatch]

/-! ### The verdict on a mention -/

def Alone (h : List Application) (a : Application) : Prop :=
  ∀ b ∈ h, b.request = a.request → b = a

/-- There is a warning for a mention exactly if its variable and its value clash, under the types of
a state. -/
def Judged (s : Inference) (a : Application) : Prop :=
  s.HasMismatch a.request ↔ clashes (s.map.get a.mention.name) (a.valueType s.map) = true

/-- Every mention that has its slot for itself is judged, unless it is still to be served. -/
def Judges (h : List Application) (todo : List (String × NodeId)) (s : Inference) : Prop :=
  ∀ a ∈ h, Alone h a → a.request ∉ todo → s.Judged a

theorem Judges.compared {old : DataType} {rest : List (String × NodeId)}
    (hs : Tracks h ((name, node) :: rest) t s) (hknown : s.known? name = some old)
    (hj : Judges h ((name, node) :: rest) s) :
    Judges h rest (s.compareTypes node name old t) := by
  intro a ha halone hrest
  rw [Judged, hasMismatch_compareTypes, map_compareTypes]
  split
  next heq =>
      obtain ⟨b, hb, hrequest, hvalue⟩ := hs.offered (name, node) List.mem_cons_self
      obtain rfl := halone b hb (hrequest.trans heq.symm)
      obtain rfl : b.mention.name = name := congrArg Prod.fst heq
      rw [hvalue, get_of_known? hknown]
  next hne =>
      exact hj a ha halone (List.not_mem_cons_of_ne_of_not_mem hne hrest)

theorem Judges.learned {rest : List (String × NodeId)} (ht : t ≠ .undefined)
    (hs : Tracks h ((name, node) :: rest) t s) (hknown : s.known? name = none)
    (hj : Judges h ((name, node) :: rest) s) :
    Judges h (s.waitingOn name ++ rest) ((s.learn node name t).release name) := by
  intro a ha halone hmem
  have hwaiting : a.request ∉ s.waitingOn name := fun h => hmem (List.mem_append_left _ h)
  have hrest : a.request ∉ rest := fun h => hmem (List.mem_append_right _ h)
  have hdeclared : a.mention.declared ≠ .sameAs name :=
    fun hdeclared => hwaiting (hs.waits a ha name hdeclared hknown)
  have hvalue : a.valueType (s.learn node name t).map = a.valueType s.map := by
    rw [valueType_learn ht, if_neg hdeclared]
  have hget : (s.learn node name t).map.get a.mention.name =
      if a.mention.name = name then t else s.map.get a.mention.name := by
    rw [get_eq, get_eq, known?_learn, if_neg ht]
    split <;> rfl
  change (s.learn node name t).HasMismatch a.request ↔ _
  rw [hasMismatch_learn, map_release, hvalue, hget]
  by_cases heq : a.request = (name, node)
  · -- the variable learns its type from this very mention
    obtain ⟨b, hb, hrequest, hoffer⟩ := hs.offered (name, node) List.mem_cons_self
    obtain rfl := halone b hb (hrequest.trans heq.symm)
    have hname : b.mention.name = name := congrArg Prod.fst heq
    simp [heq, hname, hoffer]
  · have hnot : a.request ∉ (name, node) :: rest := List.not_mem_cons_of_ne_of_not_mem heq hrest
    have hbefore : s.HasMismatch a.request ↔ _ := hj a ha halone hnot
    simp only [heq, ne_eq, not_false_iff, true_and, hbefore]
    by_cases hname : a.mention.name = name
    · -- a mention that does not wait and is not served says nothing about the type
      have hunknown : a.valueType s.map = .undefined := by
        by_contra hne
        rcases hs.settled a ha hne with hsome | hmem
        · rw [hname, hknown] at hsome
          cases hsome
        · exact hnot hmem
      simp [hname, hunknown]
    · rw [if_neg hname]

theorem Judges.serves {todo : List (String × NodeId)} (ht : t ≠ .undefined)
    (hserves : Serves t todo s s') (hs : Tracks h todo t s) (hj : Judges h todo s) :
    Judges h [] s' := by
  induction hserves with
  | done s => exact hj
  | compared hknown _ ih => exact ih (hs.compared hknown) (hj.compared hs hknown)
  | learned hknown _ ih => exact ih (hs.learned ht hknown) (hj.learned ht hs hknown)

theorem Alone.of_append {l : List Application} {a : Application} (halone : Alone (h ++ l) a) :
    Alone h a :=
  fun b hb => halone b (List.mem_append_left l hb)

theorem Judges.request {a : Application} (hj : Judges h [] s) :
    Judges (h ++ [a]) [a.request] s := by
  intro b hb halone hmem
  rcases List.mem_append.mp hb with hb | hb
  · exact hj b hb halone.of_append List.not_mem_nil
  · obtain rfl := List.mem_singleton.mp hb
    exact absurd List.mem_cons_self hmem

theorem Judges.enter {a : Application} {w : Inference} (hj : Judges h [] s)
    (hfound : s.resolve a.mention.declared = a.found) (hundefined : a.found = .undefined)
    (hmap : w.map = s.map) (hdiagnostics : w.diagnostics = s.diagnostics) :
    Judges (h ++ [a]) [] (w.enter a.node a.mention.name) := by
  have hknown (n : String) : (w.enter a.node a.mention.name).known? n = s.known? n := by
    rw [known?_enter, known?, hmap, known?]
  have hwarn (d : String × NodeId) : w.HasMismatch d ↔ s.HasMismatch d := by
    rw [HasMismatch, hdiagnostics, HasMismatch]
  intro b hb halone _
  rw [Judged, hasMismatch_enter, hwarn, get_eq, hknown, ← get_eq, valueType_congr hknown]
  by_cases heq : b.request = a.request
  · obtain rfl := halone a (by simp) heq.symm
    have hunknown : a.valueType s.map = .undefined := (valueType_of_found hfound).trans hundefined
    simp [Application.request, hunknown]
  · rcases List.mem_append.mp hb with hb | hb
    · have hbefore : s.HasMismatch b.request ↔ _ := hj b hb halone.of_append List.not_mem_nil
      rw [hbefore]
      exact and_iff_right heq
    · exact absurd (congrArg Application.request (List.mem_singleton.mp hb)) heq

theorem Judges.apply (hs : Tracks h [] t s) (hj : Judges h [] s) (node : NodeId) (m : Mention) :
    Judges (h ++ [⟨node, m, s.resolve m.declared⟩]) [] (s.apply node m) := by
  obtain ⟨s', isNew, happly, hcases⟩ := s.apply_cases node m
  have hmain : Judges (h ++ [⟨node, m, s.resolve m.declared⟩]) [] s' := by
    rcases hcases with ⟨source, -, hundefined, -, rfl⟩ | ⟨-, hundefined, rfl⟩ | ⟨hne, hserves⟩
    · exact hj.enter (w := s.await source m.name node) rfl hundefined rfl rfl
    · exact hj.enter (w := s) rfl hundefined rfl rfl
    · exact hj.request.serves hne hserves (hs.request rfl hne)
  rw [happly]
  intro a ha halone hmem
  have hknown := s'.known?_learnElement m isNew
  rw [Judged, hasMismatch_learnElement, get_eq, hknown, ← get_eq, valueType_congr hknown]
  exact hmain a ha halone hmem

theorem judges_run (probe : Probe) (mentions? : String → Option MentionTyping) (ds : Diagnostics) :
    Judges (history probe mentions? ds) [] (run probe mentions? ds) := by
  have hstart : Tracks [] [] .undefined ({ diagnostics := ds } : Inference) ∧
      Judges [] [] ({ diagnostics := ds } : Inference) :=
    ⟨tracks_start ds, fun a ha => nomatch ha⟩
  exact (foldl_apply_induction (I := fun h s => Tracks h [] .undefined s ∧ Judges h [] s)
    (fun h s node m ⟨hs, hj⟩ => ⟨hs.apply node m, hj.apply hs node m⟩)
    (mentions probe mentions?) hstart).2

/-! ### Mentions of one node -/

/-- Where no node comes twice, the entries that come from one node are those that it gives. -/
theorem filter_flatMap_node {nodes : List Node} (hnodup : (Program.ids nodes).Nodup) {n : Node}
    (hn : n ∈ nodes) (f : Node → List Mention) (q : Mention → Bool) :
    (nodes.flatMap fun n => (f n).map fun m => (n.id, m)).filter
        (fun x => x.1 = n.id && q x.2) =
      ((f n).filter q).map fun m => (n.id, m) := by
  induction nodes with
  | nil => cases hn
  | cons k rest ih =>
      obtain ⟨hhead, hrest⟩ := List.nodup_cons.mp hnodup
      rw [List.flatMap_cons, List.filter_append, List.filter_map]
      rcases List.mem_cons.mp hn with rfl | hn
      · have hothers : (rest.flatMap fun n => (f n).map fun m => (n.id, m)).filter
            (fun x => x.1 = n.id && q x.2) = [] := by
          rw [List.filter_eq_nil_iff]
          intro x hx
          obtain ⟨k, hk, hx⟩ := List.mem_flatMap.mp hx
          obtain ⟨m, -, rfl⟩ := List.mem_map.mp hx
          have hne : k.id ≠ n.id := fun heq => hhead (Program.mem_ids.mpr ⟨k, hk, heq⟩)
          simp [hne]
        rw [hothers, List.append_nil]
        simp [Function.comp_def]
      · have hne : k.id ≠ n.id := fun heq => hhead (Program.mem_ids.mpr ⟨n, hn, heq.symm⟩)
        simp [Function.comp_def, hne, ih hrest hn]

/-- A statement that mentions a variable once is taken in with it once. -/
theorem exists_filter_history (probe : Probe) {mentions? : String → Option MentionTyping}
    (ds : Diagnostics) (hnodup : (Program.ids probe.program.executionOrder).Nodup) {n : Node}
    (hn : n ∈ probe.program.executionOrder) {typing : MentionTyping}
    (htyping : mentions? n.kind = some typing) {m : Mention}
    (honce : (typing probe n).filter (fun m' => m'.name = m.name) = [m]) :
    ∃ a, (history probe mentions? ds).filter
        (fun a => a.node = n.id && a.mention.name = m.name) = [a] ∧ a.node = n.id ∧
      a.mention = m := by
  have hmentions : mentions probe mentions? = probe.program.executionOrder.flatMap fun n =>
      (((mentions? n.kind).map (fun typing => typing probe n)).getD []).map fun m => (n.id, m) := by
    unfold mentions
    congr 1
    funext k
    cases mentions? k.kind <;> rfl
  have hfilter := filter_flatMap_node hnodup hn
    (fun n => ((mentions? n.kind).map (fun typing => typing probe n)).getD [])
    (fun m' => m'.name = m.name)
  rw [← hmentions, htyping, Option.map_some, Option.getD_some, honce] at hfilter
  rw [← map_applications { diagnostics := ds } (mentions probe mentions?),
    List.filter_map] at hfilter
  obtain ⟨a, hfiltered, ha⟩ := List.map_eq_singleton_iff.mp hfilter
  exact ⟨a, hfiltered, congrArg Prod.fst ha, congrArg Prod.snd ha⟩

/-- A statement of a validated program that mentions a variable once has a warning about its type
exactly if the final type of the variable and the type of the value are both known, differ, and the
variable does not take values of that type. -/
theorem mismatch_reported_iff (r : Registry) {p : Program} {places : ParentIndex}
    (hvalid : p.validate = .ok places) {n : Node} (hn : n ∈ p.executionOrder)
    {typing : MentionTyping} (htyping : r.mentions? n.kind = some typing) {m : Mention}
    (honce : (typing (r.probe p) n).filter (fun m' => m'.name = m.name) = [m]) :
    ∃ a, (history (r.probe p) r.mentions? .empty).filter
        (fun a => a.node = n.id && a.mention.name = m.name) = [a] ∧ a.mention = m ∧
      let final := (r.inferTypes p).map.get m.name
      let given := a.valueType (r.inferTypes p).map
      ((∃ w, (r.inferTypes p).diagnostics.get? n.id ("var-type:" ++ m.name) = some w ∧
          w.severity = .warning ∧ w.code = some "W0201") ↔
        final.isPlaceholder = false ∧ given.isPlaceholder = false ∧ final ≠ given ∧
          given ∉ final.accepted) := by
  obtain ⟨hp, -⟩ := Program.validate_eq_ok_iff_isForest.mp hvalid
  obtain ⟨a, hfilter, hnode, rfl⟩ := exists_filter_history (r.probe p) .empty
    hp.nodup_executionOrder hn htyping honce
  refine ⟨a, hfilter, rfl, ?_⟩
  have hmem (b : Application) : b ∈ history (r.probe p) r.mentions? .empty ∧
      b.request = a.request ↔ b = a := by
    have hlist : b ∈ (history (r.probe p) r.mentions? .empty).filter
        (fun b => b.node = n.id && b.mention.name = a.mention.name) ↔ b = a := by
      rw [hfilter, List.mem_singleton]
    rw [← hlist, List.mem_filter, ← hnode]
    simp [Application.request, and_comm]
  have ha : a ∈ history (r.probe p) r.mentions? .empty := ((hmem a).mpr rfl).1
  have halone : Alone (history (r.probe p) r.mentions? .empty) a :=
    fun b hb hrequest => (hmem b).mp ⟨hb, hrequest⟩
  have hjudged : Judged (r.inferTypes p) a :=
    judges_run (r.probe p) r.mentions? .empty a ha halone List.not_mem_nil
  rw [Judged, clashes_iff, HasMismatch, Application.request, hnode] at hjudged
  exact hjudged

/-- The assignments `y = "on"`, `y = x` and `x = 5`. The second one has to wait, and clashes with
the first when the third comes. -/
def lateClash : Program where
  nodes :=
    [assignmentNode ⟨1⟩ "y" ⟨4⟩ (some ⟨2⟩), assignmentNode ⟨2⟩ "y" ⟨5⟩ (some ⟨3⟩),
      assignmentNode ⟨3⟩ "x" ⟨6⟩ none,
      { id := ⟨4⟩, kind := "text", fields := .ofList [("TEXT", "on")] }, readingNode ⟨5⟩ "x",
      { id := ⟨6⟩, kind := "math_number", fields := .ofList [("NUM", "5")] }]
  topLevel := [⟨1⟩]

theorem lateClash_reported_iff :
    let r := Registry.standard
    let n := assignmentNode ⟨2⟩ "y" ⟨5⟩ (some ⟨3⟩)
    let m : Mention := ⟨"y", .sameAs "x", none⟩
    (∃ places, lateClash.validate = .ok places) ∧ n ∈ lateClash.executionOrder ∧
      r.mentions? n.kind = some Block.Variables.mentionsValue ∧
      (Block.Variables.mentionsValue (r.probe lateClash) n).filter (fun m' => m'.name = m.name) =
        [m] ∧
      ∃ a, (history (r.probe lateClash) r.mentions? .empty).filter
          (fun a => a.node = n.id && a.mention.name = m.name) = [a] ∧ a.mention = m ∧
        let final := (r.inferTypes lateClash).map.get m.name
        let given := a.valueType (r.inferTypes lateClash).map
        ((∃ w, (r.inferTypes lateClash).diagnostics.get? n.id ("var-type:" ++ m.name) = some w ∧
            w.severity = .warning ∧ w.code = some "W0201") ↔
          final.isPlaceholder = false ∧ given.isPlaceholder = false ∧ final ≠ given ∧
            given ∉ final.accepted) := by
  intro r n m
  have hn : n ∈ lateClash.executionOrder := by decide
  have htyping : r.mentions? n.kind = some Block.Variables.mentionsValue := by
    rw [Registry.mentions?_standard]
    rfl
  have honce : (Block.Variables.mentionsValue (r.probe lateClash) n).filter
      (fun m' => m'.name = m.name) = [m] := by
    rw [Registry.probe, Registry.typing?_standard]
    decide
  exact ⟨⟨_, rfl⟩, hn, htyping, honce,
    mismatch_reported_iff r (p := lateClash) rfl hn htyping honce⟩

end BlockSketch.Inference
