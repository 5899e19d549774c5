import BlockSketch.Proofs.Identifier.Allocation

/-!
The identifiers of users' names over whole runs. A name keeps its identifier, in whatever case it is
written, and names that differ in more than case never share one. What has been handed out for a
name is not handed out again as a new identifier, and the other way round. All of this is read off
what a table remembers: in one namespace, an identifier was chosen by one answer only.
-/

namespace BlockSketch.Identifier

namespace NameTable

variable {past : List Answer} {t : NameTable}

def after (t : NameTable) : List Call → NameTable
  | [] => t
  | c :: rest => (t.answer c).2.after rest

theorem Records.after (h : Records past t) (calls : List Call) :
    Records (past ++ t.answers calls) (t.after calls) := by
  induction calls generalizing past t with
  | nil => simpa [answers, NameTable.after] using h
  | cons c rest ih =>
      have hrest := ih (h.answer c)
      rwa [List.append_assoc, List.singleton_append] at hrest

theorem answers_append (t : NameTable) (calls : List Call) (c : Call) :
    t.answers (calls ++ [c]) = t.answers calls ++ [((t.after calls).answer c).1] := by
  induction calls generalizing t with
  | nil => rfl
  | cons first rest ih => exact congrArg (List.cons (t.answer first).1) (ih _)

theorem after_append (t : NameTable) (calls : List Call) (c : Call) :
    t.after (calls ++ [c]) = ((t.after calls).answer c).2 := by
  induction calls generalizing t with
  | nil => rfl
  | cons first rest ih => exact ih _

theorem isNew_answer_of_key?_eq_none {c : Call} (h : c.key? = none) :
    (t.answer c).1.isNew = true := by
  cases c with
  | fresh name ns => rfl
  | nameOf name ns => cases h

theorem isNew_of_mem_answers {calls : List Call} {a : Answer} (ha : a ∈ t.answers calls)
    (h : a.call.key? = none) : a.isNew = true := by
  induction calls generalizing t with
  | nil => cases ha
  | cons c rest ih =>
      rcases List.mem_cons.mp ha with rfl | ha
      · rw [call_answer] at h
        exact isNew_answer_of_key?_eq_none h
      · exact ih ha

/-- In a namespace, an identifier was chosen by one answer only. -/
theorem Records.chosen_unique (h : Records past t) {a b : Answer} (ha : a ∈ past) (hb : b ∈ past)
    (hnewA : a.isNew = true) (hnewB : b.isNew = true) (hns : a.call.ns = b.call.ns)
    (heq : a.identifier = b.identifier) : a = b :=
  List.inj_on_of_nodup_map (h.distinct a.call.ns)
    (List.mem_filter.mpr ⟨ha, by simp [hnewA]⟩)
    (List.mem_filter.mpr ⟨hb, by simp [hnewB, hns]⟩) heq

theorem Records.exists_chosen (h : Records past t) {a : Answer} {key : String} (ha : a ∈ past)
    (hkey : a.call.key? = some key) :
    ∃ first ∈ past, first.isNew = true ∧ first.call.ns = a.call.ns ∧
      first.call.key? = some key ∧ first.identifier = a.identifier :=
  h.assigned _ _ _ (h.stable a ha key hkey)

/-- Two names in lower case do not share an identifier. -/
theorem Records.lookup_injective (h : Records past t) {ns : Namespace} {key key' x : String}
    (hkey : (t.scope ns).assigned.lookup key = some x)
    (hkey' : (t.scope ns).assigned.lookup key' = some x) : key = key' := by
  obtain ⟨first, hfirst, hnew, hns, hfirstKey, hsame⟩ := h.assigned ns key x hkey
  obtain ⟨other, hother, hnew', hns', hotherKey, hsame'⟩ := h.assigned ns key' x hkey'
  have hone : first = other := h.chosen_unique hfirst hother hnew hnew' (by rw [hns, hns'])
    (by rw [hsame, hsame'])
  rw [hone, hotherKey] at hfirstKey
  exact (Option.some.inj hfirstKey).symm

theorem Records.identifier_eq_iff (h : Records past t) {a b : Answer} {key key' : String}
    (ha : a ∈ past) (hb : b ∈ past) (hns : a.call.ns = b.call.ns) (hkey : a.call.key? = some key)
    (hkey' : b.call.key? = some key') : a.identifier = b.identifier ↔ key = key' := by
  constructor
  · intro heq
    have hlookup := h.stable a ha key hkey
    rw [hns, heq] at hlookup
    exact h.lookup_injective hlookup (h.stable b hb key' hkey')
  · rintro rfl
    have hlookup := h.stable a ha key hkey
    rw [hns, h.stable b hb key hkey'] at hlookup
    exact (Option.some.inj hlookup).symm

theorem Records.identifier_ne_of_fresh (h : Records past t) {a b : Answer} {key : String}
    (ha : a ∈ past) (hb : b ∈ past) (hns : a.call.ns = b.call.ns) (hkey : a.call.key? = some key)
    (hfresh : b.call.key? = none) (hnew : b.isNew = true) : a.identifier ≠ b.identifier := by
  intro heq
  -- the answer that chose the identifier of the name would be the one without a name
  obtain ⟨first, hfirst, hfirstNew, hfirstNs, hfirstKey, hsame⟩ := h.exists_chosen ha hkey
  have hone : first = b := h.chosen_unique hfirst hb hfirstNew hnew (by rw [hfirstNs, hns])
    (by rw [hsame, heq])
  rw [hone, hfresh] at hfirstKey
  cases hfirstKey

end NameTable

/-- Whatever identifiers a table is asked for, in both namespaces and in any order: wherever in the
run two names of users are asked for in a namespace, they get the same identifier exactly if they
are the same in lower case; and what a name gets is never handed out as a new identifier in that
namespace, neither before nor after. -/
theorem user_names_have_identifiers_of_their_own (calls : List Call) :
    let answers := NameTable.empty.answers calls
    answers.map (·.call) = calls ∧
      (∀ a ∈ answers, ∀ b ∈ answers, ∀ ns u v, a.call = .nameOf u ns → b.call = .nameOf v ns →
        (a.identifier = b.identifier ↔ Text.lowercase u = Text.lowercase v)) ∧
      ∀ a ∈ answers, ∀ b ∈ answers, ∀ ns u v, a.call = .nameOf u ns → b.call = .fresh v ns →
        a.identifier ≠ b.identifier := by
  intro answers
  have hrecords : NameTable.Records answers (NameTable.empty.after calls) :=
    NameTable.records_empty.after calls
  refine ⟨NameTable.map_call_answers _ calls, ?_, ?_⟩
  · intro a ha b hb ns u v hu hv
    exact hrecords.identifier_eq_iff ha hb (by rw [hu, hv]; rfl) (by rw [hu]; rfl) (by rw [hv]; rfl)
  · intro a ha b hb ns u v hu hv
    have hfresh : b.call.key? = none := by rw [hv]; rfl
    exact hrecords.identifier_ne_of_fresh ha hb (by rw [hu, hv]; rfl) (by rw [hu]; rfl) hfresh
      (NameTable.isNew_of_mem_answers hb hfresh)

/-- Two names with the same spelling and two cases of a third one, with new identifiers between
them: `a b` is moved aside by a new `a_b`, and `A_B` differs from it in more than case. -/
theorem spellings_in_one_run :
    let answers := NameTable.empty.answers
      [.fresh "a_b" .variable, .nameOf "a b" .variable, .nameOf "A_B" .variable,
        .nameOf "A B" .variable, .fresh "a_b" .variable, .nameOf "a b" .procedure]
    answers.map (·.identifier) = ["a_b", "a_b2", "A_B", "a_b2", "a_b3", "a_b"] ∧
      Text.lowercase "a b" = Text.lowercase "A B" ∧
      Text.lowercase "a b" ≠ Text.lowercase "A_B" ∧
      ("a_b2" : String) ≠ "a_b3" := by
  intro answers
  have hanswers : answers =
      [⟨.fresh "a_b" .variable, "a_b", true⟩, ⟨.nameOf "a b" .variable, "a_b2", true⟩,
        ⟨.nameOf "A_B" .variable, "A_B", true⟩, ⟨.nameOf "A B" .variable, "a_b2", false⟩,
        ⟨.fresh "a_b" .variable, "a_b3", true⟩, ⟨.nameOf "a b" .procedure, "a_b", true⟩] := by
    decide
  obtain ⟨-, hsame, hother⟩ := user_names_have_identifiers_of_their_own
    [.fresh "a_b" .variable, .nameOf "a b" .variable, .nameOf "A_B" .variable,
      .nameOf "A B" .variable, .fresh "a_b" .variable, .nameOf "a b" .procedure]
  have hmem (a : Answer) (h : a ∈ answers) : a ∈ NameTable.empty.answers _ := h
  rw [hanswers] at hmem
  refine ⟨by rw [hanswers]; rfl, ?_, ?_, ?_⟩
  · exact (hsame ⟨.nameOf "a b" .variable, "a_b2", true⟩ (hmem _ (by decide))
      ⟨.nameOf "A B" .variable, "a_b2", false⟩ (hmem _ (by decide)) .variable _ _ rfl rfl).mp rfl
  · intro hcase
    have heq := (hsame ⟨.nameOf "a b" .variable, "a_b2", true⟩ (hmem _ (by decide))
      ⟨.nameOf "A_B" .variable, "A_B", true⟩ (hmem _ (by decide)) .variable _ _ rfl rfl).mpr hcase
    exact absurd heq (by decide)
  · exact hother ⟨.nameOf "a b" .variable, "a_b2", true⟩ (hmem _ (by decide))
      ⟨.fresh "a_b" .variable, "a_b3", true⟩ (hmem _ (by decide)) .variable _ _ rfl rfl

end BlockSketch.Identifier
