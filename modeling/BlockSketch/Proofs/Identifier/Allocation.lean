import BlockSketch.Proofs.Identifier.Words
import Mathlib.Data.List.Nodup
import Mathlib.Data.List.Perm.Subperm
import Mathlib.Data.List.Range

/-!
Identifiers handed out over whole runs. Every identifier that a table answers with is legal and not
reserved. A new one is the first candidate for its name that is free, and there always is one: the
candidates are all different, and only finitely many words are reserved or taken. So no identifier
is handed out for two purposes; one comes again only if it is asked for under the same name.
-/

namespace BlockSketch.Identifier

/-! ### Legal identifiers -/

/-- Whether an identifier may start with a character: a letter of ASCII or an underscore. -/
def startsIdentifier (c : Char) : Bool :=
  ('a' ≤ c && c ≤ 'z') || ('A' ≤ c && c ≤ 'Z') || c == '_'

def IsLegal (s : String) : Prop :=
  ∃ c rest, s.toList = c :: rest ∧ startsIdentifier c = true ∧ ∀ d ∈ rest, isWordChar d = true

instance (s : String) : Decidable (IsLegal s) :=
  match h : s.toList with
  | [] => isFalse fun ⟨_, _, hchars, _⟩ => List.cons_ne_nil _ _ (hchars.symm.trans h)
  | c :: rest =>
      decidable_of_iff (startsIdentifier c = true ∧ rest.all isWordChar = true)
        ⟨fun hlegal => ⟨c, rest, h, hlegal.1, List.all_eq_true.mp hlegal.2⟩,
          fun ⟨_, _, hchars, hstart, hrest⟩ => by
            obtain ⟨rfl, rfl⟩ := List.cons.inj (h.symm.trans hchars)
            exact ⟨hstart, List.all_eq_true.mpr hrest⟩⟩

theorem isWordChar_of_startsIdentifier {c : Char} (h : startsIdentifier c = true) :
    isWordChar c = true := by
  simp only [isWordChar, startsIdentifier, Bool.or_eq_true] at *
  tauto

theorem IsLegal.isWord {s : String} (h : IsLegal s) : isWord s = true := by
  obtain ⟨c, rest, hchars, hstart, hrest⟩ := h
  rw [isWord_iff, hchars]
  exact ⟨List.cons_ne_nil _ _,
    List.forall_mem_cons.mpr ⟨isWordChar_of_startsIdentifier hstart, hrest⟩⟩

theorem isDigit_of_startsIdentifier {c : Char} (h : startsIdentifier c = true) :
    Text.isDigit c = false := by
  rw [Bool.eq_false_iff]
  intro hdigit
  simp only [startsIdentifier, Text.isDigit, Bool.or_eq_true, Bool.and_eq_true, beq_iff_eq,
    decide_eq_true_eq, Char.le_def, UInt32.le_iff_toNat_le] at h hdigit
  rcases h with (h | h) | rfl
  · simp at h hdigit
    omega
  · simp at h hdigit
    omega
  · exact absurd hdigit (by decide)

theorem startsIdentifier_of_isWordChar {c : Char} (hword : isWordChar c = true)
    (hdigit : Text.isDigit c = false) : startsIdentifier c = true := by
  simp only [isWordChar, Text.isDigit, startsIdentifier, Bool.or_eq_true, Bool.and_eq_true,
    Bool.and_eq_false_iff, decide_eq_true_eq, decide_eq_false_iff_not] at *
  tauto

theorem isDigit_head_spellChars {cs rest : List Char} {c : Char} (h : spellChars cs = c :: rest) :
    Text.isDigit c = false := by
  unfold spellChars at h
  split at h
  next =>
      obtain ⟨rfl, -⟩ := List.cons.inj (h.symm.trans (show _ = 'u' :: "nnamed".toList from rfl))
      decide
  next first others _ =>
      split at h
      next =>
          obtain ⟨rfl, -⟩ := List.cons.inj h
          decide
      next hdigit =>
          obtain ⟨rfl, -⟩ := List.cons.inj h
          simpa using hdigit

theorem isLegal_spell (name : String) : IsLegal (spell name) := by
  obtain ⟨hne, hall⟩ := wordy_spellChars name.toList
  obtain ⟨c, rest, heq⟩ := List.exists_cons_of_ne_nil hne
  rw [heq, List.forall_mem_cons] at hall
  refine ⟨c, rest, ?_, ?_, hall.2⟩
  · rw [spell, String.toList_ofList, heq]
  · exact startsIdentifier_of_isWordChar hall.1 (isDigit_head_spellChars heq)

namespace Scope

theorem isLegal_candidate {base : String} (hbase : IsLegal base) (k : Nat) :
    IsLegal (candidate base k) := by
  unfold candidate
  split
  · exact hbase
  · obtain ⟨c, rest, heq, hstart, hrest⟩ := hbase
    refine ⟨c, rest ++ (toString k).toList, ?_, hstart, ?_⟩
    · rw [String.toList_append, heq, List.cons_append]
    · intro d hd
      rcases List.mem_append.mp hd with hd | hd
      · exact hrest d hd
      · exact isWordChar_of_mem_toString hd

/-! ### The first free candidate -/

/-- From the first on, all candidates are different: a number makes the name longer, and different
numbers have different digits. -/
theorem candidate_succ_injective (base : String) :
    Function.Injective (fun i : Nat => candidate base (i + 1)) := by
  intro i j h
  have hlonger (k : Nat) : base ≠ base ++ toString k := by
    intro heq
    have hlength := congrArg (fun s => s.toList.length) heq
    have hdigits := List.length_pos_of_ne_nil (toList_toString_ne_nil k)
    simp only [String.toList_append, List.length_append] at hlength
    omega
  simp only [candidate] at h
  split at h <;> split at h
  · omega
  · exact absurd h (hlonger _)
  · exact absurd h.symm (hlonger _)
  · exact Nat.succ.inj (append_toString_injective base h)

/-- Where the search stops: at the first free candidate, or at the end of its count. -/
theorem firstFree_cases (s : Scope) (base : String) (k count : Nat) :
    ∃ i ≤ count, s.firstFree base k count = candidate base (k + i) ∧
      (∀ j < i, s.isBlocked (candidate base (k + j)) = true) ∧
      (i < count → s.isBlocked (candidate base (k + i)) = false) := by
  induction count generalizing k with
  | zero => exact ⟨0, Nat.le_refl 0, rfl, by omega, by omega⟩
  | succ count ih =>
      rw [firstFree]
      cases hblocked : s.isBlocked (candidate base k) with
      | false => exact ⟨0, by omega, rfl, by omega, fun _ => hblocked⟩
      | true =>
          obtain ⟨i, hle, heq, hbefore, hfree⟩ := ih (k + 1)
          refine ⟨i + 1, by omega, ?_, ?_, ?_⟩
          · rw [if_pos rfl, heq, Nat.add_right_comm, Nat.add_assoc]
          · intro j hj
            cases j with
            | zero => exact hblocked
            | succ j =>
                have := hbefore j (by omega)
                rwa [Nat.add_right_comm, Nat.add_assoc] at this
          · intro hlt
            have := hfree (by omega)
            rwa [Nat.add_right_comm, Nat.add_assoc] at this

def blocked (s : Scope) : List String := reservedWords ++ s.taken

theorem isBlocked_iff {s : Scope} {identifier : String} :
    s.isBlocked identifier = true ↔ identifier ∈ s.blocked := by
  simp [isBlocked, isReserved, isTaken, blocked]

/-- A list holds no more candidates in a row than it has members. -/
theorem le_length_of_candidates {base : String} {count : Nat} {l : List String}
    (h : ∀ i < count, candidate base (i + 1) ∈ l) : count ≤ l.length := by
  let candidates := (List.range count).map (fun i => candidate base (i + 1))
  have hnodup : candidates.Nodup := List.nodup_range.map (candidate_succ_injective base)
  have hsub : candidates ⊆ l := by
    intro x hx
    obtain ⟨i, hi, rfl⟩ := List.mem_map.mp hx
    exact h i (List.mem_range.mp hi)
  have hlength := (List.subperm_of_subset hnodup hsub).length_le
  simpa only [candidates, List.length_map, List.length_range] using hlength

/-- A new name gets its first candidate that is not blocked. -/
theorem free_spec (s : Scope) (name : String) :
    ∃ i, s.free name = candidate (spell name) (i + 1) ∧ s.free name ∉ s.blocked ∧
      ∀ j < i, candidate (spell name) (j + 1) ∈ s.blocked := by
  have hcount : reservedWords.length + s.taken.length = s.blocked.length := by
    rw [blocked, List.length_append]
  obtain ⟨i, hle, heq, hbefore, hfree⟩ := s.firstFree_cases (spell name) 1 s.blocked.length
  rw [free, hcount]
  simp only [Nat.add_comm 1] at heq hbefore hfree
  have hbefore' : ∀ j < i, candidate (spell name) (j + 1) ∈ s.blocked :=
    fun j hj => isBlocked_iff.mp (hbefore j hj)
  refine ⟨i, heq, ?_, hbefore'⟩
  rw [heq]
  intro hmem
  rcases Nat.lt_or_eq_of_le hle with hlt | rfl
  · have := isBlocked_iff.mpr hmem
    rw [hfree hlt] at this
    cases this
  · -- the search ran to its end, so there were more candidates than blocked identifiers
    have hall : ∀ j < s.blocked.length + 1, candidate (spell name) (j + 1) ∈ s.blocked := by
      intro j hj
      rcases Nat.lt_or_eq_of_le (Nat.lt_succ_iff.mp hj) with hlt | rfl
      · exact hbefore' j hlt
      · exact hmem
    have hle := le_length_of_candidates hall
    omega

/-- The same in terms of the spelling and of what is put behind it. -/
theorem free_cases (s : Scope) (name : String) :
    s.free name ∉ s.blocked ∧
      (spell name ∉ s.blocked → s.free name = spell name) ∧
      (spell name ∈ s.blocked → ∃ k ≥ 2, s.free name = spell name ++ toString k ∧
        ∀ j, 2 ≤ j → j < k → spell name ++ toString j ∈ s.blocked) := by
  obtain ⟨i, heq, hfree, hbefore⟩ := s.free_spec name
  have hnumbered (j : Nat) (hj : 1 ≤ j) :
      candidate (spell name) (j + 1) = spell name ++ toString (j + 1) := if_neg (by omega)
  refine ⟨hfree, fun hspell => ?_, fun hspell => ?_⟩
  · cases i with
    | zero => exact heq
    | succ i => exact absurd (hbefore 0 (Nat.succ_pos i)) hspell
  · cases i with
    | zero => exact absurd (heq ▸ hspell) hfree
    | succ i =>
        refine ⟨i + 2, by omega, heq.trans (hnumbered (i + 1) (by omega)), fun j hj hlt => ?_⟩
        obtain ⟨l, rfl⟩ : ∃ l, j = l + 1 := ⟨j - 1, by omega⟩
        rw [← hnumbered l (by omega)]
        exact hbefore l (by omega)

/-- The number behind a spelling is bounded by how much is in its way. -/
theorem number_le {base : String} {k : Nat} {unavailable : List String} (hbase : base ∈ unavailable)
    (hbefore : ∀ j, 2 ≤ j → j < k → base ++ toString j ∈ unavailable) :
    k ≤ unavailable.length + 1 := by
  have hall : ∀ i < k - 1, candidate base (i + 1) ∈ unavailable := by
    intro i hi
    unfold candidate
    split
    · exact hbase
    · exact hbefore (i + 1) (by omega) (by omega)
  have hle := le_length_of_candidates hall
  omega

end Scope

/-! ### Runs of a table -/

/-- What a table is asked for: an identifier that was never handed out before, or that of a user's
name. -/
inductive Call where
  | fresh (name : String) (ns : Namespace)
  | nameOf (name : String) (ns : Namespace)
  deriving DecidableEq, Repr

namespace Call

def name : Call → String
  | fresh name _ => name
  | nameOf name _ => name

def ns : Call → Namespace
  | fresh _ ns => ns
  | nameOf _ ns => ns

def key? : Call → Option String
  | fresh _ _ => none
  | nameOf name _ => some (Text.lowercase name)

def Repeats (c other : Call) : Prop :=
  c.ns = other.ns ∧ ∃ key, c.key? = some key ∧ other.key? = some key

end Call

/-- An identifier handed out for a call, and whether it was chosen for this call. -/
structure Answer where
  call : Call
  identifier : String
  isNew : Bool
  deriving DecidableEq, Repr

namespace NameTable

def answer (t : NameTable) : Call → Answer × NameTable
  | .fresh name ns => (⟨.fresh name ns, (t.fresh name ns).1, true⟩, (t.fresh name ns).2)
  | .nameOf name ns =>
      (⟨.nameOf name ns, (t.nameOf name ns).1,
        ((t.scope ns).assigned.lookup (Text.lowercase name)).isNone⟩, (t.nameOf name ns).2)

def answers (t : NameTable) : List Call → List Answer
  | [] => []
  | c :: rest => (t.answer c).1 :: (t.answer c).2.answers rest

@[simp] theorem scope_setScope (t : NameTable) (s : Scope) (ns ns' : Namespace) :
    (t.setScope s ns).scope ns' = if ns' = ns then s else t.scope ns' := by
  cases ns <;> cases ns' <;> rfl

@[simp] theorem call_answer (t : NameTable) (c : Call) : (t.answer c).1.call = c := by
  cases c <;> rfl

theorem map_call_answers (t : NameTable) (calls : List Call) :
    (t.answers calls).map (·.call) = calls := by
  induction calls generalizing t with
  | nil => rfl
  | cons c rest ih => rw [answers, List.map_cons, call_answer, ih]

/-- A call that gets a new identifier: it is the free one for the name, and it is taken from then
on and belongs to the name, if that is a user's. -/
structure Allocates (t : NameTable) (c : Call) : Prop where
  isNew : (t.answer c).1.isNew = true
  identifier : (t.answer c).1.identifier = (t.scope c.ns).free c.name
  unassigned : ∀ key, c.key? = some key → (t.scope c.ns).assigned.lookup key = none
  taken : ∀ ns, ((t.answer c).2.scope ns).taken =
    if ns = c.ns then (t.answer c).1.identifier :: (t.scope ns).taken else (t.scope ns).taken
  assigned : ∀ ns key, ((t.answer c).2.scope ns).assigned.lookup key =
    if ns = c.ns ∧ c.key? = some key then some (t.answer c).1.identifier
    else (t.scope ns).assigned.lookup key

/-- Either a call gets a new identifier, or that of its name and nothing changes. -/
theorem answer_cases (t : NameTable) (c : Call) :
    t.Allocates c ∨
      (t.answer c).1.isNew = false ∧ (∀ ns, (t.answer c).2.scope ns = t.scope ns) ∧
        ∃ key, c.key? = some key ∧
          (t.scope c.ns).assigned.lookup key = some (t.answer c).1.identifier := by
  cases c with
  | fresh name ns =>
      refine .inl ⟨rfl, rfl, by simp [Call.key?], fun ns' => ?_, fun ns' key => ?_⟩
      · simp only [answer, NameTable.fresh, scope_setScope, Call.ns]
        by_cases h : ns' = ns <;> simp [h, Scope.fresh]
      · simp only [answer, NameTable.fresh, scope_setScope, Call.ns, Call.key?]
        by_cases h : ns' = ns <;> simp [h, Scope.fresh]
  | nameOf name ns =>
      cases hlookup : (t.scope ns).assigned.lookup (Text.lowercase name) with
      | some identifier =>
          have hname := Scope.nameOf_of_lookup hlookup
          refine .inr ⟨by simp [answer, hlookup], fun ns' => ?_, _, rfl, ?_⟩
          · simp only [answer, NameTable.nameOf, hname, scope_setScope]
            by_cases h : ns' = ns <;> simp [h]
          · simp only [answer, NameTable.nameOf, hname]
            exact hlookup
      | none =>
          have hname := Scope.nameOf_of_lookup_eq_none hlookup
          refine .inl ⟨by simp [answer, hlookup], ?_, ?_, fun ns' => ?_, fun ns' key => ?_⟩
          · simp only [answer, NameTable.nameOf, hname, Call.ns, Call.name]
          · intro key hkey
            obtain rfl : Text.lowercase name = key := Option.some.inj hkey
            exact hlookup
          · simp only [answer, NameTable.nameOf, hname, scope_setScope, Call.ns]
            by_cases h : ns' = ns <;> simp [h]
          · simp only [answer, NameTable.nameOf, hname, scope_setScope, Call.ns, Call.key?]
            by_cases h : ns' = ns
            · by_cases hkey : key = Text.lowercase name
              · simp [h, hkey]
              · simp [h, List.lookup_cons, beq_false_of_ne hkey, Ne.symm hkey]
            · simp [h]

/-! ### What a table remembers -/

def allocated (past : List Answer) (ns : Namespace) : List String :=
  (past.filter (fun a => a.isNew && a.call.ns = ns)).map (·.identifier)

theorem mem_allocated {past : List Answer} {ns : Namespace} {x : String} :
    x ∈ allocated past ns ↔ ∃ a ∈ past, a.isNew = true ∧ a.call.ns = ns ∧ a.identifier = x := by
  simp [allocated, and_assoc]

theorem length_allocated_le (past : List Answer) (ns : Namespace) :
    (allocated past ns).length ≤ past.length := by
  rw [allocated, List.length_map]
  exact List.length_filter_le _ _

theorem allocated_append (past : List Answer) (a : Answer) (ns : Namespace) :
    allocated (past ++ [a]) ns =
      if a.isNew = true ∧ a.call.ns = ns then allocated past ns ++ [a.identifier]
      else allocated past ns := by
  simp only [allocated, List.filter_append, List.map_append, List.filter_singleton]
  by_cases h : a.isNew = true ∧ a.call.ns = ns
  · simp [h]
  · have hbool : (a.isNew && decide (a.call.ns = ns)) = false := by
      simpa using h
    simp [h, hbool]

structure Records (past : List Answer) (t : NameTable) : Prop where
  taken : ∀ ns x, x ∈ (t.scope ns).taken ↔ x ∈ allocated past ns
  assigned : ∀ ns key x, (t.scope ns).assigned.lookup key = some x →
    ∃ e ∈ past, e.isNew = true ∧ e.call.ns = ns ∧ e.call.key? = some key ∧ e.identifier = x
  stable : ∀ e ∈ past, ∀ key, e.call.key? = some key →
    (t.scope e.call.ns).assigned.lookup key = some e.identifier
  distinct : ∀ ns, (allocated past ns).Nodup
  legal : ∀ e ∈ past, IsLegal e.identifier ∧ e.identifier ∉ reservedWords

variable {past : List Answer} {t : NameTable} {c : Call}

theorem records_empty : Records [] .empty where
  taken ns x := by cases ns <;> simp [empty, scope, Scope.empty, allocated]
  assigned ns key x h := by cases ns <;> cases h
  stable e he := nomatch he
  distinct ns := List.nodup_nil
  legal e he := nomatch he

/-- A new identifier is neither reserved nor one that was chosen before. -/
theorem Records.not_mem_allocated (h : Records past t) (hnew : t.Allocates c) :
    (t.answer c).1.identifier ∉ reservedWords ∧
      (t.answer c).1.identifier ∉ allocated past c.ns := by
  have hfree := ((t.scope c.ns).free_cases c.name).1
  rw [← hnew.identifier, Scope.blocked, List.mem_append, not_or] at hfree
  exact ⟨hfree.1, fun hmem => hfree.2 ((h.taken _ _).mpr hmem)⟩

theorem Records.allocate (h : Records past t) (hnew : t.Allocates c) :
    Records (past ++ [(t.answer c).1]) (t.answer c).2 := by
  obtain ⟨hunreserved, hunused⟩ := h.not_mem_allocated hnew
  have hallocated (ns : Namespace) : allocated (past ++ [(t.answer c).1]) ns =
      if ns = c.ns then allocated past ns ++ [(t.answer c).1.identifier]
      else allocated past ns := by
    rw [allocated_append, call_answer, hnew.isNew]
    simp only [true_and, eq_comm]
  refine ⟨?_, ?_, ?_, ?_, ?_⟩
  · intro ns x
    rw [hnew.taken, hallocated]
    split <;> simp [h.taken, or_comm]
  · intro ns key x hx
    rw [hnew.assigned] at hx
    split at hx
    next hown =>
        refine ⟨(t.answer c).1, by simp, hnew.isNew, ?_, ?_, Option.some.inj hx⟩
        · rw [call_answer, hown.1]
        · rw [call_answer, hown.2]
    next =>
        obtain ⟨e, he, hfacts⟩ := h.assigned ns key x hx
        exact ⟨e, List.mem_append_left _ he, hfacts⟩
  · intro e he key hkey
    rw [hnew.assigned]
    rcases List.mem_append.mp he with he | he
    · have hlookup := h.stable e he key hkey
      split
      next hown =>
          rw [hown.1, hnew.unassigned key hown.2] at hlookup
          cases hlookup
      next => exact hlookup
    · obtain rfl := List.mem_singleton.mp he
      rw [call_answer] at hkey ⊢
      rw [if_pos ⟨rfl, hkey⟩]
  · intro ns
    rw [hallocated]
    split
    next heq =>
        subst heq
        exact (h.distinct _).append (List.nodup_singleton _) (by simpa using hunused)
    next => exact h.distinct ns
  · intro e he
    rcases List.mem_append.mp he with he | he
    · exact h.legal e he
    · obtain rfl := List.mem_singleton.mp he
      refine ⟨?_, hunreserved⟩
      obtain ⟨i, heq, -⟩ := (t.scope c.ns).free_spec c.name
      rw [hnew.identifier, heq]
      exact Scope.isLegal_candidate (isLegal_spell _) _

theorem Records.recall (h : Records past t) (hold : (t.answer c).1.isNew = false)
    (hscope : ∀ ns, (t.answer c).2.scope ns = t.scope ns) {key : String} (hkey : c.key? = some key)
    (hlookup : (t.scope c.ns).assigned.lookup key = some (t.answer c).1.identifier) :
    Records (past ++ [(t.answer c).1]) (t.answer c).2 := by
  have hallocated (ns : Namespace) :
      allocated (past ++ [(t.answer c).1]) ns = allocated past ns := by
    rw [allocated_append, hold]
    simp
  refine ⟨?_, ?_, ?_, ?_, ?_⟩
  · simpa only [hscope, hallocated] using h.taken
  · intro ns key x hx
    rw [hscope] at hx
    obtain ⟨e, he, hfacts⟩ := h.assigned ns key x hx
    exact ⟨e, List.mem_append_left _ he, hfacts⟩
  · intro e he key' hkey'
    rw [hscope]
    rcases List.mem_append.mp he with he | he
    · exact h.stable e he key' hkey'
    · obtain rfl := List.mem_singleton.mp he
      rw [call_answer] at hkey' ⊢
      obtain rfl : key = key' := Option.some.inj (hkey.symm.trans hkey')
      exact hlookup
  · simpa only [hallocated] using h.distinct
  · intro e he
    rcases List.mem_append.mp he with he | he
    · exact h.legal e he
    · obtain rfl := List.mem_singleton.mp he
      obtain ⟨first, hfirst, -, -, -, hsame⟩ := h.assigned c.ns key _ hlookup
      rw [← hsame]
      exact h.legal first hfirst

theorem Records.answer (h : Records past t) (c : Call) :
    Records (past ++ [(t.answer c).1]) (t.answer c).2 := by
  rcases t.answer_cases c with hnew | ⟨hold, hscope, key, hkey, hlookup⟩
  · exact h.allocate hnew
  · exact h.recall hold hscope hkey hlookup

/-- Every answer of a run was given by a table that remembers the answers before it. -/
theorem Records.exists_of_answers {calls : List Call} {earlier later : List Answer} {a : Answer}
    (h : Records past t) (hrun : t.answers calls = earlier ++ a :: later) :
    ∃ t' c, Records (past ++ earlier) t' ∧ (NameTable.answer t' c).1 = a := by
  induction earlier generalizing past t calls with
  | nil =>
      cases calls with
      | nil => cases hrun
      | cons c rest => exact ⟨t, c, by simpa using h, (List.cons.inj hrun).1⟩
  | cons e earlier ih =>
      cases calls with
      | nil => cases hrun
      | cons c rest =>
          obtain ⟨hfirst, hrest⟩ := List.cons.inj hrun
          obtain ⟨t', c', hrecords, ha⟩ := ih (h.answer c) hrest
          rw [hfirst, List.append_assoc] at hrecords
          exact ⟨t', c', hrecords, ha⟩

/-! ### The properties of answers -/

/-- An identifier is not new exactly if it was asked for before under the same name. -/
theorem Records.isNew_eq_false_iff (h : Records past t) (c : Call) :
    (t.answer c).1.isNew = false ↔ ∃ e ∈ past, c.Repeats e.call := by
  constructor
  · intro hold
    rcases t.answer_cases c with hnew | ⟨-, -, key, hkey, hlookup⟩
    · rw [hnew.isNew] at hold
      cases hold
    · obtain ⟨e, he, -, hns, hkey', -⟩ := h.assigned c.ns key _ hlookup
      exact ⟨e, he, hns.symm, key, hkey, hkey'⟩
  · rintro ⟨e, he, hns, key, hkey, hkey'⟩
    rcases t.answer_cases c with hnew | ⟨hold, -⟩
    · have hlookup := h.stable e he key hkey'
      rw [← hns, hnew.unassigned key hkey] at hlookup
      cases hlookup
    · exact hold

/-- An identifier is one that was chosen before exactly if both were asked for under one name. -/
theorem Records.identifier_eq_chosen_iff (h : Records past t) (c : Call) {e : Answer}
    (he : e ∈ past) (hnew : e.isNew = true) (hns : e.call.ns = c.ns) :
    (t.answer c).1.identifier = e.identifier ↔ c.Repeats e.call := by
  rcases t.answer_cases c with hfresh | ⟨-, -, key, hkey, hlookup⟩
  · constructor
    · intro heq
      exact absurd (mem_allocated.mpr ⟨e, he, hnew, hns, heq.symm⟩) (h.not_mem_allocated hfresh).2
    · rintro ⟨-, key, hkey, hkey'⟩
      have hlookup := h.stable e he key hkey'
      rw [hns, hfresh.unassigned key hkey] at hlookup
      cases hlookup
  · constructor
    · intro heq
      obtain ⟨first, hfirst, hfirstNew, hfirstNs, hkey', hsame⟩ := h.assigned c.ns key _ hlookup
      -- of the identifiers chosen in a namespace no two are the same
      have hchosen : first = e := List.inj_on_of_nodup_map (h.distinct c.ns)
        (List.mem_filter.mpr ⟨hfirst, by simp [hfirstNew, hfirstNs]⟩)
        (List.mem_filter.mpr ⟨he, by simp [hnew, hns]⟩) (hsame.trans heq)
      subst hchosen
      exact ⟨hns.symm, key, hkey, hkey'⟩
    · rintro ⟨-, key', hkey', hother⟩
      obtain rfl : key = key' := Option.some.inj (hkey.symm.trans hkey')
      have hstable := h.stable e he key hother
      rw [hns, hlookup] at hstable
      exact Option.some.inj hstable

/-- A new identifier is the spelling of its name if that is free, and otherwise the spelling with
the least number behind it that makes it free. -/
theorem Records.identifier_cases (h : Records past t) (hnew : (t.answer c).1.isNew = true) :
    let unavailable := reservedWords ++ allocated past c.ns
    (t.answer c).1.identifier ∉ unavailable ∧
      (spell c.name ∉ unavailable → (t.answer c).1.identifier = spell c.name) ∧
      (spell c.name ∈ unavailable →
        ∃ k ≥ 2, (t.answer c).1.identifier = spell c.name ++ toString k ∧
          ∀ j, 2 ≤ j → j < k → spell c.name ++ toString j ∈ unavailable) := by
  intro unavailable
  have hblocked (x : String) : x ∈ (t.scope c.ns).blocked ↔ x ∈ unavailable := by
    simp [Scope.blocked, unavailable, h.taken]
  rcases t.answer_cases c with hallocates | ⟨hold, -⟩
  · have hcases := (t.scope c.ns).free_cases c.name
    rw [← hallocates.identifier] at hcases
    simpa only [hblocked] using hcases
  · rw [hold] at hnew
    cases hnew

end NameTable

/-- Whatever identifiers a table is asked for, in both namespaces and in any order, each answer is a
legal identifier and no reserved word. It is new unless its name was asked for before. It differs
from all identifiers chosen before in its namespace but that of its own name, which it is. A new
identifier is the spelling of the name if that is free, and otherwise the spelling with the least
number from 2 on that makes it free. The number is bounded by how many words are reserved and how
many identifiers were handed out before, so 32 bits hold it until almost `2 ^ 32` of them were. -/
theorem allocated_identifiers_legal_and_unique (calls : List Call) :
    (NameTable.empty.answers calls).map (·.call) = calls ∧
      ∀ earlier a later, NameTable.empty.answers calls = earlier ++ a :: later →
        IsLegal a.identifier ∧ a.identifier ∉ reservedWords ∧
          (a.isNew = false ↔ ∃ e ∈ earlier, a.call.Repeats e.call) ∧
          (∀ e ∈ earlier, e.isNew = true → e.call.ns = a.call.ns →
            (a.identifier = e.identifier ↔ a.call.Repeats e.call)) ∧
          (a.isNew = true →
            let base := spell a.call.name
            let unavailable := reservedWords ++ NameTable.allocated earlier a.call.ns
            a.identifier ∉ unavailable ∧
              (base ∉ unavailable → a.identifier = base) ∧
              (base ∈ unavailable → ∃ k ≥ 2, a.identifier = base ++ toString k ∧
                (∀ j, 2 ≤ j → j < k → base ++ toString j ∈ unavailable) ∧
                k ≤ reservedWords.length + earlier.length + 1)) := by
  refine ⟨NameTable.map_call_answers _ calls, fun earlier a later hrun => ?_⟩
  obtain ⟨t, c, hrecords, rfl⟩ := NameTable.records_empty.exists_of_answers hrun
  rw [List.nil_append] at hrecords
  have hlegal := (hrecords.answer c).legal (t.answer c).1 (by simp)
  simp only [NameTable.call_answer]
  refine ⟨hlegal.1, hlegal.2, hrecords.isNew_eq_false_iff c,
    fun e he hnew hns => hrecords.identifier_eq_chosen_iff c he hnew hns, fun hnew => ?_⟩
  obtain ⟨havailable, hspelled, hnumbered⟩ := hrecords.identifier_cases hnew
  refine ⟨havailable, hspelled, fun hbase => ?_⟩
  obtain ⟨k, hk, heq, hbefore⟩ := hnumbered hbase
  have hle := Scope.number_le hbase hbefore
  have hallocated := NameTable.length_allocated_le earlier c.ns
  rw [List.length_append] at hle
  exact ⟨k, hk, heq, hbefore, by omega⟩

/-- Where `x` is taken and `x2` was chosen by a user, the next `x` gets the number 3. -/
theorem suffixed_name_avoids_chosen_one :
    let earlier : List Answer :=
      [⟨.fresh "x" .variable, "x", true⟩, ⟨.fresh "x2" .variable, "x2", true⟩,
        ⟨.fresh "x" .procedure, "x", true⟩]
    NameTable.empty.answers
        [.fresh "x" .variable, .fresh "x2" .variable, .fresh "x" .procedure, .nameOf "x" .variable,
          .nameOf "X" .variable] =
      earlier ++ ⟨.nameOf "x" .variable, "x3", true⟩ :: [⟨.nameOf "X" .variable, "x3", false⟩] ∧
      IsLegal "x3" ∧ "x3" ∉ reservedWords ∧
      ∃ k ≥ 2, "x3" = spell "x" ++ toString k ∧
        (∀ j, 2 ≤ j → j < k →
          spell "x" ++ toString j ∈ reservedWords ++ NameTable.allocated earlier .variable) ∧
        k ≤ reservedWords.length + 4 := by
  intro earlier
  have hrun : NameTable.empty.answers
        [.fresh "x" .variable, .fresh "x2" .variable, .fresh "x" .procedure, .nameOf "x" .variable,
          .nameOf "X" .variable] =
      earlier ++ ⟨.nameOf "x" .variable, "x3", true⟩ :: [⟨.nameOf "X" .variable, "x3", false⟩] := by
    decide
  have hspell : spell "x" ∈ reservedWords ++ NameTable.allocated earlier .variable := by decide
  obtain ⟨hlegal, hunreserved, -, -, hnew⟩ :=
    (allocated_identifiers_legal_and_unique _).2 _ _ _ hrun
  exact ⟨hrun, hlegal, hunreserved, (hnew rfl).2.2 hspell⟩

/-- The name `X` is answered with the identifier that was chosen for `x`. -/
theorem identifier_repeated_in_other_case :
    ¬∀ earlier a later,
      NameTable.empty.answers [.nameOf "x" .variable, .nameOf "X" .variable] =
          earlier ++ a :: later →
        ∀ e ∈ earlier, e.isNew = true → e.call.ns = a.call.ns → a.identifier ≠ e.identifier := by
  intro h
  have hrun : NameTable.empty.answers [.nameOf "x" .variable, .nameOf "X" .variable] =
      [⟨.nameOf "x" .variable, "x", true⟩] ++ [⟨.nameOf "X" .variable, "x", false⟩] := by
    decide
  exact h _ _ _ hrun _ List.mem_cons_self rfl rfl rfl

end BlockSketch.Identifier
