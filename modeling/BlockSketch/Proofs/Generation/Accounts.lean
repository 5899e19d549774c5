import BlockSketch.Proofs.Block.Functions
import BlockSketch.Proofs.Identifier.UserNames
import BlockSketch.Proofs.Sketch.Bucket

/-!
The functions of a draft over a whole run. The section of functions is told by the journal: under a
key stands the procedure that was placed there last, or the helper that was asked for first. The two
never meet, since no helper is asked for under the key of a procedure. The names of the draft
remember the identifiers that the journal tells.
-/

namespace BlockSketch

open Block Identifier

/-! ### What edits do to names -/

/-- What an edit asks a table of names for. -/
def Edit.call? : Edit → Option Call
  | .helper name _ => some (.fresh name .procedure)
  | .identifier name ns => some (.nameOf name ns)
  | .freshVariable name => some (.fresh name .variable)
  | .place .. => none
  | .claim .. => none
  | .report .. => none

namespace Draft

theorem helper_of_find? {d : Draft} {name f : String} (h : d.helpers.find? name = some f)
    (text : String → String) : d.helper name text = (f, d) := by
  simp [helper, h]

theorem helper_of_find?_eq_none {d : Draft} {name : String} (h : d.helpers.find? name = none)
    (text : String → String) :
    d.helper name text = ((d.names.answer (.fresh name .procedure)).1.identifier,
      { d with
        names := (d.names.answer (.fresh name .procedure)).2
        sections := (d.sections.insert .functions name
          (text (d.names.answer (.fresh name .procedure)).1.identifier) false).2
        helpers := d.helpers.insert name
          (d.names.answer (.fresh name .procedure)).1.identifier }) := by
  simp only [helper, h]
  rfl

/-- An edit leaves the names alone, and then it tells at most the identifier of a helper that was
defined before; or it passes its call on to the table and tells the answer. -/
theorem apply_cases (d : Draft) (e : Edit) :
    ((d.apply e).2.names = d.names ∧ (d.apply e).2.helpers = d.helpers ∧
      (∀ name ns, e ≠ .identifier name ns) ∧
      ∀ x ∈ e.told? (d.apply e).1, ∃ name, d.helpers.find? name = some x) ∨
    ∃ c, e.call? = some c ∧ (d.apply e).2.names = (d.names.answer c).2 ∧
      e.told? (d.apply e).1 = some (d.names.answer c).1.identifier ∧
      ∀ name x, (d.apply e).2.helpers.find? name = some x →
        d.helpers.find? name = some x ∨
          c = .fresh name .procedure ∧ (d.names.answer c).1.identifier = x := by
  cases e with
  | place sec key text overwrite => exact .inl ⟨rfl, rfl, by simp, fun x hx => by cases hx⟩
  | helper name body =>
      cases hfound : d.helpers.find? name with
      | some f =>
          rw [apply, helper_of_find? hfound]
          refine .inl ⟨rfl, rfl, by simp, fun x hx => ⟨name, ?_⟩⟩
          cases hx
          exact hfound
      | none =>
          rw [apply, helper_of_find?_eq_none hfound]
          refine .inr ⟨.fresh name .procedure, rfl, rfl, rfl, fun name' x hx => ?_⟩
          rw [SortedMap.find?_insert] at hx
          split at hx
          next hname => exact .inr ⟨by rw [hname], Option.some.inj hx⟩
          next => exact .inl hx
  | identifier name ns => exact .inr ⟨.nameOf name ns, rfl, rfl, rfl, fun _ _ hx => .inl hx⟩
  | freshVariable name => exact .inr ⟨.fresh name .variable, rfl, rfl, rfl, fun _ _ hx => .inl hx⟩
  | claim node pin usage label => exact .inl ⟨rfl, rfl, by simp, fun x hx => by cases hx⟩
  | report node concern message =>
      cases message with
      | none => exact .inl ⟨rfl, rfl, by simp, fun x hx => by cases hx⟩
      | some message => exact .inl ⟨rfl, rfl, by simp, fun x hx => by cases hx⟩

end Draft

namespace Journal

/-- The names of a draft remember the answers told in its journal: identifiers of names, and those
of helpers, which were new. -/
structure Remembers (past : List Answer) (j : Journal) : Prop where
  records : NameTable.Records past j.draft.names
  fresh : ∀ a ∈ past, a.call.key? = none → a.isNew = true
  named : ∀ name ns (x : String), .edited (.identifier name ns) x ∈ j.entries →
    ∃ a ∈ past, a.call = .nameOf name ns ∧ a.identifier = x
  helped : ∀ name x, j.draft.helpers.find? name = some x →
    ∃ a ∈ past, a.call = .fresh name .procedure ∧ a.identifier = x

variable {past : List Answer} {j j' : Journal}

theorem Remembers.unchanged (h : Remembers past j) (hnames : j'.draft.names = j.draft.names)
    (hhelpers : j'.draft.helpers = j.draft.helpers)
    (hentries : ∀ name ns (x : String), .edited (.identifier name ns) x ∈ j'.entries →
      .edited (.identifier name ns) x ∈ j.entries) : Remembers past j' where
  records := hnames ▸ h.records
  fresh := h.fresh
  named name ns x hx := h.named name ns x (hentries name ns x hx)
  helped name x hx := h.helped name x (hhelpers ▸ hx)

theorem Remembers.answered (h : Remembers past j) (c : Call)
    (hnames : j'.draft.names = (j.draft.names.answer c).2)
    (hnamed : ∀ name ns (x : String), .edited (.identifier name ns) x ∈ j'.entries →
      .edited (.identifier name ns) x ∈ j.entries ∨
        c = .nameOf name ns ∧ (j.draft.names.answer c).1.identifier = x)
    (hhelped : ∀ name x, j'.draft.helpers.find? name = some x →
      j.draft.helpers.find? name = some x ∨
        c = .fresh name .procedure ∧ (j.draft.names.answer c).1.identifier = x) :
    Remembers (past ++ [(j.draft.names.answer c).1]) j' where
  records := hnames ▸ h.records.answer c
  fresh a ha hkey := by
    rcases List.mem_append.mp ha with ha | ha
    · exact h.fresh a ha hkey
    · obtain rfl := List.mem_singleton.mp ha
      rw [NameTable.call_answer] at hkey
      exact NameTable.isNew_answer_of_key?_eq_none hkey
  named name ns x hx := by
    rcases hnamed name ns x hx with hold | ⟨rfl, heq⟩
    · obtain ⟨a, ha, hcall⟩ := h.named name ns x hold
      exact ⟨a, List.mem_append_left _ ha, hcall⟩
    · exact ⟨_, List.mem_append_right _ (List.mem_singleton_self _), NameTable.call_answer _ _, heq⟩
  helped name x hx := by
    rcases hhelped name x hx with hold | ⟨rfl, heq⟩
    · obtain ⟨a, ha, hcall⟩ := h.helped name x hold
      exact ⟨a, List.mem_append_left _ ha, hcall⟩
    · exact ⟨_, List.mem_append_right _ (List.mem_singleton_self _), NameTable.call_answer _ _, heq⟩

theorem mem_entries_edit {e : Edit} {entry : Entry} :
    entry ∈ (j.edit e).entries ↔ entry ∈ j.entries ∨ entry = .edited e (j.draft.apply e).1 := by
  simp [edit]

theorem Remembers.edit (h : Remembers past j) (e : Edit) :
    ∃ past', Remembers past' (j.edit e) := by
  rcases j.draft.apply_cases e with
    ⟨hnames, hhelpers, hother, -⟩ | ⟨c, hcall, hnames, htold, hhelpers⟩
  · refine ⟨past, h.unchanged hnames hhelpers fun name ns x hx => ?_⟩
    rcases mem_entries_edit.mp hx with hx | hx
    · exact hx
    · cases hx
      exact absurd rfl (hother name ns)
  · refine ⟨_, h.answered c hnames (fun name ns x hx => ?_) hhelpers⟩
    rcases mem_entries_edit.mp hx with hx | hx
    · exact .inl hx
    · cases hx
      exact .inr ⟨(Option.some.inj hcall).symm, (Option.some.inj htold).symm⟩

end Journal

/-! ### What a journal tells of functions -/

def Entry.placed? (key : String) : Entry → Option String
  | .edited (.place .functions key' text _) _ => if key' = key then some text else none
  | _ => none

def Entry.helped? (key : String) : Entry → Option String
  | .edited (.helper name text) f => if name = key then some (text f) else none
  | _ => none

def lastPlaced? (entries : List Entry) (key : String) : Option String :=
  entries.reverse.findSome? (·.placed? key)

def firstHelped? (entries : List Entry) (key : String) : Option String :=
  entries.findSome? (·.helped? key)

section Told

variable {entries : List Entry} {entry : Entry} {key text : String}

theorem lastPlaced?_append :
    lastPlaced? (entries ++ [entry]) key = (entry.placed? key).or (lastPlaced? entries key) := by
  simp only [lastPlaced?, List.reverse_append, List.reverse_singleton, List.singleton_append,
    List.findSome?_cons]
  cases entry.placed? key <;> rfl

theorem firstHelped?_append :
    firstHelped? (entries ++ [entry]) key = (firstHelped? entries key).or (entry.helped? key) := by
  simp only [firstHelped?, List.findSome?_append, List.findSome?_cons, List.findSome?_nil]
  cases entry.helped? key <;> rfl

theorem exists_of_lastPlaced? (h : lastPlaced? entries key = some text) :
    ∃ overwrite stored, .edited (.place .functions key text overwrite) stored ∈ entries := by
  obtain ⟨entry, hmem, hplaced⟩ := List.exists_of_findSome?_eq_some h
  unfold Entry.placed? at hplaced
  split at hplaced
  next key' text' overwrite stored =>
      split at hplaced
      next hkey =>
          cases hplaced
          exact ⟨overwrite, stored, hkey ▸ List.mem_reverse.mp hmem⟩
      next => cases hplaced
  next => cases hplaced

theorem exists_of_firstHelped? (h : firstHelped? entries key = some text) :
    ∃ (body : String → String) (f : String), .edited (.helper key body) f ∈ entries ∧
      text = body f := by
  obtain ⟨entry, hmem, hhelped⟩ := List.exists_of_findSome?_eq_some h
  unfold Entry.helped? at hhelped
  split at hhelped
  next name body f =>
      split at hhelped
      next hkey =>
          cases hhelped
          exact ⟨body, f, hkey ▸ hmem, rfl⟩
      next => cases hhelped
  next => cases hhelped

end Told

/-! ### The functions of a draft -/

/-- An edit that is proper leaves the functions alone, defines a procedure, or asks for a helper. -/
theorem ProperEdit.cases {w : Workspace} {past : List Entry} {e : Edit} (h : ProperEdit w past e) :
    e.IsPlain ∨
      (∃ f text, e = .place .functions (procedureKey f) text true ∧
        DefinesProcedure w past f text) ∨
      ∃ name text, e = .helper name text ∧ StandardHelper w name text := by
  cases e with
  | place sec key text overwrite =>
      by_cases hsec : sec = .functions
      · obtain ⟨rfl, f, rfl, hdefines⟩ := h hsec
        subst hsec
        exact .inr (.inl ⟨f, text, rfl, hdefines⟩)
      · exact .inl hsec
  | helper name text => exact .inr (.inr ⟨name, text, rfl, h⟩)
  | identifier name ns => exact .inl trivial
  | freshVariable name => exact .inl trivial
  | claim node pin usage label => exact .inl trivial
  | report node concern message => exact .inl trivial

namespace Draft

def functions (d : Draft) : Bucket := d.sections.functions

theorem functions_apply_of_isPlain (d : Draft) {e : Edit} (h : e.IsPlain) :
    (d.apply e).2.functions = d.functions ∧ (d.apply e).2.helpers = d.helpers := by
  cases e with
  | place sec key text overwrite => exact ⟨Sections.get_set_of_ne _ _ (Ne.symm h), rfl⟩
  | helper name text => exact h.elim
  | identifier name ns => exact ⟨rfl, rfl⟩
  | freshVariable name => exact ⟨rfl, rfl⟩
  | claim node pin usage label => exact ⟨rfl, rfl⟩
  | report node concern message => cases message <;> exact ⟨rfl, rfl⟩

end Draft

/-- The functions of a draft are those that its journal tells. -/
structure Journal.Accounts (w : Workspace) (j : Journal) : Prop where
  names : ∃ past, j.Remembers past
  proper : ∀ e answer, .edited e answer ∈ j.entries → ProperEdit w j.entries e
  coded : ∀ n code, .coded n code ∈ j.entries → CallsHelper w n j.entries code
  asked : ∀ name text (f : String), .edited (.helper name text) f ∈ j.entries →
    j.draft.helpers.find? name = some f
  helped : ∀ name f, j.draft.helpers.find? name = some f →
    ∃ text, .edited (.helper name text) f ∈ j.entries ∧
      firstHelped? j.entries name = some (text f)
  functions : ∀ key, j.draft.functions.get? key =
    (lastPlaced? j.entries key).or (firstHelped? j.entries key)
  keys : j.draft.functions.keys.Nodup

namespace Journal

variable {w : Workspace} {j : Journal}

theorem accounts_start (w : Workspace) (ds : Diagnostics) :
    Accounts w { draft := { diagnostics := ds } } := by
  have hnone (entry : Entry) : entry ∉ ({ draft := { diagnostics := ds } } : Journal).entries :=
    List.not_mem_nil
  have hhelpers (name f : String) : ({ diagnostics := ds } : Draft).helpers.find? name ≠ some f :=
    fun h => nomatch h
  constructor
  · exact ⟨[], NameTable.records_empty, fun a ha => absurd ha List.not_mem_nil,
      fun _ _ _ h => absurd h (hnone _), fun _ _ h => absurd h (hhelpers _ _)⟩
  · exact fun _ _ h => absurd h (hnone _)
  · exact fun _ _ h => absurd h (hnone _)
  · exact fun _ _ _ h => absurd h (hnone _)
  · exact fun _ _ h => absurd h (hhelpers _ _)
  · exact fun _ => rfl
  · exact List.nodup_nil

/-- Nothing is placed under the name of a helper. -/
theorem Accounts.lastPlaced?_eq_none (h : Accounts w j) {name : String} {text : String → String}
    (hhelper : StandardHelper w name text) : lastPlaced? j.entries name = none := by
  rw [Option.eq_none_iff_forall_ne_some]
  intro placed hplaced
  obtain ⟨overwrite, stored, hmem⟩ := exists_of_lastPlaced? hplaced
  obtain ⟨-, f, hkey, -⟩ := h.proper _ stored hmem rfl
  exact hhelper.ne_procedureKey f hkey

/-- A helper that has not been asked for has no text. -/
theorem Accounts.firstHelped?_eq_none (h : Accounts w j) {name : String}
    (hname : j.draft.helpers.find? name = none) : firstHelped? j.entries name = none := by
  rw [Option.eq_none_iff_forall_ne_some]
  intro text htext
  obtain ⟨body, f, hmem, -⟩ := exists_of_firstHelped? htext
  rw [h.asked name body f hmem] at hname
  cases hname

/-- Under the name of a helper stands its text. -/
theorem Accounts.get?_of_helped (h : Accounts w j) {name f : String} {text : String → String}
    (hmem : .edited (.helper name text) f ∈ j.entries) :
    ∃ text', .edited (.helper name text') f ∈ j.entries ∧ StandardHelper w name text' ∧
      j.draft.functions.get? name = some (text' f) := by
  obtain ⟨text', hmem', hfirst⟩ := h.helped name f (h.asked name text f hmem)
  have hhelper : StandardHelper w name text' := h.proper (.helper name text') f hmem'
  refine ⟨text', hmem', hhelper, ?_⟩
  rw [h.functions, h.lastPlaced?_eq_none hhelper, Option.none_or, hfirst]

/-- A helper that is known keeps its text when something more is written down. -/
theorem Accounts.helped_append (h : Accounts w j) (entry : Entry) {name f : String}
    (hf : j.draft.helpers.find? name = some f) :
    ∃ text, .edited (.helper name text) f ∈ j.entries ++ [entry] ∧
      firstHelped? (j.entries ++ [entry]) name = some (text f) := by
  obtain ⟨text, hmem, hfirst⟩ := h.helped name f hf
  refine ⟨text, List.mem_append_left _ hmem, ?_⟩
  rw [firstHelped?_append, hfirst, Option.some_or]

theorem subset_entries_edit (j : Journal) (e : Edit) : j.entries ⊆ (j.edit e).entries :=
  List.subset_append_left _ _

theorem Accounts.proper_edit (h : Accounts w j) {e : Edit} (he : ProperEdit w j.entries e)
    {e' : Edit} {answer : e'.Answer} (hmem : .edited e' answer ∈ (j.edit e).entries) :
    ProperEdit w (j.edit e).entries e' := by
  refine lasting_properEdit w (j.subset_entries_edit e) ?_
  rcases mem_entries_edit.mp hmem with hold | hnew
  · exact h.proper e' answer hold
  · cases hnew
    exact he

theorem Accounts.coded_edit (h : Accounts w j) {e : Edit} {n : Node} {code : Code}
    (hmem : .coded n code ∈ (j.edit e).entries) : CallsHelper w n (j.edit e).entries code := by
  refine lasting_callsHelper w n (j.subset_entries_edit e) ?_
  rcases mem_entries_edit.mp hmem with hold | hnew
  · exact h.coded n code hold
  · cases hnew

theorem placed?_of_isPlain {e : Edit} (h : e.IsPlain) (answer : e.Answer) (key : String) :
    (Entry.edited e answer).placed? key = none := by
  unfold Entry.placed?
  split
  next heq =>
      cases heq
      exact absurd rfl h
  next => rfl

theorem helped?_of_isPlain {e : Edit} (h : e.IsPlain) (answer : e.Answer) (key : String) :
    (Entry.edited e answer).helped? key = none := by
  unfold Entry.helped?
  split
  next heq =>
      cases heq
      exact h.elim
  next => rfl

theorem Accounts.edit_plain (h : Accounts w j) {e : Edit} (he : e.IsPlain) :
    Accounts w (j.edit e) := by
  obtain ⟨past, hpast⟩ := h.names
  obtain ⟨hfunctions, hhelpers⟩ := j.draft.functions_apply_of_isPlain he
  have hplaced (key : String) : lastPlaced? (j.edit e).entries key = lastPlaced? j.entries key := by
    rw [Journal.edit, lastPlaced?_append, placed?_of_isPlain he, Option.none_or]
  have hhelped (key : String) :
      firstHelped? (j.edit e).entries key = firstHelped? j.entries key := by
    rw [Journal.edit, firstHelped?_append, helped?_of_isPlain he, Option.or_none]
  refine ⟨hpast.edit e, fun _ _ => h.proper_edit he.proper, fun _ _ => h.coded_edit, ?_, ?_, ?_, ?_⟩
  · intro name text f hmem
    change (j.draft.apply e).2.helpers.find? name = some f
    rw [hhelpers]
    rcases mem_entries_edit.mp hmem with hold | hnew
    · exact h.asked name text f hold
    · cases hnew
      exact he.elim
  · intro name f hf
    change (j.draft.apply e).2.helpers.find? name = some f at hf
    rw [hhelpers] at hf
    exact h.helped_append _ hf
  · intro key
    rw [hplaced, hhelped, ← h.functions key]
    exact congrArg (·.get? key) hfunctions
  · change (j.draft.apply e).2.functions.keys.Nodup
    rw [hfunctions]
    exact h.keys

theorem Accounts.edit_define (h : Accounts w j) {f text : String}
    (hdefines : DefinesProcedure w j.entries f text) :
    Accounts w (j.edit (.place .functions (procedureKey f) text true)) := by
  obtain ⟨past, hpast⟩ := h.names
  have hproper : ProperEdit w j.entries (.place .functions (procedureKey f) text true) :=
    fun _ => ⟨rfl, f, rfl, hdefines⟩
  refine ⟨hpast.edit _, fun _ _ => h.proper_edit hproper, fun _ _ => h.coded_edit, ?_, ?_, ?_, ?_⟩
  · intro name body g hmem
    rcases mem_entries_edit.mp hmem with hold | hnew
    · exact h.asked name body g hold
    · cases hnew
  · exact fun name g hg => h.helped_append _ hg
  · intro key
    change (j.draft.functions.insert (procedureKey f) text true).2.get? key = _
    rw [Bucket.get?_insert, Journal.edit, lastPlaced?_append, firstHelped?_append,
      h.functions key]
    by_cases hkey : key = procedureKey f
    · simp [Entry.placed?, hkey]
    · simp [Entry.placed?, Entry.helped?, hkey, Ne.symm hkey]
  · exact Bucket.nodup_keys_insert h.keys _ _ _

/-- A helper that is known is told again, and only the journal changes. -/
theorem Accounts.edit_helper_known (h : Accounts w j) {name g : String} {text : String → String}
    (hhelper : StandardHelper w name text) (hfound : j.draft.helpers.find? name = some g) :
    Accounts w (j.edit (.helper name text)) := by
  obtain ⟨past, hpast⟩ := h.names
  have hproper : ProperEdit w j.entries (.helper name text) := hhelper
  have heq : j.draft.apply (.helper name text) = (g, j.draft) := Draft.helper_of_find? hfound text
  have hdraft : (j.edit (.helper name text)).draft = j.draft := by rw [Journal.edit, heq]
  refine ⟨hpast.edit _, fun _ _ => h.proper_edit hproper, fun _ _ => h.coded_edit, ?_, ?_, ?_, ?_⟩
  · intro name' text' f hmem
    rw [hdraft]
    rcases mem_entries_edit.mp hmem with hold | hnew
    · exact h.asked name' text' f hold
    · rw [heq] at hnew
      cases hnew
      exact hfound
  · intro name' f hf
    rw [hdraft] at hf
    exact h.helped_append _ hf
  · intro key
    rw [hdraft, Journal.edit, lastPlaced?_append, firstHelped?_append, h.functions key]
    by_cases hkey : name = key
    · subst hkey
      obtain ⟨text', -, hfirst⟩ := h.helped name g hfound
      simp [Entry.placed?, hfirst]
    · simp [Entry.placed?, Entry.helped?, hkey]
  · rw [hdraft]
    exact h.keys

/-- A helper that is new gets an entry of its own. Its name is free: neither a procedure nor another
helper stands there. -/
theorem Accounts.edit_helper_new (h : Accounts w j) {name : String} {text : String → String}
    (hhelper : StandardHelper w name text) (hnew : j.draft.helpers.find? name = none) :
    Accounts w (j.edit (.helper name text)) := by
  obtain ⟨past, hpast⟩ := h.names
  have hproper : ProperEdit w j.entries (.helper name text) := hhelper
  obtain ⟨g, d, heq, hhelpers, hfunctions⟩ : ∃ (g : String) (d : Draft),
      j.draft.apply (.helper name text) = (g, d) ∧ d.helpers = j.draft.helpers.insert name g ∧
        d.functions = (j.draft.functions.insert name (text g) false).2 :=
    ⟨_, _, Draft.helper_of_find?_eq_none hnew text, rfl, rfl⟩
  have hedit : j.edit (.helper name text) = ⟨d, j.entries ++ [.edited (.helper name text) g]⟩ := by
    rw [Journal.edit, heq]
  have hfirst := h.firstHelped?_eq_none hnew
  have hplaced := h.lastPlaced?_eq_none hhelper
  refine ⟨hpast.edit _, fun _ _ => h.proper_edit hproper, fun _ _ => h.coded_edit, ?_, ?_, ?_, ?_⟩
  · intro name' text' f hmem
    rw [hedit] at hmem ⊢
    rw [hhelpers, SortedMap.find?_insert]
    rcases List.mem_append.mp hmem with hold | hlast
    · have hold := h.asked name' text' f hold
      rw [if_neg]
      · exact hold
      · rintro rfl
        rw [hnew] at hold
        cases hold
    · cases List.mem_singleton.mp hlast
      exact if_pos rfl
  · intro name' f hf
    rw [hedit] at hf ⊢
    rw [hhelpers, SortedMap.find?_insert] at hf
    split at hf
    next hname =>
        subst hname
        cases hf
        refine ⟨text, by simp, ?_⟩
        rw [firstHelped?_append, hfirst, Option.none_or]
        exact if_pos rfl
    next => exact h.helped_append _ hf
  · intro key
    rw [hedit]
    rw [hfunctions, Bucket.get?_insert, lastPlaced?_append, firstHelped?_append, h.functions key,
      h.functions name]
    by_cases hkey : key = name
    · subst hkey
      simp [Entry.placed?, Entry.helped?, hfirst, hplaced]
    · simp [Entry.placed?, Entry.helped?, hkey, Ne.symm hkey]
  · rw [hedit, hfunctions]
    exact Bucket.nodup_keys_insert h.keys _ _ _

theorem Accounts.edit (h : Accounts w j) {e : Edit} (he : ProperEdit w j.entries e) :
    Accounts w (j.edit e) := by
  obtain hplain | ⟨f, text, rfl, hdefines⟩ | ⟨name, text, rfl, hhelper⟩ := he.cases
  · exact h.edit_plain hplain
  · exact h.edit_define hdefines
  · cases hfound : j.draft.helpers.find? name with
    | some g => exact h.edit_helper_known hhelper hfound
    | none => exact h.edit_helper_new hhelper hfound

theorem Accounts.note_coded (h : Accounts w j) {n : Node} {code : Code}
    (hcode : CallsHelper w n j.entries code) : Accounts w (j.note (.coded n code)) := by
  have hsub : j.entries ⊆ (j.note (.coded n code)).entries := List.subset_append_left _ _
  have hedited {e : Edit} {answer : e.Answer}
      (hmem : .edited e answer ∈ (j.note (.coded n code)).entries) :
      .edited e answer ∈ j.entries := by
    simpa [note] using hmem
  obtain ⟨past, hpast⟩ := h.names
  refine ⟨⟨past, hpast.unchanged rfl rfl fun _ _ _ => hedited⟩, ?_, ?_, ?_, ?_, ?_, h.keys⟩
  · exact fun e answer hmem => lasting_properEdit w hsub (h.proper e answer (hedited hmem))
  · intro n' code' hmem
    refine lasting_callsHelper w n' hsub ?_
    rcases List.mem_append.mp hmem with hold | hnew
    · exact h.coded n' code' hold
    · cases List.mem_singleton.mp hnew
      exact hcode
  · exact fun name text f hmem => h.asked name text f (hedited hmem)
  · exact fun name f hf => h.helped_append _ hf
  · intro key
    rw [note, lastPlaced?_append, firstHelped?_append]
    simpa [Entry.placed?, Entry.helped?] using h.functions key

theorem upheld_accounts (w : Workspace) :
    Upheld (ProperEdit w) (CallsHelper w) (Accounts w) where
  edit _ _ h he := h.edit he
  coded _ _ _ h hcode := h.note_coded hcode

end Journal

/-- After every run that ends well, the functions of the draft are those that the journal tells. -/
theorem Registry.accounts_journalProgram {w : Workspace} {ds : Diagnostics} {body : String}
    {j : Journal}
    (h : (journalProgram standard.get? w).run.run { draft := { diagnostics := ds } } =
      (.ok body, j)) :
    j.Accounts w := by
  have hproper (past : List Entry) (e : Edit) (he : e.IsPlain) : ProperEdit w past e := he.proper
  exact triple_journalProgram (lasting_properEdit w) (lasting_callsHelper w)
    (Journal.upheld_accounts w) (fun n hn b hb => standard_gives hn hb)
    ((Recipe.plain_program w []).mono hproper fun _ _ h => h) _ body j
    (Journal.accounts_start w ds) h

end BlockSketch
