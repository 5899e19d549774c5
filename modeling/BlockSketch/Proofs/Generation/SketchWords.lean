import BlockSketch.Proofs.Block.Wording
import BlockSketch.Proofs.Generation.Accounts
import BlockSketch.Proofs.Generation.MainFunctions
import BlockSketch.Proofs.Program.ExecutionOrder

/-!
The words of a sketch over a whole run. A lexicon that knows all nodes of a program and has the
identifiers that were told in a run covers what the run has written: codes, fragments, and in the
end the sketch. So every word of a sketch that may be an identifier is in the vocabulary, or the
program supplies it, or it was told. An identifier that was told is the answer of a table of names
to what was asked for in the run.
-/

namespace BlockSketch

open Block Identifier Text Lexicon

/-! ### Sketches from covered fragments -/

namespace Lexicon

variable {L : Lexicon}

theorem stops_block {separator : String} (hseparator : separates separator = true)
    {texts : List String} (h : ∀ text ∈ texts, L.Covers text) :
    L.Stops (Sections.block separator texts) := by
  simp only [Sections.block]
  split
  · exact stops_of_ownWords rfl rfl
  · refine (stops_append_separates rfl).mpr (covers_intercalate hseparator fun text htext => ?_)
    obtain ⟨whole, hwhole, rfl⟩ := List.mem_map.mp (List.mem_filter.mp htext).1
    exact covers_trimLineEnds.mpr (h whole hwhole)

theorem stops_bodyText {text : String} (h : L.Covers text) : L.Stops (Sections.bodyText text) := by
  unfold Sections.bodyText
  split
  · exact stops_of_ownWords rfl rfl
  · refine stops_join fun piece hpiece => ?_
    obtain ⟨line, hline, rfl⟩ := List.mem_map.mp hpiece
    have hcovers := covers_iff_forall_lines.mp (covers_trimLineEnds.mpr h) line hline
    unfold Sections.bodyLine
    split
    · exact stops_of_ownWords rfl rfl
    · exact (stops_append_separates rfl).mpr ((covers_opens_append rfl).mpr hcovers)

theorem stops_function {name : String} (hname : ownWords name = true) {texts : List String}
    (h : ∀ text ∈ texts, L.Covers text) : L.Stops (Sections.function name texts) := by
  have hbody : L.Stops (String.join (texts.map Sections.bodyText)) := by
    refine stops_join fun piece hpiece => ?_
    obtain ⟨text, htext, rfl⟩ := List.mem_map.mp hpiece
    exact stops_bodyText (h text htext)
  rw [Sections.function, stops_append_separates (by decide)]
  simp (disch := decide) [covers_of_ownWords hname, hbody.covers]

theorem mem_texts_of_mem_textsWithLast {b : Bucket} {key text : String}
    (h : text ∈ b.textsWithLast key) : text ∈ b.texts := by
  rcases List.mem_append.mp h with h | h
  · obtain ⟨e, he, rfl⟩ := List.mem_map.mp h
    exact List.mem_map_of_mem (List.mem_filter.mp he).1
  · obtain ⟨before, after, heq, -⟩ := List.lookup_eq_some_iff.mp (Option.mem_toList.mp h)
    exact List.mem_map.mpr ⟨(key, text), by rw [heq]; simp, rfl⟩

theorem stops_assemble {s : Sections} (h : ∀ sec, ∀ text ∈ (s.get sec).texts, L.Covers text)
    {body : String} (hbody : L.Covers body) : L.Stops (s.assemble body) := by
  have hsetup : L.Stops (Sections.function "setup" s.setupTexts) :=
    stops_function (by decide) fun text htext =>
      h .setups text (mem_texts_of_mem_textsWithLast htext)
  have hloop : L.Stops (Sections.function "loop" (s.loopTexts body)) := by
    refine stops_function (by decide) (List.forall_mem_append.mpr ⟨?_, by simpa using hbody⟩)
    exact List.forall_mem_append.mpr ⟨h .loopStarts, fun text htext =>
      h .loops text (mem_texts_of_mem_textsWithLast htext)⟩
  have hpreamble : L.Stops s.preamble := by
    have hincludes : L.Stops (Sections.block "\n" s.includes.texts.eraseDups) :=
      stops_block rfl fun text htext => h .includes text (List.mem_eraseDups.mp htext)
    exact ((hincludes.append (stops_block rfl (h .declarations))).append
      (stops_block rfl (h .globals))).append (stops_block rfl (h .functions))
  exact ((hpreamble.append hsetup).append (stops_of_ownWords rfl rfl)).append hloop

end Lexicon

/-! ### What has been told -/

def Entry.told? : Entry → Option String
  | .edited e answer => e.told? answer
  | .coded _ _ => none

/-- The identifiers that have been told. -/
def toldIdentifiers (past : List Entry) : List String := past.filterMap Entry.told?

theorem toldIdentifiers_subset {past past' : List Entry} (h : past ⊆ past') :
    toldIdentifiers past ⊆ toldIdentifiers past' :=
  List.filterMap_subset _ h

namespace Lexicon

variable {L : Lexicon} {w : Workspace} {past past' : List Entry}

def CoversCode (L : Lexicon) : Code → Prop
  | .value e => L.Covers e.text
  | .statement text => L.Stops text

/-- A lexicon covers all identifiers that have been told and all codes that have been made. -/
structure Admits (L : Lexicon) (past : List Entry) : Prop where
  told : ∀ x ∈ toldIdentifiers past, L.Covers x
  coded : ∀ n code, .coded n code ∈ past → L.CoversCode code

def KnowsAll (L : Lexicon) (p : Program) : Prop := ∀ n ∈ p.nodes, L.Knows n

theorem Admits.of_subset (h : L.Admits past') (hsub : past ⊆ past') : L.Admits past where
  told x hx := h.told x (toldIdentifiers_subset hsub hx)
  coded n code hcode := h.coded n code (hsub hcode)

theorem covers_wrapped {e : Expression} (h : L.Covers e.text) (required : Precedence) :
    L.Covers (e.wrapped required).text := by
  unfold Expression.wrapped
  split
  · simpa (disch := decide) [Expression.atomic] using h
  · exact h

theorem Admits.covers_of_valueTold (h : L.Admits past) {child : Option NodeId}
    {required : Precedence} {fallback : String} (hfallback : L.Covers fallback) {e : Expression}
    (htold : w.ValueTold past child required fallback e) : L.Covers e.text := by
  cases child with
  | none =>
      obtain rfl := htold
      exact hfallback
  | some id =>
      obtain ⟨n, e', -, hcode, rfl⟩ := htold
      split
      · exact hfallback
      · exact covers_wrapped (h.coded n _ hcode) required

theorem stops_asStatement {code : Code} (h : L.CoversCode code) : L.Stops code.asStatement := by
  cases code with
  | statement text => exact h
  | value e =>
      change L.Stops (Workspace.nakedValue e.text)
      unfold Workspace.nakedValue
      split
      · exact stops_of_ownWords rfl rfl
      · exact (stops_append_separates rfl).mpr h

theorem stops_commentsFrom {p : Program} (h : L.KnowsAll p) (depth : Nat) (id : NodeId) :
    L.Stops (p.commentsFrom depth id) := by
  induction depth generalizing id with
  | zero => exact stops_of_ownWords rfl rfl
  | succ depth ih =>
      rw [Program.commentsFrom]
      split
      next => exact stops_of_ownWords rfl rfl
      next n hn =>
          refine (Procedures.stops_commentText (h n (Program.mem_of_find? hn))).append ?_
          refine stops_join fun text htext => ?_
          obtain ⟨child, -, rfl⟩ := List.mem_map.mp htext
          exact ih child

theorem stops_commented (h : L.KnowsAll w.program) {n : Node} (hn : n ∈ w.program.nodes)
    {text : String} (htext : L.Stops text) : L.Stops (w.commented n text) := by
  have hcomments : L.Stops (w.commentsBefore n) := by
    unfold Workspace.commentsBefore
    split
    · exact stops_of_ownWords rfl rfl
    · refine (Procedures.stops_commentText (h n hn)).append (stops_join fun text htext => ?_)
      obtain ⟨child, -, rfl⟩ := List.mem_map.mp htext
      exact stops_commentsFrom h _ child
  unfold Workspace.commented
  split
  · exact stops_of_ownWords rfl rfl
  · exact hcomments.append htext

theorem Admits.stops_of_chainTold (h : L.Admits past) (hknows : L.KnowsAll w.program)
    {head : Option NodeId} {text : String} (htold : w.ChainTold past head text) : L.Stops text := by
  obtain ⟨pieces, hpieces, rfl⟩ := htold
  have hnodes : ∀ n ∈ w.program.chain head, n ∈ w.program.nodes := by
    intro n hn
    cases head with
    | none => simp [Program.chain, Program.chainFrom_none] at hn
    | some id => exact Program.mem_of_find? (Program.mem_chainFrom hn).1
  refine stops_join fun piece hpiece => ?_
  obtain ⟨i, hi, rfl⟩ := List.getElem_of_mem hpiece
  have hlength := hpieces.length_eq
  obtain ⟨code, hcode, heq⟩ := hpieces.get (hlength ▸ hi) hi
  simp only [List.get_eq_getElem] at heq
  rw [heq]
  exact stops_commented hknows (hnodes _ (List.getElem_mem _))
    (stops_asStatement (h.coded _ code hcode))

end Lexicon

/-! ### Recipes under a journal -/

section Run

variable {w : Workspace}

/-- An edit is covered by every lexicon that admits what has been told. -/
def ProperWording (w : Workspace) (past : List Entry) (e : Edit) : Prop :=
  ∀ L : Lexicon, L.KnowsAll w.program → L.Admits past → e.WrittenIn L

def SuitableWording (w : Workspace) (past : List Entry) (code : Code) : Prop :=
  ∀ L : Lexicon, L.KnowsAll w.program → L.Admits past → L.CoversCode code

/-- A recipe that writes in every lexicon tells covered texts in every journal. -/
theorem Recipe.tells_of_writesIn {α : Type} {post : Lexicon → α → Prop} {r : Recipe α}
    {past : List Entry}
    (h : ∀ L : Lexicon, L.KnowsAll w.program → L.Admits past → r.WritesIn L (post L)) :
    r.Tells w (ProperWording w)
      (fun past a => ∀ L : Lexicon, L.KnowsAll w.program → L.Admits past → post L a) past := by
  induction r generalizing past with
  | done a => exact h
  | value child required fallback next ih =>
      intro past' e hsub htold
      refine ih e fun L hknows hadmits => ?_
      obtain ⟨hfallback, hnext⟩ := h L hknows (hadmits.of_subset hsub)
      exact hnext e (hadmits.covers_of_valueTold hfallback htold)
  | chain head next ih =>
      intro past' text hsub htold
      refine ih text fun L hknows hadmits => ?_
      exact h L hknows (hadmits.of_subset hsub) text (hadmits.stops_of_chainTold hknows htold)
  | edit e next ih =>
      refine ⟨fun L hknows hadmits => (h L hknows hadmits).1, fun answer => ih answer ?_⟩
      intro L hknows hadmits
      refine (h L hknows (hadmits.of_subset (List.subset_append_left _ _))).2 answer fun x hx => ?_
      exact hadmits.told x (List.mem_filterMap.mpr
        ⟨_, List.mem_append_right _ List.mem_cons_self, hx⟩)

theorem Form.tells_of_writesIn {f : Form} {n : Node}
    (h : ∀ L : Lexicon, L.KnowsAll w.program → f.WritesIn L w n) :
    f.Tells w (ProperWording w) (SuitableWording w) n := by
  cases f with
  | value recipe => exact fun past => Recipe.tells_of_writesIn fun L hknows _ => h L hknows
  | statement recipe => exact fun past => Recipe.tells_of_writesIn fun L hknows _ => h L hknows

theorem Recipe.writesIn_declareVariables (L : Lexicon) (w : Workspace) :
    (declareVariables w).WritesIn L (fun _ => True) := by
  refine writesIn_forM fun name _ => ?_
  simp (disch := decide) [toString]

/-! ### Runs -/

theorem Bucket.mem_texts_of_insert {b : Bucket} {key text text' : String} {overwrite : Bool}
    (h : text' ∈ (b.insert key text overwrite).2.texts) : text' = text ∨ text' ∈ b.texts := by
  unfold Bucket.insert at h
  split at h
  · split at h
    · obtain ⟨e, he, rfl⟩ := List.mem_map.mp h
      obtain ⟨e', he', rfl⟩ := List.mem_map.mp he
      split
      · exact .inl rfl
      · exact .inr (List.mem_map_of_mem he')
    · exact .inr h
  · obtain ⟨e, he, rfl⟩ := List.mem_map.mp h
    rcases List.mem_append.mp he with he | he
    · exact .inr (List.mem_map_of_mem he)
    · exact .inl (congrArg Prod.snd (List.mem_singleton.mp he))

def Sections.CoveredBy (s : Sections) (L : Lexicon) : Prop :=
  ∀ sec, ∀ text ∈ (s.get sec).texts, L.Covers text

theorem Sections.CoveredBy.insert {s : Sections} {L : Lexicon} (h : s.CoveredBy L) {text : String}
    (htext : L.Covers text) (sec : Section) (key : String) (overwrite : Bool) :
    (s.insert sec key text overwrite).2.CoveredBy L := by
  intro sec' text' hmem
  by_cases hsec : sec' = sec
  · subst hsec
    rw [Sections.insert, Sections.get_set_self] at hmem
    rcases Bucket.mem_texts_of_insert hmem with rfl | hmem
    · exact htext
    · exact h sec' text' hmem
  · rw [Sections.insert, Sections.get_set_of_ne _ _ hsec] at hmem
    exact h sec' text' hmem

/-- What an edit puts into the sections is covered, if the identifier that it tells is. -/
theorem Draft.coveredBy_apply {d : Draft} {L : Lexicon} (h : d.sections.CoveredBy L) {e : Edit}
    (he : e.WrittenIn L) (htold : ∀ x ∈ e.told? (d.apply e).1, L.Covers x) :
    (d.apply e).2.sections.CoveredBy L := by
  cases e with
  | place sec key text overwrite => exact h.insert he sec key overwrite
  | helper name body =>
      cases hfound : d.helpers.find? name with
      | some f =>
          rw [Draft.apply, Draft.helper_of_find? hfound]
          exact h
      | none =>
          rw [Draft.apply, Draft.helper_of_find?_eq_none hfound] at htold ⊢
          exact h.insert (he _ (htold _ rfl)) .functions name false
  | identifier name ns => exact h
  | freshVariable name => exact h
  | claim node pin usage label => exact h
  | report node concern message => cases message <;> exact h

/-- A lexicon that covers what has been told in a journal covers all that has been written. -/
def Journal.Worded (w : Workspace) (j : Journal) : Prop :=
  ∀ L : Lexicon, L.KnowsAll w.program → (∀ x ∈ toldIdentifiers j.entries, L.Covers x) →
    L.Admits j.entries ∧ j.draft.sections.CoveredBy L

theorem Journal.Worded.earlier {j : Journal} (h : j.Worded w) {L : Lexicon}
    (hknows : L.KnowsAll w.program) {later : List Entry}
    (htold : ∀ x ∈ toldIdentifiers (j.entries ++ later), L.Covers x) :
    L.Admits j.entries ∧ j.draft.sections.CoveredBy L :=
  h L hknows fun x hx => htold x (toldIdentifiers_subset (List.subset_append_left _ _) hx)

theorem upheld_worded (w : Workspace) :
    Upheld (ProperWording w) (fun _ => SuitableWording w) (Journal.Worded w) where
  edit j e hj hP L hknows htold := by
    obtain ⟨hadmits, hsections⟩ := hj.earlier hknows htold
    have hanswer : ∀ x ∈ e.told? (j.draft.apply e).1, L.Covers x := fun x hx =>
      htold x (List.mem_filterMap.mpr ⟨_, List.mem_append_right _ List.mem_cons_self, hx⟩)
    refine ⟨⟨htold, fun n code hcode => ?_⟩, ?_⟩
    · rcases List.mem_append.mp hcode with hcode | hcode
      · exact hadmits.coded n code hcode
      · cases List.mem_singleton.mp hcode
    · exact Draft.coveredBy_apply hsections (hP L hknows hadmits) hanswer
  coded j n code hj hQ L hknows htold := by
    obtain ⟨hadmits, hsections⟩ := hj.earlier hknows htold
    refine ⟨⟨htold, fun n' code' hcode => ?_⟩, hsections⟩
    rcases List.mem_append.mp hcode with hcode | hcode
    · exact hadmits.coded n' code' hcode
    · cases List.mem_singleton.mp hcode
      exact hQ L hknows hadmits

/-- A lexicon that knows all nodes of a program and covers what was told in its run covers its
sketch. -/
theorem Registry.Ran.covers_source {p : Program} {board : Board} {header : Bool} {c : Compiled}
    {places : ParentIndex} {body : String} {j : Journal}
    (h : standard.Ran p board header c places body j) {L : Lexicon} (hknows : L.KnowsAll p)
    (htold : ∀ x ∈ toldIdentifiers j.entries, L.Covers x) : L.Covers (j.draft.source body) := by
  let w : Workspace := ⟨p, places, c.types, board⟩
  have hstart : ({ draft := { diagnostics := (standard.inferTypes p).diagnostics } } :
      Journal).Worded w := by
    refine fun L _ htold => ⟨⟨htold, fun n code hcode => ?_⟩, fun sec text htext => ?_⟩
    · cases hcode
    · cases sec <;> cases htext
  have hblock : ∀ n ∈ p.nodes, ∀ b, standard.get? n.kind = some b →
      b.form.Tells w (ProperWording w) (SuitableWording w) n := fun n hn b hb =>
    Form.tells_of_writesIn fun L hknows => standard_writesIn (hknows n hn) hb
  have hvariables (past : List Entry) :
      (Recipe.declareVariables w).Tells w (ProperWording w) (fun _ _ => True) past :=
    (Recipe.tells_of_writesIn fun L _ _ => Recipe.writesIn_declareVariables L w).mono
      fun _ _ _ _ => trivial
  obtain ⟨hworded, -, texts, htexts, rfl⟩ :=
    leads_journalProgram (upheld_worded w) hblock hvariables hstart body j h.run
  obtain ⟨hadmits, hsections⟩ := hworded L hknows htold
  refine (stops_assemble hsections (stops_join fun text htext => ?_).1).1
  obtain ⟨i, hi, rfl⟩ := List.getElem_of_mem htext
  exact hadmits.stops_of_chainTold hknows (htexts.get (htexts.length_eq ▸ hi) hi)

end Run

/-! ### Where told identifiers come from -/

def Entry.call? : Entry → Option Call
  | .edited e _ => e.call?
  | .coded _ _ => none

def askedCalls (past : List Entry) : List Call := past.filterMap Entry.call?

namespace Journal

/-- The identifiers that were told, and those of helpers, are the answers of a table to calls that
were asked for. -/
structure Answered (calls : List Call) (j : Journal) : Prop where
  names : j.draft.names = NameTable.empty.after calls
  asked : calls ⊆ askedCalls j.entries
  told : ∀ x ∈ toldIdentifiers j.entries,
    ∃ a ∈ NameTable.empty.answers calls, a.identifier = x
  helped : ∀ name x, j.draft.helpers.find? name = some x →
    ∃ a ∈ NameTable.empty.answers calls, a.identifier = x

variable {calls : List Call} {j : Journal}

theorem toldIdentifiers_edit (j : Journal) (e : Edit) :
    toldIdentifiers (j.edit e).entries =
      toldIdentifiers j.entries ++ (e.told? (j.draft.apply e).1).toList := by
  rw [toldIdentifiers, edit, List.filterMap_append]
  rfl

theorem askedCalls_edit (j : Journal) (e : Edit) :
    askedCalls (j.edit e).entries = askedCalls j.entries ++ e.call?.toList := by
  rw [askedCalls, edit, List.filterMap_append]
  rfl

theorem Answered.edit (h : j.Answered calls) (e : Edit) :
    ∃ calls', (j.edit e).Answered calls' := by
  rcases j.draft.apply_cases e with
    ⟨hnames, hhelpers, -, htold⟩ | ⟨c, hcall, hnames, htold, hhelpers⟩
  · refine ⟨calls, hnames.trans h.names, ?_, ?_, fun name x hx => ?_⟩
    · rw [askedCalls_edit]
      exact List.Subset.trans h.asked (List.subset_append_left _ _)
    · rw [toldIdentifiers_edit]
      refine List.forall_mem_append.mpr ⟨h.told, fun x hx => ?_⟩
      obtain ⟨name, hname⟩ := htold x (Option.mem_toList.mp hx)
      exact h.helped name x hname
    · exact h.helped name x (hhelpers ▸ hx)
  · rw [h.names] at hnames htold hhelpers
    have hmore : NameTable.empty.answers (calls ++ [c]) = _ := NameTable.answers_append _ calls c
    have hold {x : String} (hx : ∃ a ∈ NameTable.empty.answers calls, a.identifier = x) :
        ∃ a ∈ NameTable.empty.answers (calls ++ [c]), a.identifier = x := by
      obtain ⟨a, ha, heq⟩ := hx
      exact ⟨a, hmore ▸ List.mem_append_left _ ha, heq⟩
    have hlast : ((NameTable.empty.after calls).answer c).1 ∈
        NameTable.empty.answers (calls ++ [c]) := by
      rw [hmore]
      exact List.mem_append_right _ (List.mem_singleton_self _)
    refine ⟨calls ++ [c], ?_, ?_, ?_, fun name x hx => ?_⟩
    · rw [NameTable.after_append]
      exact hnames
    · rw [askedCalls_edit, hcall]
      exact List.append_subset.mpr
        ⟨List.Subset.trans h.asked (List.subset_append_left _ _), List.subset_append_right _ _⟩
    · rw [toldIdentifiers_edit, htold]
      refine List.forall_mem_append.mpr ⟨fun x hx => hold (h.told x hx), fun x hx => ?_⟩
      exact ⟨_, hlast, (List.mem_singleton.mp hx).symm⟩
    · rcases hhelpers name x hx with hx | ⟨-, hx⟩
      · exact hold (h.helped name x hx)
      · exact ⟨_, hlast, hx⟩

theorem upheld_answered :
    Upheld (fun _ _ => True) (fun _ _ _ => True) (fun j => ∃ calls, j.Answered calls) where
  edit j e hj _ := by
    obtain ⟨calls, h⟩ := hj
    exact h.edit e
  coded j n code hj _ := by
    obtain ⟨calls, h⟩ := hj
    refine ⟨calls, h.names, ?_, ?_, h.helped⟩
    · exact List.Subset.trans h.asked (List.filterMap_subset _ (List.subset_append_left _ _))
    · intro x hx
      refine h.told x ?_
      simpa [toldIdentifiers, note, Entry.told?] using hx

end Journal

theorem Registry.Ran.exists_answered {r : Registry} {p : Program} {board : Board} {header : Bool}
    {c : Compiled} {places : ParentIndex} {body : String} {j : Journal}
    (h : r.Ran p board header c places body j) : ∃ calls, j.Answered calls := by
  have hstart : ({ draft := { diagnostics := (r.inferTypes p).diagnostics } } :
      Journal).Answered [] := by
    refine ⟨rfl, List.Subset.refl _, fun x hx => ?_, fun name x hx => ?_⟩
    · cases hx
    · cases hx
  exact (leads_journalProgram Journal.upheld_answered (fun n _ b _ => b.form.tells_trivial _ n)
    (fun past => Recipe.tells_trivial _ _ past) ⟨[], hstart⟩ body j h.run).1

end BlockSketch
