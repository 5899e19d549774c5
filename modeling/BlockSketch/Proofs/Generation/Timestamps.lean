import BlockSketch.Proofs.Expression.Printing
import BlockSketch.Proofs.Generation.GlobalObjects

/-!
The times of statements that run at intervals. The variable for the time is asked of the table of
names, by a name that ends with the text of the interval. The table tells names apart up to case
only, and it is the table of the variables too. So two statements share their time exactly if their
intervals agree up to case, and a time is a variable of the user as well if the name of that
variable is the name for the time up to case.
-/

namespace BlockSketch

open Block

/-! ### Variables that are listed -/

/-- A recipe for each member of a list does its work for each of them. -/
theorem Recipe.gives_forM_each {β : Type} {P : List Entry → Edit → Prop} {l : List β}
    {f : β → Recipe Unit} {R : List Entry → β → Prop} (hR : Lasting R)
    (hf : ∀ b ∈ l, ∀ past, (f b).Gives P (fun past' _ => R past' b) past) (past : List Entry) :
    (l.forM f).Gives P (fun past' _ => ∀ b ∈ l, R past' b) past := by
  induction l generalizing past with
  | nil => exact fun b hb => (List.not_mem_nil hb).elim
  | cons b rest ih =>
      obtain ⟨hhead, htail⟩ := List.forall_mem_cons.mp hf
      refine gives_bind.mpr ((hhead past).mono (fun _ _ hP => hP) fun past' _ hb => ?_)
      refine (ih htail past').grows.mono (fun _ _ hP => hP) fun past'' _ hrest => ?_
      exact List.forall_mem_cons.mpr ⟨hR hrest.1 hb, hrest.2⟩

/-- Every listed variable is asked for. -/
theorem Recipe.gives_told_declareVariables (w : Workspace) (past : List Entry) :
    (declareVariables w).Gives (fun _ _ => True) (fun past _ => ∀ v ∈ w.program.variableNames,
      ∃ x, .edited (.identifier v .variable) x ∈ past) past := by
  refine gives_forM_each (fun _ _ _ hsub ⟨x, hx⟩ => ⟨x, hsub hx⟩) (fun v _ past => ?_) past
  simp only [bind_eq, gives_bind, gives_variableName, gives_offer]
  refine ⟨trivial, fun x => ⟨trivial, fun stored => ⟨x, ?_⟩⟩⟩
  exact List.mem_append_left _ (List.mem_append_right _ List.mem_cons_self)

/-! ### Intervals and times -/

/-- A code at intervals of which the time of the last run is kept in a variable. -/
def Block.Time.pacedText (unit interval stamp inner : String) : String :=
  withBody s!"if ({clockOf unit} - {stamp} >= {ticksOf unit interval})"
    (s!"  {stamp} = {clockOf unit};\n" ++ Text.leadLines "  " inner) ++ "\n"

/-- What the code of a statement at intervals tells: its interval, what is inside, and the variable
for its time, which is declared. -/
def Block.Time.PacedTold (w : Workspace) (n : Node) (past : List Entry) (code : Code) : Prop :=
  ∃ (interval : Expression) (inner stamp : String),
    w.ValueTold past (n.child? "DELAY_TIME") .multiplicative "0" interval ∧
    w.ChainTold past (n.head? "branche") inner ∧
    .edited (.identifier ("temps" ++ interval.text) .variable) stamp ∈ past ∧
    ⟨declarationKey stamp, "long " ++ stamp ++ " = 0;", false⟩ ∈ placements .declarations past ∧
    code = .statement (pacedText (n.fieldD "unite" "ms") interval.text stamp inner)

theorem Block.Time.lasting_pacedTold (w : Workspace) (n : Node) : Lasting (PacedTold w n) := by
  intro past past' code hsub h
  obtain ⟨interval, inner, stamp, hinterval, hinner, hstamp, hplaced, hcode⟩ := h
  exact ⟨interval, inner, stamp, hinterval.mono hsub, hinner.mono hsub, hsub hstamp,
    placements_subset hsub hplaced, hcode⟩

theorem Block.Time.tells_pacedTold {w : Workspace} {n : Node} (past : List Entry) :
    (atIntervals n).Tells w (fun _ _ => True)
      (fun past text => PacedTold w n past (.statement text)) past := by
  refine Recipe.tells_bind.mpr (tells_requiredSocket (fun _ _ _ _ => trivial)
    fun past₁ interval _ hinterval => ?_)
  refine Recipe.tells_bind.mpr (Recipe.tells_bind.mpr fun past₂ inner hsub hinner => ?_)
  refine Recipe.tells_bind.mpr ⟨trivial, fun stamp => Recipe.tells_bind.mpr
    ⟨trivial, fun stored => ?_⟩⟩
  refine ⟨interval, inner, stamp, ?_, ?_, ?_,
    mem_placements_edited .declarations ⟨_, _, false⟩ _ stored, rfl⟩
  · exact ((hinterval.mono hsub).mono (List.subset_append_left _ _)).mono
      (List.subset_append_left _ _)
  · exact (hinner.mono (List.subset_append_left _ _)).mono (List.subset_append_left _ _)
  · exact List.mem_append_left _ (List.mem_append_right _ List.mem_cons_self)

/-- A journal without repeated codes tells one value for a socket. -/
theorem Workspace.ValueTold.unique {w : Workspace} {told : List Entry}
    (h : (codedIds told).Nodup) {child : Option NodeId} {required : Precedence} {fallback : String}
    {e e' : Expression} (he : w.ValueTold told child required fallback e)
    (he' : w.ValueTold told child required fallback e') : e = e' := by
  cases child with
  | none => exact he.trans he'.symm
  | some id =>
      obtain ⟨n, value, hn, hcode, rfl⟩ := he
      obtain ⟨n', value', hn', hcode', rfl⟩ := he'
      obtain rfl := Option.some.inj (hn.symm.trans hn')
      obtain rfl := Code.value.inj (code_unique h hcode hcode')
      rfl

/-- A statement was emitted at intervals with a text, and the time of its last run is kept in a
variable that is declared. -/
structure Workspace.KeepsTime (w : Workspace) (j : Journal) (n : Node) (interval stamp : String) :
    Prop where
  waits : ∃ e, w.ValueTold j.entries (n.child? "DELAY_TIME") .multiplicative "0" e ∧
    e.text = interval
  told : j.Told ("temps" ++ interval) stamp
  declared : j.Declares (.stamp stamp)
  coded : ∃ inner, w.ChainTold j.entries (n.head? "branche") inner ∧
    .coded n (.statement (Time.pacedText (n.fieldD "unite" "ms") interval stamp inner)) ∈ j.entries

section Run

variable {p : Program} {board : Board} {header : Bool} {c : Compiled} {places : ParentIndex}
  {body : String} {j : Journal}

theorem Registry.Ran.told_listed {r : Registry} (h : r.Ran p board header c places body j)
    {v : String} (hv : v ∈ p.variableNames) : ∃ x, j.Told v x := by
  let w : Workspace := ⟨p, places, c.types, board⟩
  let post (past : List Entry) (_ : String) : Prop :=
    ∀ v ∈ p.variableNames, ∃ x, .edited (.identifier v .variable) x ∈ past
  have hpost : Lasting post := fun _ _ _ hsub hnames v hv => (hnames v hv).imp fun _ hx => hsub hx
  have hprogram : (do
      Recipe.declareVariables w
      Recipe.programBody w).Gives (fun _ _ => True) post [] := by
    refine Recipe.gives_bind.mpr ((Recipe.gives_told_declareVariables _ []).mono
      (fun _ _ h => h) fun past _ hnames => ?_)
    exact (Recipe.gives_trivial _ past).grows.mono (fun _ _ h => h) fun past' body hsub =>
      hpost (a := body) hsub.1 hnames
  have hupheld : Upheld (fun _ _ => True) (fun _ _ _ => True) (fun _ => True) :=
    ⟨fun _ _ _ _ => trivial, fun _ _ _ _ _ => trivial⟩
  have hrun := Recipe.triple_journal (w := w) (fun _ _ _ _ h => h) hupheld hpost hprogram
    fun past n hn => triple_journalNode (fun _ _ _ _ h => h) (fun _ _ _ _ _ h => h) hupheld
      (fun n _ b (_ : r.get? n.kind = some b) => b.form.gives_trivial w n) (p.size + 1) past
      hn
  exact (hrun _ body j ⟨trivial, List.nil_subset _⟩ h.run).2 v hv

/-- What is placed for a time stands in the end. -/
theorem Registry.Ran.declares_stamp (h : standard.Ran p board header c places body j)
    {interval x : String} (htold : j.Told ("temps" ++ interval) x)
    (hplaced : ⟨Time.declarationKey x, "long " ++ x ++ " = 0;", false⟩ ∈
      placements .declarations j.entries) : j.Declares (.stamp x) := by
  obtain ⟨q, hq, hstanding, -⟩ :=
    Placement.exists_standing? (Placement.mem_under.mpr ⟨hplaced, rfl⟩)
  have hget : j.draft.sections.declarations.get? (Time.declarationKey x) = some q.text :=
    (h.furnished.1.replays.get?_eq (by decide : Section.declarations ≠ _) _).trans hstanding
  rcases h.servo_or_stamp hget with ⟨-, -, -, v, -, hkey, -⟩ | ⟨x', -, hkey, htext⟩
  · exact absurd hkey.symm (declarationKey_ne v x)
  · obtain rfl : x = x' := (String.append_right_inj _).mp hkey
    exact .stamp htold (htext ▸ hget)

/-- Every emitted statement at intervals keeps its time. -/
theorem Registry.Ran.exists_keepsTime (h : standard.Ran p board header c places body j) {n : Node}
    {code : Code} (hcode : .coded n code ∈ j.entries) (hkind : n.kind = "tempo_no_delay") :
    ∃ interval stamp, Workspace.KeepsTime ⟨p, places, c.types, board⟩ j n interval stamp := by
  obtain ⟨interval, inner, stamp, hinterval, hinner, hstamp, hplaced, rfl⟩ :=
    h.suits_of_kind hcode hkind rfl (Time.lasting_pacedTold _) fun _ => Time.tells_pacedTold
  exact ⟨interval.text, stamp, ⟨interval, hinterval, rfl⟩, hstamp,
    h.declares_stamp hstamp hplaced, inner, hinner, hcode⟩

theorem Registry.Ran.keepsTime_unique (h : standard.Ran p board header c places body j) {n : Node}
    {i i' s s' : String} (hs : Workspace.KeepsTime ⟨p, places, c.types, board⟩ j n i s)
    (hs' : Workspace.KeepsTime ⟨p, places, c.types, board⟩ j n i' s') : i = i' ∧ s = s' := by
  obtain ⟨hforest, hplaces⟩ := Program.isForest_of_validate h.valid
  obtain ⟨past, hpast⟩ := (accounts_journalProgram h.run).names
  obtain ⟨e, he, rfl⟩ := hs.waits
  obtain ⟨e', he', rfl⟩ := hs'.waits
  obtain rfl := he.unique (nodup_codedIds standard_readsOnce hforest hplaces h.run) he'
  exact ⟨rfl, (hpast.told_eq_iff hs.told hs'.told).mpr rfl⟩

end Run

/-- In every program that compiles, each emitted statement at intervals has one text for its
interval and keeps its time in one variable, which is declared. Two of them keep it in the same
variable exactly if the names for their times, that is `temps` with the text of the interval behind
it, agree in lower case. Every listed variable has an identifier, and the identifier of a name is
the variable for a time exactly if the name and the name for the time agree in lower case. So equal
intervals share their time, but so do intervals that differ in case, and a variable of the user that
is called like a time is that time. -/
theorem timestamps_shared_up_to_case {p : Program} {board : Board} {header : Bool} {c : Compiled}
    (h : Registry.standard.compile p board header = .ok c) :
    ∃ places body j, Registry.standard.Ran p board header c places body j ∧
      let w : Workspace := ⟨p, places, c.types, board⟩
      (∀ n code, .coded n code ∈ j.entries → n.kind = "tempo_no_delay" →
        ∃ interval stamp, w.KeepsTime j n interval stamp ∧
          ∀ i s, w.KeepsTime j n i s → i = interval ∧ s = stamp) ∧
      (∀ n n' i i' s s', w.KeepsTime j n i s → w.KeepsTime j n' i' s' →
        (s = s' ↔ Text.lowercase ("temps" ++ i) = Text.lowercase ("temps" ++ i'))) ∧
      (∀ v ∈ p.variableNames, ∃ x, j.Told v x) ∧
      ∀ n i s v x, w.KeepsTime j n i s → j.Told v x →
        (x = s ↔ Text.lowercase v = Text.lowercase ("temps" ++ i)) := by
  obtain ⟨places, body, j, hran⟩ := Registry.exists_ran h
  obtain ⟨past, hpast⟩ := (Registry.accounts_journalProgram hran.run).names
  refine ⟨places, body, j, hran, fun n code hcode hkind => ?_, ?_,
    fun v hv => hran.told_listed hv, ?_⟩
  · obtain ⟨interval, stamp, hkeeps⟩ := hran.exists_keepsTime hcode hkind
    exact ⟨interval, stamp, hkeeps, fun i s hs => hran.keepsTime_unique hs hkeeps⟩
  · exact fun n n' i i' s s' hs hs' => hpast.told_eq_iff hs.told hs'.told
  · exact fun n i s v x hs hx => hpast.told_eq_iff hx hs.told

def pacedNode (id interval : NodeId) (next : Option NodeId) : Node :=
  { id, kind := "tempo_no_delay", values := [{ name := "DELAY_TIME", child := some interval }],
    next }

def nameNode (id : NodeId) (name : String) : Node :=
  { id, kind := "base_define_name", fields := .ofList [("NAME", name)] }

theorem fieldD_nameNode (id : NodeId) (name : String) :
    (nameNode id name).fieldD "NAME" "" = name := by
  simp [nameNode, Node.fieldD, Node.field?, SortedMap.ofList]

/-- A variable, and two statements one after the other at intervals that have names. -/
def paceSample (v first second : String) : Program where
  variableNames := [v]
  nodes :=
    [pacedNode ⟨1⟩ ⟨2⟩ (some ⟨3⟩), nameNode ⟨2⟩ first, pacedNode ⟨3⟩ ⟨4⟩ none, nameNode ⟨4⟩ second]
  topLevel := [⟨1⟩]

theorem inferTypes_paceSample (v first second : String) :
    (Registry.standard.inferTypes (paceSample v first second)).map = .empty := by
  apply Registry.inferTypes_of_mentions_eq_nil
  rw [Registry.mentions_standard]
  rfl

/-- A name for an interval is its text. -/
theorem Registry.Ran.code_of_name {p : Program} {board : Board} {header : Bool} {c : Compiled}
    {places : ParentIndex} {body : String} {j : Journal}
    (h : standard.Ran p board header c places body j) {n : Node} {code : Code}
    (hcode : .coded n code ∈ j.entries) (hkind : n.kind = "base_define_name") :
    code = .value (.atomic (n.fieldD "NAME" "")) :=
  h.suits_of_kind (Q := fun n _ code => code = .value (.atomic (n.fieldD "NAME" ""))) hcode hkind
    rfl (fun _ _ _ _ _ h => h) fun _ _ => rfl

section Sample

variable {v first second : String} {board : Board} {header : Bool} {c : Compiled}
  {places : ParentIndex} {body : String} {j : Journal}

/-- A statement at an interval that has a name keeps its time for that name. -/
theorem Registry.Ran.keepsTime_of_name {p : Program}
    (h : standard.Ran p board header c places body j) {n m : Node} {id : NodeId}
    {name : String} (hcoded : ∃ code, .coded n code ∈ j.entries) (hkind : n.kind = "tempo_no_delay")
    (hchild : n.child? "DELAY_TIME" = some id) (hfind : p.find? id = some m)
    (hnamed : m.kind = "base_define_name") (hname : m.fieldD "NAME" "" = name) (hne : name ≠ "") :
    ∃ s, Workspace.KeepsTime ⟨p, places, c.types, board⟩ j n name s := by
  obtain ⟨code, hcode⟩ := hcoded
  obtain ⟨interval, s, hkeeps⟩ := h.exists_keepsTime hcode hkind
  obtain ⟨e, he, rfl⟩ := hkeeps.waits
  rw [hchild] at he
  obtain ⟨m', e', hfind', hcode', rfl⟩ := he
  obtain rfl := Option.some.inj (hfind.symm.trans hfind')
  obtain rfl := Code.value.inj (h.code_of_name hcode' hnamed)
  rw [hname, Expression.wrapped_atomic, if_neg (by simpa [Expression.atomic] using hne)] at hkeeps
  exact ⟨s, hkeeps⟩

theorem Registry.Ran.keepsTime_paceSample
    (h : standard.Ran (paceSample v first second) board header c places body j)
    (hfirst : first ≠ "") (hsecond : second ≠ "") :
    (∃ s, Workspace.KeepsTime ⟨paceSample v first second, places, c.types, board⟩ j
      (pacedNode ⟨1⟩ ⟨2⟩ (some ⟨3⟩)) first s) ∧
    ∃ s, Workspace.KeepsTime ⟨paceSample v first second, places, c.types, board⟩ j
      (pacedNode ⟨3⟩ ⟨4⟩ none) second s := by
  obtain ⟨texts, htexts, -⟩ := h.furnished.2
  obtain ⟨text, rest, hchain, -, -⟩ := List.forall₂_cons_left_iff.mp htexts
  exact ⟨h.keepsTime_of_name (hchain.exists_coded (.head _)) rfl rfl rfl rfl
      (fieldD_nameNode _ _) hfirst,
    h.keepsTime_of_name (hchain.exists_coded (.tail _ (.head _))) rfl rfl rfl rfl
      (fieldD_nameNode _ _) hsecond⟩

end Sample

/-- Intervals with names of their own have times of their own, and neither is the variable. -/
theorem paceSample_times_apart :
    ∃ c places body j,
      Registry.standard.compile (paceSample "count" "SLOW" "FAST") .uno false = .ok c ∧
      Registry.standard.Ran (paceSample "count" "SLOW" "FAST") .uno false c places body j ∧
      ∃ s s' x, Workspace.KeepsTime ⟨paceSample "count" "SLOW" "FAST", places, c.types, .uno⟩ j
          (pacedNode ⟨1⟩ ⟨2⟩ (some ⟨3⟩)) "SLOW" s ∧
        Workspace.KeepsTime ⟨paceSample "count" "SLOW" "FAST", places, c.types, .uno⟩ j
          (pacedNode ⟨3⟩ ⟨4⟩ none) "FAST" s' ∧
        j.Told "count" x ∧ s ≠ s' ∧ x ≠ s ∧ x ≠ s' := by
  have hcompiles : ∃ c,
      Registry.standard.compile (paceSample "count" "SLOW" "FAST") .uno false = .ok c := by
    simp only [Registry.compile_eq_ok_iff, Registry.get?_standard]
    exact ⟨_, _, _, _, rfl, rfl, rfl⟩
  obtain ⟨c, hc⟩ := hcompiles
  obtain ⟨places, body, j, hran, -, hshared, hlisted, hvariables⟩ :=
    timestamps_shared_up_to_case hc
  obtain ⟨⟨s, hs⟩, s', hs'⟩ := hran.keepsTime_paceSample (by decide) (by decide)
  obtain ⟨x, hx⟩ := hlisted "count" List.mem_cons_self
  refine ⟨c, places, body, j, hc, hran, s, s', x, hs, hs', hx, ?_, ?_, ?_⟩
  · exact fun h => absurd ((hshared _ _ _ _ _ _ hs hs').mp h) (by decide +kernel)
  · exact fun h => absurd ((hvariables _ _ _ _ _ hs hx).mp h) (by decide +kernel)
  · exact fun h => absurd ((hvariables _ _ _ _ _ hs' hx).mp h) (by decide +kernel)

/-- Two intervals whose names differ in case have one time, and it is the variable, which is then
declared twice. -/
theorem paceSample_time_shared :
    ∃ c places body j,
      Registry.standard.compile (paceSample "tempsRATE" "RATE" "rate") .uno false = .ok c ∧
      Registry.standard.Ran (paceSample "tempsRATE" "RATE" "rate") .uno false c places body j ∧
      "RATE" ≠ "rate" ∧
      Workspace.KeepsTime ⟨paceSample "tempsRATE" "RATE" "rate", places, c.types, .uno⟩ j
        (pacedNode ⟨1⟩ ⟨2⟩ (some ⟨3⟩)) "RATE" "tempsRATE" ∧
      Workspace.KeepsTime ⟨paceSample "tempsRATE" "RATE" "rate", places, c.types, .uno⟩ j
        (pacedNode ⟨3⟩ ⟨4⟩ none) "rate" "tempsRATE" ∧
      j.Told "tempsRATE" "tempsRATE" ∧
      j.draft.sections =
        { declarations := ⟨[("temporisation_tempsRATE", "long tempsRATE = 0;")]⟩
          globals := ⟨[("tempsRATE", "int tempsRATE;")]⟩ } := by
  have hcompiles : ∃ c,
      Registry.standard.compile (paceSample "tempsRATE" "RATE" "rate") .uno false = .ok c := by
    simp only [Registry.compile_eq_ok_iff, Registry.get?_standard]
    exact ⟨_, _, _, _, rfl, rfl, rfl⟩
  obtain ⟨c, hc⟩ := hcompiles
  obtain ⟨places, body, j, hran⟩ := Registry.exists_ran hc
  obtain ⟨past, hpast⟩ := (Registry.accounts_journalProgram hran.run).names
  have hrun := hran.run_eq rfl
    ((Registry.types_of_compile hc).trans (inferTypes_paceSample _ _ _))
  have htold : j.Told "tempsRATE" "tempsRATE" :=
    List.mem_of_getElem? (i := 0) (congrArg (·.2.entries[0]?) hrun).symm
  obtain ⟨⟨s, hs⟩, s', hs'⟩ := hran.keepsTime_paceSample (by decide) (by decide)
  obtain rfl : s = "tempsRATE" := (hpast.told_eq_iff hs.told htold).mpr (by decide +kernel)
  obtain rfl : s' = "tempsRATE" := (hpast.told_eq_iff hs'.told htold).mpr (by decide +kernel)
  refine ⟨c, places, body, j, hc, hran, by decide, hs, hs', htold, ?_⟩
  rw [show j = _ from (congrArg Prod.snd hrun).symm]
  decide +kernel

end BlockSketch
