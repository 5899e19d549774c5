import BlockSketch.Proofs.Block.Preamble
import BlockSketch.Proofs.Generation.Declarations
import BlockSketch.Proofs.Generation.MainFunctions

/-!
What stands in front of the main functions over a whole run. Whatever is placed there declares a
listed variable or comes from a node that may put it there, and every node that is emitted has asked
for the header that its code needs.
-/

namespace BlockSketch

open Block Identifier

/-- The declaration of a listed variable, under the identifier that was told for it. -/
def ListedVariable (w : Workspace) (past : List Entry) (sec : Section) (p : Placement) : Prop :=
  sec = .globals ∧ ∃ name ∈ w.program.variableNames, ∃ x : String,
    .edited (.identifier name .variable) x ∈ past ∧
      p = ⟨x, declarationText (w.types.get name) x, false⟩

/-- A placement that declares a listed variable or comes from a node that may make it. -/
def ProperContribution (w : Workspace) (past : List Entry) (sec : Section) (p : Placement) : Prop :=
  ListedVariable w past sec p ∨ ∃ n ∈ w.program.nodes, Contribution w past n sec p

def Edit.IsProperContribution (w : Workspace) (past : List Entry) : Edit → Prop
  | place sec key text overwrite => ProperContribution w past sec ⟨key, text, overwrite⟩
  | _ => True

theorem Edit.IsContribution.proper {w : Workspace} {n : Node} (hn : n ∈ w.program.nodes)
    {past : List Entry} {e : Edit} (h : e.IsContribution w n past) :
    e.IsProperContribution w past := by
  cases e with
  | place sec key text overwrite => exact .inr ⟨n, hn, h⟩
  | helper name body => trivial
  | identifier name ns => trivial
  | freshVariable name => trivial
  | claim node pin usage label => trivial
  | report node concern message => trivial

theorem lasting_isProperContribution (w : Workspace) : Lasting (Edit.IsProperContribution w) := by
  intro past past' e hsub h
  cases e with
  | place sec key text overwrite =>
      rcases h with ⟨hsec, name, hname, x, hx, hp⟩ | ⟨n, hn, hcontribution⟩
      · exact .inl ⟨hsec, name, hname, x, hsub hx, hp⟩
      · exact .inr ⟨n, hn, lasting_contribution w n sec hsub hcontribution⟩
  | helper name body => trivial
  | identifier name ns => trivial
  | freshVariable name => trivial
  | claim node pin usage label => trivial
  | report node concern message => trivial

/-- An edit that puts into the sections only declarations of listed variables. -/
def Edit.IsListed (w : Workspace) (past : List Entry) : Edit → Prop
  | place sec key text overwrite => ListedVariable w past sec ⟨key, text, overwrite⟩
  | _ => True

theorem lasting_isListed (w : Workspace) : Lasting (Edit.IsListed w) := by
  intro past past' e hsub h
  cases e with
  | place sec key text overwrite =>
      obtain ⟨hsec, name, hname, x, hx, hp⟩ := h
      exact ⟨hsec, name, hname, x, hsub hx, hp⟩
  | helper name body => trivial
  | identifier name ns => trivial
  | freshVariable name => trivial
  | claim node pin usage label => trivial
  | report node concern message => trivial

theorem Edit.IsListed.proper {w : Workspace} {past : List Entry} {e : Edit}
    (h : e.IsListed w past) : e.IsProperContribution w past := by
  cases e with
  | place sec key text overwrite => exact .inl h
  | helper name body => trivial
  | identifier name ns => trivial
  | freshVariable name => trivial
  | claim node pin usage label => trivial
  | report node concern message => trivial

theorem Recipe.gives_declareVariables (w : Workspace) (past : List Entry) :
    (declareVariables w).Gives (Edit.IsListed w) (fun _ _ => True) past := by
  refine gives_forM (fun name hname past => ?_) past
  simp only [bind_eq, gives_bind, gives_variableName, gives_offer]
  refine ⟨trivial, fun x => ⟨⟨rfl, name, hname, x, ?_, ?_⟩, fun _ => trivial⟩⟩
  · exact List.mem_append_right _ List.mem_cons_self
  · simp [declarationText, toString]

theorem Registry.types_of_compile {r : Registry} {p : Program} {board : Board} {header : Bool}
    {c : Compiled} (h : r.compile p board header = .ok c) : c.types = (r.inferTypes p).map := by
  obtain ⟨_, _, _, _, _, rfl⟩ := compile_eq_ok_iff.mp h
  rfl

/-- Where no node tells of a variable, no types are found. -/
theorem Registry.inferTypes_of_mentions_eq_nil {r : Registry} {p : Program}
    (h : Inference.mentions (r.probe p) r.mentions? = []) : (r.inferTypes p).map = .empty := by
  rw [inferTypes, Inference.run, h]
  rfl

section Run

variable {p : Program} {board : Board} {header : Bool} {c : Compiled} {places : ParentIndex}
  {body : String} {j : Journal}

/-- The journal of a run, by the list of the standard kinds. -/
theorem Registry.Ran.run_eq (h : standard.Ran p board header c places body j)
    {places' : ParentIndex} (hvalid : p.validate = .ok places') {types : TypeMap}
    (htypes : c.types = types) :
    (journalProgram (fun kind => standardBlocks.find? (fun b => b.kind = kind))
      ⟨p, places', types, board⟩).run.run
        { draft := { diagnostics := (standard.inferTypes p).diagnostics } } = (.ok body, j) := by
  have hrun := h.run
  obtain rfl := Except.ok.inj (hvalid.symm.trans h.valid)
  rwa [get?_standard, htypes] at hrun

/-- What the nodes of a program tell of variables, by the list of the standard kinds. -/
def Program.plainMentions (p : Program) : List (NodeId × Mention) :=
  Inference.mentions
    ⟨p, fun kind => (standardBlocks.find? (fun b => b.kind = kind)).bind (·.typing?)⟩
    (fun kind => (standardBlocks.find? (fun b => b.kind = kind)).bind (·.mentions?))

theorem Registry.mentions_standard (p : Program) :
    Inference.mentions (standard.probe p) standard.mentions? = p.plainMentions := by
  rw [probe, typing?_standard, mentions?_standard, Program.plainMentions]

/-- The source that a program without types has, by the list of the standard kinds. -/
def Program.plainSource (p : Program) (places : ParentIndex) (board : Board) :
    Except EmitError String :=
  match (journalProgram (fun kind => standardBlocks.find? (fun b => b.kind = kind))
    ⟨p, places, .empty, board⟩).run.run { draft := {} } with
  | (.ok body, j) => .ok (j.draft.source body)
  | (.error e, _) => .error e

/-- Where no node tells of a variable, that is the source of the sketch. -/
theorem Registry.exists_compile_of_plainSource {source : String} (hvalid : p.validate = .ok places)
    (hmentions : p.plainMentions = []) (hsource : p.plainSource places board = .ok source) :
    ∃ c, standard.compile p board false = .ok c ∧ c.sketch.source = source := by
  rw [← mentions_standard] at hmentions
  have hdiagnostics : (standard.inferTypes p).diagnostics = .empty := by
    rw [inferTypes, Inference.run, hmentions]
    rfl
  have htypes := inferTypes_of_mentions_eq_nil hmentions
  unfold Program.plainSource at hsource
  split at hsource
  next body j hrun =>
      obtain rfl := Except.ok.inj hsource
      refine ⟨_, compile_eq_ok_iff.mpr ⟨places, body, j, hvalid, ?_, rfl⟩, rfl⟩
      rw [htypes, hdiagnostics, get?_standard]
      exact hrun
  next => cases hsource

/-- In a run that ends well, the sections hold only what may be there, and every node that is
emitted has asked for its header. -/
theorem Registry.Ran.contributed (h : standard.Ran p board header c places body j) :
    j.Sound (Edit.IsProperContribution ⟨p, places, c.types, board⟩)
      (fun n past _ => HeaderPlaced n past) := by
  have hupheld := upheld_sound (lasting_isProperContribution ⟨p, places, c.types, board⟩)
    lasting_headerPlaced
  have hvariables (past : List Entry) :=
    (Recipe.gives_declareVariables ⟨p, places, c.types, board⟩ past).mono
      (fun _ _ he => he.proper) fun _ _ h => h
  obtain ⟨hsound, -⟩ := leads_journalProgram hupheld
    (fun n hn b hb => (standard_contributes hb).imp fun _ _ he => he.proper hn)
    (fun past => (hvariables past).tells (lasting_isProperContribution _)
      fun _ _ _ _ _ => trivial)
    ⟨fun _ _ h => (List.not_mem_nil h).elim, fun _ _ h => (List.not_mem_nil h).elim⟩ body j h.run
  exact hsound

theorem Registry.Ran.properContribution (h : standard.Ran p board header c places body j)
    {sec : Section} {placement : Placement} (hmem : placement ∈ placements sec j.entries) :
    ProperContribution ⟨p, places, c.types, board⟩ j.entries sec placement := by
  obtain ⟨stored, hmem⟩ := mem_placements.mp hmem
  exact h.contributed.proper _ stored hmem

/-- What stands under a key of a section is one of its proper placements. -/
theorem Registry.Ran.exists_placement (h : standard.Ran p board header c places body j)
    {sec : Section} (hsec : sec ≠ .functions) {key text : String}
    (hget : (j.draft.sections.get sec).get? key = some text) :
    ∃ overwrite, ⟨key, text, overwrite⟩ ∈ placements sec j.entries := by
  rw [h.furnished.1.replays.get?_eq hsec] at hget
  have hne : Placement.under key (placements sec j.entries) ≠ [] := fun hnil => by
    rw [Placement.standing?_eq_none_iff.mpr hnil] at hget
    cases hget
  obtain ⟨q, hq⟩ := List.exists_mem_of_ne_nil _ hne
  obtain ⟨q', hq', hstanding, -⟩ := Placement.exists_standing? hq
  obtain rfl := Option.some.inj (hstanding.symm.trans hget)
  obtain ⟨hmem, rfl⟩ := Placement.mem_under.mp hq'
  exact ⟨q'.overwrite, hmem⟩

end Run

end BlockSketch
