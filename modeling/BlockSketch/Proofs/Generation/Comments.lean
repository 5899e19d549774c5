import BlockSketch.Proofs.Block.Rewording
import BlockSketch.Proofs.Generation.Preamble
import BlockSketch.Proofs.Generation.WellSorted

/-!
Comments in a sketch. Whatever comments the nodes of a program have, each of their lines is a
comment of the sketch, wherever it is written and however often it is indented again: a program with
other comments compiles to a sketch with the same code. A block that is a comment on its own is
different. Only the first line of its text is made a comment, and the sketch has what the text
spills.
-/

namespace BlockSketch

open Block Text

/-! ### Types -/

section Types

variable (u : Rewording) (p : Program)

theorem Arrays.elementTyping_reworded (n : Node) (comment : Option String) :
    Arrays.elementTyping (u.program p) { n with comment } = Arrays.elementTyping p n := by
  have hread (m : Node) : Variables.variableRead? (u.node m) = Variables.variableRead? m := by
    by_cases hkind : m.kind = Variables.readKind
    · rw [u.node_of_ne (by rw [hkind]; decide)]
      rfl
    · have hkind' : (u.node m).kind ≠ Variables.readKind := hkind
      rw [Variables.variableRead?, Variables.variableRead?, if_neg hkind, if_neg hkind']
  have hfind (id : NodeId) : ((u.program p).find? id).bind Variables.variableRead? =
      (p.find? id).bind Variables.variableRead? := by
    rw [u.find?_program]
    cases p.find? id with
    | none => rfl
    | some m => exact hread m
  have hchild : ({ n with comment } : Node).child? "VAR" = n.child? "VAR" := rfl
  simp only [Arrays.elementTyping, hchild, hfind]

/-- The standard kinds tell the types of values without looking at words. -/
theorem typing_reworded : ∀ b ∈ standardBlocks, ∀ typing, b.typing? = some typing →
    ∀ n, n.kind = b.kind → typing (u.program p) (u.node n) = typing p n := by
  have hdeaf : ∀ b ∈ standardBlocks, ∀ typing, b.typing? = some typing → b.kind ≠ commentKind ∧
      ∀ (n : Node) comment, typing (u.program p) { n with comment } = typing p n := by
    simp only [standardBlocks, Structure.blocks, Pins.blocks, Time.blocks, Control.blocks,
      Logic.blocks, Arithmetic.blocks, Texts.blocks, Serial.blocks, Variables.blocks,
      Arrays.blocks, Procedures.blocks, Motors.blocks, Servos.blocks, List.forall_mem_append,
      List.forall_mem_cons, List.not_mem_nil, false_imp_iff, implies_true, and_true]
    and_intros
    all_goals rintro typing ⟨⟩
    all_goals refine ⟨by decide, ?_⟩
    all_goals first
      | exact fun n comment => rfl
      | exact Arrays.elementTyping_reworded u p
  intro b hb typing htyping n hn
  obtain ⟨hkind, hsame⟩ := hdeaf b hb typing htyping
  rw [u.node_of_ne (hn ▸ hkind), hsame]

variable {p} in
theorem Registry.typeFrom_reworded {r : Registry}
    (htyping : ∀ kind typing, r.typing? kind = some typing →
      ∀ n, n.kind = kind → typing (u.program p) (u.node n) = typing p n)
    (count : Nat) (child : Option NodeId) :
    (r.probe (u.program p)).typeFrom count child = (r.probe p).typeFrom count child := by
  induction count generalizing child with
  | zero => rfl
  | succ count ih =>
      cases child with
      | none => rfl
      | some id =>
          simp only [Probe.typeFrom, probe, u.find?_program]
          cases p.find? id with
          | none => rfl
          | some n =>
              simp only [Option.map_some, show (u.node n).kind = n.kind from rfl,
                show (u.node n).values = n.values from rfl]
              cases hkind : r.typing? n.kind with
              | some typing => exact htyping n.kind typing hkind n rfl
              | none =>
                  cases n.values with
                  | nil => rfl
                  | cons s rest => exact ih s.child

/-- The standard kinds tell the types of variables without looking at words. -/
theorem mentions_reworded {r : Registry}
    (hchild : ∀ n comment, (r.probe (u.program p)).childType { n with comment } =
      (r.probe p).childType n) :
    ∀ b ∈ standardBlocks, ∀ typing, b.mentions? = some typing →
      ∀ n, n.kind = b.kind → typing (r.probe (u.program p)) (u.node n) = typing (r.probe p) n := by
  have hvalue (n : Node) (comment : Option String) :
      Variables.mentionsValue (r.probe (u.program p)) { n with comment } =
        Variables.mentionsValue (r.probe p) n := by
    rw [Variables.mentionsValue, Variables.mentionsValue, hchild]
    rfl
  have hdeaf : ∀ b ∈ standardBlocks, ∀ typing, b.mentions? = some typing → b.kind ≠ commentKind ∧
      ∀ (n : Node) comment, typing (r.probe (u.program p)) { n with comment } =
        typing (r.probe p) n := by
    simp only [standardBlocks, Structure.blocks, Pins.blocks, Time.blocks, Control.blocks,
      Logic.blocks, Arithmetic.blocks, Texts.blocks, Serial.blocks, Variables.blocks,
      Arrays.blocks, Procedures.blocks, Motors.blocks, Servos.blocks, List.forall_mem_append,
      List.forall_mem_cons, List.not_mem_nil, false_imp_iff, implies_true, and_true]
    and_intros
    all_goals rintro typing ⟨⟩
    all_goals refine ⟨by decide, ?_⟩
    all_goals first
      | exact fun n comment => rfl
      | exact hvalue
  intro b hb typing htyping n hn
  obtain ⟨hkind, hsame⟩ := hdeaf b hb typing htyping
  rw [u.node_of_ne (hn ▸ hkind), hsame]

variable {p} in
theorem Registry.mentions_program {r : Registry}
    (h : ∀ n typing, r.mentions? n.kind = some typing →
      typing (r.probe (u.program p)) (u.node n) = typing (r.probe p) n) :
    Inference.mentions (r.probe (u.program p)) r.mentions? =
      Inference.mentions (r.probe p) r.mentions? := by
  unfold Inference.mentions
  rw [show (r.probe (u.program p)).program.executionOrder = _ from u.executionOrder_program p,
    List.flatMap_map]
  refine List.flatMap_congr fun n _ => ?_
  simp only [show (u.node n).kind = n.kind from rfl, show (u.node n).id = n.id from rfl]
  cases hkind : r.mentions? n.kind with
  | none => rfl
  | some typing => exact congrArg _ (h n typing hkind)

/-- The search for types meets the same mentions of variables under other words. -/
theorem Registry.inferTypes_standard_reworded :
    standard.inferTypes (u.program p) = standard.inferTypes p := by
  have htyping (kind : String) (typing : ValueTyping) (h : standard.typing? kind = some typing)
      (n : Node) (hn : n.kind = kind) : typing (u.program p) (u.node n) = typing p n := by
    rw [typing?_standard] at h
    obtain ⟨b, hb, htyping⟩ := Option.bind_eq_some_iff.mp h
    have hkind : b.kind = kind := by simpa using List.find?_some hb
    exact typing_reworded u p b (List.mem_of_find?_eq_some hb) typing htyping n
      (hn.trans hkind.symm)
  have hchild (n : Node) (comment : Option String) :
      (standard.probe (u.program p)).childType { n with comment } =
        (standard.probe p).childType n := by
    have hsize : (standard.probe (u.program p)).program.size = (standard.probe p).program.size :=
      u.size_program p
    simp only [Probe.childType, Probe.typeOf, typeFrom_reworded u htyping, hsize]
  have hmentions := mentions_program (r := standard) (p := p) u fun n typing h => by
    rw [mentions?_standard] at h
    obtain ⟨b, hb, hmentions⟩ := Option.bind_eq_some_iff.mp h
    have hkind : b.kind = n.kind := by simpa using List.find?_some hb
    exact mentions_reworded u p hchild b (List.mem_of_find?_eq_some hb) typing hmentions n
      hkind.symm
  rw [inferTypes, inferTypes, Inference.run, Inference.run, hmentions]

end Types

/-! ### Compilation -/

/-- Two sketches with the same pins and messages whose sources have the same code. -/
structure Sketch.SameLines (s s' : Sketch) : Prop where
  pins : s.pins = s'.pins
  diagnostics : s.diagnostics = s'.diagnostics
  code : uncommented s.source = uncommented s'.source

theorem Sketch.SameLines.withHeading {s s' : Sketch} (h : s.SameLines s') (board : Board)
    (wanted : Bool) : (s.withHeading board wanted).SameLines (s'.withHeading board wanted) := by
  have hends : EndsLine (heading board) := endsLine_append_text _ rfl
  cases wanted with
  | false => exact h
  | true =>
      refine ⟨h.pins, h.diagnostics, ?_⟩
      change uncommented (heading board ++ s.source) = uncommented (heading board ++ s'.source)
      rw [hends.uncommented_append, hends.uncommented_append, h.code]

theorem Registry.sketch_reworded (u : Rewording) {w : Workspace} {ds : Diagnostics} {s : Sketch}
    (h : standard.sketch w ds = .ok s) :
    ∃ s', standard.sketch (u.workspace w) ds = .ok s' ∧ s.SameLines s' := by
  obtain ⟨hresult, hdraft⟩ := akin_draftProgram (r := standard) (u := u) (w := w)
    (fun n b hb => standard_akin hb) ds
  rw [sketch] at h ⊢
  generalize standard.draftProgram w ds = first, standard.draftProgram (u.workspace w) ds = second
    at h hresult hdraft
  obtain ⟨result, d⟩ := first
  obtain ⟨result', d'⟩ := second
  cases hresult with
  | error e => cases h
  | ok hbody =>
      obtain rfl := Except.ok.inj h
      exact ⟨_, rfl, hdraft.pins, hdraft.diagnostics, hdraft.sections.assemble hbody.code⟩

/-- A program that compiles does so under other words too, with the same types and to a sketch with
the same code. -/
theorem Registry.compile_reworded (u : Rewording) {p : Program} {board : Board} {header : Bool}
    {c : Compiled} (h : standard.compile p board header = .ok c) :
    ∃ c', standard.compile (u.program p) board header = .ok c' ∧ c'.types = c.types ∧
      c.sketch.SameLines c'.sketch := by
  obtain ⟨places, _, _, hran⟩ := exists_ran h
  have hvalid := hran.valid
  rw [compile_of_validate _ hvalid] at h
  rw [compile_of_validate _ ((u.validate_program p).trans hvalid), inferTypes_standard_reworded]
  generalize standard.inferTypes p = found at h ⊢
  cases hsketch : standard.sketch ⟨p, places, found.map, board⟩ found.diagnostics with
  | error e =>
      rw [hsketch] at h
      cases h
  | ok s =>
      rw [hsketch] at h
      obtain rfl := Except.ok.inj h
      obtain ⟨s', hs', hsame⟩ := sketch_reworded u hsketch
      have hs' : standard.sketch ⟨u.program p, places, found.map, board⟩ found.diagnostics =
          .ok s' := hs'
      refine ⟨⟨s'.withHeading board header, found.map⟩, ?_, rfl, hsame.withHeading board header⟩
      rw [hs']
      rfl

/-! ### What is written for comments -/

def Node.DefinitionTold (n : Node) (past : List Entry) (_ : Code) : Prop :=
  ∃ key rest stored,
    .edited (.place .functions key (commentText n.comment ++ rest) true) stored ∈ past

/-- What a run writes for comments: before a statement and before a definition lines of comments,
and for a block that is a comment what its text spills. -/
structure Workspace.WritesComments (w : Workspace) (j : Journal) : Prop where
  /-- The comments before a statement are those of the node and of its values. -/
  statements : ∀ n piece, w.PieceTold j.entries n piece → piece = "" ∨
    ∃ code, .coded n code ∈ j.entries ∧ piece = w.commentsBefore n ++ code.asStatement ∧
      IsCommentary (w.commentsBefore n)
  definitions : ∀ n code, .coded n code ∈ j.entries → n.kind ∈ definitionKinds →
    n.DefinitionTold j.entries code ∧ IsCommentary (commentText n.comment)
  blocks : ∀ n code, .coded n code ∈ j.entries → n.kind = commentKind →
    ∃ text, code = .statement text ∧ uncommented text = spill (n.fieldD "TEXT" "") ∧
      (IsCommentary text ↔ spill (n.fieldD "TEXT" "") = [])

theorem Node.lasting_definitionTold (n : Node) : Lasting n.DefinitionTold := by
  intro past past' code hsub h
  obtain ⟨key, rest, stored, hmem⟩ := h
  exact ⟨key, rest, stored, hsub hmem⟩

theorem Procedures.tells_definition (w : Workspace) (n : Node) (result : Recipe String)
    (past : List Entry) : (Procedures.define w n result).Tells w (fun _ _ => True)
      (fun past text => n.DefinitionTold past (.statement text)) past := by
  refine Recipe.tells_bind.mpr ((Recipe.tells_trivial _ _ _).mono fun _ name _ _ => ?_)
  refine Recipe.tells_bind.mpr ((Recipe.tells_trivial _ _ _).mono fun _ code _ _ => ?_)
  refine Recipe.tells_bind.mpr ((Recipe.tells_trivial _ _ _).mono fun _ returned _ _ => ?_)
  refine Recipe.tells_bind.mpr ((Recipe.tells_trivial _ _ _).mono fun _ parameters _ _ => ?_)
  exact ⟨trivial, fun stored => ⟨_, _, stored, List.mem_append_right _ List.mem_cons_self⟩⟩

namespace Registry.Ran

variable {p : Program} {board : Board} {header : Bool} {c : Compiled} {places : ParentIndex}
  {body : String} {j : Journal}

theorem definitionTold (h : standard.Ran p board header c places body j) {n : Node} {code : Code}
    (hcode : .coded n code ∈ j.entries) (hkind : n.kind ∈ definitionKinds) :
    n.DefinitionTold j.entries code := by
  rcases List.mem_pair.mp hkind with hkind | hkind
  · exact h.suits_of_kind hcode hkind rfl Node.lasting_definitionTold fun n =>
      Procedures.tells_definition _ n _
  · exact h.suits_of_kind hcode hkind rfl Node.lasting_definitionTold fun n =>
      Procedures.tells_definition _ n _

theorem code_of_comment (h : standard.Ran p board header c places body j) {n : Node} {code : Code}
    (hcode : .coded n code ∈ j.entries) (hkind : n.kind = commentKind) :
    code = .statement ("// " ++ n.fieldD "TEXT" "" ++ "\n") :=
  h.suits_of_kind (Q := fun n _ code => code = .statement ("// " ++ n.fieldD "TEXT" "" ++ "\n"))
    hcode hkind rfl (fun _ _ _ _ _ h => h) fun _ _ => rfl

theorem writesComments (h : standard.Ran p board header c places body j) :
    Workspace.WritesComments ⟨p, places, c.types, board⟩ j where
  statements n piece hpiece := by
    obtain ⟨code, hcode, rfl⟩ := hpiece
    rw [Workspace.commented]
    split
    · exact .inl rfl
    · exact .inr ⟨code, hcode, rfl, Workspace.isCommentary_commentsBefore _ n⟩
  definitions n code hcode hkind := ⟨h.definitionTold hcode hkind, isCommentary_commentText _⟩
  blocks n code hcode hkind := by
    refine ⟨_, h.code_of_comment hcode hkind, uncommented_slashes _, ?_⟩
    rw [(endsLine_feed _).isCommentary_iff, uncommented_slashes]

end Registry.Ran

/-- In a program that compiles, each line that is written for the comment of a node is a comment of
the sketch, before statements and before definitions alike. So the sketch has the same code under
any other comments, with the same types, pins and messages. A block that is a comment on its own
writes comments only if its text spills nothing behind its first line, and the sketch has the same
code with any other text that spills the same lines. -/
theorem comments_stay_comments_up_to_spill {p : Program} {board : Board} {header : Bool}
    {c : Compiled} (h : Registry.standard.compile p board header = .ok c) :
    (∃ places body j, Registry.standard.Ran p board header c places body j ∧
      Workspace.WritesComments ⟨p, places, c.types, board⟩ j) ∧
    ∀ u : Rewording, ∃ c', Registry.standard.compile (u.program p) board header = .ok c' ∧
      c'.types = c.types ∧ c.sketch.SameLines c'.sketch := by
  obtain ⟨places, body, j, hran⟩ := Registry.exists_ran h
  exact ⟨⟨places, body, j, hran, hran.writesComments⟩, fun u => Registry.compile_reworded u h⟩

def Rewording.silent : Rewording where
  comment _ := none
  text n := "\n" ++ afterFirstLine (n.fieldD "TEXT" "")
  spills n _ := by
    have hafter (text : String) : afterFirstLine ("\n" ++ text) = text := by
      apply String.ext
      simp [afterFirstLine]
    rw [spill, hafter, spill]

/-- A statement with comments on itself and on its value, a block that is a comment, and a procedure
with a comment. -/
def commentedSample : Program where
  nodes :=
    [{ id := ⟨1⟩, kind := "base_delay", comment := some "wait\nboom();", next := some ⟨3⟩,
        values := [{ name := "DELAY_TIME", child := some ⟨2⟩ }] },
      { id := ⟨2⟩, kind := "base_define_name", comment := some "the time",
        fields := .ofList [("NAME", "pause")] },
      { id := ⟨3⟩, kind := commentKind, fields := .ofList [("TEXT", "tick")] },
      { id := ⟨4⟩, kind := "procedures_defnoreturn", comment := some "call me\nboom();",
        fields := .ofList [("NAME", "ring")] }]
  topLevel := [⟨1⟩, ⟨4⟩]

theorem commentedSample_comments_stay :
    ∃ c, Registry.standard.compile commentedSample .uno false = .ok c ∧
      c.sketch.source = "// call me\n// boom();\nvoid ring() \x7b\n\x7d\n\n" ++
        "void setup() \x7b\n\x7d\n\nvoid loop() \x7b\n  // wait\n  // boom();\n" ++
        "  // the time\n  delay(pause);\n  // tick\n\x7d\n" ∧
      (∃ places body j, Registry.standard.Ran commentedSample .uno false c places body j ∧
        Workspace.WritesComments ⟨commentedSample, places, c.types, .uno⟩ j) ∧
      ∃ c', Registry.standard.compile (Rewording.silent.program commentedSample) .uno false =
          .ok c' ∧ c'.types = c.types ∧ c.sketch.SameLines c'.sketch := by
  refine (Registry.exists_compile_of_plainSource rfl rfl ?_).imp fun c hc => ⟨hc.1, hc.2, ?_⟩
  · decide +kernel
  · obtain ⟨hwrites, hsame⟩ := comments_stay_comments_up_to_spill hc.1
    exact ⟨hwrites, hsame .silent⟩

def spillSample : Program where
  nodes := [{ id := ⟨1⟩, kind := commentKind, fields := .ofList [("TEXT", "tick\nboom();")] }]
  topLevel := [⟨1⟩]

/-- The second line of the text is code of the sketch. -/
theorem spillSample_comment_becomes_code :
    ∃ c, Registry.standard.compile spillSample .uno false = .ok c ∧
      c.sketch.source = "void setup() \x7b\n\x7d\n\n" ++
        "void loop() \x7b\n  // tick\n  boom();\n\x7d\n" ∧
      "boom();".toList ∈ uncommented c.sketch.source := by
  refine (Registry.exists_compile_of_plainSource rfl rfl ?_).imp fun c hc => ⟨hc.1, hc.2, ?_⟩
  · decide +kernel
  · rw [hc.2]
    decide +kernel

end BlockSketch
