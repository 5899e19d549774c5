import BlockSketch.Proofs.Generation.Preamble
import BlockSketch.Proofs.Text.Lines

/-!
Which headers a sketch includes. Every emitted node whose code needs a header asks for it, and under
a key the first request stands. Names for pins are asked for in the same section and under the names
themselves, so that a pin with the name of a header's key can keep the header out.
-/

namespace BlockSketch

open Block

def Sections.includeBlock (s : Sections) : String := block "\n" s.includes.texts.eraseDups

def Sections.declarationBlock (s : Sections) : String := block "\n" s.declarations.texts

def Sections.globalBlock (s : Sections) : String := block "\n" s.globals.texts

/-- A sketch begins with these blocks, behind its heading if one is wanted. -/
theorem Registry.Ran.exists_source_eq {r : Registry} {p : Program} {board : Board} {header : Bool}
    {c : Compiled} {places : ParentIndex} {body : String} {j : Journal}
    (h : r.Ran p board header c places body j) :
    ∃ rest, c.sketch.source = (if header then heading board else "") ++
      j.draft.sections.includeBlock ++
      (j.draft.sections.declarationBlock ++ j.draft.sections.globalBlock ++ rest) := by
  let s := j.draft.sections
  refine ⟨Sections.block "\n\n" s.functions.texts ++ (Sections.function "setup" s.setupTexts ++
    ("\n" ++ Sections.function "loop" (s.loopTexts body))), ?_⟩
  have hdraft : j.draft.source body = s.includeBlock ++ (s.declarationBlock ++ s.globalBlock ++
      (Sections.block "\n\n" s.functions.texts ++ (Sections.function "setup" s.setupTexts ++
        ("\n" ++ Sections.function "loop" (s.loopTexts body))))) := by
    simp only [Draft.source, Sections.assemble, Sections.preamble, Sections.includeBlock,
      Sections.declarationBlock, Sections.globalBlock, String.append_assoc, s]
  rw [h.sketch]
  cases header with
  | false => simp [Sketch.withHeading, hdraft, s]
  | true => simp [Sketch.withHeading, hdraft, s, String.append_assoc]

theorem Header.key_injective {h h' : Header} (heq : h.key = h'.key) : h = h' := by
  cases h <;> cases h' <;> first | rfl | exact absurd heq (by decide)

/-- A header that stands under its key is a line of the block. -/
theorem Sections.hasLine_includeBlock {s : Sections} {h : Header}
    (hget : s.includes.get? h.key = some h.line) : Text.HasLine s.includeBlock h.line := by
  obtain ⟨before, after, hentries, -⟩ := List.lookup_eq_some_iff.mp hget
  have hmem : h.line ∈ s.includes.texts.eraseDups := by
    rw [List.mem_eraseDups, Bucket.texts, hentries]
    simp
  refine hasLine_block hmem ?_ ?_
  · cases h <;> decide
  · cases h <;> decide

def NamesPin (w : Workspace) (told : List Entry) (n : Node) (name : String) : Prop :=
  n ∈ w.program.nodes ∧ n.kind = "base_define" ∧
    ∃ e, w.ValueTold told (n.child? "NAME") .atomic "unnamed" e ∧ name = e.text

/-- What is asked for among the headers gives a pin a name or is a header. -/
theorem ProperContribution.header_or_pinName {w : Workspace} {past : List Entry} {p : Placement}
    (h : ProperContribution w past .includes p) :
    p.overwrite = false ∧ ((∃ header : Header, p = header.placement) ∨
      ∃ n, NamesPin w past n p.key ∧ p.text = Structure.pinNameLine w n p.key) := by
  rcases h with ⟨hsec, -⟩ | ⟨n, hn, hcontribution⟩
  · cases hsec
  · generalize hsec : Section.includes = sec at hcontribution
    cases hcontribution with
    | header hheader => exact ⟨rfl, .inl ⟨_, rfl⟩⟩
    | pinName hkind htold => exact ⟨rfl, .inr ⟨n, ⟨hn, hkind, _, htold, rfl⟩, rfl⟩⟩
    | _ => cases hsec

/-- In every program that compiles, the sketch begins with its block of headers and names for pins,
behind the heading if one is wanted. Under a key of that section stands what was asked for first.
Every emitted node whose code needs a header has asked for it, and the header is a line of the
block, unless a node of the program gives a pin the very name under which the header is asked for
and has its line in the header's place. -/
theorem header_included_unless_pin_has_its_key {p : Program} {board : Board} {header : Bool}
    {c : Compiled} (h : Registry.standard.compile p board header = .ok c) :
    ∃ places body j, Registry.standard.Ran p board header c places body j ∧
      let w : Workspace := ⟨p, places, c.types, board⟩
      let s := j.draft.sections
      (∃ rest, c.sketch.source =
        (if header then heading board else "") ++ s.includeBlock ++ rest) ∧
      (∀ key, s.includes.get? key =
        ((placements .includes j.entries).find? (·.key = key)).map (·.text)) ∧
      ∀ n code needed, .coded n code ∈ j.entries → n.header? = some needed →
        needed.placement ∈ placements .includes j.entries ∧
        (s.includes.get? needed.key = some needed.line ∧
            Text.HasLine s.includeBlock needed.line ∨
          ∃ m, NamesPin w j.entries m needed.key ∧
            s.includes.get? needed.key = some (Structure.pinNameLine w m needed.key)) := by
  obtain ⟨places, body, j, hran⟩ := Registry.exists_ran h
  have hproper {q : Placement} (hq : q ∈ placements .includes j.entries) :=
    (hran.properContribution hq).header_or_pinName
  have hget (key : String) : j.draft.sections.includes.get? key =
      Placement.standing? (placements .includes j.entries) key :=
    hran.furnished.1.replays.get?_eq (by decide : Section.includes ≠ .functions) key
  obtain ⟨rest, hsource⟩ := hran.exists_source_eq
  refine ⟨places, body, j, hran, ⟨_, hsource⟩, fun key => ?_, ?_⟩
  · have hnone : (Placement.under key (placements .includes j.entries)).filter (·.overwrite) = [] :=
      List.filter_eq_nil_iff.mpr fun q hq => by
        simp [(hproper (Placement.mem_under.mp hq).1).1]
    rw [hget, Placement.standing?, hnone, List.getLast?_nil, Option.none_or, Placement.under,
      List.head?_filter]
  · intro n code needed hcode hneeded
    have hplaced := hran.contributed.suits n code hcode needed hneeded
    refine ⟨hplaced, ?_⟩
    obtain ⟨q, hq, hstanding, -⟩ :=
      Placement.exists_standing? (Placement.mem_under.mpr ⟨hplaced, rfl⟩)
    obtain ⟨hmem, hkey⟩ := Placement.mem_under.mp hq
    have hstands : j.draft.sections.includes.get? needed.key = some q.text :=
      (hget needed.key).trans hstanding
    rcases (hproper hmem).2 with ⟨other, rfl⟩ | ⟨m, hm, htext⟩
    · obtain rfl : other = needed := Header.key_injective hkey
      exact .inl ⟨hstands, Sections.hasLine_includeBlock hstands⟩
    · rw [show q.key = needed.key from hkey] at hm htext
      exact .inr ⟨m, hm, htext ▸ hstands⟩

def lampSample (name : String) : Program where
  nodes :=
    [{ id := ⟨1⟩, kind := "base_define", values := [{ name := "NAME", child := some ⟨2⟩ }] },
      { id := ⟨2⟩, kind := "base_define_name", fields := .ofList [("NAME", name)] },
      { id := ⟨3⟩, kind := "math_number_property", fields := .ofList [("PROPERTY", "WHOLE")] }]
  topLevel := [⟨1⟩, ⟨3⟩]

/-- With another name for the lamp, the sketch includes the header that the test needs. -/
theorem lampSample_header_included :
    ∃ c block rest, Registry.standard.compile (lampSample "LAMP") .uno false = .ok c ∧
      c.sketch.source = block ++ rest ∧ Text.HasLine block "#include <math.h>" := by
  have hcompiles : ∃ c, Registry.standard.compile (lampSample "LAMP") .uno false = .ok c := by
    simp only [Registry.compile_eq_ok_iff, Registry.get?_standard]
    exact ⟨_, _, _, _, rfl, rfl, rfl⟩
  obtain ⟨c, hc⟩ := hcompiles
  obtain ⟨places, body, j, hran, ⟨rest, hsource⟩, -, hincluded⟩ :=
    header_included_unless_pin_has_its_key hc
  have hrun := hran.run_eq rfl rfl
  have hincludes : j.draft.sections.includes =
      ⟨[("LAMP", "#define LAMP 13"), ("math", "#include <math.h>")]⟩ :=
    (congrArg (·.2.draft.sections.includes) hrun).symm
  have hcode := List.mem_of_getElem? (congrArg (·.2.entries[5]?) hrun).symm
  refine ⟨c, _, rest, hc, hsource, ((hincluded _ _ _ hcode rfl).2.resolve_right ?_).2⟩
  rintro ⟨m, -, hget⟩
  rw [hincludes] at hget
  have hline := congrArg String.toList (Option.some.inj hget)
  simp [Structure.pinNameLine, toString] at hline

/-- A lamp with the name `math` keeps the header out that the test needs. -/
theorem lampSample_header_missing :
    ∃ c places body j, Registry.standard.compile (lampSample "math") .uno false = .ok c ∧
      Registry.standard.Ran (lampSample "math") .uno false c places body j ∧
      (∃ n code, .coded n code ∈ j.entries ∧ n.header? = some .math) ∧
      c.sketch.source = "#define math 13\n\nvoid setup() \x7b\n\x7d\n\nvoid loop() \x7b\n" ++
        "  (floor(0) == 0);\n\x7d\n" ∧
      ¬ "#include".toList <:+: c.sketch.source.toList := by
  have hcompiles : ∃ c, Registry.standard.compile (lampSample "math") .uno false = .ok c := by
    simp only [Registry.compile_eq_ok_iff, Registry.get?_standard]
    exact ⟨_, _, _, _, rfl, rfl, rfl⟩
  obtain ⟨c, hc⟩ := hcompiles
  obtain ⟨places, body, j, hran⟩ := Registry.exists_ran hc
  have hrun := hran.run_eq rfl rfl
  have hcode := List.mem_of_getElem? (congrArg (·.2.entries[5]?) hrun).symm
  have hbody : body = "(floor(0) == 0);\n" := (Except.ok.inj (congrArg (·.1) hrun)).symm
  have hsections : j.draft.sections = { includes := ⟨[("math", "#define math 13")]⟩ } :=
    (congrArg (·.2.draft.sections) hrun).symm
  have hsource : c.sketch.source =
      "#define math 13\n\nvoid setup() \x7b\n\x7d\n\nvoid loop() \x7b\n" ++
        "  (floor(0) == 0);\n\x7d\n" := by
    rw [hran.source_eq, hbody, Draft.source, hsections]
    decide +kernel
  refine ⟨c, _, body, j, hc, hran, ⟨_, _, hcode, rfl⟩, hsource, ?_⟩
  rw [hsource]
  decide +kernel

end BlockSketch
