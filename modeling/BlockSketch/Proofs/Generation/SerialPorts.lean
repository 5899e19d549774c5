import BlockSketch.Proofs.Generation.MainFunctions

/-!
Which serial port a sketch opens. Every emitted node for a serial port asks for its port to be
opened, but all of them do so under one key of `setup`. There stands the last opening with a chosen
speed, or else the first one, so that of several ports only one is opened.
-/

namespace BlockSketch

open Block

def openings (told : List Entry) : List Placement :=
  Placement.under Serial.speedKey (placements .setups told)

def Opens (source port : String) : Prop :=
  ∃ speed, Shows source .setup (port ++ ".begin(" ++ speed ++ ");")

/-- In the place of an opening stands that of another node for another port. It has a chosen speed
if the opening has. -/
def TakenOver (w : Workspace) (source : String) (n : Node) (o : Opening) : Prop :=
  ∃ m ∈ w.program.nodes, m ≠ n ∧ ∃ o', opening? w m = some o' ∧ o'.port ≠ o.port ∧
    (o.chosen = true → o'.chosen = true) ∧ Shows source .setup o'.line

/-- Under the key for serial ports stands the opening of some node. -/
theorem Journal.Furnished.exists_opening {w : Workspace} {j : Journal} (h : j.Furnished w)
    {o : Opening} (ho : o.placement ∈ placements .setups j.entries) :
    ∃ m ∈ w.program.nodes, ∃ o', opening? w m = some o' ∧
      (o.chosen = true → o'.chosen = true) ∧
      j.draft.sections.setups.get? Serial.speedKey = some o'.line := by
  obtain ⟨p, hp, hstanding, hchosen⟩ :=
    Placement.exists_standing? (Placement.mem_under.mpr ⟨ho, rfl⟩)
  obtain ⟨hmem, hkey⟩ := Placement.mem_under.mp hp
  have hproper : MainPlacement w j.entries .setup p := h.mainPlacement hmem
  obtain ⟨m, hm, o', ho', rfl⟩ := hproper.serial_of_key hkey
  exact ⟨m, hm, o', ho', hchosen, (h.get?_eq .setup Serial.speedKey).trans hstanding⟩

/-- In every program that compiles, each emitted node for a serial port asks for its port to be
opened, and of all that ask the last one with a chosen speed stands, or else the first one. So the
port is opened in `setup`, unless another node has another port opened in its place. -/
theorem port_opened_unless_taken_over {p : Program} {board : Board} {header : Bool} {c : Compiled}
    (h : Registry.standard.compile p board header = .ok c) :
    ∃ places body j, Registry.standard.Ran p board header c places body j ∧
      let w : Workspace := ⟨p, places, c.types, board⟩
      j.draft.sections.setups.get? Serial.speedKey =
        (((openings j.entries).filter (·.overwrite)).getLast?.or
          (openings j.entries).head?).map (·.text) ∧
      ∀ n code o, .coded n code ∈ j.entries → opening? w n = some o →
        o.placement ∈ openings j.entries ∧
        (Opens c.sketch.source o.port ∨ TakenOver w c.sketch.source n o) := by
  obtain ⟨places, body, j, hran⟩ := Registry.exists_ran h
  obtain ⟨hfurnished, -⟩ := hran.furnished
  refine ⟨places, body, j, hran, hfurnished.get?_eq .setup Serial.speedKey, ?_⟩
  intro n code o hcode ho
  have hplaced := (hfurnished.duties hcode).serial o ho
  refine ⟨Placement.mem_under.mpr ⟨hplaced, rfl⟩, ?_⟩
  obtain ⟨m, hm, o', ho', hchosen, hget⟩ := hfurnished.exists_opening hplaced
  have hshows : Shows c.sketch.source .setup o'.line := hran.shows hget
  by_cases hport : o'.port = o.port
  · exact .inl ⟨o'.speed, hport ▸ hshows⟩
  · refine .inr ⟨m, hm, ?_, o', ho', hport, hchosen, hshows⟩
    rintro rfl
    obtain rfl := Option.some.inj (ho'.symm.trans ho)
    exact hport rfl

def printPair (first second : String) : Program where
  nodes :=
    [{ id := ⟨1⟩, kind := "serial_print", fields := .ofList [("SERIAL", first)],
       next := some ⟨2⟩ },
      { id := ⟨2⟩, kind := "serial_print", fields := .ofList [("SERIAL", second)] }]
  topLevel := [⟨1⟩]

/-- A port that all prints are to is opened. -/
theorem printPair_port_opened :
    ∃ c, Registry.standard.compile (printPair "Serial1" "Serial1") .mega false = .ok c ∧
      Opens c.sketch.source "Serial1" := by
  have hcompiles : ∃ c, Registry.standard.compile (printPair "Serial1" "Serial1") .mega false =
      .ok c := by
    simp only [Registry.compile_eq_ok_iff, Registry.get?_standard]
    exact ⟨_, _, _, _, rfl, rfl, rfl⟩
  obtain ⟨c, hc⟩ := hcompiles
  obtain ⟨places, body, j, hran, -, hopens⟩ := port_opened_unless_taken_over hc
  have hrun := hran.run
  rw [Registry.get?_standard] at hrun
  have hcode := List.mem_of_getElem? (congrArg (·.2.entries[3]?) hrun).symm
  refine ⟨c, hc, (hopens _ _ _ hcode rfl).2.resolve_right ?_⟩
  rintro ⟨m, hm, -, o, ho, hport, -⟩
  -- both nodes are for the same port
  rcases List.mem_pair.mp hm with rfl | rfl <;> cases ho <;> exact hport rfl

/-- Of two ports that are printed to the second one is not opened. -/
theorem printPair_second_port_closed :
    let p := printPair "Serial" "Serial1"
    ∃ c places body j, Registry.standard.compile p .mega false = .ok c ∧
      Registry.standard.Ran p .mega false c places body j ∧
      (∃ n code o, .coded n code ∈ j.entries ∧
        opening? ⟨p, places, c.types, .mega⟩ n = some o ∧ o.port = "Serial1") ∧
      c.sketch.source = "void setup() \x7b\n  Serial.begin(9600);\n\x7d\n\nvoid loop() \x7b\n" ++
        "  Serial.print(\"\");\n  Serial1.print(\"\");\n\x7d\n" ∧
      ¬ "Serial1.begin(".toList <:+: c.sketch.source.toList := by
  intro p
  have hcompiles : ∃ c, Registry.standard.compile p .mega false = .ok c := by
    simp only [Registry.compile_eq_ok_iff, Registry.get?_standard]
    exact ⟨_, _, _, _, rfl, rfl, rfl⟩
  obtain ⟨c, hc⟩ := hcompiles
  obtain ⟨places, body, j, hran⟩ := Registry.exists_ran hc
  have hrun := hran.run
  rw [Registry.get?_standard] at hrun
  obtain rfl := Except.ok.inj hran.valid
  have hcode := List.mem_of_getElem? (congrArg (·.2.entries[3]?) hrun).symm
  have hbody : body = "Serial.print(\"\");\nSerial1.print(\"\");\n" :=
    (Except.ok.inj (congrArg (·.1) hrun)).symm
  have hsections : j.draft.sections =
      { setups := ⟨[(Serial.speedKey, "Serial.begin(9600);")]⟩ } :=
    (congrArg (·.2.draft.sections) hrun).symm
  have hsource : c.sketch.source =
      "void setup() \x7b\n  Serial.begin(9600);\n\x7d\n\nvoid loop() \x7b\n" ++
        "  Serial.print(\"\");\n  Serial1.print(\"\");\n\x7d\n" := by
    rw [hran.source_eq, hbody, Draft.source, hsections]
    decide +kernel
  refine ⟨c, _, body, j, hc, hran, ⟨_, _, _, hcode, rfl, rfl⟩, hsource, ?_⟩
  rw [hsource]
  decide +kernel

end BlockSketch
