import BlockSketch.Proofs.Block.MainFunctions
import BlockSketch.Proofs.Emission.Codes
import BlockSketch.Proofs.Generation.Functions

/-!
The two main functions over a whole run. Whatever is put into them may be there, and every node that
is emitted has put there what it owes. Under a key stands what its placements leave, and the sketch
shows it.
-/

namespace BlockSketch

open Block

/-! ### Placements by their keys -/

/-- Only code of containers is placed under the key of a part. -/
theorem MainPlacement.user_of_key {w : Workspace} {past : List Entry} {n : Node} {part : Part}
    (hpart : part ∈ n.parts) {main : MainFunction} {p : Placement} (h : MainPlacement w past main p)
    (hkey : p.key = part.key) :
    p.overwrite = true ∧ ∃ m ∈ w.program.nodes, ∃ part' ∈ m.parts, part'.main = main ∧
      part'.key = part.key ∧ w.ChainTold past (m.head? part'.socket) p.text ∧
      (part'.own = true ∨ p.text ≠ "") := by
  cases h with
  | user hn hpart' htold hne => exact ⟨rfl, _, hn, _, hpart', rfl, hkey, htold, hne⟩
  | serial hn ho => exact absurd hkey.symm (Node.part_key_ne_speedKey hpart)
  | device hdevice => exact absurd hkey (hdevice.ne_part_key hpart)

/-- Only openings of ports are placed under the key for them. -/
theorem MainPlacement.serial_of_key {w : Workspace} {past : List Entry} {p : Placement}
    (h : MainPlacement w past .setup p) (hkey : p.key = Serial.speedKey) :
    ∃ n ∈ w.program.nodes, ∃ o, opening? w n = some o ∧ p = o.placement := by
  generalize hmain : MainFunction.setup = main at h
  cases h with
  | user hn hpart _ _ => exact absurd hkey (Node.part_key_ne_speedKey hpart)
  | serial hn ho => exact ⟨_, hn, _, ho, rfl⟩
  | device hdevice => exact absurd hkey hdevice.ne_speedKey

/-! ### Runs -/

/-- A journal in which the main functions are as they should be. -/
structure Journal.Furnished (w : Workspace) (j : Journal) : Prop where
  sound : j.Sound (ProperPlacement w) (fun n past _ => MainDuties w n past)
  replays : j.Replays

theorem upheld_furnished (w : Workspace) :
    Upheld (ProperPlacement w) (fun n past _ => MainDuties w n past) (Journal.Furnished w) := by
  have hsound := upheld_sound (lasting_properPlacement w) (lasting_mainDuties w)
  constructor
  · exact fun j e hj hP => ⟨hsound.edit j e hj.sound hP, hj.replays.edit e⟩
  · exact fun j n code hj hQ => ⟨hsound.coded j n code hj.sound hQ, hj.replays.coded n code⟩

/-- The run behind a compiled program, with the text that it gave and its journal. -/
structure Registry.Ran (r : Registry) (p : Program) (board : Board) (header : Bool) (c : Compiled)
    (places : ParentIndex) (body : String) (j : Journal) : Prop where
  valid : p.validate = .ok places
  run : (journalProgram r.get? ⟨p, places, c.types, board⟩).run.run
    { draft := { diagnostics := (r.inferTypes p).diagnostics } } = (.ok body, j)
  sketch : c.sketch =
    Sketch.withHeading ⟨j.draft.source body, j.draft.pins, j.draft.diagnostics⟩ board header

section Run

variable {r : Registry} {p : Program} {board : Board} {header : Bool} {c : Compiled}
  {places : ParentIndex} {body : String} {j : Journal}

theorem Registry.exists_ran (h : r.compile p board header = .ok c) :
    ∃ places body j, r.Ran p board header c places body j := by
  obtain ⟨places, body, j, hvalid, hrun, rfl⟩ := compile_eq_ok_iff.mp h
  exact ⟨places, body, j, hvalid, hrun, rfl⟩

theorem Registry.Ran.source_eq (h : r.Ran p board false c places body j) :
    c.sketch.source = j.draft.source body := by
  rw [h.sketch]
  rfl

/-- A run that ends well leaves the main functions as they should be, and its text is told in its
journal. -/
theorem Registry.Ran.furnished (h : standard.Ran p board header c places body j) :
    j.Furnished ⟨p, places, c.types, board⟩ ∧
      Workspace.BodyTold ⟨p, places, c.types, board⟩ j.entries body := by
  have hstart : ({ draft := { diagnostics := (standard.inferTypes p).diagnostics } } :
      Journal).Furnished ⟨p, places, c.types, board⟩ :=
    ⟨⟨fun _ _ h => (List.not_mem_nil h).elim, fun _ _ h => (List.not_mem_nil h).elim⟩,
      Journal.replays_start _⟩
  obtain ⟨hfurnished, -, hbody⟩ := leads_journalProgram (upheld_furnished _)
    (fun n hn b hb => standard_tells hn hb) (Recipe.tells_declareVariables _) hstart body j h.run
  exact ⟨hfurnished, hbody⟩

/-- In a run that ends well, every code suits its node if all recipes tell codes that do. -/
theorem Registry.Ran.suits (h : standard.Ran p board header c places body j)
    {Q : Node → List Entry → Code → Prop} (hlasting : ∀ n, Lasting (Q n))
    (htells : ∀ n b, standard.get? n.kind = some b →
      b.form.Tells ⟨p, places, c.types, board⟩ (fun _ _ => True) (Q n) n) {n : Node} {code : Code}
    (hcode : .coded n code ∈ j.entries) : Q n j.entries code := by
  have hupheld := upheld_sound (P := fun _ _ => True) (fun _ _ _ _ _ => trivial) hlasting
  obtain ⟨hsound, -⟩ := leads_journalProgram hupheld (fun n _ b hb => htells n b hb)
    (Recipe.tells_trivial _ _)
    ⟨fun _ _ h => (List.not_mem_nil h).elim, fun _ _ h => (List.not_mem_nil h).elim⟩ body j h.run
  exact hsound.suits n code hcode

/-- In a run that ends well, the code of a kind suits its node if the recipe of the kind tells code
that does. -/
theorem Registry.Ran.suits_of_kind (h : standard.Ran p board header c places body j) {n : Node}
    {code : Code} (hcode : .coded n code ∈ j.entries) {kind : String} (hkind : n.kind = kind)
    {b : Block} (hb : standardBlocks.find? (fun b => b.kind = kind) = some b)
    {Q : Node → List Entry → Code → Prop} (hlasting : ∀ n, Lasting (Q n))
    (htells : ∀ n, b.form.Tells ⟨p, places, c.types, board⟩ (fun _ _ => True) (Q n) n) :
    Q n j.entries code := by
  have hsuits := h.suits (Q := fun n past code => n.kind = kind → Q n past code)
    (fun n _ _ _ hsub hQ hkind => hlasting n hsub (hQ hkind)) (fun n b' hb' => ?_) hcode
  · exact hsuits hkind
  · by_cases hkind : n.kind = kind
    · obtain rfl := Option.some.inj ((standard_get? hkind hb).symm.trans hb')
      exact (htells n).mono fun _ _ hQ _ => hQ
    · exact (b'.form.tells_trivial _ n).mono fun _ _ _ hkind' => absurd hkind' hkind

/-- What stands under a key of a main function is shown in the sketch. -/
theorem Registry.Ran.shows (h : standard.Ran p board header c places body j) {main : MainFunction}
    {key text : String} (hget : (j.draft.sections.get main.sec).get? key = some text) :
    Shows c.sketch.source main text := by
  rw [h.sketch]
  exact Shows.withHeading (s := ⟨j.draft.source body, j.draft.pins, j.draft.diagnostics⟩)
    (Sections.shows_assemble hget body) board header

end Run

namespace Journal.Furnished

variable {w : Workspace} {j : Journal} {main : MainFunction}

theorem mainPlacement (h : j.Furnished w) {p : Placement} (hp : p ∈ placements main.sec j.entries) :
    MainPlacement w j.entries main p := by
  obtain ⟨stored, hmem⟩ := mem_placements.mp hp
  exact h.sound.proper _ stored hmem main rfl

theorem duties (h : j.Furnished w) {n : Node} {code : Code} (hcode : .coded n code ∈ j.entries) :
    MainDuties w n j.entries :=
  h.sound.suits n code hcode

theorem get?_eq (h : j.Furnished w) (main : MainFunction) (key : String) :
    (j.draft.sections.get main.sec).get? key =
      Placement.standing? (placements main.sec j.entries) key :=
  h.replays.get?_eq main.sec_ne_functions key

end Journal.Furnished

end BlockSketch
