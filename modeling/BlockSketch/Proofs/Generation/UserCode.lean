import BlockSketch.Proofs.Generation.MainFunctions

/-!
What becomes of the code in containers. Every container that is emitted hands its code to a main
function. A container for `setup` alone has a key of its own there, and its code is always shown.
All others share one key for each main function, and of the codes that are handed over under it only
the last one stands.
-/

namespace BlockSketch

open Block

def handedOver (told : List Entry) (part : Part) : List String :=
  (Placement.under part.key (placements part.main.sec told)).map (·.text)

/-- In the place of the code of a part stands that of another container with the same key. -/
def Replaced (w : Workspace) (told : List Entry) (source : String) (n : Node) (part : Part)
    (text : String) : Prop :=
  part.own = false ∧ ∃ m ∈ w.program.nodes, m ≠ n ∧ ∃ part' ∈ m.parts, part'.main = part.main ∧
    part'.key = part.key ∧ ∃ text', w.ChainTold told (m.head? part'.socket) text' ∧ text' ≠ "" ∧
      text' ≠ text ∧ Shows source part.main text'

/-- The parts of a node go to different main functions. -/
theorem Node.part_unique {n : Node} {part part' : Part} (h : part ∈ n.parts) (h' : part' ∈ n.parts)
    (hmain : part'.main = part.main) : part' = part := by
  have hnodup : (n.parts.map (·.main)).Nodup := by
    unfold Node.parts
    split <;> simp
  exact List.inj_on_of_nodup_map hnodup h' h hmain

namespace Journal.Furnished

variable {w : Workspace} {j : Journal} {n : Node} {part : Part}

/-- Under the key of a part stands what was handed over last. -/
theorem get?_part (h : j.Furnished w) (hpart : part ∈ n.parts) :
    (j.draft.sections.get part.main.sec).get? part.key = (handedOver j.entries part).getLast? := by
  rw [h.get?_eq, Placement.standing?_eq_getLast?, handedOver, List.getLast?_map]
  intro p hp
  obtain ⟨hmem, hkey⟩ := Placement.mem_under.mp hp
  exact ((h.mainPlacement hmem).user_of_key hpart hkey).1

/-- A code that was handed over is shown, or has given way to that of another container. -/
theorem shows_or_replaced (h : j.Furnished w) (hids : (w.program.nodes.map (·.id)).Nodup)
    (hunique : (codedIds j.entries).Nodup) (hn : n ∈ w.program.nodes) (hpart : part ∈ n.parts)
    {text : String} (htold : w.ChainTold j.entries (n.head? part.socket) text)
    (hplaced : ⟨part.key, text, true⟩ ∈ placements part.main.sec j.entries) {source : String}
    (hsource : ∀ text', (j.draft.sections.get part.main.sec).get? part.key = some text' →
      Shows source part.main text') :
    Shows source part.main text ∨ Replaced w j.entries source n part text := by
  obtain ⟨p, hp, hstanding, -⟩ :=
    Placement.exists_standing? (Placement.mem_under.mpr ⟨hplaced, rfl⟩)
  have hshows := hsource p.text ((h.get?_eq part.main part.key).trans hstanding)
  by_cases heq : p.text = text
  · exact .inl (heq ▸ hshows)
  · obtain ⟨hmem, hkey⟩ := Placement.mem_under.mp hp
    obtain ⟨-, m, hm, part', hpart', hmain, hkey', htold', hne⟩ :=
      (h.mainPlacement hmem).user_of_key hpart hkey
    -- a node has one part for a main function, and a part one text
    have hother : m ≠ n := by
      rintro rfl
      obtain rfl := Node.part_unique hpart hpart' hmain
      exact heq (htold'.unique hunique htold)
    have hids' : m.id ≠ n.id := fun hid => hother (List.inj_on_of_nodup_map hids hm hn hid)
    have hshared : part.own = false := by
      by_contra hown
      exact hids' (Node.id_eq_of_own hpart hpart' (by simpa using hown) hkey')
    have hshared' : part'.own ≠ true :=
      fun hown => hids'.symm (Node.id_eq_of_own hpart' hpart hown hkey'.symm)
    exact .inr ⟨hshared, m, hm, hother, part', hpart', hmain, hkey', p.text, htold',
      hne.resolve_left hshared', heq, hshows⟩

end Journal.Furnished

/-- In every program that compiles, each node at the top level is emitted, and each socket of an
emitted container has one text. The text is handed over to its main function unless it is empty, and
of the texts with the same key the last one stands. So it is shown, unless its key is shared and
another container with the same key has put a text of its own in its place. -/
theorem user_code_shown_unless_replaced {p : Program} {board : Board} {header : Bool} {c : Compiled}
    (h : Registry.standard.compile p board header = .ok c) :
    ∃ places body j, Registry.standard.Ran p board header c places body j ∧
      let w : Workspace := ⟨p, places, c.types, board⟩
      (∀ id ∈ p.topLevel, ∃ n code, p.find? id = some n ∧ .coded n code ∈ j.entries) ∧
      ∀ n code, .coded n code ∈ j.entries → ∀ part ∈ n.parts,
        (∃! text, w.ChainTold j.entries (n.head? part.socket) text) ∧
        (j.draft.sections.get part.main.sec).get? part.key =
          (handedOver j.entries part).getLast? ∧
        ∀ text, w.ChainTold j.entries (n.head? part.socket) text → text ≠ "" →
          text ∈ handedOver j.entries part ∧
          (Shows c.sketch.source part.main text ∨
            Replaced w j.entries c.sketch.source n part text) := by
  obtain ⟨places, body, j, hran⟩ := Registry.exists_ran h
  obtain ⟨hforest, hplaces⟩ := Program.isForest_of_validate hran.valid
  obtain ⟨hfurnished, hbody⟩ := hran.furnished
  have hunique := Registry.nodup_codedIds Registry.standard_readsOnce hforest hplaces hran.run
  refine ⟨places, body, j, hran, fun id hid => ?_, fun n code hcode part hpart => ?_⟩
  · obtain ⟨n, hn⟩ := Program.exists_find? (hforest.topLevel_exist id hid)
    obtain ⟨code, hcode⟩ := hbody.exists_coded hid hn
    exact ⟨n, code, hn, hcode⟩
  · have hduties := hfurnished.duties hcode
    obtain ⟨text, htold, hplaced⟩ := hduties.parts part hpart
    refine ⟨⟨text, htold, fun text' htold' => htold'.unique hunique htold⟩,
      hfurnished.get?_part hpart, fun text' htold' hne => ?_⟩
    obtain rfl := htold'.unique hunique htold
    have hmem := hplaced.resolve_left hne
    refine ⟨List.mem_map.mpr ⟨_, Placement.mem_under.mpr ⟨hmem, rfl⟩, rfl⟩, ?_⟩
    exact hfurnished.shows_or_replaced hforest.ids_nodup hunique hduties.mem hpart htold hmem
      fun _ hget => hran.shows hget

/-- Two containers of a kind at the top level, with a line of code in a socket of each. -/
def containerPair (kind socket : String) : Program where
  nodes :=
    [{ id := ⟨1⟩, kind, statements := [{ name := socket, head := some ⟨2⟩ }] },
      { id := ⟨2⟩, kind := "base_code", fields := .ofList [("TEXT", "a();")] },
      { id := ⟨3⟩, kind, statements := [{ name := socket, head := some ⟨4⟩ }] },
      { id := ⟨4⟩, kind := "base_code", fields := .ofList [("TEXT", "b();")] }]
  topLevel := [⟨1⟩, ⟨3⟩]

/-- Of two containers for `setup` alone both codes are shown. -/
theorem setupPair_codes_shown :
    ∃ c, Registry.standard.compile (containerPair "base_setup" "DO") .uno false = .ok c ∧
      Shows c.sketch.source .setup "a();\n" ∧ Shows c.sketch.source .setup "b();\n" := by
  have hcompiles : ∃ c, Registry.standard.compile (containerPair "base_setup" "DO") .uno false =
      .ok c := by
    simp only [Registry.compile_eq_ok_iff, Registry.get?_standard]
    exact ⟨_, _, _, _, rfl, rfl, rfl⟩
  obtain ⟨c, hc⟩ := hcompiles
  obtain ⟨places, body, j, hran, -, hparts⟩ := user_code_shown_unless_replaced hc
  -- a container with a key of its own is not replaced
  have hshows {n : Node} {text : String} (hcode : .coded n (.statement "") ∈ j.entries)
      (hkind : n.kind = "base_setup")
      (htold : Workspace.ChainTold ⟨containerPair "base_setup" "DO", places, c.types, .uno⟩
        j.entries (n.head? "DO") text) (hne : text ≠ "") : Shows c.sketch.source .setup text := by
    have hpart : ⟨.setup, "base_setup_" ++ toString n.id.toNat, "DO", true⟩ ∈ n.parts := by
      simp [Node.parts, hkind]
    refine ((hparts n _ hcode _ hpart).2.2 text htold hne).2.resolve_right fun hreplaced => ?_
    exact Bool.noConfusion hreplaced.1
  obtain rfl := Except.ok.inj hran.valid
  have hentries := congrArg (·.2.entries) hran.run
  rw [Registry.get?_standard] at hentries
  refine ⟨c, hc, ?_, ?_⟩
  · have hinner := List.mem_of_getElem? (congrArg (·[0]?) hentries).symm
    refine hshows (List.mem_of_getElem? (congrArg (·[2]?) hentries).symm) rfl ?_ (by decide)
    exact ⟨["a();\n"], .cons ⟨_, hinner, rfl⟩ .nil, rfl⟩
  · have hinner := List.mem_of_getElem? (congrArg (·[3]?) hentries).symm
    refine hshows (List.mem_of_getElem? (congrArg (·[5]?) hentries).symm) rfl ?_ (by decide)
    exact ⟨["b();\n"], .cons ⟨_, hinner, rfl⟩ .nil, rfl⟩

/-- Of two containers for `loop` the first one is emitted, but its code stands nowhere in the
sketch. -/
theorem loopPair_first_code_lost :
    let p := containerPair "base_loop" "LOOP_FUNC"
    ∃ c places body j, Registry.standard.compile p .uno false = .ok c ∧
      Registry.standard.Ran p .uno false c places body j ∧
      (∃ n code, p.find? ⟨1⟩ = some n ∧ .coded n code ∈ j.entries ∧
        Workspace.ChainTold ⟨p, places, c.types, .uno⟩ j.entries (n.head? "LOOP_FUNC") "a();\n") ∧
      c.sketch.source = "void setup() \x7b\n\x7d\n\nvoid loop() \x7b\n  b();\n\x7d\n" ∧
      ¬ "a();".toList <:+: c.sketch.source.toList := by
  intro p
  have hcompiles : ∃ c, Registry.standard.compile p .uno false = .ok c := by
    simp only [Registry.compile_eq_ok_iff, Registry.get?_standard]
    exact ⟨_, _, _, _, rfl, rfl, rfl⟩
  obtain ⟨c, hc⟩ := hcompiles
  obtain ⟨places, body, j, hran⟩ := Registry.exists_ran hc
  have hrun := hran.run
  rw [Registry.get?_standard] at hrun
  obtain rfl := Except.ok.inj hran.valid
  have hinner := List.mem_of_getElem? (congrArg (·.2.entries[0]?) hrun).symm
  have houter := List.mem_of_getElem? (congrArg (·.2.entries[2]?) hrun).symm
  have hbody : body = "" := (Except.ok.inj (congrArg (·.1) hrun)).symm
  have hsections : j.draft.sections = { loops := ⟨[(Sections.userLoopKey, "b();\n")]⟩ } :=
    (congrArg (·.2.draft.sections) hrun).symm
  have hsource : c.sketch.source =
      "void setup() \x7b\n\x7d\n\nvoid loop() \x7b\n  b();\n\x7d\n" := by
    rw [hran.source_eq, hbody, Draft.source, hsections]
    decide +kernel
  refine ⟨c, _, body, j, hc, hran, ⟨_, _, rfl, houter, ?_⟩, hsource, ?_⟩
  · exact ⟨["a();\n"], .cons ⟨_, hinner, rfl⟩ .nil, rfl⟩
  · rw [hsource]
    decide +kernel

end BlockSketch
