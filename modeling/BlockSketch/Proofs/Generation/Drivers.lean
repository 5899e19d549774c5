import BlockSketch.Proofs.Block.Directions
import BlockSketch.Proofs.Emission.Segments
import BlockSketch.Proofs.Generation.Preamble

/-!
Motor drivers over a whole run. A driver replaces the variables and the modes of an earlier one with
the same identifier, so those of the last one stand. Its functions do not replace those that were
asked for before. So a function may use a variable of a pin that only another driver has wired.
-/

namespace BlockSketch

open Block Identifier

/-! ### The last driver with an identifier -/

def Entry.driver? (v : String) : Entry → Option Node
  | .coded n _ => if n.kind = Motors.driverKind ∧ Motors.identifier n = v then some n else none
  | _ => none

def lastDriver? (entries : List Entry) (v : String) : Option Node :=
  entries.reverse.findSome? (·.driver? v)

theorem lastDriver?_append (entries : List Entry) (entry : Entry) (v : String) :
    lastDriver? (entries ++ [entry]) v = (entry.driver? v).or (lastDriver? entries v) := by
  simp only [lastDriver?, List.reverse_append, List.reverse_singleton, List.singleton_append,
    List.findSome?_cons]
  cases entry.driver? v <;> rfl

theorem Entry.driver?_eq_some_iff {entry : Entry} {v : String} {n : Node} :
    entry.driver? v = some n ↔
      (∃ code, entry = .coded n code) ∧ n.kind = Motors.driverKind ∧ Motors.identifier n = v := by
  cases entry with
  | edited e answer => simp [driver?]
  | coded m code =>
      simp only [driver?, Option.ite_none_right_eq_some, Option.some.injEq, coded.injEq]
      constructor
      · rintro ⟨hdriver, rfl⟩
        exact ⟨⟨code, rfl, rfl⟩, hdriver⟩
      · rintro ⟨⟨_, rfl, -⟩, hdriver⟩
        exact ⟨hdriver, rfl⟩

/-- The last driver with an identifier is one that was set up. -/
theorem exists_of_lastDriver? {entries : List Entry} {v : String} {n : Node}
    (h : lastDriver? entries v = some n) :
    (∃ code, .coded n code ∈ entries) ∧ n.kind = Motors.driverKind ∧ Motors.identifier n = v := by
  obtain ⟨entry, hmem, hdriver⟩ := List.exists_of_findSome?_eq_some h
  obtain ⟨⟨code, rfl⟩, hn⟩ := Entry.driver?_eq_some_iff.mp hdriver
  exact ⟨⟨code, List.mem_reverse.mp hmem⟩, hn⟩

/-- Where a driver was set up there is a last one. -/
theorem exists_lastDriver? {entries : List Entry} {n : Node} {code : Code}
    (hmem : .coded n code ∈ entries) (hkind : n.kind = Motors.driverKind) :
    ∃ m, lastDriver? entries (Motors.identifier n) = some m := by
  have hsome : (lastDriver? entries (Motors.identifier n)).isSome := by
    rw [lastDriver?, List.findSome?_isSome_iff]
    refine ⟨_, List.mem_reverse.mpr hmem, ?_⟩
    rw [Entry.driver?, if_pos ⟨hkind, rfl⟩]
    rfl
  exact Option.isSome_iff_exists.mp hsome

def withDriver (drivers : String → Option Node) (n : Node) (v : String) : Option Node :=
  if v = Motors.identifier n then some n else drivers v

theorem lastDriver?_coded_of_driver (entries : List Entry) {n : Node} (code : Code)
    (hkind : n.kind = Motors.driverKind) :
    lastDriver? (entries ++ [.coded n code]) = withDriver (lastDriver? entries) n := by
  funext v
  rw [lastDriver?_append, Entry.driver?, withDriver]
  by_cases hv : v = Motors.identifier n
  · rw [if_pos ⟨hkind, hv.symm⟩, if_pos hv, Option.some_or]
  · rw [if_neg fun h => hv h.2.symm, if_neg hv, Option.none_or]

theorem lastDriver?_coded_of_ne (entries : List Entry) {n : Node} (code : Code)
    (hkind : n.kind ≠ Motors.driverKind) :
    lastDriver? (entries ++ [.coded n code]) = lastDriver? entries := by
  funext v
  rw [lastDriver?_append, Entry.driver?, if_neg fun h => hkind h.1, Option.none_or]

theorem lastDriver?_edit (j : Journal) (e : Edit) :
    lastDriver? (j.edit e).entries = lastDriver? j.entries := by
  funext v
  exact lastDriver?_append j.entries _ v

/-! ### Edits that leave drivers alone -/

def Edit.LeavesDrivers : Edit → Prop
  | place sec key _ _ => (sec = .globals → ∀ v, key ≠ Motors.variablesKey v) ∧
      (sec = .setups → ∀ v, key ≠ Motors.modesKey v)
  | _ => True

/-- What stands under the keys of drivers are the variables and modes of some drivers. -/
structure Journal.Wires (drivers : String → Option Node) (j : Journal) : Prop where
  names : ∃ past, j.Remembers past
  declared : ∀ v, Placement.standing? (placements .globals j.entries) (Motors.variablesKey v) =
    (drivers v).map Motors.pinVariables
  modes : ∀ v, Placement.standing? (placements .setups j.entries) (Motors.modesKey v) =
    (drivers v).map Motors.modes

/-- What stands under a key is left alone by an edit that puts nothing there. -/
theorem standing?_edit_of_ne {j : Journal} {e : Edit} {sec : Section} {key : String}
    (h : ∀ key' text overwrite, e = .place sec key' text overwrite → key ≠ key') :
    Placement.standing? (placements sec (j.edit e).entries) key =
      Placement.standing? (placements sec j.entries) key := by
  have hentries : (j.edit e).entries = j.entries ++ [.edited e (j.draft.apply e).1] := rfl
  rw [hentries, placements_append]
  cases hplacement : Entry.placement? sec (.edited e (j.draft.apply e).1) with
  | none => simp [placements, hplacement]
  | some p =>
      obtain ⟨stored, hmem⟩ := mem_placements.mp (List.mem_filterMap.mpr
        ⟨_, List.mem_singleton_self _, hplacement⟩)
      cases List.mem_singleton.mp hmem
      have hone : placements sec [.edited (.place sec p.key p.text p.overwrite)
          (j.draft.apply (.place sec p.key p.text p.overwrite)).1] = [p] := by
        simp [placements, hplacement]
      rw [hone, Placement.standing?_append_singleton,
        if_neg fun heq => h p.key p.text p.overwrite rfl heq.1]

/-- What is put under a key in the place of others stands there. -/
theorem standing?_edit_put {j : Journal} (sec : Section) (key text : String) :
    Placement.standing? (placements sec (j.edit (.place sec key text true)).entries) key =
      some text := by
  have hentries : (j.edit (.place sec key text true)).entries =
      j.entries ++ [.edited (.place sec key text true)
        (j.draft.apply (.place sec key text true)).1] := rfl
  have hone (stored : (Edit.place sec key text true).Answer) :
      placements sec [.edited (.place sec key text true) stored] = [⟨key, text, true⟩] := by
    simp [placements, Entry.placement?]
  rw [hentries, placements_append, hone, Placement.standing?_append_singleton]
  simp

namespace Journal.Wires

variable {j : Journal} {drivers : String → Option Node}

theorem edit (h : j.Wires drivers) {e : Edit} (he : e.LeavesDrivers) :
    (j.edit e).Wires drivers := by
  obtain ⟨past, hpast⟩ := h.names
  refine ⟨hpast.edit e, fun v => ?_, fun v => ?_⟩
  · rw [standing?_edit_of_ne, h.declared v]
    rintro key text overwrite rfl heq
    exact he.1 rfl v heq.symm
  · rw [standing?_edit_of_ne, h.modes v]
    rintro key text overwrite rfl heq
    exact he.2 rfl v heq.symm

theorem note (h : j.Wires drivers) (n : Node) (code : Code) :
    (j.note (.coded n code)).Wires drivers := by
  have hsame (sec : Section) :
      placements sec (j.note (.coded n code)).entries = placements sec j.entries := by
    simp [Journal.note, placements, Entry.placement?]
  obtain ⟨past, hpast⟩ := h.names
  refine ⟨⟨past, hpast.unchanged rfl rfl fun name ns x hx => ?_⟩, fun v => ?_, fun v => ?_⟩
  · rcases List.mem_append.mp hx with hx | hx
    · exact hx
    · cases List.mem_singleton.mp hx
  · rw [hsame, h.declared v]
  · rw [hsame, h.modes v]

/-- Once both the variables and the modes of a driver are put in their places, it stands there. -/
theorem setUp (h : j.Wires drivers) (n : Node) :
    ((j.edit (.place .globals (Motors.variablesKey (Motors.identifier n))
      (Motors.pinVariables n) true)).edit (.place .setups (Motors.modesKey (Motors.identifier n))
        (Motors.modes n) true)).Wires (withDriver drivers n) := by
  obtain ⟨past, hpast⟩ := h.names
  obtain ⟨past', hpast'⟩ := hpast.edit (.place .globals
    (Motors.variablesKey (Motors.identifier n)) (Motors.pinVariables n) true)
  refine ⟨hpast'.edit _, fun v => ?_, fun v => ?_⟩
  · rw [standing?_edit_of_ne (by simp), withDriver]
    by_cases hv : v = Motors.identifier n
    · rw [if_pos hv, hv, standing?_edit_put, Option.map_some]
    · rw [if_neg hv, standing?_edit_of_ne, h.declared v]
      rintro key text overwrite heq hkey
      cases heq
      exact hv ((String.append_right_inj _).mp hkey)
  · rw [withDriver]
    by_cases hv : v = Motors.identifier n
    · rw [if_pos hv, hv, standing?_edit_put, Option.map_some]
    · rw [if_neg hv, standing?_edit_of_ne, standing?_edit_of_ne (by simp), h.modes v]
      rintro key text overwrite heq hkey
      cases heq
      exact hv ((String.append_right_inj _).mp hkey)

end Journal.Wires

/-! ### Kinds -/

/-- An identifier that was told for a name is not the key of a driver. -/
theorem Journal.Remembers.ne_variablesKey {past : List Answer} {j : Journal}
    (h : j.Remembers past) {name : String} {ns : Namespace} {x : String}
    (hx : .edited (.identifier name ns) x ∈ j.entries) (v : String) :
    x ≠ Motors.variablesKey v := by
  obtain ⟨a, ha, -, rfl⟩ := h.named name ns x hx
  obtain ⟨c, rest, hchars, -, hrest⟩ := (h.records.legal a ha).1
  intro heq
  rw [heq, Motors.variablesKey, String.toList_append] at hchars
  have hrest' : rest = ['n', 'i', 't', '-', 'm', 'o', 't', 'o', 'r', '_'] ++ v.toList :=
    (List.cons.inj hchars).2.symm
  exact absurd (hrest '-' (by rw [hrest']; simp)) (by decide)

/-- The key for code of the user is not the key of a driver. -/
theorem Block.Structure.codeKey_ne_variablesKey (id v : String) :
    "base_define_bloc_" ++ id ≠ Motors.variablesKey v := by
  intro h
  simpa [Motors.variablesKey] using congrArg String.toList h

theorem Edit.IsListed.leavesDrivers {w : Workspace} {past : List Identifier.Answer} {j : Journal}
    (hj : j.Remembers past) {e : Edit} (h : e.IsListed w j.entries) : e.LeavesDrivers := by
  cases e with
  | place sec key text overwrite =>
      obtain ⟨rfl, name, -, x, hx, hp⟩ := h
      cases hp
      exact ⟨fun _ => hj.ne_variablesKey hx, by simp⟩
  | helper name body => trivial
  | identifier name ns => trivial
  | freshVariable name => trivial
  | claim node pin usage label => trivial
  | report node concern message => trivial

/-- A node that is no driver leaves the keys of drivers alone. -/
theorem Edit.IsContribution.leavesDrivers {w : Workspace} {past : List Identifier.Answer}
    {j : Journal} (hj : j.Remembers past) {n : Node} (hkind : n.kind ≠ Motors.driverKind) {e : Edit}
    (h : e.IsContribution w n j.entries) : e.LeavesDrivers := by
  cases e with
  | place sec key text overwrite =>
      have hcontribution : Contribution w j.entries n sec ⟨key, text, overwrite⟩ := h
      generalize hp : (⟨key, text, overwrite⟩ : Placement) = p at hcontribution
      obtain rfl : key = p.key := congrArg Placement.key hp
      cases hcontribution with
      | declared words hdeclaring htail hx => exact ⟨fun _ => hj.ne_variablesKey hx, by simp⟩
      | code hcode htold => exact ⟨fun _ => Structure.codeKey_ne_variablesKey _, by simp⟩
      | driverVariables hdriver => exact absurd hdriver hkind
      | driverModes hdriver => exact absurd hdriver hkind
      | setup hkey => exact ⟨by simp, fun _ v heq => hkey ⟨v, heq⟩⟩
      | _ => exact ⟨by simp, by simp⟩
  | helper name body => trivial
  | identifier name ns => trivial
  | freshVariable name => trivial
  | claim node pin usage label => trivial
  | report node concern message => trivial

def Journal.Wired (j : Journal) : Prop := j.Wires (lastDriver? j.entries)

/-- Some drivers stand in their places, and some were the last ones that were set up. While a driver
is set up the two differ. -/
def Journal.Between (standing told : String → Option Node) (j : Journal) : Prop :=
  j.Wires standing ∧ lastDriver? j.entries = told

theorem Journal.Between.edit {standing told : String → Option Node} {j : Journal}
    (h : j.Between standing told) {e : Edit} (he : e.LeavesDrivers) :
    (j.edit e).Between standing told :=
  ⟨h.1.edit he, (lastDriver?_edit j e).trans h.2⟩

namespace Block.Motors

open Recipe

variable {w : Workspace} {n : Node} {I : Journal → Prop} {standing told : String → Option Node}

theorem keeps_claimDriverPin (p : DriverPin) {j : Journal} (hj : j.Between standing told) :
    (claimDriverPin w n p).Keeps w I (fun j _ => j.Between standing told) j := by
  unfold claimDriverPin
  split
  · exact Journal.Between.edit (Journal.Between.edit (hj.edit (by trivial)) (by trivial))
      (by trivial)
  · exact Journal.Between.edit (hj.edit (by trivial)) (by trivial)

theorem keeps_defineDirection (v : String) (wiring : Wiring) (d : Direction) {j : Journal}
    (hj : j.Between standing told) :
    (defineDirection v wiring d).Keeps w I (fun j _ => j.Between standing told) j := by
  unfold defineDirection
  split
  · exact hj
  · exact hj.edit (by trivial)

theorem setUp_eq (w : Workspace) (n : Node) : setUp w n = (do
    (Wiring.of n).pins.forM (claimDriverPin w n)
    put .globals (variablesKey (identifier n)) (pinVariables n)
    put .setups (modesKey (identifier n)) (modes n)
    Direction.all.forM (fun d => do let _ ← defineDirection (identifier n) (Wiring.of n) d)
    return "") := by
  unfold setUp variablesKey modesKey pinVariables modes identifier
  rfl

/-- A driver that is set up stands in its place from then on. -/
theorem keeps_setUp (hkind : n.kind = driverKind) :
    (statement driverKind setUp).form.Keeps w Journal.Wired n := by
  intro j hj
  rw [setUp_eq]
  have hstart : j.Between (lastDriver? j.entries) (lastDriver? j.entries) := ⟨hj, rfl⟩
  generalize lastDriver? j.entries = drivers at hstart
  refine keeps_bind.mpr ((keeps_forM (fun p _ j hj => keeps_claimDriverPin p hj) hstart).mono
    fun j₁ _ h₁ => ?_)
  have hset : ((j₁.edit (.place .globals (variablesKey (identifier n)) (pinVariables n) true)).edit
      (.place .setups (modesKey (identifier n)) (modes n) true)).Between
        (withDriver drivers n) drivers :=
    ⟨h₁.1.setUp n, by rw [lastDriver?_edit, lastDriver?_edit, h₁.2]⟩
  have hdirections : (Direction.all.forM fun d => do
        let _ ← defineDirection (identifier n) (Wiring.of n) d).Keeps w Journal.Wired
      (fun j _ => j.Between (withDriver drivers n) drivers) _ :=
    keeps_forM (fun d _ j hj => keeps_bind.mpr (keeps_defineDirection _ _ d hj)) hset
  refine keeps_bind.mpr (keeps_put.mpr (keeps_bind.mpr (keeps_put.mpr
    (keeps_bind.mpr (hdirections.mono fun j₂ _ h₂ => ?_)))))
  have hlast : lastDriver? (j₂.note (.coded n (.statement ""))).entries = withDriver drivers n := by
    rw [Journal.note, lastDriver?_coded_of_driver _ _ hkind, h₂.2]
  change (j₂.note (.coded n (.statement ""))).Wires _
  rw [hlast]
  exact h₂.1.note n _

end Block.Motors

/-- Between nodes, the last driver with an identifier that was set up stands in its place. -/
theorem Registry.standard_keeps_wired {w : Workspace} {n : Node} {b : Block}
    (h : standard.get? n.kind = some b) : b.form.Keeps w Journal.Wired n := by
  by_cases hkind : n.kind = Motors.driverKind
  · have hb : b = statement Motors.driverKind Motors.setUp := by
      rw [hkind, get?_standard] at h
      exact (Option.some.inj h).symm
    exact hb ▸ Motors.keeps_setUp hkind
  · refine Form.Tells.keeps (fun j e hj he => ?_) (fun j code hj _ => ?_) (standard_contributes h)
    · obtain ⟨past, hpast⟩ := hj.names
      have hedit := hj.edit (he.leavesDrivers hpast hkind)
      rwa [← lastDriver?_edit j e] at hedit
    · have hnote := hj.note n code
      rwa [← lastDriver?_coded_of_ne j.entries code hkind] at hnote

theorem Recipe.keeps_declareVariables_wired (w : Workspace) (j : Journal) (hj : j.Wired) :
    (declareVariables w).Keeps w Journal.Wired (fun j _ => j.Wired) j := by
  have htells : (declareVariables w).Tells w (Edit.IsListed w) (fun _ _ => True) j.entries :=
    (gives_declareVariables w j.entries).tells (lasting_isListed w) fun _ _ _ _ _ => trivial
  refine (htells.keeps (fun j e hj he => ?_) hj).mono fun _ _ h => h.1
  obtain ⟨past, hpast⟩ := hj.names
  have hedit := hj.edit (he.leavesDrivers hpast)
  rwa [← lastDriver?_edit j e] at hedit

/-- After a run that ends well, the last driver with an identifier stands in its place. -/
theorem Registry.Ran.wired {p : Program} {board : Board} {header : Bool} {c : Compiled}
    {places : ParentIndex} {body : String} {j : Journal}
    (h : standard.Ran p board header c places body j) : j.Wired := by
  refine keeps_journalProgram (fun n _ b hb => standard_keeps_wired hb)
    (Recipe.keeps_declareVariables_wired _) ?_ h.run
  exact ⟨(Journal.accounts_start ⟨p, places, c.types, board⟩ _).names, fun _ => rfl, fun _ => rfl⟩

namespace Block.Motors

/-- A variable of a driver is declared, and the mode of its pin is set unless it is the speed. -/
def Provided (s : Sections) (v suffix : String) : Prop :=
  ∃ declarations settings, s.globals.get? (variablesKey v) = some declarations ∧
    s.setups.get? (modesKey v) = some settings ∧ DeclaresVariable declarations v suffix ∧
    (suffix = "Speed" ∨ SetsMode settings v suffix)

theorem directionName_ne_procedureKey (n : Node) (d : Direction) (f : String) :
    directionName (identifier n) d.name ≠ procedureKey f := by
  intro heq
  obtain ⟨c, rest, hspell, hstart, -⟩ := isLegal_spell (driverName n)
  have hchars := congrArg String.toList heq
  rw [directionName, String.toList_append, String.toList_append, identifier, hspell, procedureKey,
    String.toList_append] at hchars
  rw [(List.cons.inj hchars).1] at hstart
  exact absurd hstart (by decide)

/-- The function of a direction is the one that was asked for first, by a driver with the same
identifier. -/
theorem exists_driver_of_get? {w : Workspace} {j : Journal} (h : j.Accounts w) {n : Node}
    {d : Direction} {text : String}
    (hget : j.draft.functions.get? (directionName (identifier n) d.name) = some text) :
    firstHelped? j.entries (directionName (identifier n) d.name) = some text ∧
      ∃ m ∈ w.program.nodes, m.kind = driverKind ∧ identifier m = identifier n ∧
        ∃ f, text = directionFunction (identifier n) (Wiring.of m) d f := by
  rw [h.functions, Option.or_eq_some_iff] at hget
  rcases hget with hplaced | ⟨-, hhelped⟩
  · obtain ⟨overwrite, stored, hmem⟩ := exists_of_lastPlaced? hplaced
    obtain ⟨-, f, hkey, -⟩ := h.proper _ stored hmem rfl
    exact absurd hkey (directionName_ne_procedureKey n d f)
  · obtain ⟨body, f, hmem, rfl⟩ := exists_of_firstHelped? hhelped
    obtain ⟨m, hm, hkind, hidentifier, rfl⟩ :=
      exists_driver_of_direction (h.proper (.helper _ body) f hmem)
    exact ⟨hhelped, m, hm, hkind, hidentifier, f, rfl⟩

end Block.Motors

open Motors

/-- In every program that compiles, the variables and modes of a driver are those of the last driver
with its identifier that was set up, and each function for a direction of it is the one that was
asked for first, for the wiring of some driver with that identifier. Every variable of the driver
that occurs in the body of the function is declared, and the mode of its pin is set unless it is the
speed, except for pins that are wired where the function comes from and not where the variables do.
So all of them are if the drivers with one identifier are wired alike. -/
theorem direction_variables_provided_unless_rewired {p : Program} {board : Board} {header : Bool}
    {c : Compiled} (h : Registry.standard.compile p board header = .ok c) :
    ∃ places body j, Registry.standard.Ran p board header c places body j ∧
      let s := j.draft.sections
      (∀ n code, .coded n code ∈ j.entries → n.kind = driverKind →
        ∃ m, lastDriver? j.entries (identifier n) = some m) ∧
      ∀ v m, lastDriver? j.entries v = some m →
        s.globals.get? (variablesKey v) = some (pinVariables m) ∧
        s.setups.get? (modesKey v) = some (modes m) ∧
        ∀ (d : Direction) (text : String), s.functions.get? (directionName v d.name) = some text →
          firstHelped? j.entries (directionName v d.name) = some text ∧
          ∃ source ∈ p.nodes, source.kind = driverKind ∧ identifier source = v ∧
            ∃ f, text = "void " ++ f ++ "()" ++ braced (directionBody v (Wiring.of source) d) ∧
            ∀ suffix ∈ allSuffixes,
              .word (v ++ suffix) ∈ Cpp.tokenize (directionBody v (Wiring.of source) d) →
              Provided s v suffix ∨
                suffix ∈ (Wiring.of source).suffixes ∧ suffix ∉ (Wiring.of m).suffixes := by
  obtain ⟨places, body, j, hran⟩ := Registry.exists_ran h
  have hwired := hran.wired
  have hreplays := hran.furnished.1.replays
  have haccounts := Registry.accounts_journalProgram hran.run
  refine ⟨places, body, j, hran, fun n code hmem hkind => exists_lastDriver? hmem hkind, ?_⟩
  intro v m hlast
  obtain ⟨-, -, rfl⟩ := exists_of_lastDriver? hlast
  have hglobals : j.draft.sections.globals.get? (variablesKey (identifier m)) =
      some (pinVariables m) := by
    have hget := hreplays.get?_eq (by decide : Section.globals ≠ .functions)
      (variablesKey (identifier m))
    rw [hwired.declared, hlast] at hget
    exact hget
  have hsetups : j.draft.sections.setups.get? (modesKey (identifier m)) = some (modes m) := by
    have hget := hreplays.get?_eq (by decide : Section.setups ≠ .functions)
      (modesKey (identifier m))
    rw [hwired.modes, hlast] at hget
    exact hget
  refine ⟨hglobals, hsetups, fun d text hget => ?_⟩
  obtain ⟨hfirst, source, hsource, hkind, hidentifier, f, rfl⟩ :=
    exists_driver_of_get? haccounts hget
  refine ⟨hfirst, source, hsource, hkind, hidentifier, f, directionFunction_eq _ _ _ _, ?_⟩
  intro suffix hsuffix hword
  by_cases hspeed : suffix = "Speed"
  · exact .inl ⟨_, _, hglobals, hsetups, declaresVariable_pinVariables (.inr hspeed), .inl hspeed⟩
  · have hused := (suffix_of_mem_tokenize (isWord_spell _) hsuffix hword).resolve_right hspeed
    by_cases hwire : suffix ∈ (Wiring.of m).suffixes
    · exact .inl ⟨_, _, hglobals, hsetups, declaresVariable_pinVariables (.inl hwire),
        .inr (setsMode_modes hwire)⟩
    · exact .inr ⟨hused, hwire⟩

/-- Two drivers with one motor and the same identifier, one set up after the other. The pin for the
speed is wired to the first one, and to the second one if so chosen. -/
def driverPair (second : Bool) : Program where
  nodes :=
    [{ id := ⟨1⟩, kind := "l298_init", variant := some (.motorDriver 1 true false),
       next := some ⟨2⟩ },
      { id := ⟨2⟩, kind := "l298_init", fields := .ofList [("PIN0", "2"), ("PIN1", "4")],
        variant := some (.motorDriver 1 second false) }]
  topLevel := [⟨1⟩]

/-- Where both drivers are wired alike, the function for going forward finds its variables. -/
theorem driverPair_variables_provided :
    ∃ c places body j, Registry.standard.compile (driverPair true) .uno false = .ok c ∧
      Registry.standard.Ran (driverPair true) .uno false c places body j ∧
      Provided j.draft.sections "MT" "ENA" := by
  have hcompiles : ∃ c, Registry.standard.compile (driverPair true) .uno false = .ok c := by
    simp only [Registry.compile_eq_ok_iff, Registry.get?_standard]
    exact ⟨_, _, _, _, rfl, rfl, rfl⟩
  obtain ⟨c, hc⟩ := hcompiles
  obtain ⟨places, body, j, hran, -, hprovided⟩ := direction_variables_provided_unless_rewired hc
  have hj := (congrArg Prod.snd (hran.run_eq rfl (Registry.types_of_compile hc))).symm
  have hlast : lastDriver? j.entries "MT" = some ((driverPair true).nodes.getD 1 default) := by
    rw [show j = _ from hj]
    decide +kernel
  have hforward : j.draft.sections.functions.get? (directionName "MT" Direction.forward.name) =
      some (directionFunction "MT" ⟨false, true, false⟩ .forward "MT_Forward") := by
    rw [show j = _ from hj]
    decide +kernel
  obtain ⟨-, -, hfunctions⟩ := hprovided _ _ hlast
  obtain ⟨-, source, hsource, -, -, -, -, hused⟩ := hfunctions .forward _ hforward
  refine ⟨c, _, body, j, hc, hran, ?_⟩
  -- both drivers have the same wiring
  have hwiring : Wiring.of source = ⟨false, true, false⟩ := by
    rcases List.mem_pair.mp hsource with rfl | rfl <;> rfl
  rw [hwiring] at hused
  exact (hused "ENA" (by decide) (by decide +kernel)).resolve_right (by decide +kernel)

/-- Where the second driver has no pin for the speed, the function that was asked for by the first
one uses a variable of this pin, which is not declared. -/
theorem driverPair_variable_missing :
    ∃ c places body j text, Registry.standard.compile (driverPair false) .uno false = .ok c ∧
      Registry.standard.Ran (driverPair false) .uno false c places body j ∧
      lastDriver? j.entries "MT" = some ((driverPair false).nodes.getD 1 default) ∧
      j.draft.sections.functions.get? "MT_Forward" = some ("void MT_Forward()" ++ braced text) ∧
      .word "MTENA" ∈ Cpp.tokenize text ∧
      j.draft.sections.globals.get? (variablesKey "MT") =
        some "int MTA1 = 2;\nint MTA2 = 4;\nint MTSpeed = 200;" ∧
      ¬ Provided j.draft.sections "MT" "ENA" := by
  have hcompiles : ∃ c, Registry.standard.compile (driverPair false) .uno false = .ok c := by
    simp only [Registry.compile_eq_ok_iff, Registry.get?_standard]
    exact ⟨_, _, _, _, rfl, rfl, rfl⟩
  obtain ⟨c, hc⟩ := hcompiles
  obtain ⟨places, body, j, hran⟩ := Registry.exists_ran hc
  have hj := (congrArg Prod.snd (hran.run_eq rfl (Registry.types_of_compile hc))).symm
  have hlast : lastDriver? j.entries "MT" = some ((driverPair false).nodes.getD 1 default) := by
    rw [show j = _ from hj]
    decide +kernel
  have hforward : j.draft.sections.functions.get? "MT_Forward" =
      some ("void MT_Forward()" ++ braced (directionBody "MT" ⟨false, true, false⟩ .forward)) := by
    rw [show j = _ from hj]
    decide +kernel
  have hglobals : j.draft.sections.globals.get? (variablesKey "MT") =
      some "int MTA1 = 2;\nint MTA2 = 4;\nint MTSpeed = 200;" := by
    rw [show j = _ from hj]
    decide +kernel
  refine ⟨c, _, body, j, _, hc, hran, hlast, hforward, by decide +kernel, hglobals, ?_⟩
  rintro ⟨declarations, -, hdeclarations, -, ⟨before, after, htext, -⟩, -⟩
  obtain rfl := Option.some.inj (hglobals.symm.trans hdeclarations)
  have hinfix : "int MTENA = ".toList <:+:
      "int MTA1 = 2;\nint MTA2 = 4;\nint MTSpeed = 200;".toList :=
    ⟨before.toList, after.toList, by rw [htext]; simp⟩
  exact absurd hinfix (by decide +kernel)

end BlockSketch
