import BlockSketch.Generation
import BlockSketch.Proofs.Block.Registry
import BlockSketch.Proofs.Identifier.UserNames
import BlockSketch.Proofs.Identifier.Words
import BlockSketch.Proofs.Inference.Propagation
import BlockSketch.Proofs.Inference.Renaming
import Mathlib.Data.List.Find

/-!
The declarations of the listed variables. Names that differ only in case share an identifier, and
the identifier is declared once, with the type found for the name that is listed first. Types are
found for names as they are spelled, though. So the declared type is the one found for the variable
where the program spells each variable in one way, and may differ from it elsewhere.
-/

namespace BlockSketch

open Identifier

def declarationText (t : DataType) (identifier : String) : String :=
  t.declaration ++ " " ++ identifier ++ ";"

namespace Draft

def declare (types : TypeMap) (d : Draft) (name : String) : Draft :=
  let (identifier, d) := d.identifier name .variable
  (d.place .globals identifier (declarationText (types.get name) identifier) false).2

theorem variableScope_declare (types : TypeMap) (d : Draft) (name : String) :
    (d.declare types name).names.variableScope = (d.names.variableScope.nameOf name).2 :=
  rfl

theorem globals_declare (types : TypeMap) (d : Draft) (name : String) :
    (d.declare types name).sections.globals =
      (d.sections.globals.insert (d.names.variableScope.nameOf name).1
        (declarationText (types.get name) (d.names.variableScope.nameOf name).1) false).2 :=
  rfl

end Draft

theorem Recipe.run_declareVariables (w : Workspace) (emit : Node → Emit Code) (d : Draft) :
    ((declareVariables w).perform w emit).run.run d =
      (.ok (), w.program.variableNames.foldl (Draft.declare w.types) d) := by
  have hloop (names : List String) (d : Draft) :
      ((names.forM fun name => do
          let identifier ← variableName name
          offer .globals identifier s!"{(w.types.get name).declaration} {identifier};" :
            Recipe Unit).perform w emit).run.run d =
        (.ok (), names.foldl (Draft.declare w.types) d) := by
    induction names generalizing d with
    | nil => rfl
    | cons name rest ih => exact ih (d.declare w.types name)
  exact hloop w.program.variableNames d

theorem Identifier.Scope.lookup_nameOf_of_ne (s : Scope) {name key : String}
    (h : key ≠ Text.lowercase name) :
    (s.nameOf name).2.assigned.lookup key = s.assigned.lookup key := by
  cases hname : s.assigned.lookup (Text.lowercase name) with
  | some identifier => rw [nameOf_of_lookup hname]
  | none => rw [nameOf_of_lookup_eq_none hname, List.lookup_cons, beq_false_of_ne h]

/-- What is declared after some names: all of them have an identifier, and every identifier is
declared with the type of the first name that has it. -/
structure Draft.Declares (types : TypeMap) (past : List String) (d : Draft) : Prop where
  names : ∃ answers, NameTable.Records answers d.names
  assigned : ∀ key, (d.names.variableScope.assigned.lookup key).isSome ↔
    ∃ v ∈ past, Text.lowercase v = key
  globals : ∀ x, d.sections.globals.get? x =
    (past.find? fun v => d.names.variableScope.assigned.lookup (Text.lowercase v) = some x).map
      fun v => declarationText (types.get v) x

namespace Draft.Declares

variable {types : TypeMap} {past : List String} {d : Draft}

theorem start (types : TypeMap) (ds : Diagnostics) :
    Declares types [] { diagnostics := ds } where
  names := ⟨[], NameTable.records_empty⟩
  assigned key := by simp [NameTable.empty, Scope.empty]
  globals x := rfl

/-- A further name changes nothing for the names before it. -/
theorem lookup_declare (h : Declares types past d) (name : String) {v : String} (hv : v ∈ past) :
    (d.declare types name).names.variableScope.assigned.lookup (Text.lowercase v) =
      d.names.variableScope.assigned.lookup (Text.lowercase v) := by
  obtain ⟨x, hx⟩ := Option.isSome_iff_exists.mp ((h.assigned _).mpr ⟨v, hv, rfl⟩)
  rw [hx]
  exact Scope.keeps_nameOf _ name _ x hx

theorem declare (h : Declares types past d) (name : String) :
    Declares types (past ++ [name]) (d.declare types name) := by
  obtain ⟨answers, hanswers⟩ := h.names
  have hname := Scope.lookup_nameOf d.names.variableScope name
  refine ⟨⟨_, hanswers.answer (.nameOf name .variable)⟩, fun key => ?_, fun x => ?_⟩
  · rw [variableScope_declare]
    by_cases hkey : key = Text.lowercase name
    · simp [hkey, hname]
    · rw [Scope.lookup_nameOf_of_ne _ hkey, h.assigned key]
      simp [Ne.symm hkey]
  · have hold := List.find?_congr (l := past) fun v hv =>
      congrArg (fun found => decide (found = some x)) (h.lookup_declare name hv)
    rw [List.find?_append, hold, globals_declare, Bucket.get?_insert, h.globals, h.globals,
      List.find?_singleton, variableScope_declare, hname]
    -- the identifier of the name is declared exactly if an earlier name has it
    by_cases hx : x = (d.names.variableScope.nameOf name).1
    · subst hx
      cases past.find? _ <;> simp
    · simp [hx, Ne.symm hx]

theorem foldl (names : List String) (h : Declares types past d) :
    Declares types (past ++ names) (names.foldl (Draft.declare types) d) := by
  induction names generalizing past d with
  | nil => simpa using h
  | cons name rest ih => simpa using ih (h.declare name)

theorem lookup (h : Declares types past d) {v : String} (hv : v ∈ past) :
    d.names.variableScope.assigned.lookup (Text.lowercase v) = some (d.variableText v) := by
  obtain ⟨x, hx⟩ := Option.isSome_iff_exists.mp ((h.assigned _).mpr ⟨v, hv, rfl⟩)
  have htext : d.variableText v = x := congrArg Prod.fst (Scope.nameOf_of_lookup hx)
  rw [hx, htext]

/-- Any name, listed or not, has the identifier of a listed one exactly if the two are the same in
lower case. -/
theorem variableText_eq_iff (h : Declares types past d) {v : String} (hv : v ∈ past) (u : String) :
    d.variableText u = d.variableText v ↔ Text.lowercase u = Text.lowercase v := by
  obtain ⟨answers, hanswers⟩ := h.names
  -- after one more request both names are in the table
  have hafter := hanswers.answer (.nameOf u .variable)
  have hu : ((d.names.answer (.nameOf u .variable)).2.scope .variable).assigned.lookup
      (Text.lowercase u) = some (d.variableText u) :=
    Scope.lookup_nameOf d.names.variableScope u
  have hlisted : ((d.names.answer (.nameOf u .variable)).2.scope .variable).assigned.lookup
      (Text.lowercase v) = some (d.variableText v) :=
    Scope.keeps_nameOf d.names.variableScope u _ _ (h.lookup hv)
  constructor
  · intro heq
    rw [heq] at hu
    exact hafter.lookup_injective hu hlisted
  · intro heq
    rw [heq, hlisted] at hu
    exact (Option.some.inj hu).symm

/-- The identifier of a listed name is declared with the type of the first name that is the same
in lower case. -/
theorem exists_first (h : Declares types past d) {v : String} (hv : v ∈ past) :
    ∃ first, past.find? (fun u => Text.lowercase u = Text.lowercase v) = some first ∧
      d.sections.globals.get? (d.variableText v) =
        some (declarationText (types.get first) (d.variableText v)) := by
  have hsome : (past.find? fun u => Text.lowercase u = Text.lowercase v).isSome :=
    List.find?_isSome.mpr ⟨v, hv, decide_eq_true rfl⟩
  obtain ⟨first, hfirst⟩ := Option.isSome_iff_exists.mp hsome
  refine ⟨first, hfirst, ?_⟩
  have hcase : ∀ u ∈ past,
      decide (d.names.variableScope.assigned.lookup (Text.lowercase u) =
        some (d.variableText v)) = decide (Text.lowercase u = Text.lowercase v) := by
    intro u hu
    simp only [h.lookup hu, Option.some.injEq, h.variableText_eq_iff hv u]
  rw [h.globals, List.find?_congr hcase, hfirst, Option.map_some]

end Draft.Declares

/-! ### Spellings -/

namespace Registry

/-- The names of variables in a program, as they are spelled in its list and in what gives them
types. -/
def spellings (r : Registry) (p : Program) : List String :=
  p.variableNames ++ (Inference.reported (r.probe p) r.mentions?).flatMap Mention.names

def SpelledOneWay (r : Registry) (p : Program) : Prop :=
  ∀ u ∈ r.spellings p, ∀ v ∈ r.spellings p, Text.lowercase u = Text.lowercase v → u = v

/-- The types of the variables of a program where the case of names is of no account: what is
mentioned in any spelling counts for the name in lower case. -/
def foldedTypes (r : Registry) (p : Program) : TypeMap :=
  (Inference.runOn ((Inference.mentions (r.probe p) r.mentions?).map
    fun m => (m.1, m.2.rename Text.lowercase))).map

variable {r : Registry} {p : Program} {v : String}

theorem get_inferTypes_of_not_mentioned
    (h : ∀ m ∈ Inference.reported (r.probe p) r.mentions?, m.name ≠ v) :
    (r.inferTypes p).map.get v = .undefined := by
  have hnone : (r.inferTypes p).map.get? v = none := by
    rw [← Option.not_isSome_iff_eq_none, inferTypes, Inference.isSome_get?_run_iff]
    rintro ⟨m, hm, hname⟩
    exact h m hm hname
  rw [TypeMap.get, hnone, Option.getD_none]

theorem SpelledOneWay.get_inferTypes (h : r.SpelledOneWay p) (hv : v ∈ r.spellings p) :
    (r.inferTypes p).map.get v = (r.foldedTypes p).get (Text.lowercase v) := by
  have hmentions : ∀ m ∈ Inference.mentions (r.probe p) r.mentions?,
      m.2.names ⊆ r.spellings p := by
    intro m hm name hname
    exact List.mem_append_right _
      (List.mem_flatMap.mpr ⟨m.2, List.mem_map_of_mem hm, hname⟩)
  exact congrArg (·.getD .undefined) (Inference.get?_runOn_rename h hmentions hv).symm

theorem SpelledOneWay.find?_listed (h : r.SpelledOneWay p) (hv : v ∈ p.variableNames) {u : String}
    (hu : p.variableNames.find? (fun u => Text.lowercase u = Text.lowercase v) = some u) :
    u = v := by
  have hlisted : u ∈ p.variableNames := List.mem_of_find?_eq_some hu
  have hcase : Text.lowercase u = Text.lowercase v := by simpa using List.find?_some hu
  exact h u (List.mem_append_left _ hlisted) v (List.mem_append_left _ hv) hcase

end Registry

/-- Identifiers go by names in lower case and types by names as they are spelled. After the listed
variables are declared, any name has the identifier of a listed one exactly if the two differ at
most in case, and the identifier is declared with the type found for the spelling that is listed
first. A spelling that nothing gives a type to has none, whatever other spellings are given. Where
a program spells every variable in one way, the types are those that are found without regard to
case, and the identifiers are declared with them. -/
theorem variables_declared_by_first_spelling (r : Registry) (p : Program) (places : ParentIndex)
    (board : Board) (ds : Diagnostics) :
    let types := (r.inferTypes p).map
    let w : Workspace := ⟨p, places, types, board⟩
    let ran := (r.follow w (Recipe.declareVariables w)).run.run { diagnostics := ds }
    let d := ran.2
    ran.1 = .ok () ∧
      (∀ v ∈ p.variableNames, ∀ u,
        d.variableText u = d.variableText v ↔ Text.lowercase u = Text.lowercase v) ∧
      (∀ v ∈ p.variableNames, ∃ first,
        p.variableNames.find? (fun u => Text.lowercase u = Text.lowercase v) = some first ∧
          d.sections.globals.get? (d.variableText v) =
            some (declarationText (types.get first) (d.variableText v))) ∧
      (∀ v, (∀ m ∈ Inference.reported (r.probe p) r.mentions?, m.name ≠ v) →
        types.get v = .undefined) ∧
      (r.SpelledOneWay p →
        (∀ v ∈ r.spellings p, types.get v = (r.foldedTypes p).get (Text.lowercase v)) ∧
          ∀ v ∈ p.variableNames, d.sections.globals.get? (d.variableText v) =
            some (declarationText ((r.foldedTypes p).get (Text.lowercase v))
              (d.variableText v))) := by
  intro types w ran d
  have hran : ran = (.ok (), p.variableNames.foldl (Draft.declare types) { diagnostics := ds }) :=
    Recipe.run_declareVariables w (r.emit w) { diagnostics := ds }
  have hd : Draft.Declares types p.variableNames d := by
    have hall := (Draft.Declares.start types ds).foldl p.variableNames
    rw [List.nil_append] at hall
    rwa [show d = _ from congrArg Prod.snd hran]
  refine ⟨congrArg Prod.fst hran, fun v hv u => hd.variableText_eq_iff hv u,
    fun v hv => hd.exists_first hv, fun v => Registry.get_inferTypes_of_not_mentioned, ?_⟩
  intro hspelled
  refine ⟨fun v hv => hspelled.get_inferTypes hv, fun v hv => ?_⟩
  obtain ⟨first, hfirst, hdeclared⟩ := hd.exists_first hv
  rw [hdeclared, hspelled.find?_listed hv hfirst,
    ← hspelled.get_inferTypes (List.mem_append_left _ hv)]

/-- A variable that is assigned `2.5` as `Count`, and listed in some spelling. -/
def spellingSample (listed : String) : Program where
  variableNames := [listed]
  nodes :=
    [Inference.assignmentNode ⟨1⟩ "Count" ⟨2⟩ none,
      { id := ⟨2⟩, kind := "math_number", fields := .ofList [("NUM", "2.5")] }]
  topLevel := [⟨1⟩]

theorem mentions_spellingSample (listed : String) :
    Inference.mentions (Registry.standard.probe (spellingSample listed))
      Registry.standard.mentions? = [(⟨1⟩, ⟨"Count", .known .decimal, none⟩)] := by
  rw [Registry.probe, Registry.typing?_standard, Registry.mentions?_standard]
  rfl

/-- Listed as it is assigned, the variable is declared with the type of its value. -/
theorem spellingSample_declared_as_assigned :
    let r := Registry.standard
    let p := spellingSample "Count"
    ∃ places, p.validate = .ok places ∧ r.SpelledOneWay p ∧
      let w : Workspace := ⟨p, places, (r.inferTypes p).map, .uno⟩
      let d := ((r.follow w (Recipe.declareVariables w)).run.run {}).2
      d.sections.globals.get? (d.variableText "Count") = some "float Count;" := by
  intro r p
  have hspelled : r.SpelledOneWay p := by
    have hspellings : r.spellings p = ["Count", "Count"] := by
      rw [Registry.spellings, Inference.reported, mentions_spellingSample]
      rfl
    simp [Registry.SpelledOneWay, hspellings]
  have hfolded : (r.foldedTypes p).get (Text.lowercase "Count") = .decimal := by
    rw [Registry.foldedTypes, mentions_spellingSample]
    decide
  refine ⟨_, rfl, hspelled, ?_⟩
  intro w d
  obtain ⟨-, -, -, -, hone⟩ :=
    variables_declared_by_first_spelling r p w.places .uno .empty
  have hdeclared := (hone hspelled).2 "Count" List.mem_cons_self
  rw [hfolded] at hdeclared
  exact hdeclared

/-- Listed as `count`, the variable has the same identifier but no type, and is declared as an
integer although `2.5` is assigned to it. -/
theorem spellingSample_declared_as_integer :
    let r := Registry.standard
    let p := spellingSample "count"
    let types := (r.inferTypes p).map
    ∃ places, p.validate = .ok places ∧ Text.lowercase "Count" = Text.lowercase "count" ∧
      types.get "Count" = .decimal ∧ types.get "count" = .undefined ∧
      let w : Workspace := ⟨p, places, types, .uno⟩
      let d := ((r.follow w (Recipe.declareVariables w)).run.run {}).2
      d.variableText "Count" = d.variableText "count" ∧
        d.sections.globals.get? (d.variableText "count") = some "int count;" := by
  intro r p types
  have htypes : types = (Inference.runOn [(⟨1⟩, ⟨"Count", .known .decimal, none⟩)]).map := by
    rw [← mentions_spellingSample "count"]
    rfl
  refine ⟨_, rfl, by decide, by rw [htypes]; decide, by rw [htypes]; decide, ?_, ?_⟩
  · rfl
  · rw [htypes]
    rfl

end BlockSketch
