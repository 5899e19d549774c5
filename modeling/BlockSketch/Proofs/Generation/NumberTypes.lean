import BlockSketch.Proofs.Generation.Declarations
import BlockSketch.Proofs.Generation.Preamble
import BlockSketch.Proofs.Number.Grammar
import BlockSketch.Proofs.Number.Literal

/-!
The types of numbers. Blocks for numbers emit what their text spells once the blanks around it and a
plus sign are taken away, but have the type of the text as it stands. So a whole number has the type
of its value exactly if its text is bare. With blanks or a plus sign it has no type, and a variable
that is assigned such a number is declared as `int`, however large the number is.
-/

namespace BlockSketch

namespace Text

theorem trim_eq_self {s : String} (h : ∀ c ∈ s.toList, isBlankChar c = false) : trim s = s := by
  rw [trim, trimChars_eq_self h, String.ofList_toList]

end Text

namespace Literal

open Text

def IsBare (text : String) : Prop := trim text = text ∧ text.toList.head? ≠ some '+'

instance (text : String) : Decidable (IsBare text) := inferInstanceAs (Decidable (_ ∧ _))

def wholeType (k : Int) : DataType := if IsShort k then .number else .largeNumber

theorem wholeType_ne_null (k : Int) : wholeType k ≠ .null := by
  rw [wholeType]
  split <;> decide

theorem declaration_wholeType (k : Int) :
    (wholeType k).declaration = if IsShort k then "int" else "long" := by
  rw [wholeType]
  split <;> rfl

/-! ### Texts of the grammar are bare -/

theorem isBlankChar_of_isDigit {c : Char} (h : isDigit c = true) : isBlankChar c = false :=
  isBlankChar_of_isWordChar (isWordChar_of_isDigit h)

theorem isBlankChar_of_mem {cs : List Char} (h : cs ∈ digits ∨ cs ∈ fraction) :
    ∀ c ∈ cs, isBlankChar c = false := by
  rcases h with h | h
  · exact fun c hc => isBlankChar_of_isDigit ((mem_digits.mp h).2 c hc)
  · obtain ⟨before, after, hbefore, hafter, rfl⟩ := mem_fraction.mp h
    intro c hc
    rcases List.mem_append.mp hc with hc | hc
    · exact isBlankChar_of_isDigit (hbefore c hc)
    · rcases List.mem_cons.mp hc with rfl | hc
      · decide
      · exact isBlankChar_of_isDigit ((mem_digits.mp hafter).2 c hc)

theorem isBare_of_mem {text : String} (h : text.toList ∈ whole ∨ text.toList ∈ pointed) :
    IsBare text := by
  have hunsigned : ∃ rest, (rest ∈ digits ∨ rest ∈ fraction) ∧
      (text.toList = rest ∨ text.toList = '-' :: rest) := by
    rcases h with h | h
    · rcases mem_sign_mul.mp h with h | ⟨rest, h, hminus⟩
      · exact ⟨_, .inl h, .inl rfl⟩
      · exact ⟨rest, .inl h, .inr hminus⟩
    · rcases mem_sign_mul.mp h with h | ⟨rest, h, hminus⟩
      · exact ⟨_, .inr h, .inl rfl⟩
      · exact ⟨rest, .inr h, .inr hminus⟩
  obtain ⟨rest, hrest, htext⟩ := hunsigned
  have hblank := isBlankChar_of_mem hrest
  rcases htext with htext | htext
  · refine ⟨trim_eq_self (htext ▸ hblank), ?_⟩
    rw [htext]
    exact head?_ne_of_mem hrest (by decide) (by decide)
  · refine ⟨trim_eq_self ?_, by simp [htext]⟩
    rw [htext]
    exact List.forall_mem_cons.mpr ⟨by decide, hblank⟩

/-! ### Bare texts of whole numbers are of the grammar -/

theorem mem_digits_of_readDigits? {cs : List Char} {m : Nat} (h : readDigits? cs = some m) :
    cs ∈ digits := by
  by_contra hcs
  rw [readDigits?_of_notMem hcs] at h
  cases h

theorem mem_whole_of_readInt? {cs : List Char} {k : Int} (h : readInt? cs = some k)
    (hplus : cs.head? ≠ some '+') : cs ∈ whole := by
  rw [whole, mem_sign_mul]
  unfold readInt? at h
  split at h
  next rest =>
      cases hread : readDigits? rest with
      | none => simp [hread] at h
      | some m => exact .inr ⟨rest, mem_digits_of_readDigits? hread, rfl⟩
  next =>
      have hread : readNat? cs = readDigits? cs := by
        unfold readNat?
        split
        next => exact absurd rfl hplus
        next => rfl
      cases hdigits : readDigits? cs with
      | none => simp [hread, hdigits] at h
      | some m => exact .inl (mem_digits_of_readDigits? hdigits)

section

variable {text : String} {k : Int} (h : readLong? (trim text) = some k)

include h

theorem mem_whole_iff_isBare : text.toList ∈ whole ↔ IsBare text := by
  refine ⟨fun hwhole => isBare_of_mem (.inl hwhole), fun ⟨htrim, hplus⟩ => ?_⟩
  rw [htrim, readLong?, Option.filter_eq_some_iff] at h
  exact mem_whole_of_readInt? h.1 hplus

/-- The type of a text by the number that is read from it without the blanks around it. -/
theorem ofLiteral_of_readLong? :
    DataType.ofLiteral text = if IsBare text then wholeType k else .null := by
  by_cases hbare : IsBare text
  · have hwhole := (mem_whole_iff_isBare h).mpr hbare
    rw [hbare.1] at h
    rw [if_pos hbare, ofLiteral_of_mem_whole hwhole, ← eq_value_of_readLong? hwhole h, wholeType]
  · rw [if_neg hbare]
    exact ofLiteral_of_notMem (fun hwhole => hbare (isBare_of_mem (.inl hwhole)))
      (fun hpointed => hbare (isBare_of_mem (.inr hpointed)))

end

end Literal

/-! ### Blocks for numbers -/

open Literal

theorem Block.Arithmetic.text_number {n : Node} {k : Int}
    (h : Text.readLong? (Text.trim (n.fieldD "NUM" "0")) = some k) :
    (number n).text = toString k := by
  simp only [number, spellNumber, h]

section

variable {p : Program} {n : Node}

theorem Registry.emit_number (hkind : n.kind = "math_number") (places : ParentIndex)
    (types : TypeMap) (board : Board) (d : Draft) :
    (standard.emit ⟨p, places, types, board⟩ n).run.run d =
      (.ok (.value (Block.Arithmetic.number n)), d) := by
  rw [emit, emitNode, standard_get? hkind rfl]
  rfl

/-- The type of a number is that of its text. -/
theorem Registry.typing?_number : standard.typing? "math_number" =
    some fun _ n => .known (.ofLiteral (n.fieldD "NUM" "0")) := by
  rw [typing?_standard]
  rfl

end

/-! ### Variables that are assigned one value -/

/-- A node assigns the value of another node to a variable. -/
structure Node.Assigns (a : Node) (v : String) (id : NodeId) : Prop where
  kind : a.kind = "variables_set"
  name : a.field? "VAR" = some v
  child : ∃ s rest, a.values = s :: rest ∧ s.child = some id

def Registry.mentionsOf (r : Registry) (p : Program) (a : Node) : List Mention :=
  ((r.mentions? a.kind).map (· (r.probe p) a)).getD []

/-- The value of a node is assigned to a variable, and nothing else gives the variable a type. -/
structure Registry.AssignedOnly (r : Registry) (p : Program) (v : String) (id : NodeId) : Prop where
  assigned : ∃ a ∈ p.executionOrder, a.Assigns v id
  only : ∀ a ∈ p.executionOrder, ∀ m ∈ r.mentionsOf p a, m.name = v → a.Assigns v id

namespace Registry

variable {r : Registry} {p : Program} {n : Node} {v : String}

theorem mem_reported_iff_mentionsOf {m : Mention} :
    m ∈ Inference.reported (r.probe p) r.mentions? ↔
      ∃ a ∈ p.executionOrder, m ∈ r.mentionsOf p a := by
  rw [Inference.reported, Inference.mentions, List.map_flatMap, List.mem_flatMap]
  refine exists_congr fun a => and_congr_right fun _ => ?_
  rw [mentionsOf]
  cases r.mentions? a.kind <;> simp

/-- A variable to which only values of one known type are given has that type. -/
theorem get_inferTypes_of_known {t : DataType} (ht : t ≠ .undefined)
    (hsome : ∃ m ∈ Inference.reported (r.probe p) r.mentions?, m.name = v)
    (hall : ∀ m ∈ Inference.reported (r.probe p) r.mentions?, m.name = v →
      m.declared = .known t) : (r.inferTypes p).map.get v = t := by
  have htracks : Inference.Tracks (Inference.history (r.probe p) r.mentions? .empty) [] .undefined
      (r.inferTypes p) := Inference.tracks_run
  have hknown (a : Application) (ha : a ∈ Inference.history (r.probe p) r.mentions? .empty)
      (hname : a.mention.name = v) : a.mention.declared = .known t :=
    hall _ ((Inference.mem_reported_iff .empty).mpr ⟨a, ha, rfl⟩) hname
  obtain ⟨m, hm, hname⟩ := hsome
  obtain ⟨a, ha, rfl⟩ := (Inference.mem_reported_iff .empty).mp hm
  have htyped : (r.inferTypes p).map.get v ≠ .undefined :=
    htracks.get_ne_undefined_iff_traced.mpr
      ⟨t, v, .refl, ht, a, ha, hname, .inl (hknown a ha hname)⟩
  -- the chain that gives the type ends where it starts, since the variable copies none
  obtain ⟨u, hchain, -, b, hb, hbname, hground⟩ := htracks.traced_get htyped
  obtain rfl : v = u := by
    rcases hchain.cases_head with heq | ⟨x, ⟨c, hc, hcname, hcopy⟩, -⟩
    · exact heq
    · rw [hknown c hc hcname] at hcopy
      cases hcopy
  rcases hground with hground | ⟨array, hground, -⟩
  · rw [hknown b hb hbname] at hground
    exact (DeclaredType.known.inj hground).symm
  · rw [hknown b hb hbname] at hground
    cases hground

theorem mentions?_assignment :
    standard.mentions? "variables_set" = some Block.Variables.mentionsValue := by
  rw [mentions?_standard]
  rfl

/-- The type of what is in the first socket, if its kind tells its type. -/
theorem childType_probe {a : Node} {s : ValueSocket} {rest : List ValueSocket}
    {typing : ValueTyping} (hvalues : a.values = s :: rest) (hchild : s.child = some n.id)
    (hfind : p.find? n.id = some n) (htyping : r.typing? n.kind = some typing) :
    (r.probe p).childType a = typing p n := by
  have hprogram : (r.probe p).program.find? n.id = some n := hfind
  have hkind : (r.probe p).typing? n.kind = some typing := htyping
  rw [Probe.childType, hvalues]
  dsimp only
  rw [Probe.typeOf, hchild, Probe.typeFrom, hprogram]
  dsimp only
  rw [hkind]
  rfl

theorem mentionsOf_assigns {a : Node} (ha : a.Assigns v n.id) (hfind : p.find? n.id = some n)
    (hkind : n.kind = "math_number") :
    standard.mentionsOf p a = [⟨v, .known (.ofLiteral (n.fieldD "NUM" "0")), none⟩] := by
  obtain ⟨s, rest, hvalues, hchild⟩ := ha.child
  have htype := childType_probe hvalues hchild hfind ((congrArg _ hkind).trans typing?_number)
  rw [mentionsOf, ha.kind, mentions?_assignment, Option.map_some, Option.getD_some,
    Block.Variables.mentionsValue, Block.mentionOf, ha.name, htype]

/-- A variable that is assigned a number has the type of its text. -/
theorem AssignedOnly.get_inferTypes (h : standard.AssignedOnly p v n.id)
    (hfind : p.find? n.id = some n) (hkind : n.kind = "math_number") :
    (standard.inferTypes p).map.get v = .ofLiteral (n.fieldD "NUM" "0") := by
  have hne : DataType.ofLiteral (n.fieldD "NUM" "0") ≠ .undefined := by
    generalize n.fieldD "NUM" "0" = text
    by_cases hwhole : text.toList ∈ whole
    · rw [ofLiteral_of_mem_whole hwhole]
      split <;> decide
    by_cases hpointed : text.toList ∈ pointed
    · rw [ofLiteral_of_mem_pointed hpointed]
      decide
    · rw [ofLiteral_of_notMem hwhole hpointed]
      decide
  refine get_inferTypes_of_known hne ?_ ?_
  · obtain ⟨a, ha, hassigns⟩ := h.assigned
    refine ⟨⟨v, .known (.ofLiteral (n.fieldD "NUM" "0")), none⟩, ?_, rfl⟩
    refine mem_reported_iff_mentionsOf.mpr ⟨a, ha, ?_⟩
    rw [mentionsOf_assigns hassigns hfind hkind]
    exact List.mem_singleton_self _
  · intro m hm hname
    obtain ⟨a, ha, hmem⟩ := mem_reported_iff_mentionsOf.mp hm
    rw [mentionsOf_assigns (h.only a ha m hmem hname) hfind hkind] at hmem
    rw [List.mem_singleton.mp hmem]

end Registry

/-- The listed variables are declared with the types that were found, if no name before them is the
same up to case. -/
theorem Registry.get?_globals_declareVariables {r : Registry} {w : Workspace} {v : String}
    (hv : w.program.variableNames.find? (fun u => Text.lowercase u = Text.lowercase v) = some v)
    (ds : Diagnostics) :
    let d := ((r.follow w (Recipe.declareVariables w)).run.run { diagnostics := ds }).2
    d.sections.globals.get? (d.variableText v) =
      some (declarationText (w.types.get v) (d.variableText v)) := by
  intro d
  have hd : d = w.program.variableNames.foldl (Draft.declare w.types) { diagnostics := ds } :=
    congrArg Prod.snd (Recipe.run_declareVariables w (r.emit w) { diagnostics := ds })
  have hdeclares := (Draft.Declares.start w.types ds).foldl w.program.variableNames
  rw [← hd, List.nil_append] at hdeclares
  obtain ⟨first, hfirst, hget⟩ := hdeclares.exists_first (List.mem_of_find?_eq_some hv)
  obtain rfl : v = first := Option.some.inj (hv.symm.trans hfirst)
  exact hget

/-- A block for numbers whose text, without the blanks around it, is read as a whole number emits
that number. Its type is that of the number exactly if the text is bare, and otherwise it has no
type. A variable that is assigned the number and nothing else has the type of the block, and is
declared as `long` exactly if the text is bare and the number is not short. -/
theorem number_typed_as_emitted_iff_bare {p : Program} {n : Node} {k : Int}
    (hkind : n.kind = "math_number")
    (hread : Text.readLong? (Text.trim (n.fieldD "NUM" "0")) = some k) :
    let r := Registry.standard
    let text := n.fieldD "NUM" "0"
    let t := if IsBare text then wholeType k else .null
    (∀ places types board d, ∃ e, e.text = toString k ∧
      (r.emit ⟨p, places, types, board⟩ n).run.run d = (.ok (.value e), d)) ∧
    (r.typing? n.kind).map (· p n) = some (.known t) ∧
    (t = wholeType k ↔ IsBare text) ∧
    ∀ v, p.find? n.id = some n → r.AssignedOnly p v n.id →
      (r.inferTypes p).map.get v = t ∧
      ∀ places board ds,
        p.variableNames.find? (fun u => Text.lowercase u = Text.lowercase v) = some v →
        let w : Workspace := ⟨p, places, (r.inferTypes p).map, board⟩
        let d := ((r.follow w (Recipe.declareVariables w)).run.run { diagnostics := ds }).2
        d.sections.globals.get? (d.variableText v) =
          some ((if IsBare text ∧ ¬IsShort k then "long" else "int") ++ " " ++
            d.variableText v ++ ";") := by
  intro r text t
  have ht : DataType.ofLiteral text = t := ofLiteral_of_readLong? hread
  have hfits : t = wholeType k ↔ IsBare text := by
    by_cases hbare : IsBare text
    · simp [t, hbare]
    · simp [t, hbare, (wholeType_ne_null k).symm]
  have hdeclaration : t.declaration =
      if IsBare text ∧ ¬IsShort k then "long" else "int" := by
    by_cases hbare : IsBare text
    · by_cases hshort : IsShort k <;> simp [t, hbare, declaration_wholeType, hshort]
    · simp [t, hbare, DataType.declaration]
  refine ⟨fun places types board d => ?_, ?_, hfits, fun v hfind hv => ?_⟩
  · exact ⟨_, Block.Arithmetic.text_number hread, Registry.emit_number hkind places types board d⟩
  · rw [hkind, Registry.typing?_number, ← ht]
    rfl
  · have htype : (r.inferTypes p).map.get v = t := (hv.get_inferTypes hfind hkind).trans ht
    refine ⟨htype, fun places board ds hlisted => ?_⟩
    intro w d
    have hget := Registry.get?_globals_declareVariables (r := r) (w := w) hlisted ds
    rw [← hdeclaration, ← htype]
    exact hget

/-- A program whose only statement is an assignment. -/
theorem Node.Assigns.assignedOnly {r : Registry} {p : Program} {a : Node} {v : String}
    {id : NodeId} (h : a.Assigns v id) (horder : p.executionOrder = [a]) :
    r.AssignedOnly p v id := by
  refine ⟨⟨a, horder ▸ List.mem_singleton_self a, h⟩, fun b hb _ _ _ => ?_⟩
  rw [horder] at hb
  rwa [List.mem_singleton.mp hb]

theorem assigns_assignmentNode :
    (Inference.assignmentNode ⟨1⟩ "x" ⟨2⟩ none).Assigns "x" ⟨2⟩ :=
  ⟨rfl, rfl, _, _, rfl, rfl⟩

def literalSample (text : String) : Program where
  variableNames := ["x"]
  nodes :=
    [Inference.assignmentNode ⟨1⟩ "x" ⟨2⟩ none,
      { id := ⟨2⟩, kind := "math_number", fields := .ofList [("NUM", text)] }]
  topLevel := [⟨1⟩]

/-- The number `40000` is typed as one that 16 bits do not hold, and so is the variable, which is
declared as `long`. -/
theorem literalSample_declared_as_long :
    let r := Registry.standard
    let p := literalSample "40000"
    ∃ n places, p.find? ⟨2⟩ = some n ∧ p.validate = .ok places ∧
      (r.typing? n.kind).map (· p n) = some (.known .largeNumber) ∧
      (r.inferTypes p).map.get "x" = .largeNumber ∧
      let w : Workspace := ⟨p, places, (r.inferTypes p).map, .uno⟩
      let d := ((r.follow w (Recipe.declareVariables w)).run.run {}).2
      d.sections.globals.get? (d.variableText "x") = some "long x;" := by
  intro r p
  refine ⟨_, _, rfl, rfl, ?_⟩
  obtain ⟨-, htyping, -, hvariable⟩ := number_typed_as_emitted_iff_bare (p := p)
    (n := { id := ⟨2⟩, kind := "math_number", fields := .ofList [("NUM", "40000")] }) (k := 40000)
    rfl (by decide)
  obtain ⟨htype, hdeclared⟩ := hvariable "x" rfl (assigns_assignmentNode.assignedOnly rfl)
  exact ⟨htyping, htype, hdeclared _ .uno .empty rfl⟩

/-- With a blank in front, the same number is emitted, but it has no type, and the variable is
declared as `int`. -/
theorem literalSample_declared_too_narrow :
    let r := Registry.standard
    let p := literalSample " 40000"
    ∃ n c, p.find? ⟨2⟩ = some n ∧ r.compile p .uno false = .ok c ∧
      Text.readLong? (Text.trim (n.fieldD "NUM" "0")) = some 40000 ∧ ¬IsShort 40000 ∧
      (r.typing? n.kind).map (· p n) = some (.known .null) ∧ c.types.get "x" = .null ∧
      c.sketch.source =
        "int x;\n\nvoid setup() \x7b\n\x7d\n\nvoid loop() \x7b\n  x = 40000;\n\x7d\n" := by
  intro r p
  have hcompiles : ∃ c, r.compile p .uno false = .ok c := by
    simp only [r, Registry.compile_eq_ok_iff, Registry.get?_standard]
    exact ⟨_, _, _, _, rfl, rfl, rfl⟩
  obtain ⟨c, hc⟩ := hcompiles
  obtain ⟨places, body, j, hran⟩ := Registry.exists_ran hc
  have htyping : (r.typing? "math_number").map
      (· p { id := ⟨2⟩, kind := "math_number", fields := .ofList [("NUM", " 40000")] }) =
        some (.known .null) := by
    rw [Registry.typing?_number]
    rfl
  have htypes : (r.inferTypes p).map = ⟨.ofList [("x", .null)], .empty⟩ := by
    have hmentions : Inference.mentions (r.probe p) r.mentions? =
        [(⟨1⟩, ⟨"x", .known .null, none⟩)] := by
      rw [Registry.probe, Registry.typing?_standard, Registry.mentions?_standard]
      rfl
    rw [Registry.inferTypes, Inference.run, hmentions]
    rfl
  have hrun := hran.run_eq rfl ((Registry.types_of_compile hc).trans htypes)
  have hj := (congrArg Prod.snd hrun).symm
  have hbody : body = "x = 40000;\n" := (Except.ok.inj (congrArg (·.1) hrun)).symm
  refine ⟨_, c, rfl, hc, by decide, by decide, htyping, ?_, ?_⟩
  · rw [Registry.types_of_compile hc, htypes]
    decide
  · rw [hran.source_eq, hbody, Draft.source, show j = _ from hj]
    decide +kernel

end BlockSketch
