import BlockSketch.Proofs.Block.Directions
import BlockSketch.Proofs.Generation.Drivers
import BlockSketch.Proofs.Generation.Headers

/-!
The objects that a sketch declares in front of its functions: variables, the times of statements
that run at intervals, servos, and the pins and speeds of drivers. Variables and times get their
identifiers from the table of names, which keeps them apart unless their names agree up to case.
Servos and drivers go by the spelling of their names, without regard to the table. So objects of one
sort never clash, but objects of different sorts may, and a servo may even have a reserved word as
its identifier.
-/

namespace BlockSketch

open Block Identifier

/-! ### Objects -/

/-- The sorts of objects that are declared in front of the functions. -/
inductive ObjectSort where
  | named
  | stamp
  | servo
  | driver
  deriving DecidableEq, Repr

/-- An object that is declared in front of the functions: a variable or a time with its identifier,
a servo, or a variable of a driver with its ending. -/
inductive GlobalObject where
  | named (x : String)
  | stamp (x : String)
  | servo (v : String)
  | driver (v suffix : String)
  deriving DecidableEq, Repr

namespace GlobalObject

def sort : GlobalObject → ObjectSort
  | named _ => .named
  | stamp _ => .stamp
  | servo _ => .servo
  | driver _ _ => .driver

def identifier : GlobalObject → String
  | named x => x
  | stamp x => x
  | servo v => v
  | driver v suffix => v ++ suffix

end GlobalObject

def Block.Servos.declarationKey (v : String) : String := "define_Servo_" ++ v

def Block.Time.declarationKey (x : String) : String := "temporisation_" ++ x

def Journal.Told (j : Journal) (name x : String) : Prop :=
  .edited (.identifier name .variable) x ∈ j.entries

inductive Journal.Declares (j : Journal) : GlobalObject → Prop where
  | named {name x words tail : String} (htold : j.Told name x) (htail : EndsWord tail)
      (hget : j.draft.sections.globals.get? x = some (words ++ " " ++ x ++ tail)) :
      Declares j (.named x)
  | stamp {interval x : String} (htold : j.Told ("temps" ++ interval) x)
      (hget : j.draft.sections.declarations.get? (Time.declarationKey x) =
        some ("long " ++ x ++ " = 0;")) : Declares j (.stamp x)
  | servo {v : String}
      (hget : j.draft.sections.declarations.get? (Servos.declarationKey v) =
        some ("Servo " ++ v ++ ";")) : Declares j (.servo v)
  | driver {v suffix text : String} (hsuffix : suffix ∈ Motors.allSuffixes)
      (hget : j.draft.sections.globals.get? (Motors.variablesKey v) = some text)
      (hdeclares : Motors.DeclaresVariable text v suffix) : Declares j (.driver v suffix)

/-! ### Identifiers -/

theorem Identifier.IsLegal.append {v s : String} (hv : IsLegal v)
    (hs : ∀ c ∈ s.toList, isWordChar c = true) : IsLegal (v ++ s) := by
  obtain ⟨c, rest, hchars, hstart, hrest⟩ := hv
  refine ⟨c, rest ++ s.toList, by simp [hchars], hstart, fun d hd => ?_⟩
  rcases List.mem_append.mp hd with hd | hd
  · exact hrest d hd
  · exact hs d hd

theorem Block.Servos.isLegal_servo? {n : Node} {v : String} (h : servo? n = some v) :
    IsLegal v := by
  simp only [servo?, Option.ite_none_left_eq_some, Option.some.injEq] at h
  exact h.2 ▸ isLegal_spell _

namespace Block.Motors

theorem mem_allSuffixes {wiring : Wiring} {s : String}
    (h : s ∈ wiring.suffixes ∨ s = "Speed") : s ∈ allSuffixes := by
  rw [Wiring.mem_suffixes] at h
  simp only [allSuffixes, List.mem_cons]
  tauto

theorem isWordChar_of_mem_suffix {s : String} (hs : s ∈ allSuffixes) :
    ∀ c ∈ s.toList, isWordChar c = true := by
  have hall : ∀ s ∈ allSuffixes, s.toList.all isWordChar = true := by decide
  exact List.all_eq_true.mp (hall s hs)

/-- No reserved word ends like a variable of a driver. -/
theorem variable_not_reserved (v : String) {s : String} (hs : s ∈ allSuffixes) :
    v ++ s ∉ reservedWords := by
  have hall : ∀ s ∈ allSuffixes, ∀ x ∈ reservedWords, ¬ s.toList <:+ x.toList := by
    decide +kernel
  intro h
  exact hall s hs _ h ⟨v.toList, by simp⟩

/-- A variable of a driver tells the driver and its ending. -/
theorem variable_injective {v v' s s' : String} (hs : s ∈ allSuffixes) (hs' : s' ∈ allSuffixes)
    (h : v ++ s = v' ++ s') : v = v' ∧ s = s' := by
  have hall : ∀ s ∈ allSuffixes, ∀ s' ∈ allSuffixes, s.toList <:+ s'.toList → s = s' := by decide
  have hchars : v.toList ++ s.toList = v'.toList ++ s'.toList := by
    simpa using congrArg String.toList h
  have hsuffixes : s.toList <:+ s'.toList ∨ s'.toList <:+ s.toList :=
    List.suffix_or_suffix_of_suffix ⟨v.toList, hchars⟩ ⟨v'.toList, rfl⟩
  obtain rfl : s = s' := by
    rcases hsuffixes with hsuffix | hsuffix
    · exact hall s hs s' hs' hsuffix
    · exact (hall s' hs' s hs hsuffix).symm
  exact ⟨(String.append_left_inj s).mp h, rfl⟩

end Block.Motors

/-! ### Declarations -/

theorem declarationKey_ne (v x : String) : Servos.declarationKey v ≠ Time.declarationKey x := by
  intro h
  have hchars := congrArg String.toList h
  rw [Servos.declarationKey, Time.declarationKey, String.toList_append, String.toList_append]
    at hchars
  exact absurd (List.cons.inj hchars).1 (by decide)

namespace Journal.Remembers

variable {past : List Answer} {j : Journal} {name name' x x' : String}

/-- An identifier that was told for a name is legal and no reserved word. -/
theorem legal_of_told (h : j.Remembers past) (hx : j.Told name x) :
    IsLegal x ∧ x ∉ reservedWords := by
  obtain ⟨a, ha, -, rfl⟩ := h.named name .variable x hx
  exact h.records.legal a ha

/-- Names have the same identifier exactly if they are the same in lower case. -/
theorem told_eq_iff (h : j.Remembers past) (hx : j.Told name x) (hx' : j.Told name' x') :
    x = x' ↔ Text.lowercase name = Text.lowercase name' := by
  obtain ⟨a, ha, hcall, rfl⟩ := h.named name .variable x hx
  obtain ⟨a', ha', hcall', rfl⟩ := h.named name' .variable x' hx'
  exact h.records.identifier_eq_iff ha ha' (by rw [hcall, hcall']; rfl) (by rw [hcall]; rfl)
    (by rw [hcall']; rfl)

end Journal.Remembers

section Run

variable {p : Program} {board : Board} {header : Bool} {c : Compiled} {places : ParentIndex}
  {body : String} {j : Journal}

theorem Registry.Ran.nodup_keys (h : standard.Ran p board header c places body j) {sec : Section}
    (hsec : sec ≠ .functions) : (j.draft.sections.get sec).keys.Nodup := by
  rw [h.furnished.1.replays sec hsec]
  exact Bucket.nodup_keys_ofPlacements _

/-- What stands among the declarations is a servo of some node or a time. -/
theorem Registry.Ran.servo_or_stamp (h : standard.Ran p board header c places body j)
    {key text : String} (hget : j.draft.sections.declarations.get? key = some text) :
    (∃ n ∈ p.nodes, n.kind = "motor_servo_init" ∧ ∃ v, Servos.servo? n = some v ∧
      key = Servos.declarationKey v ∧ text = "Servo " ++ v ++ ";") ∨
    ∃ x, j.Declares (.stamp x) ∧ key = Time.declarationKey x ∧ text = "long " ++ x ++ " = 0;" := by
  obtain ⟨overwrite, hmem⟩ := h.exists_placement (by decide : Section.declarations ≠ _) hget
  rcases h.properContribution hmem with ⟨hsec, -⟩ | ⟨n, hn, hcontribution⟩
  · cases hsec
  · cases hcontribution with
    | servo hkind hv => exact .inl ⟨n, hn, hkind, _, hv, rfl, rfl⟩
    | stamp hkind htold hx => exact .inr ⟨_, .stamp hx hget, rfl, rfl⟩

/-- What stands among the variables is one of them under its identifier, the variables of a driver,
or code of the user. -/
theorem Registry.Ran.named_or_driver_or_code (h : standard.Ran p board header c places body j)
    {key text : String} (hget : j.draft.sections.globals.get? key = some text) :
    j.Declares (.named key) ∨
    (∃ n ∈ p.nodes, n.kind = Motors.driverKind ∧
      key = Motors.variablesKey (Motors.identifier n) ∧ text = Motors.pinVariables n) ∨
    ∃ n ∈ p.nodes, n.kind = "base_define_bloc" ∧
      key = "base_define_bloc_" ++ toString n.id.toNat ∧
      Workspace.ChainTold ⟨p, places, c.types, board⟩ j.entries (n.head? "DO") text := by
  obtain ⟨overwrite, hmem⟩ := h.exists_placement (by decide : Section.globals ≠ _) hget
  rcases h.properContribution hmem with ⟨-, name, -, x, hx, hp⟩ | ⟨n, hn, hcontribution⟩
  · cases hp
    exact .inl (.named hx ⟨';', [], rfl, by decide⟩ hget)
  · cases hcontribution with
    | declared words hkind htail hx => exact .inl (.named hx htail hget)
    | code hkind htold => exact .inr (.inr ⟨n, hn, hkind, rfl, htold⟩)
    | driverVariables hkind => exact .inr (.inl ⟨n, hn, hkind, rfl, rfl⟩)

/-- A servo that is declared is that of some node. -/
theorem Registry.Ran.exists_servo (h : standard.Ran p board header c places body j) {v : String}
    (hv : j.Declares (.servo v)) :
    ∃ n ∈ p.nodes, n.kind = "motor_servo_init" ∧ Servos.servo? n = some v := by
  cases hv with
  | servo hget =>
      rcases h.servo_or_stamp hget with ⟨n, hn, hkind, v', hv', hkey, -⟩ | ⟨x, -, hkey, -⟩
      · obtain rfl : v = v' := (String.append_right_inj _).mp hkey
        exact ⟨n, hn, hkind, hv'⟩
      · exact absurd hkey (declarationKey_ne v x)

/-- A variable of a driver that is declared is that of some node. -/
theorem Registry.Ran.exists_driver (h : standard.Ran p board header c places body j)
    {v suffix : String} (hv : j.Declares (.driver v suffix)) :
    suffix ∈ Motors.allSuffixes ∧
      ∃ n ∈ p.nodes, n.kind = Motors.driverKind ∧ Motors.identifier n = v := by
  obtain ⟨past, hpast⟩ := (accounts_journalProgram h.run).names
  cases hv with
  | driver hsuffix hget hdeclares =>
      refine ⟨hsuffix, ?_⟩
      rcases h.named_or_driver_or_code hget with
        hnamed | ⟨n, hn, hkind, hkey, -⟩ | ⟨n, -, -, hkey, -⟩
      · cases hnamed with
        | named htold htail hget' => exact absurd rfl (hpast.ne_variablesKey htold v)
      · exact ⟨n, hn, hkind, ((String.append_right_inj _).mp hkey).symm⟩
      · exact absurd hkey.symm (Structure.codeKey_ne_variablesKey _ v)

/-- The identifiers of declared objects are legal, and only servos may have reserved words. -/
theorem Registry.Ran.legal_of_declares (h : standard.Ran p board header c places body j)
    {o : GlobalObject} (ho : j.Declares o) :
    IsLegal o.identifier ∧ (o.identifier ∈ reservedWords → o.sort = .servo) := by
  obtain ⟨past, hpast⟩ := (accounts_journalProgram h.run).names
  cases ho with
  | named htold =>
      obtain ⟨hlegal, hfree⟩ := hpast.legal_of_told htold
      exact ⟨hlegal, fun hmem => absurd hmem hfree⟩
  | stamp htold =>
      obtain ⟨hlegal, hfree⟩ := hpast.legal_of_told htold
      exact ⟨hlegal, fun hmem => absurd hmem hfree⟩
  | servo hget =>
      obtain ⟨n, -, -, hv⟩ := h.exists_servo (.servo hget)
      exact ⟨Servos.isLegal_servo? hv, fun _ => rfl⟩
  | driver hsuffix hget hdeclares =>
      obtain ⟨-, n, -, -, rfl⟩ := h.exists_driver (.driver hsuffix hget hdeclares)
      exact ⟨(isLegal_spell _).append (Motors.isWordChar_of_mem_suffix hsuffix),
        fun hmem => absurd hmem (Motors.variable_not_reserved _ hsuffix)⟩

end Run

/-- Objects of one sort go by different identifiers. -/
theorem Journal.Declares.eq_of_identifier_eq {j : Journal} {o o' : GlobalObject}
    (ho : j.Declares o) (ho' : j.Declares o') (hsort : o.sort = o'.sort)
    (h : o.identifier = o'.identifier) : o = o' := by
  cases ho with
  | named => cases ho' <;> cases hsort; exact congrArg _ h
  | stamp => cases ho' <;> cases hsort; exact congrArg _ h
  | servo => cases ho' <;> cases hsort; exact congrArg _ h
  | driver hsuffix =>
      cases ho' <;> cases hsort
      case driver hsuffix' _ _ =>
        obtain ⟨rfl, rfl⟩ := Motors.variable_injective hsuffix hsuffix' h
        rfl

/-- In every program that compiles, the sketch has a block of declarations and a block of variables
behind its headers, and each key of the two stands once. The declarations are servos of nodes and
times, and the variables are variables under their identifiers, those of drivers, and code of the
user. The identifiers of all these objects are legal, and none is a reserved word except that of a
servo. Objects of one sort with the same identifier are the same. So an identifier is declared twice
only for objects of different sorts. Variables and times get theirs from the table of names and
clash exactly if their names agree up to case, while servos and drivers have the spellings of the
names in their nodes, whatever else has them. -/
theorem global_objects_clash_only_across_sorts {p : Program} {board : Board} {header : Bool}
    {c : Compiled} (h : Registry.standard.compile p board header = .ok c) :
    ∃ places body j, Registry.standard.Ran p board header c places body j ∧
      let s := j.draft.sections
      (∃ rest, c.sketch.source = (if header then heading board else "") ++ s.includeBlock ++
        (s.declarationBlock ++ s.globalBlock ++ rest)) ∧
      (s.declarations.keys.Nodup ∧ s.globals.keys.Nodup) ∧
      (∀ key text, s.declarations.get? key = some text →
        ∃ o, j.Declares o ∧
          (o = .servo o.identifier ∧ key = Servos.declarationKey o.identifier ∨
            o = .stamp o.identifier ∧ key = Time.declarationKey o.identifier)) ∧
      (∀ key text, s.globals.get? key = some text →
        j.Declares (.named key) ∨
        (∃ n ∈ p.nodes, n.kind = Motors.driverKind ∧
          key = Motors.variablesKey (Motors.identifier n) ∧ text = Motors.pinVariables n ∧
          ∀ suffix, suffix ∈ (Motors.Wiring.of n).suffixes ∨ suffix = "Speed" →
            j.Declares (.driver (Motors.identifier n) suffix)) ∨
        ∃ n ∈ p.nodes, n.kind = "base_define_bloc" ∧
          Workspace.ChainTold ⟨p, places, c.types, board⟩ j.entries (n.head? "DO") text) ∧
      (∀ o, j.Declares o →
        IsLegal o.identifier ∧ (o.identifier ∈ reservedWords → o.sort = .servo)) ∧
      (∀ o o', j.Declares o → j.Declares o' → o.identifier = o'.identifier →
        o = o' ∨ o.sort ≠ o'.sort) ∧
      (∀ name name' x x', j.Told name x → j.Told name' x' →
        (x = x' ↔ Text.lowercase name = Text.lowercase name')) ∧
      (∀ v, j.Declares (.servo v) →
        ∃ n ∈ p.nodes, n.kind = "motor_servo_init" ∧ Servos.servo? n = some v) ∧
      ∀ v suffix, j.Declares (.driver v suffix) →
        ∃ n ∈ p.nodes, n.kind = Motors.driverKind ∧ Motors.identifier n = v := by
  obtain ⟨places, body, j, hran⟩ := Registry.exists_ran h
  obtain ⟨past, hpast⟩ := (Registry.accounts_journalProgram hran.run).names
  have hdistinct : j.draft.sections.declarations.keys.Nodup ∧
      j.draft.sections.globals.keys.Nodup :=
    ⟨hran.nodup_keys (by decide : Section.declarations ≠ _),
      hran.nodup_keys (by decide : Section.globals ≠ _)⟩
  refine ⟨places, body, j, hran, hran.exists_source_eq, hdistinct, ?_, ?_,
    fun o ho => hran.legal_of_declares ho, ?_, fun name name' x x' => hpast.told_eq_iff,
    fun v hv => hran.exists_servo hv, fun v suffix hv => (hran.exists_driver hv).2⟩
  · intro key text hget
    rcases hran.servo_or_stamp hget with ⟨-, -, -, v, -, rfl, rfl⟩ | ⟨x, hx, rfl, -⟩
    · exact ⟨.servo v, .servo hget, .inl ⟨rfl, rfl⟩⟩
    · exact ⟨.stamp x, hx, .inr ⟨rfl, rfl⟩⟩
  · intro key text hget
    rcases hran.named_or_driver_or_code hget with
      hnamed | ⟨n, hn, hkind, rfl, rfl⟩ | ⟨n, hn, hkind, -, htold⟩
    · exact .inl hnamed
    · refine .inr (.inl ⟨n, hn, hkind, rfl, rfl, fun suffix hsuffix => ?_⟩)
      exact .driver (Motors.mem_allSuffixes hsuffix) hget
        (Motors.declaresVariable_pinVariables hsuffix)
    · exact .inr (.inr ⟨n, hn, hkind, htold⟩)
  · intro o o' ho ho' hidentifier
    by_cases hsort : o.sort = o'.sort
    · exact .inl (ho.eq_of_identifier_eq ho' hsort hidentifier)
    · exact .inr hsort

def servoSample (first second : String) : Program where
  variableNames := ["arm"]
  nodes :=
    [{ id := ⟨1⟩, kind := "motor_servo_init", fields := .ofList [("VAR", first)],
       next := some ⟨2⟩ },
      { id := ⟨2⟩, kind := "motor_servo_init", fields := .ofList [("VAR", second), ("PIN", "10")] }]
  topLevel := [⟨1⟩]

theorem inferTypes_servoSample (first second : String) :
    (Registry.standard.inferTypes (servoSample first second)).map = .empty := by
  apply Registry.inferTypes_of_mentions_eq_nil
  rw [Registry.probe, Registry.typing?_standard, Registry.mentions?_standard]
  rfl

/-- Servos with names of their own do not clash with the variable, and no object that is declared
has a reserved word as its identifier. -/
theorem servoSample_identifiers_apart :
    ∃ c places body j, Registry.standard.compile (servoSample "claw" "wrist") .uno false = .ok c ∧
      Registry.standard.Ran (servoSample "claw" "wrist") .uno false c places body j ∧
      j.Declares (.named "arm") ∧ j.Declares (.servo "claw") ∧ j.Declares (.servo "wrist") ∧
      (∀ v, j.Declares (.servo v) → v ≠ "arm") ∧
      ∀ o, j.Declares o → o.identifier ∉ reservedWords := by
  have hcompiles : ∃ c,
      Registry.standard.compile (servoSample "claw" "wrist") .uno false = .ok c := by
    simp only [Registry.compile_eq_ok_iff, Registry.get?_standard]
    exact ⟨_, _, _, _, rfl, rfl, rfl⟩
  obtain ⟨c, hc⟩ := hcompiles
  obtain ⟨places, body, j, hran, -, -, -, -, hlegal, -, -, hservos, -⟩ :=
    global_objects_clash_only_across_sorts hc
  have hnames (v : String) (hv : j.Declares (.servo v)) : v = "claw" ∨ v = "wrist" := by
    obtain ⟨n, hn, -, hservo⟩ := hservos v hv
    rcases List.mem_pair.mp hn with rfl | rfl
    · exact .inl (Option.some.inj hservo).symm
    · exact .inr (Option.some.inj hservo).symm
  have hrun := hran.run_eq rfl
    ((Registry.types_of_compile hc).trans (inferTypes_servoSample _ _))
  have hj := (congrArg Prod.snd hrun).symm
  have htold : j.Told "arm" "arm" :=
    List.mem_of_getElem? (i := 0) (congrArg (·.2.entries[0]?) hrun).symm
  have hglobals : j.draft.sections.globals.get? "arm" =
      some ("int" ++ " " ++ "arm" ++ ";") := by
    rw [show j = _ from hj]
    decide +kernel
  have hfirst : j.Declares (.servo "claw") := .servo (by
    rw [show j = _ from hj]
    decide +kernel)
  have hsecond : j.Declares (.servo "wrist") := .servo (by
    rw [show j = _ from hj]
    decide +kernel)
  refine ⟨c, _, body, j, hc, hran,
    .named htold ⟨';', [], rfl, by decide⟩ hglobals,
    hfirst, hsecond, ?_, ?_⟩
  · intro v hv
    rcases hnames v hv with rfl | rfl <;> decide
  · intro o ho hreserved
    cases o with
    | servo v =>
        rcases hnames v ho with rfl | rfl
        · exact absurd hreserved (by decide)
        · exact absurd hreserved (by decide)
    | named x => cases (hlegal _ ho).2 hreserved
    | stamp x => cases (hlegal _ ho).2 hreserved
    | driver v suffix => cases (hlegal _ ho).2 hreserved

/-- A servo with the name of the variable is declared beside it, and one with the name of a function
of the core library is declared under that very name. -/
theorem servoSample_identifier_twice :
    ∃ c places body j, Registry.standard.compile (servoSample "arm" "delay") .uno false = .ok c ∧
      Registry.standard.Ran (servoSample "arm" "delay") .uno false c places body j ∧
      j.Declares (.named "arm") ∧ j.Declares (.servo "arm") ∧ j.Declares (.servo "delay") ∧
      "delay" ∈ reservedWords ∧
      c.sketch.source = "#include <Servo.h>\n\nServo arm;\nServo delay;\n\nint arm;\n\n" ++
        "void setup() \x7b\n  arm.attach(9);\n  delay.attach(10);\n\x7d\n\n" ++
        "void loop() \x7b\n\x7d\n" := by
  have hcompiles : ∃ c,
      Registry.standard.compile (servoSample "arm" "delay") .uno false = .ok c := by
    simp only [Registry.compile_eq_ok_iff, Registry.get?_standard]
    exact ⟨_, _, _, _, rfl, rfl, rfl⟩
  obtain ⟨c, hc⟩ := hcompiles
  obtain ⟨places, body, j, hran⟩ := Registry.exists_ran hc
  have hrun := hran.run_eq rfl
    ((Registry.types_of_compile hc).trans (inferTypes_servoSample _ _))
  have hj := (congrArg Prod.snd hrun).symm
  have htold : j.Told "arm" "arm" :=
    List.mem_of_getElem? (i := 0) (congrArg (·.2.entries[0]?) hrun).symm
  have hbody : body = "" := (Except.ok.inj (congrArg (·.1) hrun)).symm
  have hglobals : j.draft.sections.globals.get? "arm" =
      some ("int" ++ " " ++ "arm" ++ ";") := by
    rw [show j = _ from hj]
    decide +kernel
  have hfirst : j.Declares (.servo "arm") := .servo (by
    rw [show j = _ from hj]
    decide +kernel)
  have hsecond : j.Declares (.servo "delay") := .servo (by
    rw [show j = _ from hj]
    decide +kernel)
  have hsource : c.sketch.source =
      "#include <Servo.h>\n\nServo arm;\nServo delay;\n\nint arm;\n\n" ++
        "void setup() \x7b\n  arm.attach(9);\n  delay.attach(10);\n\x7d\n\n" ++
        "void loop() \x7b\n\x7d\n" := by
    rw [hran.source_eq, hbody, Draft.source, show j = _ from hj]
    decide +kernel
  exact ⟨c, _, body, j, hc, hran,
    .named htold ⟨';', [], rfl, by decide⟩ hglobals,
    hfirst, hsecond, by decide, hsource⟩

end BlockSketch
