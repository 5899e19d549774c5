import BlockSketch.Program.Loading
import BlockSketch.Program.Saved
import BlockSketch.Proofs.Json.Reader

/-!
Saving and loading are inverse. Parts that are left out on saving are those that loading fills in,
so that every program is read back from its saved form as it was, and programs with one saved form
are one program.
-/

namespace BlockSketch

open Json

/-! ### Maps -/

namespace SortedMap

variable {κ α : Type} [Ord κ]

theorem insertEntry_of_forall_lt [Std.OrientedOrd κ] {k : κ} {l : List (κ × α)}
    (h : ∀ e ∈ l, compare e.1 k = .lt) (v : α) : insertEntry k v l = l ++ [(k, v)] := by
  induction l with
  | nil => rfl
  | cons e l ih =>
      have hgt : compare k e.1 = .gt := Std.OrientedCmp.gt_iff_lt.mpr (h e List.mem_cons_self)
      rw [insertEntry, hgt, ih fun d hd => h d (List.mem_cons_of_mem _ hd), List.cons_append]

theorem entries_foldl_insert [Std.TransOrd κ] (l : List (κ × α)) (m : SortedMap κ α)
    (h : (m.entries ++ l).Pairwise (fun x y => compare x.1 y.1 = .lt)) :
    (l.foldl (fun m e => m.insert e.1 e.2) m).entries = m.entries ++ l := by
  induction l generalizing m with
  | nil => simp
  | cons e l ih =>
      have hbefore : ∀ d ∈ m.entries, compare d.1 e.1 = .lt := fun d hd =>
        (List.pairwise_append.mp h).2.2 d hd e List.mem_cons_self
      have hinsert : (m.insert e.1 e.2).entries = m.entries ++ [e] :=
        insertEntry_of_forall_lt hbefore e.2
      rw [List.foldl_cons, ih, hinsert, List.append_assoc, List.singleton_append]
      rw [hinsert, List.append_assoc, List.singleton_append]
      exact h

theorem foldl_insert_toList [Std.TransOrd κ] (m : SortedMap κ α) :
    m.toList.foldl (fun m e => m.insert e.1 e.2) empty = m := by
  apply SortedMap.ext
  rw [entries_foldl_insert]
  · rfl
  · exact m.ascending

theorem eq_empty_of_isEmpty {m : SortedMap κ α} (h : m.isEmpty = true) : m = empty :=
  SortedMap.ext (List.isEmpty_iff.mp h)

end SortedMap

/-! ### Fields of records -/

section Fields

variable {σ α β : Type} {fields : List (RecordField σ)} {name : String} {get : σ → Option α}
  {set : σ → α → σ} {item : Reader α} {s t : σ}

theorem collects_entry
    (hfield : fields.find? (fun f => f.name = name) = some (.of name get set item))
    (hnone : get s = none) {v : Json} {a : α} (h : ReadsBack item v a) (ht : set s a = t) :
    Collects (fieldStep fields) s [(name, v)] t := by
  subst ht
  refine .cons (fun hrest => ?_) (.nil _)
  simp [fieldStep, hfield, RecordField.of, hnone, readColon_cons, h.read hrest, bind, Except.bind,
    Except.map]

theorem collects_entryOf? {set : σ → Option β → σ} {get : σ → Option (Option β)} {item : Reader β}
    (hfield : fields.find? (fun f => f.name = name) = some (.of name get set (readOptional item)))
    (hnone : get s = none) {write : β → Json} (h : ∀ b, ReadsBack item (write b) b)
    (part : Option β) (ht : part.elim s (fun b => set s (some b)) = t) :
    Collects (fieldStep fields) s (entryOf? name write part) t := by
  subst ht
  cases part with
  | none => exact .nil s
  | some b => exact collects_entry hfield hnone (h b).optional rfl

theorem collects_entriesOf? {set : σ → List β → σ} {get : σ → Option (List β)} {item : Reader β}
    (hfield : fields.find? (fun f => f.name = name) = some (.of name get set (readList item)))
    (hnone : get s = none) {write : β → Json} (h : ∀ b, ReadsBack item (write b) b)
    (parts : List β) (ht : (if parts.isEmpty then s else set s parts) = t) :
    Collects (fieldStep fields) s (entriesOf? name write parts) t := by
  subst ht
  rw [entriesOf?]
  split
  · exact .nil s
  · exact collects_entry hfield hnone (readList_map h parts) rfl

theorem getD_map_some (part : Option β) : (part.map some).getD none = part := by
  cases part <;> rfl

end Fields

/-! ### Sockets -/

theorem NodeId.read_toJson (id : NodeId) : ReadsBack NodeId.read id.toJson id := by
  have hread := readNatural_ofNat id.number.toNat_lt (by decide : 2 ^ 32 ≤ 2 ^ 64)
  refine ⟨hread.opens, fun hrest => ?_⟩
  rw [NodeId.read, NodeId.toJson, NodeId.toNat, hread.read hrest, Except.map]
  simp

theorem DataType.read_tag (t : DataType) : ReadsBack DataType.read (.text t.tag) t := by
  refine ⟨(readText_text t.tag).opens, fun hrest => ?_⟩
  rw [DataType.read, (readText_text t.tag).read hrest, Except.map, DataType.ofTag_tag]

theorem ValueSocket.read_toJson (s : ValueSocket) : ReadsBack ValueSocket.read s.toJson s := by
  have hname : Collects (fieldStep PartialValueSocket.fields) {} [("name", .text s.name)]
      { name := some s.name } :=
    collects_entry rfl rfl (readText_text s.name) rfl
  have hcheck : Collects (fieldStep PartialValueSocket.fields) { name := some s.name }
      (entryOf? "check" (fun t : DataType => .text t.tag) s.check)
      { name := some s.name, check := s.check.map some } :=
    collects_entryOf? rfl rfl DataType.read_tag s.check (by cases s.check <;> rfl)
  have hchild : Collects (fieldStep PartialValueSocket.fields)
      { name := some s.name, check := s.check.map some } (entryOf? "child" NodeId.toJson s.child)
      { name := some s.name, check := s.check.map some, child := s.child.map some } :=
    collects_entryOf? rfl rfl NodeId.read_toJson s.child (by cases s.child <;> rfl)
  refine readRecord_object ((hname.append hcheck).append hchild) ?_
  simp only [PartialValueSocket.finish, Option.map_some, getD_map_some]

theorem StatementSocket.read_toJson (s : StatementSocket) :
    ReadsBack StatementSocket.read s.toJson s := by
  have hname : Collects (fieldStep PartialStatementSocket.fields) {} [("name", .text s.name)]
      { name := some s.name } :=
    collects_entry rfl rfl (readText_text s.name) rfl
  have hhead : Collects (fieldStep PartialStatementSocket.fields) { name := some s.name }
      (entryOf? "head" NodeId.toJson s.head) { name := some s.name, head := s.head.map some } :=
    collects_entryOf? rfl rfl NodeId.read_toJson s.head (by cases s.head <;> rfl)
  refine readRecord_object (hname.append hhead) ?_
  simp only [PartialStatementSocket.finish, Option.map_some, getD_map_some]

/-! ### Fields of nodes -/

theorem collects_fields (m : SortedMap String String) (l : List (String × String)) :
    Collects readFields.step m (l.map fun e => (e.1, .text e.2))
      (l.foldl (fun m e => m.insert e.1 e.2) m) := by
  induction l generalizing m with
  | nil => exact .nil m
  | cons e l ih =>
      refine .cons (fun hrest => ?_) (ih (m.insert e.1 e.2))
      rw [readFields.step, readColon_cons]
      simp only [bind, Except.bind, (readText_text e.2).read hrest]

theorem readFields_ofFields (m : SortedMap String String) :
    ReadsBack readFields (Json.ofFields m) m where
  opens := opens_object _
  read {rest} _ := by
    have hfields := collects_fields .empty m.toList
    rw [SortedMap.foldl_insert_toList] at hfields
    rw [readFields, Json.ofFields, skipBlanks_object]
    exact readObject_written hfields rest

/-! ### Variants -/

namespace Variant

theorem collects_settings (l : List (String × Json)) {settings : List (String × Json)}
    (h : ∀ e ∈ settings, e.1 ≠ "type" ∧ ReadsBack (readValue settingDepth) e.2 e.2) :
    Collects entryStep l settings (l ++ settings) := by
  induction settings generalizing l with
  | nil => simpa using Collects.nil l
  | cons e settings ih =>
      obtain ⟨hkey, hvalue⟩ := h e List.mem_cons_self
      have htail := ih (l ++ [e]) fun d hd => h d (List.mem_cons_of_mem _ hd)
      rw [List.append_assoc, List.singleton_append] at htail
      refine .cons (fun hrest => ?_) htail
      rw [entryStep, if_neg hkey, readColon_cons]
      simp only [bind, Except.bind, hvalue.read hrest]

theorem readValue_settings (v : Variant) :
    ∀ e ∈ toJson.settings v, e.1 ≠ "type" ∧ ReadsBack (readValue settingDepth) e.2 e.2 := by
  have hbool (b : Bool) : ReadsBack (readValue settingDepth) (.bool b) (.bool b) :=
    readValue_bool settingDepth b
  have htexts (l : List String) : ReadsBack (readValue settingDepth) (.ofTexts l) (.ofTexts l) := by
    refine readValue_array fun w hw => ?_
    obtain ⟨s, -, rfl⟩ := List.mem_map.mp hw
    exact readValue_text _ s
  cases v with
  | motorDriver motorCount aHasEnable bHasEnable =>
      have hcount := readValue_ofNat settingDepth (Nat.lt_trans motorCount.toNat_lt (by decide))
      simp [toJson.settings, hcount, hbool]
  | conditional elseIfCount hasElse =>
      have hcount := readValue_ofNat settingDepth (Nat.lt_trans elseIfCount.toNat_lt (by decide))
      simp [toJson.settings, hcount, hbool]
  | procedureDef arguments => simp [toJson.settings, htexts]
  | procedureCall arguments => simp [toJson.settings, htexts]

theorem collects_toJson (v : Variant) :
    Collects entryStep [] (("type", .text v.tag) :: toJson.settings v)
      (("type", .text v.tag) :: toJson.settings v) := by
  have htag : isTag v.tag = true := by cases v <;> rfl
  refine .cons (fun hrest => ?_) (collects_settings [("type", .text v.tag)] (readValue_settings v))
  simp only [entryStep, readColon_cons, readTag, (readText_text v.tag).read hrest, htag, bind,
    Except.bind]
  rfl

theorem naturalBelow?_ofNat {n bound : Nat} (h : n < bound) :
    naturalBelow? bound (.ofNat n) = some n := by
  simp only [Json.ofNat, naturalBelow?, natural?, Text.readDigits?_toString, Option.filter, h,
    decide_true, if_true]

theorem texts?_ofTexts (l : List String) : texts? (.ofTexts l) = some l := by
  rw [ofTexts, texts?]
  induction l with
  | nil => rfl
  | cons s l ih => simp [ih, Json.text?]

theorem ofJson?_toJson (v : Variant) : ofJson? v.toJson = some v := by
  have hbyte (n : UInt8) : naturalBelow? 256 (.ofNat n.toNat) = some n.toNat :=
    naturalBelow?_ofNat n.toNat_lt
  have hword (n : UInt32) : naturalBelow? 0x100000000 (.ofNat n.toNat) = some n.toNat :=
    naturalBelow?_ofNat n.toNat_lt
  cases v <;>
    simp [Variant.toJson, toJson.settings, Variant.tag, ofJson?, ofSettings?, setting?, boolean?,
      hbyte, hword, texts?_ofTexts]

theorem read_toJson (v : Variant) : ReadsBack Variant.read v.toJson v where
  opens := opens_object _
  read {rest} _ := by
    have hvariant := ofJson?_toJson v
    rw [Variant.toJson] at hvariant ⊢
    rw [Variant.read, skipBlanks_object]
    simp only [readObject_written (collects_toJson v), bind, Except.bind, hvariant, orMisshapen]

end Variant

/-! ### Nodes and programs -/

def Node.savedParts (n : Node) : PartialNode where
  id := some n.id
  kind := some n.kind
  fields := if n.fields.isEmpty then none else some n.fields
  values := if n.values.isEmpty then none else some n.values
  statements := if n.statements.isEmpty then none else some n.statements
  next := n.next.map some
  comment := n.comment.map some
  variant := n.variant.map some

/-- What the saved form leaves out is what loading fills in. -/
theorem Node.finish_savedParts (n : Node) : n.savedParts.finish = some n := by
  have hfields : n.savedParts.fields.getD .empty = n.fields := by
    simp only [Node.savedParts]
    split
    next hempty => exact (SortedMap.eq_empty_of_isEmpty hempty).symm
    next => rfl
  have hlist {β : Type} (l : List β) : (if l.isEmpty then none else some l).getD [] = l := by
    cases l <;> rfl
  simp only [PartialNode.finish, hfields]
  simp only [Node.savedParts, hlist, getD_map_some, bind, Option.bind, pure]

theorem Node.collects_toJson (n : Node) :
    Collects (fieldStep PartialNode.parts) {}
      ([("id", n.id.toJson), ("kind", .text n.kind)] ++
        (if n.fields.isEmpty then [] else [("fields", Json.ofFields n.fields)]) ++
        entriesOf? "values" ValueSocket.toJson n.values ++
        entriesOf? "statements" StatementSocket.toJson n.statements ++
        entryOf? "next" NodeId.toJson n.next ++ entryOf? "comment" .text n.comment ++
        entryOf? "variant" Variant.toJson n.variant)
      n.savedParts := by
  have hid : Collects (fieldStep PartialNode.parts) {} [("id", n.id.toJson)] { id := some n.id } :=
    collects_entry rfl rfl (NodeId.read_toJson n.id) rfl
  have hkind : Collects (fieldStep PartialNode.parts) { id := some n.id } [("kind", .text n.kind)]
      { id := some n.id, kind := some n.kind } :=
    collects_entry rfl rfl (readText_text n.kind) rfl
  have hfields : Collects (fieldStep PartialNode.parts) { id := some n.id, kind := some n.kind }
      (if n.fields.isEmpty then [] else [("fields", Json.ofFields n.fields)])
      { id := some n.id, kind := some n.kind, fields := n.savedParts.fields } := by
    simp only [Node.savedParts]
    split
    · exact .nil _
    · exact collects_entry rfl rfl (readFields_ofFields n.fields) rfl
  have hvalues : Collects (fieldStep PartialNode.parts)
      { id := some n.id, kind := some n.kind, fields := n.savedParts.fields }
      (entriesOf? "values" ValueSocket.toJson n.values)
      { n.savedParts with statements := none, next := none, comment := none, variant := none } :=
    collects_entriesOf? rfl rfl ValueSocket.read_toJson n.values
      (by simp only [Node.savedParts]; cases n.values <;> rfl)
  have hstatements : Collects (fieldStep PartialNode.parts)
      { n.savedParts with statements := none, next := none, comment := none, variant := none }
      (entriesOf? "statements" StatementSocket.toJson n.statements)
      { n.savedParts with next := none, comment := none, variant := none } :=
    collects_entriesOf? rfl rfl StatementSocket.read_toJson n.statements
      (by simp only [Node.savedParts]; cases n.statements <;> rfl)
  have hnext : Collects (fieldStep PartialNode.parts)
      { n.savedParts with next := none, comment := none, variant := none }
      (entryOf? "next" NodeId.toJson n.next)
      { n.savedParts with comment := none, variant := none } :=
    collects_entryOf? rfl rfl NodeId.read_toJson n.next
      (by simp only [Node.savedParts]; cases n.next <;> rfl)
  have hcomment : Collects (fieldStep PartialNode.parts)
      { n.savedParts with comment := none, variant := none }
      (entryOf? "comment" .text n.comment) { n.savedParts with variant := none } :=
    collects_entryOf? rfl rfl readText_text n.comment
      (by simp only [Node.savedParts]; cases n.comment <;> rfl)
  have hvariant : Collects (fieldStep PartialNode.parts) { n.savedParts with variant := none }
      (entryOf? "variant" Variant.toJson n.variant) n.savedParts :=
    collects_entryOf? rfl rfl Variant.read_toJson n.variant
      (by simp only [Node.savedParts]; cases n.variant <;> rfl)
  exact (((((((hid.append hkind).append hfields).append hvalues).append hstatements).append
    hnext).append hcomment).append hvariant)

theorem Node.read_toJson (n : Node) : ReadsBack Node.read n.toJson n :=
  readRecord_object n.collects_toJson n.finish_savedParts

namespace Program

theorem read_toJson (p : Program) : ReadsBack Program.read p.toJson p := by
  have hnames : Collects (fieldStep PartialProgram.fields) {}
      [("variables", .ofTexts p.variableNames)] { variableNames := some p.variableNames } :=
    collects_entry rfl rfl (readList_map readText_text p.variableNames) rfl
  have htop : Collects (fieldStep PartialProgram.fields) { variableNames := some p.variableNames }
      [("top_level", .array (p.topLevel.map NodeId.toJson))]
      { variableNames := some p.variableNames, topLevel := some p.topLevel } :=
    collects_entry rfl rfl (readList_map NodeId.read_toJson p.topLevel) rfl
  have hnodes : Collects (fieldStep PartialProgram.fields)
      { variableNames := some p.variableNames, topLevel := some p.topLevel }
      [("nodes", .array (p.nodes.map Node.toJson))]
      { variableNames := some p.variableNames, topLevel := some p.topLevel,
        nodes := some p.nodes } :=
    collects_entry rfl rfl (readList_map Node.read_toJson p.nodes) rfl
  exact readRecord_object ((hnames.append htop).append hnodes) rfl

theorem load_save (p : Program) : Program.load p.save = .ok p := by
  have hread := (Program.read_toJson p).read .done
  rw [List.append_nil, written] at hread
  rw [Program.load, readAll, Program.save, hread]
  rfl

/-- Every program is loaded from its saved form as it was. So different programs have different
saved forms, and saving what was loaded from any text gives a text that loading and saving keep. -/
theorem save_load_inverse :
    (∀ p : Program, Program.load p.save = .ok p) ∧
      (∀ p q : Program, p.save = q.save ↔ p = q) ∧
      ∀ (text : String) (p : Program), Program.load text = .ok p →
        (Program.load p.save).map Program.save = .ok p.save := by
  refine ⟨Program.load_save, fun p q => ⟨fun h => ?_, congrArg Program.save⟩, fun text p _ => ?_⟩
  · have hloaded : Except.ok p = (Except.ok q : Except Fault Program) := by
      rw [← p.load_save, h, q.load_save]
    exact Except.ok.inj hloaded
  · rw [p.load_save, Except.map]

/-- A program that is not spelled as saving spells it: a node is an array, a letter is given by
number, and there is an entry that loading skips. -/
def respelled : String :=
  "\x7b \"nodes\" : [[7, \"\\u0041\", \x7b\"b\": \"1\", \"a\": \"2\"\x7d]], \"version\": 1.50 \x7d"

def respelledProgram : Program where
  nodes := [{ id := ⟨7⟩, kind := "A", fields := .ofList [("a", "2"), ("b", "1")] }]

theorem respelled_saved_once :
    Program.load respelled = .ok respelledProgram ∧
      (Program.load respelledProgram.save).map Program.save = .ok respelledProgram.save := by
  have hload : Program.load respelled = .ok respelledProgram := by
    decide +kernel
  exact ⟨hload, Program.save_load_inverse.2.2 respelled respelledProgram hload⟩

end Program

end BlockSketch
