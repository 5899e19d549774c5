import BlockSketch.Program.Validation
import BlockSketch.Proofs.Text.Numeral
import Mathlib.Data.Set.Card

/-!
Sockets and shapes. A node with a variant is checked twice: the number of arms that a conditional
declares is compared with the indices that its socket names spell, and every socket name is looked
up in the shape of the variant. The indices are read from the names, and a name such as `IF01`
spells an index without being a name of the shape, so neither check alone fixes the arms.
-/

namespace BlockSketch

namespace Node

variable {n : Node} {e : GraphError}

/-- A node has a socket of a kind with a name. A field is no socket. -/
def Carries (n : Node) (name : String) : SocketKind → Prop
  | .value => ∃ s ∈ n.values, s.name = name
  | .statement => ∃ s ∈ n.statements, s.name = name
  | .field => False

/-! ### Arms -/

def HasArm (n : Node) (i : Nat) : Prop :=
  (∃ s ∈ n.values, indexAfter? "IF" s.name = some i) ∨
    ∃ s ∈ n.statements, indexAfter? "DO" s.name = some i

theorem lt_of_indexAfter? {word name : String} {i : Nat} (h : indexAfter? word name = some i) :
    i < 2 ^ 32 := by
  unfold indexAfter? at h
  split at h
  next => simpa using (Option.filter_eq_some_iff.mp h).2
  next => cases h

theorem nodup_eraseDups (l : List Nat) : l.eraseDups.Nodup := by
  cases l with
  | nil => exact List.nodup_nil
  | cons a rest =>
      rw [List.eraseDups_cons, List.nodup_cons]
      exact ⟨by simp [List.mem_eraseDups], nodup_eraseDups _⟩
termination_by l.length
decreasing_by
  have hle := List.length_filter_le (fun b => !b == a) rest
  rw [List.length_cons]
  omega

theorem nodup_armIndices (n : Node) : n.armIndices.Nodup := nodup_eraseDups _

theorem mem_armIndices {i : Nat} : i ∈ n.armIndices ↔ n.HasArm i := by
  rw [armIndices, List.mem_eraseDups, List.mem_append, List.mem_filterMap, List.mem_filterMap]
  rfl

theorem armCount_eq_mod (n : Node) : n.armCount = n.armIndices.length % 2 ^ 32 :=
  UInt32.toNat_ofNat'

theorem armCount_lt (n : Node) : n.armCount < 2 ^ 32 := UInt32.toNat_lt _

theorem armCount_le_length (n : Node) : n.armCount ≤ n.armIndices.length := by
  rw [armCount_eq_mod]
  exact Nat.mod_le _ _

theorem HasArm.lt {i : Nat} (h : n.HasArm i) : i < 2 ^ 32 := by
  rcases h with ⟨s, -, hindex⟩ | ⟨s, -, hindex⟩ <;> exact lt_of_indexAfter? hindex

/-- There are no more arms than sockets. -/
theorem armCount_le (n : Node) : n.armCount ≤ n.values.length + n.statements.length := by
  have hsub : n.armIndices ⊆ n.values.filterMap (fun s => indexAfter? "IF" s.name) ++
      n.statements.filterMap (fun s => indexAfter? "DO" s.name) :=
    fun i hi => List.mem_eraseDups.mp hi
  calc
    n.armCount ≤ n.armIndices.length := n.armCount_le_length
    _ ≤ _ := (n.nodup_armIndices.subperm hsub).length_le
    _ = _ := List.length_append
    _ ≤ _ := Nat.add_le_add (List.length_filterMap_le _ _) (List.length_filterMap_le _ _)

/-! ### The check of a node -/

/-- The number of arms in a report. -/
theorem toNat_present (n : Node) : (max n.armCount 1).toUInt32.toNat = max n.armCount 1 := by
  have hlt := n.armCount_lt
  rw [UInt32.toNat_ofNat']
  omega

theorem checkArms_eq_error {v : Variant} (h : n.checkArms v = .error e) :
    ∃ count otherwise present, v = .conditional count otherwise ∧
      present.toNat = max n.armCount 1 ∧ present ≤ count ∧
      e = .armCountMismatch n.id count present := by
  cases v with
  | conditional count otherwise =>
      rw [checkArms] at h
      split at h
      next hle =>
          cases h
          exact ⟨count, otherwise, _, rfl, n.toNat_present, hle, rfl⟩
      next => cases h
  | motorDriver | procedureDef | procedureCall => cases h

theorem checkArms_conditional_eq_ok_iff {count : UInt32} {otherwise : Bool} :
    n.checkArms (.conditional count otherwise) = .ok () ↔ count.toNat < max n.armCount 1 := by
  have hpresent := n.toNat_present
  rw [checkArms]
  split
  next hle =>
      rw [UInt32.le_iff_toNat_le, hpresent] at hle
      exact iff_of_false (fun h => by cases h) (by omega)
  next hnot =>
      rw [UInt32.le_iff_toNat_le, hpresent] at hnot
      exact iff_of_true rfl (by omega)

def stray? (n : Node) (v : Variant) : Option (String × SocketKind) :=
  match n.values.find? (fun s => !v.allows s.name .value) with
  | some s => some (s.name, .value)
  | none => (n.statements.find? (fun s => !v.allows s.name .statement)).map
      fun s => (s.name, .statement)

theorem stray?_eq_none_iff {v : Variant} :
    n.stray? v = none ↔ (∀ s ∈ n.values, v.allows s.name .value = true) ∧
      ∀ s ∈ n.statements, v.allows s.name .statement = true := by
  have hvalues : n.values.find? (fun s => !v.allows s.name .value) = none ↔
      ∀ s ∈ n.values, v.allows s.name .value = true := by simp
  rw [← hvalues, stray?]
  cases n.values.find? (fun s => !v.allows s.name .value) <;> simp

theorem carries_of_stray? {v : Variant} {name : String} {kind : SocketKind}
    (h : n.stray? v = some (name, kind)) : n.Carries name kind ∧ v.allows name kind = false := by
  unfold stray? at h
  split at h
  next s hs =>
      cases h
      have hnot := List.find?_some hs
      exact ⟨⟨s, List.mem_of_find?_eq_some hs, rfl⟩, by simpa using hnot⟩
  next =>
      obtain ⟨s, hs, heq⟩ := Option.map_eq_some_iff.mp h
      cases heq
      have hnot := List.find?_some hs
      exact ⟨⟨s, List.mem_of_find?_eq_some hs, rfl⟩, by simpa using hnot⟩

def checkSockets (n : Node) (v : Variant) : Except GraphError Unit :=
  match n.stray? v with
  | some socket => .error (.shapeMismatch n.id socket.1)
  | none => .ok ()

/-- A node with a variant is checked for its arms, then for its socket names. -/
theorem checkShape_of_variant {v : Variant} (hv : n.variant = some v) :
    n.checkShape = n.checkArms v >>= fun _ => n.checkSockets v := by
  rw [checkShape, hv]
  unfold checkSockets stray?
  dsimp only
  cases n.checkArms v with
  | error e => rfl
  | ok _ =>
      cases n.values.find? (fun s => !v.allows s.name .value) with
      | some s => rfl
      | none => cases n.statements.find? (fun s => !v.allows s.name .statement) <;> rfl

theorem checkShape_eq_ok_iff {v : Variant} (hv : n.variant = some v) :
    n.checkShape = .ok () ↔ n.checkArms v = .ok () ∧
      (∀ s ∈ n.values, v.allows s.name .value = true) ∧
      ∀ s ∈ n.statements, v.allows s.name .statement = true := by
  rw [checkShape_of_variant hv, ← stray?_eq_none_iff, checkSockets]
  cases n.checkArms v with
  | error e => simp [bind, Except.bind]
  | ok _ => cases n.stray? v <;> simp [bind, Except.bind]

/-- A node fails the check because its arms are too few, or because of a socket that its variant
does not give it. -/
theorem checkShape_eq_error (h : n.checkShape = .error e) :
    ∃ v, n.variant = some v ∧ (n.checkArms v = .error e ∨ ∃ name kind, n.Carries name kind ∧
      v.allows name kind = false ∧ e = .shapeMismatch n.id name) := by
  cases hv : n.variant with
  | none =>
      rw [checkShape, hv] at h
      cases h
  | some v =>
      refine ⟨v, rfl, ?_⟩
      rw [checkShape_of_variant hv] at h
      cases harms : n.checkArms v with
      | error e' =>
          rw [harms] at h
          exact .inl h
      | ok _ =>
          rw [harms] at h
          change n.checkSockets v = .error e at h
          unfold checkSockets at h
          cases hstray : n.stray? v with
          | none =>
              rw [hstray] at h
              cases h
          | some socket =>
              rw [hstray] at h
              cases h
              obtain ⟨hcarries, hnot⟩ := carries_of_stray? hstray
              exact .inr ⟨socket.1, socket.2, hcarries, hnot, rfl⟩

end Node

/-! ### Shapes -/

namespace Variant

theorem allows_iff {v : Variant} {name : String} {kind : SocketKind} :
    v.allows name kind = true ↔ ∃ spec ∈ v.shape, spec.name = name ∧ spec.kind = kind := by
  simp [allows]

variable {count : UInt32} {otherwise : Bool} {name : String}

theorem mem_shape_conditional {spec : SocketSpec} :
    spec ∈ (conditional count otherwise).shape ↔
      (∃ i ≤ count.toNat, spec ∈ armSpecs i) ∨ otherwise = true ∧ spec = statementSpec "ELSE" := by
  simp only [shape, List.mem_append, List.mem_flatMap, List.mem_range, Nat.lt_succ_iff]
  cases otherwise <;> simp

theorem length_shape_conditional :
    (conditional count otherwise).shape.length =
      2 * (count.toNat + 1) + otherwise.toNat := by
  simp only [shape, List.length_append, List.length_flatMap, armSpecs, List.length_cons,
    List.length_nil, List.map_const', List.length_range, List.sum_replicate]
  cases otherwise <;> simp <;> omega

theorem allows_conditional_value :
    (conditional count otherwise).allows name .value = true ↔
      ∃ i ≤ count.toNat, name = "IF" ++ toString i := by
  rw [allows_iff]
  constructor
  · rintro ⟨spec, hspec, rfl, hkind⟩
    rcases mem_shape_conditional.mp hspec with ⟨i, hi, harm⟩ | ⟨-, rfl⟩
    · rcases List.mem_pair.mp harm with rfl | rfl
      · exact ⟨i, hi, rfl⟩
      · cases hkind
    · cases hkind
  · rintro ⟨i, hi, rfl⟩
    exact ⟨_, mem_shape_conditional.mpr (.inl ⟨i, hi, List.mem_cons_self⟩), rfl, rfl⟩

theorem allows_conditional_statement :
    (conditional count otherwise).allows name .statement = true ↔
      (∃ i ≤ count.toNat, name = "DO" ++ toString i) ∨ otherwise = true ∧ name = "ELSE" := by
  rw [allows_iff]
  constructor
  · rintro ⟨spec, hspec, rfl, hkind⟩
    rcases mem_shape_conditional.mp hspec with ⟨i, hi, harm⟩ | ⟨helse, rfl⟩
    · rcases List.mem_pair.mp harm with rfl | rfl
      · cases hkind
      · exact .inl ⟨i, hi, rfl⟩
    · exact .inr ⟨helse, rfl⟩
  · rintro (⟨i, hi, rfl⟩ | ⟨helse, rfl⟩)
    · refine ⟨statementSpec ("DO" ++ toString i), ?_, rfl, rfl⟩
      exact mem_shape_conditional.mpr (.inl ⟨i, hi, by simp [armSpecs]⟩)
    · exact ⟨_, mem_shape_conditional.mpr (.inr ⟨helse, rfl⟩), rfl, rfl⟩

end Variant

end BlockSketch
