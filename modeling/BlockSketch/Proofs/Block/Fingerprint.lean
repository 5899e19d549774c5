import BlockSketch.Proofs.Block.Registry
import BlockSketch.Proofs.Inference.Assignment
import BlockSketch.Proofs.Text.Bytes
import Mathlib.Data.List.Nodup
import Mathlib.Data.List.Induction

/-!
What the fingerprint of a block library is made of. Libraries are built by calls that add one kind
or several. The bytes of a library tell its kinds and what each tells about types, since no name of
a kind has a line end inside, and they depend on the kinds that were added only, not on the order in
which that happened.
-/

namespace BlockSketch

open Text

/-- Whether a kind tells the type of its value, and whether it tells which variables get a type. -/
def Block.hooks (b : Block) : Bool × Bool := (b.typing?.isSome, b.mentions?.isSome)

def Block.signature (b : Block) : String × Bool × Bool := (b.kind, b.hooks)

namespace SortedMap

variable {κ α β : Type} [Ord κ]

/-- An entry with a new key is one more entry. -/
theorem perm_insertEntry [Std.LawfulEqOrd κ] {k : κ} {l : List (κ × α)}
    (h : lookupIn? k l = none) (v : α) : (insertEntry k v l).Perm ((k, v) :: l) := by
  induction l with
  | nil => exact .refl _
  | cons e rest ih =>
      have hall := lookupIn?_eq_none_iff.mp h
      have hrest := lookupIn?_eq_none_iff.mpr fun d hd => hall d (List.mem_cons_of_mem _ hd)
      rw [insertEntry]
      split
      next => exact .refl _
      next heq => exact absurd heq (hall e List.mem_cons_self)
      next => exact (ih hrest).cons e |>.trans (.swap _ _ _)

theorem lookupIn?_map (f : α → β) (k : κ) (l : List (κ × α)) :
    lookupIn? k (l.map fun e => (e.1, f e.2)) = (lookupIn? k l).map f := by
  induction l with
  | nil => rfl
  | cons e rest ih =>
      rw [List.map_cons, lookupIn?, lookupIn?, ih]
      split <;> rfl

end SortedMap

namespace Registry

/-! ### Libraries built by calls -/

/-- A call that adds a kind to a library, or several kinds in a row. -/
inductive Registration where
  | one (b : Block)
  | batch (blocks : List Block)

def Registration.offers : Registration → List Block
  | one b => [b]
  | batch blocks => blocks

def perform (r : Registry) : Registration → Registry
  | .one b => (r.register b).toOption.getD r
  | .batch blocks => (r.registerAll blocks).1

def built (calls : List Registration) : Registry := calls.foldl perform empty

def offered (calls : List Registration) : List Block := calls.flatMap Registration.offers

/-- Of kinds in a row those that are added where some names are in use: all before the first with a
name in use. -/
def addedFrom (used : List String) : List Block → List Block
  | [] => []
  | b :: rest => if b.kind ∈ used then [] else b :: addedFrom (used ++ [b.kind]) rest

def added (calls : List Registration) : List Block :=
  calls.foldl (fun blocks call => blocks ++ addedFrom (blocks.map (·.kind)) call.offers) []

theorem added_append_singleton (calls : List Registration) (call : Registration) :
    added (calls ++ [call]) =
      added calls ++ addedFrom ((added calls).map (·.kind)) call.offers := by
  simp [added]

theorem addedFrom_subset (used : List String) (blocks : List Block) :
    addedFrom used blocks ⊆ blocks := by
  induction blocks generalizing used with
  | nil => exact List.Subset.refl _
  | cons b rest ih =>
      rw [addedFrom]
      split
      · exact List.nil_subset _
      · exact List.cons_subset_cons _ (ih _)

theorem added_subset_offered (calls : List Registration) : added calls ⊆ offered calls := by
  induction calls using List.reverseRecOn with
  | nil => exact List.Subset.refl _
  | append_singleton calls call ih =>
      rw [added_append_singleton, offered, List.flatMap_append, List.flatMap_singleton]
      exact List.append_subset.mpr
        ⟨fun b hb => List.mem_append_left _ (ih hb),
          fun b hb => List.mem_append_right _ (addedFrom_subset _ _ hb)⟩

theorem addedFrom_eq_self {used : List String} {blocks : List Block}
    (hnodup : (used ++ blocks.map (·.kind)).Nodup) : addedFrom used blocks = blocks := by
  induction blocks generalizing used with
  | nil => rfl
  | cons b rest ih =>
      have hnew : b.kind ∉ used := fun h =>
        (List.nodup_append.mp hnodup).2.2 _ h _ List.mem_cons_self rfl
      rw [addedFrom, if_neg hnew, ih (by simpa using hnodup)]

/-- Kinds with names of their own are all added. -/
theorem added_eq_offered {calls : List Registration}
    (hnodup : ((offered calls).map (·.kind)).Nodup) : added calls = offered calls := by
  induction calls using List.reverseRecOn with
  | nil => rfl
  | append_singleton calls call ih =>
      have hoffered : offered (calls ++ [call]) = offered calls ++ call.offers := by
        rw [offered, List.flatMap_append, List.flatMap_singleton, offered]
      rw [hoffered, List.map_append] at hnodup
      rw [added_append_singleton, hoffered, ih (List.nodup_append.mp hnodup).1,
        addedFrom_eq_self hnodup]

/-! ### The kinds in a library -/

def Holds (r : Registry) (blocks : List Block) : Prop :=
  r.blocks.entries.Perm (blocks.map fun b => (b.kind, b))

namespace Holds

variable {r : Registry} {blocks : List Block}

theorem contains_iff (h : r.Holds blocks) {kind : String} :
    r.contains kind = true ↔ kind ∈ blocks.map (·.kind) := by
  have hkinds : (∀ e ∈ r.blocks.entries, compare kind e.1 ≠ .eq) ↔
      kind ∉ blocks.map (·.kind) := by
    constructor
    · intro hall hmem
      obtain ⟨b, hb, rfl⟩ := List.mem_map.mp hmem
      exact hall _ (h.mem_iff.mpr (List.mem_map_of_mem hb)) Std.ReflCmp.compare_self
    · intro hnot e he heq
      obtain ⟨b, hb, rfl⟩ := List.mem_map.mp (h.mem_iff.mp he)
      exact hnot (List.mem_map.mpr ⟨b, hb, (Std.LawfulEqOrd.eq_of_compare heq).symm⟩)
  rw [contains, Option.isSome_iff_ne_none, ← Classical.not_not (a := kind ∈ _), ← hkinds,
    ← SortedMap.lookupIn?_eq_none_iff]
  rfl

theorem register_eq (h : r.Holds blocks) {b : Block} (hnew : b.kind ∉ blocks.map (·.kind)) :
    ∃ r', r.register b = .ok r' ∧ r'.Holds (blocks ++ [b]) := by
  have hnone : r.contains b.kind = false := by
    rw [← Bool.not_eq_true, h.contains_iff]
    exact hnew
  refine ⟨⟨r.blocks.insert b.kind b⟩, by rw [register, hnone]; rfl, ?_⟩
  have hlookup : SortedMap.lookupIn? b.kind r.blocks.entries = none := by
    simpa [contains, Registry.get?, SortedMap.find?] using hnone
  rw [Holds, List.map_append]
  exact (SortedMap.perm_insertEntry hlookup b).trans
    ((h.cons _).trans (List.perm_append_singleton _ _).symm)

theorem registerAll (h : r.Holds blocks) (more : List Block) :
    (r.registerAll more).1.Holds (blocks ++ addedFrom (blocks.map (·.kind)) more) := by
  induction more generalizing r blocks with
  | nil => simpa [Registry.registerAll, addedFrom] using h
  | cons b rest ih =>
      rw [Registry.registerAll, addedFrom]
      by_cases hused : b.kind ∈ blocks.map (·.kind)
      · rw [register, if_pos (h.contains_iff.mpr hused), if_pos hused, List.append_nil]
        exact h
      · obtain ⟨r', hregister, hr'⟩ := h.register_eq hused
        have hrest := ih hr'
        rw [List.map_append, List.append_assoc] at hrest
        rw [hregister, if_neg hused]
        exact hrest

end Holds

/-- A single kind is added as a batch of one would be. -/
theorem perform_eq (r : Registry) (call : Registration) :
    r.perform call = (r.registerAll call.offers).1 := by
  cases call with
  | batch blocks => rfl
  | one b =>
      rw [perform, Registration.offers, registerAll]
      cases r.register b <;> rfl

theorem holds_built (calls : List Registration) : (built calls).Holds (added calls) := by
  induction calls using List.reverseRecOn with
  | nil => exact .refl _
  | append_singleton calls call ih =>
      rw [built, List.foldl_append, added_append_singleton]
      change ((built calls).perform call).Holds _
      rw [perform_eq]
      exact ih.registerAll call.offers

/-! ### Signatures -/

def signatures (r : Registry) : List (String × Bool × Bool) :=
  r.blocks.toList.map fun e => (e.1, e.2.hooks)

theorem map_fst_signatures (r : Registry) : r.signatures.map Prod.fst = r.kinds := by
  simp [signatures, kinds, SortedMap.keys, SortedMap.toList]

theorem map_hooks_get? (r : Registry) (kind : String) :
    (r.get? kind).map Block.hooks = SortedMap.lookupIn? kind r.signatures :=
  (SortedMap.lookupIn?_map Block.hooks kind r.blocks.entries).symm

theorem Holds.perm_signatures {r : Registry} {blocks : List Block} (h : r.Holds blocks) :
    r.signatures.Perm (blocks.map Block.signature) := by
  have hmap := h.map fun e : String × Block => (e.1, e.2.hooks)
  rwa [List.map_map] at hmap

/-- The names decide the order, so the same signatures are listed alike. -/
theorem signatures_eq_of_perm {r r' : Registry} (h : r.signatures.Perm r'.signatures) :
    r.signatures = r'.signatures := by
  have hascending (r : Registry) : r.signatures.Pairwise fun x y => compare x.1 y.1 = .lt :=
    List.pairwise_map.mpr r.blocks.ascending
  refine h.eq_of_pairwise (fun x y _ _ hxy hyx => ?_) (hascending r) (hascending r')
  rw [Std.OrientedCmp.gt_iff_lt.mpr hyx] at hxy
  cases hxy

/-! ### Bytes -/

def signatureBytes (s : String × Bool × Bool) : List UInt8 :=
  s.1.toUTF8.toList ++ [':'.toNat.toUInt8, flagByte s.2.1, flagByte s.2.2]

theorem fingerprintBytes_eq (r : Registry) :
    r.fingerprintBytes = (r.signatures.map signatureBytes).flatMap (· ++ [lineEndByte]) := by
  rw [fingerprintBytes, signatures, List.map_map, List.flatMap_map]
  refine List.flatMap_congr fun e _ => ?_
  simp [entryBytes, signatureBytes, Block.hooks, lineEndByte]

theorem flagByte_injective {b b' : Bool} (h : flagByte b = flagByte b') : b = b' := by
  revert b b'
  decide

theorem signatureBytes_injective {s s' : String × Bool × Bool}
    (h : signatureBytes s = signatureBytes s') : s = s' := by
  obtain ⟨hname, hflags⟩ := List.append_inj' h rfl
  simp only [List.cons.injEq, and_true, true_and] at hflags
  exact Prod.ext (eq_of_toList_toUTF8_eq hname)
    (Prod.ext (flagByte_injective hflags.1) (flagByte_injective hflags.2))

theorem lineEndByte_notMem_signatureBytes {s : String × Bool × Bool} (h : '\n' ∉ s.1.toList) :
    lineEndByte ∉ signatureBytes s := by
  have hflag (b : Bool) : lineEndByte ≠ flagByte b := by cases b <;> decide
  have hcolon : lineEndByte ≠ ':'.toNat.toUInt8 := by decide
  rw [signatureBytes, List.mem_append, not_or]
  refine ⟨lineEndByte_notMem_toUTF8 h, ?_⟩
  simp only [List.mem_cons, List.not_mem_nil, hflag, hcolon, or_false, not_false_eq_true]

/-- Where no name has a line end inside, the bytes of a library tell the signatures. -/
theorem signatures_eq_of_fingerprintBytes_eq {r r' : Registry}
    (hr : ∀ s ∈ r.signatures, '\n' ∉ s.1.toList) (hr' : ∀ s ∈ r'.signatures, '\n' ∉ s.1.toList)
    (h : r.fingerprintBytes = r'.fingerprintBytes) : r.signatures = r'.signatures := by
  rw [fingerprintBytes_eq, fingerprintBytes_eq] at h
  have hlines (r : Registry) (hr : ∀ s ∈ r.signatures, '\n' ∉ s.1.toList) :
      ∀ line ∈ r.signatures.map signatureBytes, lineEndByte ∉ line := by
    intro line hline
    obtain ⟨s, hs, rfl⟩ := List.mem_map.mp hline
    exact lineEndByte_notMem_signatureBytes (hr s hs)
  exact List.map_injective_iff.mpr (fun _ _ => signatureBytes_injective)
    (flatMap_ended_inj (hlines r hr) (hlines r' hr') h)

theorem fingerprintBytes_eq_of_perm {r r' : Registry} {blocks blocks' : List Block}
    (hr : r.Holds blocks) (hr' : r'.Holds blocks')
    (h : (blocks.map Block.signature).Perm (blocks'.map Block.signature)) :
    r.fingerprintBytes = r'.fingerprintBytes := by
  have hperm := hr.perm_signatures.trans (h.trans hr'.perm_signatures.symm)
  rw [fingerprintBytes_eq, fingerprintBytes_eq, signatures_eq_of_perm hperm]

/-- The names in a library that was built are among those that were offered. -/
theorem notMem_of_mem_signatures {calls : List Registration} {c : Char}
    (h : ∀ b ∈ offered calls, c ∉ b.kind.toList) :
    ∀ s ∈ (built calls).signatures, c ∉ s.1.toList := by
  intro s hs
  obtain ⟨b, hb, rfl⟩ := List.mem_map.mp ((holds_built calls).perm_signatures.mem_iff.mp hs)
  exact h b (added_subset_offered calls hb)

/-- The bytes of a fingerprint determine the kinds. If two libraries are built by any calls, with
names without line ends, and have the same bytes, then they have the same kinds, and these tell
about the same things. The order of the calls does not matter for the bytes: they are the same
wherever kinds with the same signatures were added, and so for kinds with names of their own in any
order and in any batches. -/
theorem kinds_told_by_fingerprintBytes (calls calls' : List Registration)
    (hplain : ∀ b ∈ offered calls, '\n' ∉ b.kind.toList)
    (hplain' : ∀ b ∈ offered calls', '\n' ∉ b.kind.toList) :
    let r := built calls
    let r' := built calls'
    (r.fingerprintBytes = r'.fingerprintBytes →
      r.kinds = r'.kinds ∧
        ∀ kind, (r.get? kind).map Block.hooks = (r'.get? kind).map Block.hooks) ∧
      (((added calls).map Block.signature).Perm ((added calls').map Block.signature) →
        r.fingerprintBytes = r'.fingerprintBytes) ∧
      (((offered calls).map (·.kind)).Nodup → (offered calls).Perm (offered calls') →
        r.fingerprintBytes = r'.fingerprintBytes) := by
  intro r r'
  have hadded (h : ((added calls).map Block.signature).Perm ((added calls').map Block.signature)) :
      r.fingerprintBytes = r'.fingerprintBytes :=
    fingerprintBytes_eq_of_perm (holds_built calls) (holds_built calls') h
  refine ⟨fun hbytes => ?_, hadded, fun hnodup hperm => hadded ?_⟩
  · have hsignatures := signatures_eq_of_fingerprintBytes_eq (notMem_of_mem_signatures hplain)
      (notMem_of_mem_signatures hplain') hbytes
    refine ⟨?_, fun kind => ?_⟩
    · rw [← map_fst_signatures, ← map_fst_signatures, hsignatures]
    · rw [map_hooks_get?, map_hooks_get?, hsignatures]
  · have hnodup' : ((offered calls').map (·.kind)).Nodup := (hperm.map _).nodup_iff.mp hnodup
    rw [added_eq_offered hnodup, added_eq_offered hnodup']
    exact hperm.map _

theorem built_standard : built (standardBlocks.map .one) = standard := by
  rw [built, List.foldl_map]
  rfl

/-- The standard library has the same bytes if its kinds are added in one batch from the last to the
first. -/
theorem standard_fingerprintBytes_reversed :
    (∀ b ∈ standardBlocks, '\n' ∉ b.kind.toList) ∧
      let r := built [.batch standardBlocks.reverse]
      standard.fingerprintBytes = r.fingerprintBytes ∧ standard.kinds = r.kinds ∧
        ∀ kind, (standard.get? kind).map Block.hooks = (r.get? kind).map Block.hooks := by
  have hall : (standardBlocks.all fun b => !b.kind.toList.contains '\n') = true := by
    decide +kernel
  have hplain (b : Block) (hb : b ∈ standardBlocks) : '\n' ∉ b.kind.toList := by
    simpa using List.all_eq_true.mp hall b hb
  have hnodup : (standardBlocks.map (·.kind)).Nodup := by decide +kernel
  have hone : offered (standardBlocks.map .one) = standardBlocks := by
    rw [offered, List.flatMap_map]
    exact List.flatMap_singleton' _
  have hbatch : offered [.batch standardBlocks.reverse] = standardBlocks.reverse :=
    List.append_nil _
  have htold := kinds_told_by_fingerprintBytes (standardBlocks.map .one)
    [.batch standardBlocks.reverse] (by rwa [hone])
    (by rw [hbatch]; exact fun b hb => hplain b (List.mem_reverse.mp hb))
  rw [built_standard, hone, hbatch] at htold
  have hbytes := htold.2.2 hnodup (List.reverse_perm _).symm
  exact ⟨hplain, hbytes, htold.1 hbytes⟩

end Registry

end BlockSketch
