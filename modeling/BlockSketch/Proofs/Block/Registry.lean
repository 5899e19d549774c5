import BlockSketch.Block.Standard

/-!
Look-ups in a block library. A library that is made of a list of kinds finds the first kind with a
name.
-/

namespace BlockSketch.Registry

/-- A kind that is added is found under its name, unless the name was in use. -/
theorem get?_register_getD (r : Registry) (b : Block) (kind : String) :
    ((r.register b).toOption.getD r).get? kind =
      (r.get? kind).or (if b.kind = kind then some b else none) := by
  unfold register
  cases h : r.get? b.kind with
  | some other =>
      simp only [contains, h, Option.isSome_some, if_true, Except.toOption, Option.getD_none]
      split
      next heq => rw [← heq, h, Option.some_or]
      next => rw [Option.or_none]
  | none =>
      simp only [contains, h, Option.isSome_none, Bool.false_eq_true, if_false, Except.toOption,
        Option.getD_some]
      change (r.blocks.insert b.kind b).find? kind = _
      rw [SortedMap.find?_insert]
      by_cases heq : b.kind = kind
      · subst heq
        rw [h, Option.none_or, if_pos rfl, if_pos rfl]
      · rw [if_neg heq, if_neg (Ne.symm heq), Option.or_none]
        rfl

/-- A library finds the first of its kinds with a name. -/
theorem get?_ofList (blocks : List Block) (kind : String) :
    (ofList blocks).get? kind = blocks.find? (fun b => b.kind = kind) := by
  have hfold (r : Registry) :
      (blocks.foldl (fun r b => (r.register b).toOption.getD r) r).get? kind =
        (r.get? kind).or (blocks.find? (fun b => b.kind = kind)) := by
    induction blocks generalizing r with
    | nil => simp
    | cons b rest ih =>
        rw [List.foldl_cons, ih, get?_register_getD, Option.or_assoc, List.find?_cons]
        by_cases h : b.kind = kind <;> simp [h]
  exact (hfold empty).trans (Option.none_or)

theorem get?_standard :
    standard.get? = fun kind => standardBlocks.find? (fun b => b.kind = kind) := by
  funext kind
  rw [standard, get?_ofList]

theorem standard_get? {kind found : String} {b : Block} (hkind : kind = found)
    (h : standardBlocks.find? (fun b => b.kind = found) = some b) :
    standard.get? kind = some b := by
  rw [hkind, ← h]
  exact get?_ofList _ found

theorem typing?_standard : standard.typing? =
    fun kind => (standardBlocks.find? (fun b => b.kind = kind)).bind (·.typing?) := by
  funext kind
  rw [typing?, standard, get?_ofList]

theorem mentions?_standard : standard.mentions? =
    fun kind => (standardBlocks.find? (fun b => b.kind = kind)).bind (·.mentions?) := by
  funext kind
  rw [mentions?, standard, get?_ofList]

end BlockSketch.Registry
