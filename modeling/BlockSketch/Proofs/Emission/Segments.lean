import BlockSketch.Proofs.Emission.Told

/-!
Properties that hold between nodes. A recipe may break a property of journals with one edit and mend
it with the next one, as long as the property holds wherever other nodes are emitted. `Keeps` judges
a recipe at the very journal that it has come to: at each hand-over to other nodes the property
holds, and the result suits the journal at the end. A library all of whose recipes are judged so
keeps the property over whole runs.
-/

namespace BlockSketch

/-! ### Recipes at a journal -/

namespace Recipe

variable {α β : Type} {w : Workspace} {I : Journal → Prop} {post : Journal → α → Prop}

/-- From a journal on, the property holds wherever a recipe hands over to other nodes, and its
result suits the journal at its end, provided that the other nodes keep the property. -/
def Keeps (w : Workspace) (I : Journal → Prop) (post : Journal → α → Prop) :
    Journal → Recipe α → Prop
  | j, done a => post j a
  | j, value child required fallback next => I j ∧ ∀ j' e, I j' → j.entries ⊆ j'.entries →
      w.ValueTold j'.entries child required fallback e → (next e).Keeps w I post j'
  | j, chain head next => I j ∧ ∀ j' text, I j' → j.entries ⊆ j'.entries →
      w.ChainTold j'.entries head text → (next text).Keeps w I post j'
  | j, edit e next => (next (j.draft.apply e).1).Keeps w I post (j.edit e)

theorem keeps_bind {r : Recipe α} {f : α → Recipe β} {post : Journal → β → Prop} {j : Journal} :
    (r.bind f).Keeps w I post j ↔ r.Keeps w I (fun j a => (f a).Keeps w I post j) j := by
  induction r generalizing j with
  | done a => rfl
  | value child required fallback next ih =>
      exact and_congr_right fun _ => forall₂_congr fun j' e => imp_congr_right fun _ =>
        imp_congr_right fun _ => imp_congr_right fun _ => ih e
  | chain head next ih =>
      exact and_congr_right fun _ => forall₂_congr fun j' text => imp_congr_right fun _ =>
        imp_congr_right fun _ => imp_congr_right fun _ => ih text
  | edit e next ih => exact ih _

theorem keeps_put {sec : Section} {key text : String} {post : Journal → Unit → Prop}
    {j : Journal} : (put sec key text).Keeps w I post j ↔
      post (j.edit (.place sec key text true)) () := Iff.rfl

theorem Keeps.mono {post' : Journal → α → Prop} {r : Recipe α} {j : Journal}
    (h : r.Keeps w I post j) (hpost : ∀ j' a, post j' a → post' j' a) :
    r.Keeps w I post' j := by
  induction r generalizing j with
  | done a => exact hpost j a h
  | value child required fallback next ih =>
      exact ⟨h.1, fun j' e hj' hsub he => ih e (h.2 j' e hj' hsub he)⟩
  | chain head next ih =>
      exact ⟨h.1, fun j' text hj' hsub htext => ih text (h.2 j' text hj' hsub htext)⟩
  | edit e next ih => exact ih _ h

theorem keeps_forM {J : Journal → Prop} {l : List β} {f : β → Recipe Unit}
    (hf : ∀ b ∈ l, ∀ j, J j → (f b).Keeps w I (fun j _ => J j) j) {j : Journal} (hj : J j) :
    (l.forM f).Keeps w I (fun j _ => J j) j := by
  induction l generalizing j with
  | nil => exact hj
  | cons b rest ih =>
      obtain ⟨hhead, htail⟩ := List.forall_mem_cons.mp hf
      exact keeps_bind.mpr ((hhead j hj).mono fun j' _ hj' => ih htail hj')

/-- A recipe that asks for proper edits only keeps a property that such edits keep. -/
theorem Tells.keeps {P : List Entry → Edit → Prop} {told : List Entry → α → Prop}
    (hI : ∀ j e, I j → P j.entries e → I (j.edit e)) {r : Recipe α} {j : Journal}
    (h : r.Tells w P told j.entries) (hj : I j) :
    r.Keeps w I (fun j a => I j ∧ told j.entries a) j := by
  induction r generalizing j with
  | done a => exact ⟨hj, h⟩
  | value child required fallback next ih =>
      exact ⟨hj, fun j' e hj' hsub he => ih e (h j'.entries e hsub he) hj'⟩
  | chain head next ih =>
      exact ⟨hj, fun j' text hj' hsub htext => ih text (h j'.entries text hsub htext) hj'⟩
  | edit e next ih => exact ih _ (h.2 _) (hI j e hj h.1)

end Recipe

/-- At every journal with the property, the recipe of a node keeps it, and it holds again once the
code of the node is written down. -/
def Form.Keeps (f : Form) (w : Workspace) (I : Journal → Prop) (n : Node) : Prop :=
  match f with
  | .value recipe => ∀ j, I j →
      (recipe w n).Keeps w I (fun j e => I (j.note (.coded n (.value e)))) j
  | .statement recipe => ∀ j, I j →
      (recipe w n).Keeps w I (fun j text => I (j.note (.coded n (.statement text)))) j

theorem Form.Tells.keeps {f : Form} {w : Workspace} {P : List Entry → Edit → Prop}
    {Q : List Entry → Code → Prop} {I : Journal → Prop} {n : Node}
    (hedit : ∀ j e, I j → P j.entries e → I (j.edit e))
    (hcoded : ∀ j code, I j → Q j.entries code → I (j.note (.coded n code)))
    (h : f.Tells w P Q n) : f.Keeps w I n := by
  cases f with
  | value recipe =>
      exact fun j hj => (Recipe.Tells.keeps hedit (h j.entries) hj).mono fun j' e h' =>
        hcoded j' _ h'.1 h'.2
  | statement recipe =>
      exact fun j hj => (Recipe.Tells.keeps hedit (h j.entries) hj).mono fun j' text h' =>
        hcoded j' _ h'.1 h'.2

/-! ### Runs -/

section Run

open Journaled

variable {I : Journal → Prop} {w : Workspace} {emit : Node → Journaled Code} {j : Journal}

/-- Following a recipe leads to a journal that suits its result. Other nodes are emitted only where
the property holds, and they keep it. -/
theorem Recipe.Keeps.journal {α : Type} (hemit : Writes w I emit) {post : Journal → α → Prop}
    {r : Recipe α} (hr : r.Keeps w I post j) {a : α} {j' : Journal}
    (hrun : (r.journal w emit).run.run j = (.ok a, j')) :
    post j' a ∧ j.entries ⊆ j'.entries := by
  induction r generalizing j with
  | done b =>
      cases hrun
      exact ⟨hr, List.Subset.refl _⟩
  | value child required fallback next ih =>
      rw [Recipe.journal, run_bind] at hrun
      split at hrun
      next e mid hmid =>
          obtain ⟨hI, hsub, he⟩ :=
            Workspace.leads_journalValue hemit hr.1 child required fallback e mid hmid
          obtain ⟨hpost, hsub'⟩ := ih e (hr.2 mid e hI hsub he) hrun
          exact ⟨hpost, List.Subset.trans hsub hsub'⟩
      next => cases hrun
  | chain head next ih =>
      rw [Recipe.journal, run_bind] at hrun
      split at hrun
      next text mid hmid =>
          obtain ⟨hI, hsub, htext⟩ :=
            Workspace.leads_journalChain hemit hr.1 w.program.size head text mid hmid
          obtain ⟨hpost, hsub'⟩ := ih text (hr.2 mid text hI hsub htext) hrun
          exact ⟨hpost, List.Subset.trans hsub hsub'⟩
      next => cases hrun
  | edit e next ih =>
      obtain ⟨hpost, hsub⟩ := ih _ hr hrun
      exact ⟨hpost, List.Subset.trans (List.subset_append_left _ _) hsub⟩

/-- A step whose result is made into something else. -/
theorem Journaled.exists_of_run_map {α β : Type} {x : Journaled α} {f : α → β} {b : β}
    {j' : Journal} (h : (do return f (← x) : Journaled β).run.run j = (.ok b, j')) :
    ∃ a, x.run.run j = (.ok a, j') ∧ b = f a := by
  rw [run_bind] at h
  split at h
  next a mid hmid =>
      cases h
      exact ⟨a, hmid, rfl⟩
  next => cases h

theorem Form.Keeps.journal (hemit : Writes w I emit) {f : Form} {n : Node} (hf : f.Keeps w I n)
    (hj : I j) {code : Code} {j' : Journal}
    (hrun : (f.journal w emit n).run.run j = (.ok code, j')) :
    I (j'.note (.coded n code)) ∧ j.entries ⊆ j'.entries := by
  cases f with
  | value recipe =>
      obtain ⟨e, hrecipe, rfl⟩ := Journaled.exists_of_run_map hrun
      exact (hf j hj).journal hemit hrecipe
  | statement recipe =>
      obtain ⟨text, hrecipe, rfl⟩ := Journaled.exists_of_run_map hrun
      exact (hf j hj).journal hemit hrecipe

variable {block? : String → Option Block}

theorem writes_journalNode_of_keeps
    (hblock : ∀ n ∈ w.program.nodes, ∀ b, block? n.kind = some b → b.form.Keeps w I n)
    (depth : Nat) : Writes w I (journalNode block? w depth) := by
  induction depth with
  | zero => exact fun n _ j _ => .throw
  | succ depth ih =>
      intro n hn j hj
      rw [journalNode]
      cases hkind : block? n.kind with
      | none => exact .throw
      | some b =>
          intro code j' hrun
          rw [run_bind] at hrun
          split at hrun
          next code' mid hmid =>
              obtain ⟨hI, hsub⟩ := (hblock n hn b hkind).journal ih hj hmid
              cases hrun
              exact ⟨hI, List.Subset.trans hsub (List.subset_append_left _ _),
                List.mem_append_right _ List.mem_cons_self⟩
          next => cases hrun

/-- A whole run keeps a property that all recipes of the library and the declarations of variables
keep. -/
theorem keeps_journalProgram
    (hblock : ∀ n ∈ w.program.nodes, ∀ b, block? n.kind = some b → b.form.Keeps w I n)
    (hvariables : ∀ j, I j → (Recipe.declareVariables w).Keeps w I (fun j _ => I j) j)
    (hj : I j) {body : String} {j' : Journal}
    (hrun : (journalProgram block? w).run.run j = (.ok body, j')) : I j' := by
  have hbody (j : Journal) (hj : I j) : (Recipe.programBody w).Keeps w I (fun j _ => I j) j :=
    (Recipe.Tells.keeps (P := fun _ _ => False) (fun _ _ _ h => h.elim)
      (Recipe.tells_programBody w j.entries) hj).mono fun _ _ h => h.1
  have hprogram : (do
      Recipe.declareVariables w
      Recipe.programBody w : Recipe String).Keeps w I (fun j _ => I j) j :=
    Recipe.keeps_bind.mpr ((hvariables j hj).mono fun j' _ hj' => hbody j' hj')
  exact (hprogram.journal (writes_journalNode_of_keeps hblock _) hrun).1

end Run

end BlockSketch
