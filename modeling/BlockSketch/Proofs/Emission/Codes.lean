import BlockSketch.Proofs.Emission.Told
import BlockSketch.Proofs.Emission.Visits

/-!
No node has two codes. A journaled run that ends well has written down a code for each visit of
emission, and emission of a forest visits no node twice. So a journal has at most one code for a
node, and tells at most one text for a chain.
-/

namespace BlockSketch

def Entry.coded? : Entry → Option NodeId
  | edited .. => none
  | coded n _ => some n.id

def codedIds (entries : List Entry) : List NodeId := entries.filterMap Entry.coded?

theorem codedIds_append (entries entries' : List Entry) :
    codedIds (entries ++ entries') = codedIds entries ++ codedIds entries' :=
  List.filterMap_append

/-- A journaled step does what an observed step does. If it ends well, it has written down codes for
exactly the nodes that were visited. -/
def Journaled.Follows {α : Type} (x : Journaled α) (y : Observed α) : Prop :=
  ∀ j, ∃ new, (x.run.run j).2.entries = j.entries ++ new ∧
    (y j.draft).1 = ((x.run.run j).1, (x.run.run j).2.draft) ∧
    ∀ a, (x.run.run j).1 = .ok a → (codedIds new).Perm (visited (y j.draft).2)

namespace Journaled.Follows

variable {α β : Type}

theorem lift (x : Emit α) : Follows (lift x) (.lift x) :=
  fun _ => ⟨[], (List.append_nil _).symm, rfl, fun _ _ => .nil⟩

theorem pure (a : α) : Follows (pure a) (Pure.pure a) := lift (Pure.pure a)

theorem throw (e : EmitError) : Follows (throw e : Journaled α) (.lift (MonadExcept.throw e)) :=
  lift (MonadExcept.throw e)

theorem edit (e : Edit) :
    Follows (Journaled.edit e) (.lift (modifyGet fun d => d.apply e)) :=
  fun j => ⟨[.edited e (j.draft.apply e).1], rfl, rfl, fun _ _ => .nil⟩

theorem bind {x : Journaled α} {y : Observed α} {f : α → Journaled β} {g : α → Observed β}
    (hx : Follows x y) (hf : ∀ a, Follows (f a) (g a)) : Follows (x >>= f) (y >>= g) := by
  intro j
  obtain ⟨new, hentries, hrun, hperm⟩ := hx j
  have hbind : (y >>= g) j.draft = Observed.bind y g j.draft := rfl
  rw [hbind, Observed.bind, run_bind]
  rcases hx' : x.run.run j with ⟨result', j'⟩
  rcases hy' : y j.draft with ⟨⟨result, d'⟩, events⟩
  rw [hx', hy'] at hrun
  obtain ⟨rfl, rfl⟩ : result = result' ∧ d' = j'.draft := Prod.mk.inj hrun
  rw [hx'] at hentries
  rw [hx', hy'] at hperm
  cases result with
  | error e => exact ⟨new, hentries, rfl, fun a ha => by cases ha⟩
  | ok a =>
      obtain ⟨more, hentries', hrun', hperm'⟩ := hf a j'
      refine ⟨new ++ more, ?_, hrun', fun b hb => ?_⟩
      · rw [← List.append_assoc, ← hentries]
        exact hentries'
      · have hvisited : visited (events ++ (g a j'.draft).2) =
            visited events ++ visited (g a j'.draft).2 := List.filterMap_append
        rw [codedIds_append, hvisited]
        exact (hperm a rfl).append (hperm' b hb)

end Journaled.Follows

section Following

open Journaled

variable {w : Workspace} {emit : Node → Journaled Code} {emit' : Node → Observed Code}

theorem Workspace.follows_journalValue (hemit : ∀ n, Follows (emit n) (emit' n))
    (child : Option NodeId) (required : Precedence) (fallback : String) :
    Follows (w.journalValue emit child required fallback)
      (w.observeValue emit' child required fallback) := by
  cases child with
  | none => exact .pure _
  | some id =>
      refine .bind (.lift _) fun n => .bind (hemit n) fun code => ?_
      cases code with
      | value e => exact .pure _
      | statement text => exact .throw _

theorem Workspace.follows_journalChain (hemit : ∀ n, Follows (emit n) (emit' n)) (count : Nat)
    (head : Option NodeId) :
    Follows (w.journalChain emit count head) (w.observeChain emit' count head) := by
  induction count generalizing head with
  | zero =>
      cases head with
      | none => exact .pure _
      | some id => exact fun j => ⟨[], (List.append_nil _).symm, rfl, fun _ _ => .nil⟩
  | succ count ih =>
      cases head with
      | none => exact .pure _
      | some id =>
          exact .bind (.lift _) fun n => .bind (hemit n) fun code => .bind (.lift _) fun text =>
            .bind (ih n.next) fun rest => .pure _

theorem Recipe.follows_journal {α : Type} (hemit : ∀ n, Follows (emit n) (emit' n))
    (r : Recipe α) : Follows (r.journal w emit) (r.observe w emit') := by
  induction r with
  | done a => exact .pure a
  | value child required fallback next ih =>
      exact .bind (Workspace.follows_journalValue hemit child required fallback) ih
  | chain head next ih => exact .bind (Workspace.follows_journalChain hemit _ head) ih
  | edit e next ih => exact .bind (.edit e) ih

theorem Form.follows_journal (hemit : ∀ n, Follows (emit n) (emit' n)) (f : Form) (n : Node) :
    Follows (f.journal w emit n) (f.observe w emit' n) := by
  cases f with
  | value recipe => exact .bind (Recipe.follows_journal hemit _) fun _ => .pure _
  | statement recipe => exact .bind (Recipe.follows_journal hemit _) fun _ => .pure _

/-- The visit of a node comes before what is below it and its code behind, which is the same up to
the order. -/
theorem Registry.follows_journalNode (r : Registry) (w : Workspace) (depth above : Nat) (n : Node) :
    Follows (journalNode r.get? w depth n) (r.observeNode w depth above n) := by
  induction depth generalizing above n with
  | zero => exact .throw _
  | succ depth ih =>
      rw [journalNode, observeNode]
      cases r.get? n.kind with
      | none => exact fun j => ⟨[], (List.append_nil _).symm, rfl, fun a ha => by cases ha⟩
      | some b =>
          intro j
          obtain ⟨new, hentries, hrun, hperm⟩ :=
            Form.follows_journal (w := w) (fun n => ih (above + 1) n) b.form n j
          dsimp only
          rw [run_bind]
          rcases hform : (b.form.journal w (journalNode r.get? w depth) n).run.run j with
            ⟨result, j'⟩
          rw [hform] at hentries hrun hperm
          cases result with
          | error e => exact ⟨new, hentries, hrun, fun a ha => by cases ha⟩
          | ok code =>
              refine ⟨new ++ [.coded n code], ?_, hrun, fun a _ => ?_⟩
              · rw [← List.append_assoc, ← hentries]
                rfl
              · rw [codedIds_append]
                exact (List.perm_append_singleton n.id _).trans ((hperm code rfl).cons n.id)

theorem Registry.follows_journalProgram (r : Registry) (w : Workspace) :
    Follows (journalProgram r.get? w) (r.observeProgram w) :=
  Recipe.follows_journal (fun n => r.follows_journalNode w _ 0 n) _

end Following

/-! ### One code for each node -/

/-- In a forest, a journaled run that ends well writes down no node twice. -/
theorem Registry.nodup_codedIds {r : Registry} {w : Workspace}
    (hr : ∀ kind b, r.get? kind = some b → b.form.ReadsOnce) (hp : w.program.IsForest)
    (hplaces : ∀ id ∈ w.program.topLevel, w.places.place? id = none) {d : Draft} {body : String}
    {j : Journal} (hrun : (journalProgram r.get? w).run.run { draft := d } = (.ok body, j)) :
    (codedIds j.entries).Nodup := by
  obtain ⟨new, hentries, -, hperm⟩ := r.follows_journalProgram w { draft := d }
  rw [hrun] at hentries hperm
  obtain rfl : j.entries = new := hentries
  exact (hperm body rfl).nodup_iff.mpr ((meets_observeProgram hr hp hplaces).tidy d).once

/-- Where no image comes twice, different members have different images. -/
theorem eq_of_nodup_filterMap {α β : Type} {f : α → Option β} {l : List α}
    (h : (l.filterMap f).Nodup) {a a' : α} (ha : a ∈ l) (ha' : a' ∈ l) {b : β}
    (hb : f a = some b) (hb' : f a' = some b) : a = a' := by
  rw [List.Nodup, List.pairwise_filterMap] at h
  have hsymm : Std.Symm fun a a' : α => ∀ b, f a = some b → ∀ b', f a' = some b' → b ≠ b' :=
    ⟨fun _ _ h _ hb _ hb' => (h _ hb' _ hb).symm⟩
  by_contra hne
  exact h.forall ha ha' hne b hb b hb' rfl

theorem code_unique {entries : List Entry} (h : (codedIds entries).Nodup) {n : Node}
    {code code' : Code} (hcode : .coded n code ∈ entries) (hcode' : .coded n code' ∈ entries) :
    code = code' :=
  (Entry.coded.inj (eq_of_nodup_filterMap h hcode hcode' rfl rfl)).2

namespace Workspace

variable {w : Workspace} {told : List Entry}

/-- A journal without repeated codes tells one text for a chain. -/
theorem ChainTold.unique (h : (codedIds told).Nodup) {head : Option NodeId} {text text' : String}
    (htext : w.ChainTold told head text) (htext' : w.ChainTold told head text') : text = text' := by
  obtain ⟨pieces, hpieces, rfl⟩ := htext
  obtain ⟨pieces', hpieces', rfl⟩ := htext'
  have hunique : Relator.RightUnique (w.PieceTold told) := by
    rintro n _ _ ⟨code, hcode, rfl⟩ ⟨code', hcode', rfl⟩
    rw [code_unique h hcode hcode']
  rw [List.right_unique_forall₂' hunique hpieces hpieces']

end Workspace

end BlockSketch
