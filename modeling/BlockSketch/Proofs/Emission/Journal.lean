import BlockSketch.Proofs.Emission.Observed
import BlockSketch.Proofs.Program.Forest

/-!
Emission with a journal. A journaled step does what a step of emission does and writes down each
edit of the draft with its answer, and each node with the code that was made of it.

What a whole run keeps is proved recipe by recipe. A recipe is judged against what it has written
down itself, whatever the answers are: `Gives` asks that each of its edits is proper where it comes,
and that its result suits what has been written down. A library all of whose recipes are judged so
keeps every property of journals that proper edits and suitable codes keep.
-/

namespace BlockSketch

/-- The identifier that an edit has told. -/
def Edit.told? : (e : Edit) → e.Answer → Option String
  | .helper _ _, x => some x
  | .identifier _ _, x => some x
  | .freshVariable _, x => some x
  | .place .., _ => none
  | .claim .., _ => none
  | .report .., _ => none

inductive Entry where
  | edited (e : Edit) (answer : e.Answer)
  | coded (n : Node) (code : Code)

structure Journal where
  draft : Draft
  entries : List Entry := []

abbrev Journaled := ExceptT EmitError (StateM Journal)

namespace Journal

def note (j : Journal) (entry : Entry) : Journal := { j with entries := j.entries ++ [entry] }

def edit (j : Journal) (e : Edit) : Journal :=
  ⟨(j.draft.apply e).2, j.entries ++ [.edited e (j.draft.apply e).1]⟩

end Journal

namespace Journaled

variable {α β : Type}

def lift (x : Emit α) : Journaled α :=
  ExceptT.mk fun j => ((x.run.run j.draft).1, { j with draft := (x.run.run j.draft).2 })

def note (entry : Entry) : Journaled Unit := ExceptT.mk fun j => (.ok (), j.note entry)

def edit (e : Edit) : Journaled e.Answer :=
  ExceptT.mk fun j => (.ok (j.draft.apply e).1, j.edit e)

theorem run_bind (x : Journaled α) (f : α → Journaled β) (j : Journal) :
    (x >>= f).run.run j =
      match x.run.run j with
      | (.ok a, j') => (f a).run.run j'
      | (.error e, j') => (.error e, j') := by
  rw [ExceptT.run_bind, StateT.run_bind]
  change (match x.run.run j with | (result, j') => _) = _
  rcases x.run.run j with ⟨result, j'⟩
  cases result with
  | ok a => rfl
  | error e => rfl

end Journaled

/-! ### The parts of emission -/

namespace Workspace

def journalValue (w : Workspace) (emit : Node → Journaled Code) (child : Option NodeId)
    (required : Precedence) (fallback : String) : Journaled Expression :=
  match child with
  | none => pure (.atomic fallback)
  | some id => do
      let n ← .lift (w.node id)
      match ← emit n with
      | .value e => return if e.text.isEmpty then .atomic fallback else e.wrapped required
      | .statement _ => throw (.notAValue id n.kind)

def journalChain (w : Workspace) (emit : Node → Journaled Code) :
    Nat → Option NodeId → Journaled String
  | 0, _ => pure ""
  | _ + 1, none => pure ""
  | count + 1, some id => do
      let n ← .lift (w.node id)
      let code ← emit n
      let text ← .lift (w.statementText n code)
      let rest ← w.journalChain emit count n.next
      return w.commented n text ++ rest

end Workspace

def Recipe.journal {α : Type} (w : Workspace) (emit : Node → Journaled Code) :
    Recipe α → Journaled α
  | .done a => pure a
  | .value child required fallback next => do
      let e ← w.journalValue emit child required fallback
      (next e).journal w emit
  | .chain head next => do
      let text ← w.journalChain emit w.program.size head
      (next text).journal w emit
  | .edit e next => do
      let answer ← .edit e
      (next answer).journal w emit

def Form.journal (f : Form) (w : Workspace) (emit : Node → Journaled Code) (n : Node) :
    Journaled Code :=
  match f with
  | .value recipe => return .value (← (recipe w n).journal w emit)
  | .statement recipe => return .statement (← (recipe w n).journal w emit)

/-- The code of a node, with at most `depth` nodes from there down, given how kinds are found. It is
written down when it is made. -/
def journalNode (block? : String → Option Block) (w : Workspace) : Nat → Node → Journaled Code
  | 0, n => throw (.endless n.id)
  | depth + 1, n =>
      match block? n.kind with
      | none => throw (.unknownKind n.kind n.id)
      | some b => do
          let code ← b.form.journal w (journalNode block? w depth) n
          .note (.coded n code)
          return code

def journalProgram (block? : String → Option Block) (w : Workspace) : Journaled String :=
  Recipe.journal w (journalNode block? w (w.program.size + 1)) do
    Recipe.declareVariables w
    Recipe.programBody w

/-! ### Writing down changes nothing -/

def Journaled.Erases {α : Type} (x : Journaled α) (y : Emit α) : Prop :=
  ∀ j, ((x.run.run j).1, (x.run.run j).2.draft) = y.run.run j.draft

namespace Journaled.Erases

variable {α β : Type}

theorem pure (a : α) : Erases (pure a) (pure a) := fun _ => rfl

theorem throw (e : EmitError) : Erases (throw e : Journaled α) (throw e) := fun _ => rfl

theorem lift (x : Emit α) : Erases (lift x) x := fun _ => rfl

theorem edit (e : Edit) : Erases (Journaled.edit e) (modifyGet fun d => d.apply e) := fun _ => rfl

theorem bind {x : Journaled α} {y : Emit α} {f : α → Journaled β} {g : α → Emit β}
    (hx : Erases x y) (hf : ∀ a, Erases (f a) (g a)) : Erases (x >>= f) (y >>= g) := by
  intro j
  rw [run_bind, Emit.run_bind, ← hx j]
  rcases x.run.run j with ⟨result, j'⟩
  cases result with
  | ok a => exact hf a j'
  | error e => rfl

end Journaled.Erases

section Erasure

open Journaled

variable {w : Workspace} {emit : Node → Journaled Code} {emit' : Node → Emit Code}

theorem Workspace.erases_journalValue (hemit : ∀ n, Erases (emit n) (emit' n))
    (child : Option NodeId) (required : Precedence) (fallback : String) :
    Erases (w.journalValue emit child required fallback)
      (w.childValue emit' child required fallback) := by
  cases child with
  | none => exact .pure _
  | some id =>
      refine .bind (.lift _) fun n => .bind (hemit n) fun code => ?_
      cases code with
      | value e => exact .pure _
      | statement text => exact .throw _

theorem Workspace.erases_journalChain (hemit : ∀ n, Erases (emit n) (emit' n)) (count : Nat)
    (head : Option NodeId) :
    Erases (w.journalChain emit count head) (w.chainSteps emit' count head) := by
  induction count generalizing head with
  | zero => exact .pure _
  | succ count ih =>
      cases head with
      | none => exact .pure _
      | some id =>
          exact .bind (.lift _) fun n => .bind (hemit n) fun code => .bind (.lift _) fun text =>
            .bind (ih n.next) fun rest => .pure _

theorem Recipe.erases_journal {α : Type} (hemit : ∀ n, Erases (emit n) (emit' n))
    (r : Recipe α) : Erases (r.journal w emit) (r.perform w emit') := by
  induction r with
  | done a => exact .pure a
  | value child required fallback next ih =>
      exact .bind (Workspace.erases_journalValue hemit child required fallback) ih
  | chain head next ih => exact .bind (Workspace.erases_journalChain hemit _ head) ih
  | edit e next ih => exact .bind (.edit e) ih

theorem Form.erases_journal (hemit : ∀ n, Erases (emit n) (emit' n)) (f : Form) (n : Node) :
    Erases (f.journal w emit n) (f.perform w emit' n) := by
  cases f with
  | value recipe => exact .bind (Recipe.erases_journal hemit _) fun _ => .pure _
  | statement recipe => exact .bind (Recipe.erases_journal hemit _) fun _ => .pure _

theorem Registry.erases_journalNode (r : Registry) (w : Workspace) (depth : Nat) (n : Node) :
    Erases (journalNode r.get? w depth n) (r.emitNode w depth n) := by
  induction depth generalizing n with
  | zero => exact .throw _
  | succ depth ih =>
      rw [journalNode, emitNode]
      cases r.get? n.kind with
      | none => exact .throw _
      | some b =>
          have hnoted (code : Code) :
              Erases (do Journaled.note (.coded n code); Pure.pure code) (Pure.pure code) :=
            fun _ => rfl
          simpa only [bind_pure] using Erases.bind (Form.erases_journal ih b.form n) hnoted

/-- The draft of a journaled run is the draft that emission makes. -/
theorem Registry.erases_journalProgram (r : Registry) (w : Workspace) (ds : Diagnostics) :
    let run := (journalProgram r.get? w).run.run { draft := { diagnostics := ds } }
    (run.1, run.2.draft) = r.draftProgram w ds :=
  Recipe.erases_journal (fun n => r.erases_journalNode w _ n) _ _

end Erasure

/-! ### What a recipe gives -/

def Lasting {α : Type} (P : List Entry → α → Prop) : Prop :=
  ∀ ⦃past past' : List Entry⦄ ⦃a : α⦄, past ⊆ past' → P past a → P past' a

theorem append_entry_subset {past past' : List Entry} (h : past ⊆ past') (entry : Entry) :
    past ++ [entry] ⊆ past' ++ [entry] :=
  List.append_subset.mpr ⟨List.subset_append_of_subset_left _ h, List.subset_append_right _ _⟩

namespace Recipe

variable {α β : Type} {P : List Entry → Edit → Prop} {post : List Entry → α → Prop}

/-- Whatever answers it gets, every edit of a recipe is proper for what was written down before it,
and its result suits what was written down at its end. -/
def Gives (P : List Entry → Edit → Prop) (post : List Entry → α → Prop) :
    List Entry → Recipe α → Prop
  | past, done a => post past a
  | past, value _ _ _ next => ∀ e, (next e).Gives P post past
  | past, chain _ next => ∀ text, (next text).Gives P post past
  | past, edit e next =>
      P past e ∧ ∀ answer, (next answer).Gives P post (past ++ [.edited e answer])

@[simp] theorem gives_done {past : List Entry} {a : α} :
    (done a).Gives P post past ↔ post past a := Iff.rfl

@[simp] theorem gives_bind {r : Recipe α} {f : α → Recipe β} {post : List Entry → β → Prop}
    {past : List Entry} : (r.bind f).Gives P post past ↔
      r.Gives P (fun past a => (f a).Gives P post past) past := by
  induction r generalizing past with
  | done a => rfl
  | value child required fallback next ih => exact forall_congr' fun e => ih e
  | chain head next ih => exact forall_congr' fun text => ih text
  | edit e next ih => exact and_congr_right fun _ => forall_congr' fun answer => ih answer

@[simp] theorem gives_offer {sec : Section} {key text : String} {post : List Entry → Unit → Prop}
    {past : List Entry} : (offer sec key text).Gives P post past ↔
      P past (.place sec key text false) ∧
        ∀ answer, post (past ++ [.edited (.place sec key text false) answer]) () :=
  Iff.rfl

@[simp] theorem gives_put {sec : Section} {key text : String} {post : List Entry → Unit → Prop}
    {past : List Entry} : (put sec key text).Gives P post past ↔
      P past (.place sec key text true) ∧
        ∀ answer, post (past ++ [.edited (.place sec key text true) answer]) () :=
  Iff.rfl

@[simp] theorem gives_helper {name : String} {text : String → String}
    {post : List Entry → String → Prop} {past : List Entry} :
    (helper name text).Gives P post past ↔ P past (.helper name text) ∧
      ∀ answer : String, post (past ++ [.edited (.helper name text) answer]) answer :=
  Iff.rfl

@[simp] theorem gives_variableName {name : String} {post : List Entry → String → Prop}
    {past : List Entry} : (variableName name).Gives P post past ↔
      P past (.identifier name .variable) ∧
        ∀ answer : String, post (past ++ [.edited (.identifier name .variable) answer]) answer :=
  Iff.rfl

@[simp] theorem gives_procedureName {name : String} {post : List Entry → String → Prop}
    {past : List Entry} : (procedureName name).Gives P post past ↔
      P past (.identifier name .procedure) ∧
        ∀ answer : String, post (past ++ [.edited (.identifier name .procedure) answer]) answer :=
  Iff.rfl

@[simp] theorem gives_freshVariable {name : String} {post : List Entry → String → Prop}
    {past : List Entry} : (freshVariable name).Gives P post past ↔ P past (.freshVariable name) ∧
      ∀ answer : String, post (past ++ [.edited (.freshVariable name) answer]) answer :=
  Iff.rfl

@[simp] theorem gives_report {n : Node} {concern : Concern} {message : Option Diagnostic}
    {post : List Entry → Unit → Prop} {past : List Entry} :
    (report n concern message).Gives P post past ↔ P past (.report n.id concern message) ∧
      ∀ answer, post (past ++ [.edited (.report n.id concern message) answer]) () :=
  Iff.rfl

@[simp] theorem gives_claimPin {w : Workspace} {n : Node} {pin label : String} {usage : PinUsage}
    {post : List Entry → Bool → Prop} {past : List Entry} :
    (claimPin w n pin usage label).Gives P post past ↔
      (report n (.boardPin pin)
        (if w.profile.hasPin pin then none else some (missingPin w.profile pin))).Gives P
        (fun past _ => P past (.claim n.id pin usage label) ∧
          ∀ answer : Bool, post (past ++ [.edited (.claim n.id pin usage label) answer]) answer)
        past :=
  Iff.rfl

@[simp] theorem gives_ite {c : Prop} [Decidable c] {r r' : Recipe α} {past : List Entry} :
    (if c then r else r').Gives P post past ↔
      (c → r.Gives P post past) ∧ (¬c → r'.Gives P post past) := by
  by_cases h : c <;> simp [h]

@[simp] theorem gives_socket {n : Node} {name : String} {required : Precedence} {fallback : String}
    {post : List Entry → String → Prop} {past : List Entry} :
    (socket n name required fallback).Gives P post past ↔ ∀ e : Expression, post past e.text :=
  Iff.rfl

@[simp] theorem gives_statements {head : Option NodeId} {post : List Entry → String → Prop}
    {past : List Entry} : (statements head).Gives P post past ↔ ∀ text, post past text :=
  Iff.rfl

@[simp] theorem gives_body {n : Node} {name : String} {post : List Entry → String → Prop}
    {past : List Entry} :
    (body n name).Gives P post past ↔ ∀ text, post past (Text.leadLines "  " text) :=
  Iff.rfl

theorem Gives.mono {P' : List Entry → Edit → Prop} {post' : List Entry → α → Prop} {r : Recipe α}
    {past : List Entry} (h : r.Gives P post past) (hP : ∀ past e, P past e → P' past e)
    (hpost : ∀ past a, post past a → post' past a) : r.Gives P' post' past := by
  induction r generalizing past with
  | done a => exact hpost past a h
  | value child required fallback next ih => exact fun e => ih e (h e)
  | chain head next ih => exact fun text => ih text (h text)
  | edit e next ih => exact ⟨hP past e h.1, fun answer => ih answer (h.2 answer)⟩

theorem Gives.of_subset {r : Recipe α} {past past' : List Entry} (hP : Lasting P)
    (hpost : Lasting post) (h : r.Gives P post past) (hsub : past ⊆ past') :
    r.Gives P post past' := by
  induction r generalizing past past' with
  | done a => exact hpost hsub h
  | value child required fallback next ih => exact fun e => ih e (h e) hsub
  | chain head next ih => exact fun text => ih text (h text) hsub
  | edit e next ih =>
      exact ⟨hP hsub h.1, fun answer => ih answer (h.2 answer) (append_entry_subset hsub _)⟩

/-- What was written down before a recipe still is at its end. -/
theorem Gives.grows {r : Recipe α} {past : List Entry} (h : r.Gives P post past) :
    r.Gives P (fun past' a => past ⊆ past' ∧ post past' a) past := by
  induction r generalizing past with
  | done a => exact ⟨List.Subset.refl past, h⟩
  | value child required fallback next ih => exact fun e => ih e (h e)
  | chain head next ih => exact fun text => ih text (h text)
  | edit e next ih =>
      refine ⟨h.1, fun answer => (ih answer (h.2 answer)).mono (fun _ _ hP => hP) ?_⟩
      exact fun past' a h' => ⟨List.Subset.trans (List.subset_append_left past _) h'.1, h'.2⟩

/-- A recipe for each member of a list gives a result for each of them. -/
theorem gives_mapM {l : List β} {f : β → Recipe α} {R : List Entry → β → α → Prop}
    (hR : ∀ b, Lasting fun past a => R past b a)
    (hf : ∀ b ∈ l, ∀ past, (f b).Gives P (fun past' a => R past' b a) past) (past : List Entry) :
    (l.mapM f).Gives P (fun past' as => List.Forall₂ (R past') l as) past := by
  induction l generalizing past with
  | nil => exact .nil
  | cons b rest ih =>
      obtain ⟨hhead, htail⟩ := List.forall_mem_cons.mp hf
      rw [List.mapM_cons]
      simp only [bind_eq, gives_bind, pure_eq, gives_done]
      refine (hhead past).mono (fun _ _ hP => hP) fun past' a ha => ?_
      refine (ih htail past').grows.mono (fun _ _ hP => hP) fun past'' as has => ?_
      exact .cons (hR b has.1 ha) has.2

theorem gives_forM {l : List β} {f : β → Recipe Unit}
    (hf : ∀ b ∈ l, ∀ past, (f b).Gives P (fun _ _ => True) past) (past : List Entry) :
    (l.forM f).Gives P (fun _ _ => True) past := by
  induction l generalizing past with
  | nil => exact trivial
  | cons b rest ih =>
      obtain ⟨hhead, htail⟩ := List.forall_mem_cons.mp hf
      exact gives_bind.mpr ((hhead past).mono (fun _ _ hP => hP) fun past' _ _ => ih htail past')

end Recipe

/-- Whatever the node, its recipe gives code that suits what was written down. -/
def Form.Gives (f : Form) (P : List Entry → Edit → Prop) (post : List Entry → Code → Prop)
    (w : Workspace) (n : Node) : Prop :=
  match f with
  | .value recipe => (recipe w n).Gives P (fun past e => post past (.value e)) []
  | .statement recipe => (recipe w n).Gives P (fun past text => post past (.statement text)) []

theorem Form.Gives.mono {f : Form} {P P' : List Entry → Edit → Prop}
    {post post' : List Entry → Code → Prop} {w : Workspace} {n : Node} (h : f.Gives P post w n)
    (hP : ∀ past e, P past e → P' past e) (hpost : ∀ past code, post past code → post' past code) :
    f.Gives P' post' w n := by
  cases f with
  | value recipe => exact Recipe.Gives.mono h hP fun past e => hpost past (.value e)
  | statement recipe => exact Recipe.Gives.mono h hP fun past text => hpost past (.statement text)

theorem Recipe.gives_trivial {α : Type} (r : Recipe α) (past : List Entry) :
    r.Gives (fun _ _ => True) (fun _ _ => True) past := by
  induction r generalizing past with
  | done a => trivial
  | value child required fallback next ih => exact fun e => ih e past
  | chain head next ih => exact fun text => ih text past
  | edit e next ih => exact ⟨trivial, fun answer => ih answer _⟩

theorem Form.gives_trivial (f : Form) (w : Workspace) (n : Node) :
    f.Gives (fun _ _ => True) (fun _ _ => True) w n := by
  cases f with
  | value recipe => exact (recipe w n).gives_trivial []
  | statement recipe => exact (recipe w n).gives_trivial []

/-! ### What a run keeps -/

/-- A step that ends well leads from one property of the journal to another. -/
def Journaled.Triple {α : Type} (pre : Journal → Prop) (x : Journaled α)
    (post : α → Journal → Prop) : Prop :=
  ∀ j a j', pre j → x.run.run j = (.ok a, j') → post a j'

namespace Journaled.Triple

variable {α β : Type} {pre : Journal → Prop} {post : α → Journal → Prop}

theorem pure {a : α} (h : ∀ j, pre j → post a j) : Triple pre (pure a) post := by
  intro j b j' hj hrun
  cases hrun
  exact h j hj

theorem throw {e : EmitError} : Triple pre (throw e : Journaled α) post := by
  intro j a j' _ hrun
  cases hrun

theorem bind {x : Journaled α} {f : α → Journaled β} {post' : β → Journal → Prop}
    (hx : Triple pre x post) (hf : ∀ a, Triple (post a) (f a) post') :
    Triple pre (x >>= f) post' := by
  intro j b j' hj hrun
  rw [run_bind] at hrun
  split at hrun
  next a mid hmid => exact hf a mid b j' (hx j a mid hj hmid) hrun
  next => cases hrun

theorem node {w : Workspace} {id : NodeId} :
    Triple pre (.lift (w.node id)) (fun n j => pre j ∧ n ∈ w.program.nodes) := by
  intro j n j' hj hrun
  rw [Workspace.node] at hrun
  split at hrun
  next m hm =>
      cases hrun
      exact ⟨hj, Program.mem_of_find? hm⟩
  next => cases hrun

theorem statementText {w : Workspace} {n : Node} {code : Code} :
    Triple pre (.lift (w.statementText n code)) (fun _ j => pre j) := by
  intro j text j' hj hrun
  cases code with
  | statement text =>
      cases hrun
      exact hj
  | value e =>
      rw [Workspace.statementText] at hrun
      split at hrun
      · cases hrun
        exact hj
      · cases hrun

end Journaled.Triple

/-- A property of journals that every proper edit keeps, and every code that suits its node. -/
structure Upheld (P : List Entry → Edit → Prop) (Q : Node → List Entry → Code → Prop)
    (I : Journal → Prop) : Prop where
  edit : ∀ j e, I j → P j.entries e → I (j.edit e)
  coded : ∀ j n code, I j → Q n j.entries code → I (j.note (.coded n code))

section Run

open Journaled

variable {P : List Entry → Edit → Prop} {Q : Node → List Entry → Code → Prop} {I : Journal → Prop}
  {w : Workspace} {emit : Node → Journaled Code}

def Grown (I : Journal → Prop) (past : List Entry) (j : Journal) : Prop :=
  I j ∧ past ⊆ j.entries

/-- The node under an id is one of the program, so emission of it keeps what emission of nodes of
the program keeps. -/
theorem Workspace.triple_node_emit {past : List Entry}
    (hemit : ∀ n ∈ w.program.nodes, Triple (Grown I past) (emit n) (fun _ => Grown I past))
    (n : Node) : Triple (fun j => Grown I past j ∧ n ∈ w.program.nodes) (emit n)
      (fun _ => Grown I past) :=
  fun j code j' hj hrun => hemit n hj.2 j code j' hj.1 hrun

theorem Workspace.triple_journalValue {past : List Entry}
    (hemit : ∀ n ∈ w.program.nodes, Triple (Grown I past) (emit n) (fun _ => Grown I past))
    (child : Option NodeId) (required : Precedence) (fallback : String) :
    Triple (Grown I past) (w.journalValue emit child required fallback)
      (fun _ => Grown I past) := by
  cases child with
  | none => exact .pure fun _ h => h
  | some id =>
      refine .bind .node fun n => .bind (triple_node_emit hemit n) fun code => ?_
      cases code with
      | value e => exact .pure fun _ h => h
      | statement text => exact .throw

theorem Workspace.triple_journalChain {past : List Entry}
    (hemit : ∀ n ∈ w.program.nodes, Triple (Grown I past) (emit n) (fun _ => Grown I past))
    (count : Nat) (head : Option NodeId) :
    Triple (Grown I past) (w.journalChain emit count head) (fun _ => Grown I past) := by
  induction count generalizing head with
  | zero => exact .pure fun _ h => h
  | succ count ih =>
      cases head with
      | none => exact .pure fun _ h => h
      | some id =>
          exact .bind .node fun n => .bind (triple_node_emit hemit n) fun code =>
            .bind .statementText fun text => .bind (ih n.next) fun rest => .pure fun _ h => h

/-- Following a recipe keeps the property, and the result suits what was written down at the end.
The induction goes along the recipe; what has been written down since its start only grows. -/
theorem Recipe.triple_journal {α : Type} (hP : Lasting P) (hI : Upheld P Q I)
    {post : List Entry → α → Prop} (hpost : Lasting post) {r : Recipe α} {past : List Entry}
    (hr : r.Gives P post past)
    (hemit : ∀ past, ∀ n ∈ w.program.nodes,
      Triple (Grown I past) (emit n) (fun _ => Grown I past)) :
    Triple (Grown I past) (r.journal w emit) (fun a j => Grown I past j ∧ post j.entries a) := by
  induction r generalizing past with
  | done a => exact .pure fun j hj => ⟨hj, hpost hj.2 hr⟩
  | value child required fallback next ih =>
      exact .bind (Workspace.triple_journalValue (hemit past) child required fallback) fun e =>
        ih e (hr e)
  | chain head next ih =>
      exact .bind (Workspace.triple_journalChain (hemit past) _ head) fun text =>
        ih text (hr text)
  | edit e next ih =>
      have hedit : Triple (Grown I past) (Journaled.edit e)
          (fun answer => Grown I (past ++ [.edited e answer])) := by
        intro j answer j' hj hrun
        cases hrun
        exact ⟨hI.edit j e hj.1 (hP hj.2 hr.1), append_entry_subset hj.2 _⟩
      refine .bind hedit fun answer j a j' hj hrun => ?_
      obtain ⟨hgrown, ha⟩ := ih answer (hr.2 answer) j a j' hj hrun
      exact ⟨⟨hgrown.1, List.Subset.trans (List.subset_append_left _ _) hgrown.2⟩, ha⟩

/-- The same for a recipe that starts with nothing written down and whose result is made into
code. -/
theorem Recipe.triple_journal_code {α : Type} (hP : Lasting P) (hI : Upheld P Q I)
    {post : List Entry → Code → Prop} (hpost : Lasting post) {r : Recipe α} (code : α → Code)
    (hr : r.Gives P (fun past a => post past (code a)) [])
    (hemit : ∀ past, ∀ n ∈ w.program.nodes, Triple (Grown I past) (emit n) (fun _ => Grown I past))
    (past : List Entry) :
    Triple (Grown I past) (do return code (← r.journal w emit))
      (fun made j => Grown I past j ∧ post j.entries made) := by
  have hlasting : Lasting fun past a => post past (code a) := fun _ _ _ hsub h => hpost hsub h
  have hgives := Recipe.Gives.of_subset hP hlasting hr (List.nil_subset past)
  exact .bind (Recipe.triple_journal hP hI hlasting hgives hemit) fun _ => .pure fun _ h => h

theorem Form.triple_journal (hP : Lasting P) (hI : Upheld P Q I) {post : List Entry → Code → Prop}
    (hpost : Lasting post) {f : Form} {n : Node} (hf : f.Gives P post w n)
    (hemit : ∀ past, ∀ n ∈ w.program.nodes, Triple (Grown I past) (emit n) (fun _ => Grown I past))
    (past : List Entry) :
    Triple (Grown I past) (f.journal w emit n)
      (fun code j => Grown I past j ∧ post j.entries code) := by
  cases f with
  | value recipe => exact Recipe.triple_journal_code hP hI hpost .value hf hemit past
  | statement recipe => exact Recipe.triple_journal_code hP hI hpost .statement hf hemit past

variable {block? : String → Option Block}

theorem triple_journalNode (hP : Lasting P) (hQ : ∀ n, Lasting (Q n)) (hI : Upheld P Q I)
    (hblock : ∀ n ∈ w.program.nodes, ∀ b, block? n.kind = some b → b.form.Gives P (Q n) w n)
    (depth : Nat) (past : List Entry) {n : Node} (hn : n ∈ w.program.nodes) :
    Triple (Grown I past) (journalNode block? w depth n) (fun _ => Grown I past) := by
  induction depth generalizing past n with
  | zero => exact .throw
  | succ depth ih =>
      rw [journalNode]
      cases hkind : block? n.kind with
      | none => exact .throw
      | some b =>
          have hnoted (code : Code) :
              Triple (fun j => Grown I past j ∧ Q n j.entries code)
                (Journaled.note (.coded n code)) (fun _ => Grown I past) := by
            intro j u j' hj hrun
            cases hrun
            exact ⟨hI.coded j n code hj.1.1 hj.2,
              List.subset_append_of_subset_left _ hj.1.2⟩
          exact .bind (Form.triple_journal hP hI (hQ n) (hblock n hn b hkind)
            (fun past m hm => ih past hm) past) fun code => .bind (hnoted code) fun _ =>
              .pure fun _ h => h

/-- A whole run keeps the property, if all recipes of the library and that of the program itself
ask for proper edits only and give codes that suit their nodes. -/
theorem triple_journalProgram (hP : Lasting P) (hQ : ∀ n, Lasting (Q n))
    (hI : Upheld P Q I)
    (hblock : ∀ n ∈ w.program.nodes, ∀ b, block? n.kind = some b → b.form.Gives P (Q n) w n)
    (hprogram : (do
      Recipe.declareVariables w
      Recipe.programBody w : Recipe String).Gives P (fun _ _ => True) []) :
    Triple I (journalProgram block? w) (fun _ => I) := by
  intro j body j' hj hrun
  have h := Recipe.triple_journal hP hI (fun _ _ _ _ _ => trivial) hprogram
    (fun past n hn => triple_journalNode hP hQ hI hblock (w.program.size + 1) past hn)
  exact (h j body j' ⟨hj, List.nil_subset _⟩ hrun).1.1

end Run

end BlockSketch
