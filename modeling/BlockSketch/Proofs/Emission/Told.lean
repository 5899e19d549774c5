import BlockSketch.Program.Traversal
import BlockSketch.Proofs.Emission.Journal

/-!
What a journal tells of values and chains. The text of a chain is put together from the codes that
were written down for its nodes, and a value is the code of the node in its socket.

`Tells` judges a recipe against the whole journal and not only against what it has written down
itself: what it asks for is told in the journal, which only grows. A library all of whose recipes
are judged so keeps every property of journals that proper edits and suitable codes keep, and the
text of a whole program is told in its journal.
-/

namespace BlockSketch

theorem Program.mem_chain_of_find? {p : Program} {id : NodeId} {n : Node}
    (h : p.find? id = some n) : n ∈ p.chain (some id) := by
  obtain ⟨count, hcount⟩ : ∃ count, p.size = count + 1 :=
    Nat.exists_eq_succ_of_ne_zero (Nat.ne_of_gt (List.length_pos_of_mem (mem_of_find? h)))
  rw [chain, hcount, chainFrom, h]
  exact List.mem_cons_self

/-! ### Texts from a journal -/

def Code.text : Code → String
  | value e => e.text
  | statement text => text

def Code.asStatement : Code → String
  | statement text => text
  | value e => Workspace.nakedValue e.text

namespace Workspace

variable {w : Workspace} {told told' : List Entry}

def PieceTold (w : Workspace) (told : List Entry) (n : Node) (piece : String) : Prop :=
  ∃ code, .coded n code ∈ told ∧ piece = w.commented n code.asStatement

def PiecesTold (w : Workspace) (told : List Entry) (nodes : List Node) (text : String) : Prop :=
  ∃ pieces, List.Forall₂ (w.PieceTold told) nodes pieces ∧ text = String.join pieces

def ChainTold (w : Workspace) (told : List Entry) (head : Option NodeId) (text : String) : Prop :=
  w.PiecesTold told (w.program.chain head) text

def ValueTold (w : Workspace) (told : List Entry) (child : Option NodeId) (required : Precedence)
    (fallback : String) (e : Expression) : Prop :=
  match child with
  | none => e = .atomic fallback
  | some id => ∃ n e', w.program.find? id = some n ∧ .coded n (.value e') ∈ told ∧
      e = if e'.text.isEmpty then .atomic fallback else e'.wrapped required

def BodyTold (w : Workspace) (told : List Entry) (body : String) : Prop :=
  ∃ texts, List.Forall₂ (fun id => w.ChainTold told (some id)) w.program.topLevel texts ∧
    body = String.join texts

theorem PieceTold.mono {n : Node} {piece : String} (h : w.PieceTold told n piece)
    (hsub : told ⊆ told') : w.PieceTold told' n piece := by
  obtain ⟨code, hcode, hpiece⟩ := h
  exact ⟨code, hsub hcode, hpiece⟩

theorem PiecesTold.mono {nodes : List Node} {text : String} (h : w.PiecesTold told nodes text)
    (hsub : told ⊆ told') : w.PiecesTold told' nodes text := by
  obtain ⟨pieces, hpieces, htext⟩ := h
  exact ⟨pieces, hpieces.imp fun _ _ h => h.mono hsub, htext⟩

theorem ChainTold.mono {head : Option NodeId} {text : String} (h : w.ChainTold told head text)
    (hsub : told ⊆ told') : w.ChainTold told' head text :=
  PiecesTold.mono h hsub

theorem ValueTold.mono {child : Option NodeId} {required : Precedence} {fallback : String}
    {e : Expression} (h : w.ValueTold told child required fallback e) (hsub : told ⊆ told') :
    w.ValueTold told' child required fallback e := by
  cases child with
  | none => exact h
  | some id =>
      obtain ⟨n, e', hn, hcode, he⟩ := h
      exact ⟨n, e', hn, hsub hcode, he⟩

theorem piecesTold_nil : w.PiecesTold told [] "" := ⟨[], .nil, rfl⟩

theorem PiecesTold.cons {n : Node} {nodes : List Node} {piece text : String}
    (hpiece : w.PieceTold told n piece) (h : w.PiecesTold told nodes text) :
    w.PiecesTold told (n :: nodes) (piece ++ text) := by
  obtain ⟨pieces, hpieces, rfl⟩ := h
  exact ⟨piece :: pieces, .cons hpiece hpieces, by simp⟩

/-- Every node of a chain that is told has been written down. -/
theorem ChainTold.exists_coded {head : Option NodeId} {text : String}
    (h : w.ChainTold told head text) {n : Node} (hn : n ∈ w.program.chain head) :
    ∃ code, .coded n code ∈ told := by
  obtain ⟨pieces, hpieces, -⟩ := h
  obtain ⟨i, hi, rfl⟩ := List.getElem_of_mem hn
  obtain ⟨code, hcode, -⟩ := hpieces.get hi (hpieces.length_eq ▸ hi)
  exact ⟨code, hcode⟩

/-- What stands at the top level has been written down. -/
theorem BodyTold.exists_coded {body : String} (h : w.BodyTold told body) {id : NodeId} {n : Node}
    (hid : id ∈ w.program.topLevel) (hn : w.program.find? id = some n) :
    ∃ code, .coded n code ∈ told := by
  obtain ⟨texts, htexts, -⟩ := h
  obtain ⟨i, hi, rfl⟩ := List.getElem_of_mem hid
  exact (htexts.get hi (htexts.length_eq ▸ hi)).exists_coded (Program.mem_chain_of_find? hn)

end Workspace

/-! ### Recipes under a journal -/

namespace Recipe

variable {α β : Type} {w : Workspace} {P : List Entry → Edit → Prop}
  {post : List Entry → α → Prop}

/-- Every edit of a recipe is proper for what is in the journal by then, and its result suits what
is in the journal at its end, whatever other nodes write down in between. -/
def Tells (w : Workspace) (P : List Entry → Edit → Prop) (post : List Entry → α → Prop) :
    List Entry → Recipe α → Prop
  | past, done a => post past a
  | past, value child required fallback next => ∀ past' e, past ⊆ past' →
      w.ValueTold past' child required fallback e → (next e).Tells w P post past'
  | past, chain head next => ∀ past' text, past ⊆ past' →
      w.ChainTold past' head text → (next text).Tells w P post past'
  | past, edit e next =>
      P past e ∧ ∀ answer, (next answer).Tells w P post (past ++ [.edited e answer])

theorem tells_bind {r : Recipe α} {f : α → Recipe β} {post : List Entry → β → Prop}
    {past : List Entry} : (r.bind f).Tells w P post past ↔
      r.Tells w P (fun past a => (f a).Tells w P post past) past := by
  induction r generalizing past with
  | done a => rfl
  | value child required fallback next ih =>
      exact forall₂_congr fun past' e => imp_congr_right fun _ => imp_congr_right fun _ => ih e
  | chain head next ih =>
      exact forall₂_congr fun past' s => imp_congr_right fun _ => imp_congr_right fun _ => ih s
  | edit e next ih => exact and_congr_right fun _ => forall_congr' fun answer => ih answer

theorem Tells.mono {post' : List Entry → α → Prop} {r : Recipe α} {past : List Entry}
    (h : r.Tells w P post past)
    (hpost : ∀ past' a, past ⊆ past' → post past' a → post' past' a) :
    r.Tells w P post' past := by
  induction r generalizing past with
  | done a => exact hpost past a (List.Subset.refl past) h
  | value child required fallback next ih =>
      exact fun past' e hsub he => ih e (h past' e hsub he) fun past'' a hsub' =>
        hpost past'' a (List.Subset.trans hsub hsub')
  | chain head next ih =>
      exact fun past' text hsub htext => ih text (h past' text hsub htext) fun past'' a hsub' =>
        hpost past'' a (List.Subset.trans hsub hsub')
  | edit e next ih =>
      exact ⟨h.1, fun answer => ih answer (h.2 answer) fun past' a hsub =>
        hpost past' a (List.Subset.trans (List.subset_append_left past _) hsub)⟩

theorem Tells.imp {P' : List Entry → Edit → Prop} (hP : ∀ past e, P past e → P' past e)
    {r : Recipe α} {past : List Entry} (h : r.Tells w P post past) : r.Tells w P' post past := by
  induction r generalizing past with
  | done a => exact h
  | value child required fallback next ih =>
      exact fun past' e hsub he => ih e (h past' e hsub he)
  | chain head next ih => exact fun past' text hsub htext => ih text (h past' text hsub htext)
  | edit e next ih => exact ⟨hP past e h.1, fun answer => ih answer (h.2 answer)⟩

/-- What a recipe gives by itself it tells in every journal. -/
theorem Gives.tells (hP : Lasting P) (hpost : Lasting post) {r : Recipe α} {past : List Entry}
    (h : r.Gives P post past) : r.Tells w P post past := by
  induction r generalizing past with
  | done a => exact h
  | value child required fallback next ih =>
      exact fun past' e hsub _ => ih e ((h e).of_subset hP hpost hsub)
  | chain head next ih =>
      exact fun past' text hsub _ => ih text ((h text).of_subset hP hpost hsub)
  | edit e next ih => exact ⟨h.1, fun answer => ih answer (h.2 answer)⟩

/-- A recipe for each member of a list tells a result for each of them. -/
theorem tells_mapM {l : List β} {f : β → Recipe α} {R : List Entry → β → α → Prop}
    (hR : ∀ b, Lasting fun past a => R past b a)
    (hf : ∀ b ∈ l, ∀ past, (f b).Tells w P (fun past' a => R past' b a) past)
    (past : List Entry) :
    (l.mapM f).Tells w P (fun past' as => List.Forall₂ (R past') l as) past := by
  induction l generalizing past with
  | nil => exact .nil
  | cons b rest ih =>
      obtain ⟨hhead, htail⟩ := List.forall_mem_cons.mp hf
      rw [List.mapM_cons]
      refine tells_bind.mpr ((hhead past).mono fun past' a _ ha => tells_bind.mpr ?_)
      exact (ih htail past').mono fun past'' as hsub has => .cons (hR b hsub ha) has

/-- The recipe of a program's body tells all chains at the top level. -/
theorem tells_programBody (w : Workspace) (past : List Entry) :
    (programBody w).Tells w P w.BodyTold past := by
  have hchains := tells_mapM (P := P) (w := w) (f := fun id => statements (some id))
    (l := w.program.topLevel) (R := fun past id => w.ChainTold past (some id))
    (fun _ _ _ _ hsub h => h.mono hsub) (fun _ _ _ _ _ _ htext => htext) past
  exact tells_bind.mpr (hchains.mono fun past' texts _ htexts => ⟨texts, htexts, rfl⟩)

end Recipe

def Form.Tells (f : Form) (w : Workspace) (P : List Entry → Edit → Prop)
    (post : List Entry → Code → Prop) (n : Node) : Prop :=
  match f with
  | .value recipe => ∀ past, (recipe w n).Tells w P (fun past e => post past (.value e)) past
  | .statement recipe =>
      ∀ past, (recipe w n).Tells w P (fun past text => post past (.statement text)) past

theorem Form.Tells.imp {f : Form} {w : Workspace} {P P' : List Entry → Edit → Prop}
    {post : List Entry → Code → Prop} {n : Node} (hP : ∀ past e, P past e → P' past e)
    (h : f.Tells w P post n) : f.Tells w P' post n := by
  cases f with
  | value recipe => exact fun past => (h past).imp hP
  | statement recipe => exact fun past => (h past).imp hP

theorem Form.Tells.mono {f : Form} {w : Workspace} {P : List Entry → Edit → Prop}
    {post post' : List Entry → Code → Prop} {n : Node} (h : f.Tells w P post n)
    (hpost : ∀ past code, post past code → post' past code) : f.Tells w P post' n := by
  cases f with
  | value recipe => exact fun past => (h past).mono fun past' e _ => hpost past' (.value e)
  | statement recipe =>
      exact fun past => (h past).mono fun past' text _ => hpost past' (.statement text)

theorem Form.Gives.tells {f : Form} {w : Workspace} {P : List Entry → Edit → Prop}
    {post : List Entry → Code → Prop} {n : Node} (hP : Lasting P) (hpost : Lasting post)
    (h : f.Gives P post w n) : f.Tells w P post n := by
  cases f with
  | value recipe =>
      have hlasting : Lasting fun past e => post past (.value e) := fun _ _ _ hsub h => hpost hsub h
      exact fun past => Recipe.Gives.tells hP hlasting
        (Recipe.Gives.of_subset hP hlasting h (List.nil_subset past))
  | statement recipe =>
      have hlasting : Lasting fun past text => post past (.statement text) :=
        fun _ _ _ hsub h => hpost hsub h
      exact fun past => Recipe.Gives.tells hP hlasting
        (Recipe.Gives.of_subset hP hlasting h (List.nil_subset past))

theorem Recipe.tells_trivial {α : Type} (r : Recipe α) (w : Workspace) (past : List Entry) :
    r.Tells w (fun _ _ => True) (fun _ _ => True) past :=
  (r.gives_trivial past).tells (fun _ _ _ _ _ => trivial) (fun _ _ _ _ _ => trivial)

theorem Form.tells_trivial (f : Form) (w : Workspace) (n : Node) :
    f.Tells w (fun _ _ => True) (fun _ _ => True) n :=
  (f.gives_trivial w n).tells (fun _ _ _ _ _ => trivial) (fun _ _ _ _ _ => trivial)

/-! ### Runs -/

/-- From a journal, a step that ends well comes to one with the property, in which nothing is lost
and which suits its result. -/
def Journaled.Leads {α : Type} (I : Journal → Prop) (j : Journal) (x : Journaled α)
    (post : List Entry → α → Prop) : Prop :=
  ∀ a j', x.run.run j = (.ok a, j') → I j' ∧ j.entries ⊆ j'.entries ∧ post j'.entries a

namespace Journaled.Leads

variable {α β : Type} {I : Journal → Prop} {j : Journal} {post : List Entry → α → Prop}

theorem pure {a : α} (hj : I j) (h : post j.entries a) : Leads I j (pure a) post := by
  intro b j' hrun
  cases hrun
  exact ⟨hj, List.Subset.refl _, h⟩

theorem throw {e : EmitError} : Leads I j (throw e : Journaled α) post := by
  intro a j' hrun
  cases hrun

theorem bind {x : Journaled α} {f : α → Journaled β} {post' : List Entry → β → Prop}
    (hx : Leads I j x post)
    (hf : ∀ a j', I j' → j.entries ⊆ j'.entries → post j'.entries a → Leads I j' (f a) post') :
    Leads I j (x >>= f) post' := by
  intro b j' hrun
  rw [run_bind] at hrun
  split at hrun
  next a mid hmid =>
      obtain ⟨hI, hsub, ha⟩ := hx a mid hmid
      obtain ⟨hI', hsub', hb⟩ := hf a mid hI hsub ha b j' hrun
      exact ⟨hI', List.Subset.trans hsub hsub', hb⟩
  next => cases hrun

theorem node {w : Workspace} {id : NodeId} (hj : I j) :
    Leads I j (.lift (w.node id)) (fun _ n => w.program.find? id = some n) := by
  intro n j' hrun
  rw [Workspace.node] at hrun
  split at hrun
  next m hm =>
      cases hrun
      exact ⟨hj, List.Subset.refl _, hm⟩
  next => cases hrun

theorem statementText {w : Workspace} {n : Node} {code : Code} (hj : I j) :
    Leads I j (.lift (w.statementText n code)) (fun _ text => text = code.asStatement) := by
  intro text j' hrun
  cases code with
  | statement text =>
      cases hrun
      exact ⟨hj, List.Subset.refl _, rfl⟩
  | value e =>
      rw [Workspace.statementText] at hrun
      split at hrun
      · cases hrun
        exact ⟨hj, List.Subset.refl _, rfl⟩
      · cases hrun

end Journaled.Leads

section Run

open Journaled

variable {P : List Entry → Edit → Prop} {Q : Node → List Entry → Code → Prop} {I : Journal → Prop}
  {w : Workspace} {emit : Node → Journaled Code} {j : Journal}

def Writes (w : Workspace) (I : Journal → Prop) (emit : Node → Journaled Code) : Prop :=
  ∀ n ∈ w.program.nodes, ∀ j, I j → Leads I j (emit n) (fun past code => .coded n code ∈ past)

theorem Workspace.leads_journalValue (hemit : Writes w I emit) (hj : I j) (child : Option NodeId)
    (required : Precedence) (fallback : String) :
    Leads I j (w.journalValue emit child required fallback)
      (fun past e => w.ValueTold past child required fallback e) := by
  cases child with
  | none => exact .pure hj rfl
  | some id =>
      refine .bind (.node hj) fun n j₁ hj₁ _ hn =>
        .bind (hemit n (Program.mem_of_find? hn) j₁ hj₁) fun code j₂ hj₂ _ hcode => ?_
      cases code with
      | value e => exact .pure hj₂ ⟨n, e, hn, hcode, rfl⟩
      | statement text => exact .throw

theorem Workspace.leads_journalChain (hemit : Writes w I emit) (hj : I j) (count : Nat)
    (head : Option NodeId) :
    Leads I j (w.journalChain emit count head)
      (fun past text => w.PiecesTold past (w.program.chainFrom count head) text) := by
  induction count generalizing head j with
  | zero => exact .pure hj piecesTold_nil
  | succ count ih =>
      cases head with
      | none => exact .pure hj piecesTold_nil
      | some id =>
          refine .bind (.node hj) fun n j₁ hj₁ _ hn =>
            .bind (hemit n (Program.mem_of_find? hn) j₁ hj₁) fun code j₂ hj₂ _ hcode =>
            .bind (.statementText hj₂) fun text j₃ hj₃ hsub htext =>
            .bind (ih hj₃ n.next) fun rest j₄ hj₄ hsub' hrest => .pure hj₄ ?_
          have hpiece : w.PieceTold j₄.entries n (w.commented n text) :=
            ⟨code, hsub' (hsub hcode), by rw [htext]⟩
          rw [Program.chainFrom, hn]
          exact .cons hpiece hrest

/-- Following a recipe keeps the property, and its result suits the journal at its end. The
induction goes along the recipe, and it is judged against the journal that it has come to. -/
theorem Recipe.leads_journal {α : Type} (hI : Upheld P Q I) (hemit : Writes w I emit)
    {post : List Entry → α → Prop} {r : Recipe α} (hr : r.Tells w P post j.entries) (hj : I j) :
    Leads I j (r.journal w emit) post := by
  induction r generalizing j with
  | done a => exact .pure hj hr
  | value child required fallback next ih =>
      exact .bind (Workspace.leads_journalValue hemit hj child required fallback)
        fun e j' hj' hsub he => ih e (hr j'.entries e hsub he) hj'
  | chain head next ih =>
      exact .bind (Workspace.leads_journalChain hemit hj _ head)
        fun text j' hj' hsub htext => ih text (hr j'.entries text hsub htext) hj'
  | edit e next ih =>
      have hedit : Leads I j (Journaled.edit e)
          (fun past answer => past = j.entries ++ [.edited e answer]) := by
        intro answer j' hrun
        cases hrun
        exact ⟨hI.edit j e hj hr.1, List.subset_append_left _ _, rfl⟩
      exact .bind hedit fun answer j' hj' _ hpast => ih answer (hpast ▸ hr.2 answer) hj'

theorem Form.leads_journal (hI : Upheld P Q I) (hemit : Writes w I emit)
    {post : List Entry → Code → Prop} {f : Form} {n : Node} (hf : f.Tells w P post n) (hj : I j) :
    Leads I j (f.journal w emit n) post := by
  cases f with
  | value recipe =>
      exact .bind (Recipe.leads_journal hI hemit (hf j.entries) hj) fun e j' hj' _ he =>
        .pure hj' he
  | statement recipe =>
      exact .bind (Recipe.leads_journal hI hemit (hf j.entries) hj) fun text j' hj' _ htext =>
        .pure hj' htext

variable {block? : String → Option Block}

theorem writes_journalNode (hI : Upheld P Q I)
    (hblock : ∀ n ∈ w.program.nodes, ∀ b, block? n.kind = some b → b.form.Tells w P (Q n) n)
    (depth : Nat) : Writes w I (journalNode block? w depth) := by
  induction depth with
  | zero => exact fun n _ j _ => .throw
  | succ depth ih =>
      intro n hn j hj
      rw [journalNode]
      cases hkind : block? n.kind with
      | none => exact .throw
      | some b =>
          refine .bind (Form.leads_journal hI ih (hblock n hn b hkind) hj)
            fun code j' hj' _ hQ => ?_
          have hnote : Leads I j' (Journaled.note (.coded n code))
              (fun past _ => .coded n code ∈ past) := by
            intro u j'' hrun
            cases hrun
            exact ⟨hI.coded j' n code hj' hQ, List.subset_append_left _ _,
              List.mem_append_right _ List.mem_cons_self⟩
          exact .bind hnote fun _ j'' hj'' _ hcoded => .pure hj'' hcoded

/-- A whole run keeps the property, and the text of the program is told in its journal, if all
recipes of the library and the declarations of variables ask for proper edits only and tell codes
that suit their nodes. -/
theorem leads_journalProgram (hI : Upheld P Q I)
    (hblock : ∀ n ∈ w.program.nodes, ∀ b, block? n.kind = some b → b.form.Tells w P (Q n) n)
    (hvariables : ∀ past, (Recipe.declareVariables w).Tells w P (fun _ _ => True) past)
    (hj : I j) : Leads I j (journalProgram block? w) w.BodyTold :=
  Recipe.leads_journal hI (writes_journalNode hI hblock _)
    (Recipe.tells_bind.mpr ((hvariables j.entries).mono fun past _ _ _ =>
      Recipe.tells_programBody w past)) hj

end Run

/-! ### Journals in good order -/

/-- Every edit in a journal is proper for it, and every code suits its node. -/
structure Journal.Sound (P : List Entry → Edit → Prop) (Q : Node → List Entry → Code → Prop)
    (j : Journal) : Prop where
  proper : ∀ e answer, .edited e answer ∈ j.entries → P j.entries e
  suits : ∀ n code, .coded n code ∈ j.entries → Q n j.entries code

theorem upheld_sound {P : List Entry → Edit → Prop} {Q : Node → List Entry → Code → Prop}
    (hP : Lasting P) (hQ : ∀ n, Lasting (Q n)) : Upheld P Q (Journal.Sound P Q) where
  edit j e hj hPe := by
    have hsub : j.entries ⊆ (j.edit e).entries := List.subset_append_left _ _
    constructor
    · intro e' answer hmem
      rcases List.mem_append.mp hmem with hmem | hmem
      · exact hP hsub (hj.proper e' answer hmem)
      · cases List.mem_singleton.mp hmem
        exact hP hsub hPe
    · intro n code hmem
      rcases List.mem_append.mp hmem with hmem | hmem
      · exact hQ n hsub (hj.suits n code hmem)
      · cases List.mem_singleton.mp hmem
  coded j n code hj hQn := by
    have hsub : j.entries ⊆ (j.note (.coded n code)).entries := List.subset_append_left _ _
    constructor
    · intro e answer hmem
      rcases List.mem_append.mp hmem with hmem | hmem
      · exact hP hsub (hj.proper e answer hmem)
      · cases List.mem_singleton.mp hmem
    · intro n' code' hmem
      rcases List.mem_append.mp hmem with hmem | hmem
      · exact hQ n' hsub (hj.suits n' code' hmem)
      · cases List.mem_singleton.mp hmem
        exact hQ n hsub hQn

end BlockSketch
