import BlockSketch.Emission.Run
import BlockSketch.Proofs.Text.Comments

/-!
Akin recipes. They ask for the same things, and where they are told texts with the same code they
place texts with the same code and have related results. A recipe that asks for no chain of
statements is told nothing but values, so it is akin to itself.
-/

namespace BlockSketch

open Text

/-- Two recipes that ask for the same things, and that place texts with the same code outside the
texts to include. Told texts with the same code they go on alike, and their results are related. -/
inductive Recipe.Akin {α : Type} (ρ : α → α → Prop) : Recipe α → Recipe α → Prop
  | done {a b : α} (h : ρ a b) : Akin ρ (.done a) (.done b)
  | value {child : Option NodeId} {required : Precedence} {fallback : String}
      {next next' : Expression → Recipe α} (h : ∀ e, Akin ρ (next e) (next' e)) :
      Akin ρ (.value child required fallback next) (.value child required fallback next')
  | chain {head : Option NodeId} {next next' : String → Recipe α}
      (h : ∀ s t, Kin s t → Akin ρ (next s) (next' t)) :
      Akin ρ (.chain head next) (.chain head next')
  | edit {e : Edit} {next next' : e.Answer → Recipe α}
      (h : ∀ answer, Akin ρ (next answer) (next' answer)) :
      Akin ρ (.edit e next) (.edit e next')
  | place {sec : Section} {key text text' : String} {overwrite : Bool}
      {next next' : Bool → Recipe α} (hsec : sec ≠ .includes)
      (htext : uncommented text = uncommented text')
      (h : ∀ answer, Akin ρ (next answer) (next' answer)) :
      Akin ρ (.edit (.place sec key text overwrite) next)
        (.edit (.place sec key text' overwrite) next')

/-- A recipe that asks for no chain of statements, and whose results have a property. -/
def Recipe.Settled {α : Type} (post : α → Prop) : Recipe α → Prop
  | .done a => post a
  | .value _ _ _ next => ∀ e, (next e).Settled post
  | .chain _ _ => False
  | .edit _ next => ∀ answer, (next answer).Settled post

namespace Recipe

variable {α β : Type} {ρ : α → α → Prop} {σ : β → β → Prop}

theorem Akin.bind {r r' : Recipe α} {f f' : α → Recipe β} (h : r.Akin ρ r')
    (hf : ∀ a b, ρ a b → (f a).Akin σ (f' b)) : (r.bind f).Akin σ (r'.bind f') := by
  induction h with
  | done h => exact hf _ _ h
  | value h ih => exact .value ih
  | chain h ih => exact .chain ih
  | edit h ih => exact .edit ih
  | place hsec htext h ih => exact .place hsec htext ih

theorem Akin.mapM {l : List β} {f g : β → Recipe α} (h : ∀ b ∈ l, (f b).Akin ρ (g b)) :
    (l.mapM f).Akin (List.Forall₂ ρ) (l.mapM g) := by
  induction l with
  | nil => exact .done .nil
  | cons b rest ih =>
      obtain ⟨hhead, htail⟩ := List.forall_mem_cons.mp h
      rw [List.mapM_cons, List.mapM_cons]
      exact hhead.bind fun _ _ hab => (ih htail).bind fun _ _ hrest => .done (.cons hab hrest)

theorem akin_statements (head : Option NodeId) : (statements head).Akin Kin (statements head) :=
  .chain fun _ _ h => .done h

theorem akin_body (n : Node) (socket : String) : (body n socket).Akin Kin (body n socket) :=
  (akin_statements _).bind fun _ _ h => .done h.indented

theorem akin_put {sec : Section} (hsec : sec ≠ .includes) {text text' : String}
    (htext : uncommented text = uncommented text') (key : String) :
    (put sec key text).Akin Eq (put sec key text') :=
  .place hsec htext fun _ => .done rfl

/-- A recipe without chains is akin to itself if its results are. -/
theorem Settled.akin {r : Recipe α} {post : α → Prop} (h : r.Settled post)
    (hpost : ∀ a, post a → ρ a a) : r.Akin ρ r := by
  induction r with
  | done a => exact .done (hpost a h)
  | value child required fallback next ih => exact .value fun e => ih e (h e)
  | chain head next ih => exact h.elim
  | edit e next ih => exact .edit fun answer => ih answer (h answer)

theorem Settled.akin_eq {r : Recipe α} (h : r.Settled fun _ => True) : r.Akin Eq r :=
  h.akin fun _ _ => rfl

/-- Behind a recipe without chains, akin recipes go on with the same result. -/
theorem Settled.bind_akin {r : Recipe α} {f f' : α → Recipe β} (h : r.Settled fun _ => True)
    (hf : ∀ a, (f a).Akin σ (f' a)) : (r.bind f).Akin σ (r.bind f') :=
  h.akin_eq.bind fun a _ heq => heq ▸ hf a

/-! ### Recipes without chains of statements -/

variable {post : α → Prop}

theorem Settled.mono {r : Recipe α} {post' : α → Prop} (h : r.Settled post)
    (hpost : ∀ a, post a → post' a) : r.Settled post' := by
  induction r with
  | done a => exact hpost a h
  | value child required fallback next ih => exact fun e => ih e (h e)
  | chain head next ih => exact h.elim
  | edit e next ih => exact fun answer => ih answer (h answer)

@[simp] theorem settled_done {a : α} : (done a).Settled post ↔ post a := Iff.rfl

@[simp] theorem settled_bind {r : Recipe β} {f : β → Recipe α} :
    (r.bind f).Settled post ↔ r.Settled fun b => (f b).Settled post := by
  induction r with
  | done b => rfl
  | value child required fallback next ih => exact forall_congr' ih
  | chain head next ih => rfl
  | edit e next ih => exact forall_congr' ih

@[simp] theorem settled_offer {sec : Section} {key text : String} {post : Unit → Prop} :
    (offer sec key text).Settled post ↔ post () :=
  ⟨fun h => h true, fun h _ => h⟩

@[simp] theorem settled_put {sec : Section} {key text : String} {post : Unit → Prop} :
    (put sec key text).Settled post ↔ post () :=
  ⟨fun h => h true, fun h _ => h⟩

@[simp] theorem settled_helper {name : String} {text : String → String} {post : String → Prop} :
    (helper name text).Settled post ↔ ∀ answer, post answer := Iff.rfl

@[simp] theorem settled_variableName {name : String} {post : String → Prop} :
    (variableName name).Settled post ↔ ∀ answer, post answer := Iff.rfl

@[simp] theorem settled_procedureName {name : String} {post : String → Prop} :
    (procedureName name).Settled post ↔ ∀ answer, post answer := Iff.rfl

@[simp] theorem settled_freshVariable {name : String} {post : String → Prop} :
    (freshVariable name).Settled post ↔ ∀ answer, post answer := Iff.rfl

@[simp] theorem settled_report {n : Node} {concern : Concern} {message : Option Diagnostic}
    {post : Unit → Prop} : (report n concern message).Settled post ↔ post () :=
  ⟨fun h => h (), fun h _ => h⟩

@[simp] theorem settled_claimPin {w : Workspace} {n : Node} {pin label : String} {usage : PinUsage}
    {post : Bool → Prop} : (claimPin w n pin usage label).Settled post ↔ ∀ answer, post answer :=
  ⟨fun h => h (), fun h _ => h⟩

@[simp] theorem settled_socket {n : Node} {name : String} {required : Precedence}
    {fallback : String} {post : String → Prop} :
    (socket n name required fallback).Settled post ↔ ∀ e : Expression, post e.text := Iff.rfl

@[simp] theorem settled_ite {c : Prop} [Decidable c] {r r' : Recipe α} :
    (if c then r else r').Settled post ↔ (c → r.Settled post) ∧ (¬c → r'.Settled post) := by
  by_cases h : c <;> simp [h]

@[simp] theorem settled_mapM {l : List β} {f : β → Recipe α} {post : List α → Prop}
    (h : ∀ b ∈ l, (f b).Settled fun _ => True) (hpost : ∀ as, post as) :
    (l.mapM f).Settled post := by
  induction l generalizing post with
  | nil => exact hpost []
  | cons b rest ih =>
      obtain ⟨hhead, htail⟩ := List.forall_mem_cons.mp h
      rw [List.mapM_cons]
      exact settled_bind.mpr (hhead.mono fun a _ =>
        settled_bind.mpr (ih htail fun as => hpost (a :: as)))

@[simp] theorem settled_forM {l : List β} {f : β → Recipe Unit} {post : Unit → Prop}
    (h : ∀ b ∈ l, (f b).Settled fun _ => True) (hpost : post ()) : (forM l f).Settled post := by
  induction l with
  | nil => exact hpost
  | cons b rest ih =>
      obtain ⟨hhead, htail⟩ := List.forall_mem_cons.mp h
      exact settled_bind.mpr (hhead.mono fun _ _ => ih htail)

end Recipe

end BlockSketch
