import BlockSketch.Proofs.Block.Wording

/-!
Recipes that are followed on their own. Their texts show that the vocabulary is complete and has no
word too many: it has just the words that may be identifiers and that the layout of a sketch or a
standard recipe writes, without a supply of them by the node.
-/

namespace BlockSketch

open Block Identifier Text Lexicon

variable {L : Lexicon} {w : Workspace} {n : Node}

/-! ### Recipes on their own -/

def Edit.blankAnswer : (e : Edit) → e.Answer
  | .place .. => true
  | .helper .. => ""
  | .identifier .. => ""
  | .freshVariable _ => ""
  | .claim .. => true
  | .report .. => ()

def Edit.ownTexts : Edit → List String
  | .place _ _ text _ => [text]
  | .helper _ body => [body ""]
  | _ => []

/-- What a recipe puts into the draft, and its result, if no chain and no identifier that it asks
for has a text, and every value is the given one, or the default if none is given. -/
def Recipe.alone {α : Type} (given : Option String) : Recipe α → List String × α
  | done a => ([], a)
  | value _ _ fallback next => (next (.atomic (given.getD fallback))).alone given
  | chain _ next => (next "").alone given
  | edit e next =>
      (e.ownTexts ++ ((next e.blankAnswer).alone given).1, ((next e.blankAnswer).alone given).2)

def Form.ownTexts (f : Form) (w : Workspace) (n : Node) (given : Option String) : List String :=
  match f with
  | .value recipe => ((recipe w n).alone given).1 ++ [((recipe w n).alone given).2.text]
  | .statement recipe => ((recipe w n).alone given).1 ++ [((recipe w n).alone given).2]

theorem Edit.WrittenIn.covers_ownTexts {e : Edit} (h : e.WrittenIn L) :
    ∀ text ∈ e.ownTexts, L.Covers text := by
  cases e with
  | place sec key text overwrite => exact List.forall_mem_singleton.mpr h
  | helper name body => exact List.forall_mem_singleton.mpr (h "" (covers_of_ownWords rfl))
  | identifier name ns => exact List.forall_mem_nil _
  | freshVariable name => exact List.forall_mem_nil _
  | claim node pin usage label => exact List.forall_mem_nil _
  | report node concern message => exact List.forall_mem_nil _

theorem Edit.covers_blankAnswer (e : Edit) : ∀ x ∈ e.told? e.blankAnswer, L.Covers x := by
  have hempty : L.Covers "" := covers_of_ownWords rfl
  cases e <;> simp [told?, blankAnswer, hempty]

theorem Recipe.WritesIn.alone {α : Type} {post : α → Prop} {given : Option String}
    (hgiven : ∀ text ∈ given, L.Covers text) {r : Recipe α} (h : r.WritesIn L post) :
    (∀ text ∈ (r.alone given).1, L.Covers text) ∧ post (r.alone given).2 := by
  induction r with
  | done a => exact ⟨List.forall_mem_nil _, h⟩
  | value child required fallback next ih =>
      refine ih _ (h.2 _ ?_)
      cases given with
      | none => exact h.1
      | some text => exact hgiven text rfl
  | chain head next ih => exact ih _ (h "" (stops_of_ownWords rfl rfl))
  | edit e next ih =>
      obtain ⟨htexts, hpost⟩ := ih _ (h.2 e.blankAnswer e.covers_blankAnswer)
      exact ⟨List.forall_mem_append.mpr ⟨h.1.covers_ownTexts, htexts⟩, hpost⟩

theorem Form.WritesIn.covers_ownTexts {f : Form} {given : Option String}
    (hgiven : ∀ text ∈ given, L.Covers text) (h : f.WritesIn L w n) :
    ∀ text ∈ f.ownTexts w n given, L.Covers text := by
  cases f with
  | value recipe =>
      obtain ⟨htexts, hresult⟩ := Recipe.WritesIn.alone hgiven h
      exact List.forall_mem_append.mpr ⟨htexts, List.forall_mem_singleton.mpr hresult⟩
  | statement recipe =>
      obtain ⟨htexts, hresult⟩ := Recipe.WritesIn.alone hgiven h
      exact List.forall_mem_append.mpr ⟨htexts, List.forall_mem_singleton.mpr hresult.1⟩

/-! ### The vocabulary -/

namespace WordSource

def workspace (s : WordSource) : Workspace := ⟨{ nodes := s.others }, default, .empty, s.board⟩

def texts (s : WordSource) : List String :=
  match standardBlocks.find? (fun b => b.kind = s.node.kind) with
  | some b => b.form.ownTexts s.workspace s.node s.given
  | none => []

/-- The words are written, and neither the node nor the given value supplies them. -/
def Holds (s : WordSource) : Prop :=
  ∀ x ∈ s.words, IsLegal x ∧ x ∈ s.texts.flatMap Text.words ∧ x ∉ s.node.suppliedWords ∧
    ∀ text ∈ s.given, x ∉ Text.words text

instance (s : WordSource) : Decidable s.Holds := by
  unfold Holds
  infer_instance

end WordSource

theorem wordSources_hold : ∀ s ∈ wordSources, s.Holds := by decide +kernel

/-- The words of a sketch without any code. -/
def layoutWords : List String := words (Sections.empty.assemble "")

/-- A word that a standard recipe writes when it is followed on its own, and that neither its node
nor the given value supplies. -/
def WrittenAlone (x : String) : Prop :=
  ∃ w n b given, Registry.standard.get? n.kind = some b ∧
    (∃ text ∈ b.form.ownTexts w n given, x ∈ words text) ∧ x ∉ n.suppliedWords ∧
      ∀ text ∈ given, x ∉ words text

theorem WordSource.Holds.writtenAlone {s : WordSource} (h : s.Holds) {x : String}
    (hx : x ∈ s.words) :
    IsLegal x ∧ WrittenAlone x := by
  obtain ⟨hlegal, hwritten, hsupplied, hgiven⟩ := h x hx
  obtain ⟨text, htext, hword⟩ := List.mem_flatMap.mp hwritten
  unfold WordSource.texts at htext
  split at htext
  next b hb =>
      refine ⟨hlegal, s.workspace, s.node, b, s.given, ?_, ⟨text, htext, hword⟩, hsupplied, hgiven⟩
      rw [Registry.standard, Registry.get?_ofList]
      exact hb
  next => cases htext

/-- The lexicon with the vocabulary and the words of a list. -/
def Lexicon.with (words : List String) : Lexicon where
  has x := x ∈ vocabulary ∨ x ∈ words
  own _ hx := .inl hx

theorem Lexicon.covers_with {words' : List String} {text : String}
    (h : ∀ x ∈ words text, x ∈ words') : (Lexicon.with words').Covers text :=
  fun x hx _ => .inr (h x hx)

/-- The vocabulary has exactly the words of the layout and those that recipes write on their
own, as far as they may be identifiers. -/
theorem mem_vocabulary_iff {x : String} :
    x ∈ vocabulary ↔ IsLegal x ∧ (x ∈ layoutWords ∨ WrittenAlone x) := by
  have hlayout : ∀ x ∈ ["void", "setup", "loop"], IsLegal x ∧ x ∈ layoutWords := by decide +kernel
  have hcovered : ∀ x ∈ layoutWords, x ∈ vocabulary := by decide +kernel
  constructor
  · intro hx
    rcases List.mem_append.mp hx with hx | hx
    · exact ⟨(hlayout x hx).1, .inl (hlayout x hx).2⟩
    · obtain ⟨s, hs, hwords⟩ := List.mem_flatMap.mp hx
      exact ((wordSources_hold s hs).writtenAlone hwords).imp_right .inr
  · rintro ⟨hlegal, hx | ⟨w, n, b, given, hb, ⟨text, htext, hword⟩, hsupplied, hgiven⟩⟩
    · exact hcovered x hx
    · -- what the node and the given value supply is added to the vocabulary
      let L := Lexicon.with (n.suppliedWords ++ given.toList.flatMap words)
      have hknows : L.Knows n := fun supplied hmem => Lexicon.covers_with fun y hy =>
        List.mem_append_left _ (List.mem_flatMap.mpr ⟨supplied, hmem, hy⟩)
      have hcovers : ∀ t ∈ given, L.Covers t := fun t ht => Lexicon.covers_with fun y hy =>
        List.mem_append_right _ (List.mem_flatMap.mpr ⟨t, Option.mem_toList.mpr ht, hy⟩)
      have hwritten := (Registry.standard_writesIn hknows hb).covers_ownTexts hcovers text htext
      rcases hwritten x hword hlegal with hown | hother
      · exact hown
      · rcases List.mem_append.mp hother with hmem | hmem
        · exact absurd hmem hsupplied
        · obtain ⟨t, ht, hy⟩ := List.mem_flatMap.mp hmem
          exact absurd hy (hgiven t (Option.mem_toList.mp ht))

end BlockSketch
