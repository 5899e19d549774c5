import BlockSketch.Proofs.Block.Vocabulary
import BlockSketch.Proofs.Emission.Told
import BlockSketch.Proofs.Identifier.Allocation
import BlockSketch.Proofs.Number.Literal
import BlockSketch.Proofs.Text.Words

/-!
Texts whose words are known. A lexicon is a set of words with the vocabulary in it. It covers a text
if it has every word of the text that may be an identifier.

`Recipe.WritesIn` judges a recipe against a lexicon: if the values, chains and identifiers that the
recipe is answered are covered, then so is all that it puts into the draft, and its result.
-/

namespace BlockSketch

open Block Identifier Text

/-! ### Lexicons -/

/-- A set of words with those that recipes write by themselves. -/
structure Lexicon where
  has : String → Prop
  own : ∀ x ∈ vocabulary, has x

theorem not_isLegal_of_isDigit {run : List Char} (h : run.head?.any isDigit = true) :
    ¬IsLegal (String.ofList run) := by
  rintro ⟨c, rest, hchars, hstart, -⟩
  rw [String.toList_ofList] at hchars
  subst hchars
  have hdigit : isDigit c = true := by simpa using h
  rw [isDigit_of_startsIdentifier hstart] at hdigit
  cases hdigit

namespace Lexicon

variable {L : Lexicon} {a b text : String}

def ownWords (text : String) : Bool :=
  (runs text.toList).all fun run => run.head?.any isDigit || vocabulary.contains (String.ofList run)

/-- A text of own words, behind which another word may start. -/
def opens (text : String) : Bool := endsApart text && ownWords text

def closes (text : String) : Bool := startsApart text && ownWords text

def separates (text : String) : Bool :=
  !text.isEmpty && startsApart text && endsApart text && ownWords text

/-- Every word of a text that may be an identifier is in the lexicon. -/
def Covers (L : Lexicon) (text : String) : Prop := ∀ x ∈ words text, IsLegal x → L.has x

/-- A text that is covered, and that no word behind it goes on. -/
def Stops (L : Lexicon) (text : String) : Prop := L.Covers text ∧ endsApart text = true

@[simp] theorem covers_of_ownWords (h : ownWords text = true) : L.Covers text := by
  intro x hx hlegal
  obtain ⟨run, hrun, rfl⟩ := List.mem_map.mp hx
  rcases Bool.or_eq_true_iff.mp (List.all_eq_true.mp h run hrun) with hdigit | hown
  · exact absurd hlegal (not_isLegal_of_isDigit hdigit)
  · exact L.own _ (List.contains_iff_mem.mp hown)

theorem covers_append_of_startsApart (h : startsApart b = true) :
    L.Covers (a ++ b) ↔ L.Covers a ∧ L.Covers b := by
  rw [Covers, words_append_of_startsApart h, List.forall_mem_append]
  rfl

theorem covers_append_of_endsApart (h : endsApart a = true) :
    L.Covers (a ++ b) ↔ L.Covers a ∧ L.Covers b := by
  rw [Covers, words_append_of_endsApart h, List.forall_mem_append]
  rfl

@[simp] theorem covers_opens_append (h : opens a = true) : L.Covers (a ++ b) ↔ L.Covers b := by
  obtain ⟨hends, hown⟩ := Bool.and_eq_true_iff.mp h
  rw [covers_append_of_endsApart hends, and_iff_right (covers_of_ownWords hown)]

@[simp] theorem covers_append_closes (h : closes b = true) : L.Covers (a ++ b) ↔ L.Covers a := by
  obtain ⟨hstarts, hown⟩ := Bool.and_eq_true_iff.mp h
  rw [covers_append_of_startsApart hstarts, and_iff_left (covers_of_ownWords hown)]

theorem separates_parts (h : separates text = true) :
    closes text = true ∧ endsApart text = true ∧ text ≠ "" := by
  obtain ⟨⟨⟨hne, hstarts⟩, hends⟩, hown⟩ : ((text.isEmpty = false ∧ startsApart text = true) ∧
      endsApart text = true) ∧ ownWords text = true := by simpa [separates] using h
  exact ⟨by rw [closes, hstarts, hown]; rfl, hends, by simpa using hne⟩

@[simp] theorem stops_append_separates (h : separates b = true) :
    L.Stops (a ++ b) ↔ L.Covers a := by
  obtain ⟨hcloses, hends, hne⟩ := separates_parts h
  rw [Stops, covers_append_closes hcloses, and_iff_left (endsApart_append_of_ne hends hne)]

@[simp] theorem covers_append_separates_append (h : separates text = true) :
    L.Covers (a ++ text ++ b) ↔ L.Covers a ∧ L.Covers b := by
  obtain ⟨hcloses, hends, hne⟩ := separates_parts h
  rw [covers_append_of_endsApart (endsApart_append_of_ne hends hne), covers_append_closes hcloses]

@[simp] theorem stops_of_ownWords (hends : endsApart text = true) (hown : ownWords text = true) :
    L.Stops text :=
  ⟨covers_of_ownWords hown, hends⟩

theorem Stops.covers (h : L.Stops text) : L.Covers text := h.1

theorem Stops.append (ha : L.Stops a) (hb : L.Stops b) : L.Stops (a ++ b) :=
  ⟨(covers_append_of_endsApart ha.2).mpr ⟨ha.1, hb.1⟩, endsApart_append ha.2 hb.2⟩

theorem stops_join {texts : List String} (h : ∀ t ∈ texts, L.Stops t) :
    L.Stops (String.join texts) := by
  induction texts with
  | nil => exact stops_of_ownWords rfl rfl
  | cons t rest ih =>
      obtain ⟨ht, hrest⟩ := List.forall_mem_cons.mp h
      rw [String.join_cons]
      exact ht.append (ih hrest)

theorem covers_intercalate {separator : String} (hseparator : separates separator = true)
    {texts : List String} (h : ∀ t ∈ texts, L.Covers t) :
    L.Covers (separator.intercalate texts) := by
  induction texts with
  | nil => exact covers_of_ownWords rfl
  | cons t rest ih =>
      obtain ⟨ht, hrest⟩ := List.forall_mem_cons.mp h
      cases rest with
      | nil => rwa [String.intercalate_singleton]
      | cons next rest =>
          rw [String.intercalate_cons_cons, covers_append_separates_append hseparator]
          exact ⟨ht, ih hrest⟩

theorem covers_iff_forall_lines : L.Covers text ↔ ∀ line ∈ lines text, L.Covers line := by
  simp only [Covers, words_eq_flatMap_lines text, List.mem_flatMap]
  exact ⟨fun h line hline x hx => h x ⟨line, hline, hx⟩,
    fun h x ⟨line, hline, hx⟩ => h line hline x hx⟩

theorem covers_trimLineEnds : L.Covers (trimLineEnds text) ↔ L.Covers text := by
  rw [Covers, words_trimLineEnds]
  rfl

theorem stops_leadLines {lead : String} (hlead : opens lead = true) (h : L.Covers text) :
    L.Stops (leadLines lead text) := by
  refine stops_join fun piece hpiece => ?_
  obtain ⟨line, hline, rfl⟩ := List.mem_map.mp hpiece
  rw [stops_append_separates (by decide)]
  split
  · exact covers_of_ownWords rfl
  · exact (covers_opens_append hlead).mpr (covers_iff_forall_lines.mp h line hline)

@[simp] theorem covers_braced : L.Covers (braced text) ↔ L.Covers text := by
  rw [braced, covers_append_closes (by decide), covers_opens_append (by decide)]

@[simp] theorem covers_withBody {head body : String} :
    L.Covers (withBody head body) ↔ L.Covers head ∧ L.Covers body := by
  rw [withBody, covers_append_separates_append (by decide), covers_braced,
    covers_opens_append (by decide)]

/-! ### Numbers -/

/-- A text with no characters of words but digits. -/
theorem covers_of_forall_isDigit
    (h : ∀ c ∈ text.toList, isWordChar c = true → isDigit c = true) : L.Covers text := by
  intro x hx hlegal
  obtain ⟨run, hrun, rfl⟩ := List.mem_map.mp hx
  obtain ⟨c, rest, rfl⟩ := List.exists_cons_of_ne_nil (ne_nil_of_mem_runs hrun)
  obtain ⟨hc, hword⟩ := mem_of_mem_runs hrun List.mem_cons_self
  exact absurd hlegal (not_isLegal_of_isDigit (by simp [h c hc hword]))

@[simp] theorem covers_repr (k : Nat) : L.Covers k.repr :=
  covers_of_forall_isDigit fun _ hc _ => isDigit_of_mem_toString hc

theorem covers_toString_int (k : Int) : L.Covers (toString k) := by
  by_cases hk : k < 0
  · rw [toString_of_neg hk, covers_opens_append (by decide)]
    exact covers_repr _
  · rw [toString_of_nonneg (by omega)]
    exact covers_repr _

theorem covers_positional (d : Double.Shortest) : L.Covers d.positional := by
  obtain ⟨whole, tail, htext, -, hwhole, htail⟩ := d.exists_digits
  refine covers_of_forall_isDigit fun c hc hword => ?_
  rw [htext, String.toList_ofList] at hc
  rcases List.mem_append.mp hc with hc | hc
  · exact hwhole c hc
  · refine (htail c hc).resolve_right ?_
    rintro rfl
    exact absurd hword (by decide)

theorem covers_signed (u : Int) : L.Covers (Double.text.signed u) := by
  rw [Double.text.signed]
  split
  · exact (covers_opens_append (by decide)).mpr (covers_positional _)
  · exact (covers_opens_append (by decide)).mpr (covers_positional _)

@[simp] theorem covers_doubleText (d : Double) : L.Covers d.text := by
  cases d with
  | infinite negative => cases negative <;> exact covers_of_ownWords (by decide)
  | finite u =>
      rw [Double.text]
      split
      · split
        · exact covers_toString_int _
        · exact covers_signed u
      · exact covers_signed u

end Lexicon

/-! ### Recipes -/

def Edit.WrittenIn (L : Lexicon) : Edit → Prop
  | .place _ _ text _ => L.Covers text
  | .helper _ body => ∀ f, L.Covers f → L.Covers (body f)
  | _ => True

namespace Recipe

variable {α β : Type} {L : Lexicon} {post : α → Prop}

/-- A recipe puts only covered texts into the draft, and its result is as it should be, if the
values, chains and identifiers that it is answered are covered. -/
def WritesIn (L : Lexicon) (post : α → Prop) : Recipe α → Prop
  | done a => post a
  | value _ _ fallback next =>
      L.Covers fallback ∧ ∀ e : Expression, L.Covers e.text → (next e).WritesIn L post
  | chain _ next => ∀ text, L.Stops text → (next text).WritesIn L post
  | edit e next => e.WrittenIn L ∧
      ∀ answer, (∀ x ∈ e.told? answer, L.Covers x) → (next answer).WritesIn L post

@[simp] theorem writesIn_done {a : α} : (done a).WritesIn L post ↔ post a := Iff.rfl

@[simp] theorem writesIn_bind {r : Recipe α} {f : α → Recipe β} {post : β → Prop} :
    (r.bind f).WritesIn L post ↔ r.WritesIn L (fun a => (f a).WritesIn L post) := by
  induction r with
  | done a => rfl
  | value child required fallback next ih =>
      exact and_congr_right fun _ => forall₂_congr fun e _ => ih e
  | chain head next ih => exact forall₂_congr fun text _ => ih text
  | edit e next ih => exact and_congr_right fun _ => forall₂_congr fun answer _ => ih answer

theorem WritesIn.mono {post' : α → Prop} {r : Recipe α} (h : r.WritesIn L post)
    (hpost : ∀ a, post a → post' a) : r.WritesIn L post' := by
  induction r with
  | done a => exact hpost a h
  | value child required fallback next ih => exact ⟨h.1, fun e he => ih e (h.2 e he)⟩
  | chain head next ih => exact fun text htext => ih text (h text htext)
  | edit e next ih => exact ⟨h.1, fun answer hanswer => ih answer (h.2 answer hanswer)⟩

/-- An edit that tells no identifier. -/
theorem writesIn_ask_of_untold {e : Edit} {post : e.Answer → Prop}
    (huntold : ∀ answer, e.told? answer = none) :
    (ask e).WritesIn L post ↔ e.WrittenIn L ∧ ∀ answer, post answer := by
  refine and_congr_right fun _ => forall_congr' fun answer => ?_
  rw [huntold answer]
  exact imp_iff_right fun _ hx => by cases hx

@[simp] theorem writesIn_offer {sec : Section} {key text : String} {post : Unit → Prop} :
    (offer sec key text).WritesIn L post ↔ L.Covers text ∧ post () := by
  refine writesIn_bind.trans ((writesIn_ask_of_untold fun _ => rfl).trans ?_)
  exact and_congr_right fun _ => forall_const Bool

@[simp] theorem writesIn_put {sec : Section} {key text : String} {post : Unit → Prop} :
    (put sec key text).WritesIn L post ↔ L.Covers text ∧ post () := by
  refine writesIn_bind.trans ((writesIn_ask_of_untold fun _ => rfl).trans ?_)
  exact and_congr_right fun _ => forall_const Bool

@[simp] theorem writesIn_report {n : Node} {concern : Concern} {message : Option Diagnostic}
    {post : Unit → Prop} : (report n concern message).WritesIn L post ↔ post () := by
  refine (writesIn_ask_of_untold fun _ => rfl).trans ((and_iff_right trivial).trans ?_)
  exact ⟨fun h => h (), fun h _ => h⟩

@[simp] theorem writesIn_claimPin {w : Workspace} {n : Node} {pin label : String}
    {usage : PinUsage} {post : Bool → Prop} :
    (claimPin w n pin usage label).WritesIn L post ↔ ∀ granted, post granted := by
  refine writesIn_bind.trans (writesIn_report.trans ?_)
  exact (writesIn_ask_of_untold fun _ => rfl).trans (and_iff_right trivial)

/-- An edit that tells an identifier. -/
theorem writesIn_ask_of_told {e : Edit} {post : e.Answer → Prop} (name : e.Answer → String)
    (htold : ∀ answer, e.told? answer = some (name answer)) :
    (ask e).WritesIn L post ↔
      e.WrittenIn L ∧ ∀ answer, L.Covers (name answer) → post answer := by
  refine and_congr_right fun _ => forall_congr' fun answer => ?_
  simp [htold answer, WritesIn]

@[simp] theorem writesIn_helper {name : String} {text : String → String} {post : String → Prop} :
    (helper name text).WritesIn L post ↔
      (∀ f, L.Covers f → L.Covers (text f)) ∧ ∀ f, L.Covers f → post f :=
  writesIn_ask_of_told (e := .helper name text) (fun f => f) fun _ => rfl

@[simp] theorem writesIn_variableName {name : String} {post : String → Prop} :
    (variableName name).WritesIn L post ↔ ∀ x, L.Covers x → post x :=
  (writesIn_ask_of_told (e := .identifier name .variable) (fun x => x) fun _ => rfl).trans
    (and_iff_right trivial)

@[simp] theorem writesIn_procedureName {name : String} {post : String → Prop} :
    (procedureName name).WritesIn L post ↔ ∀ x, L.Covers x → post x :=
  (writesIn_ask_of_told (e := .identifier name .procedure) (fun x => x) fun _ => rfl).trans
    (and_iff_right trivial)

@[simp] theorem writesIn_freshVariable {name : String} {post : String → Prop} :
    (freshVariable name).WritesIn L post ↔ ∀ x, L.Covers x → post x :=
  (writesIn_ask_of_told (e := .freshVariable name) (fun x => x) fun _ => rfl).trans
    (and_iff_right trivial)

@[simp] theorem writesIn_ite {c : Prop} [Decidable c] {r r' : Recipe α} :
    (if c then r else r').WritesIn L post ↔
      (c → r.WritesIn L post) ∧ (¬c → r'.WritesIn L post) := by
  by_cases h : c <;> simp [h]

@[simp] theorem writesIn_socket {n : Node} {name : String} {required : Precedence}
    {fallback : String} {post : String → Prop} :
    (socket n name required fallback).WritesIn L post ↔
      L.Covers fallback ∧ ∀ text, L.Covers text → post text := by
  refine and_congr_right fun _ => ⟨fun h text htext => ?_, fun h e he => h e.text he⟩
  exact h (.atomic text) htext

theorem writesIn_socket_bind {n : Node} {name : String} {required : Precedence}
    {fallback : String} {f : String → Recipe α} (hfallback : Lexicon.ownWords fallback = true)
    (h : ∀ text, L.Covers text → (f text).WritesIn L post) :
    ((socket n name required fallback).bind f).WritesIn L post :=
  writesIn_bind.mpr (writesIn_socket.mpr ⟨Lexicon.covers_of_ownWords hfallback, h⟩)

@[simp] theorem writesIn_requiredSocket {n : Node} {name : String} {required : Precedence}
    {fallback : String} {post : String → Prop} :
    (requiredSocket n name required fallback).WritesIn L post ↔
      L.Covers fallback ∧ ∀ text, L.Covers text → post text :=
  writesIn_bind.trans (writesIn_report.trans writesIn_socket)

@[simp] theorem writesIn_statements {head : Option NodeId} {post : String → Prop} :
    (statements head).WritesIn L post ↔ ∀ text, L.Stops text → post text := Iff.rfl

theorem writesIn_body {n : Node} {name : String} {post : String → Prop}
    (h : ∀ text, L.Stops text → post text) : (body n name).WritesIn L post :=
  fun text htext => h _ (Lexicon.stops_leadLines (by decide) htext.1)

theorem writesIn_mapM {l : List β} {f : β → Recipe α}
    (hf : ∀ b ∈ l, (f b).WritesIn L post) :
    (l.mapM f).WritesIn L (fun as => ∀ a ∈ as, post a) := by
  induction l with
  | nil => exact fun a ha => absurd ha List.not_mem_nil
  | cons b rest ih =>
      obtain ⟨hhead, htail⟩ := List.forall_mem_cons.mp hf
      rw [List.mapM_cons]
      refine writesIn_bind.mpr (hhead.mono fun a ha => writesIn_bind.mpr ?_)
      exact (ih htail).mono fun as has => List.forall_mem_cons.mpr ⟨ha, has⟩

theorem writesIn_forM {l : List β} {f : β → Recipe Unit}
    (hf : ∀ b ∈ l, (f b).WritesIn L (fun _ => True)) :
    (l.forM f).WritesIn L (fun _ => True) := by
  induction l with
  | nil => trivial
  | cons b rest ih =>
      obtain ⟨hhead, htail⟩ := List.forall_mem_cons.mp hf
      exact writesIn_bind.mpr (hhead.mono fun _ _ => ih htail)

end Recipe

def Form.WritesIn (f : Form) (L : Lexicon) (w : Workspace) (n : Node) : Prop :=
  match f with
  | .value recipe => (recipe w n).WritesIn L (fun e => L.Covers e.text)
  | .statement recipe => (recipe w n).WritesIn L L.Stops

end BlockSketch
