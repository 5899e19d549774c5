import BlockSketch.Proofs.Identifier.Words

/-!
The tokens of C++. A text is cut into the longest tokens from left to right: a word goes on as long
as there are letters and digits, a sign as long as it is the start of a longer one. Blanks end a
token and are left out. A text spells its tokens if that is how it is read wherever it stands before
a character that can stand behind an expression.
-/

namespace BlockSketch.Cpp

open Identifier

/-- A token: a name or a number, or a sign. -/
inductive Token where
  | word (text : String)
  | sign (text : String)
  deriving DecidableEq, Repr

/-- The signs of two and three characters. Those that start a comment are among them: a text with
one of them is never read as an operator. -/
def longSigns : List (List Char) :=
  [['+', '+'], ['-', '-'], ['-', '>'], ['-', '>', '*'], ['.', '*'], [':', ':'], ['#', '#'],
    ['<', '<'], ['>', '>'], ['<', '='], ['>', '='], ['<', '=', '>'], ['=', '='], ['!', '='],
    ['&', '&'], ['|', '|'], ['+', '='], ['-', '='], ['*', '='], ['/', '='], ['%', '='], ['^', '='],
    ['&', '='], ['|', '='], ['<', '<', '='], ['>', '>', '='], ['/', '/'], ['/', '*']]

def isBlank (c : Char) : Bool := c = ' ' || c = '\n' || c = '\t'

/-- Whether a token goes on with a character. A number may have points in it, and a sign behind the
letter of an exponent. -/
def goesOn (token : List Char) (c : Char) : Bool :=
  match token with
  | [] => false
  | first :: rest =>
      if isWordChar first then
        isWordChar c || (Text.isDigit first && (c = '.' ||
          (c = '+' || c = '-') && ['e', 'E', 'p', 'P'].contains (rest.getLastD first)))
      else longSigns.contains (token ++ [c])

def token : List Char → List Token
  | [] => []
  | first :: rest =>
      let text := String.ofList (first :: rest)
      [if isWordChar first then .word text else .sign text]

def tokensFrom (part : List Char) : List Char → List Token
  | [] => token part
  | c :: rest =>
      if goesOn part c then tokensFrom (part ++ [c]) rest
      else if isBlank c then token part ++ tokensFrom [] rest
      else token part ++ tokensFrom [c] rest

def tokenize (text : String) : List Token := tokensFrom [] text.toList

/-! ### Ends of tokens -/

def EndsBefore (part cs : List Char) : Prop := ∀ c, cs.head? = some c → goesOn part c = false

theorem tokensFrom_of_endsBefore {part cs : List Char} (h : EndsBefore part cs) :
    tokensFrom part cs = token part ++ tokensFrom [] cs := by
  cases cs with
  | nil => simp [tokensFrom, token]
  | cons c rest =>
      have hc := h c rfl
      have hnil : goesOn [] c = false := rfl
      simp only [tokensFrom, hc, hnil, token, Bool.false_eq_true, if_false, List.nil_append]
      split <;> rfl

theorem tokensFrom_blank (cs : List Char) : tokensFrom [] (' ' :: cs) = tokensFrom [] cs := rfl

/-- A sign of one character that does not go on. -/
theorem tokensFrom_sign {c : Char} {cs : List Char} (hword : isWordChar c = false)
    (hblank : isBlank c = false) (h : EndsBefore [c] cs) :
    tokensFrom [] (c :: cs) = .sign (String.ofList [c]) :: tokensFrom [] cs := by
  have hnil : goesOn [] c = false := rfl
  rw [tokensFrom, hnil, hblank]
  simp only [Bool.false_eq_true, if_false, token, List.nil_append]
  rw [tokensFrom_of_endsBefore h, token, hword]
  rfl

theorem isBlank_of_isWordChar {c : Char} (h : isWordChar c = true) : isBlank c = false := by
  cases hblank : isBlank c with
  | false => rfl
  | true =>
      have hc : c = ' ' ∨ c = '\n' ∨ c = '\t' := by simpa [isBlank, or_assoc] using hblank
      rcases hc with rfl | rfl | rfl <;> exact absurd h (by decide)

def IsInside (first c : Char) : Prop :=
  isWordChar c = true ∨ (Text.isDigit first = true ∧ c = '.')

theorem tokensFrom_append_word {first : Char} {part word cs : List Char}
    (hfirst : isWordChar first = true) (hword : ∀ c ∈ word, IsInside first c) :
    tokensFrom (first :: part) (word ++ cs) = tokensFrom (first :: (part ++ word)) cs := by
  induction word generalizing part with
  | nil => simp
  | cons c rest ih =>
      obtain ⟨hc, hrest⟩ := List.forall_mem_cons.mp hword
      have hgoes : goesOn (first :: part) c = true := by
        rcases hc with hc | ⟨hdigit, rfl⟩
        · simp [goesOn, hfirst, hc]
        · simp [goesOn, hfirst, hdigit]
      rw [List.cons_append, tokensFrom, if_pos hgoes, List.cons_append, ih hrest]
      simp

/-- A word in front of a text that does not go on with it. -/
theorem tokensFrom_word {first : Char} {word cs : List Char} (hfirst : isWordChar first = true)
    (hrest : ∀ c ∈ word, IsInside first c) (hends : EndsBefore (first :: word) cs) :
    tokensFrom [] (first :: word ++ cs) =
      .word (String.ofList (first :: word)) :: tokensFrom [] cs := by
  have hnil : goesOn [] first = false := rfl
  rw [List.cons_append, tokensFrom, hnil, isBlank_of_isWordChar hfirst]
  simp only [Bool.false_eq_true, if_false, token, List.nil_append]
  rw [tokensFrom_append_word hfirst hrest, List.nil_append, tokensFrom_of_endsBefore hends, token,
    hfirst]
  rfl

/-! ### Texts and their tokens -/

def isCloser (c : Char) : Bool :=
  c = ' ' || c = ',' || c = ')' || c = ';' || c = '[' || c = ']'

/-- A text is read as some tokens before every closing character and at the end. -/
def Spells (text : String) (ts : List Token) : Prop :=
  ∀ cs : List Char, (∀ c, cs.head? = some c → isCloser c = true) →
    tokensFrom [] (text.toList ++ cs) = ts ++ tokensFrom [] cs

def Opens (text : String) : Prop :=
  ∃ c rest, text.toList = c :: rest ∧ (isWordChar c = true ∨ c = '(')

theorem Spells.tokenize_eq {text : String} {ts : List Token} (h : Spells text ts) :
    tokenize text = ts := by
  have hread := h [] (by simp)
  rwa [List.append_nil, tokensFrom, token, List.append_nil] at hread

/-- The characters that end a word. -/
theorem goesOn_word {first : Char} {word : List Char} (hfirst : isWordChar first = true) {c : Char}
    (hc : isCloser c = true ∨ c = '(') : goesOn (first :: word) c = false := by
  have hc : c = ' ' ∨ c = ',' ∨ c = ')' ∨ c = ';' ∨ c = '[' ∨ c = ']' ∨ c = '(' := by
    simpa [isCloser, or_assoc] using hc
  rcases hc with rfl | rfl | rfl | rfl | rfl | rfl | rfl <;> simp [goesOn, hfirst] <;> decide

/-- A text that is one token: a word, or a number with points in it. -/
def IsLeaf (text : String) : Prop :=
  ∃ first rest, text.toList = first :: rest ∧ isWordChar first = true ∧
    ∀ c ∈ rest, IsInside first c

theorem IsLeaf.of_isWord {text : String} (h : isWord text = true) : IsLeaf text := by
  obtain ⟨hne, hall⟩ := isWord_iff.mp h
  cases htext : text.toList with
  | nil => exact absurd htext hne
  | cons first rest =>
      rw [htext] at hall
      obtain ⟨hfirst, hrest⟩ := List.forall_mem_cons.mp hall
      exact ⟨first, rest, htext, hfirst, fun c hc => .inl (hrest c hc)⟩

theorem IsLeaf.opens {text : String} (h : IsLeaf text) : Opens text := by
  obtain ⟨first, rest, htext, hfirst, -⟩ := h
  exact ⟨first, rest, htext, .inl hfirst⟩

theorem Opens.append {text : String} (h : Opens text) (rest : String) : Opens (text ++ rest) := by
  obtain ⟨c, cs, htext, hc⟩ := h
  exact ⟨c, cs ++ rest.toList, by simp [htext], hc⟩

theorem tokensFrom_leaf {text : String} (h : IsLeaf text) {cs : List Char}
    (hcs : ∀ c, cs.head? = some c → isCloser c = true ∨ c = '(') :
    tokensFrom [] (text.toList ++ cs) = .word text :: tokensFrom [] cs := by
  obtain ⟨first, rest, htext, hfirst, hrest⟩ := h
  have hends : EndsBefore (first :: rest) cs := fun c hc => goesOn_word hfirst (hcs c hc)
  rw [htext, tokensFrom_word hfirst hrest hends, ← htext, String.ofList_toList]

theorem tokensFrom_isWord {text : String} (h : isWord text = true) {cs : List Char}
    (hcs : ∀ c, cs.head? = some c → isCloser c = true ∨ c = '(') :
    tokensFrom [] (text.toList ++ cs) = .word text :: tokensFrom [] cs :=
  tokensFrom_leaf (.of_isWord h) hcs

theorem spells_leaf {text : String} (h : IsLeaf text) : Spells text [.word text] :=
  fun _ hcs => tokensFrom_leaf h fun c hc => .inl (hcs c hc)

/-! ### Signs -/

theorem goesOn_sign {first : Char} (hfirst : isWordChar first = false) (rest : List Char)
    (c : Char) : goesOn (first :: rest) c = longSigns.contains (first :: rest ++ [c]) := by
  simp [goesOn, hfirst]

def brackets : List Char := ['(', ')', ',', ';', '[', ']']

theorem tokensFrom_bracket {d : Char} (hd : d ∈ brackets) (cs : List Char) :
    tokensFrom [] (d :: cs) = .sign (String.ofList [d]) :: tokensFrom [] cs := by
  simp only [brackets, List.mem_cons, List.not_mem_nil, or_false] at hd
  have hends : EndsBefore [d] cs := by
    intro c _
    rcases hd with rfl | rfl | rfl | rfl | rfl | rfl <;> rw [goesOn_sign (by decide)] <;>
      simp [longSigns]
  rcases hd with rfl | rfl | rfl | rfl | rfl | rfl <;>
    exact tokensFrom_sign (by decide) (by decide) hends

/-- A minus sign or a negation in front of a word or a parenthesis. -/
theorem tokensFrom_unary {d : Char} (hd : d = '-' ∨ d = '!') {text : String} (htext : Opens text)
    (cs : List Char) :
    tokensFrom [] (d :: (text.toList ++ cs)) =
      .sign (String.ofList [d]) :: tokensFrom [] (text.toList ++ cs) := by
  have hends : EndsBefore [d] (text.toList ++ cs) := by
    obtain ⟨c, rest, htext, hc⟩ := htext
    intro c' hc'
    rw [htext] at hc'
    cases hc'
    cases hgoes : goesOn [d] c with
    | false => rfl
    | true =>
        -- these make a longer sign of a minus sign or a negation; no operand starts with one
        have hlong : c = '-' ∨ c = '>' ∨ c = '=' := by
          rcases hd with rfl | rfl <;> rw [goesOn_sign (by decide)] at hgoes <;>
            simp [longSigns] at hgoes <;> grind
        rcases hlong with rfl | rfl | rfl <;> rcases hc with hc | hc <;> exact absurd hc (by decide)
  rcases hd with rfl | rfl <;> exact tokensFrom_sign (by decide) (by decide) hends

def spacedSigns : List String :=
  ["*", "/", "%", "+", "-", "<", "<=", ">", ">=", "==", "!=", "&&", "||", "?", ":", "=", "+="]

theorem tokensFrom_spaced {sign : String} (h : sign ∈ spacedSigns) (cs : List Char) :
    tokensFrom [] (sign.toList ++ ' ' :: cs) = .sign sign :: tokensFrom [] cs := by
  simp only [spacedSigns, List.mem_cons, List.not_mem_nil, or_false] at h
  rcases h with rfl | rfl | rfl | rfl | rfl | rfl | rfl | rfl | rfl | rfl | rfl | rfl | rfl | rfl |
    rfl | rfl | rfl <;> rfl

namespace Spells

variable {a b text name : String} {as bs ts : List Token}

theorem paren (h : Spells text ts) :
    Spells ("(" ++ text ++ ")") (.sign "(" :: ts ++ [.sign ")"]) := by
  intro cs _
  have hinner := h (')' :: cs) (by simp [isCloser])
  have hopen := tokensFrom_bracket (by decide : '(' ∈ brackets) (text.toList ++ ')' :: cs)
  rw [hinner, tokensFrom_bracket (by decide : ')' ∈ brackets)] at hopen
  simpa using hopen

theorem blank (h : Spells text ts) : Spells (" " ++ text) ts := by
  intro cs hcs
  simpa [tokensFrom_blank] using h cs hcs

theorem unary {d : Char} (hd : d = '-' ∨ d = '!') (h : Spells text ts) (hopens : Opens text) :
    Spells (String.ofList [d] ++ text) (.sign (String.ofList [d]) :: ts) := by
  intro cs hcs
  have hsign := tokensFrom_unary hd hopens cs
  rw [h cs hcs] at hsign
  simpa using hsign

theorem binary {sign : String} (hsign : sign ∈ spacedSigns) (ha : Spells a as) (hb : Spells b bs) :
    Spells (a ++ " " ++ sign ++ " " ++ b) (as ++ .sign sign :: bs) := by
  intro cs hcs
  have hleft := ha (' ' :: (sign.toList ++ ' ' :: (b.toList ++ cs))) (by simp [isCloser])
  rw [tokensFrom_blank, tokensFrom_spaced hsign, hb cs hcs] at hleft
  simpa using hleft

theorem separated {d : Char} (hd : d ∈ brackets) (hcloser : isCloser d = true) (ha : Spells a as)
    (hb : Spells b bs) :
    Spells (a ++ String.ofList [d, ' '] ++ b) (as ++ .sign (String.ofList [d]) :: bs) := by
  intro cs hcs
  have hleft := ha (d :: ' ' :: (b.toList ++ cs)) (by simpa using hcloser)
  rw [tokensFrom_bracket hd, tokensFrom_blank, hb cs hcs] at hleft
  simpa using hleft

theorem comma (ha : Spells a as) (hb : Spells b bs) :
    Spells (a ++ ", " ++ b) (as ++ .sign "," :: bs) :=
  separated (by decide) (by decide) ha hb

theorem semicolon (ha : Spells a as) (hb : Spells b bs) :
    Spells (a ++ "; " ++ b) (as ++ .sign ";" :: bs) :=
  separated (by decide) (by decide) ha hb

/-- A word and a text behind it. -/
theorem behind (hname : isWord name = true) (h : Spells text ts) :
    Spells (name ++ " " ++ text) (.word name :: ts) := by
  intro cs hcs
  have hword : tokensFrom [] (name.toList ++ ' ' :: (text.toList ++ cs)) = _ :=
    tokensFrom_isWord hname (by simp [isCloser])
  rw [tokensFrom_blank, h cs hcs] at hword
  simpa using hword

theorem index (ha : Spells a as) (hb : Spells b bs) :
    Spells (a ++ "[" ++ b ++ "]") (as ++ .sign "[" :: bs ++ [.sign "]"]) := by
  intro cs _
  have hinner := hb (']' :: cs) (by simp [isCloser])
  have hleft := ha ('[' :: (b.toList ++ ']' :: cs)) (by simp [isCloser])
  rw [tokensFrom_bracket (by decide : '[' ∈ brackets), hinner,
    tokensFrom_bracket (by decide : ']' ∈ brackets)] at hleft
  simpa using hleft

theorem call (hname : isWord name = true) (h : Spells text ts) :
    Spells (name ++ "(" ++ text ++ ")") (.word name :: .sign "(" :: ts ++ [.sign ")"]) := by
  intro cs hcs
  have hinner := h.paren cs hcs
  have hword : tokensFrom [] (name.toList ++ (("(" ++ text ++ ")").toList ++ cs)) = _ :=
    tokensFrom_isWord hname (by simp)
  rw [hinner] at hword
  simpa using hword

end Spells

end BlockSketch.Cpp
