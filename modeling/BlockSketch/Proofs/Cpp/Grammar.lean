import BlockSketch.Proofs.Cpp.Token

/-!
The grammar of expressions in C++, as far as operators, calls, subscripts and the conditional go.
The levels are those of the standard: 0 for words, parentheses, calls and subscripts, 1 for signs in
front of an operand, 2 to 7 for operators between two operands from products down to disjunctions, 8
for the conditional and the addition to a variable, and 9 for the arguments of a call. Operators
between operands of one level are taken from the left, except for those of level 8.

Main statement: no list of tokens has two parses.
-/

namespace BlockSketch.Cpp

/-- A parse. The parentheses of the text are kept. -/
inductive Expr where
  | leaf (text : String)
  | paren (e : Expr)
  /-- A call without arguments. -/
  | invoke (callee : Expr)
  /-- A call with arguments, which are joined by commas. -/
  | call (callee args : Expr)
  /-- An element of an array. -/
  | index (array position : Expr)
  | unary (sign : String) (e : Expr)
  | binary (sign : String) (a b : Expr)
  | cond (c a b : Expr)
  deriving DecidableEq, Repr

def Expr.erase : Expr → Expr
  | leaf text => leaf text
  | paren e => e.erase
  | invoke callee => invoke callee.erase
  | call callee args => call callee.erase args.erase
  | index array position => index array.erase position.erase
  | unary sign e => unary sign e.erase
  | binary sign a b => binary sign a.erase b.erase
  | cond c a b => cond c.erase a.erase b.erase

def isUnary (sign : String) : Bool := sign = "-" || sign = "!"

def binaryLevel? : String → Option Nat
  | "*" | "/" | "%" => some 2
  | "+" | "-" => some 3
  | "<" | "<=" | ">" | ">=" => some 4
  | "==" | "!=" => some 5
  | "&&" => some 6
  | "||" => some 7
  | "," => some 9
  | _ => none

inductive Derives : Nat → List Token → Expr → Prop where
  | word (text : String) : Derives 0 [.word text] (.leaf text)
  | paren {ts : List Token} {e : Expr} (h : Derives 8 ts e) :
      Derives 0 (.sign "(" :: ts ++ [.sign ")"]) (.paren e)
  | invoke {fs : List Token} {f : Expr} (hf : Derives 0 fs f) :
      Derives 0 (fs ++ [.sign "(", .sign ")"]) (.invoke f)
  | call {fs ts : List Token} {f args : Expr} (hf : Derives 0 fs f) (hargs : Derives 9 ts args) :
      Derives 0 (fs ++ .sign "(" :: ts ++ [.sign ")"]) (.call f args)
  | index {fs ts : List Token} {f i : Expr} (hf : Derives 0 fs f) (hi : Derives 9 ts i) :
      Derives 0 (fs ++ .sign "[" :: ts ++ [.sign "]"]) (.index f i)
  | unary {sign : String} {ts : List Token} {e : Expr} (hsign : isUnary sign = true)
      (h : Derives 1 ts e) : Derives 1 (.sign sign :: ts) (.unary sign e)
  | binary {level : Nat} {sign : String} {as bs : List Token} {a b : Expr}
      (hsign : binaryLevel? sign = some (level + 1)) (ha : Derives (level + 1) as a)
      (hb : Derives level bs b) : Derives (level + 1) (as ++ .sign sign :: bs) (.binary sign a b)
  | cond {cs as bs : List Token} {c a b : Expr} (hc : Derives 7 cs c) (ha : Derives 8 as a)
      (hb : Derives 8 bs b) :
      Derives 8 (cs ++ .sign "?" :: as ++ .sign ":" :: bs) (.cond c a b)
  | increase {as bs : List Token} {a b : Expr} (ha : Derives 7 as a) (hb : Derives 8 bs b) :
      Derives 8 (as ++ .sign "+=" :: bs) (.binary "+=" a b)
  | loosen {level : Nat} {ts : List Token} {e : Expr} (h : Derives level ts e) :
      Derives (level + 1) ts e

def Parses (text : String) (e : Expr) : Prop := Derives 8 (tokenize text) e

/-! ### Reading from left to right -/

/-- A sign goes on with an expression that stands before it, as an operator of a level. -/
def Continues (sign : String) (level : Nat) : Prop :=
  binaryLevel? sign = some level ∨ ((sign = "(" ∨ sign = "[") ∧ level = 0) ∨
    ((sign = "?" ∨ sign = "+=") ∧ level = 8)

def StopsAt (level : Nat) (ts : List Token) : Prop :=
  ∀ sign, ts.head? = some (.sign sign) → ¬Continues sign level

/-- What a reader is about to read: an expression of a level, or what is left of one that starts
with an operand. -/
inductive Mode where
  | start (level : Nat)
  | behind (level : Nat) (left : Expr)

/-- A reader that goes from left to right and takes all that it can. It gives the expression that it
read and the tokens that are left. -/
inductive Reads : Mode → List Token → Expr → List Token → Prop where
  | word {text : String} {ts rest : List Token} {e : Expr}
      (h : Reads (.behind 0 (.leaf text)) ts e rest) : Reads (.start 0) (.word text :: ts) e rest
  | paren {ts ts' rest : List Token} {inner e : Expr}
      (hinner : Reads (.start 8) ts inner (.sign ")" :: ts'))
      (h : Reads (.behind 0 (.paren inner)) ts' e rest) :
      Reads (.start 0) (.sign "(" :: ts) e rest
  | invoke {ts rest : List Token} {f e : Expr} (h : Reads (.behind 0 (.invoke f)) ts e rest) :
      Reads (.behind 0 f) (.sign "(" :: .sign ")" :: ts) e rest
  | call {ts ts' rest : List Token} {f args e : Expr} (hts : ts.head? ≠ some (.sign ")"))
      (hargs : Reads (.start 9) ts args (.sign ")" :: ts'))
      (h : Reads (.behind 0 (.call f args)) ts' e rest) :
      Reads (.behind 0 f) (.sign "(" :: ts) e rest
  | index {sign : String} {ts ts' rest : List Token} {f i e : Expr} (hsign : sign = "[")
      (hi : Reads (.start 9) ts i (.sign "]" :: ts'))
      (h : Reads (.behind 0 (.index f i)) ts' e rest) :
      Reads (.behind 0 f) (.sign sign :: ts) e rest
  | unary {sign : String} {ts rest : List Token} {e : Expr} (hsign : isUnary sign = true)
      (h : Reads (.start 1) ts e rest) : Reads (.start 1) (.sign sign :: ts) (.unary sign e) rest
  | plain {ts rest : List Token} {e : Expr}
      (hts : ∀ sign, ts.head? = some (.sign sign) → isUnary sign = false)
      (h : Reads (.start 0) ts e rest) : Reads (.start 1) ts e rest
  | operand {level : Nat} {ts ts' rest : List Token} {a e : Expr}
      (ha : Reads (.start (level + 1)) ts a ts') (h : Reads (.behind (level + 2) a) ts' e rest) :
      Reads (.start (level + 2)) ts e rest
  | operator {level : Nat} {sign : String} {ts ts' rest : List Token} {a b e : Expr}
      (hsign : binaryLevel? sign = some (level + 1)) (hb : Reads (.start level) ts b ts')
      (h : Reads (.behind (level + 1) (.binary sign a b)) ts' e rest) :
      Reads (.behind (level + 1) a) (.sign sign :: ts) e rest
  | cond {ts ts' rest : List Token} {c a b : Expr}
      (ha : Reads (.start 8) ts a (.sign ":" :: ts')) (hb : Reads (.start 8) ts' b rest) :
      Reads (.behind 8 c) (.sign "?" :: ts) (.cond c a b) rest
  | increase {sign : String} {ts rest : List Token} {a b : Expr} (hsign : sign = "+=")
      (hb : Reads (.start 8) ts b rest) :
      Reads (.behind 8 a) (.sign sign :: ts) (.binary sign a b) rest
  | stop {level : Nat} {ts : List Token} {a : Expr} (h : StopsAt level ts) :
      Reads (.behind level a) ts a ts

theorem binaryLevel?_question : binaryLevel? "?" = none := by decide

theorem binaryLevel?_increase : binaryLevel? "+=" = none := by decide

theorem continues_open : Continues "(" 0 := .inr (.inl ⟨.inl rfl, rfl⟩)

theorem continues_index : Continues "[" 0 := .inr (.inl ⟨.inr rfl, rfl⟩)

theorem continues_question : Continues "?" 8 := .inr (.inr ⟨.inl rfl, rfl⟩)

theorem continues_increase : Continues "+=" 8 := .inr (.inr ⟨.inr rfl, rfl⟩)

/-- The reader has no choice. -/
theorem Reads.unique {m : Mode} {ts rest rest' : List Token} {e e' : Expr} (h : Reads m ts e rest)
    (h' : Reads m ts e' rest') : e = e' ∧ rest = rest' := by
  induction h generalizing e' rest' with
  | word _ ih =>
      cases h' with
      | word h' => exact ih h'
  | paren _ _ ihinner ih =>
      cases h' with
      | paren hinner' h' =>
          obtain ⟨rfl, heq⟩ := ihinner hinner'
          cases heq
          exact ih h'
  | invoke _ ih =>
      cases h' with
      | invoke h' => exact ih h'
      | call hts _ _ => exact absurd rfl hts
      | index hsign _ _ => exact absurd hsign (by decide)
      | stop hstop => exact absurd continues_open (hstop "(" rfl)
  | call hts _ _ ihargs ih =>
      cases h' with
      | invoke _ => exact absurd rfl hts
      | call _ hargs' h' =>
          obtain ⟨rfl, heq⟩ := ihargs hargs'
          cases heq
          exact ih h'
      | index hsign _ _ => exact absurd hsign (by decide)
      | stop hstop => exact absurd continues_open (hstop "(" rfl)
  | index hsign _ _ ihi ih =>
      cases h' with
      | invoke _ => exact absurd hsign (by decide)
      | call _ _ _ => exact absurd hsign (by decide)
      | index _ hi' h' =>
          obtain ⟨rfl, heq⟩ := ihi hi'
          cases heq
          exact ih h'
      | stop hstop => exact absurd (hsign ▸ continues_index) (hstop _ rfl)
  | unary hsign _ ih =>
      cases h' with
      | unary _ h' =>
          obtain ⟨rfl, rfl⟩ := ih h'
          exact ⟨rfl, rfl⟩
      | plain hts _ =>
          rw [hts _ rfl] at hsign
          cases hsign
  | plain hts _ ih =>
      cases h' with
      | unary hsign _ =>
          rw [hts _ rfl] at hsign
          cases hsign
      | plain _ h' => exact ih h'
  | operand _ _ iha ih =>
      cases h' with
      | operand ha' h' =>
          obtain ⟨rfl, rfl⟩ := iha ha'
          exact ih h'
  | operator hsign _ _ ihb ih =>
      cases h' with
      | operator _ hb' h' =>
          obtain ⟨rfl, rfl⟩ := ihb hb'
          exact ih h'
      | cond _ _ =>
          rw [binaryLevel?_question] at hsign
          cases hsign
      | increase heq _ =>
          rw [heq, binaryLevel?_increase] at hsign
          cases hsign
      | stop hstop => exact absurd (.inl hsign) (hstop _ rfl)
  | cond _ _ iha ihb =>
      cases h' with
      | operator hsign _ _ =>
          rw [binaryLevel?_question] at hsign
          cases hsign
      | cond ha' hb' =>
          obtain ⟨rfl, heq⟩ := iha ha'
          cases heq
          obtain ⟨rfl, rfl⟩ := ihb hb'
          exact ⟨rfl, rfl⟩
      | increase hsign _ => exact absurd hsign (by decide)
      | stop hstop => exact absurd continues_question (hstop "?" rfl)
  | increase hsign _ ihb =>
      cases h' with
      | operator hlevel _ _ =>
          rw [hsign, binaryLevel?_increase] at hlevel
          cases hlevel
      | cond _ _ => exact absurd hsign (by decide)
      | increase _ hb' =>
          obtain ⟨rfl, rfl⟩ := ihb hb'
          exact ⟨rfl, rfl⟩
      | stop hstop => exact absurd (hsign ▸ continues_increase) (hstop _ rfl)
  | stop hstop =>
      cases h' with
      | invoke _ => exact absurd continues_open (hstop "(" rfl)
      | call _ _ _ => exact absurd continues_open (hstop "(" rfl)
      | index hsign _ _ => exact absurd (hsign ▸ continues_index) (hstop _ rfl)
      | operator hsign _ _ => exact absurd (.inl hsign) (hstop _ rfl)
      | cond _ _ => exact absurd continues_question (hstop "?" rfl)
      | increase hsign _ => exact absurd (hsign ▸ continues_increase) (hstop _ rfl)
      | stop _ => exact ⟨rfl, rfl⟩

/-! ### What the grammar derives is read -/

/-- A text can stand behind an expression of a level: it goes on with it at a looser level or,
unless this is the level of the conditional, at its own. -/
def Follows (level : Nat) (ts : List Token) : Prop :=
  ∀ sign k, ts.head? = some (.sign sign) → Continues sign k → level < k ∨ (level = k ∧ level ≠ 8)

theorem Continues.two_le {sign : String} {k : Nat} (h : Continues sign k) (hk : k ≠ 0) : 2 ≤ k := by
  rcases h with h | ⟨-, rfl⟩ | ⟨-, rfl⟩
  · unfold binaryLevel? at h
    split at h <;> simp at h <;> omega
  · exact absurd rfl hk
  · decide

theorem Follows.stopsAt_of_lt {level level' : Nat} {ts : List Token} (h : Follows level' ts)
    (hlt : level < level') : StopsAt level ts := by
  intro sign hhead hcontinues
  rcases h sign level hhead hcontinues with h | h <;> omega

theorem Follows.mono {level level' : Nat} {ts : List Token} (h : Follows level' ts)
    (hlt : level < level') : Follows level ts := by
  intro sign k hhead hcontinues
  rcases h sign k hhead hcontinues with h | h <;> omega

/-- No operator has the level of unary signs. -/
theorem stopsAt_one (ts : List Token) : StopsAt 1 ts := by
  intro sign _ hcontinues
  have hle := hcontinues.two_le (by decide)
  omega

theorem Follows.stopsAt_eight {ts : List Token} (h : Follows 8 ts) : StopsAt 8 ts := by
  intro sign hhead hcontinues
  rcases h sign 8 hhead hcontinues with h | h <;> omega

theorem follows_zero (ts : List Token) : Follows 0 ts := by
  intro sign k _ _
  omega

theorem follows_nil (level : Nat) : Follows level [] := by
  intro sign k hhead
  cases hhead

/-- A sign that is no operator can stand behind every expression. -/
theorem follows_of_not_continues {level : Nat} {sign : String} {ts : List Token}
    (h : ∀ k, ¬Continues sign k) : Follows level (.sign sign :: ts) := by
  intro sign' k hhead hcontinues
  cases hhead
  exact absurd hcontinues (h k)

theorem stopsAt_of_not_continues {level : Nat} {sign : String} {ts : List Token}
    (h : ∀ k, ¬Continues sign k) : StopsAt level (.sign sign :: ts) := by
  intro sign' hhead
  cases hhead
  exact h level

theorem not_continues {sign : String} (hlevel : binaryLevel? sign = none)
    (hother : sign ∉ ["(", "[", "?", "+="]) (k : Nat) : ¬Continues sign k := by
  rintro (h | ⟨rfl | rfl, -⟩ | ⟨rfl | rfl, -⟩)
  · rw [hlevel] at h
    cases h
  all_goals exact hother (by decide)

theorem not_continues_close (k : Nat) : ¬Continues ")" k :=
  not_continues (by decide) (by decide) k

theorem not_continues_colon (k : Nat) : ¬Continues ":" k :=
  not_continues (by decide) (by decide) k

theorem not_continues_closeIndex (k : Nat) : ¬Continues "]" k :=
  not_continues (by decide) (by decide) k

theorem Continues.eq_binaryLevel {sign : String} {k level : Nat}
    (hsign : binaryLevel? sign = some level) (h : Continues sign k) : k = level := by
  rcases h with h | ⟨rfl | rfl, -⟩ | ⟨rfl | rfl, -⟩
  · rw [hsign] at h
    exact (Option.some.inj h).symm
  all_goals cases hsign

theorem Continues.eq_eight {sign : String} {k : Nat} (hsign : sign = "?" ∨ sign = "+=")
    (h : Continues sign k) : k = 8 := by
  rcases h with h | ⟨h, -⟩ | ⟨-, h⟩
  · rcases hsign with rfl | rfl <;> cases h
  · rcases hsign with rfl | rfl <;> exact absurd h (by decide)
  · exact h

/-- A disjunction ends at a sign that belongs to the looser level. -/
theorem follows_seven {sign : String} (hsign : sign = "?" ∨ sign = "+=") (ts : List Token) :
    Follows 7 (.sign sign :: ts) ∧ StopsAt 7 (.sign sign :: ts) := by
  constructor
  · intro sign' k hhead hcontinues
    cases hhead
    have := hcontinues.eq_eight hsign
    omega
  · intro sign' hhead hcontinues
    cases hhead
    have := hcontinues.eq_eight hsign
    omega

theorem binaryLevel?_ne_eight (sign : String) : binaryLevel? sign ≠ some 8 := by
  intro h
  unfold binaryLevel? at h
  split at h <;> simp at h

/-- What an expression starts with. -/
theorem Derives.head {level : Nat} {ts : List Token} {e : Expr} (h : Derives level ts e) :
    ∃ t rest, ts = t :: rest ∧ ((∃ text, t = .word text) ∨ t = .sign "(" ∨
      (level ≠ 0 ∧ ∃ sign, t = .sign sign ∧ isUnary sign = true)) := by
  induction h with
  | word text => exact ⟨_, [], rfl, .inl ⟨text, rfl⟩⟩
  | paren _ _ => exact ⟨_, _, rfl, .inr (.inl rfl)⟩
  | invoke _ ih =>
      obtain ⟨t, rest, rfl, ht⟩ := ih
      exact ⟨t, _, rfl, ht⟩
  | call _ _ ih _ =>
      obtain ⟨t, rest, rfl, ht⟩ := ih
      exact ⟨t, _, rfl, ht⟩
  | index _ _ ih _ =>
      obtain ⟨t, rest, rfl, ht⟩ := ih
      exact ⟨t, _, rfl, ht⟩
  | unary hsign _ _ => exact ⟨_, _, rfl, .inr (.inr ⟨by decide, _, rfl, hsign⟩)⟩
  | binary _ _ _ ih _ =>
      obtain ⟨t, rest, rfl, ht⟩ := ih
      exact ⟨t, _, rfl, ht⟩
  | cond _ _ _ ih _ _ =>
      obtain ⟨t, rest, rfl, ht⟩ := ih
      exact ⟨t, _, rfl, ht.imp_right (.imp_right fun h => ⟨by decide, h.2⟩)⟩
  | increase _ _ ih _ =>
      obtain ⟨t, rest, rfl, ht⟩ := ih
      exact ⟨t, _, rfl, ht.imp_right (.imp_right fun h => ⟨by decide, h.2⟩)⟩
  | loosen _ ih =>
      obtain ⟨t, rest, rfl, ht⟩ := ih
      exact ⟨t, _, rfl, ht.imp_right (.imp_right fun h => ⟨by omega, h.2⟩)⟩

/-- The reader follows a derivation: it reads the tokens and goes on behind them. -/
theorem Derives.reads {level : Nat} {ts : List Token} {e : Expr} (h : Derives level ts e)
    {rest rest' : List Token} {e' : Expr} (hfollows : Follows level rest)
    (hbehind : Reads (.behind level e) rest e' rest') :
    Reads (.start level) (ts ++ rest) e' rest' := by
  induction h generalizing rest e' rest' with
  | word text => exact .word hbehind
  | paren _ ih =>
      have hclose : Follows 8 (.sign ")" :: rest) := follows_of_not_continues not_continues_close
      simp only [List.append_assoc, List.cons_append, List.nil_append]
      exact .paren (ih hclose (.stop hclose.stopsAt_eight)) hbehind
  | invoke _ ih =>
      simp only [List.append_assoc, List.cons_append, List.nil_append]
      exact ih (follows_zero _) (.invoke hbehind)
  | call _ hargs ihf ihargs =>
      have hclose : Follows 9 (.sign ")" :: rest) := follows_of_not_continues not_continues_close
      have hstop : StopsAt 9 (.sign ")" :: rest) := stopsAt_of_not_continues not_continues_close
      simp only [List.append_assoc, List.cons_append, List.nil_append]
      refine ihf (follows_zero _) (.call ?_ (ihargs hclose (.stop hstop)) hbehind)
      -- arguments do not start with a closing parenthesis
      obtain ⟨t, ts, rfl, ht⟩ := hargs.head
      rw [List.cons_append, List.head?_cons]
      rintro ⟨⟩
      rcases ht with ⟨text, h⟩ | h | ⟨-, sign, h, hsign⟩
      · cases h
      · exact absurd h (by decide)
      · cases h
        exact absurd hsign (by decide)
  | index _ _ ihf ihi =>
      have hclose : Follows 9 (.sign "]" :: rest) :=
        follows_of_not_continues not_continues_closeIndex
      have hstop : StopsAt 9 (.sign "]" :: rest) :=
        stopsAt_of_not_continues not_continues_closeIndex
      simp only [List.append_assoc, List.cons_append, List.nil_append]
      exact ihf (follows_zero _) (.index rfl (ihi hclose (.stop hstop)) hbehind)
  | unary hsign _ ih =>
      -- behind a sign and its operand the reader can only stop
      obtain ⟨rfl, rfl⟩ := hbehind.unique (.stop (stopsAt_one _))
      exact .unary hsign (ih hfollows (.stop (stopsAt_one _)))
  | @binary level sign as bs a b hsign _ _ iha ihb =>
      have hfollowsb := hfollows.mono (Nat.lt_succ_self level)
      have hstopb := hfollows.stopsAt_of_lt (Nat.lt_succ_self level)
      have hright := ihb hfollowsb (.stop hstopb)
      rw [List.append_assoc]
      refine iha ?_ (.operator hsign hright hbehind)
      -- the operator of this level follows its left operand
      intro sign' k hhead hcontinues
      cases hhead
      obtain rfl := hcontinues.eq_binaryLevel hsign
      exact .inr ⟨rfl, fun h => binaryLevel?_ne_eight sign (h ▸ hsign)⟩
  | @cond cs as bs c a b _ _ _ ihc iha ihb =>
      obtain ⟨rfl, rfl⟩ := hbehind.unique (.stop hfollows.stopsAt_eight)
      have hno := ihb hfollows (.stop hfollows.stopsAt_eight)
      have hcolon : Follows 8 (.sign ":" :: (bs ++ rest')) :=
        follows_of_not_continues not_continues_colon
      have hyes := iha hcolon (.stop hcolon.stopsAt_eight)
      simp only [List.append_assoc, List.cons_append]
      have hquestion := follows_seven (.inl rfl) (as ++ .sign ":" :: (bs ++ rest'))
      exact .operand (ihc hquestion.1 (.stop hquestion.2)) (.cond hyes hno)
  | @increase as bs a b _ _ iha ihb =>
      obtain ⟨rfl, rfl⟩ := hbehind.unique (.stop hfollows.stopsAt_eight)
      have hright := ihb hfollows (.stop hfollows.stopsAt_eight)
      rw [List.append_assoc]
      have hincrease := follows_seven (.inr rfl) (bs ++ rest')
      exact .operand (iha hincrease.1 (.stop hincrease.2)) (.increase rfl hright)
  | @loosen level ts e h ih =>
      have hplain := ih (hfollows.mono (Nat.lt_succ_self level))
        (.stop (hfollows.stopsAt_of_lt (Nat.lt_succ_self level)))
      cases level with
      | zero =>
          obtain ⟨rfl, rfl⟩ := hbehind.unique (.stop (stopsAt_one _))
          -- what starts with a sign is not derived at level 0
          refine .plain ?_ hplain
          obtain ⟨t, ts', rfl, ht⟩ := h.head
          intro sign hhead
          cases hhead
          rcases ht with ⟨text, ht⟩ | ht | ⟨hne, -⟩
          · cases ht
          · cases ht
            decide
          · exact absurd rfl hne
      | succ level => exact .operand hplain hbehind

/-- No list of tokens has two parses. -/
theorem Derives.unique {ts : List Token} {e e' : Expr} (h : Derives 8 ts e) (h' : Derives 8 ts e') :
    e = e' := by
  have hnil := follows_nil 8
  have hread := h.reads hnil (.stop hnil.stopsAt_eight)
  have hread' := h'.reads hnil (.stop hnil.stopsAt_eight)
  exact (hread.unique hread').1

theorem Derives.mono {level level' : Nat} {ts : List Token} {e : Expr} (h : Derives level ts e)
    (hle : level ≤ level') : Derives level' ts e := by
  induction hle with
  | refl => exact h
  | step _ ih => exact .loosen ih

end BlockSketch.Cpp
