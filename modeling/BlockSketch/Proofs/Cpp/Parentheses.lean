import BlockSketch.Proofs.Cpp.Grammar

/-!
Parentheses in texts and in parses. What the grammar derives at a level has its outermost operator
at that level or a tighter one. Tokens can be laid out like an expression that the grammar does not
allow, because an operand stands there without the parentheses that it would need. They are then not
read as that expression, with parentheses wherever it may be: each token of a text stands below some
number of open parentheses, and these numbers tell where a parse has its parentheses.

Main statements: an operator, a conditional between bounds and a subscript take their operands whole
exactly if the operands are tight enough.
-/

namespace BlockSketch.Cpp

/-! ### The outermost operator -/

def Expr.level : Expr → Nat
  | leaf _ | paren _ | invoke _ | call _ _ | index _ _ => 0
  | unary _ _ => 1
  | binary sign _ _ => (binaryLevel? sign).getD 8
  | cond _ _ _ => 8

namespace Derives

variable {level : Nat} {ts : List Token} {sign : String} {e a b c : Expr}

theorem level_le (h : Derives level ts e) : e.level ≤ level := by
  induction h with
  | word _ | paren _ _ | invoke _ _ | call _ _ _ _ | index _ _ _ _ => exact Nat.le_refl 0
  | unary _ _ _ => exact Nat.le_refl 1
  | binary hsign _ _ _ _ =>
      rw [Expr.level, hsign]
      exact Nat.le_refl _
  | cond _ _ _ _ _ _ | increase _ _ _ _ => exact Nat.le_refl 8
  | loosen _ ih => exact Nat.le_succ_of_le ih

theorem of_paren (h : Derives level ts (.paren e)) : ∃ ts', Derives 8 ts' e := by
  generalize hparse : Expr.paren e = parse at h
  induction h with
  | paren h _ =>
      cases hparse
      exact ⟨_, h⟩
  | loosen _ ih => exact ih hparse
  | _ => cases hparse

theorem of_binary {operator : Nat} (hsign : binaryLevel? sign = some (operator + 1))
    (h : Derives level ts (.binary sign a b)) :
    ∃ as bs, Derives (operator + 1) as a ∧ Derives operator bs b := by
  generalize hparse : Expr.binary sign a b = parse at h
  induction h with
  | binary hsign' ha hb _ _ =>
      cases hparse
      cases hsign.symm.trans hsign'
      exact ⟨_, _, ha, hb⟩
  | increase _ _ _ _ =>
      cases hparse
      cases hsign
  | loosen _ ih => exact ih hparse
  | _ => cases hparse

theorem of_cond (h : Derives level ts (.cond c a b)) :
    ∃ cs as bs, Derives 7 cs c ∧ Derives 8 as a ∧ Derives 8 bs b := by
  generalize hparse : Expr.cond c a b = parse at h
  induction h with
  | cond hc ha hb _ _ _ =>
      cases hparse
      exact ⟨_, _, _, hc, ha, hb⟩
  | loosen _ ih => exact ih hparse
  | _ => cases hparse

theorem of_index (h : Derives level ts (.index a b)) : ∃ as, Derives 0 as a := by
  generalize hparse : Expr.index a b = parse at h
  induction h with
  | index ha _ _ _ =>
      cases hparse
      exact ⟨_, ha⟩
  | loosen _ ih => exact ih hparse
  | _ => cases hparse

end Derives

/-! ### Depths -/

/-- The tokens with the numbers of parentheses that are open there. A parenthesis behind an operand
is that of a call, and is kept as a token; all others are left out. -/
def depths : Nat → Bool → List Token → List (Token × Nat)
  | _, _, [] => []
  | depth, _, .word text :: ts => (.word text, depth) :: depths depth true ts
  | depth, operand, .sign sign :: ts =>
      if sign = "(" then
        (if operand then [(.sign sign, depth)] else []) ++ depths (depth + 1) false ts
      else if sign = ")" then depths (depth - 1) true ts
      else (.sign sign, depth) :: depths depth (sign = "]") ts

def Expr.depths (depth : Nat) : Expr → List (Token × Nat)
  | leaf text => [(.word text, depth)]
  | paren e => e.depths (depth + 1)
  | invoke f => f.depths depth ++ [(.sign "(", depth)]
  | call f args => f.depths depth ++ (.sign "(", depth) :: args.depths (depth + 1)
  | index a i => a.depths depth ++ (.sign "[", depth) :: (i.depths depth ++ [(.sign "]", depth)])
  | unary sign e => (.sign sign, depth) :: e.depths depth
  | binary sign a b => a.depths depth ++ (.sign sign, depth) :: b.depths depth
  | cond c a b => c.depths depth ++ (.sign "?", depth) ::
      (a.depths depth ++ (.sign ":", depth) :: b.depths depth)

section Tokens

variable (depth : Nat) (operand : Bool) (ts : List Token)

theorem depths_open : depths depth false (.sign "(" :: ts) = depths (depth + 1) false ts := rfl

theorem depths_call : depths depth true (.sign "(" :: ts) =
    (.sign "(", depth) :: depths (depth + 1) false ts := rfl

theorem depths_close : depths (depth + 1) operand (.sign ")" :: ts) = depths depth true ts := rfl

theorem depths_closeIndex : depths depth operand (.sign "]" :: ts) =
    (.sign "]", depth) :: depths depth true ts := rfl

theorem depths_sign {sign : String} (h : sign ∉ ["(", ")", "]"]) :
    depths depth operand (.sign sign :: ts) = (.sign sign, depth) :: depths depth false ts := by
  obtain ⟨hopen, hclose, hindex⟩ : sign ≠ "(" ∧ sign ≠ ")" ∧ sign ≠ "]" := by simpa using h
  rw [depths, if_neg hopen, if_neg hclose, decide_eq_false hindex]

end Tokens

theorem not_bracket_of_isUnary {sign : String} (h : isUnary sign = true) :
    sign ∉ ["(", ")", "]"] := by
  intro hmem
  have hall : ∀ sign ∈ ["(", ")", "]"], isUnary sign = false := by decide
  rw [hall sign hmem] at h
  cases h

theorem not_bracket_of_binaryLevel? {sign : String} {level : Nat}
    (h : binaryLevel? sign = some level) : sign ∉ ["(", ")", "]"] := by
  intro hmem
  have hall : ∀ sign ∈ ["(", ")", "]"], binaryLevel? sign = none := by decide
  rw [hall sign hmem] at h
  cases h

def LaidOut (ts : List Token) (e : Expr) : Prop :=
  ∀ depth rest, depths depth false (ts ++ rest) = e.depths depth ++ depths depth true rest

namespace LaidOut

variable {ts as bs cs fs : List Token} {e a b c f : Expr} {sign : String}

theorem word (text : String) : LaidOut [.word text] (.leaf text) := fun _ _ => rfl

theorem paren (h : LaidOut ts e) : LaidOut (.sign "(" :: ts ++ [.sign ")"]) (.paren e) := by
  intro depth rest
  simp only [List.append_assoc, List.cons_append, List.nil_append, depths_open, h _ _, depths_close,
    Expr.depths]

theorem invoke (hf : LaidOut fs f) : LaidOut (fs ++ [.sign "(", .sign ")"]) (.invoke f) := by
  intro depth rest
  simp only [List.append_assoc, List.cons_append, List.nil_append, hf _ _, depths_call,
    depths_close, Expr.depths]

theorem call (hf : LaidOut fs f) (h : LaidOut ts e) :
    LaidOut (fs ++ .sign "(" :: ts ++ [.sign ")"]) (.call f e) := by
  intro depth rest
  simp only [List.append_assoc, List.cons_append, List.nil_append, hf _ _, h _ _, depths_call,
    depths_close, Expr.depths]

theorem index (hf : LaidOut fs f) (h : LaidOut ts e) :
    LaidOut (fs ++ .sign "[" :: ts ++ [.sign "]"]) (.index f e) := by
  intro depth rest
  simp only [List.append_assoc, List.cons_append, List.nil_append, hf _ _, h _ _,
    depths_sign _ _ _ (by decide : "[" ∉ ["(", ")", "]"]), depths_closeIndex, Expr.depths]

theorem unary (hsign : sign ∉ ["(", ")", "]"]) (h : LaidOut ts e) :
    LaidOut (.sign sign :: ts) (.unary sign e) := by
  intro depth rest
  simp only [List.cons_append, depths_sign _ _ _ hsign, h _ _, Expr.depths]

theorem binary (hsign : sign ∉ ["(", ")", "]"]) (ha : LaidOut as a) (hb : LaidOut bs b) :
    LaidOut (as ++ .sign sign :: bs) (.binary sign a b) := by
  intro depth rest
  simp only [List.append_assoc, List.cons_append, ha _ _, hb _ _, depths_sign _ _ _ hsign,
    Expr.depths]

theorem cond (hc : LaidOut cs c) (ha : LaidOut as a) (hb : LaidOut bs b) :
    LaidOut (cs ++ .sign "?" :: as ++ .sign ":" :: bs) (.cond c a b) := by
  intro depth rest
  simp only [List.append_assoc, List.cons_append, hc _ _, ha _ _, hb _ _,
    depths_sign _ _ _ (by decide : "?" ∉ ["(", ")", "]"]),
    depths_sign _ _ _ (by decide : ":" ∉ ["(", ")", "]"]), Expr.depths]

end LaidOut

/-- What the grammar derives is laid out like its parse. -/
theorem Derives.laidOut {level : Nat} {ts : List Token} {e : Expr} (h : Derives level ts e) :
    LaidOut ts e := by
  induction h with
  | word text => exact .word text
  | paren _ ih => exact ih.paren
  | invoke _ ih => exact ih.invoke
  | call _ _ ihf ihargs => exact ihf.call ihargs
  | index _ _ ihf ihi => exact ihf.index ihi
  | unary hsign _ ih => exact ih.unary (not_bracket_of_isUnary hsign)
  | binary hsign _ _ iha ihb => exact iha.binary (not_bracket_of_binaryLevel? hsign) ihb
  | cond _ _ _ ihc iha ihb => exact ihc.cond iha ihb
  | increase _ _ iha ihb => exact iha.binary (by decide) ihb
  | loosen _ ih => exact ih

/-! ### Depths tell the parentheses -/

def Expr.wrap : Nat → Expr → Expr
  | 0, e => e
  | k + 1, e => paren (wrap k e)

namespace Expr

theorem exists_wrap (e : Expr) : ∃ k core, e = wrap k core ∧ ∀ inner, core ≠ paren inner := by
  induction e with
  | paren e ih =>
      obtain ⟨k, core, rfl, hcore⟩ := ih
      exact ⟨k + 1, core, rfl, hcore⟩
  | _ => exact ⟨0, _, rfl, fun _ h => by cases h⟩

theorem depths_wrap (k : Nat) (e : Expr) (depth : Nat) :
    (wrap k e).depths depth = e.depths (depth + k) := by
  induction k generalizing depth with
  | zero => rfl
  | succ k ih => rw [wrap, depths, ih, Nat.add_right_comm, Nat.add_assoc]

theorem erase_wrap (k : Nat) (e : Expr) : (wrap k e).erase = e.erase := by
  induction k with
  | zero => rfl
  | succ k ih => exact ih

def size : Expr → Nat
  | leaf _ => 1
  | paren e => e.size
  | invoke f => f.size + 1
  | call f args => f.size + (args.size + 1)
  | index a i => a.size + (i.size + 1 + 1)
  | unary _ e => e.size + 1
  | binary _ a b => a.size + (b.size + 1)
  | cond c a b => c.size + (a.size + (b.size + 1) + 1)

theorem size_erase (e : Expr) : e.erase.size = e.size := by
  induction e <;> simp only [erase, size, *]

theorem length_depths (e : Expr) (depth : Nat) : (e.depths depth).length = e.size := by
  induction e generalizing depth <;>
    simp only [depths, size, List.length_append, List.length_cons, List.length_nil, *]

theorem length_depths_eq {e e' : Expr} (h : e.erase = e'.erase) (depth depth' : Nat) :
    (e.depths depth).length = (e'.depths depth').length := by
  rw [length_depths, length_depths, ← size_erase, h, size_erase]

/-- Depths of the same expression are of the same length, so what stands behind them is the same. -/
theorem depths_append_inj {e e' : Expr} {depth depth' : Nat} {t t' : Token × Nat}
    {rest rest' : List (Token × Nat)} (herase : e.erase = e'.erase)
    (h : e.depths depth ++ t :: rest = e'.depths depth' ++ t' :: rest') :
    e.depths depth = e'.depths depth' ∧ t = t' ∧ rest = rest' := by
  obtain ⟨hleft, hright⟩ := List.append_inj h (length_depths_eq herase depth depth')
  injection hright with hhead htail
  exact ⟨hleft, hhead, htail⟩

/-- Two expressions are the same up to parentheses around them, which make up for a difference of
depths. -/
def SameCore (e e' : Expr) (depth depth' : Nat) : Prop :=
  ∃ k k' core, e = wrap k core ∧ e' = wrap k' core ∧ depth + k = depth' + k'

theorem SameCore.eq {e e' : Expr} {depth : Nat} (h : SameCore e e' depth depth) : e = e' := by
  obtain ⟨k, k', core, rfl, rfl, hk⟩ := h
  rw [Nat.add_left_cancel hk]

/-- It is enough to compare with expressions that have no parentheses around them. -/
theorem sameCore_of_core {e e' : Expr} {depth depth' : Nat}
    (h : e.depths depth = e'.depths depth') (herase : e.erase = e'.erase)
    (hcores : ∀ core depth', (∀ inner, core ≠ paren inner) → e.depths depth = core.depths depth' →
      e.erase = core.erase → e = core ∧ depth = depth') : SameCore e e' depth depth' := by
  obtain ⟨k', core, rfl, hcore⟩ := e'.exists_wrap
  rw [depths_wrap] at h
  rw [erase_wrap] at herase
  obtain ⟨rfl, hdepth⟩ := hcores core _ hcore h herase
  exact ⟨0, k', _, rfl, rfl, hdepth⟩

/-- Parses with the same depths that are the same expression have the same parentheses. -/
theorem sameCore_of_depths_eq {e e' : Expr} {depth depth' : Nat}
    (h : e.depths depth = e'.depths depth') (herase : e.erase = e'.erase) :
    SameCore e e' depth depth' := by
  induction e generalizing e' depth depth' with
  | paren e ih =>
      obtain ⟨k, k', core, rfl, rfl, hk⟩ := ih h herase
      exact ⟨k + 1, k', core, rfl, rfl, by omega⟩
  | leaf text =>
      refine sameCore_of_core h herase fun core depth' hcore h herase => ?_
      cases core with
      | leaf text' =>
          cases h
          exact ⟨rfl, rfl⟩
      | paren inner => exact absurd rfl (hcore inner)
      | _ => cases herase
  | invoke f ih =>
      refine sameCore_of_core h herase fun core depth' hcore h herase => ?_
      cases core with
      | invoke f' =>
          have hf : f.erase = f'.erase := by injection herase
          obtain ⟨hleft, hhead, -⟩ := depths_append_inj hf h
          cases hhead
          exact ⟨congrArg _ (ih hleft hf).eq, rfl⟩
      | paren inner => exact absurd rfl (hcore inner)
      | _ => cases herase
  | call f args ihf ihargs =>
      refine sameCore_of_core h herase fun core depth' hcore h herase => ?_
      cases core with
      | call f' args' =>
          obtain ⟨hf, hargs⟩ : f.erase = f'.erase ∧ args.erase = args'.erase := by
            injection herase with hf hargs
            exact ⟨hf, hargs⟩
          obtain ⟨hleft, hhead, htail⟩ := depths_append_inj hf h
          cases hhead
          rw [(ihf hleft hf).eq, (ihargs htail hargs).eq]
          exact ⟨rfl, rfl⟩
      | paren inner => exact absurd rfl (hcore inner)
      | _ => cases herase
  | index a i iha ihi =>
      refine sameCore_of_core h herase fun core depth' hcore h herase => ?_
      cases core with
      | index a' i' =>
          obtain ⟨ha, hi⟩ : a.erase = a'.erase ∧ i.erase = i'.erase := by
            injection herase with ha hi
            exact ⟨ha, hi⟩
          obtain ⟨hleft, hhead, htail⟩ := depths_append_inj ha h
          cases hhead
          obtain ⟨hinner, -⟩ := depths_append_inj hi htail
          rw [(iha hleft ha).eq, (ihi hinner hi).eq]
          exact ⟨rfl, rfl⟩
      | paren inner => exact absurd rfl (hcore inner)
      | _ => cases herase
  | unary sign e ih =>
      refine sameCore_of_core h herase fun core depth' hcore h herase => ?_
      cases core with
      | unary sign' e' =>
          have he : e.erase = e'.erase := by injection herase
          injection h with hhead htail
          cases hhead
          rw [(ih htail he).eq]
          exact ⟨rfl, rfl⟩
      | paren inner => exact absurd rfl (hcore inner)
      | _ => cases herase
  | binary sign a b iha ihb =>
      refine sameCore_of_core h herase fun core depth' hcore h herase => ?_
      cases core with
      | binary sign' a' b' =>
          obtain ⟨ha, hb⟩ : a.erase = a'.erase ∧ b.erase = b'.erase := by
            injection herase with _ ha hb
            exact ⟨ha, hb⟩
          obtain ⟨hleft, hhead, htail⟩ := depths_append_inj ha h
          cases hhead
          rw [(iha hleft ha).eq, (ihb htail hb).eq]
          exact ⟨rfl, rfl⟩
      | paren inner => exact absurd rfl (hcore inner)
      | _ => cases herase
  | cond c a b ihc iha ihb =>
      refine sameCore_of_core h herase fun core depth' hcore h herase => ?_
      cases core with
      | cond c' a' b' =>
          obtain ⟨hc, ha, hb⟩ : c.erase = c'.erase ∧ a.erase = a'.erase ∧ b.erase = b'.erase := by
            injection herase with hc ha hb
            exact ⟨hc, ha, hb⟩
          obtain ⟨hleft, hhead, htail⟩ := depths_append_inj hc h
          cases hhead
          obtain ⟨hmiddle, -, htail⟩ := depths_append_inj ha htail
          rw [(ihc hleft hc).eq, (iha hmiddle ha).eq, (ihb htail hb).eq]
          exact ⟨rfl, rfl⟩
      | paren inner => exact absurd rfl (hcore inner)
      | _ => cases herase

end Expr

theorem LaidOut.depths_eq {ts : List Token} {e : Expr} (h : LaidOut ts e) :
    depths 0 false ts = e.depths 0 := by
  have hread := h 0 []
  rwa [List.append_nil, depths, List.append_nil] at hread

/-! ### Operands without parentheses -/

def ReadAs (ts : List Token) (e : Expr) : Prop := ∃ parse, Derives 8 ts parse ∧ parse.erase = e

section Operands

variable {ts as bs vs ls hs : List Token} {e a b v l h : Expr} {sign : String} {operator : Nat}

/-- Tokens that are laid out like an expression are read as that expression only if the grammar
allows it as it is. -/
theorem LaidOut.readAs_iff (h : LaidOut ts e) : ReadAs ts e.erase ↔ Derives 8 ts e := by
  constructor
  · rintro ⟨parse, hparse, herase⟩
    have hdepths : parse.depths 0 = e.depths 0 := hparse.laidOut.depths_eq.symm.trans h.depths_eq
    rwa [← (Expr.sameCore_of_depths_eq hdepths herase).eq]
  · intro hderives
    exact ⟨e, hderives, rfl⟩

theorem readAs_binary_iff (hsign : binaryLevel? sign = some (operator + 1))
    (hoperator : operator < 8) (ha : Derives a.level as a) (hb : Derives b.level bs b) :
    ReadAs (as ++ .sign sign :: bs) (.binary sign a.erase b.erase) ↔
      a.level ≤ operator + 1 ∧ b.level ≤ operator := by
  have hlaid := ha.laidOut.binary (not_bracket_of_binaryLevel? hsign) hb.laidOut
  refine hlaid.readAs_iff.trans ⟨fun hread => ?_, ?_⟩
  · obtain ⟨_, _, ha', hb'⟩ := hread.of_binary hsign
    exact ⟨ha'.level_le, hb'.level_le⟩
  · rintro ⟨hlea, hleb⟩
    exact (Derives.binary hsign (ha.mono hlea) (hb.mono hleb)).mono (by omega)

def Expr.clamp (v l h : Expr) : Expr :=
  .cond (.binary "<" v l) l (.cond (.binary ">" v h) h v)

def clampTokens (vs ls hs : List Token) : List Token :=
  .sign "(" :: (vs ++ .sign "<" :: ls ++ .sign "?" :: ls ++ .sign ":" ::
    (.sign "(" :: (vs ++ .sign ">" :: hs ++ .sign "?" :: hs ++ .sign ":" :: vs) ++ [.sign ")"])) ++
    [.sign ")"]

theorem readAs_clamp_iff (hv : Derives v.level vs v) (hl : Derives l.level ls l)
    (hh : Derives h.level hs h) :
    ReadAs (clampTokens vs ls hs) (.clamp v.erase l.erase h.erase) ↔
      v.level ≤ 4 ∧ l.level ≤ 3 ∧ h.level ≤ 3 := by
  have hless : binaryLevel? "<" = some (3 + 1) := by decide
  have hgreater : binaryLevel? ">" = some (3 + 1) := by decide
  have hinner : LaidOut (vs ++ .sign ">" :: hs ++ .sign "?" :: hs ++ .sign ":" :: vs) _ :=
    (hv.laidOut.binary (by decide) hh.laidOut).cond hh.laidOut hv.laidOut
  have hlaid : LaidOut (clampTokens vs ls hs) _ :=
    ((hv.laidOut.binary (by decide) hl.laidOut).cond hl.laidOut hinner.paren).paren
  refine hlaid.readAs_iff.trans ⟨fun hread => ?_, ?_⟩
  · obtain ⟨_, hcond⟩ := hread.of_paren
    obtain ⟨_, _, _, hbelow, -, hrest⟩ := hcond.of_cond
    obtain ⟨_, hcond⟩ := hrest.of_paren
    obtain ⟨_, _, _, habove, -, -⟩ := hcond.of_cond
    obtain ⟨_, _, hv', hl'⟩ := hbelow.of_binary hless
    obtain ⟨_, _, -, hh'⟩ := habove.of_binary hgreater
    exact ⟨hv'.level_le, hl'.level_le, hh'.level_le⟩
  · rintro ⟨hlev, hlel, hleh⟩
    have hv8 : Derives 8 vs v := hv.mono (by omega)
    have hl8 : Derives 8 ls l := hl.mono (by omega)
    have hh8 : Derives 8 hs h := hh.mono (by omega)
    have hbelow := Derives.binary hless (hv.mono hlev) (hl.mono hlel)
    have habove := Derives.binary hgreater (hv.mono hlev) (hh.mono hleh)
    have hrest := Derives.paren (.cond (habove.mono (by decide : 4 ≤ 7)) hh8 hv8)
    have hwhole := Derives.paren (.cond (hbelow.mono (by decide : 4 ≤ 7)) hl8
      (hrest.mono (by decide : 0 ≤ 8)))
    exact hwhole.mono (by decide)

/-- A subscript takes the array whole only if that is no operator. -/
theorem readAs_index_iff (ha : Derives a.level as a) (hb : Derives 9 bs b) :
    (∃ position, ReadAs (as ++ .sign "[" :: bs ++ [.sign "]"]) (.index a.erase position)) ↔
      a.level = 0 := by
  have hlaid := ha.laidOut.index hb.laidOut
  constructor
  · rintro ⟨position, parse, hparse, herase⟩
    obtain ⟨k, core, rfl, hcore⟩ := parse.exists_wrap
    have hdepths : core.depths k = (Expr.index a b).depths 0 := by
      rw [← Nat.zero_add k, ← Expr.depths_wrap, ← hlaid.depths_eq, hparse.laidOut.depths_eq]
    rw [Expr.erase_wrap] at herase
    cases core with
    | index a' b' =>
        have hea : a'.erase = a.erase := by injection herase
        obtain ⟨hleft, hhead, -⟩ := Expr.depths_append_inj hea hdepths
        cases hhead
        obtain rfl := (Expr.sameCore_of_depths_eq hleft hea).eq
        obtain ⟨_, ha'⟩ := hparse.of_index
        exact Nat.le_zero.mp ha'.level_le
    | paren inner => exact absurd rfl (hcore inner)
    | _ => cases herase
  · intro hlevel
    rw [hlevel] at ha
    exact ⟨b.erase, .index a b, (Derives.index ha hb).mono (by decide), rfl⟩

end Operands

end BlockSketch.Cpp
