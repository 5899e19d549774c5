import BlockSketch.Proofs.Expression.Operands
import BlockSketch.Proofs.Identifier.Allocation

/-!
Heads of loops. The bounds of a loop stand without parentheses in its head, next to a comparison. So
the condition is read as the comparison with the whole bound only if the bound is tighter than a
comparison. The step adds the whole stride in every case. The body of a loop may be any statements:
what is said of a head holds whenever there is code for the loop.
-/

namespace BlockSketch

open Cpp Identifier

/-! ### Steps that end -/

namespace Emit

variable {α β : Type} {x : Emit α} {f : α → Emit β} {d : Draft} {fails : EmitError → Prop}
  {post : α → Draft → Prop}

/-- From a draft, a step has a result and a draft as asked for, or an error of a kind that is
allowed. -/
structure Ends (x : Emit α) (d : Draft) (fails : EmitError → Prop) (post : α → Draft → Prop) :
    Prop where
  ok : ∀ a d', x.run.run d = (.ok a, d') → post a d'
  error : ∀ e d', x.run.run d = (.error e, d') → fails e

theorem ends_pure {a : α} (h : post a d) : (pure a : Emit α).Ends d fails post := by
  refine ⟨fun b d' hrun => ?_, fun e d' hrun => ?_⟩
  · cases hrun
    exact h
  · cases hrun

theorem Ends.bind {post' : β → Draft → Prop} (hx : x.Ends d fails post)
    (hf : ∀ a d', post a d' → (f a).Ends d' fails post') : (x >>= f).Ends d fails post' := by
  refine ⟨fun b d'' hrun => ?_, fun e d'' hrun => ?_⟩
  · rw [run_bind] at hrun
    split at hrun
    next a d' hmid => exact (hf a d' (hx.ok a d' hmid)).ok b d'' hrun
    next => cases hrun
  · rw [run_bind] at hrun
    split at hrun
    next a d' hmid => exact (hf a d' (hx.ok a d' hmid)).error e d'' hrun
    next e' d' hmid =>
        cases hrun
        exact hx.error e d'' hmid

theorem Ends.mono {post' : α → Draft → Prop} (h : x.Ends d fails post)
    (hpost : ∀ a d', post a d' → post' a d') : x.Ends d fails post' :=
  ⟨fun a d' hrun => hpost a d' (h.ok a d' hrun), h.error⟩

theorem ends_edit (d : Draft) (e : Edit) : (modifyGet fun d => d.apply e : Emit e.Answer).Ends d
    fails (fun answer d' => (answer, d') = d.apply e) := by
  refine ⟨fun answer d' hrun => ?_, fun error d' hrun => ?_⟩
  · cases hrun
    rfl
  · cases hrun

theorem Yields.ends (h : x.Yields d post) : x.Ends d fails post := by
  obtain ⟨a, d', hrun, ha⟩ := h
  refine ⟨fun b d'' hrun' => ?_, fun e d'' hrun' => ?_⟩
  · cases hrun.symm.trans hrun'
    exact ha
  · cases hrun.symm.trans hrun'

def Leads (x : Emit α) : Prop := ∀ d, x.Ends d (fun _ => True) (fun _ d' => d.LeadsTo d')

theorem leads_pure (a : α) : (pure a : Emit α).Leads := fun d => ends_pure (.refl d)

theorem leads_throw (e : EmitError) : (throw e : Emit α).Leads := by
  refine fun d => ⟨fun a d' hrun => ?_, fun _ _ _ => trivial⟩
  cases hrun

theorem Leads.bind (hx : x.Leads) (hf : ∀ a, (f a).Leads) : (x >>= f).Leads := fun d =>
  (hx d).bind fun a d' hleads => (hf a d').mono fun _ _ hleads' => hleads.trans hleads'

end Emit

theorem Draft.leadsTo_apply (d : Draft) (e : Edit) : d.LeadsTo (d.apply e).2 := by
  rcases d.assigned_apply e with heq | ⟨name, rfl⟩
  · refine ⟨fun key identifier hkey => ?_, fun P _ hd key identifier hkey => ?_⟩
    · rwa [heq]
    · rw [heq] at hkey
      exact hd key identifier hkey
  · exact d.leadsTo_identifier name

section Leads

open Emit

variable {w : Workspace} {emit : Node → Emit Code}

theorem Workspace.leads_node (w : Workspace) (id : NodeId) : (w.node id).Leads := by
  rw [Workspace.node]
  split
  · exact leads_pure _
  · exact leads_throw _

theorem Workspace.leads_statementText (w : Workspace) (n : Node) (code : Code) :
    (w.statementText n code).Leads := by
  cases code with
  | statement text => exact leads_pure _
  | value e =>
      rw [Workspace.statementText]
      split
      · exact leads_pure _
      · exact leads_throw _

theorem Workspace.leads_childValue (hemit : ∀ n, (emit n).Leads) (child : Option NodeId)
    (required : Precedence) (fallback : String) :
    (w.childValue emit child required fallback).Leads := by
  cases child with
  | none => exact leads_pure _
  | some id =>
      refine (w.leads_node id).bind fun n => (hemit n).bind fun code => ?_
      cases code with
      | value e => exact leads_pure _
      | statement text => exact leads_throw _

theorem Workspace.leads_chainSteps (hemit : ∀ n, (emit n).Leads) (count : Nat)
    (head : Option NodeId) : (w.chainSteps emit count head).Leads := by
  induction count generalizing head with
  | zero => exact leads_pure _
  | succ count ih =>
      cases head with
      | none => exact leads_pure _
      | some id =>
          exact (w.leads_node id).bind fun n => (hemit n).bind fun code =>
            (w.leads_statementText n code).bind fun text => (ih n.next).bind fun rest =>
              leads_pure _

theorem Recipe.leads_perform {α : Type} (hemit : ∀ n, (emit n).Leads) (r : Recipe α) :
    (r.perform w emit).Leads := by
  induction r with
  | done a => exact leads_pure a
  | value child required fallback next ih =>
      exact (Workspace.leads_childValue hemit child required fallback).bind ih
  | chain head next ih => exact (Workspace.leads_chainSteps hemit _ head).bind ih
  | edit e next ih =>
      refine Leads.bind (fun d => (ends_edit d e).mono fun answer d' happly => ?_) ih
      rw [show d' = (d.apply e).2 from congrArg Prod.snd happly]
      exact d.leadsTo_apply e

/-- Emission of a node leads to later drafts. -/
theorem Registry.leads_emitNode (r : Registry) (w : Workspace) (depth : Nat) (n : Node) :
    (r.emitNode w depth n).Leads := by
  induction depth generalizing n with
  | zero => exact leads_throw _
  | succ depth ih =>
      rw [Registry.emitNode]
      cases r.get? n.kind with
      | none => exact leads_throw _
      | some b =>
          cases hform : b.form with
          | value recipe =>
              simp only [Form.perform, hform]
              exact (Recipe.leads_perform ih _).bind fun _ => leads_pure _
          | statement recipe =>
              simp only [Form.perform, hform]
              exact (Recipe.leads_perform ih _).bind fun _ => leads_pure _

end Leads

/-! ### The tokens of heads -/

/-- The tokens of the head of a loop: how it starts, its condition and its step. -/
def Cpp.loopHead (start condition step : List Token) : List Token :=
  .word "for" :: (.sign "(" :: (start ++ .sign ";" :: condition ++ .sign ";" :: step) ++
    [.sign ")"])

/-- Code is a loop with a head of three parts, none of which has a semicolon in it. -/
def Code.IsLoop (code : Code) (start condition step : List Token) : Prop :=
  ∃ head body, code = .statement (Block.withBody head body ++ "\n") ∧
    tokenize head = loopHead start condition step ∧
    ∀ part ∈ [start, condition, step], Token.sign ";" ∉ part

/-- An expression has no semicolon in it. -/
theorem Cpp.Derives.semicolon_not_mem {level : Nat} {ts : List Token} {e : Cpp.Expr}
    (h : Derives level ts e) : Token.sign ";" ∉ ts := by
  induction h with
  | @unary sign ts e hsign _ ih =>
      have hne : ";" ≠ sign := by
        rintro rfl
        cases hsign
      simpa using ⟨hne, ih⟩
  | @binary level sign as bs a b hsign _ _ iha ihb =>
      have hne : ";" ≠ sign := by
        rintro rfl
        cases hsign
      simpa using ⟨iha, hne, ihb⟩
  | _ => simp_all

theorem spells_loopHead {a b c : String} {as bs cs : List Token} (ha : Spells a as)
    (hb : Spells b bs) (hc : Spells c cs) :
    Spells ("for" ++ " " ++ ("(" ++ (a ++ "; " ++ b ++ "; " ++ c) ++ ")")) (loopHead as bs cs) :=
  ((ha.semicolon hb).semicolon hc).paren.behind (by decide)

theorem Cpp.IsLeaf.of_isLegal {name : String} (h : IsLegal name) : IsLeaf name :=
  .of_isWord h.isWord

/-- A step that counts up. -/
theorem spells_increment {name : String} (h : IsLegal name) :
    Spells (name ++ "++") [.word name, .sign "++"] := by
  obtain ⟨first, rest, htext, hstart, hrest⟩ := h
  have hfirst := isWordChar_of_startsIdentifier hstart
  intro cs hcs
  -- a number could go on with the sign, a name cannot
  have hword : EndsBefore (first :: rest) ('+' :: '+' :: cs) := by
    intro c hc
    cases hc
    rw [goesOn, if_pos hfirst, isDigit_of_startsIdentifier hstart]
    rfl
  have hsign : EndsBefore ['+', '+'] cs := by
    intro c _
    simp [goesOn_sign (by decide : isWordChar '+' = false), longSigns]
  have hplus : tokensFrom [] ('+' :: '+' :: cs) = .sign "++" :: tokensFrom [] cs :=
    tokensFrom_of_endsBefore hsign
  have hread := tokensFrom_word hfirst (fun c hc => .inl (hrest c hc)) hword
  rw [hplus, ← htext, String.ofList_toList] at hread
  simpa using hread

theorem tokenize_countedHead {name times : String} {ts : List Token} (hname : IsLegal name)
    (htimes : Spells times ts) :
    tokenize ("for (int " ++ name ++ " = 0; " ++ name ++ " < " ++ times ++ "; " ++ name ++ "++)") =
      loopHead [.word "int", .word name, .sign "=", .word "0"] (.word name :: .sign "<" :: ts)
        [.word name, .sign "++"] := by
  have hleaf := spells_leaf (.of_isLegal hname)
  have hstart := (hleaf.binary (by decide : "=" ∈ spacedSigns) (spells_leaf (.of_isWord
    (by decide : isWord "0" = true)))).behind (by decide : isWord "int" = true)
  have hcondition := hleaf.binary (by decide : "<" ∈ spacedSigns) htimes
  refine Eq.trans ?_ (spells_loopHead hstart hcondition (spells_increment hname)).tokenize_eq
  exact congrArg tokenize (String.ext (by simp))

theorem tokenize_rangeHead {name start stop step : String} {fs ls ss : List Token}
    (hname : IsLeaf name) (hstart : Spells start fs) (hstop : Spells stop ls)
    (hstep : Spells step ss) :
    tokenize ("for (int " ++ name ++ " = " ++ start ++ "; " ++ name ++ " <= " ++ stop ++ "; " ++
        name ++ " += " ++ step ++ ")") =
      loopHead (.word "int" :: .word name :: .sign "=" :: fs) (.word name :: .sign "<=" :: ls)
        (.word name :: .sign "+=" :: ss) := by
  have hleaf := spells_leaf hname
  have hfirst := (hleaf.binary (by decide : "=" ∈ spacedSigns) hstart).behind
    (by decide : isWord "int" = true)
  have hcondition := hleaf.binary (by decide : "<=" ∈ spacedSigns) hstop
  have hsecond := hleaf.binary (by decide : "+=" ∈ spacedSigns) hstep
  refine Eq.trans ?_ (spells_loopHead hfirst hcondition hsecond).tokenize_eq
  exact congrArg tokenize (String.ext (by simp))

/-! ### Names and numbers -/

theorem Identifier.Scope.isLegal_free (s : Scope) (name : String) : IsLegal (s.free name) := by
  obtain ⟨i, hfree, -⟩ := s.free_spec name
  rw [hfree]
  exact Scope.isLegal_candidate (isLegal_spell name) _

theorem Draft.isLegal_variableText {d : Draft} (h : d.names.variableScope.Assigns IsLegal)
    (name : String) : IsLegal (d.variableText name) := by
  have hnamed := h.nameOf Scope.isLegal_free name
  exact hnamed _ _ (Scope.lookup_nameOf d.names.variableScope name)

def ExprTree.isUnsigned : ExprTree → Bool
  | default _ | atom (.number _) | atom (.decimal _) => true
  | _ => false

def ExprTree.isNumeral : ExprTree → Bool
  | unary .opposite a => a.isUnsigned
  | t => t.isUnsigned

theorem Identifier.IsLegal.not_isNumeral {name : String} (h : IsLegal name) :
    (Cpp.Expr.leaf name).isNumeral = false := by
  obtain ⟨first, rest, htext, hstart, -⟩ := h
  simp [Cpp.Expr.isNumeral, htext, isDigit_of_startsIdentifier hstart]

/-- Where no name looks like a number, only numbers are written as numbers. -/
theorem ExprTree.isUnsigned_of_expr {t : ExprTree} {names : String → String}
    (hnames : ∀ name, IsLegal (names name)) {text : String} (ht : t.expr names = .leaf text)
    (h : (Cpp.Expr.leaf text).isNumeral = true) : t.isUnsigned = true := by
  cases t with
  | default _ => rfl
  | atom a =>
      cases a with
      | number k => rfl
      | decimal x => rfl
      | name text =>
          rw [← ht, ExprTree.expr, Atom.expr, (hnames text).not_isNumeral] at h
          cases h
      | truth b =>
          rw [← ht] at h
          cases b <;> cases h
      | null =>
          rw [← ht] at h
          cases h
  | unary o a => cases o <;> cases ht
  | binary o a b => cases o <;> cases ht
  | choice c a b => cases ht

theorem ExprTree.isNumeral_of_expr {t : ExprTree} {names : String → String}
    (hnames : ∀ name, IsLegal (names name)) (h : (t.expr names).isNumeral = true) :
    t.isNumeral = true := by
  cases t with
  | default _ => rfl
  | atom a =>
      cases a with
      | number k => rfl
      | decimal x => rfl
      | name text => exact isUnsigned_of_expr (t := .atom (.name text)) hnames rfl h
      | truth b => exact isUnsigned_of_expr (t := .atom (.truth b)) hnames rfl h
      | null => exact isUnsigned_of_expr (t := .atom .null) hnames rfl h
  | unary o a =>
      cases o with
      | opposite =>
          rw [ExprTree.expr, UnaryOp.expr] at h
          cases ha : a.expr names with
          | leaf text =>
              rw [ha] at h
              exact a.isUnsigned_of_expr hnames ha h
          | _ =>
              rw [ha] at h
              cases h
      | negation => simp [ExprTree.expr, UnaryOp.expr, Cpp.Expr.isNumeral] at h
      | root => cases h
      | absolute => cases h
  | binary o a b => cases o <;> cases h
  | choice c a b => cases h

theorem Cpp.Expr.isNumeral_erase {e : Cpp.Expr} (h : e.isNumeral = true) :
    e.erase.isNumeral = true := by
  unfold Cpp.Expr.isNumeral at h
  split at h
  · exact h
  · exact h
  · cases h

/-- A text that is read as a plain number belongs to a number. -/
theorem Gives.isNumeral {t : ExprTree} {e : Expression} {d d' : Draft} (h : Gives d t e d')
    (hlegal : d'.names.variableScope.Assigns IsLegal)
    (hplain : (Block.plainNumber? e.text).isSome = true) : t.isNumeral = true := by
  obtain ⟨-, ⟨parse, hprints, herase⟩, -⟩ := h
  have hnumeral := Cpp.Expr.isNumeral_erase (hprints.numeral hplain)
  rw [herase d' (.refl d')] at hnumeral
  exact ExprTree.isNumeral_of_expr (Draft.isLegal_variableText hlegal) hnumeral

/-! ### Loops -/

section Loops

variable {w : Workspace} {n : Node} {d : Draft}

def Workspace.BodyFails (w : Workspace) (n : Node) (e : EmitError) : Prop :=
  ∃ d d', (w.chainText (Registry.standard.emitNode w w.program.size) (n.head? "DO")).run.run d =
    (.error e, d')

/-- A recipe goes on with the body of a loop. -/
theorem Recipe.body_ends {α : Type} {next : String → Recipe α} {post : α → Draft → Prop}
    (hnext : ∀ text d', d.LeadsTo d' → ((next text).perform w
      (Registry.standard.emitNode w w.program.size)).Ends d' (w.BodyFails n) post) :
    ((Recipe.body n "DO" >>= next).perform w
      (Registry.standard.emitNode w w.program.size)).Ends d (w.BodyFails n) post := by
  have hleads := Workspace.leads_chainSteps (w := w)
    (Registry.standard.leads_emitNode w w.program.size) w.program.size (n.head? "DO")
  have hends : (w.chainText (Registry.standard.emitNode w w.program.size) (n.head? "DO")).Ends d
      (w.BodyFails n) (fun _ d' => d.LeadsTo d') :=
    ⟨(hleads d).ok, fun e d' hrun => ⟨d, d', hrun⟩⟩
  exact hends.bind fun text d' => hnext _ d'

/-- A recipe goes on with the text of a bound, which stands without parentheses. -/
theorem Recipe.bound_ends {α : Type} {t : ExprTree} {name fallback : String}
    {fails : EmitError → Prop} {next : String → Recipe α} {post : α → Draft → Prop}
    (ht : w.program.Holds (n.child? name) fallback t) (hfallback : isWord fallback = true)
    (hd : d.names.variableScope.Worded)
    (hnext : ∀ e d', BlockSketch.Gives d t e d' → ((next e.text).perform w
      (Registry.standard.emitNode w w.program.size)).Ends d' fails post) :
    ((Recipe.socket n name .assignment fallback >>= next).perform w
      (Registry.standard.emitNode w w.program.size)).Ends d fails post :=
  (ht.yields (fun _ => hfallback) ht.height_le_size .assignment hd).ends.bind
    fun e d' he => hnext e d' (he.bare (by decide))

/-- The code of a node whose kind stands for statements. -/
theorem Registry.standard_emit_statement {kind : String} {b : Block}
    {recipe : Workspace → Node → Recipe String} {fails : EmitError → Prop}
    {post : Code → Draft → Prop} (hkind : n.kind = kind)
    (hb : standardBlocks.find? (fun b => b.kind = kind) = some b)
    (hform : b.form = .statement recipe)
    (h : ((recipe w n).perform w (Registry.standard.emitNode w w.program.size)).Ends d fails
      (fun text d' => post (.statement text) d')) :
    (Registry.standard.emit w n).Ends d fails post := by
  rw [Registry.emit, Registry.emitNode, Registry.standard_get? hkind hb]
  simp only [Form.perform, hform]
  exact h.bind fun text d' => Emit.ends_pure

/-- A comparison of a name with a bound is read as one if the bound is tighter than a comparison. -/
theorem Spans.readAs_comparison {t : ExprTree} {text sign : String} {ts : List Token}
    {parse : Cpp.Expr} {d' : Draft} (h : Spans t d text ts parse) (hleads : d.LeadsTo d')
    (hsign : binaryLevel? sign = some 4) (name : String) :
    ReadAs (.word name :: .sign sign :: ts)
        (.binary sign (.leaf name) (t.expr d'.variableText)) ↔
      t.precedence.level < Precedence.relational.level := by
  have hname : Derives (Cpp.Expr.leaf name).level [.word name] (.leaf name) := .word name
  rw [← h.erase d' hleads, ← Precedence.grade_le_three_iff, ← h.level]
  exact (readAs_binary_iff hsign (by decide) hname h.derives).trans
    (and_iff_right (Nat.zero_le _))

/-- An increase of a variable is read as one whatever the stride is. -/
theorem Spans.readAs_increase {t : ExprTree} {text : String} {ts : List Token}
    {parse : Cpp.Expr} {d' : Draft} (h : Spans t d text ts parse) (hleads : d.LeadsTo d')
    (name : String) :
    ReadAs (.word name :: .sign "+=" :: ts)
      (.binary "+=" (.leaf name) (t.expr d'.variableText)) := by
  have hname : Derives 7 [.word name] (.leaf name) := (Derives.word name).mono (by decide)
  have hstride : Derives 8 ts parse := h.derives.mono (h.level ▸ t.precedence.grade_le_eight)
  exact ⟨_, .increase hname hstride, congrArg _ (h.erase d' hleads)⟩

/-- The condition of a loop that runs a number of times. -/
theorem counted_loop_ends {times : ExprTree} (hkind : n.kind = "controls_repeat_ext")
    (htimes : w.program.Holds (n.child? "TIMES") "0" times) (hd : d.Reachable) :
    (Registry.standard.emit w n).Ends d (w.BodyFails n) (fun code d' => ∃ counter condition,
      code.IsLoop [.word "int", .word counter, .sign "=", .word "0"] condition
          [.word counter, .sign "++"] ∧
        (ReadAs condition (.binary "<" (.leaf counter) (times.expr d'.variableText)) ↔
          times.precedence.level < Precedence.relational.level)) := by
  refine Registry.standard_emit_statement hkind rfl rfl ?_
  refine Recipe.bound_ends htimes (by decide) hd.worded fun x d₁ hx => ?_
  obtain ⟨ts, parse, hspans⟩ := hx.spans
  refine (Emit.ends_edit d₁ (.freshVariable "count")).bind fun counter d₂ hcounter => ?_
  refine Recipe.body_ends fun code d₃ hleads => ?_
  have hlegal : IsLegal counter := by
    rw [show counter = (d₁.apply (.freshVariable "count")).1 from congrArg Prod.fst hcounter]
    exact Scope.isLegal_free _ _
  have hlater : d₁.LeadsTo d₃ := by
    rw [show d₂ = (d₁.apply (.freshVariable "count")).2 from congrArg Prod.snd hcounter] at hleads
    exact (d₁.leadsTo_apply _).trans hleads
  refine Emit.ends_pure ⟨counter, _, ⟨_, _, rfl, tokenize_countedHead hlegal hspans.spells, ?_⟩,
    hspans.readAs_comparison hlater (by decide) counter⟩
  have hnot := hspans.derives.semicolon_not_mem
  simp [hnot]

/-- If not all three numbers of a loop over numbers are plain, it counts up. -/
theorem Block.Control.rangeHead_eq {name start stop step : String}
    (h : ¬((plainNumber? start).isSome = true ∧ (plainNumber? stop).isSome = true ∧
      (plainNumber? step).isSome = true)) :
    rangeHead name start stop step = "for (int " ++ name ++ " = " ++ start ++ "; " ++ name ++
      " <= " ++ stop ++ "; " ++ name ++ " += " ++ step ++ ")" := by
  unfold rangeHead
  split
  next hstart hstop hstep => simp [hstart, hstop, hstep] at h
  next => rfl

/-- The head of a loop over numbers that are not all plain. -/
theorem isLoop_rangeHead {first last stride : ExprTree} {x y z : Expression}
    {d₀ d₁ d₂ d₃ d₄ : Draft} {name : String} (hname : IsLegal name) (hx : Gives d₀ first x d₁)
    (hy : Gives d₁ last y d₂) (hz : Gives d₂ stride z d₃) (hleads : d₃.LeadsTo d₄)
    (hplain : ¬((Block.plainNumber? x.text).isSome = true ∧
      (Block.plainNumber? y.text).isSome = true ∧ (Block.plainNumber? z.text).isSome = true))
    (body : String) :
    ∃ start condition step,
      (Code.statement (Block.withBody (Block.Control.rangeHead name x.text y.text z.text) body ++
          "\n")).IsLoop (.word "int" :: .word name :: .sign "=" :: start) condition step ∧
        ReadAs start (first.expr d₄.variableText) ∧
        (ReadAs condition (.binary "<=" (.leaf name) (last.expr d₄.variableText)) ↔
          last.precedence.level < Precedence.relational.level) ∧
        ReadAs step (.binary "+=" (.leaf name) (stride.expr d₄.variableText)) := by
  obtain ⟨fs, f, hf⟩ := hx.spans
  obtain ⟨ls, l, hl⟩ := hy.spans
  obtain ⟨ss, s, hs⟩ := hz.spans
  have hstart : Derives 8 fs f := hf.derives.mono (hf.level ▸ first.precedence.grade_le_eight)
  refine ⟨fs, _, _, ⟨_, body, rfl, ?_, ?_⟩,
    ⟨f, hstart, hf.erase d₄ (hy.1.trans (hz.1.trans hleads))⟩,
    hl.readAs_comparison (hz.1.trans hleads) (by decide) name, hs.readAs_increase hleads name⟩
  · rw [Block.Control.rangeHead_eq hplain]
    exact tokenize_rangeHead (.of_isLegal hname) hf.spells hl.spells hs.spells
  · have hnotf := hf.derives.semicolon_not_mem
    have hnotl := hl.derives.semicolon_not_mem
    have hnots := hs.derives.semicolon_not_mem
    simp [hnotf, hnotl, hnots]

/-- The condition and the step of a loop over numbers. -/
theorem range_loop_ends {first last stride : ExprTree} (hkind : n.kind = "controls_for")
    (hfirst : w.program.Holds (n.child? "FROM") "0" first)
    (hlast : w.program.Holds (n.child? "TO") "0" last)
    (hstride : w.program.Holds (n.child? "BY") "1" stride)
    (hplain : ¬(first.isNumeral = true ∧ last.isNumeral = true ∧ stride.isNumeral = true))
    (hd : d.Reachable) :
    (Registry.standard.emit w n).Ends d (w.BodyFails n) (fun code d' =>
      ∃ start condition step,
        code.IsLoop (.word "int" :: .word (d'.variableText (n.fieldD "VAR" "i")) :: .sign "=" ::
          start) condition step ∧
        ReadAs start (first.expr d'.variableText) ∧
        (ReadAs condition (.binary "<=" (.leaf (d'.variableText (n.fieldD "VAR" "i")))
            (last.expr d'.variableText)) ↔
          last.precedence.level < Precedence.relational.level) ∧
        ReadAs step (.binary "+=" (.leaf (d'.variableText (n.fieldD "VAR" "i")))
          (stride.expr d'.variableText))) := by
  refine Registry.standard_emit_statement hkind rfl rfl ?_
  refine (Emit.ends_edit d (.identifier (n.fieldD "VAR" "i") .variable)).bind
    fun name d₀ hname => ?_
  have hd₀ : d₀ = (d.identifier (n.fieldD "VAR" "i") .variable).2 := congrArg Prod.snd hname
  have hleads₀ : d.LeadsTo d₀ := hd₀ ▸ d.leadsTo_identifier _
  have hworded₀ := hleads₀.worded hd.worded
  refine Recipe.bound_ends hfirst (by decide) hworded₀ fun x d₁ hx => ?_
  have hworded₁ := hx.1.worded hworded₀
  refine Recipe.bound_ends hlast (by decide) hworded₁ fun y d₂ hy => ?_
  have hworded₂ := hy.1.worded hworded₁
  refine Recipe.bound_ends hstride (by decide) hworded₂ fun z d₃ hz => ?_
  refine Recipe.body_ends fun code d₄ hleads => ?_
  -- all names are legal, so the texts are plain numbers only if the trees are numbers
  have hlegal₁ : d₁.names.variableScope.Assigns IsLegal :=
    (hleads₀.trans hx.1).assigns _ Scope.isLegal_free (hd.assigns Scope.isLegal_free)
  have hlegal₂ := hy.1.assigns _ Scope.isLegal_free hlegal₁
  have hlegal₃ := hz.1.assigns _ Scope.isLegal_free hlegal₂
  have hlegal₄ := hleads.assigns _ Scope.isLegal_free hlegal₃
  have hlater : (d.identifier (n.fieldD "VAR" "i") .variable).2.LeadsTo d₄ :=
    hd₀ ▸ hx.1.trans (hy.1.trans (hz.1.trans hleads))
  have htext : d₄.variableText (n.fieldD "VAR" "i") = name :=
    hlater.variableText_eq.trans (congrArg Prod.fst hname).symm
  refine Emit.ends_pure ?_
  rw [htext]
  refine isLoop_rangeHead (htext ▸ Draft.isLegal_variableText hlegal₄ _) hx hy hz hleads ?_ _
  rintro ⟨hplainx, hplainy, hplainz⟩
  exact hplain ⟨hx.isNumeral hlegal₁ hplainx, hy.isNumeral hlegal₂ hplainy,
    hz.isNumeral hlegal₃ hplainz⟩

end Loops

/-- The condition of a loop is read as a comparison with the whole bound exactly if the bound has no
operator that is as loose as a comparison. If not all three numbers of a loop over numbers are
literals, its step is read as an increase by the whole stride in every case. There is no code for a
loop only if there is none for its body. -/
theorem loop_bounds_read_whole_iff_tight {w : Workspace} {d : Draft} (hd : d.Reachable) :
    (∀ (n : Node) (times : ExprTree), n.kind = "controls_repeat_ext" →
      w.program.Holds (n.child? "TIMES") "0" times →
      (Registry.standard.emit w n).Ends d (w.BodyFails n) (fun code d' => ∃ counter condition,
        code.IsLoop [.word "int", .word counter, .sign "=", .word "0"] condition
            [.word counter, .sign "++"] ∧
          (ReadAs condition (.binary "<" (.leaf counter) (times.expr d'.variableText)) ↔
            times.precedence.level < Precedence.relational.level))) ∧
    ∀ (n : Node) (first last stride : ExprTree), n.kind = "controls_for" →
      w.program.Holds (n.child? "FROM") "0" first → w.program.Holds (n.child? "TO") "0" last →
      w.program.Holds (n.child? "BY") "1" stride →
      ¬(first.isNumeral = true ∧ last.isNumeral = true ∧ stride.isNumeral = true) →
      (Registry.standard.emit w n).Ends d (w.BodyFails n) (fun code d' =>
        ∃ start condition step,
          code.IsLoop (.word "int" :: .word (d'.variableText (n.fieldD "VAR" "i")) :: .sign "=" ::
            start) condition step ∧
          ReadAs start (first.expr d'.variableText) ∧
          (ReadAs condition (.binary "<=" (.leaf (d'.variableText (n.fieldD "VAR" "i")))
              (last.expr d'.variableText)) ↔
            last.precedence.level < Precedence.relational.level) ∧
          ReadAs step (.binary "+=" (.leaf (d'.variableText (n.fieldD "VAR" "i")))
            (stride.expr d'.variableText))) :=
  ⟨fun _ _ hkind htimes => counted_loop_ends hkind htimes hd,
    fun _ _ _ _ hkind hfirst hlast hstride hplain =>
      range_loop_ends hkind hfirst hlast hstride hplain hd⟩

/-- A loop without a body has code. -/
theorem Emit.Ends.exists_of_empty {w : Workspace} {n : Node} {d : Draft}
    {post : Code → Draft → Prop} (h : (Registry.standard.emit w n).Ends d (w.BodyFails n) post)
    (hempty : n.head? "DO" = none) :
    ∃ code d', (Registry.standard.emit w n).run.run d = (.ok code, d') ∧ post code d' := by
  rcases hrun : (Registry.standard.emit w n).run.run d with ⟨result, d'⟩
  cases result with
  | ok code => exact ⟨code, d', rfl, h.ok code d' hrun⟩
  | error e =>
      obtain ⟨d₁, d₂, hbody⟩ := h.error e d' hrun
      have hnone (count : Nat) :
          w.chainSteps (Registry.standard.emitNode w w.program.size) count none = pure "" := by
        cases count <;> rfl
      rw [hempty, Workspace.chainText, hnone] at hbody
      cases hbody

def repeatOfSum : Node where
  id := ⟨1⟩
  kind := "controls_repeat_ext"
  values := [{ name := "TIMES", child := some ⟨2⟩ }]

def repeatOfComparison : Node where
  id := ⟨3⟩
  kind := "controls_repeat_ext"
  values := [{ name := "TIMES", child := some ⟨4⟩ }]

def rangeToSum : Node where
  id := ⟨5⟩
  kind := "controls_for"
  values := [{ name := "TO", child := some ⟨6⟩ }, { name := "BY", child := some ⟨7⟩ }]

def rangeToComparison : Node where
  id := ⟨8⟩
  kind := "controls_for"
  values := [{ name := "TO", child := some ⟨9⟩ }]

def loopsSample : Program where
  nodes :=
    [repeatOfSum,
      { id := ⟨2⟩, kind := "math_arithmetic" },
      repeatOfComparison,
      { id := ⟨4⟩, kind := "logic_compare" },
      rangeToSum,
      { id := ⟨6⟩, kind := "math_arithmetic" },
      { id := ⟨7⟩, kind := "logic_ternary" },
      rangeToComparison,
      { id := ⟨9⟩, kind := "logic_compare" }]
  topLevel := [⟨1⟩, ⟨3⟩, ⟨5⟩, ⟨8⟩]

theorem loopsSample_bounds_read_whole :
    let w : Workspace := ⟨loopsSample, .empty, .empty, .uno⟩
    (∃ code d', (Registry.standard.emit w repeatOfSum).run.run { diagnostics := .empty } =
        (.ok code, d') ∧ ∃ counter condition,
      code.IsLoop [.word "int", .word counter, .sign "=", .word "0"] condition
          [.word counter, .sign "++"] ∧
        ReadAs condition (.binary "<" (.leaf counter) (.binary "+" (.leaf "0") (.leaf "0")))) ∧
    ∃ code d', (Registry.standard.emit w rangeToSum).run.run { diagnostics := .empty } =
        (.ok code, d') ∧ ∃ start condition step,
      code.IsLoop (.word "int" :: .word (d'.variableText "i") :: .sign "=" :: start) condition
          step ∧
        ReadAs start (.leaf "0") ∧
        ReadAs condition (.binary "<=" (.leaf (d'.variableText "i"))
          (.binary "+" (.leaf "0") (.leaf "0"))) ∧
        ReadAs step (.binary "+=" (.leaf (d'.variableText "i"))
          (.cond (.leaf "false") (.leaf "NULL") (.leaf "NULL"))) := by
  intro w
  have htimes : loopsSample.Holds (repeatOfSum.child? "TIMES") "0"
      (.binary .plus (.default "0") (.default "0")) :=
    .binary rfl (by decide) (.default "0") (.default "0")
  have hlast : loopsSample.Holds (rangeToSum.child? "TO") "0"
      (.binary .plus (.default "0") (.default "0")) :=
    .binary rfl (by decide) (.default "0") (.default "0")
  have hstride : loopsSample.Holds (rangeToSum.child? "BY") "1"
      (.choice (.default "false") (.default "NULL") (.default "NULL")) :=
    .choice rfl (by decide) (.default "false") (.default "NULL") (.default "NULL")
  obtain ⟨hcounted, hrange⟩ := loop_bounds_read_whole_iff_tight (w := w) (.start .empty)
  obtain ⟨code, d', hrun, counter, condition, hloop, hiff⟩ :=
    (hcounted repeatOfSum _ rfl htimes).exists_of_empty rfl
  obtain ⟨code', d'', hrun', start, condition', step, hloop', hstart, hiff', hstep⟩ :=
    (hrange rangeToSum _ _ _ rfl (.default "0") hlast hstride (by decide)).exists_of_empty rfl
  exact ⟨⟨code, d', hrun, counter, condition, hloop, hiff.mpr (by decide)⟩,
    code', d'', hrun', start, condition', step, hloop', hstart, hiff'.mpr (by decide), hstep⟩

theorem loopsSample_bounds_fall_apart :
    let w : Workspace := ⟨loopsSample, .empty, .empty, .uno⟩
    (∃ code d', (Registry.standard.emit w repeatOfComparison).run.run { diagnostics := .empty } =
        (.ok code, d') ∧ ∃ counter condition,
      code.IsLoop [.word "int", .word counter, .sign "=", .word "0"] condition
          [.word counter, .sign "++"] ∧
        ¬ReadAs condition (.binary "<" (.leaf counter) (.binary "==" (.leaf "0") (.leaf "0")))) ∧
    ∃ code d', (Registry.standard.emit w rangeToComparison).run.run { diagnostics := .empty } =
        (.ok code, d') ∧ ∃ start condition step,
      code.IsLoop (.word "int" :: .word (d'.variableText "i") :: .sign "=" :: start) condition
          step ∧
        ¬ReadAs condition (.binary "<=" (.leaf (d'.variableText "i"))
          (.binary "==" (.leaf "0") (.leaf "0"))) := by
  intro w
  have htimes : loopsSample.Holds (repeatOfComparison.child? "TIMES") "0"
      (.binary .equal (.default "0") (.default "0")) :=
    .binary rfl (by decide) (.default "0") (.default "0")
  have hlast : loopsSample.Holds (rangeToComparison.child? "TO") "0"
      (.binary .equal (.default "0") (.default "0")) :=
    .binary rfl (by decide) (.default "0") (.default "0")
  obtain ⟨code, d', hrun, counter, condition, hloop, hiff⟩ :=
    (counted_loop_ends (w := w) (n := repeatOfComparison) rfl htimes
      (.start .empty)).exists_of_empty rfl
  obtain ⟨code', d'', hrun', start, condition', step, hloop', -, hiff', -⟩ :=
    (range_loop_ends (w := w) (n := rangeToComparison) rfl (.default "0") hlast (.default "1")
      (by decide) (.start .empty)).exists_of_empty rfl
  exact ⟨⟨code, d', hrun, counter, condition, hloop, fun hread =>
      absurd (hiff.mp hread) (by decide)⟩,
    code', d'', hrun', start, condition', step, hloop', fun hread =>
      absurd (hiff'.mp hread) (by decide)⟩

end BlockSketch
