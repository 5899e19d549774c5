import BlockSketch.Proofs.Expression.RoundTrip

/-!
Operands at loose places. Some blocks ask for their operands at a level that every operator is
tighter than, and put the texts next to operators of their own: the bounds of a value, and the array
of a subscript. Such an operand is read as one only if its outermost operator happens to be tight
enough; otherwise the text falls apart in another way than the tree.
-/

namespace BlockSketch

open Cpp

namespace Precedence

theorem grade_le_four_iff {p : Precedence} : p.grade ≤ 4 ↔ p.level ≤ relational.level := by
  grind [grade, relational]

theorem grade_le_three_iff {p : Precedence} : p.grade ≤ 3 ↔ p.level < relational.level := by
  grind [grade, relational]

theorem grade_eq_zero_iff {p : Precedence} : p.grade = 0 ↔ p.level ≤ call.level := by
  grind [grade, call]

end Precedence

theorem ExprTree.precedence_le (t : ExprTree) :
    t.precedence.level ≤ Precedence.conditional.level := by
  have hsigned (p : Prop) [Decidable p] :
      (if p then Precedence.unary else .atomic).level ≤ Precedence.conditional.level := by
    split <;> decide
  cases t with
  | default text => exact Nat.zero_le _
  | atom a =>
      cases a with
      | number k => exact hsigned _
      | decimal x => exact hsigned _
      | _ => exact Nat.zero_le _
  | unary o a => cases o <;> exact Nat.le_of_ble_eq_true rfl
  | binary o a b => cases o <;> exact Nat.le_of_ble_eq_true rfl
  | choice c a b => exact Nat.le_refl _

/-! ### Bare operands -/

section Bare

variable {w : Workspace} {d d' : Draft} {t : ExprTree} {e : Expression} {required : Precedence}

/-- At a loose place no tree gets parentheses. -/
theorem GivesAt.bare (h : GivesAt d t required e d')
    (hrequired : Precedence.conditional.level < required.level) : Gives d t e d' := by
  obtain ⟨bare, hgives, rfl⟩ := h
  have hlt : bare.precedence.level < required.level := by
    rw [hgives.2.2]
    exact Nat.lt_of_le_of_lt t.precedence_le hrequired
  rwa [Expression.wrapped_of_lt hlt]

/-- The tokens of a text, and their parse, whose outermost operator is that of a tree. -/
structure Spans (t : ExprTree) (d : Draft) (text : String) (ts : List Token) (parse : Cpp.Expr) :
    Prop where
  spells : Spells text ts
  derives : Derives parse.level ts parse
  level : parse.level = t.precedence.grade
  erase : ∀ d', d.LeadsTo d' → parse.erase = t.expr d'.variableText

theorem Gives.spans (h : Gives d t e d') : ∃ ts parse, Spans t d' e.text ts parse := by
  obtain ⟨-, ⟨parse, hprints, herase⟩, hprecedence⟩ := h
  obtain ⟨ts, hspells, hderives⟩ := hprints.derives
  rw [← hprints.tight] at hderives
  exact ⟨ts, parse, hspells, hderives, by rw [hprints.tight, hprecedence], herase⟩

/-- A recipe goes on with the text of a tree in a socket. -/
theorem Recipe.socket_yields {α : Type} {n : Node} {name fallback : String}
    {next : String → Recipe α} {post : α → Draft → Prop}
    (ht : w.program.Holds (n.child? name) fallback t)
    (hfallback : n.child? name = none → Identifier.isWord fallback = true)
    (hd : d.names.variableScope.Worded)
    (hnext : ∀ e d', GivesAt d t required e d' → ((next e.text).perform w
      (Registry.standard.emitNode w w.program.size)).Yields d' post) :
    ((Recipe.socket n name required fallback >>= next).perform w
      (Registry.standard.emitNode w w.program.size)).Yields d post :=
  (ht.yields hfallback ht.height_le_size required hd).bind hnext

/-- The code of a node whose kind stands for values. -/
theorem Registry.standard_emit_value {n : Node} {kind : String} {b : Block}
    {recipe : Workspace → Node → Recipe Expression} {post : Expression → Draft → Prop}
    (hkind : n.kind = kind) (hb : standardBlocks.find? (fun b => b.kind = kind) = some b)
    (hform : b.form = .value recipe)
    (h : ((recipe w n).perform w (Registry.standard.emitNode w w.program.size)).Yields d post) :
    ∃ e d', (Registry.standard.emit w n).run.run d = (.ok (.value e), d') ∧ post e d' := by
  have hyields : (Registry.standard.emit w n).Yields d
      (fun code d' => ∃ e, code = .value e ∧ post e d') := by
    rw [Registry.emit, Registry.emitNode, Registry.standard_get? hkind hb]
    simp only [Form.perform, hform]
    exact h.bind fun e d' he => Emit.yields_pure ⟨e, rfl, he⟩
  obtain ⟨_, d', hrun, e, rfl, he⟩ := hyields
  exact ⟨e, d', hrun, he⟩

end Bare

/-! ### A value between bounds -/

variable {w : Workspace} {d : Draft} {n : Node}

def clampText (x low high : String) : String :=
  "(" ++ x ++ " < " ++ low ++ " ? " ++ low ++ " : ( " ++ x ++ " > " ++ high ++ " ? " ++ high ++
    " : " ++ x ++ "))"

theorem spells_clamp {x low high : String} {vs ls hs : List Token} (hv : Spells x vs)
    (hl : Spells low ls) (hh : Spells high hs) :
    Spells (clampText x low high) (clampTokens vs ls hs) := by
  have htext : clampText x low high =
      "(" ++ (x ++ " " ++ "<" ++ " " ++ low ++ " " ++ "?" ++ " " ++ low ++ " " ++ ":" ++ " " ++
        ("(" ++ (" " ++ (x ++ " " ++ ">" ++ " " ++ high ++ " " ++ "?" ++ " " ++ high ++ " " ++
          ":" ++ " " ++ x)) ++ ")")) ++ ")" := by
    unfold clampText
    exact String.ext (by simp)
  rw [htext]
  have hinner := ((hv.binary (by decide : ">" ∈ spacedSigns) hh).binary
    (by decide : "?" ∈ spacedSigns) hh).binary (by decide : ":" ∈ spacedSigns) hv
  exact (((hv.binary (by decide : "<" ∈ spacedSigns) hl).binary
    (by decide : "?" ∈ spacedSigns) hl).binary (by decide : ":" ∈ spacedSigns)
      hinner.blank.paren).paren

theorem readAs_clamp_text {value low high : ExprTree} {x y z : Expression} {d₁ d₂ d₃ d₄ : Draft}
    (hx : Gives d₁ value x d₂) (hy : Gives d₂ low y d₃) (hz : Gives d₃ high z d₄) :
    ReadAs (tokenize (clampText x.text y.text z.text)) (.clamp (value.expr d₄.variableText)
        (low.expr d₄.variableText) (high.expr d₄.variableText)) ↔
      value.precedence.level ≤ Precedence.relational.level ∧
        low.precedence.level < Precedence.relational.level ∧
        high.precedence.level < Precedence.relational.level := by
  obtain ⟨vs, v, hv⟩ := hx.spans
  obtain ⟨ls, l, hl⟩ := hy.spans
  obtain ⟨hs, h, hh⟩ := hz.spans
  rw [(spells_clamp hv.spells hl.spells hh.spells).tokenize_eq, ← hv.erase d₄ (hy.1.trans hz.1),
    ← hl.erase d₄ hz.1, ← hh.erase d₄ (.refl d₄), readAs_clamp_iff hv.derives hl.derives hh.derives,
    hv.level, hl.level, hh.level, Precedence.grade_le_four_iff, Precedence.grade_le_three_iff,
    Precedence.grade_le_three_iff]

/-- A value between bounds is read whole if none of the three has an operator that is looser than
the comparison next to it. -/
theorem readAs_clamp {value low high : ExprTree} (hkind : n.kind = "math_constrain")
    (hvalue : w.program.Holds (n.child? "VALUE") "0" value)
    (hlow : w.program.Holds (n.child? "LOW") "0" low)
    (hhigh : w.program.Holds (n.child? "HIGH") "0" high) (hd : d.Reachable) :
    ∃ e d', (Registry.standard.emit w n).run.run d = (.ok (.value e), d') ∧
      (ReadAs (tokenize e.text) (.clamp (value.expr d'.variableText) (low.expr d'.variableText)
          (high.expr d'.variableText)) ↔
        value.precedence.level ≤ Precedence.relational.level ∧
          low.precedence.level < Precedence.relational.level ∧
          high.precedence.level < Precedence.relational.level) := by
  have hzero : Identifier.isWord "0" = true := by decide
  have hloose : Precedence.conditional.level < Precedence.loosest.level := by decide
  refine Registry.standard_emit_value hkind rfl rfl ?_
  refine Recipe.socket_yields hvalue (fun _ => hzero) hd.worded fun x d₁ hx => ?_
  have hx := hx.bare hloose
  have hd₁ := hx.1.worded hd.worded
  refine Recipe.socket_yields hlow (fun _ => hzero) hd₁ fun y d₂ hy => ?_
  have hy := hy.bare hloose
  have hd₂ := hy.1.worded hd₁
  refine Recipe.socket_yields hhigh (fun _ => hzero) hd₂ fun z d₃ hz => ?_
  exact Emit.yields_pure (readAs_clamp_text hx hy (hz.bare hloose))

/-! ### An element of an array -/

/-- The index in a sketch is an expression, also where a number was made to count from zero. -/
theorem exists_spells_shifted {t : ExprTree} {e : Expression} {d' : Draft} (h : Gives d t e d') :
    ∃ ts parse, Spells (Block.Arrays.shifted e.text) ts ∧ Derives 9 ts parse := by
  rw [Block.Arrays.shifted]
  split
  next x _ =>
      obtain ⟨digits, hdigits, htext | htext⟩ := x.pred.isLiteral_text
      · rw [htext]
        exact ⟨_, _, spells_leaf hdigits, (Derives.word digits).mono (by decide)⟩
      · rw [htext]
        exact ⟨_, _, (spells_leaf hdigits).unary (.inl rfl) hdigits.opens,
          (Derives.unary (by decide) (.loosen (.word digits))).mono (by decide)⟩
  next =>
      obtain ⟨ts, parse, hspans⟩ := h.spans
      refine ⟨ts, parse, hspans.spells, hspans.derives.mono ?_⟩
      rw [hspans.level]
      exact Nat.le_succ_of_le t.precedence.grade_le_eight

/-- An element is read as an element of the whole array if the array has no operator. -/
theorem readAs_index {id : NodeId} {array position : ExprTree} (hkind : n.kind = "array_getIndex")
    (hchild : n.child? "VAR" = some id) (harray : w.program.Holds (some id) "\x7b\x7d" array)
    (hposition : w.program.Holds (n.child? "AT") "1" position) (hd : d.Reachable) :
    ∃ e d', (Registry.standard.emit w n).run.run d = (.ok (.value e), d') ∧
      ((∃ i, ReadAs (tokenize e.text) (.index (array.expr d'.variableText) i)) ↔
        array.precedence.level ≤ Precedence.call.level) := by
  refine Registry.standard_emit_value hkind rfl rfl ?_
  refine Recipe.socket_yields hposition (fun _ => by decide) hd.worded fun x d₁ hx => ?_
  have hx := hx.bare (by decide)
  have hd₁ := hx.1.worded hd.worded
  rw [← hchild] at harray
  refine Recipe.socket_yields harray (fun hnone => by rw [hchild] at hnone; cases hnone) hd₁
    fun y d₂ hy => ?_
  obtain ⟨is, i, hspells, hderives⟩ := exists_spells_shifted hx
  obtain ⟨ts, parse, hspans⟩ := (hy.bare (by decide)).spans
  refine Emit.yields_pure ?_
  change (∃ i, ReadAs (tokenize (y.text ++ "[" ++ Block.Arrays.shifted x.text ++ "]")) _) ↔ _
  rw [(hspans.spells.index hspells).tokenize_eq, ← hspans.erase d₂ (.refl d₂),
    readAs_index_iff hspans.derives hderives, hspans.level, Precedence.grade_eq_zero_iff]

/-- The operands of a value between bounds and the array of a subscript are read as the trees that
they are exactly if their outermost operators are tight enough for the operators next to them. In
every case there is code for the node. -/
theorem loose_operands_read_whole_iff_tight {w : Workspace} {d : Draft} (hd : d.Reachable) :
    (∀ (n : Node) (value low high : ExprTree), n.kind = "math_constrain" →
      w.program.Holds (n.child? "VALUE") "0" value → w.program.Holds (n.child? "LOW") "0" low →
      w.program.Holds (n.child? "HIGH") "0" high →
      ∃ e d', (Registry.standard.emit w n).run.run d = (.ok (.value e), d') ∧
        (ReadAs (tokenize e.text) (.clamp (value.expr d'.variableText) (low.expr d'.variableText)
            (high.expr d'.variableText)) ↔
          value.precedence.level ≤ Precedence.relational.level ∧
            low.precedence.level < Precedence.relational.level ∧
            high.precedence.level < Precedence.relational.level)) ∧
    ∀ (n : Node) (id : NodeId) (array position : ExprTree), n.kind = "array_getIndex" →
      n.child? "VAR" = some id → w.program.Holds (some id) "\x7b\x7d" array →
      w.program.Holds (n.child? "AT") "1" position →
      ∃ e d', (Registry.standard.emit w n).run.run d = (.ok (.value e), d') ∧
        ((∃ i, ReadAs (tokenize e.text) (.index (array.expr d'.variableText) i)) ↔
          array.precedence.level ≤ Precedence.call.level) :=
  ⟨fun _ _ _ _ hkind hvalue hlow hhigh => readAs_clamp hkind hvalue hlow hhigh hd,
    fun _ _ _ _ hkind hchild harray hposition => readAs_index hkind hchild harray hposition hd⟩

def clampOfSum : Node where
  id := ⟨1⟩
  kind := "math_constrain"
  values := [{ name := "VALUE", child := some ⟨2⟩ }]

def clampOfComparison : Node where
  id := ⟨4⟩
  kind := "math_constrain"
  values := [{ name := "VALUE", child := some ⟨5⟩ }]

def elementOfVariable : Node where
  id := ⟨6⟩
  kind := "array_getIndex"
  values := [{ name := "VAR", child := some ⟨7⟩ }]

def elementOfSum : Node where
  id := ⟨8⟩
  kind := "array_getIndex"
  values := [{ name := "VAR", child := some ⟨9⟩ }]

/-- Values between bounds and elements of arrays, with operands that are tight enough and with
operands that are not. -/
def boundsSample : Program where
  nodes :=
    [clampOfSum,
      { id := ⟨2⟩, kind := "math_arithmetic", values := [{ name := "B", child := some ⟨3⟩ }] },
      { id := ⟨3⟩, kind := "math_number", fields := .ofList [("NUM", "-2")] },
      clampOfComparison,
      { id := ⟨5⟩, kind := "logic_compare" },
      elementOfVariable,
      { id := ⟨7⟩, kind := "variables_get", fields := .ofList [("VAR", "xs")] },
      elementOfSum,
      { id := ⟨9⟩, kind := "math_arithmetic" }]
  topLevel := [⟨1⟩, ⟨4⟩, ⟨6⟩, ⟨8⟩]

theorem boundsSample_operands_read_whole :
    let w : Workspace := ⟨boundsSample, .empty, .empty, .uno⟩
    (∃ e d', (Registry.standard.emit w clampOfSum).run.run { diagnostics := .empty } =
        (.ok (.value e), d') ∧
      ReadAs (tokenize e.text) (.clamp (.binary "+" (.leaf "0") (.unary "-" (.leaf "2")))
        (.leaf "0") (.leaf "0"))) ∧
    ∃ e d', (Registry.standard.emit w elementOfVariable).run.run { diagnostics := .empty } =
        (.ok (.value e), d') ∧
      ∃ i, ReadAs (tokenize e.text) (.index (.leaf (d'.variableText "xs")) i) := by
  intro w
  have hsum : boundsSample.Holds (clampOfSum.child? "VALUE") "0"
      (.binary .plus (.default "0") (.atom (.number (-2)))) :=
    .binary rfl (by decide) (.default "0") (.atom rfl (by decide))
  have hvariable : boundsSample.Holds (some ⟨7⟩) "\x7b\x7d" (.atom (.name "xs")) :=
    .atom rfl (by decide)
  obtain ⟨hclamp, hindex⟩ := loose_operands_read_whole_iff_tight (w := w) (.start .empty)
  obtain ⟨e, d', hrun, hiff⟩ := hclamp clampOfSum _ _ _ rfl hsum (.default "0") (.default "0")
  obtain ⟨e', d'', hrun', hiff'⟩ := hindex elementOfVariable _ _ _ rfl rfl hvariable (.default "1")
  exact ⟨⟨e, d', hrun, hiff.mpr (by decide)⟩, e', d'', hrun', hiff'.mpr (by decide)⟩

theorem boundsSample_operands_fall_apart :
    let w : Workspace := ⟨boundsSample, .empty, .empty, .uno⟩
    (∃ e d', (Registry.standard.emit w clampOfComparison).run.run { diagnostics := .empty } =
        (.ok (.value e), d') ∧
      ¬ReadAs (tokenize e.text) (.clamp (.binary "==" (.leaf "0") (.leaf "0"))
        (.leaf "0") (.leaf "0"))) ∧
    ∃ e d', (Registry.standard.emit w elementOfSum).run.run { diagnostics := .empty } =
        (.ok (.value e), d') ∧
      ¬∃ i, ReadAs (tokenize e.text) (.index (.binary "+" (.leaf "0") (.leaf "0")) i) := by
  intro w
  have hcomparison : boundsSample.Holds (clampOfComparison.child? "VALUE") "0"
      (.binary .equal (.default "0") (.default "0")) :=
    .binary rfl (by decide) (.default "0") (.default "0")
  have hsum : boundsSample.Holds (some ⟨9⟩) "\x7b\x7d"
      (.binary .plus (.default "0") (.default "0")) :=
    .binary rfl (by decide) (.default "0") (.default "0")
  obtain ⟨e, d', hrun, hiff⟩ := readAs_clamp (w := w) (n := clampOfComparison) rfl hcomparison
    (.default "0") (.default "0") (.start .empty)
  obtain ⟨e', d'', hrun', hiff'⟩ := readAs_index (w := w) (n := elementOfSum) rfl rfl hsum
    (.default "1") (.start .empty)
  exact ⟨⟨e, d', hrun, fun hread => absurd (hiff.mp hread) (by decide)⟩, e', d'', hrun',
    fun hread => absurd (hiff'.mp hread) (by decide)⟩

end BlockSketch
