import BlockSketch.Emission.Expression
import BlockSketch.Number.Shortest
import BlockSketch.Proofs.Cpp.Grammar
import BlockSketch.Proofs.Program.Forest
import BlockSketch.Text.Blank

/-!
Expression trees. The blocks for numbers, variables, truth values and their operators make trees, in
which an empty socket is a leaf with the default of its place. A tree is what a program holds at a
node; it is no higher than the program has nodes. Each tree has an expression of C++ that it stands
for.
-/

namespace BlockSketch

inductive Atom where
  | number (k : Int)
  /-- A number that is no whole number of 64 bits. -/
  | decimal (x : Double)
  /-- The value of a variable. -/
  | name (text : String)
  | truth (b : Bool)
  | null
  deriving DecidableEq, Repr

inductive UnaryOp where
  | opposite
  | negation
  | root
  | absolute
  deriving DecidableEq, Repr

inductive BinaryOp where
  | plus
  | minus
  | times
  | dividedBy
  | modulo
  | power
  | equal
  | unequal
  | less
  | lessEqual
  | greater
  | greaterEqual
  | both
  | either
  deriving DecidableEq, Repr

inductive ExprTree where
  /-- An empty socket with the default of its place. -/
  | default (text : String)
  | atom (a : Atom)
  | unary (o : UnaryOp) (a : ExprTree)
  | binary (o : BinaryOp) (a b : ExprTree)
  | choice (c a b : ExprTree)
  deriving DecidableEq, Repr

/-! ### Trees in programs -/

/-- The number that a text spells. A text that is no number stands for zero. -/
def Atom.ofNumber (text : String) : Atom :=
  match Text.readLong? (Text.trim text), Double.read? (Text.trim text) with
  | some k, _ => .number k
  | none, some x => if x.isFinite then .decimal x else .number 0
  | none, none => .number 0

def BinaryOp.arithmetic : String → BinaryOp
  | "MINUS" => minus
  | "MULTIPLY" => times
  | "DIVIDE" => dividedBy
  | "POWER" => power
  | _ => plus

def BinaryOp.comparison : String → BinaryOp
  | "NEQ" => unequal
  | "LT" => less
  | "LTE" => lessEqual
  | "GT" => greater
  | "GTE" => greaterEqual
  | _ => equal

def BinaryOp.connective : String → BinaryOp
  | "OR" => either
  | _ => both

def UnaryOp.function? : String → Option UnaryOp
  | "NEG" => some opposite
  | "ROOT" => some root
  | "ABS" => some absolute
  | _ => none

inductive Shape where
  | atom (a : Atom)
  | unary (o : UnaryOp)
  | binary (o : BinaryOp)
  | choice
  deriving DecidableEq, Repr

def Node.shape? (n : Node) : Option Shape :=
  match n.kind with
  | "math_number" => some (.atom (.ofNumber (n.fieldD "NUM" "0")))
  | "variables_get" => some (.atom (.name (n.fieldD "VAR" "")))
  | "logic_boolean" => some (.atom (.truth (n.fieldD "BOOL" "FALSE" = "TRUE")))
  | "logic_null" => some (.atom .null)
  | "math_arithmetic" => some (.binary (.arithmetic (n.fieldD "OP" "ADD")))
  | "math_modulo" => some (.binary .modulo)
  | "math_single" => (UnaryOp.function? (n.fieldD "OP" "ROOT")).map .unary
  | "logic_compare" => some (.binary (.comparison (n.fieldD "OP" "EQ")))
  | "logic_operation" => some (.binary (.connective (n.fieldD "OP" "AND")))
  | "logic_negate" => some (.unary .negation)
  | "logic_ternary" => some .choice
  | _ => none

def UnaryOp.operand : UnaryOp → String × String
  | opposite | root | absolute => ("NUM", "0")
  | negation => ("BOOL", "false")

def BinaryOp.operands : BinaryOp → String × String
  | modulo => ("DIVIDEND", "DIVISOR")
  | _ => ("A", "B")

def BinaryOp.fallback : BinaryOp → String
  | both | either => "false"
  | _ => "0"

/-- A program holds a tree at a place where a node may hang. -/
inductive Program.Holds (p : Program) : Option NodeId → String → ExprTree → Prop where
  | default (fallback : String) : p.Holds none fallback (.default fallback)
  | atom {id : NodeId} {n : Node} {a : Atom} {fallback : String} (hn : p.find? id = some n)
      (hshape : n.shape? = some (.atom a)) : p.Holds (some id) fallback (.atom a)
  | unary {id : NodeId} {n : Node} {o : UnaryOp} {fallback : String} {a : ExprTree}
      (hn : p.find? id = some n) (hshape : n.shape? = some (.unary o))
      (ha : p.Holds (n.child? o.operand.1) o.operand.2 a) : p.Holds (some id) fallback (.unary o a)
  | binary {id : NodeId} {n : Node} {o : BinaryOp} {fallback : String} {a b : ExprTree}
      (hn : p.find? id = some n) (hshape : n.shape? = some (.binary o))
      (ha : p.Holds (n.child? o.operands.1) o.fallback a)
      (hb : p.Holds (n.child? o.operands.2) o.fallback b) :
      p.Holds (some id) fallback (.binary o a b)
  | choice {id : NodeId} {n : Node} {fallback : String} {c a b : ExprTree}
      (hn : p.find? id = some n) (hshape : n.shape? = some .choice)
      (hc : p.Holds (n.child? "IF") "false" c) (ha : p.Holds (n.child? "THEN") "NULL" a)
      (hb : p.Holds (n.child? "ELSE") "NULL" b) : p.Holds (some id) fallback (.choice c a b)

/-! ### What trees stand for -/

/-- The sign of an operator. A power has none: it is a call. -/
def BinaryOp.sign? : BinaryOp → Option String
  | plus => some "+"
  | minus => some "-"
  | times => some "*"
  | dividedBy => some "/"
  | modulo => some "%"
  | power => none
  | equal => some "=="
  | unequal => some "!="
  | less => some "<"
  | lessEqual => some "<="
  | greater => some ">"
  | greaterEqual => some ">="
  | both => some "&&"
  | either => some "||"

def Cpp.literal (text : String) : Cpp.Expr :=
  match text.toList with
  | '-' :: digits => .unary "-" (.leaf (String.ofList digits))
  | _ => .leaf text

/-- The expression of a number. A negative one is a minus sign in front of its absolute value. -/
def Atom.expr (names : String → String) : Atom → Cpp.Expr
  | number k =>
      if k < 0 then .unary "-" (.leaf (toString k.natAbs)) else .leaf (toString k.natAbs)
  | decimal x => Cpp.literal x.text
  | name text => .leaf (names text)
  | truth b => .leaf (if b then "true" else "false")
  | null => .leaf "NULL"

def UnaryOp.expr (a : Cpp.Expr) : UnaryOp → Cpp.Expr
  | opposite => .unary "-" a
  | negation => .unary "!" a
  | root => .call (.leaf "sqrt") a
  | absolute => .call (.leaf "abs") a

def BinaryOp.expr (o : BinaryOp) (a b : Cpp.Expr) : Cpp.Expr :=
  match o.sign? with
  | some sign => .binary sign a b
  | none => .call (.leaf "pow") (.binary "," a b)

/-- The expression that a tree stands for, given the identifiers of the variables. It has no
parentheses. -/
def ExprTree.expr (names : String → String) : ExprTree → Cpp.Expr
  | default text => .leaf text
  | atom a => a.expr names
  | unary o a => o.expr (a.expr names)
  | binary o a b => o.expr (a.expr names) (b.expr names)
  | choice c a b => .cond (c.expr names) (a.expr names) (b.expr names)

/-! ### The outermost operator -/

def BinaryOp.required : BinaryOp → Precedence
  | plus | minus => .additive
  | times | dividedBy | modulo => .multiplicative
  | power => .loosest
  | equal | unequal => .equality
  | less | lessEqual | greater | greaterEqual => .relational
  | both => .conjunction
  | either => .disjunction

/-- The level of the outermost operator of a tree. A minus sign of a number counts as one. -/
def ExprTree.precedence : ExprTree → Precedence
  | default _ | atom (.name _) | atom (.truth _) | atom .null => .atomic
  | atom (.number k) => if k < 0 then .unary else .atomic
  | atom (.decimal x) => if x.text.toList.head? = some '-' then .unary else .atomic
  | unary .opposite _ | unary .negation _ => .unary
  | unary .root _ | unary .absolute _ => .call
  | binary .power _ _ => .call
  | binary o _ _ => o.required
  | choice _ _ _ => .conditional

/-! ### The height of trees -/

def ExprTree.height : ExprTree → Nat
  | default _ => 0
  | atom _ => 1
  | unary _ a => a.height + 1
  | binary _ a b => max a.height b.height + 1
  | choice c a b => max c.height (max a.height b.height) + 1

namespace Program.Holds

variable {p : Program} {child : Option NodeId} {id : NodeId} {fallback fallback' : String}
  {t t' : ExprTree}

/-- The default of a place counts only where nothing hangs. -/
theorem change_fallback (h : p.Holds (some id) fallback t) : p.Holds (some id) fallback' t := by
  cases h with
  | atom hn ha => exact .atom hn ha
  | unary hn ho ha => exact .unary hn ho ha
  | binary hn ho ha hb => exact .binary hn ho ha hb
  | choice hn ho hc ha hb => exact .choice hn ho hc ha hb

/-- The tree at a node is what its shape says. -/
theorem of_shape {n : Node} {s : Shape} (h : p.Holds (some id) fallback t)
    (hn : p.find? id = some n) (hshape : n.shape? = some s) :
    match s with
    | .atom a => t = .atom a
    | .unary o => ∃ a, t = .unary o a ∧ p.Holds (n.child? o.operand.1) o.operand.2 a
    | .binary o => ∃ a b, t = .binary o a b ∧ p.Holds (n.child? o.operands.1) o.fallback a ∧
        p.Holds (n.child? o.operands.2) o.fallback b
    | .choice => ∃ c a b, t = .choice c a b ∧ p.Holds (n.child? "IF") "false" c ∧
        p.Holds (n.child? "THEN") "NULL" a ∧ p.Holds (n.child? "ELSE") "NULL" b := by
  cases h with
  | atom hn' hshape' =>
      obtain rfl := Option.some.inj (hn.symm.trans hn')
      obtain rfl := Option.some.inj (hshape.symm.trans hshape')
      rfl
  | unary hn' hshape' ha =>
      obtain rfl := Option.some.inj (hn.symm.trans hn')
      obtain rfl := Option.some.inj (hshape.symm.trans hshape')
      exact ⟨_, rfl, ha⟩
  | binary hn' hshape' ha hb =>
      obtain rfl := Option.some.inj (hn.symm.trans hn')
      obtain rfl := Option.some.inj (hshape.symm.trans hshape')
      exact ⟨_, _, rfl, ha, hb⟩
  | choice hn' hshape' hc ha hb =>
      obtain rfl := Option.some.inj (hn.symm.trans hn')
      obtain rfl := Option.some.inj (hshape.symm.trans hshape')
      exact ⟨_, _, _, rfl, hc, ha, hb⟩

/-- A place has one tree. -/
theorem unique (h : p.Holds child fallback t) (h' : p.Holds child fallback t') : t = t' := by
  induction h generalizing t' with
  | default fallback =>
      cases h'
      rfl
  | atom hn hshape => exact (h'.of_shape hn hshape).symm
  | unary hn hshape _ iha =>
      obtain ⟨a, rfl, ha⟩ := h'.of_shape hn hshape
      rw [iha ha]
  | binary hn hshape _ _ iha ihb =>
      obtain ⟨a, b, rfl, ha, hb⟩ := h'.of_shape hn hshape
      rw [iha ha, ihb hb]
  | choice hn hshape _ _ _ ihc iha ihb =>
      obtain ⟨c, a, b, rfl, hc, ha, hb⟩ := h'.of_shape hn hshape
      rw [ihc hc, iha ha, ihb hb]

/-- There is a way down of some length through different nodes, whose trees are no higher than that
length. -/
def HasWay (p : Program) (length : Nat) : Prop :=
  ∃ path : List NodeId, path.length = length ∧ path.Nodup ∧
    ∀ x ∈ path, (∃ n ∈ p.nodes, n.id = x) ∧
      ∃ fallback s, p.Holds (some x) fallback s ∧ s.height ≤ length

theorem HasWay.max {m k : Nat} (hm : HasWay p m) (hk : HasWay p k) : HasWay p (max m k) := by
  rcases Nat.le_total m k with hle | hle
  · rwa [Nat.max_eq_right hle]
  · rwa [Nat.max_eq_left hle]

/-- A node goes in front of a way down that starts below it. It cannot be on the way: its tree is
higher than all trees there. -/
theorem HasWay.cons {length : Nat} (hway : HasWay p length) (h : p.Holds (some id) fallback t)
    {n : Node} (hn : p.find? id = some n) (hheight : t.height = length + 1) :
    HasWay p t.height := by
  obtain ⟨path, hlength, hnodup, hpath⟩ := hway
  refine ⟨id :: path, by rw [List.length_cons, hlength, hheight],
    List.nodup_cons.mpr ⟨?_, hnodup⟩, List.forall_mem_cons.mpr ⟨?_, ?_⟩⟩
  · intro hmem
    obtain ⟨-, fallback', s, hs, hle⟩ := hpath id hmem
    rw [unique hs.change_fallback h] at hle
    omega
  · exact ⟨⟨n, mem_of_find? hn, id_of_find? hn⟩, fallback, t, h, Nat.le_refl _⟩
  · intro x hx
    obtain ⟨hexists, fallback', s, hs, hle⟩ := hpath x hx
    exact ⟨hexists, fallback', s, hs, by omega⟩

theorem hasWay (h : p.Holds child fallback t) : HasWay p t.height := by
  have hempty : HasWay p 0 := ⟨[], rfl, List.nodup_nil, by simp⟩
  induction h with
  | default fallback => exact hempty
  | @atom id n a fallback hn hshape =>
      have hself : p.Holds (some id) fallback (.atom a) := .atom hn hshape
      exact hempty.cons hself hn rfl
  | @unary id n o fallback a hn hshape ha iha =>
      have hself : p.Holds (some id) fallback (.unary o a) := .unary hn hshape ha
      exact iha.cons hself hn rfl
  | @binary id n o fallback a b hn hshape ha hb iha ihb =>
      have hself : p.Holds (some id) fallback (.binary o a b) := .binary hn hshape ha hb
      exact (iha.max ihb).cons hself hn rfl
  | @choice id n fallback c a b hn hshape hc ha hb ihc iha ihb =>
      have hself : p.Holds (some id) fallback (.choice c a b) := .choice hn hshape hc ha hb
      exact (ihc.max (iha.max ihb)).cons hself hn rfl

/-- A tree is no higher than its program has nodes. -/
theorem height_le_size (h : p.Holds child fallback t) : t.height ≤ p.size := by
  obtain ⟨path, hlength, hnodup, hpath⟩ := h.hasWay
  have hsub : path ⊆ p.nodes.map (·.id) := by
    intro x hx
    obtain ⟨n, hn, rfl⟩ := (hpath x hx).1
    exact List.mem_map_of_mem hn
  calc
    t.height = path.length := hlength.symm
    _ ≤ (p.nodes.map (·.id)).length := (List.subperm_of_subset hnodup hsub).length_le
    _ = p.size := List.length_map _

end Program.Holds

end BlockSketch
