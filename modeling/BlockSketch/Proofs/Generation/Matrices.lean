import BlockSketch.Proofs.Block.Numbering
import BlockSketch.Proofs.Expression.Commas
import BlockSketch.Proofs.Expression.LoopHeads
import BlockSketch.Proofs.Generation.GlobalObjects
import BlockSketch.Proofs.Generation.WellSorted

/-!
Declarations of matrices over a whole run. A matrix is declared with the extents that are read off
the text of its rows, so an opening brace in an item counts as a row, and a comma in an item of the
first row as a column. Expression trees have no braces, and commas only for powers: a matrix of
trees is declared with one column more for each power in its first row.
-/

namespace BlockSketch

open Block

/-! ### Matrices in programs -/

def Program.IsList (p : Program) (id : NodeId) (count : Nat) (item : Nat → NodeId) : Prop :=
  ∃ n, p.find? id = some n ∧ n.kind = "array_create_with" ∧ countSockets n "ADD" = count ∧
    ∀ i < count, n.child? ("ADD" ++ toString i) = some (item i)

/-- A node declares an array of two dimensions whose content is a list of rows of equal length. -/
structure Program.DeclaresMatrix (p : Program) (n : Node) (rows columns : Nat)
    (cell : Nat → Nat → NodeId) : Prop where
  kind : n.kind = "array_declare"
  given : n.fieldD "choix" "c1" = "c2"
  planar : n.fieldD "dim" "d1" = "d2"
  content : ∃ content row, n.child? "contenu" = some content ∧ p.IsList content rows row ∧
    ∀ i < rows, p.IsList (row i) columns (cell i)

/-! ### What a journal tells of them -/

def Workspace.ItemTold (w : Workspace) (told : List Entry) (child : Option NodeId)
    (text : String) : Prop :=
  ∃ e, w.ValueTold told child .comma "0" e ∧ text = e.text

def Workspace.MatrixTold (w : Workspace) (told : List Entry) (rows columns : Nat)
    (cell : Nat → Nat → NodeId) (texts : List (List String)) : Prop :=
  List.Forall₂ (fun i => List.Forall₂ (fun k => w.ItemTold told (some (cell i k)))
    (List.range columns)) (List.range rows) texts

namespace Block.Arrays

variable {w : Workspace} {n : Node} {past : List Entry}

def ListTold (w : Workspace) (n : Node) (past : List Entry) (code : Code) : Prop :=
  ∃ items, List.Forall₂ (fun i => w.ItemTold past (n.child? ("ADD" ++ toString i)))
    (List.range (countSockets n "ADD")) items ∧ code = .value (.atomic (listText items))

def declaration (n : Node) (name content : String) : String :=
  (elementType n).declaration ++ " " ++ name ++ dimensions n content ++ ";"

def DeclarationTold (w : Workspace) (n : Node) (past : List Entry) : Prop :=
  ∃ (e : Expression) (name : String), w.ValueTold past (n.child? "contenu") .assignment "" e ∧
    .edited (.identifier (n.fieldD "VAR" "") .variable) name ∈ past ∧
    ⟨name, declaration n name e.text, true⟩ ∈ placements .globals past

def Told (w : Workspace) (n : Node) (past : List Entry) (code : Code) : Prop :=
  (n.kind = "array_create_with" → ListTold w n past code) ∧
    (n.kind = "array_declare" → DeclarationTold w n past)

theorem lasting_itemTold (w : Workspace) (child : Option NodeId) :
    Lasting fun past text => w.ItemTold past child text := by
  rintro past past' text hsub ⟨e, he, htext⟩
  exact ⟨e, he.mono hsub, htext⟩

theorem lasting_told (w : Workspace) (n : Node) : Lasting (Told w n) := by
  rintro past past' code hsub ⟨hlist, hdeclaration⟩
  refine ⟨fun hkind => ?_, fun hkind => ?_⟩
  · obtain ⟨items, hitems, hcode⟩ := hlist hkind
    exact ⟨items, hitems.imp fun i text h => lasting_itemTold w _ hsub h, hcode⟩
  · obtain ⟨e, name, he, hname, hplaced⟩ := hdeclaration hkind
    exact ⟨e, name, he.mono hsub, hsub hname, placements_subset hsub hplaced⟩

theorem tells_listTold (past : List Entry) :
    (list n).Tells w (fun _ _ => True) (fun past e => ListTold w n past (.value e)) past := by
  have hitems := tells_indexedSockets (w := w) (n := n) (s := .items n) rfl past
  refine Recipe.tells_bind.mpr (hitems.mono fun past' items _ hitems => ?_)
  refine ⟨items, hitems.imp ?_, rfl⟩
  rintro i text ⟨e, he, htext⟩
  exact ⟨e, he, (List.cons.inj (show [text] = [e.text] from htext)).1⟩

theorem tells_declare (past : List Entry) :
    (declare n).Tells w (fun _ _ => True) (fun past _ => DeclarationTold w n past) past := by
  refine Recipe.tells_bind.mpr fun past' e _ he => Recipe.tells_bind.mpr ⟨trivial, fun name => ?_⟩
  refine Recipe.tells_bind.mpr ⟨trivial, fun stored => ?_⟩
  refine ⟨e, name, ?_, ?_, mem_placements_edited .globals ⟨name, _, true⟩ _ stored⟩
  · exact (he.mono (List.subset_append_left _ _)).mono (List.subset_append_left _ _)
  · exact List.mem_append_left _ (List.mem_append_right _ List.mem_cons_self)

end Block.Arrays

theorem Registry.standard_tellsArrays {w : Workspace} {n : Node} {b : Block}
    (hb : standard.get? n.kind = some b) :
    b.form.Tells w (fun _ _ => True) (Arrays.Told w n) n := by
  by_cases hlist : n.kind = "array_create_with"
  · obtain rfl := Option.some.inj ((standard_get? hlist rfl).symm.trans hb)
    refine fun past => (Arrays.tells_listTold past).mono fun past' e _ he => ⟨fun _ => he, ?_⟩
    exact fun hdeclare => absurd (hlist.symm.trans hdeclare) (by decide)
  by_cases hdeclare : n.kind = "array_declare"
  · obtain rfl := Option.some.inj ((standard_get? hdeclare rfl).symm.trans hb)
    exact fun past => (Arrays.tells_declare past).mono fun past' _ _ htold =>
      ⟨fun hkind => absurd hkind hlist, fun _ => htold⟩
  · exact (b.form.tells_trivial w n).mono fun _ _ _ =>
      ⟨fun hkind => absurd hkind hlist, fun hkind => absurd hkind hdeclare⟩

/-! ### Texts of lists -/

/-- Witnesses for the members of a list, collected. -/
theorem exists_forall₂_map {α β γ : Type} {R : α → γ → Prop} {f : γ → β} {l : List α}
    {bs : List β} (h : List.Forall₂ (fun a b => ∃ c, R a c ∧ b = f c) l bs) :
    ∃ cs, List.Forall₂ R l cs ∧ bs = cs.map f := by
  induction h with
  | nil => exact ⟨[], .nil, rfl⟩
  | cons hb _ ih =>
      obtain ⟨c, hc, rfl⟩ := hb
      obtain ⟨cs, hcs, rfl⟩ := ih
      exact ⟨c :: cs, .cons hc hcs, rfl⟩

section Lists

variable {w : Workspace} {told : List Entry}

/-- The text of a list is put together from the texts of its items. -/
theorem Program.IsList.exists_items {id : NodeId} {count : Nat} {item : Nat → NodeId}
    (h : w.program.IsList id count item)
    (harrays : ∀ n code, .coded n code ∈ told → Arrays.Told w n told code)
    {required : Precedence} {fallback : String} {e : Expression}
    (he : w.ValueTold told (some id) required fallback e) :
    ∃ items, List.Forall₂ (fun i => w.ItemTold told (some (item i))) (List.range count) items ∧
      e.text = Arrays.listText items := by
  obtain ⟨n, hn, hkind, rfl, hitem⟩ := h
  obtain ⟨m, e', hm, hcode, rfl⟩ := he
  obtain rfl := Option.some.inj (hn.symm.trans hm)
  obtain ⟨items, hitems, hvalue⟩ := (harrays n _ hcode).1 hkind
  cases hvalue
  refine ⟨items, ?_, ?_⟩
  · have hchildren : ∀ i ∈ List.range (countSockets n "ADD"),
        n.child? ("ADD" ++ toString i) = some (item i) :=
      fun i hi => hitem i (List.mem_range.mp hi)
    exact ((List.forall₂_and_left _ _).mpr ⟨hchildren, hitems⟩).imp fun i text ⟨hchild, htext⟩ =>
      hchild ▸ htext
  · have hne : (Arrays.listText items).isEmpty = false := by
      simp [Arrays.listText, braced]
    rw [Expression.wrapped_atomic]
    simp [Expression.atomic, hne]

/-- The text of a matrix is put together from the texts of its items. -/
theorem Program.DeclaresMatrix.exists_texts {n : Node} {rows columns : Nat}
    {cell : Nat → Nat → NodeId} (h : w.program.DeclaresMatrix n rows columns cell)
    (harrays : ∀ n code, .coded n code ∈ told → Arrays.Told w n told code) {e : Expression}
    (he : w.ValueTold told (n.child? "contenu") .assignment "" e) :
    ∃ texts, w.MatrixTold told rows columns cell texts ∧ e.text = Arrays.matrixText texts := by
  obtain ⟨content, row, hcontent, hlist, hrows⟩ := h.content
  rw [hcontent] at he
  obtain ⟨items, hitems, htext⟩ := hlist.exists_items harrays he
  have hrow : ∀ i ∈ List.range rows, w.program.IsList (row i) columns (cell i) :=
    fun i hi => hrows i (List.mem_range.mp hi)
  have hitems' := ((List.forall₂_and_left _ _).mpr ⟨hrow, hitems⟩).imp
    fun i text ⟨hrow, e, he, htext⟩ => by
      obtain ⟨cells, hcells, hlist⟩ := hrow.exists_items harrays he
      exact (⟨cells, hcells, htext.trans hlist⟩ : ∃ cells,
        List.Forall₂ (fun k => w.ItemTold told (some (cell i k))) (List.range columns) cells ∧
          text = Arrays.listText cells)
  obtain ⟨texts, htexts, rfl⟩ := exists_forall₂_map hitems'
  exact ⟨texts, htexts, htext⟩

end Lists

/-! ### Extents -/

open Text

def Block.Arrays.matrixDeclaration (n : Node) (name : String) (counted : Nat × Nat)
    (content : String) : String :=
  (elementType n).declaration ++ " " ++ name ++ "[" ++ toString counted.1 ++ "][" ++
    toString counted.2 ++ "] = " ++ content ++ ";"

theorem Program.DeclaresMatrix.declaration_eq {p : Program} {n : Node} {rows columns : Nat}
    {cell : Nat → Nat → NodeId} (h : p.DeclaresMatrix n rows columns cell) (name content : String) :
    Arrays.declaration n name content =
      Arrays.matrixDeclaration n name (Arrays.extents content) content := by
  have hdimensions : Arrays.dimensions n content =
      "[" ++ toString (Arrays.extents content).1 ++ "][" ++
        toString (Arrays.extents content).2 ++ "] = " ++ content := by
    rw [Arrays.dimensions, h.given, h.planar]
    rfl
  rw [Arrays.declaration, hdimensions, Arrays.matrixDeclaration]
  exact String.ext (by simp)

/-- A text is put among the variables under a name, and stands there unless another text has taken
its place. -/
structure Journal.Puts (j : Journal) (name text : String) : Prop where
  placed : ⟨name, text, true⟩ ∈ placements .globals j.entries
  stands : (∀ q ∈ placements .globals j.entries, q.key = name → q.overwrite = true →
    q.text = text) → j.draft.sections.globals.get? name = some text

theorem Journal.Replays.puts {j : Journal} (h : j.Replays) {name text : String}
    (hplaced : ⟨name, text, true⟩ ∈ placements .globals j.entries) : j.Puts name text := by
  refine ⟨hplaced, fun honly => ?_⟩
  obtain ⟨q, hq, hstanding, hoverwrite⟩ :=
    Placement.exists_standing? (Placement.mem_under.mpr ⟨hplaced, rfl⟩)
  obtain ⟨hmem, hkey⟩ := Placement.mem_under.mp hq
  have hget := h.get?_eq (by decide : Section.globals ≠ .functions) name
  rw [hstanding, honly q hmem hkey (hoverwrite rfl)] at hget
  exact hget

/-- What is related to the numbers below a positive one is not empty, and its first member is
related to zero. -/
theorem exists_cons_of_forall₂_range {α : Type} {R : Nat → α → Prop} {count : Nat} {l : List α}
    (h : List.Forall₂ R (List.range count) l) (hcount : 0 < count) :
    ∃ first rest, l = first :: rest ∧ R 0 first := by
  obtain ⟨more, rfl⟩ := Nat.exists_eq_succ_of_ne_zero (Nat.ne_of_gt hcount)
  rw [List.range_succ_eq_map] at h
  cases h with
  | cons hfirst _ => exact ⟨_, _, rfl, hfirst⟩

/-- Items that are flat have no braces, and as many commas as they should. -/
theorem unbraced_and_commas_of_flat {l : List Nat} {items : List String} {count : Nat → Nat}
    (h : List.Forall₂ (fun k text => Flat text (count k)) l items) :
    (∀ item ∈ items, Unbraced item) ∧ (items.map commas).sum = (l.map count).sum := by
  induction h with
  | nil => exact ⟨fun _ hitem => (List.not_mem_nil hitem).elim, rfl⟩
  | cons hflat _ ih =>
      refine ⟨List.forall_mem_cons.mpr ⟨hflat.unbraced, ih.1⟩, ?_⟩
      rw [List.map_cons, List.map_cons, List.sum_cons, List.sum_cons, hflat.commas, ih.2]

theorem openings_of_flat {l columns : List Nat} {rows : List (List String)}
    {count : Nat → Nat → Nat}
    (h : List.Forall₂ (fun i => List.Forall₂ (fun k text => Flat text (count i k)) columns) l
      rows) : (rows.flatten.map openings).sum = 0 := by
  induction h with
  | nil => rfl
  | cons hrow _ ih =>
      rw [List.flatten_cons, List.map_append, List.sum_append, ih, Nat.add_zero]
      refine List.sum_eq_zero fun count hcount => ?_
      obtain ⟨item, hitem, rfl⟩ := List.mem_map.mp hcount
      exact openings_of_unbraced ((unbraced_and_commas_of_flat hrow).1 item hitem)

section Texts

variable {w : Workspace} {told : List Entry} {rows columns : Nat} {cell : Nat → Nat → NodeId}
  {texts : List (List String)}

/-- The extents of a matrix, by the texts of its items. -/
theorem Workspace.MatrixTold.extents_eq (h : w.MatrixTold told rows columns cell texts)
    (hrows : 0 < rows) :
    Arrays.extents (Arrays.matrixText texts) = (rows + (texts.flatten.map openings).sum,
      leadingCommas (", ".intercalate (texts.headD [])) + 1) := by
  have hlength : texts.length = rows := by rw [← List.Forall₂.length_eq h, List.length_range]
  obtain ⟨first, rest, rfl, -⟩ := exists_cons_of_forall₂_range h hrows
  rw [Arrays.extents_matrixText, hlength]
  rfl

/-- The columns of a matrix without braces in its first row. -/
theorem Workspace.MatrixTold.columns_eq (h : w.MatrixTold told rows columns cell texts)
    (hrows : 0 < rows) (hcolumns : 0 < columns)
    (hunbraced : ∀ item ∈ texts.headD [], Unbraced item) :
    leadingCommas (", ".intercalate (texts.headD [])) + 1 =
      columns + ((texts.headD []).map commas).sum := by
  obtain ⟨first, rest, rfl, hfirst⟩ := exists_cons_of_forall₂_range h hrows
  have hlength : first.length = columns := by rw [← hfirst.length_eq, List.length_range]
  rw [List.headD_cons] at hunbraced ⊢
  rw [Arrays.columns_of_unbraced (List.length_pos_iff.mp (hlength ▸ hcolumns)) hunbraced, hlength]

/-- The items of a matrix of expression trees have a comma for each power in them. -/
theorem Workspace.MatrixTold.flat (h : w.MatrixTold told rows columns cell texts)
    {tree : Nat → Nat → ExprTree}
    (htree : ∀ i < rows, ∀ k < columns, w.program.Holds (some (cell i k)) "0" (tree i k))
    (htrees : ∀ n code, .coded n code ∈ told → n.TreeTold w told code)
    (hnames : ∀ name x, .edited (.identifier name .variable) x ∈ told → Cpp.IsLeaf x) :
    List.Forall₂ (fun i => List.Forall₂ (fun k text => Flat text (tree i k).powers)
      (List.range columns)) (List.range rows) texts := by
  refine ((List.forall₂_and_left _ _).mpr ⟨fun _ hi => hi, h⟩).imp fun i row ⟨hi, hrow⟩ => ?_
  refine ((List.forall₂_and_left _ _).mpr ⟨fun _ hk => hk, hrow⟩).imp fun k text ⟨hk, hitem⟩ => ?_
  obtain ⟨e, he, rfl⟩ := hitem
  have hholds := htree i (List.mem_range.mp hi) k (List.mem_range.mp hk)
  exact hholds.flat htrees hnames (by decide) he

end Texts

/-- In every program that compiles, each emitted declaration of a matrix puts a text among the
variables under the identifier of the array, and the text stands there unless another one has taken
its place. The extents in it are counted in the texts of the items: there is a row more for each
opening brace in an item, and the columns are one more than the commas before the first brace of the
first row. Without braces in the first row, there is a column more for each comma in an item there.
If all items are expression trees, there are no more rows, and a column more for each power in the
first row. -/
theorem matrix_extents_count_braces_and_commas {p : Program} {board : Board} {header : Bool}
    {c : Compiled} (h : Registry.standard.compile p board header = .ok c) :
    ∃ places body j, Registry.standard.Ran p board header c places body j ∧
      let w : Workspace := ⟨p, places, c.types, board⟩
      ∀ n code rows columns cell, .coded n code ∈ j.entries →
        p.DeclaresMatrix n rows columns cell → 0 < rows → 0 < columns →
        ∃ name texts counted,
          j.Told (n.fieldD "VAR" "") name ∧ w.MatrixTold j.entries rows columns cell texts ∧
          j.Puts name (Arrays.matrixDeclaration n name counted (Arrays.matrixText texts)) ∧
          counted.1 = rows + (texts.flatten.map openings).sum ∧
          counted.2 = leadingCommas (", ".intercalate (texts.headD [])) + 1 ∧
          ((∀ item ∈ texts.headD [], Unbraced item) →
            counted.2 = columns + ((texts.headD []).map commas).sum) ∧
          ∀ tree : Nat → Nat → ExprTree,
            (∀ i < rows, ∀ k < columns, p.Holds (some (cell i k)) "0" (tree i k)) →
              counted =
                (rows, columns + ((List.range columns).map fun k => (tree 0 k).powers).sum) := by
  obtain ⟨places, body, j, hran⟩ := Registry.exists_ran h
  refine ⟨places, body, j, hran, ?_⟩
  intro w n code rows columns cell hcode hmatrix hrows hcolumns
  have harrays (n : Node) (code : Code) (hcode : .coded n code ∈ j.entries) :
      Arrays.Told w n j.entries code :=
    hran.suits (Arrays.lasting_told w) (fun _ _ hb => Registry.standard_tellsArrays hb) hcode
  obtain ⟨e, name, he, hname, hplaced⟩ := (harrays n code hcode).2 hmatrix.kind
  obtain ⟨texts, htexts, htext⟩ := hmatrix.exists_texts (w := w) harrays he
  rw [htext, hmatrix.declaration_eq, htexts.extents_eq hrows] at hplaced
  have hcolumn := htexts.columns_eq hrows hcolumns
  refine ⟨name, texts, _, hname, htexts, hran.furnished.1.replays.puts hplaced, rfl, rfl, hcolumn,
    fun tree htree => ?_⟩
  have htrees (n : Node) (code : Code) (hcode : .coded n code ∈ j.entries) :
      n.TreeTold w j.entries code :=
    hran.suits (Node.lasting_treeTold w) (fun _ _ hb => Registry.standard_tellsTree hb) hcode
  obtain ⟨past, hpast⟩ := (Registry.accounts_journalProgram hran.run).names
  have hflat := htexts.flat htree htrees fun name x hx => .of_isLegal (hpast.legal_of_told hx).1
  obtain ⟨first, rest, rfl, hfirst⟩ := exists_cons_of_forall₂_range hflat hrows
  obtain ⟨hunbraced, hcommas⟩ := unbraced_and_commas_of_flat hfirst
  rw [openings_of_flat hflat, hcolumn hunbraced, List.headD_cons, hcommas]
  rfl

def pairNode (id first second : NodeId) : Node :=
  { id, kind := "array_create_with",
    values := [{ name := "ADD0", child := some first }, { name := "ADD1", child := some second }] }

/-- A matrix of two rows and two columns, whose first item is an operation on two empty sockets. -/
def matrixSample (operation : String) : Program where
  variableNames := ["y", "m"]
  nodes :=
    [{ id := ⟨1⟩, kind := "array_declare",
       fields := .ofList [("VAR", "m"), ("choix", "c2"), ("dim", "d2")],
       values := [{ name := "contenu", child := some ⟨2⟩ }] },
      pairNode ⟨2⟩ ⟨3⟩ ⟨4⟩, pairNode ⟨3⟩ ⟨5⟩ ⟨6⟩, pairNode ⟨4⟩ ⟨7⟩ ⟨8⟩,
      { id := ⟨5⟩, kind := "math_arithmetic", fields := .ofList [("OP", operation)] },
      { id := ⟨6⟩, kind := "math_number", fields := .ofList [("NUM", "-2")] },
      Inference.readingNode ⟨7⟩ "y",
      { id := ⟨8⟩, kind := "math_number", fields := .ofList [("NUM", "5")] }]
  topLevel := [⟨1⟩]

def matrixSample.cell (i k : Nat) : NodeId := ⟨UInt32.ofNat (5 + 2 * i + k)⟩

theorem isList_pairNode {p : Program} {id first second : NodeId} {item : Nat → NodeId}
    (h : p.find? id = some (pairNode id first second)) (hfirst : item 0 = first)
    (hsecond : item 1 = second) : p.IsList id 2 item := by
  refine ⟨_, h, rfl, by simp [countSockets, pairNode], fun i hi => ?_⟩
  obtain rfl | rfl : i = 0 ∨ i = 1 := by omega
  · rw [hfirst]
    rfl
  · rw [hsecond]
    rfl

theorem matrixSample.exists_declarer (operation : String) :
    ∃ n, (matrixSample operation).find? ⟨1⟩ = some n ∧
      (matrixSample operation).DeclaresMatrix n 2 2 cell := by
  refine ⟨_, rfl, rfl, rfl, rfl, ⟨2⟩, fun i => if i = 0 then ⟨3⟩ else ⟨4⟩, rfl,
    isList_pairNode rfl rfl rfl, fun i hi => ?_⟩
  obtain rfl | rfl : i = 0 ∨ i = 1 := by omega
  · exact isList_pairNode rfl rfl rfl
  · exact isList_pairNode rfl rfl rfl

theorem matrixSample.compiles {operation : String} (h : operation ∈ ["MINUS", "POWER"]) :
    ∃ c, Registry.standard.compile (matrixSample operation) .uno false = .ok c := by
  have hsorted : (matrixSample operation).WellSorted Registry.standard := by
    obtain rfl | rfl := List.mem_pair.mp h
    all_goals
      constructor <;>
        simp only [Registry.mem_kinds_iff, Registry.mem_valueKinds_iff,
          Registry.mem_statementKinds_iff, Registry.isValueKind, Registry.standard,
          Registry.get?_ofList, Program.IsInput, Program.IsStep] <;>
        decide
  rcases Registry.compile_cases Registry.standard_readsOnce (p := matrixSample operation) rfl .uno
    false with h | ⟨e, -, he⟩
  · exact h
  · exact absurd he hsorted.not_misfit

/-- With a difference as its first item, the matrix is declared with its extents. -/
theorem matrixSample_declared_with_extents :
    ∃ n c places body j, (matrixSample "MINUS").find? ⟨1⟩ = some n ∧
      (matrixSample "MINUS").DeclaresMatrix n 2 2 matrixSample.cell ∧
      Registry.standard.compile (matrixSample "MINUS") .uno false = .ok c ∧
      Registry.standard.Ran (matrixSample "MINUS") .uno false c places body j ∧
      ∃ name texts, j.Told "m" name ∧
        Workspace.MatrixTold ⟨matrixSample "MINUS", places, c.types, .uno⟩ j.entries 2 2
          matrixSample.cell texts ∧
        j.Puts name (Arrays.matrixDeclaration n name (2, 2) (Arrays.matrixText texts)) := by
  obtain ⟨c, hc⟩ := matrixSample.compiles (by simp : "MINUS" ∈ ["MINUS", "POWER"])
  obtain ⟨n, hn, hmatrix⟩ := matrixSample.exists_declarer "MINUS"
  obtain ⟨places, body, j, hran, hmatrices⟩ := matrix_extents_count_braces_and_commas hc
  obtain ⟨code, hcode⟩ := hran.furnished.2.exists_coded List.mem_cons_self hn
  obtain ⟨name, texts, counted, hname, htexts, hputs, -, -, -, htrees⟩ :=
    hmatrices n code 2 2 matrixSample.cell hcode hmatrix (by decide) (by decide)
  -- all items are trees, and none of them has a power
  have hcounted : counted = (2, 2) := by
    refine htrees (fun i k => if i = 0 then
      if k = 0 then .binary .minus (.default "0") (.default "0") else .atom (.number (-2))
      else if k = 0 then .atom (.name "y") else .atom (.number 5)) fun i hi k hk => ?_
    obtain rfl | rfl : i = 0 ∨ i = 1 := by omega
    · obtain rfl | rfl : k = 0 ∨ k = 1 := by omega
      · exact .binary rfl rfl (.default "0") (.default "0")
      · exact .atom rfl rfl
    · obtain rfl | rfl : k = 0 ∨ k = 1 := by omega
      · exact .atom rfl rfl
      · exact .atom rfl rfl
  subst hcounted
  have hvar : n.fieldD "VAR" "" = "m" := by
    cases hn
    rfl
  rw [hvar] at hname
  exact ⟨n, c, places, body, j, hn, hmatrix, hc, hran, name, texts, hname, htexts, hputs⟩

/-- With a power as its first item, the same matrix is declared with three columns. -/
theorem matrixSample_declared_with_third_column :
    ∃ n c, (matrixSample "POWER").find? ⟨1⟩ = some n ∧
      (matrixSample "POWER").DeclaresMatrix n 2 2 matrixSample.cell ∧
      Registry.standard.compile (matrixSample "POWER") .uno false = .ok c ∧
      c.sketch.source =
        "int y;\nint m[2][3] = \x7b\x7bpow(0, 0), -2\x7d, \x7by, 5\x7d\x7d;\n\n" ++
          "void setup() \x7b\n\x7d\n\nvoid loop() \x7b\n\x7d\n" := by
  obtain ⟨c, hc⟩ := matrixSample.compiles (by simp : "POWER" ∈ ["MINUS", "POWER"])
  obtain ⟨n, hn, hmatrix⟩ := matrixSample.exists_declarer "POWER"
  obtain ⟨places, body, j, hran⟩ := Registry.exists_ran hc
  refine ⟨n, c, hn, hmatrix, hc, ?_⟩
  have htypes : (Registry.standard.inferTypes (matrixSample "POWER")).map =
      ⟨.ofList [("m", .array)], .ofList [("m", .number)]⟩ := by
    have hmentions : Inference.mentions (Registry.standard.probe (matrixSample "POWER"))
        Registry.standard.mentions? = [(⟨1⟩, .array "m" .number)] := by
      rw [Registry.probe, Registry.typing?_standard, Registry.mentions?_standard]
      rfl
    rw [Registry.inferTypes, Inference.run, hmentions]
    rfl
  have hrun := hran.run_eq rfl ((Registry.types_of_compile hc).trans htypes)
  have hsource := congrArg (fun r => r.1.toOption.map r.2.draft.source) hrun
  rw [hran.source_eq]
  exact Option.some.inj (hsource.symm.trans (by decide +kernel))

end BlockSketch
