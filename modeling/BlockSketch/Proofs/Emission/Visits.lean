import BlockSketch.Proofs.Block.Registry
import BlockSketch.Proofs.Block.Sockets
import BlockSketch.Proofs.Emission.Observed
import BlockSketch.Proofs.Program.Regions
import BlockSketch.Proofs.Program.Validation

/-!
Emission of a forest visits no node twice. Each part of emission keeps to its own region of the
program: a value to what hangs in its node, a chain to what its head leads to. Regions of different
sockets have no node in common, so the visits of the parts are different, and the way down is no
longer than the number of nodes. The errors that are left all come from a kind that is unknown or
stands in the wrong place.
-/

namespace BlockSketch

/-! ### Events in a region -/

def Event.visited? : Event → Option NodeId
  | visit node _ => some node
  | cut _ => none

def visited (events : List Event) : List NodeId := events.filterMap Event.visited?

/-- Events that visit nodes of a region at most once each and at most so deep, and that give up no
chain. -/
structure Tidy (region : NodeId → Prop) (limit : Nat) (events : List Event) : Prop where
  once : (visited events).Nodup
  inside : ∀ id ∈ visited events, region id
  shallow : ∀ id depth, .visit id depth ∈ events → depth ≤ limit
  uncut : ∀ id, .cut id ∉ events

namespace Tidy

variable {region region' : NodeId → Prop} {limit : Nat} {events events' : List Event}

theorem nil : Tidy region limit [] := by
  constructor <;> simp [visited]

theorem visit {id : NodeId} {depth : Nat} (h : depth ≤ limit) :
    Tidy (· = id) limit [.visit id depth] := by
  constructor
  · simp [visited, Event.visited?]
  · simp [visited, Event.visited?]
  · intro id' depth' hmem
    obtain ⟨-, rfl⟩ : id' = id ∧ depth' = depth := by simpa using hmem
    exact h
  · simp

theorem mono (h : Tidy region limit events) (hregion : ∀ id, region id → region' id) :
    Tidy region' limit events :=
  ⟨h.once, fun id hid => hregion id (h.inside id hid), h.shallow, h.uncut⟩

/-- Events in regions without a common node. -/
theorem append (h : Tidy region limit events) (h' : Tidy region' limit events')
    (hdisjoint : ∀ id, region id → ¬region' id) :
    Tidy (fun id => region id ∨ region' id) limit (events ++ events') := by
  have hvisited : visited (events ++ events') = visited events ++ visited events' :=
    List.filterMap_append
  constructor
  · rw [hvisited]
    refine List.nodup_append'.mpr ⟨h.once, h'.once, ?_⟩
    intro id hid hid'
    exact hdisjoint id (h.inside id hid) (h'.inside id hid')
  · intro id hid
    rw [hvisited, List.mem_append] at hid
    exact hid.imp (h.inside id) (h'.inside id)
  · intro id depth hmem
    exact (List.mem_append.mp hmem).elim (h.shallow id depth) (h'.shallow id depth)
  · intro id hmem
    exact (List.mem_append.mp hmem).elim (h.uncut id) (h'.uncut id)

end Tidy

/-- From every draft, a step gives what is asked for or fails with an error that is allowed, and its
events are tidy. -/
structure Observed.Meets {α : Type} (x : Observed α) (allowed : EmitError → Prop)
    (region : NodeId → Prop) (limit : Nat) (post : α → Prop) : Prop where
  result : ∀ d a, (x d).1.1 = .ok a → post a
  failure : ∀ d e, (x d).1.1 = .error e → allowed e
  tidy : ∀ d, Tidy region limit (x d).2

namespace Observed.Meets

variable {α β : Type} {allowed : EmitError → Prop} {region region' : NodeId → Prop} {limit : Nat}
  {post : α → Prop} {post' : β → Prop}

theorem pure {a : α} (h : post a) : (pure a : Observed α).Meets allowed region limit post := by
  constructor
  · intro d b hb
    cases hb
    exact h
  · intro d e he
    cases he
  · exact fun _ => Tidy.nil

theorem throw {e : EmitError} (h : allowed e) :
    (Observed.lift (throw e) : Observed α).Meets allowed region limit post := by
  constructor
  · intro d a ha
    cases ha
  · intro d e' he
    cases he
    exact h
  · exact fun _ => Tidy.nil

theorem modifyGet (f : Draft → α × Draft) :
    (Observed.lift (modifyGet f)).Meets allowed region limit (fun _ => True) := by
  constructor
  · exact fun _ _ _ => trivial
  · intro d e he
    cases he
  · exact fun _ => Tidy.nil

theorem note {id : NodeId} {depth : Nat} (h : depth ≤ limit) :
    (Observed.note (.visit id depth)).Meets allowed (· = id) limit (fun _ => True) := by
  constructor
  · exact fun _ _ _ => trivial
  · intro d e he
    cases he
  · exact fun _ => Tidy.visit h

theorem mono {x : Observed α} (h : x.Meets allowed region limit post)
    (hregion : ∀ id, region id → region' id) : x.Meets allowed region' limit post :=
  ⟨h.result, h.failure, fun d => (h.tidy d).mono hregion⟩

theorem weaken {x : Observed α} {post' : α → Prop} (h : x.Meets allowed region limit post)
    (hpost : ∀ a, post a → post' a) : x.Meets allowed region limit post' :=
  ⟨fun d a ha => hpost a (h.result d a ha), h.failure, h.tidy⟩

/-- Steps one after the other, in regions without a common node. -/
theorem bind {x : Observed α} {f : α → Observed β} (hx : x.Meets allowed region limit post)
    (hf : ∀ a, post a → (f a).Meets allowed region' limit post')
    (hdisjoint : ∀ id, region id → ¬region' id) :
    (x >>= f).Meets allowed (fun id => region id ∨ region' id) limit post' := by
  have hrun (d : Draft) : (x >>= f) d = Observed.bind x f d := rfl
  constructor
  · intro d b hb
    rw [hrun, Observed.bind] at hb
    split at hb
    next a d' events h => exact (hf a (hx.result d a (by rw [h]))).result d' b hb
    next e d' events h => cases hb
  · intro d e he
    rw [hrun, Observed.bind] at he
    split at he
    next a d' events h => exact (hf a (hx.result d a (by rw [h]))).failure d' e he
    next e' d' events h =>
        cases he
        exact hx.failure d e (by rw [h])
  · intro d
    have htidy := hx.tidy d
    rw [hrun, Observed.bind]
    split
    next a d' events h =>
        rw [h] at htidy
        exact htidy.append ((hf a (hx.result d a (by rw [h]))).tidy d') hdisjoint
    next e d' events h =>
        rw [h] at htidy
        exact htidy.mono fun _ => Or.inl

/-- A step without visits, before another one. -/
theorem bind_silent {x : Observed α} {f : α → Observed β}
    (hx : x.Meets allowed (fun _ => False) limit post)
    (hf : ∀ a, post a → (f a).Meets allowed region limit post') :
    (x >>= f).Meets allowed region limit post' :=
  (bind hx hf fun _ h => h.elim).mono fun _ h => h.resolve_left id

/-- A step without visits, behind another one. -/
theorem bind_then_silent {x : Observed α} {f : α → Observed β}
    (hx : x.Meets allowed region limit post)
    (hf : ∀ a, post a → (f a).Meets allowed (fun _ => False) limit post') :
    (x >>= f).Meets allowed region limit post' :=
  (bind hx hf fun _ _ h => h).mono fun _ h => h.resolve_right id

end Observed.Meets

/-! ### Errors that a program can be blamed for -/

def Form.isValue : Form → Bool
  | value _ => true
  | statement _ => false

def Code.isValue : Code → Bool
  | value _ => true
  | statement _ => false

/-- An error that a program causes: a kind that is not in the library, or a node whose kind does not
suit the place where it hangs. -/
inductive Misfit (r : Registry) (p : Program) : EmitError → Prop where
  | unknown {n : Node} (hn : n ∈ p.nodes) (hkind : r.get? n.kind = none) :
      Misfit r p (.unknownKind n.kind n.id)
  | input {n : Node} {b : Block} (hn : n ∈ p.nodes) (hplace : p.IsInput n.id)
      (hkind : r.get? n.kind = some b) (hform : b.form.isValue = false) :
      Misfit r p (.notAValue n.id n.kind)
  | step {n : Node} {b : Block} (hn : n ∈ p.nodes) (hplace : p.IsStep n.id)
      (hkind : r.get? n.kind = some b) (hform : b.form.isValue = true) :
      Misfit r p (.notAStatement n.id n.kind)

/-! ### The parts of emission keep to their regions -/

/-- The code of a node is of the sort of its kind, and is made in the region of the node. -/
def Emits (r : Registry) (w : Workspace) (limit : Nat) (emit : Node → Observed Code) (n : Node) :
    Prop :=
  (emit n).Meets (Misfit r w.program) (w.program.Region n) limit
    (fun code => ∃ b, r.get? n.kind = some b ∧ code.isValue = b.form.isValue)

variable {r : Registry} {w : Workspace} {limit : Nat} {emit : Node → Observed Code}

theorem Workspace.meets_node {allowed : EmitError → Prop} {region : NodeId → Prop} {id : NodeId}
    (h : ∃ n ∈ w.program.nodes, n.id = id) :
    (Observed.lift (w.node id)).Meets allowed region limit
      (fun n => w.program.find? id = some n) := by
  obtain ⟨n, hn⟩ := Program.exists_find? h
  have hnode : w.node id = pure n := by rw [Workspace.node, hn]
  rw [hnode]
  exact .pure hn

/-- The value of a node in a value socket is made of what the node leads to. -/
theorem Workspace.meets_observeValue (hp : w.program.IsForest) {id : NodeId}
    (hid : w.program.IsInput id) (required : Precedence) (fallback : String)
    (hemit : ∀ n, w.program.find? id = some n → Emits r w limit emit n) :
    (w.observeValue emit (some id) required fallback).Meets (Misfit r w.program)
      (w.program.Reaches id) limit (fun _ => True) := by
  refine .bind_silent (meets_node (hp.targets_exist id hid.mem_targets)) fun n hn => ?_
  have hmem := Program.mem_of_find? hn
  obtain rfl := Program.id_of_find? hn
  refine .bind_then_silent ((hemit n hn).mono fun _ h => h.reaches hmem) ?_
  rintro code ⟨b, hb, hsort⟩
  cases code with
  | value e => exact .pure trivial
  | statement text => exact .throw (.input hmem hid hb hsort.symm)

/-- Code in the place of a statement is refused only where it does not suit the place. -/
theorem Workspace.meets_statementText
    (hplaces : ∀ id ∈ w.program.topLevel, w.places.place? id = none) {n : Node} {b : Block}
    (hn : n ∈ w.program.nodes) (hid : w.program.IsStep n.id ∨ n.id ∈ w.program.topLevel)
    (hb : r.get? n.kind = some b) {code : Code} (hsort : code.isValue = b.form.isValue)
    {region : NodeId → Prop} :
    (Observed.lift (w.statementText n code)).Meets (Misfit r w.program) region limit
      (fun _ => True) := by
  cases code with
  | statement text => exact .pure trivial
  | value e =>
      rw [Workspace.statementText]
      split
      next => exact .pure trivial
      next hplace =>
          rcases hid with hid | hid
          · exact .throw (.step hn hid hb hsort.symm)
          · -- a value at the top level has no place and becomes a statement of its own
            rw [hplaces n.id hid] at hplace
            exact absurd rfl hplace

/-- A chain is made of what its head leads to. Each step along it leaves fewer nodes below, so a
budget of that many steps is never used up before the end. -/
theorem Workspace.meets_observeChain (hp : w.program.IsForest)
    (hplaces : ∀ id ∈ w.program.topLevel, w.places.place? id = none) (count : Nat) {id : NodeId}
    (hid : w.program.IsStep id ∨ id ∈ w.program.topLevel) (hcount : w.program.weight id ≤ count)
    (hemit : ∀ n ∈ w.program.nodes, w.program.Reaches id n.id → Emits r w limit emit n) :
    (w.observeChain emit count (some id)).Meets (Misfit r w.program)
      (w.program.Reaches id) limit (fun _ => True) := by
  have hexists : ∃ n ∈ w.program.nodes, n.id = id :=
    hid.elim (fun h => hp.targets_exist id h.mem_targets) (hp.topLevel_exist id)
  induction count generalizing id with
  | zero => exact absurd (Program.weight_pos hexists) (by omega)
  | succ count ih =>
      refine .bind_silent (meets_node hexists) fun n hn => ?_
      have hmem := Program.mem_of_find? hn
      obtain rfl := Program.id_of_find? hn
      cases hnext : n.next with
      | none =>
          refine .mono (.bind_then_silent (hemit n hmem .refl) ?_) fun _ h => h.reaches hmem
          rintro code ⟨b, hb, hsort⟩
          refine .bind_silent (meets_statementText hplaces hmem hid hb hsort) fun text _ => ?_
          rw [observeChain_none, Observed.pure_bind]
          exact .pure trivial
      | some next =>
          have hrefers := Program.refers_of_mem hmem (Program.mem_targets_of_next hnext)
          have hstep : w.program.IsStep next := ⟨n, hmem, .inr hnext⟩
          have hweight := hp.weight_lt hrefers
          refine .mono (.bind (hemit n hmem .refl) ?_ fun x => hp.region_next hmem hnext) ?_
          · rintro code ⟨b, hb, hsort⟩
            refine .bind_silent (meets_statementText hplaces hmem hid hb hsort) fun text _ => ?_
            refine .bind_then_silent (ih (.inl hstep) (by omega) ?_
              (hp.exists_of_refers hrefers)) fun _ _ => .pure trivial
            exact fun m hm hreach => hemit m hm (.head hrefers hreach)
          · rintro x (hx | hx)
            · exact hx.reaches hmem
            · exact .head hrefers hx

/-- A recipe that draws on nodes which stand apart is followed in what these nodes lead to. -/
theorem Recipe.meets_observe {α : Type} (hp : w.program.IsForest)
    (hplaces : ∀ id ∈ w.program.topLevel, w.places.place? id = none) {recipe : Recipe α}
    {values heads : List NodeId} (hdraws : recipe.Draws values heads)
    (hapart : w.program.Apart values heads)
    (hemit : ∀ a ∈ values ++ heads, ∀ n ∈ w.program.nodes, w.program.Reaches a n.id →
      Emits r w limit emit n) :
    (recipe.observe w emit).Meets (Misfit r w.program)
      (fun x => ∃ a ∈ values ++ heads, w.program.Reaches a x) limit (fun _ => True) := by
  induction recipe generalizing values heads with
  | done a => exact .pure trivial
  | edit e next ih =>
      exact .bind_silent (.modifyGet _) fun answer _ => ih answer (hdraws answer) hapart hemit
  | value child required fallback next ih =>
      cases child with
      | none =>
          rw [Recipe.observe, Workspace.observeValue, Observed.pure_bind]
          exact ih _ (hdraws _) hapart hemit
      | some id =>
          -- the node that is asked for is taken out, and what it leads to has been visited
          obtain ⟨rest, hperm, hnext⟩ := hdraws
          have hall : (values ++ heads).Perm (id :: (rest ++ heads)) := hperm.append_right heads
          have hrest := (hapart.perm hperm (.refl heads)).sublist (List.sublist_cons_self id rest)
            (.refl heads)
          have hid : id ∈ values := hperm.mem_iff.mpr List.mem_cons_self
          refine .mono (.bind (Workspace.meets_observeValue hp (hapart.input id hid) required
            fallback ?_) (fun e _ => ih e (hnext e) hrest ?_) fun x => hapart.disjoint hall) ?_
          · intro n hn
            refine hemit id (List.mem_append_left _ hid) n (Program.mem_of_find? hn) ?_
            rw [Program.id_of_find? hn]
          · exact fun a ha => hemit a (hall.mem_iff.mpr (List.mem_cons_of_mem _ ha))
          · intro x hx
            simpa only [hall.mem_iff, List.mem_cons, or_and_right, exists_or, exists_eq_left]
              using hx
  | chain head next ih =>
      cases head with
      | none =>
          rw [Recipe.observe, Workspace.observeChain_none, Observed.pure_bind]
          exact ih _ (hdraws _) hapart hemit
      | some id =>
          obtain ⟨rest, hperm, hnext⟩ := hdraws
          have hall : (values ++ heads).Perm (id :: (values ++ rest)) :=
            (hperm.append_left values).trans List.perm_middle
          have hrest := (hapart.perm (.refl values) hperm).sublist (.refl values)
            (List.sublist_cons_self id rest)
          have hid : id ∈ heads := hperm.mem_iff.mpr List.mem_cons_self
          refine .mono (.bind (Workspace.meets_observeChain hp hplaces _ (hapart.step id hid)
            (Program.weight_le_size _ id) ?_) (fun text _ => ih text (hnext text) hrest ?_)
            fun x => hapart.disjoint hall) ?_
          · exact hemit id (List.mem_append_right _ hid)
          · exact fun a ha => hemit a (hall.mem_iff.mpr (List.mem_cons_of_mem _ ha))
          · intro x hx
            simpa only [hall.mem_iff, List.mem_cons, or_and_right, exists_or, exists_eq_left]
              using hx

/-- A kind that reads no socket twice draws on what hangs in the sockets. -/
theorem Form.ReadsOnce.draws {f : Form} (h : f.ReadsOnce) (w : Workspace) (n : Node) :
    match f with
    | .value recipe => (recipe w n).Draws n.children n.heads
    | .statement recipe => (recipe w n).Draws n.children n.heads := by
  obtain ⟨vs, hs, hvs, hhs, hreads⟩ := h w n
  have hchildren := n.filterMap_child?_subperm hvs
  have hheads := n.filterMap_head?_subperm hhs
  cases f with
  | value recipe => exact Recipe.Draws.mono hreads hchildren hheads
  | statement recipe => exact Recipe.Draws.mono hreads hchildren hheads

/-- The code of a node is made of its recipe. -/
theorem Form.meets_observe (hp : w.program.IsForest)
    (hplaces : ∀ id ∈ w.program.topLevel, w.places.place? id = none) {f : Form}
    (hf : f.ReadsOnce) {n : Node} (hn : n ∈ w.program.nodes)
    (hemit : ∀ a ∈ n.children ++ n.heads, ∀ m ∈ w.program.nodes, w.program.Reaches a m.id →
      Emits r w limit emit m) :
    (f.observe w emit n).Meets (Misfit r w.program)
      (fun x => ∃ a ∈ n.children ++ n.heads, w.program.Reaches a x) limit
      (fun code => code.isValue = f.isValue) := by
  have hdraws := hf.draws w n
  have hapart := hp.apart_sockets hn
  cases f with
  | value recipe =>
      exact .bind_then_silent (Recipe.meets_observe hp hplaces hdraws hapart hemit) fun _ _ =>
        .pure rfl
  | statement recipe =>
      exact .bind_then_silent (Recipe.meets_observe hp hplaces hdraws hapart hemit) fun _ _ =>
        .pure rfl

/-- A bound on the depth that leaves room for all nodes below is never reached. -/
theorem Registry.emits_observeNode (hr : ∀ kind b, r.get? kind = some b → b.form.ReadsOnce)
    (hp : w.program.IsForest)
    (hplaces : ∀ id ∈ w.program.topLevel, w.places.place? id = none) (depth above : Nat) {n : Node}
    (hn : n ∈ w.program.nodes) (hdepth : w.program.weight n.id ≤ depth)
    (hlimit : above + w.program.weight n.id ≤ limit) :
    Emits r w limit (r.observeNode w depth above) n := by
  induction depth generalizing above n with
  | zero => exact absurd (Program.weight_pos ⟨n, hn, rfl⟩) (by omega)
  | succ depth ih =>
      have hpos := Program.weight_pos ⟨n, hn, rfl⟩
      refine .bind (.note (by omega)) (fun _ _ => ?_) ?_
      · -- what hangs in the sockets has fewer nodes below
        have hbelow : ∀ a ∈ n.children ++ n.heads, ∀ m ∈ w.program.nodes,
            w.program.Reaches a m.id → Emits r w limit (r.observeNode w depth (above + 1)) m := by
          intro a ha m hm hreach
          have hlt := hp.weight_lt
            (Program.refers_of_mem hn (Program.mem_targets_of_mem_sockets ha))
          have hle := hp.weight_le hreach
          exact ih (above + 1) hm (by omega) (by omega)
        cases hkind : r.get? n.kind with
        | none => exact .throw (.unknown hn hkind)
        | some b =>
            exact (Form.meets_observe hp hplaces (hr _ b hkind) hn hbelow).weaken
              fun code hcode => ⟨b, rfl, hcode⟩
      · rintro id rfl ⟨a, ha, hreach⟩
        exact hp.not_reaches_of_refers
          (Program.refers_of_mem hn (Program.mem_targets_of_mem_sockets ha)) hreach

/-! ### Whole programs -/

theorem Recipe.draws_declareVariables (w : Workspace) : (declareVariables w).Draws [] [] :=
  reads_forM (n := default) fun _ _ => (reads_ask _).bind fun _ => reads_offer _ _ _

theorem Recipe.draws_statements (heads : List NodeId) :
    (heads.mapM (fun id => statements (some id))).Draws [] heads := by
  induction heads with
  | nil => trivial
  | cons id rest ih =>
      rw [List.mapM_cons]
      refine ⟨rest, .refl _, fun text => ?_⟩
      have h : ((rest.mapM fun id => statements (some id)).bind
          fun texts => pure (text :: texts)).Draws ([] ++ []) (rest ++ []) :=
        ih.bind fun _ => trivial
      rwa [List.append_nil, List.append_nil] at h

/-- The recipe of a whole program asks for the chains at the top level. -/
theorem Recipe.draws_program (w : Workspace) :
    (do
      declareVariables w
      programBody w : Recipe String).Draws [] w.program.topLevel := by
  have hbody : (programBody w).Draws ([] ++ []) (w.program.topLevel ++ []) :=
    (draws_statements w.program.topLevel).bind fun _ => trivial
  rw [List.append_nil, List.append_nil] at hbody
  exact (draws_declareVariables w).bind fun _ => hbody

/-- Emission of a forest fails only where the program is to blame, visits no node twice, nests its
visits no deeper than there are nodes, and gives up no chain. -/
theorem Registry.meets_observeProgram
    (hr : ∀ kind b, r.get? kind = some b → b.form.ReadsOnce) (hp : w.program.IsForest)
    (hplaces : ∀ id ∈ w.program.topLevel, w.places.place? id = none) :
    (r.observeProgram w).Meets (Misfit r w.program)
      (fun x => ∃ head ∈ w.program.topLevel, w.program.Reaches head x) w.program.size
      (fun _ => True) := by
  refine Recipe.meets_observe hp hplaces (Recipe.draws_program w) hp.apart_topLevel ?_
  intro head _ n hn _
  have hweight := Program.weight_le_size w.program n.id
  exact emits_observeNode hr hp hplaces _ 0 hn (by omega) (by omega)

theorem Registry.misfit_of_draftProgram
    (hr : ∀ kind b, r.get? kind = some b → b.form.ReadsOnce) (hp : w.program.IsForest)
    (hplaces : ∀ id ∈ w.program.topLevel, w.places.place? id = none) (ds : Diagnostics)
    {e : EmitError} (h : (r.draftProgram w ds).1 = .error e) : Misfit r w.program e := by
  rw [← observeProgram_fst] at h
  exact (meets_observeProgram hr hp hplaces).failure _ e h

/-- The standard kinds read no socket twice. -/
theorem Registry.standard_readsOnce (kind : String) (b : Block)
    (h : Registry.standard.get? kind = some b) : b.form.ReadsOnce := by
  rw [Registry.standard, Registry.get?_ofList] at h
  exact standardBlocks_readOnce b (List.mem_of_find?_eq_some h)

/-- A validated program is a forest, and its index has no place for what stands at the top level. -/
theorem Program.isForest_of_validate {p : Program} {places : ParentIndex}
    (h : p.validate = .ok places) :
    p.IsForest ∧ ∀ id ∈ p.topLevel, places.place? id = none := by
  obtain ⟨hp, rfl⟩ := validate_eq_ok_iff_isForest.mp h
  refine ⟨hp, fun id hid => ?_⟩
  rw [place?_record_references_eq_none hp.targets_nodup]
  exact hp.topLevel_free id hid

/-- Emission of a validated program comes to its end by itself: it is never stopped for being too
deep, its visits are nested no deeper than there are nodes, no node is visited twice, and no chain
is given up. -/
theorem emission_visits_no_node_twice {p : Program} {places : ParentIndex}
    (hvalid : p.validate = .ok places) (types : TypeMap) (board : Board) (ds : Diagnostics) :
    let w : Workspace := ⟨p, places, types, board⟩
    let run := Registry.standard.observeProgram w { diagnostics := ds }
    run.1 = Registry.standard.draftProgram w ds ∧
      (∀ id, run.1.1 ≠ .error (.endless id)) ∧
      (∀ id depth, .visit id depth ∈ run.2 → depth ≤ p.size) ∧
      (visited run.2).Nodup ∧
      ∀ id, .cut id ∉ run.2 := by
  intro w run
  obtain ⟨hp, hplaces⟩ := Program.isForest_of_validate hvalid
  have hmeets := Registry.meets_observeProgram (w := w) Registry.standard_readsOnce hp hplaces
  have htidy := hmeets.tidy { diagnostics := ds }
  refine ⟨Registry.observeProgram_fst _ w ds, ?_, htidy.shallow, htidy.once, htidy.uncut⟩
  intro id hendless
  nomatch hmeets.failure _ _ hendless

/-- A conditional with a condition and with two statements in its arm, and a statement behind it. -/
def nestedSample : Program where
  nodes :=
    [{ id := ⟨1⟩, kind := "controls_if", values := [{ name := "IF0", child := some ⟨2⟩ }],
       statements := [{ name := "DO0", head := some ⟨3⟩ }], next := some ⟨6⟩ },
      { id := ⟨2⟩, kind := "logic_boolean" },
      { id := ⟨3⟩, kind := "variables_set", fields := .ofList [("VAR", "x")],
        values := [{ name := "VALUE", child := some ⟨4⟩ }], next := some ⟨5⟩ },
      { id := ⟨4⟩, kind := "math_number", fields := .ofList [("NUM", "7")] },
      { id := ⟨5⟩, kind := "controls_flow_statements" },
      { id := ⟨6⟩, kind := "base_end" }]
  topLevel := [⟨1⟩]
  variableNames := ["x"]

theorem nestedSample_visits_no_node_twice :
    ∃ places, nestedSample.validate = .ok places ∧
      let w : Workspace := ⟨nestedSample, places, .empty, .uno⟩
      let run := Registry.standard.observeProgram w { diagnostics := .empty }
      run.1 = Registry.standard.draftProgram w .empty ∧
        (∀ id, run.1.1 ≠ .error (.endless id)) ∧
        (∀ id depth, .visit id depth ∈ run.2 → depth ≤ 6) ∧
        (visited run.2).Nodup ∧
        ∀ id, .cut id ∉ run.2 :=
  ⟨_, rfl, emission_visits_no_node_twice (p := nestedSample) rfl .empty .uno .empty⟩

end BlockSketch
