import BlockSketch.Emission.Workspace
import BlockSketch.Proofs.Program.Forest

/-!
What recipes ask for. A recipe draws on the nodes in the value sockets and on the chains in the
statement sockets of its node, and never asks for one of them twice, whatever answers it gets. The
sockets that a recipe reads are told by their names; different names lead to different entries of
the node, so names without repetition are enough.
-/

namespace BlockSketch

namespace Node

def children (n : Node) : List NodeId := n.values.filterMap (·.child)

def heads (n : Node) : List NodeId := n.statements.filterMap (·.head)

theorem targets_eq (n : Node) : n.targets = n.children ++ n.heads ++ n.next.toList := by
  simp only [targets, references, List.map_append, children, heads, List.map_filterMap]
  cases n.next <;> simp [Option.map_map, Function.comp_def]

end Node

theorem Subperm.filterMap {α β : Type} (f : α → Option β) {l l' : List α} (h : l.Subperm l') :
    (l.filterMap f).Subperm (l'.filterMap f) := by
  obtain ⟨m, hperm, hsub⟩ := h
  exact ⟨m.filterMap f, hperm.filterMap f, hsub.filterMap f⟩

namespace Node

theorem filterMap_child?_subperm (n : Node) {names : List String} (hnames : names.Nodup) :
    (names.filterMap n.child?).Subperm n.children := by
  have h := Subperm.filterMap (·.child) (filterMap_find?_subperm n.values (·.name) hnames)
  rwa [List.filterMap_filterMap] at h

theorem filterMap_head?_subperm (n : Node) {names : List String} (hnames : names.Nodup) :
    (names.filterMap n.head?).Subperm n.heads := by
  have h := Subperm.filterMap (·.head) (filterMap_find?_subperm n.statements (·.name) hnames)
  rwa [List.filterMap_filterMap] at h

end Node

namespace Recipe

variable {α β : Type}

/-! ### Nodes that a recipe draws on -/

/-- The values that a recipe asks for are among some nodes, and the chains start at some nodes, and
each of these nodes is asked for at most once. -/
def Draws : Recipe α → List NodeId → List NodeId → Prop
  | done _, _, _ => True
  | value none _ _ next, vs, hs => ∀ e, (next e).Draws vs hs
  | value (some id) _ _ next, vs, hs => ∃ vs', vs.Perm (id :: vs') ∧ ∀ e, (next e).Draws vs' hs
  | chain none next, vs, hs => ∀ text, (next text).Draws vs hs
  | chain (some id) next, vs, hs => ∃ hs', hs.Perm (id :: hs') ∧ ∀ text, (next text).Draws vs hs'
  | edit _ next, vs, hs => ∀ answer, (next answer).Draws vs hs

/-- What is taken out of a list can be taken out of a longer one. -/
theorem exists_perm_cons_of_subperm {l m l' : List NodeId} {id : NodeId} (hl : l.Perm (id :: l'))
    (h : l.Subperm m) : ∃ m', m.Perm (id :: m') ∧ l'.Subperm m' := by
  have hsub : (id :: l').Subperm m := (hl.subperm_right).mp h
  have hperm := List.perm_cons_erase (hsub.subset List.mem_cons_self)
  exact ⟨m.erase id, hperm, (List.subperm_cons id).mp ((hperm.subperm_left).mp hsub)⟩

theorem Draws.mono {r : Recipe α} {vs hs vs' hs' : List NodeId} (h : r.Draws vs hs)
    (hvs : vs.Subperm vs') (hhs : hs.Subperm hs') : r.Draws vs' hs' := by
  induction r generalizing vs hs vs' hs' with
  | done a => trivial
  | value child required fallback next ih =>
      cases child with
      | none => exact fun e => ih e (h e) hvs hhs
      | some id =>
          obtain ⟨rest, hperm, hnext⟩ := h
          obtain ⟨rest', hperm', hrest⟩ := exists_perm_cons_of_subperm hperm hvs
          exact ⟨rest', hperm', fun e => ih e (hnext e) hrest hhs⟩
  | chain head next ih =>
      cases head with
      | none => exact fun text => ih text (h text) hvs hhs
      | some id =>
          obtain ⟨rest, hperm, hnext⟩ := h
          obtain ⟨rest', hperm', hrest⟩ := exists_perm_cons_of_subperm hperm hhs
          exact ⟨rest', hperm', fun text => ih text (hnext text) hvs hrest⟩
  | edit e next ih => exact fun answer => ih answer (h answer) hvs hhs

/-- Recipes one after the other draw on nodes of both. -/
theorem Draws.bind {r : Recipe α} {f : α → Recipe β} {vs hs vs' hs' : List NodeId}
    (hr : r.Draws vs hs) (hf : ∀ a, (f a).Draws vs' hs') :
    (r.bind f).Draws (vs ++ vs') (hs ++ hs') := by
  induction r generalizing vs hs with
  | done a =>
      exact (hf a).mono (List.sublist_append_right vs vs').subperm
        (List.sublist_append_right hs hs').subperm
  | value child required fallback next ih =>
      cases child with
      | none => exact fun e => ih e (hr e)
      | some id =>
          obtain ⟨rest, hperm, hnext⟩ := hr
          exact ⟨rest ++ vs', hperm.append_right vs', fun e => ih e (hnext e)⟩
  | chain head next ih =>
      cases head with
      | none => exact fun text => ih text (hr text)
      | some id =>
          obtain ⟨rest, hperm, hnext⟩ := hr
          exact ⟨rest ++ hs', hperm.append_right hs', fun text => ih text (hnext text)⟩
  | edit e next ih => exact fun answer => ih answer (hr answer)

/-! ### Sockets that a recipe reads -/

/-- A recipe reads value sockets and statement sockets of a node, each at most once. -/
def Reads (n : Node) (r : Recipe α) (values statements : List String) : Prop :=
  r.Draws (values.filterMap n.child?) (statements.filterMap n.head?)

variable {n : Node} {r : Recipe α} {f : α → Recipe β} {vs hs vs' hs' : List String}

theorem Reads.bind (hr : r.Reads n vs hs) (hf : ∀ a, (f a).Reads n vs' hs') :
    (r >>= f).Reads n (vs ++ vs') (hs ++ hs') := by
  have h := Draws.bind hr hf
  rwa [← List.filterMap_append, ← List.filterMap_append] at h

theorem Reads.map (hr : r.Reads n vs hs) (g : α → β) : (g <$> r).Reads n vs hs := by
  rw [map_eq_pure_bind, ← List.append_nil vs, ← List.append_nil hs]
  exact hr.bind fun _ => trivial

theorem reads_pure (a : α) : (pure a : Recipe α).Reads n vs hs := trivial

theorem reads_ask (e : Edit) : (ask e).Reads n [] [] := fun _ => trivial

theorem reads_offer (sec : Section) (key text : String) : (offer sec key text).Reads n [] [] :=
  (reads_ask _).bind fun _ => reads_pure _

theorem reads_put (sec : Section) (key text : String) : (put sec key text).Reads n [] [] :=
  (reads_ask _).bind fun _ => reads_pure _

theorem reads_report (m : Node) (concern : Concern) (message : Option Diagnostic) :
    (report m concern message).Reads n [] [] := reads_ask _

theorem reads_socketValue (name : String) (required : Precedence) (fallback : String) :
    (socketValue n name required fallback).Reads n [name] [] := by
  unfold Reads socketValue
  cases h : n.child? name with
  | none => exact fun _ => trivial
  | some id => exact ⟨[], by simp [h], fun _ => trivial⟩

theorem reads_socket (name : String) (required : Precedence) (fallback : String) :
    (socket n name required fallback).Reads n [name] [] :=
  (reads_socketValue name required fallback).bind fun _ => reads_pure _

theorem reads_requiredSocket (name : String) (required : Precedence) (fallback : String) :
    (requiredSocket n name required fallback).Reads n [name] [] :=
  (reads_report _ _ _).bind fun _ => reads_socket name required fallback

theorem reads_statements (name : String) : (statements (n.head? name)).Reads n [] [name] := by
  unfold Reads statements
  cases h : n.head? name with
  | none => exact fun _ => trivial
  | some id => exact ⟨[], by simp [h], fun _ => trivial⟩

theorem reads_body (name : String) : (body n name).Reads n [] [name] :=
  (reads_statements name).bind fun _ => reads_pure _

theorem reads_claimPin (w : Workspace) (m : Node) (pin : String) (usage : PinUsage)
    (label : String) : (claimPin w m pin usage label).Reads n [] [] :=
  (reads_report _ _ _).bind fun _ => reads_ask _

theorem reads_requirePulse (w : Workspace) (m : Node) (pin : String) :
    (requirePulse w m pin).Reads n [] [] := reads_report _ _ _

/-- A recipe for each member of a list reads what the recipes of all members read. -/
theorem reads_mapM {l : List α} {f : α → Recipe β} {vs hs : α → List String}
    (hf : ∀ a ∈ l, (f a).Reads n (vs a) (hs a)) :
    (l.mapM f).Reads n (l.flatMap vs) (l.flatMap hs) := by
  induction l with
  | nil => exact reads_pure _
  | cons a rest ih =>
      rw [List.mapM_cons, List.flatMap_cons, List.flatMap_cons]
      obtain ⟨hhead, htail⟩ := List.forall_mem_cons.mp hf
      refine hhead.bind fun b => ?_
      rw [← List.append_nil (rest.flatMap vs), ← List.append_nil (rest.flatMap hs)]
      exact (ih htail).bind fun bs => reads_pure _

theorem reads_forM {l : List α} {f : α → Recipe Unit} (hf : ∀ a ∈ l, (f a).Reads n [] []) :
    (l.forM f).Reads n [] [] := by
  induction l with
  | nil => exact reads_pure _
  | cons a rest ih =>
      obtain ⟨hhead, htail⟩ := List.forall_mem_cons.mp hf
      exact hhead.bind fun _ => ih htail

end Recipe

end BlockSketch
