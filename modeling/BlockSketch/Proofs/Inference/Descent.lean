import BlockSketch.Inference.Mention
import BlockSketch.Proofs.Program.Forest

/-!
The way down to the type of a value. From a node that does not tell its type the way goes on in its
first socket. If the way ends, it has no more steps than the program has nodes, so the bound on its
length is never felt. Hence a node that does not tell its type has the type of what is in its first
socket, in every program, also if the way runs in a circle.
-/

namespace BlockSketch.Probe

variable {probe : Probe} {child : Option NodeId} {k k' : Nat} {d d' : DeclaredType}

/-- After some steps down first sockets a type is found. -/
inductive Finds (probe : Probe) : Nat → Option NodeId → DeclaredType → Prop where
  | empty : Finds probe 0 none (.known .missing)
  | absent {id : NodeId} (hfind : probe.program.find? id = none) :
      Finds probe 0 (some id) (.known .null)
  | told {id : NodeId} {n : Node} {typing : ValueTyping} (hfind : probe.program.find? id = some n)
      (htyping : probe.typing? n.kind = some typing) :
      Finds probe 0 (some id) (typing probe.program n)
  | bare {id : NodeId} {n : Node} (hfind : probe.program.find? id = some n)
      (htyping : probe.typing? n.kind = none) (hvalues : n.values = []) :
      Finds probe 0 (some id) (.known .null)
  | first {id : NodeId} {n : Node} {s : ValueSocket} {rest : List ValueSocket} {k : Nat}
      {d : DeclaredType} (hfind : probe.program.find? id = some n)
      (htyping : probe.typing? n.kind = none) (hvalues : n.values = s :: rest)
      (hnext : Finds probe k s.child d) : Finds probe (k + 1) (some id) d

namespace Finds

/-- The way from a node that does not tell its type goes on in its first socket. -/
theorem exists_first {id : NodeId} {n : Node} {s : ValueSocket} {rest : List ValueSocket}
    (h : probe.Finds k (some id) d) (hfind : probe.program.find? id = some n)
    (htyping : probe.typing? n.kind = none) (hvalues : n.values = s :: rest) :
    ∃ j, k = j + 1 ∧ probe.Finds j s.child d := by
  cases h with
  | absent hfind' =>
      rw [hfind] at hfind'
      cases hfind'
  | told hfind' htyping' =>
      obtain rfl := Option.some.inj (hfind.symm.trans hfind')
      rw [htyping] at htyping'
      cases htyping'
  | bare hfind' _ hvalues' =>
      obtain rfl := Option.some.inj (hfind.symm.trans hfind')
      rw [hvalues] at hvalues'
      cases hvalues'
  | first hfind' _ hvalues' hnext =>
      obtain rfl := Option.some.inj (hfind.symm.trans hfind')
      rw [hvalues] at hvalues'
      obtain ⟨rfl, -⟩ := List.cons.inj hvalues'
      exact ⟨_, rfl, hnext⟩

/-- What is found does not depend on the bound, as long as the way fits in it. -/
theorem typeFrom_eq (h : probe.Finds k child d) (count : Nat) :
    probe.typeFrom count child = if k < count then d else .known .null := by
  induction h generalizing count with
  | empty => cases count <;> rfl
  | absent hfind => cases count <;> simp [typeFrom, hfind]
  | told hfind htyping => cases count <;> simp [typeFrom, hfind, htyping]
  | bare hfind htyping hvalues => cases count <;> simp [typeFrom, hfind, htyping, hvalues]
  | first hfind htyping hvalues _ ih =>
      cases count with
      | zero => rfl
      | succ count => simp [typeFrom, hfind, htyping, hvalues, ih]

/-- There is one way down from a node. -/
theorem steps_unique (h : probe.Finds k child d) (h' : probe.Finds k' child d') : k = k' := by
  induction h generalizing k' with
  | empty =>
      cases h'
      rfl
  | absent | told | bare => cases h' <;> simp_all
  | first hfind htyping hvalues _ ih =>
      obtain ⟨j, rfl, hj⟩ := h'.exists_first hfind htyping hvalues
      rw [ih hj]

/-- The nodes on the way down, each of which has a shorter way left than the one before. -/
theorem exists_path (h : probe.Finds k child d) :
    ∃ path : List NodeId, path.length = k ∧ path.Nodup ∧
      ∀ id ∈ path, id ∈ probe.program.nodes.map (·.id) ∧ ∃ j ≤ k, probe.Finds j (some id) d := by
  induction h with
  | empty | absent | told | bare => exact ⟨[], rfl, .nil, fun id hid => (List.not_mem_nil hid).elim⟩
  | @first id n s rest k d hfind htyping hvalues hnext ih =>
      obtain ⟨path, hlength, hnodup, hpath⟩ := ih
      have hself : probe.Finds (k + 1) (some id) d := .first hfind htyping hvalues hnext
      refine ⟨id :: path, by rw [List.length_cons, hlength], ?_, ?_⟩
      · refine List.nodup_cons.mpr ⟨fun hid => ?_, hnodup⟩
        obtain ⟨-, j, hj, hfinds⟩ := hpath id hid
        have hsteps := hself.steps_unique hfinds
        omega
      · refine List.forall_mem_cons.mpr ⟨⟨?_, k + 1, Nat.le_refl _, hself⟩, fun x hx => ?_⟩
        · exact List.mem_map.mpr ⟨n, Program.mem_of_find? hfind, Program.id_of_find? hfind⟩
        · obtain ⟨hmem, j, hj, hfinds⟩ := hpath x hx
          exact ⟨hmem, j, Nat.le_succ_of_le hj, hfinds⟩

/-- The way down meets no node twice. -/
theorem le_size (h : probe.Finds k child d) : k ≤ probe.program.size := by
  obtain ⟨path, hlength, hnodup, hpath⟩ := h.exists_path
  calc
    k = path.length := hlength.symm
    _ ≤ (probe.program.nodes.map (·.id)).length :=
        (List.subperm_of_subset hnodup fun id hid => (hpath id hid).1).length_le
    _ = probe.program.size := List.length_map _

theorem typeFrom_size (h : probe.Finds k child d) :
    probe.typeFrom (probe.program.size + 1) child = d := by
  rw [h.typeFrom_eq, if_pos (Nat.lt_succ_of_le h.le_size)]

end Finds

/-- A way that does not end leads to no type. -/
theorem typeFrom_of_not_finds (h : ∀ k d, ¬probe.Finds k child d) (count : Nat) :
    probe.typeFrom count child = .known .null := by
  induction count generalizing child with
  | zero => rfl
  | succ count ih =>
      cases child with
      | none => exact absurd .empty (h 0 _)
      | some id =>
          cases hfind : probe.program.find? id with
          | none => exact absurd (.absent hfind) (h 0 _)
          | some n =>
              cases htyping : probe.typing? n.kind with
              | some typing => exact absurd (.told hfind htyping) (h 0 _)
              | none =>
                  cases hvalues : n.values with
                  | nil => exact absurd (.bare hfind htyping hvalues) (h 0 _)
                  | cons s rest =>
                      simp only [typeFrom, hfind, htyping, hvalues]
                      exact ih fun k d hnext => h (k + 1) d (.first hfind htyping hvalues hnext)

/-- A node that does not tell its type has the type of what is in its first socket. -/
theorem typeOf_first {n : Node} {s t : ValueSocket} {rest : List ValueSocket}
    (hfind : probe.program.find? n.id = some n) (htyping : probe.typing? n.kind = none)
    (hvalues : n.values = s :: rest) (hchild : t.child = some n.id) :
    probe.typeOf t = probe.typeOf s := by
  rw [typeOf, typeOf, hchild]
  by_cases h : ∃ k d, probe.Finds k s.child d
  · obtain ⟨k, d, hnext⟩ := h
    have hself : probe.Finds (k + 1) (some n.id) d := .first hfind htyping hvalues hnext
    rw [hself.typeFrom_size, hnext.typeFrom_size]
  · have hnext (k : Nat) (d : DeclaredType) : ¬probe.Finds k s.child d := fun hk => h ⟨k, d, hk⟩
    rw [typeFrom_of_not_finds hnext, typeFrom_of_not_finds]
    intro k d hk
    obtain ⟨j, -, hj⟩ := hk.exists_first hfind htyping hvalues
    exact hnext j d hj

end BlockSketch.Probe
