import BlockSketch.Emission.Draft
import BlockSketch.Proofs.Text.Numeral

/-!
Identifiers are words, and stay. Whatever a user's name looks like, the identifier handed out for it
consists of letters, digits and underscores. In every draft that edits lead to, the identifiers of
variables are such words, and no edit takes the identifier of a variable away.
-/

namespace BlockSketch

namespace Identifier

def Wordy (cs : List Char) : Prop := cs ≠ [] ∧ ∀ c ∈ cs, isWordChar c = true

theorem isWord_iff {s : String} : isWord s = true ↔ Wordy s.toList := by
  simp [isWord, Wordy, String.toList_eq_nil_iff]

theorem isWordChar_hexDigit {n : Nat} (h : n < 16) : isWordChar (hexDigit n) = true := by
  have hall : ∀ n < 16, isWordChar (hexDigit n) = true := by decide
  exact hall n h

theorem isWordChar_of_isDigit {c : Char} (h : c.isDigit = true) : isWordChar c = true := by
  simp only [Char.isDigit, Bool.and_eq_true, decide_eq_true_eq] at h
  have hc : '0' ≤ c ∧ c ≤ '9' := h
  simp [isWordChar, hc]

theorem isWordChar_of_mem_spellByte {b : UInt8} {c : Char} (h : c ∈ spellByte b) :
    isWordChar c = true := by
  have hb : b.toNat < 256 := b.toNat_lt
  simp only [spellByte, List.mem_cons, List.not_mem_nil, or_false] at h
  rcases h with rfl | rfl | rfl
  · decide
  · exact isWordChar_hexDigit (by omega)
  · exact isWordChar_hexDigit (by omega)

theorem isWordChar_of_mem_spellChar {c c' : Char} (h : c' ∈ spellChar c) :
    isWordChar c' = true := by
  unfold spellChar at h
  split at h
  next hc =>
      obtain rfl := List.mem_singleton.mp h
      exact hc
  next =>
      split at h
      next =>
          obtain rfl := List.mem_singleton.mp h
          decide
      next =>
          obtain ⟨b, -, hb⟩ := List.mem_flatMap.mp h
          exact isWordChar_of_mem_spellByte hb

theorem wordy_spellChars (cs : List Char) : Wordy (spellChars cs) := by
  have hall : ∀ c ∈ cs.flatMap spellChar, isWordChar c = true := by
    intro c hc
    obtain ⟨c', -, hc'⟩ := List.mem_flatMap.mp hc
    exact isWordChar_of_mem_spellChar hc'
  unfold spellChars
  split
  next => exact ⟨by decide, List.all_eq_true.mp rfl⟩
  next c rest heq =>
      rw [heq] at hall
      split
      next =>
          refine ⟨by simp, fun c' hc' => ?_⟩
          rcases List.mem_append.mp hc' with hmy | hrest
          · exact List.all_eq_true.mp (show "my_".toList.all isWordChar = true by decide) c' hmy
          · exact hall c' hrest
      next => exact ⟨by simp, hall⟩

theorem isWord_spell (name : String) : isWord (spell name) = true := by
  rw [isWord_iff, spell, String.toList_ofList]
  exact wordy_spellChars name.toList

theorem isWord_append {s t : String} (hs : isWord s = true)
    (ht : ∀ c ∈ t.toList, isWordChar c = true) : isWord (s ++ t) = true := by
  rw [isWord_iff] at *
  rw [String.toList_append]
  refine ⟨by simp [hs.1], fun c hc => ?_⟩
  exact (List.mem_append.mp hc).elim (hs.2 c) (ht c)

theorem isWordChar_of_mem_toString {n : Nat} {c : Char} (h : c ∈ (toString n).toList) :
    isWordChar c = true := by
  rw [toList_toString] at h
  exact isWordChar_of_isDigit (Nat.isDigit_of_mem_toDigits (by decide) (by decide) h)

theorem isWord_toString (n : Nat) : isWord (toString n) = true := by
  rw [isWord_iff]
  exact ⟨toList_toString_ne_nil n, fun c hc => isWordChar_of_mem_toString hc⟩

/-! ### Scopes -/

namespace Scope

theorem isWord_candidate {base : String} (hbase : isWord base = true) (k : Nat) :
    isWord (candidate base k) = true := by
  unfold candidate
  split
  · exact hbase
  · exact isWord_append hbase fun c hc => isWordChar_of_mem_toString hc

theorem isWord_free (s : Scope) (name : String) : isWord (s.free name) = true := by
  have hfirst (k count : Nat) : isWord (s.firstFree (spell name) k count) = true := by
    induction count generalizing k with
    | zero => exact isWord_candidate (isWord_spell name) k
    | succ count ih =>
        unfold firstFree
        split
        · exact ih (k + 1)
        · exact isWord_candidate (isWord_spell name) k
  exact hfirst 1 _

def Assigns (s : Scope) (P : String → Prop) : Prop := ∀ key identifier,
  s.assigned.lookup key = some identifier → P identifier

def Worded (s : Scope) : Prop := s.Assigns (fun identifier => isWord identifier = true)

/-- The names of one scope that have an identifier have the same one in another. -/
def Keeps (s s' : Scope) : Prop := ∀ key identifier,
  s.assigned.lookup key = some identifier → s'.assigned.lookup key = some identifier

theorem nameOf_of_lookup {s : Scope} {name identifier : String}
    (h : s.assigned.lookup (Text.lowercase name) = some identifier) :
    s.nameOf name = (identifier, s) := by
  simp [nameOf, h]

theorem nameOf_of_lookup_eq_none {s : Scope} {name : String}
    (h : s.assigned.lookup (Text.lowercase name) = none) :
    s.nameOf name = (s.free name, ⟨s.free name :: s.taken,
      (Text.lowercase name, s.free name) :: s.assigned⟩) := by
  simp [nameOf, h, fresh]

/-- A name that was asked for has its identifier from then on. -/
theorem lookup_nameOf (s : Scope) (name : String) :
    (s.nameOf name).2.assigned.lookup (Text.lowercase name) = some (s.nameOf name).1 := by
  cases h : s.assigned.lookup (Text.lowercase name) with
  | some identifier => rw [nameOf_of_lookup h, h]
  | none => simp [nameOf_of_lookup_eq_none h]

theorem keeps_nameOf (s : Scope) (name : String) : s.Keeps (s.nameOf name).2 := by
  intro key identifier hkey
  cases h : s.assigned.lookup (Text.lowercase name) with
  | some other => rwa [nameOf_of_lookup h]
  | none =>
      have hne : key ≠ Text.lowercase name := by
        rintro rfl
        rw [h] at hkey
        cases hkey
      rw [nameOf_of_lookup_eq_none h, List.lookup_cons, beq_false_of_ne hne]
      exact hkey

/-- A property of all new identifiers is one of all that are given. -/
theorem Assigns.nameOf {s : Scope} {P : String → Prop}
    (hfree : ∀ (s : Scope) (name : String), P (s.free name)) (h : s.Assigns P) (name : String) :
    (s.nameOf name).2.Assigns P := by
  intro key identifier hkey
  cases hname : s.assigned.lookup (Text.lowercase name) with
  | some other =>
      rw [nameOf_of_lookup hname] at hkey
      exact h key identifier hkey
  | none =>
      rw [nameOf_of_lookup_eq_none hname, List.lookup_cons] at hkey
      split at hkey
      next =>
          cases hkey
          exact hfree s name
      next => exact h key identifier hkey

end Scope

end Identifier

/-! ### Drafts -/

namespace Draft

open Identifier

/-- A draft that edits lead to, from one that has only messages. -/
inductive Reachable : Draft → Prop where
  | start (ds : Diagnostics) : Reachable { diagnostics := ds }
  | edit {d : Draft} (h : Reachable d) (e : Edit) : Reachable (d.apply e).2

def variableText (d : Draft) (name : String) : String := (d.names.nameOf name .variable).1

/-- No edit but one changes the identifiers of variables, and that one asks for one of them. -/
theorem assigned_apply (d : Draft) (e : Edit) :
    (d.apply e).2.names.variableScope.assigned = d.names.variableScope.assigned ∨
      ∃ name, e = .identifier name .variable := by
  cases e with
  | place sec key text overwrite => exact .inl rfl
  | helper name body =>
      left
      simp only [apply, helper]
      split <;> rfl
  | identifier name ns =>
      cases ns
      · exact .inr ⟨name, rfl⟩
      · exact .inl rfl
  | freshVariable name =>
      -- a fresh identifier is taken, but it belongs to no name
      exact .inl rfl
  | claim node pin usage label => exact .inl rfl
  | report node concern message =>
      left
      simp only [apply, report]
      split <;> rfl

theorem Reachable.assigns {d : Draft} {P : String → Prop}
    (hfree : ∀ (s : Scope) (name : String), P (s.free name)) (h : d.Reachable) :
    d.names.variableScope.Assigns P := by
  induction h with
  | start ds =>
      intro key identifier hkey
      cases hkey
  | @edit d _ e ih =>
      rcases d.assigned_apply e with heq | ⟨name, rfl⟩
      · intro key identifier hkey
        rw [heq] at hkey
        exact ih key identifier hkey
      · exact ih.nameOf hfree name

theorem Reachable.worded {d : Draft} (h : d.Reachable) : d.names.variableScope.Worded :=
  h.assigns Scope.isWord_free

end Draft

end BlockSketch
