import BlockSketch.Generation
import BlockSketch.Proofs.Emission.Journal
import BlockSketch.Proofs.Sketch.Bucket
import Mathlib.Data.List.Induction

/-!
What becomes of fragments that are placed. Outside the functions, a section of a draft is what its
placements make of it one after the other: under a key stands the text of the last placement that
replaces others, or else of the first one. What stands in the sections of the two main functions is
shown in the sketch.
-/

namespace BlockSketch

/-- A fragment that is offered to a section, and whether it replaces another one. -/
structure Placement where
  key : String
  text : String
  overwrite : Bool
  deriving DecidableEq, Repr

/-! ### Sections from their placements -/

def Bucket.ofPlacements (ps : List Placement) : Bucket :=
  ps.foldl (fun b p => (b.insert p.key p.text p.overwrite).2) .empty

namespace Placement

def under (key : String) (ps : List Placement) : List Placement := ps.filter (·.key = key)

/-- The text that some placements leave under a key: that of the last one which replaces others, or
else of the first one. -/
def standing? (ps : List Placement) (key : String) : Option String :=
  ((((under key ps).filter (·.overwrite)).getLast?).or (under key ps).head?).map (·.text)

theorem mem_under {key : String} {p : Placement} {ps : List Placement} :
    p ∈ under key ps ↔ p ∈ ps ∧ p.key = key := by
  simp [under]

theorem standing?_eq_none_iff {ps : List Placement} {key : String} :
    standing? ps key = none ↔ under key ps = [] := by
  rw [standing?, Option.map_eq_none_iff, Option.or_eq_none_iff, List.head?_eq_none_iff]
  exact and_iff_right_of_imp fun h => by rw [h]; rfl

/-- What stands under a key is one of its placements, and one that replaces others if any does. -/
theorem exists_standing? {ps : List Placement} {key : String} {p : Placement}
    (hp : p ∈ under key ps) :
    ∃ p' ∈ under key ps, standing? ps key = some p'.text ∧
      (p.overwrite = true → p'.overwrite = true) := by
  cases hlast : ((under key ps).filter (·.overwrite)).getLast? with
  | some p' =>
      obtain ⟨hmem, hoverwrite⟩ := List.mem_filter.mp (List.mem_of_getLast? hlast)
      exact ⟨p', hmem, by rw [standing?, hlast]; rfl, fun _ => hoverwrite⟩
  | none =>
      obtain ⟨p', hhead⟩ : ∃ p', (under key ps).head? = some p' :=
        Option.ne_none_iff_exists'.mp (mt List.head?_eq_none_iff.mp (List.ne_nil_of_mem hp))
      refine ⟨p', List.mem_of_head? hhead, by rw [standing?, hlast, hhead]; rfl, fun h => ?_⟩
      have hnone := List.getLast?_eq_none_iff.mp hlast
      exact absurd (List.mem_filter.mpr ⟨hp, h⟩) (hnone ▸ List.not_mem_nil)

/-- Where all placements under a key replace others, the last one stands. -/
theorem standing?_eq_getLast? {ps : List Placement} {key : String}
    (h : ∀ p ∈ under key ps, p.overwrite = true) :
    standing? ps key = (under key ps).getLast?.map (·.text) := by
  have hfilter : (under key ps).filter (·.overwrite) = under key ps :=
    List.filter_eq_self.mpr h
  rw [standing?, hfilter]
  cases hlast : (under key ps).getLast? with
  | some p => rfl
  | none => rw [List.getLast?_eq_none_iff.mp hlast]; rfl

theorem standing?_append_singleton (ps : List Placement) (p : Placement) (key : String) :
    standing? (ps ++ [p]) key =
      if key = p.key ∧ (p.overwrite ∨ standing? ps p.key = none) then some p.text
      else standing? ps key := by
  by_cases hkey : key = p.key
  · subst hkey
    have hunder : under p.key (ps ++ [p]) = under p.key ps ++ [p] := by simp [under]
    rw [standing?, hunder, List.filter_append, List.head?_append]
    cases hoverwrite : p.overwrite with
    | true => simp [hoverwrite]
    | false =>
        -- what stands there stays, and only an empty place is taken
        cases hstanding : standing? ps p.key with
        | none => simp [hoverwrite, standing?_eq_none_iff.mp hstanding]
        | some text =>
            obtain ⟨q, hq, rfl⟩ := Option.map_eq_some_iff.mp hstanding
            have hnew : [p].filter (·.overwrite) = [] := by simp [hoverwrite]
            rw [hnew, List.append_nil, ← Option.or_assoc, hq]
            simp
  · have hunder : under key (ps ++ [p]) = under key ps := by simp [under, Ne.symm hkey]
    rw [standing?, hunder, if_neg fun h => hkey h.1]
    rfl

end Placement

theorem Bucket.get?_ofPlacements (ps : List Placement) (key : String) :
    (ofPlacements ps).get? key = Placement.standing? ps key := by
  induction ps using List.reverseRecOn generalizing key with
  | nil => rfl
  | append_singleton ps p ih =>
      rw [ofPlacements, List.foldl_append, Placement.standing?_append_singleton]
      change ((ofPlacements ps).insert p.key p.text p.overwrite).2.get? key = _
      rw [get?_insert, ih, ih]

theorem Bucket.nodup_keys_ofPlacements (ps : List Placement) : (ofPlacements ps).keys.Nodup := by
  induction ps using List.reverseRecOn with
  | nil => exact List.nodup_nil
  | append_singleton ps p ih =>
      rw [ofPlacements, List.foldl_append]
      exact nodup_keys_insert ih p.key p.text p.overwrite

/-! ### Placements in a journal -/

def Entry.placement? (sec : Section) : Entry → Option Placement
  | edited (.place sec' key text overwrite) _ =>
      if sec' = sec then some ⟨key, text, overwrite⟩ else none
  | _ => none

def placements (sec : Section) (entries : List Entry) : List Placement :=
  entries.filterMap (Entry.placement? sec)

theorem placements_append (sec : Section) (entries entries' : List Entry) :
    placements sec (entries ++ entries') = placements sec entries ++ placements sec entries' :=
  List.filterMap_append

theorem placements_subset {sec : Section} {entries entries' : List Entry} (h : entries ⊆ entries') :
    placements sec entries ⊆ placements sec entries' := fun _ hp => by
  obtain ⟨entry, hentry, hp⟩ := List.mem_filterMap.mp hp
  exact List.mem_filterMap.mpr ⟨entry, h hentry, hp⟩

theorem mem_placements {sec : Section} {entries : List Entry} {p : Placement} :
    p ∈ placements sec entries ↔
      ∃ stored, .edited (.place sec p.key p.text p.overwrite) stored ∈ entries := by
  rw [placements, List.mem_filterMap]
  constructor
  · rintro ⟨entry, hentry, hp⟩
    unfold Entry.placement? at hp
    split at hp
    next sec' key text overwrite stored =>
        split at hp
        next hsec =>
            obtain rfl := Option.some.inj hp
            exact ⟨stored, hsec ▸ hentry⟩
        next => cases hp
    next => cases hp
  · rintro ⟨stored, hentry⟩
    exact ⟨_, hentry, if_pos rfl⟩

theorem mem_placements_edited (sec : Section) (p : Placement) (past : List Entry) (stored : Bool) :
    p ∈ placements sec (past ++ [.edited (.place sec p.key p.text p.overwrite) stored]) :=
  mem_placements.mpr ⟨stored, List.mem_append_right _ List.mem_cons_self⟩

/-- Outside the functions, the sections of a draft are what the placements in its journal make. -/
def Journal.Replays (j : Journal) : Prop :=
  ∀ sec, sec ≠ .functions → j.draft.sections.get sec = .ofPlacements (placements sec j.entries)

namespace Journal.Replays

variable {j : Journal}

/-- An edit that offers nothing and leaves the sections alone besides the functions. -/
theorem unchanged (h : j.Replays) {e : Edit}
    (he : ∀ sec answer, Entry.placement? sec (.edited e answer) = none)
    (hsections : ∀ sec, sec ≠ .functions →
      (j.draft.apply e).2.sections.get sec = j.draft.sections.get sec) : (j.edit e).Replays := by
  intro sec hsec
  change (j.draft.apply e).2.sections.get sec = .ofPlacements (placements sec (j.entries ++ [_]))
  rw [hsections sec hsec, placements_append, h sec hsec]
  simp [placements, he]

theorem edit (h : j.Replays) (e : Edit) : (j.edit e).Replays := by
  cases e with
  | place sec' key text overwrite =>
      intro sec hsec
      change ((j.draft.sections.insert sec' key text overwrite).2).get sec =
        .ofPlacements (placements sec (j.entries ++ [_]))
      rw [placements_append]
      by_cases heq : sec' = sec
      · subst heq
        have hnew (stored : (Edit.place sec' key text overwrite).Answer) :
            placements sec' [.edited (.place sec' key text overwrite) stored] =
              [⟨key, text, overwrite⟩] := by
          simp [placements, Entry.placement?]
        rw [hnew, Bucket.ofPlacements, List.foldl_append, ← Bucket.ofPlacements, ← h sec' hsec]
        exact Sections.get_set_self _ _ _
      · have hnone (stored : (Edit.place sec' key text overwrite).Answer) :
            placements sec [.edited (.place sec' key text overwrite) stored] = [] := by
          simp [placements, Entry.placement?, heq]
        rw [hnone, List.append_nil, ← h sec hsec]
        exact Sections.get_set_of_ne _ _ (Ne.symm heq)
  | helper name body =>
      refine h.unchanged (fun _ _ => rfl) fun sec hsec => ?_
      simp only [Draft.apply, Draft.helper]
      cases j.draft.helpers.find? name with
      | some identifier => rfl
      | none => exact Sections.get_set_of_ne _ _ hsec
  | identifier name ns => exact h.unchanged (fun _ _ => rfl) fun _ _ => rfl
  | freshVariable name => exact h.unchanged (fun _ _ => rfl) fun _ _ => rfl
  | claim node pin usage label => exact h.unchanged (fun _ _ => rfl) fun _ _ => rfl
  | report node concern message =>
      exact h.unchanged (fun _ _ => rfl) fun _ _ => by cases message <;> rfl

theorem coded (h : j.Replays) (n : Node) (code : Code) : (j.note (.coded n code)).Replays := by
  intro sec hsec
  change j.draft.sections.get sec = .ofPlacements (placements sec (j.entries ++ [.coded n code]))
  rw [placements_append, h sec hsec]
  exact congrArg _ (List.append_nil _).symm

theorem get?_eq (h : j.Replays) {sec : Section} (hsec : sec ≠ .functions) (key : String) :
    (j.draft.sections.get sec).get? key = Placement.standing? (placements sec j.entries) key := by
  rw [h sec hsec, Bucket.get?_ofPlacements]

end Journal.Replays

theorem Journal.replays_start (d : Diagnostics) :
    ({ draft := { diagnostics := d } } : Journal).Replays := by
  intro sec _
  cases sec <;> rfl

/-! ### The main functions -/

inductive MainFunction where
  | setup
  | loop
  deriving DecidableEq, Repr

namespace MainFunction

def name : MainFunction → String
  | setup => "setup"
  | loop => "loop"

def sec : MainFunction → Section
  | setup => .setups
  | loop => .loops

theorem sec_ne_functions (main : MainFunction) : main.sec ≠ .functions := by
  cases main <;> simp [sec]

theorem sec_injective {main main' : MainFunction} (h : main.sec = main'.sec) : main = main' := by
  cases main <;> cases main' <;> simp_all [sec]

end MainFunction

def Shows (source : String) (main : MainFunction) (text : String) : Prop :=
  ∃ before texts after, source = before ++ Sections.function main.name texts ++ after ∧
    text ∈ texts

theorem Bucket.mem_textsWithLast {b : Bucket} {key text : String} (h : b.get? key = some text)
    (last : String) : text ∈ b.textsWithLast last := by
  rw [textsWithLast, List.mem_append]
  by_cases hkey : key = last
  · subst hkey
    exact .inr (by simp [h])
  · obtain ⟨before, after, hentries, -⟩ := List.lookup_eq_some_iff.mp h
    refine .inl (List.mem_map.mpr ⟨(key, text), List.mem_filter.mpr ⟨?_, by simpa using hkey⟩, rfl⟩)
    simp [hentries]

/-- What stands under a key in the section of a main function is shown in the sketch. -/
theorem Sections.shows_assemble {s : Sections} {main : MainFunction} {key text : String}
    (h : (s.get main.sec).get? key = some text) (body : String) :
    Shows (s.assemble body) main text := by
  have hmem := Bucket.mem_textsWithLast h
  cases main with
  | setup =>
      refine ⟨s.preamble, s.setupTexts, "\n" ++ function "loop" (s.loopTexts body), ?_, hmem _⟩
      simp only [assemble, MainFunction.name, String.append_assoc]
  | loop =>
      refine ⟨s.preamble ++ function "setup" s.setupTexts ++ "\n", s.loopTexts body, "", ?_, ?_⟩
      · simp only [assemble, MainFunction.name, String.append_empty]
      · exact List.mem_append_left _ (List.mem_append_right _ (hmem _))

theorem Shows.withHeading {s : Sketch} {main : MainFunction} {text : String}
    (h : Shows s.source main text) (board : Board) (wanted : Bool) :
    Shows (s.withHeading board wanted).source main text := by
  cases wanted with
  | false => exact h
  | true =>
      obtain ⟨before, texts, after, hsource, hmem⟩ := h
      refine ⟨heading board ++ before, texts, after, ?_, hmem⟩
      simp [Sketch.withHeading, hsource, String.append_assoc]

end BlockSketch
