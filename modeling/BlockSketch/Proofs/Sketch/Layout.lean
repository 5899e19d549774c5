import BlockSketch.Proofs.Sketch.Placement
import BlockSketch.Proofs.Text.CodeLines

/-!
The layout of a sketch loses no line. The two main functions hold the lines of their fragments, each
once and in order, with two blanks in front of them, and no other lines that are not blank. So no
fragment can make a line that looks like the head or the end of a function.
-/

namespace BlockSketch

open Text

/-! ### Entries in the order of a sketch -/

namespace Bucket

/-- The entries of a bucket in order, that under a given key moved to the end. -/
def entriesWithLast (b : Bucket) (key : String) : List (String × String) :=
  b.entries.filter (·.1 ≠ key) ++ b.entries.filter (·.1 = key)

theorem map_snd_filter_key {b : Bucket} (h : b.keys.Nodup) (key : String) :
    (b.entries.filter (·.1 = key)).map Prod.snd = (b.get? key).toList := by
  obtain ⟨l⟩ := b
  induction l with
  | nil => rfl
  | cons e rest ih =>
      obtain ⟨hhead, hrest⟩ := List.nodup_cons.mp h
      rw [get?_cons, List.filter_cons]
      by_cases hkey : key = e.1
      · subst hkey
        -- the key is not among the other entries
        have hnone := get?_eq_none_iff (b := ⟨rest⟩).mpr hhead
        have hothers := ih hrest
        rw [hnone] at hothers
        simpa using hothers
      · simpa [Ne.symm hkey, hkey] using ih hrest

theorem textsWithLast_eq {b : Bucket} (h : b.keys.Nodup) (key : String) :
    b.textsWithLast key = (b.entriesWithLast key).map Prod.snd := by
  rw [textsWithLast, entriesWithLast, List.map_append, map_snd_filter_key h]

end Bucket

/-! ### Lines inside a function -/

namespace Sections

def indentedLine (line : String) : String := if isBlank line then "" else "  " ++ line

def bodyLines (text : String) : List String :=
  if isBlank text then [] else (lines (trimLineEnds text)).map indentedLine

theorem bodyText_eq (text : String) :
    bodyText text = String.join ((bodyLines text).map (· ++ "\n")) := by
  unfold bodyText bodyLines
  split
  · rfl
  · rw [List.map_map]
    congr 2
    funext line
    simp only [bodyLine, indentedLine, Function.comp_apply]
    split <;> rfl

theorem join_bodyTexts (texts : List String) :
    String.join (texts.map bodyText) =
      String.join ((texts.flatMap bodyLines).map (· ++ "\n")) := by
  induction texts with
  | nil => rfl
  | cons text rest ih =>
      simp only [List.map_cons, String.join_cons, ih, bodyText_eq, List.flatMap_cons,
        List.map_append, String.join_append]

/-- A line inside a function has no line feed, and it is empty or indented. -/
theorem indented_of_mem_bodyLines {text line : String} (h : line ∈ bodyLines text) :
    '\n' ∉ line.toList ∧ (line = "" ∨ "  ".toList <+: line.toList) := by
  unfold bodyLines at h
  split at h
  · cases h
  · obtain ⟨l, hl, rfl⟩ := List.mem_map.mp h
    obtain ⟨cs, hcs, rfl⟩ := List.mem_map.mp hl
    have hfeed := not_feed_mem_lineChars hcs
    unfold indentedLine
    split
    · exact ⟨List.not_mem_nil, .inl rfl⟩
    · exact ⟨by simpa using hfeed, .inr ⟨cs, by simp⟩⟩

/-- Without its indentation, a line inside a function is the line that was put there. -/
theorem keepCode_indentedLine (line : String) :
    (keepCode [(indentedLine line).toList]).map (·.drop 2) = keepCode [line.toList] := by
  unfold indentedLine isBlank
  cases hblank : line.toList.all isBlankChar with
  | true => simp [keepCode, hblank]
  | false =>
      have hdrop : dropReturns (' ' :: ' ' :: line.toList) =
          ' ' :: ' ' :: dropReturns line.toList := by
        simp [dropReturns_cons]
      simp [keepCode, hblank, hdrop]

theorem keepCode_map_indentedLine (ls : List String) :
    (keepCode ((ls.map indentedLine).map String.toList)).map (·.drop 2) =
      keepCode (ls.map String.toList) := by
  induction ls with
  | nil => rfl
  | cons line rest ih =>
      have hcons (l : List Char) (ls : List (List Char)) :
          keepCode (l :: ls) = keepCode [l] ++ keepCode ls := keepCode_append [l] ls
      rw [List.map_cons, List.map_cons, List.map_cons, hcons, hcons line.toList, List.map_append,
        ih, keepCode_indentedLine]

theorem keepCode_bodyLines (text : String) :
    (keepCode ((bodyLines text).map String.toList)).map (·.drop 2) = codeLines text := by
  unfold bodyLines
  split
  next hblank => rw [codeLines_of_isBlank hblank]; rfl
  next => rw [keepCode_map_indentedLine, ← codeLines_eq, codeLines_trimLineEnds]

def bodyOf (texts : List String) : String := String.join (texts.map bodyText)

/-- The lines between the brackets of a function are those of its fragments, and behind the last one
the text ends. -/
theorem feedLines_bodyOf (texts : List String) :
    feedLines (bodyOf texts) = (texts.flatMap bodyLines).map String.toList ++ [[]] := by
  rw [bodyOf, join_bodyTexts]
  refine feedLines_join fun line hline => ?_
  obtain ⟨text, -, hmem⟩ := List.mem_flatMap.mp hline
  exact (indented_of_mem_bodyLines hmem).1

theorem codeLines_bodyOf (texts : List String) :
    (codeLines (bodyOf texts)).map (·.drop 2) = texts.flatMap codeLines := by
  rw [codeLines, feedLines_bodyOf, keepCode_append]
  induction texts with
  | nil => rfl
  | cons text rest ih =>
      have hempty : keepCode [[]] = [] := rfl
      rw [hempty, List.append_nil] at ih ⊢
      rw [List.flatMap_cons, List.map_append, keepCode_append, List.map_append, ih,
        keepCode_bodyLines, List.flatMap_cons]

/-! ### Blocks in front of the functions -/

/-- The lines of texts with a separator between them are the lines of both. -/
def Separates (separator : String) : Prop :=
  ∀ a b, codeLines (a ++ separator ++ b) = codeLines a ++ codeLines b

theorem separates_feed : Separates "\n" := codeLines_append_feed

theorem separates_emptyLine : Separates "\n\n" := by
  intro a b
  have htext : a ++ "\n\n" ++ b = a ++ "\n" ++ ("" ++ "\n" ++ b) := String.ext (by simp)
  rw [htext, codeLines_append_feed, codeLines_append_feed, codeLines_empty, List.nil_append]

theorem Separates.codeLines_intercalate {separator : String} (h : Separates separator)
    (texts : List String) :
    codeLines (separator.intercalate texts) = texts.flatMap codeLines := by
  induction texts with
  | nil => exact codeLines_empty
  | cons text rest ih =>
      cases rest with
      | nil => simp
      | cons next rest =>
          rw [String.intercalate_cons_cons, h, ih]
          rfl

/-- The fragments that a block leaves out have only blank lines. -/
theorem flatMap_codeLines_kept (texts : List String) :
    ((texts.map trimLineEnds).filter (fun t => !isBlank t)).flatMap codeLines =
      texts.flatMap codeLines := by
  induction texts with
  | nil => rfl
  | cons text rest ih =>
      rw [List.map_cons, List.filter_cons, List.flatMap_cons, ← ih, ← codeLines_trimLineEnds text]
      cases hblank : isBlank (trimLineEnds text) with
      | true => simp [codeLines_of_isBlank hblank]
      | false => simp

theorem codeLines_block {separator : String} (h : Separates separator) (texts : List String) :
    codeLines (block separator texts) = texts.flatMap codeLines := by
  rw [← flatMap_codeLines_kept, block]
  split
  next hempty =>
      rw [List.isEmpty_iff.mp hempty]
      exact codeLines_empty
  next =>
      have hend := separates_emptyLine (separator.intercalate
        ((texts.map trimLineEnds).filter (fun t => !isBlank t))) ""
      rw [String.append_empty, codeLines_empty, List.append_nil] at hend
      rw [hend, h.codeLines_intercalate]

theorem endsLine_block (separator : String) (texts : List String) :
    EndsLine (block separator texts) := by
  rw [block]
  split
  · exact endsLine_empty
  · have hend (t : String) : t ++ "\n\n" = t ++ "\n" ++ "\n" := String.ext (by simp)
    exact .inr ⟨_, hend _⟩

theorem codeLines_preamble (s : Sections) :
    codeLines s.preamble = (s.includes.texts.eraseDups ++ s.declarations.texts ++ s.globals.texts ++
      s.functions.texts).flatMap codeLines := by
  simp only [preamble, String.append_assoc, (endsLine_block _ _).codeLines_append,
    codeLines_block separates_feed, codeLines_block separates_emptyLine, List.flatMap_append,
    List.append_assoc]

/-! ### The whole sketch -/

def Indented (text : String) : Prop :=
  EndsLine text ∧ ∀ line ∈ feedLines text, line = [] ∨ "  ".toList <+: line

def marks : List String := ["void setup() \x7b", "void loop() \x7b", "\x7d"]

theorem indented_bodyOf (texts : List String) : Indented (bodyOf texts) := by
  constructor
  · rw [bodyOf, join_bodyTexts]
    cases texts.flatMap bodyLines using List.reverseRecOn with
    | nil => exact endsLine_empty
    | append_singleton lines line =>
        exact .inr ⟨String.join (lines.map (· ++ "\n")) ++ line, by simp [String.append_assoc]⟩
  · intro line hline
    rw [feedLines_bodyOf, List.mem_append, List.mem_singleton] at hline
    rcases hline with hline | rfl
    · obtain ⟨l, hl, rfl⟩ := List.mem_map.mp hline
      obtain ⟨text, -, hmem⟩ := List.mem_flatMap.mp hl
      exact (indented_of_mem_bodyLines hmem).2.imp_left (congrArg String.toList)
    · exact .inl rfl

/-- An indented text has no line that starts like the head or the end of a main function. -/
theorem Indented.not_mark {text : String} (h : Indented text) {line : List Char}
    (hline : line ∈ feedLines text) {mark : String} (hmark : mark ∈ marks) :
    ¬ mark.toList <+: line := by
  have hmarks : ∀ mark ∈ marks, mark.toList ≠ [] ∧ mark.toList.head? ≠ some ' ' := by decide
  obtain ⟨hne, hhead⟩ := hmarks mark hmark
  intro hstarts
  obtain ⟨c, cs, hchars⟩ := List.exists_cons_of_ne_nil hne
  rw [hchars] at hstarts hhead
  rcases h.2 line hline with rfl | ⟨rest, rfl⟩
  · cases List.prefix_nil.mp hstarts
  · exact hhead (congrArg some (List.cons_prefix_cons.mp hstarts).1)

/-- The sections that are made by placing fragments, those of each section one after the other. -/
def ofPlacements (ps : Section → List Placement) : Sections where
  includes := .ofPlacements (ps .includes)
  declarations := .ofPlacements (ps .declarations)
  globals := .ofPlacements (ps .globals)
  functions := .ofPlacements (ps .functions)
  setups := .ofPlacements (ps .setups)
  loops := .ofPlacements (ps .loops)
  loopStarts := .ofPlacements (ps .loopStarts)

theorem assemble_eq (s : Sections) (body : String) :
    s.assemble body = s.preamble ++ "void setup() \x7b\n" ++ bodyOf s.setupTexts ++
      "\x7d\n\nvoid loop() \x7b\n" ++ bodyOf (s.loopTexts body) ++ "\x7d\n" := by
  apply String.ext
  simp [assemble, function, bodyOf]

/-- Whatever is placed in the sections, a sketch is its preamble and the two main functions. Between
their brackets every line is empty or indented, and the lines that are not blank are, without their
indentation, those of the fragments of the function, in the order of the entries except for the
user's own code, which comes last; in `loop`, what runs first in every round comes before them and
the rest of the program behind. The lines of the preamble are those of the other sections. No line
between the brackets starts like the head or the end of a main function. -/
theorem assemble_keeps_every_line (ps : Section → List Placement) (body : String) :
    let s := ofPlacements ps
    ∃ setup loop : String,
      s.assemble body = s.preamble ++ "void setup() \x7b\n" ++ setup ++
        "\x7d\n\nvoid loop() \x7b\n" ++ loop ++ "\x7d\n" ∧
      Indented setup ∧ Indented loop ∧
      (codeLines setup).map (·.drop 2) =
        (s.setups.entriesWithLast userSetupKey).flatMap (fun e => codeLines e.2) ∧
      (codeLines loop).map (·.drop 2) =
        (s.loopStarts.entries ++ s.loops.entriesWithLast userLoopKey).flatMap
          (fun e => codeLines e.2) ++ codeLines body ∧
      codeLines s.preamble = (s.includes.texts.eraseDups ++ s.declarations.texts ++
        s.globals.texts ++ s.functions.texts).flatMap codeLines ∧
      ∀ line ∈ feedLines setup ++ feedLines loop, ∀ mark ∈ marks, ¬ mark.toList <+: line := by
  intro s
  have hsetups := Bucket.textsWithLast_eq (Bucket.nodup_keys_ofPlacements (ps .setups)) userSetupKey
  have hloops := Bucket.textsWithLast_eq (Bucket.nodup_keys_ofPlacements (ps .loops)) userLoopKey
  have hsetup := indented_bodyOf s.setupTexts
  have hloop := indented_bodyOf (s.loopTexts body)
  refine ⟨_, _, s.assemble_eq body, hsetup, hloop, ?_, ?_, s.codeLines_preamble, ?_⟩
  · rw [codeLines_bodyOf, setupTexts, show s.setups.textsWithLast _ = _ from hsetups,
      List.flatMap_map]
    rfl
  · rw [codeLines_bodyOf, loopTexts, show s.loops.textsWithLast _ = _ from hloops, Bucket.texts,
      ← List.map_append, List.flatMap_append, List.flatMap_map, List.flatMap_singleton]
    rfl
  · intro line hline mark hmark
    rcases List.mem_append.mp hline with hline | hline
    · exact hsetup.not_mark hline hmark
    · exact hloop.not_mark hline hmark

end Sections

end BlockSketch
