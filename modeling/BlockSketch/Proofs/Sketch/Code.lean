import BlockSketch.Proofs.Sketch.Layout
import BlockSketch.Proofs.Text.Comments

/-!
The code of a sketch without its comments. Two sketches have the same lines of code if their
fragments have, section by section and key by key. Only the texts to include are compared as they
are, since one that occurs twice is written once.
-/

namespace BlockSketch

open Text

/-! ### The code of a section -/

namespace Bucket

def code (b : Bucket) : List (String × List (List Char)) := b.entries.map (Prod.map id uncommented)

theorem lookup_code (b : Bucket) (key : String) :
    b.code.lookup key = (b.get? key).map uncommented := by
  obtain ⟨l⟩ := b
  induction l with
  | nil => rfl
  | cons e rest ih =>
      have hcode : (⟨e :: rest⟩ : Bucket).code =
          (e.1, uncommented e.2) :: (⟨rest⟩ : Bucket).code := rfl
      rw [hcode, List.lookup_cons, get?_cons, ih]
      by_cases hkey : key = e.1
      · simp [hkey]
      · simp [hkey, beq_eq_false_iff_ne.2 hkey]

theorem code_replace (b : Bucket) (key text : String) :
    (b.replace key text).code =
      b.code.map fun e => if e.1 = key then (e.1, uncommented text) else e := by
  simp only [code, replace, List.map_map]
  refine List.map_congr_left fun e _ => ?_
  by_cases he : e.1 = key <;> simp [he]

/-- Fragments with the same code are stored alike where there is the same code. -/
theorem insert_code {b b' : Bucket} (h : b.code = b'.code) {text text' : String}
    (htext : uncommented text = uncommented text') (key : String) (overwrite : Bool) :
    (b.insert key text overwrite).1 = (b'.insert key text' overwrite).1 ∧
      (b.insert key text overwrite).2.code = (b'.insert key text' overwrite).2.code := by
  have hkey : b'.contains key = b.contains key := by
    have hlookup := congrArg (fun l => (l.lookup key).isSome) h
    simpa [lookup_code, contains] using hlookup.symm
  have hnew (b : Bucket) (text : String) : (⟨b.entries ++ [(key, text)]⟩ : Bucket).code =
      b.code ++ [(key, uncommented text)] := by
    simp [code]
  unfold insert
  rw [hkey]
  split
  · split
    · exact ⟨rfl, by rw [code_replace, code_replace, h, htext]⟩
    · exact ⟨rfl, h⟩
  · exact ⟨rfl, by rw [hnew, hnew, h, htext]⟩

theorem flatMap_texts (b : Bucket) : b.texts.flatMap uncommented = b.code.flatMap Prod.snd := by
  simp [texts, code, List.flatMap_map]

theorem flatMap_textsWithLast (b : Bucket) (key : String) :
    (b.textsWithLast key).flatMap uncommented =
      (b.code.filter (·.1 ≠ key)).flatMap Prod.snd ++ (b.code.lookup key).getD [] := by
  rw [textsWithLast, List.flatMap_append, lookup_code, code, List.filter_map, List.flatMap_map,
    List.flatMap_map]
  congr 1
  cases b.get? key with
  | none => rfl
  | some text => simp

end Bucket

/-! ### The code of all sections -/

namespace Sections

/-- The lines between the brackets of a function hold the code of its fragments. -/
theorem uncommented_bodyOf (texts : List String) :
    uncommented (bodyOf texts) = texts.flatMap uncommented := by
  have hbare : ∀ line ∈ codeLines (bodyOf texts), bare line = bare (line.drop 2) := by
    intro line hline
    obtain ⟨l, hl, rfl⟩ := List.mem_map.mp (List.mem_filter.mp hline).1
    rcases (indented_bodyOf texts).2 l hl with rfl | ⟨rest, rfl⟩
    · rfl
    · have hreturns : dropReturns ("  ".toList ++ rest) = ' ' :: ' ' :: dropReturns rest := by
        simp [dropReturns_cons]
      rw [hreturns, bare_blanks]
      rfl
  have hlines : (codeLines (bodyOf texts)).map bare = (texts.flatMap codeLines).map bare := by
    rw [← codeLines_bodyOf, List.map_map]
    exact List.map_congr_left hbare
  rw [uncommented, stripComments, hlines]
  exact stripComments_flatMap texts codeLines

theorem uncommented_preamble (s : Sections) :
    uncommented s.preamble = s.includes.texts.eraseDups.flatMap uncommented ++
      s.declarations.texts.flatMap uncommented ++ s.globals.texts.flatMap uncommented ++
      s.functions.texts.flatMap uncommented := by
  rw [uncommented, codeLines_preamble, stripComments_flatMap]
  simp only [List.flatMap_append]
  rfl

theorem endsLine_preamble (s : Sections) : EndsLine s.preamble :=
  (((endsLine_block _ _).append (endsLine_block _ _)).append (endsLine_block _ _)).append
    (endsLine_block _ _)

/-- Two states of the sections with the same code in each, and the same texts to include. -/
structure SameLines (s t : Sections) : Prop where
  includes : s.includes = t.includes
  code : ∀ sec, (s.get sec).code = (t.get sec).code

namespace SameLines

variable {s t : Sections}

theorem refl (s : Sections) : s.SameLines s := ⟨rfl, fun _ => rfl⟩

/-- Fragments with the same code are stored alike. Those to include have to be the same. -/
theorem insert (h : s.SameLines t) {sec : Section} {text text' : String}
    (htext : uncommented text = uncommented text') (hsec : sec = .includes → text = text')
    (key : String) (overwrite : Bool) :
    (s.insert sec key text overwrite).1 = (t.insert sec key text' overwrite).1 ∧
      (s.insert sec key text overwrite).2.SameLines (t.insert sec key text' overwrite).2 := by
  obtain ⟨hstored, hcode⟩ := Bucket.insert_code (h.code sec) htext key overwrite
  refine ⟨hstored, ?_, fun sec' => ?_⟩
  · cases sec with
    | includes =>
        obtain rfl := hsec rfl
        change (s.includes.insert key text overwrite).2 = (t.includes.insert key text overwrite).2
        rw [h.includes]
    | _ => exact h.includes
  · by_cases hsec' : sec' = sec
    · subst hsec'
      simpa only [Sections.insert, get_set_self] using hcode
    · simpa only [Sections.insert, get_set_of_ne _ _ hsec'] using h.code sec'

theorem flatMap_texts (h : s.SameLines t) (sec : Section) :
    (s.get sec).texts.flatMap uncommented = (t.get sec).texts.flatMap uncommented := by
  rw [Bucket.flatMap_texts, Bucket.flatMap_texts, h.code]

theorem preamble (h : s.SameLines t) : uncommented s.preamble = uncommented t.preamble := by
  have hdeclarations : s.declarations.texts.flatMap uncommented =
      t.declarations.texts.flatMap uncommented := h.flatMap_texts .declarations
  have hglobals : s.globals.texts.flatMap uncommented = t.globals.texts.flatMap uncommented :=
    h.flatMap_texts .globals
  have hfunctions : s.functions.texts.flatMap uncommented =
      t.functions.texts.flatMap uncommented := h.flatMap_texts .functions
  rw [uncommented_preamble, uncommented_preamble, h.includes, hdeclarations, hglobals, hfunctions]

theorem textsWithLast (h : s.SameLines t) (sec : Section) (key : String) :
    ((s.get sec).textsWithLast key).flatMap uncommented =
      ((t.get sec).textsWithLast key).flatMap uncommented := by
  rw [Bucket.flatMap_textsWithLast, Bucket.flatMap_textsWithLast, h.code]

/-- Sketches from such sections, with rests of the same code, have the same code. -/
theorem assemble (h : s.SameLines t) {body body' : String}
    (hbody : uncommented body = uncommented body') :
    uncommented (s.assemble body) = uncommented (t.assemble body') := by
  have hsetup : uncommented (bodyOf s.setupTexts) = uncommented (bodyOf t.setupTexts) := by
    rw [uncommented_bodyOf, uncommented_bodyOf]
    exact h.textsWithLast .setups userSetupKey
  have hloop : uncommented (bodyOf (s.loopTexts body)) =
      uncommented (bodyOf (t.loopTexts body')) := by
    rw [uncommented_bodyOf, uncommented_bodyOf]
    simp only [loopTexts, List.flatMap_append, List.flatMap_singleton, hbody]
    congr 2
    · exact h.flatMap_texts .loopStarts
    · exact h.textsWithLast .loops userLoopKey
  have hparts (u : Sections) (rest : String) : uncommented (u.assemble rest) =
      uncommented u.preamble ++ uncommented "void setup() \x7b\n" ++
        uncommented (bodyOf u.setupTexts) ++ uncommented "\x7d\n\nvoid loop() \x7b\n" ++
        uncommented (bodyOf (u.loopTexts rest)) ++ uncommented "\x7d\n" := by
    have hfirst : EndsLine "void setup() \x7b\n" := endsLine_of_getLast? rfl
    have hmiddle : EndsLine "\x7d\n\nvoid loop() \x7b\n" := endsLine_of_getLast? rfl
    simp only [assemble_eq, String.append_assoc, u.endsLine_preamble.uncommented_append,
      hfirst.uncommented_append, hmiddle.uncommented_append,
      (indented_bodyOf _).1.uncommented_append, List.append_assoc]
  rw [hparts, hparts, h.preamble, hsetup, hloop]

end SameLines

end Sections

end BlockSketch
