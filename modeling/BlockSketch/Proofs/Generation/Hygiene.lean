import BlockSketch.Proofs.Block.OwnTexts
import BlockSketch.Proofs.Generation.Preamble
import BlockSketch.Proofs.Generation.SketchWords
import BlockSketch.Proofs.Text.Numeral

/-!
Which words users' names may take away from a sketch. A table of names hands out every legal
identifier that is not reserved, and no other. So the keywords of C++ and the words that recipes
write by themselves are safe from users' names exactly as far as they are reserved, and many of them
are not: a variable or procedure can get such a word if its name spells it, with a number behind it
or without.
-/

namespace BlockSketch

open Block Identifier Text

def Cpp.keywords : List String :=
  ["alignas", "alignof", "and", "and_eq", "asm", "auto", "bitand", "bitor", "bool", "break",
    "case", "catch", "char", "char16_t", "char32_t", "class", "compl", "const", "constexpr",
    "const_cast", "continue", "decltype", "default", "delete", "do", "double", "dynamic_cast",
    "else", "enum", "explicit", "export", "extern", "false", "float", "for", "friend", "goto",
    "if", "inline", "int", "long", "mutable", "namespace", "new", "noexcept", "not", "not_eq",
    "nullptr", "operator", "or", "or_eq", "private", "protected", "public", "register",
    "reinterpret_cast", "return", "short", "signed", "sizeof", "static", "static_assert",
    "static_cast", "struct", "switch", "template", "this", "thread_local", "throw", "true", "try",
    "typedef", "typeid", "typename", "union", "unsigned", "using", "virtual", "void", "volatile",
    "wchar_t", "while", "xor", "xor_eq"]

namespace Identifier

/-! ### Legal words -/

/-- A legal identifier is spelled as it is. -/
theorem spell_of_isLegal {s : String} (h : IsLegal s) : spell s = s := by
  have hword : ∀ d ∈ s.toList, spellChar d = [d] := fun d hd => by
    rw [spellChar, if_pos ((isWord_iff.mp h.isWord).2 d hd)]
  have hspelled : s.toList.flatMap spellChar = s.toList := by
    rw [List.flatMap_congr hword, List.flatMap_singleton']
  obtain ⟨c, rest, hchars, hstart, -⟩ := h
  rw [spell, spellChars, hspelled, hchars]
  simp [isDigit_of_startsIdentifier hstart, ← hchars]

/-! ### What is handed out -/

/-- An identifier is handed out in a namespace when users' names are asked for, one after the
other. -/
def HandedOut (ns : Namespace) (x : String) : Prop :=
  ∃ calls : List Call, (∀ c ∈ calls, ∃ name ns', c = .nameOf name ns') ∧
    ∃ a ∈ NameTable.empty.answers calls, a.call.ns = ns ∧ a.identifier = x

theorem NameTable.records_answers (calls : List Call) :
    Records (empty.answers calls) (empty.after calls) := by
  simpa using records_empty.after calls

/-- Exactly the legal identifiers that are not reserved are handed out. -/
theorem handedOut_iff (ns : Namespace) (x : String) :
    HandedOut ns x ↔ IsLegal x ∧ x ∉ reservedWords := by
  constructor
  · rintro ⟨calls, -, a, ha, -, rfl⟩
    exact (NameTable.records_answers calls).legal a ha
  · rintro ⟨hlegal, hfree⟩
    refine ⟨[.nameOf x ns], by simp, _, List.mem_cons_self, NameTable.call_answer _ _ ▸ rfl, ?_⟩
    have hnew : (NameTable.empty.answer (.nameOf x ns)).1.isNew = true := by cases ns <;> rfl
    obtain ⟨-, hspelled, -⟩ := NameTable.records_empty.identifier_cases hnew
    have hidentifier := hspelled (by
      rw [Call.name, spell_of_isLegal hlegal]
      simpa [NameTable.allocated] using hfree)
    rw [hidentifier, Call.name, spell_of_isLegal hlegal]

/-- Every identifier that is handed out is a candidate for a name that was asked for, by then or
before. -/
theorem exists_candidate {calls : List Call} {a : Answer} (ha : a ∈ NameTable.empty.answers calls) :
    ∃ c ∈ calls, ∃ k, a.identifier = Scope.candidate (spell c.name) k := by
  -- the identifier was chosen by some answer
  obtain ⟨first, hfirst, hnew, hsame⟩ : ∃ first ∈ NameTable.empty.answers calls,
      first.isNew = true ∧ first.identifier = a.identifier := by
    cases hkey : a.call.key? with
    | none => exact ⟨a, ha, NameTable.isNew_of_mem_answers ha hkey, rfl⟩
    | some key =>
        obtain ⟨first, hfirst, hnew, -, -, hsame⟩ :=
          (NameTable.records_answers calls).exists_chosen ha hkey
        exact ⟨first, hfirst, hnew, hsame⟩
  have hcall : first.call ∈ calls := by
    rw [← NameTable.map_call_answers .empty calls]
    exact List.mem_map_of_mem hfirst
  obtain ⟨earlier, later, hrun⟩ := List.append_of_mem hfirst
  obtain ⟨t, c, hrecords, rfl⟩ := NameTable.records_empty.exists_of_answers hrun
  rw [NameTable.call_answer] at hcall
  refine ⟨c, hcall, ?_⟩
  obtain ⟨-, hbase, hnumbered⟩ := hrecords.identifier_cases hnew
  rw [← hsame]
  by_cases hspell : spell c.name ∈ reservedWords ++ NameTable.allocated ([] ++ earlier) c.ns
  · obtain ⟨k, hk, hidentifier, -⟩ := hnumbered hspell
    exact ⟨k, by rw [hidentifier, Scope.candidate, if_neg (by omega)]⟩
  · exact ⟨1, by rw [hbase hspell, Scope.candidate, if_pos (Nat.le_refl 1)]⟩

def mayBecome (base word : String) : Bool :=
  base.toList.isPrefixOf word.toList && (word.toList.drop base.toList.length).all Text.isDigit

theorem mayBecome_candidate (base : String) (k : Nat) :
    mayBecome base (Scope.candidate base k) = true := by
  unfold Scope.candidate
  split
  · simp [mayBecome]
  · have hdigits : (toString k).toList.all Text.isDigit = true :=
      List.all_eq_true.mpr fun c hc => Text.isDigit_of_mem_toString hc
    rw [mayBecome, String.toList_append, List.drop_left, hdigits]
    simp

/-- Every identifier that is handed out is a name that was asked for, as it is spelled, with digits
behind it or without. -/
theorem mayBecome_of_mem_answers {calls : List Call} {a : Answer}
    (ha : a ∈ NameTable.empty.answers calls) :
    ∃ c ∈ calls, mayBecome (spell c.name) a.identifier = true := by
  obtain ⟨c, hc, k, hidentifier⟩ := exists_candidate ha
  exact ⟨c, hc, hidentifier ▸ mayBecome_candidate _ k⟩

end Identifier

/-! ### The words of a sketch -/

def Program.suppliedWords (p : Program) : List String := p.nodes.flatMap Node.suppliedWords

theorem endsApart_heading (board : Board) : endsApart (heading board) = true := by
  cases board <;> decide +kernel

section Run

variable {p : Program} {board : Board} {header : Bool} {c : Compiled} {places : ParentIndex}
  {body : String} {j : Journal}

theorem Registry.Ran.told_legal {r : Registry} (h : r.Ran p board header c places body j)
    {x : String} (hx : x ∈ toldIdentifiers j.entries) :
    IsLegal x ∧ x ∉ reservedWords ∧
      ∃ call ∈ askedCalls j.entries, mayBecome (spell call.name) x = true := by
  obtain ⟨calls, hanswered⟩ := h.exists_answered
  obtain ⟨a, ha, rfl⟩ := hanswered.told x hx
  obtain ⟨hlegal, hfree⟩ := (NameTable.records_answers calls).legal a ha
  obtain ⟨call, hcall, hbecomes⟩ := mayBecome_of_mem_answers ha
  exact ⟨hlegal, hfree, call, hanswered.asked hcall, hbecomes⟩

/-- Where the words of a sketch come from, as far as they may be identifiers. -/
theorem Registry.Ran.mem_of_mem_words (h : standard.Ran p board header c places body j)
    {x : String} (hx : x ∈ words c.sketch.source) (hlegal : IsLegal x) :
    x ∈ vocabulary ∨ x ∈ p.suppliedWords ∨ x ∈ toldIdentifiers j.entries ∨
      header = true ∧ x ∈ words (heading board) := by
  let L := Lexicon.with (p.suppliedWords ++ toldIdentifiers j.entries)
  have hknows : L.KnowsAll p := fun n hn text htext => Lexicon.covers_with fun y hy =>
    List.mem_append_left _
      (List.mem_flatMap.mpr ⟨n, hn, List.mem_flatMap.mpr ⟨text, htext, hy⟩⟩)
  have htold : ∀ y ∈ toldIdentifiers j.entries, L.Covers y := by
    refine fun y hy => Lexicon.covers_with fun z hz => ?_
    rw [words_of_isWord (h.told_legal hy).1.isWord, List.mem_singleton] at hz
    exact List.mem_append_right _ (hz ▸ hy)
  have hsource (hx : x ∈ words (j.draft.source body)) :
      x ∈ vocabulary ∨ x ∈ p.suppliedWords ∨ x ∈ toldIdentifiers j.entries ∨
        header = true ∧ x ∈ words (heading board) := by
    rcases h.covers_source hknows htold x hx hlegal with hown | hother
    · exact .inl hown
    · exact .inr ((List.mem_append.mp hother).imp_right .inl)
  rw [h.sketch] at hx
  cases header with
  | false => exact hsource hx
  | true =>
      have hsplit : words (heading board ++ j.draft.source body) = _ :=
        words_append_of_endsApart (endsApart_heading board)
      rcases List.mem_append.mp (hsplit ▸ hx) with hx | hx
      · exact .inr (.inr (.inr ⟨rfl, hx⟩))
      · exact hsource hx

end Run

/-- When users' names are asked for, exactly the legal identifiers that are not reserved are handed
out, in either namespace. So a keyword of C++ can be handed out exactly if it is not reserved, and
the same holds of the words of the vocabulary, which are just those that the layout of a sketch or a
standard recipe writes by itself. Every word of a compiled sketch that may be an identifier is in
the vocabulary, or the program supplies it, or it was told in the run, or it stands in the heading;
and what was told is legal, is not reserved, and is a name that was asked for, with digits behind it
or without. If no name that is asked for may so become a keyword or a word of the vocabulary that is
not reserved, then no identifier that is handed out is such a word. An identifier of a user's name
is a new identifier of a recipe only if they are in different namespaces. -/
theorem user_names_spare_exactly_reserved_words (ns : Namespace) (calls : List Call) :
    (∀ x, HandedOut ns x ↔ IsLegal x ∧ x ∉ reservedWords) ∧
    (∀ x ∈ Cpp.keywords, HandedOut ns x ↔ x ∉ reservedWords) ∧
    (∀ x ∈ vocabulary, HandedOut ns x ↔ x ∉ reservedWords) ∧
    (∀ x, x ∈ vocabulary ↔ IsLegal x ∧ (x ∈ layoutWords ∨ WrittenAlone x)) ∧
    (∀ p board header c, Registry.standard.compile p board header = .ok c →
      ∃ places body j, Registry.standard.Ran p board header c places body j ∧
        (∀ x ∈ words c.sketch.source, IsLegal x →
          x ∈ vocabulary ∨ x ∈ p.suppliedWords ∨ x ∈ toldIdentifiers j.entries ∨
            header = true ∧ x ∈ words (heading board)) ∧
        ∀ x ∈ toldIdentifiers j.entries, IsLegal x ∧ x ∉ reservedWords ∧
          ∃ call ∈ askedCalls j.entries, mayBecome (spell call.name) x = true) ∧
    ((∀ c ∈ calls, ∀ x ∈ Cpp.keywords ++ vocabulary, x ∉ reservedWords →
        mayBecome (spell c.name) x = false) →
      ∀ a ∈ NameTable.empty.answers calls, a.identifier ∉ Cpp.keywords ++ vocabulary) ∧
    ∀ a ∈ NameTable.empty.answers calls, ∀ b ∈ NameTable.empty.answers calls,
      ∀ name ns name' ns', a.call = .nameOf name ns → b.call = .fresh name' ns' →
        a.identifier = b.identifier → ns ≠ ns' := by
  have hkeywords : ∀ x ∈ Cpp.keywords, IsLegal x := by decide +kernel
  refine ⟨handedOut_iff ns, ?_, ?_, fun x => mem_vocabulary_iff, ?_, ?_, ?_⟩
  · exact fun x hx => (handedOut_iff ns x).trans (and_iff_right (hkeywords x hx))
  · exact fun x hx => (handedOut_iff ns x).trans (and_iff_right (mem_vocabulary_iff.mp hx).1)
  · intro p board header c h
    obtain ⟨places, body, j, hran⟩ := Registry.exists_ran h
    exact ⟨places, body, j, hran, fun x => hran.mem_of_mem_words, fun x => hran.told_legal⟩
  · intro hcalls a ha hmem
    have hfree := ((NameTable.records_answers calls).legal a ha).2
    obtain ⟨c, hc, hbecomes⟩ := mayBecome_of_mem_answers ha
    rw [hcalls c hc _ hmem hfree] at hbecomes
    cases hbecomes
  · rintro a ha b hb name ns name' _ hname hfresh heq rfl
    have hkey : b.call.key? = none := by rw [hfresh]; rfl
    exact (NameTable.records_answers calls).identifier_ne_of_fresh ha hb
      (by rw [hname, hfresh]; rfl) (by rw [hname]; rfl) hkey
      (NameTable.isNew_of_mem_answers hb hkey) heq

/-- Names that spell reserved words or one another spare all keywords and own words of recipes. -/
theorem sparing_names_in_one_run :
    let calls : List Call := [.nameOf "delay" .variable, .nameOf "speed 1" .variable,
      .nameOf "speed_1" .variable, .nameOf "sin" .procedure]
    (NameTable.empty.answers calls).map (·.identifier) =
        ["delay2", "speed_1", "speed_12", "sin2"] ∧
      ∀ a ∈ NameTable.empty.answers calls, a.identifier ∉ Cpp.keywords ++ vocabulary := by
  intro calls
  obtain ⟨-, -, -, -, -, hspare, -⟩ := user_names_spare_exactly_reserved_words .variable calls
  exact ⟨by decide +kernel, hspare (by decide +kernel)⟩

/-- A logarithm, and an output without a pin, in a program whose variables are named like words of
their codes. -/
def captureSample : Program where
  variableNames := ["log", "D4"]
  nodes := [chosenNode "math_single" "OP" "LN",
    { id := ⟨2⟩, kind := "io_digitalwrite" }]
  topLevel := [⟨1⟩, ⟨2⟩]

/-- Names that spell a keyword, a function or a pin get just these words as identifiers, and a
number that keeps two names apart may complete the name of a constant. A variable may also get the
identifier of a helper. So a sketch may call a function whose name it has declared as a variable. -/
theorem captureSample_words_captured :
    let calls : List Call := [.nameOf "class" .variable, .nameOf "log" .variable,
      .nameOf "M SQRT" .variable, .nameOf "M_SQRT" .variable, .fresh "mathIsPrime" .procedure,
      .nameOf "mathIsPrime" .variable]
    (NameTable.empty.answers calls).map (·.identifier) =
        ["class", "log", "M_SQRT", "M_SQRT2", "mathIsPrime", "mathIsPrime"] ∧
      "class" ∈ Cpp.keywords ∧ "log" ∈ vocabulary ∧ "D4" ∈ vocabulary ∧ "M_SQRT2" ∈ vocabulary ∧
      ∃ c, Registry.standard.compile captureSample .esp8266 false = .ok c ∧
        c.sketch.source = "int log;\nint D4;\n\n" ++
          "void setup() \x7b\n  pinMode(D4, OUTPUT);\n\x7d\n\n" ++
          "void loop() \x7b\n  log(0);\n  digitalWrite(D4, LOW);\n\x7d\n" := by
  intro calls
  refine ⟨by decide +kernel, by decide, by decide +kernel, by decide +kernel, by decide +kernel, ?_⟩
  exact Registry.exists_compile_of_plainSource rfl rfl (by decide +kernel)

end BlockSketch
