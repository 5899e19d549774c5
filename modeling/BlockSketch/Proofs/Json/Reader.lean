import BlockSketch.Json.Reader
import BlockSketch.Proofs.Json.Scanner
import Mathlib.Data.List.Forall2

/-!
Readers give back what was written. `ReadsBack item v a` says that the reader `item` gets `a` from
the text of `v` and leaves what follows that text. It holds of texts and numbers, and passes from
the items of an array to the array and from the entries of an object to the object. A record is
read entry by entry; `Collects` says what its fields hold then.
-/

namespace BlockSketch.Json

variable {α σ : Type}

/-! ### Written values -/

def written (v : Json) : List Char := v.compact.toList

def writtenEntry (e : String × Json) : List Char :=
  '"' :: (e.1.toList.flatMap escape ++ '"' :: ':' :: e.2.written)

def listed (texts : List (List Char)) : List Char := [','].intercalate texts

theorem compactItems_eq (items : List Json) : compactItems items = items.map compact := by
  induction items with
  | nil => rfl
  | cons v items ih => rw [compactItems, ih, List.map_cons]

theorem compactEntries_eq (entries : List (String × Json)) :
    compactEntries entries = entries.map compactEntry := by
  induction entries with
  | nil => rfl
  | cons e entries ih => rw [compactEntries, ih, List.map_cons]

theorem toList_compactEntry (e : String × Json) : (compactEntry e).toList = writtenEntry e := by
  obtain ⟨key, v⟩ := e
  simp [compactEntry, writtenEntry, written, quoted, quotedChars]

theorem written_text (s : String) :
    (Json.text s).written = '"' :: (s.toList.flatMap escape ++ ['"']) := by
  simp [written, compact, quoted, quotedChars]

theorem written_ofNat (n : Nat) : (Json.ofNat n).written = (toString n).toList := by
  rw [written, ofNat, compact]

theorem written_array (items : List Json) :
    (Json.array items).written = '[' :: (listed (items.map written) ++ [']']) := by
  simp only [written, compact, compactItems_eq, listed, String.toList_append,
    String.toList_intercalate, List.map_map]
  rfl

theorem written_object (entries : List (String × Json)) :
    (Json.object entries).written = '\x7b' :: (listed (entries.map writtenEntry) ++ ['\x7d']) := by
  have htexts : entries.map (String.toList ∘ compactEntry) = entries.map writtenEntry :=
    List.map_congr_left fun e _ => toList_compactEntry e
  simp only [written, compact, compactEntries_eq, listed, String.toList_append,
    String.toList_intercalate, List.map_map, htexts]
  rfl

@[simp] theorem listed_singleton (text : List Char) : listed [text] = text := by
  simp [listed]

theorem listed_cons_cons (text text' : List Char) (texts : List (List Char)) :
    listed (text :: text' :: texts) = text ++ ',' :: listed (text' :: texts) := by
  simp [listed, List.intercalate_cons_cons]

theorem length_le_length_listed (texts : List (List Char)) (c : Char) (rest : List Char) :
    texts.length ≤ (listed texts ++ c :: rest).length := by
  induction texts with
  | nil => exact Nat.zero_le _
  | cons text texts ih =>
      cases texts with
      | nil =>
          simp only [listed_singleton, List.length_append, List.length_cons, List.length_nil]
          omega
      | cons text' texts =>
          simp only [listed_cons_cons, List.length_append, List.length_cons] at ih ⊢
          omega

/-! ### Reading back -/

def Opens (cs : List Char) : Prop :=
  ∃ c rest, cs = c :: rest ∧ isBlankChar c = false ∧ c ≠ ']' ∧ c ≠ '\x7d' ∧ c ≠ 'n'

theorem Opens.append {cs : List Char} (h : Opens cs) (rest : List Char) : Opens (cs ++ rest) := by
  obtain ⟨c, cs, rfl, hc⟩ := h
  exact ⟨c, cs ++ rest, rfl, hc⟩

theorem Opens.skipBlanks_eq {cs : List Char} (h : Opens cs) : skipBlanks cs = cs := by
  obtain ⟨c, cs, rfl, hc, -⟩ := h
  exact List.dropWhile_cons_of_neg (by simp [hc])

theorem Opens.listed {text : List Char} {texts : List (List Char)} (h : Opens text) :
    Opens (listed (text :: texts)) := by
  cases texts with
  | nil =>
      rw [listed_singleton]
      exact h
  | cons text' texts =>
      rw [listed_cons_cons]
      exact h.append _

/-- The reader gets `a` from the text of `v`, and leaves the text behind it. -/
structure ReadsBack (item : Reader α) (v : Json) (a : α) : Prop where
  opens : Opens v.written
  read {rest : List Char} (h : Closes rest) : item (v.written ++ rest) = .ok (a, rest)

theorem readText_text (s : String) : ReadsBack readText (.text s) s where
  opens := ⟨'"', _, written_text s, rfl, by decide, by decide, by decide⟩
  read {rest} _ := by
    rw [written_text, List.cons_append, List.append_assoc, List.singleton_append]
    exact readQuoted_escape s rest

theorem ne_of_isDigit {c : Char} (h : Text.isDigit c = true) (d : Char)
    (hd : Text.isDigit d = false) : c ≠ d := by
  rintro rfl
  exact absurd h (by simp [hd])

theorem opens_digit {c : Char} (h : Text.isDigit c = true) (rest : List Char) :
    Opens (c :: rest) := by
  have hblank : isBlankChar c = false := by
    simp [isBlankChar, ne_of_isDigit h ' ', ne_of_isDigit h '\n', ne_of_isDigit h '\t',
      ne_of_isDigit h '\r', Text.isDigit]
  exact ⟨c, rest, rfl, hblank, ne_of_isDigit h _ rfl, ne_of_isDigit h _ rfl, ne_of_isDigit h _ rfl⟩

theorem opens_ofNat (n : Nat) : Opens (Json.ofNat n).written := by
  obtain ⟨c, cs, hcons, hdigit⟩ := Text.exists_toString_eq_cons n
  rw [written_ofNat, hcons]
  exact opens_digit hdigit cs

theorem readNatural_ofNat {n bound : Nat} (hn : n < bound) (hbound : bound ≤ 2 ^ 64) :
    ReadsBack (readNatural bound) (.ofNat n) n where
  opens := opens_ofNat n
  read {rest} h := by
    have hread := readNumber_toString_append (Nat.lt_of_lt_of_le hn hbound) h
    rw [readNatural, ((opens_ofNat n).append rest).skipBlanks_eq, written_ofNat]
    obtain ⟨c, cs, hcons, hdigit⟩ := Text.exists_toString_eq_cons n
    rw [hcons, List.cons_append] at hread ⊢
    simp only [startsNumber, hdigit, Bool.or_true, if_true, hread, bind, Except.bind, natural?,
      Text.readDigits?_toString, if_pos hn]

theorem ReadsBack.optional {item : Reader α} {v : Json} {a : α} (h : ReadsBack item v a) :
    ReadsBack (readOptional item) v (some a) where
  opens := h.opens
  read {rest} hrest := by
    have hskip := (h.opens.append rest).skipBlanks_eq
    have hread := h.read hrest
    obtain ⟨c, cs, hcons, -, -, -, hnull⟩ := h.opens.append rest
    rw [readOptional, hskip]
    rw [hcons] at hread ⊢
    simp [hnull, hread, Except.map]

/-! ### Lists -/

theorem readItems_bracket {item : Reader α} {cs rest : List Char} {a : α}
    (h : item cs = .ok (a, ']' :: rest)) (count : Nat) :
    readItems item (count + 1) cs = .ok ([a], rest) := by
  rw [readItems, h]
  rfl

theorem readItems_comma {item : Reader α} {cs rest rest' : List Char} {a : α} {as : List α}
    {count : Nat} (h : item cs = .ok (a, ',' :: rest)) (hrest : Opens rest)
    (htail : readItems item count rest = .ok (as, rest')) :
    readItems item (count + 1) cs = .ok (a :: as, rest') := by
  have hskip := hrest.skipBlanks_eq
  obtain ⟨c, tail, rfl, -, hbracket, -⟩ := hrest
  have hcomma : skipBlanks (',' :: c :: tail) = ',' :: c :: tail := rfl
  simp [readItems, h, hcomma, hskip, hbracket, htail, bind, Except.bind]

theorem readItems_written {item : Reader α} {vs : List Json} {as : List α}
    (h : List.Forall₂ (ReadsBack item) vs as) (hne : vs ≠ []) {count : Nat}
    (hcount : vs.length ≤ count) (rest : List Char) :
    readItems item count (listed (vs.map written) ++ ']' :: rest) = .ok (as, rest) := by
  -- on the items; the last one is followed by the bracket, the others by a comma
  induction h generalizing count with
  | nil => exact absurd rfl hne
  | @cons v a vs as hv hvs ih =>
      cases count with
      | zero => exact absurd hcount (by simp)
      | succ count =>
          cases hvs with
          | nil =>
              rw [List.map_singleton, listed_singleton]
              exact readItems_bracket (hv.read (.bracket rest)) count
          | @cons v' a' vs as hv' hvs =>
              rw [List.map_cons, List.map_cons, listed_cons_cons, List.append_assoc]
              have htail := ih (List.cons_ne_nil v' vs) (Nat.le_of_succ_le_succ hcount)
              exact readItems_comma (hv.read (.comma _)) (hv'.opens.listed.append _) htail

theorem readArray_written {item : Reader α} {vs : List Json} {as : List α}
    (h : List.Forall₂ (ReadsBack item) vs as) (rest : List Char) :
    readArray item (listed (vs.map written) ++ ']' :: rest) = .ok (as, rest) := by
  cases h with
  | nil => rfl
  | @cons v a vs as hv hvs =>
      have hopens : Opens (listed ((v :: vs).map written) ++ ']' :: rest) :=
        hv.opens.listed.append _
      have hcount := length_le_length_listed ((v :: vs).map written) ']' rest
      rw [List.length_map] at hcount
      have hread := readItems_written (.cons hv hvs) (List.cons_ne_nil v vs) hcount rest
      rw [readArray, hopens.skipBlanks_eq]
      obtain ⟨c, tail, hcons, -, hbracket, -⟩ := hopens
      rw [hcons] at hread ⊢
      simpa [hbracket] using hread

theorem readList_array {item : Reader α} {vs : List Json} {as : List α}
    (h : List.Forall₂ (ReadsBack item) vs as) : ReadsBack (readList item) (.array vs) as where
  opens := ⟨'[', _, written_array vs, rfl, by decide, by decide, by decide⟩
  read {rest} _ := by
    rw [written_array, List.cons_append, List.append_assoc, List.singleton_append]
    exact readArray_written h rest

/-- A list of written values is read back item by item. -/
theorem readList_map {item : Reader α} {write : α → Json} (h : ∀ a, ReadsBack item (write a) a)
    (l : List α) : ReadsBack (readList item) (.array (l.map write)) l :=
  readList_array (List.forall₂_map_left_iff.mpr (List.forall₂_same.mpr fun a _ => h a))

/-! ### Objects -/

/-- Reading what follows the keys of written entries, one after the other, leads from one state to
another. -/
inductive Collects (step : σ → String → Reader σ) : σ → List (String × Json) → σ → Prop where
  | nil (s : σ) : Collects step s [] s
  | cons {s t u : σ} {key : String} {v : Json} {entries : List (String × Json)}
      (hstep : ∀ {rest}, Closes rest → step s key (':' :: (v.written ++ rest)) = .ok (t, rest))
      (hrest : Collects step t entries u) : Collects step s ((key, v) :: entries) u

theorem Collects.append {step : σ → String → Reader σ} {s t u : σ}
    {entries entries' : List (String × Json)} (h : Collects step s entries t)
    (h' : Collects step t entries' u) : Collects step s (entries ++ entries') u := by
  induction h with
  | nil => exact h'
  | cons hstep _ ih => exact .cons hstep (ih h')

theorem readColon_cons (rest : List Char) : readColon (':' :: rest) = .ok rest := rfl

theorem readEntries_brace {step : σ → String → Reader σ} {s t : σ} {key : String} {v : Json}
    {rest : List Char}
    (h : step s key (':' :: (v.written ++ '\x7d' :: rest)) = .ok (t, '\x7d' :: rest))
    (count : Nat) :
    readEntries step (count + 1) s (writtenEntry (key, v) ++ '\x7d' :: rest) = .ok (t, rest) := by
  simp only [writtenEntry, List.cons_append, List.append_assoc, readEntries, readQuoted_escape, h,
    bind, Except.bind]
  rfl

theorem readEntries_comma {step : σ → String → Reader σ} {s t : σ} {key : String} {v : Json}
    {rest : List Char}
    (h : step s key (':' :: (v.written ++ ',' :: rest)) = .ok (t, ',' :: rest)) (count : Nat) :
    readEntries step (count + 1) s (writtenEntry (key, v) ++ ',' :: rest) =
      readEntries step count t (skipBlanks rest) := by
  simp only [writtenEntry, List.cons_append, List.append_assoc, readEntries, readQuoted_escape, h,
    bind, Except.bind]
  rfl

theorem opens_writtenEntry (e : String × Json) : Opens (writtenEntry e) :=
  ⟨'"', _, rfl, rfl, by decide, by decide, by decide⟩

theorem readEntries_written {step : σ → String → Reader σ} {s t : σ}
    {entries : List (String × Json)} (h : Collects step s entries t) (hne : entries ≠ [])
    {count : Nat} (hcount : entries.length ≤ count) (rest : List Char) :
    readEntries step count s (listed (entries.map writtenEntry) ++ '\x7d' :: rest) =
      .ok (t, rest) := by
  induction h generalizing count with
  | nil => exact absurd rfl hne
  | @cons s t u key v entries hstep hentries ih =>
      cases count with
      | zero => exact absurd hcount (by simp)
      | succ count =>
          cases entries with
          | nil =>
              cases hentries
              rw [List.map_singleton, listed_singleton]
              exact readEntries_brace (hstep (.brace rest)) count
          | cons e entries =>
              have htail := ih (List.cons_ne_nil e entries) (Nat.le_of_succ_le_succ hcount)
              rw [List.map_cons, List.map_cons, listed_cons_cons, List.append_assoc,
                List.cons_append, readEntries_comma (hstep (.comma _)),
                ((opens_writtenEntry e).listed.append _).skipBlanks_eq]
              exact htail

theorem readObject_written {step : σ → String → Reader σ} {s t : σ}
    {entries : List (String × Json)} (h : Collects step s entries t) (rest : List Char) :
    readObject step s (listed (entries.map writtenEntry) ++ '\x7d' :: rest) = .ok (t, rest) := by
  cases entries with
  | nil =>
      cases h
      rfl
  | cons e entries =>
      have hopens : Opens (listed ((e :: entries).map writtenEntry) ++ '\x7d' :: rest) :=
        (opens_writtenEntry e).listed.append _
      have hcount := length_le_length_listed ((e :: entries).map writtenEntry) '\x7d' rest
      rw [List.length_map] at hcount
      have hread := readEntries_written h (List.cons_ne_nil e entries) hcount rest
      rw [readObject, hopens.skipBlanks_eq]
      obtain ⟨c, tail, hcons, -, -, hbrace, -⟩ := hopens
      rw [hcons] at hread ⊢
      simpa [hbrace] using hread

theorem opens_object (entries : List (String × Json)) : Opens (Json.object entries).written :=
  ⟨'\x7b', _, written_object entries, rfl, by decide, by decide, by decide⟩

theorem skipBlanks_object (entries : List (String × Json)) (rest : List Char) :
    skipBlanks ((Json.object entries).written ++ rest) =
      '\x7b' :: (listed (entries.map writtenEntry) ++ '\x7d' :: rest) := by
  rw [((opens_object entries).append rest).skipBlanks_eq, written_object, List.cons_append,
    List.append_assoc, List.singleton_append]

/-! ### Records -/

theorem readRecord_object {fields : List (RecordField σ)} {start s : σ} {finish : σ → Option α}
    {entries : List (String × Json)} {a : α} (h : Collects (fieldStep fields) start entries s)
    (hfinish : finish s = some a) :
    ReadsBack (readRecord fields start finish) (.object entries) a where
  opens := opens_object entries
  read {rest} _ := by
    rw [readRecord, skipBlanks_object]
    simp only [readObject_written h, bind, Except.bind, readRecord.close, hfinish]

/-! ### Values of any shape -/

theorem readValue_text (depth : Nat) (s : String) :
    ReadsBack (readValue depth) (.text s) (.text s) where
  opens := (readText_text s).opens
  read {rest} _ := by
    rw [readValue, ((readText_text s).opens.append rest).skipBlanks_eq, written_text]
    simp only [List.cons_append, List.append_assoc, readQuoted_escape, Except.map, List.nil_append]

theorem readValue_bool (depth : Nat) (b : Bool) :
    ReadsBack (readValue depth) (.bool b) (.bool b) := by
  cases b with
  | false =>
      have hwritten : (Json.bool false).written = ['f', 'a', 'l', 's', 'e'] := rfl
      refine ⟨⟨'f', _, hwritten, rfl, by decide, by decide, by decide⟩, fun _ => ?_⟩
      rw [hwritten, readValue]
      rfl
  | true =>
      have hwritten : (Json.bool true).written = ['t', 'r', 'u', 'e'] := rfl
      refine ⟨⟨'t', _, hwritten, rfl, by decide, by decide, by decide⟩, fun _ => ?_⟩
      rw [hwritten, readValue]
      rfl

theorem readValue_ofNat (depth : Nat) {n : Nat} (hn : n < 2 ^ 64) :
    ReadsBack (readValue depth) (.ofNat n) (.ofNat n) where
  opens := opens_ofNat n
  read {rest} h := by
    have hread := readNumber_toString_append hn h
    rw [readValue, ((opens_ofNat n).append rest).skipBlanks_eq, written_ofNat]
    obtain ⟨c, cs, hcons, hdigit⟩ := Text.exists_toString_eq_cons n
    rw [hcons, List.cons_append] at hread ⊢
    have hne := ne_of_isDigit hdigit
    simp [hne '"' rfl, hne 'n' rfl, hne 't' rfl, hne 'f' rfl, hne '[' rfl, hne '\x7b' rfl,
      startsNumber, hdigit, hread, Except.map, ofNat]

theorem readValue_array {depth : Nat} {vs : List Json}
    (h : ∀ v ∈ vs, ReadsBack (readValue depth) v v) :
    ReadsBack (readValue (depth + 1)) (.array vs) (.array vs) where
  opens := (readList_array (List.forall₂_same.mpr h)).opens
  read {rest} hrest := by
    have hread := readArray_written (List.forall₂_same.mpr h) rest
    rw [readValue, ((readList_array (List.forall₂_same.mpr h)).opens.append rest).skipBlanks_eq,
      written_array]
    simp only [List.cons_append, List.append_assoc, List.nil_append, hread, Except.map]

end BlockSketch.Json
