import BlockSketch.Json.Scanner

/-!
Reading values of a known shape from a JSON text, from left to right. The first thing that is wrong
decides the fault. A value that nobody asks for is skipped: it has to be JSON, but its texts and
numbers need not stand for anything.
-/

namespace BlockSketch.Json

variable {α σ : Type}

/-! ### Skipping -/

/-- Skip a number. One that the text ends in the middle of is no number. -/
def skipNumber (cs : List Char) : Except Fault (List Char) :=
  match scanNumber cs with
  | .error _ => .error .malformed
  | .ok (_, rest) => .ok rest

mutual

/-- Skip a value. The count bounds the steps. -/
def skipSteps : Nat → List Char → Except Fault (List Char)
  | 0, _ => .error .truncated
  | steps + 1, cs =>
      match skipBlanks cs with
      | [] => .error .truncated
      | '"' :: rest => (scanText rest).outcome
      | 'n' :: rest => expect ['u', 'l', 'l'] rest
      | 't' :: rest => expect ['r', 'u', 'e'] rest
      | 'f' :: rest => expect ['a', 'l', 's', 'e'] rest
      | '[' :: rest =>
          match skipBlanks rest with
          | ']' :: rest => .ok rest
          | rest => skipItems steps rest
      | '\x7b' :: rest =>
          match skipBlanks rest with
          | '\x7d' :: rest => .ok rest
          | rest => skipEntries steps rest
      | c :: rest => if startsNumber c then skipNumber (c :: rest) else .error .malformed

/-- Skip the items of an array, of which one has to come, and the bracket behind them. -/
def skipItems : Nat → List Char → Except Fault (List Char)
  | 0, _ => .error .truncated
  | steps + 1, cs => do
      let rest ← skipSteps steps cs
      match skipBlanks rest with
      | [] => .error .truncated
      | ']' :: rest => .ok rest
      | ',' :: rest => skipItems steps rest
      | _ => .error .malformed

/-- Skip the entries of an object, of which one has to come, and the bracket behind them. -/
def skipEntries : Nat → List Char → Except Fault (List Char)
  | 0, _ => .error .truncated
  | steps + 1, cs =>
      match skipBlanks cs with
      | [] => .error .truncated
      | '"' :: rest => do
          let rest ← (scanText rest).outcome
          match skipBlanks rest with
          | [] => .error .truncated
          | ':' :: rest => do
              let rest ← skipSteps steps rest
              match skipBlanks rest with
              | [] => .error .truncated
              | '\x7d' :: rest => .ok rest
              | ',' :: rest => skipEntries steps rest
              | _ => .error .malformed
          | _ => .error .malformed
      | _ => .error .malformed

end

/-- Skip a value. Every two steps take a character, which bounds their number. -/
def skipValue (cs : List Char) : Except Fault (List Char) := skipSteps (2 * cs.length + 2) cs

/-! ### Scalars -/

/-- The fault of a value that has another shape than the one asked for. A text, number or word is
read first and may itself be at fault. -/
def mismatch : List Char → Fault
  | [] => .truncated
  | '[' :: _ => .misshapen
  | '\x7b' :: _ => .misshapen
  | '"' :: rest => faultOf (readQuoted rest)
  | 'n' :: rest => faultOf (expect ['u', 'l', 'l'] rest)
  | 't' :: rest => faultOf (expect ['r', 'u', 'e'] rest)
  | 'f' :: rest => faultOf (expect ['a', 'l', 's', 'e'] rest)
  | c :: rest => if startsNumber c then faultOf (readNumber (c :: rest)) else .malformed
where
  /-- The fault of what was read in place of another value. -/
  faultOf {β : Type} : Except Fault β → Fault
    | .ok _ => .misshapen
    | .error f => f

def readText : Reader String := fun cs =>
  match skipBlanks cs with
  | '"' :: rest => readQuoted rest
  | cs => .error (mismatch cs)

def readNatural (bound : Nat) : Reader Nat := fun cs =>
  match skipBlanks cs with
  | c :: rest =>
      if startsNumber c then do
        let (literal, rest) ← readNumber (c :: rest)
        match natural? literal with
        | some n => if n < bound then .ok (n, rest) else .error .misshapen
        | none => .error .misshapen
      else .error (mismatch (c :: rest))
  | [] => .error .truncated

def readOptional (item : Reader α) : Reader (Option α) := fun cs =>
  match skipBlanks cs with
  | 'n' :: rest => (expect ['u', 'l', 'l'] rest).map (fun rest => (none, rest))
  | cs => (item cs).map (fun r => (some r.1, r.2))

/-! ### Lists -/

/-- Read the items of an array, of which one has to come, and the bracket behind them. The count
bounds the number of items. -/
def readItems (item : Reader α) : Nat → Reader (List α)
  | 0, _ => .error .truncated
  | count + 1, cs => do
      let (a, rest) ← item cs
      match skipBlanks rest with
      | [] => .error .truncated
      | ']' :: rest => .ok ([a], rest)
      | ',' :: rest =>
          match skipBlanks rest with
          | [] => .error .truncated
          | ']' :: _ => .error .malformed
          | rest => do
              let (as, rest) ← readItems item count rest
              .ok (a :: as, rest)
      | _ => .error .malformed

def readArray (item : Reader α) : Reader (List α) := fun cs =>
  match skipBlanks cs with
  | [] => .error .truncated
  | ']' :: rest => .ok ([], rest)
  | rest => readItems item rest.length rest

def readList (item : Reader α) : Reader (List α) := fun cs =>
  match skipBlanks cs with
  | '[' :: rest => readArray item rest
  | cs => .error (mismatch cs)

/-! ### Objects -/

def readColon (cs : List Char) : Except Fault (List Char) :=
  match skipBlanks cs with
  | [] => .error .truncated
  | ':' :: rest => .ok rest
  | _ => .error .malformed

/-- Read the entries of an object, of which one has to come, and the bracket behind them. The step
reads what follows a key. The count bounds the number of entries. -/
def readEntries (step : σ → String → Reader σ) : Nat → σ → Reader σ
  | 0, _, _ => .error .truncated
  | count + 1, s, '"' :: rest => do
      let (key, rest) ← readQuoted rest
      let (s, rest) ← step s key rest
      match skipBlanks rest with
      | [] => .error .truncated
      | '\x7d' :: rest => .ok (s, rest)
      | ',' :: rest => readEntries step count s (skipBlanks rest)
      | _ => .error .malformed
  | _, _, [] => .error .truncated
  | _, _, _ :: _ => .error .malformed

def readObject (step : σ → String → Reader σ) (s : σ) : Reader σ := fun cs =>
  match skipBlanks cs with
  | '\x7d' :: rest => .ok (s, rest)
  | rest => readEntries step rest.length s rest

/-! ### Values of any shape -/

/-- Read any value. Arrays and objects may be nested to a depth. -/
def readValue : Nat → Reader Json
  | depth, cs =>
      match skipBlanks cs with
      | [] => .error .truncated
      | '"' :: rest => (readQuoted rest).map (fun r => (.text r.1, r.2))
      | 'n' :: rest => (expect ['u', 'l', 'l'] rest).map (fun rest => (.null, rest))
      | 't' :: rest => (expect ['r', 'u', 'e'] rest).map (fun rest => (.bool true, rest))
      | 'f' :: rest => (expect ['a', 'l', 's', 'e'] rest).map (fun rest => (.bool false, rest))
      | '[' :: rest =>
          match depth with
          | 0 => .error .malformed
          | depth + 1 => (readArray (readValue depth) rest).map (fun r => (.array r.1, r.2))
      | '\x7b' :: rest =>
          match depth with
          | 0 => .error .malformed
          | depth + 1 =>
              (readObject (entryStep (readValue depth)) [] rest).map
                (fun r => (.object r.1.reverse, r.2))
      | c :: rest =>
          if startsNumber c then (readNumber (c :: rest)).map (fun r => (.number r.1, r.2))
          else .error .malformed
where
  /-- Add an entry in front of those read before it. -/
  entryStep (value : Reader Json) (entries : List (String × Json)) (key : String) :
      Reader (List (String × Json)) := fun cs => do
    let rest ← readColon cs
    let (v, rest) ← value rest
    .ok ((key, v) :: entries, rest)

/-- Read a whole text with a reader: nothing but blanks may stand behind the value. -/
def readAll (item : Reader α) (s : String) : Except Fault α := do
  let (a, rest) ← item s.toList
  if (skipBlanks rest).isEmpty then .ok a else .error .malformed

def parse (s : String) : Except Fault Json := readAll (readValue s.length) s

/-! ### Records -/

structure RecordField (σ : Type) where
  name : String
  isFilled : σ → Bool
  read : σ → Reader σ

/-- Read what follows a key of a record. A field comes once; other keys are skipped with what
follows them. -/
def fieldStep (fields : List (RecordField σ)) (s : σ) (key : String) : Reader σ := fun cs =>
  match fields.find? (fun f => f.name = key) with
  | some f =>
      if f.isFilled s then .error .misshapen
      else do
        let rest ← readColon cs
        f.read s rest
  | none => do
      let rest ← readColon cs
      let rest ← skipValue rest
      .ok (s, rest)

/-- Read fields of a record written as an array, after the first. Fields at the end may be missing,
but nothing may come behind the last. -/
def readFurtherFields : List (RecordField σ) → σ → Reader σ
  | fields, s, cs =>
      match skipBlanks cs with
      | [] => .error .truncated
      | ']' :: rest => .ok (s, rest)
      | ',' :: rest =>
          match fields with
          | [] => .error .malformed
          | f :: fields =>
              match skipBlanks rest with
              | [] => .error .truncated
              | ']' :: _ => .error .malformed
              | rest => do
                  let (s, rest) ← f.read s rest
                  readFurtherFields fields s rest
      | _ => .error .malformed

/-- Read the fields of a record written as an array, from behind its bracket. -/
def readFieldsInOrder (fields : List (RecordField σ)) (s : σ) : Reader σ := fun cs =>
  match skipBlanks cs, fields with
  | [], _ => .error .truncated
  | ']' :: rest, _ => .ok (s, rest)
  | rest, f :: fields => do
      let (s, rest) ← f.read s rest
      readFurtherFields fields s rest
  | _, [] => .error .malformed

/-- Read a record, written as an object or as an array of its fields in order. -/
def readRecord (fields : List (RecordField σ)) (start : σ) (finish : σ → Option α) : Reader α :=
  fun cs =>
    match skipBlanks cs with
    | '\x7b' :: rest => do
        let (s, rest) ← readObject (fieldStep fields) start rest
        close s rest
    | '[' :: rest => do
        let (s, rest) ← readFieldsInOrder fields start rest
        close s rest
    | cs => .error (mismatch cs)
where
  /-- The record with its fields filled in, unless one that it needs is missing. -/
  close (s : σ) (rest : List Char) : Except Fault (α × List Char) :=
    match finish s with
    | some a => .ok (a, rest)
    | none => .error .misshapen

end BlockSketch.Json
