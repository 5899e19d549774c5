import BlockSketch.Board.Catalog

/-!
The arguments of the command line. They are taken from left to right, and the first that is wrong
decides. An option takes its value from behind an equals sign, from the rest of a cluster of short
options, or from the next argument, which must not look like an option. No option that takes a
value may be given twice.
-/

namespace BlockSketch.CommandLine

inductive Stage where
  | sketch
  | types
  | pins
  | buildInfo
  deriving DecidableEq, Repr, Inhabited

namespace Stage

def all : List Stage := [sketch, types, pins, buildInfo]

def optionName : Stage → String
  | sketch => "ino"
  | types => "types"
  | pins => "pins"
  | buildInfo => "build-info"

end Stage

structure Options where
  program : Option String := none
  output : Option String := none
  board : Option Board := none
  stage : Option Stage := none
  header : Bool := false
  verbosity : Nat := 0
  deriving DecidableEq, Repr, Inhabited

inductive Order where
  | compile (program : String) (options : Options)
  | version
  | help
  /-- The arguments make no sense. -/
  | usage
  deriving DecidableEq, Repr, Inhabited

inductive Setting where
  | output
  | board
  | stage
  deriving DecidableEq, Repr, Inhabited

inductive Switch where
  | header
  | verbose
  | version
  | help
  deriving DecidableEq, Repr, Inhabited

def once {α : Type} (old : Option α) (new : Option α) : Option α :=
  match old with
  | some _ => none
  | none => new

def path? (s : String) : Option String := if s.isEmpty then none else some s

namespace Options

def maxVerbosity : Nat := 255

def set? (o : Options) (s : Setting) (text : String) : Option Options :=
  match s with
  | .output => (once o.output (path? text)).map (fun p => { o with output := some p })
  | .board =>
      (once o.board (Board.all.find? (fun b => b.optionName = text))).map
        (fun b => { o with board := some b })
  | .stage =>
      (once o.stage (Stage.all.find? (fun s => s.optionName = text))).map
        (fun s => { o with stage := some s })

def position? (o : Options) (text : String) : Option Options :=
  (once o.program (path? text)).map (fun p => { o with program := some p })

/-- Take an option without a value. Some of them end the reading. -/
def switch (o : Options) : Switch → Except Order Options
  | .header => if o.header then .error .usage else .ok { o with header := true }
  | .verbose => .ok { o with verbosity := min (o.verbosity + 1) maxVerbosity }
  | .version => .error .version
  | .help => .error .help

def order (o : Options) : Order :=
  match o.program with
  | some program => .compile program o
  | none => .usage

end Options

def longOption? : String → Option (Setting ⊕ Switch)
  | "output" => some (.inl .output)
  | "board" => some (.inl .board)
  | "emit" => some (.inl .stage)
  | "header" => some (.inr .header)
  | "verbose" => some (.inr .verbose)
  | "version" => some (.inr .version)
  | "help" => some (.inr .help)
  | _ => none

def shortOption? : Char → Option (Setting ⊕ Switch)
  | 'o' => some (.inl .output)
  | 'v' => some (.inr .verbose)
  | 'V' => some (.inr .version)
  | 'h' => some (.inr .help)
  | _ => none

def orUsage (o : Option Options) : Except Order Options :=
  match o with
  | some o => .ok o
  | none => .error .usage

def splitAtEquals (cs : List Char) : List Char × Option (List Char) :=
  match cs.dropWhile (· != '=') with
  | [] => (cs, none)
  | _ :: value => (cs.takeWhile (· != '='), some value)

/-- Take an argument with a long name. An option that still needs its value is given back. -/
def takeLong (o : Options) (cs : List Char) : Except Order (Options × Option Setting) :=
  let (name, attached) := splitAtEquals cs
  match longOption? (String.ofList name), attached with
  | some (.inl s), some value => return (← orUsage (o.set? s (String.ofList value)), none)
  | some (.inl s), none => return (o, some s)
  | some (.inr s), none => return (← o.switch s, none)
  | some (.inr _), some _ | none, _ => .error .usage

/-- Take a cluster of letters. An option that still needs its value is given back. -/
def takeShort (o : Options) : List Char → Except Order (Options × Option Setting)
  | [] => .ok (o, none)
  | c :: rest =>
      match shortOption? c, rest with
      | some (.inr s), rest => do takeShort (← o.switch s) rest
      | some (.inl s), [] => .ok (o, some s)
      | some (.inl s), '=' :: value => return (← orUsage (o.set? s (String.ofList value)), none)
      | some (.inl s), value => return (← orUsage (o.set? s (String.ofList value)), none)
      | none, _ => .error .usage

def takePositions (o : Options) : List String → Except Order Options
  | [] => .ok o
  | a :: rest => do takePositions (← orUsage (o.position? a)) rest

/-- Take arguments. The option before them may need a value. -/
def take (o : Options) (pending : Option Setting) : List String → Except Order Options
  | [] => if pending.isNone then .ok o else .error .usage
  | a :: rest =>
      match a.toList, pending with
      | '-' :: _ :: _, some _ => .error .usage
      | _, some s => do take (← orUsage (o.set? s a)) none rest
      | ['-', '-'], none => takePositions o rest
      | '-' :: '-' :: cs, none => do
          let (o, pending) ← takeLong o cs
          take o pending rest
      | '-' :: c :: cs, none => do
          let (o, pending) ← takeShort o (c :: cs)
          take o pending rest
      | _, none => do take (← orUsage (o.position? a)) none rest

def Order.ofArguments (args : List String) : Order :=
  match take {} none args with
  | .ok o => o.order
  | .error order => order

end BlockSketch.CommandLine
