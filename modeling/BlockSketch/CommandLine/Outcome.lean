import BlockSketch.BuildInfo
import BlockSketch.CommandLine.Options
import BlockSketch.CommandLine.Verbosity
import BlockSketch.Program.Loading

/-!
What a call of the command line gives: an exit code, texts for the two output streams, and perhaps a
file to write.
-/

namespace BlockSketch.CommandLine

inductive FileError where
  | missing
  | denied
  /-- The path goes through a file. -/
  | notDirectory
  | isDirectory
  | noSpace
  | nameTooLong
  /-- The bytes of the file are no text. -/
  | notText
  | other (message : String)
  deriving DecidableEq, Repr, Inhabited

namespace FileError

def message : FileError → String
  | missing => "No such file or directory (os error 2)"
  | denied => "Permission denied (os error 13)"
  | notDirectory => "Not a directory (os error 20)"
  | isDirectory => "Is a directory (os error 21)"
  | noSpace => "No space left on device (os error 28)"
  | nameTooLong => "File name too long (os error 36)"
  | notText => "stream did not contain valid UTF-8"
  | other message => message

def ofCode? : Nat → Option FileError
  | 2 => some missing
  | 13 => some denied
  | 20 => some notDirectory
  | 21 => some isDirectory
  | 28 => some noSpace
  | 36 => some nameTooLong
  | _ => none

end FileError

structure Outcome where
  exitCode : Nat := 0
  stdout : String := ""
  stderr : String := ""
  /-- The path and the content of a file to write. -/
  file : Option (String × String) := none
  deriving DecidableEq, Repr, Inhabited

namespace Outcome

def noticeLine (text : String) : String := s!"inoc: {text}\n"

def failure (exitCode : Nat) (message : String) : Outcome :=
  { exitCode, stderr := noticeLine ("error: " ++ message) }

/-- A call whose file could not be written. What was said before stays. -/
def writeFailure (o : Outcome) (path : String) (e : FileError) : Outcome :=
  { exitCode := 2, stderr := o.stderr ++ noticeLine ("error: " ++ path ++ ": " ++ e.message) }

end Outcome

def badProgramFile (path : String) : Outcome :=
  { exitCode := 1, stderr := "inoc: error: " ++ path ++ ": invalid program file: " }

def Stage.text (s : Stage) (p : Program) (board : Board) (c : Compiled) : String :=
  match s with
  | .sketch => c.sketch.source
  | .types => c.types.toJson.pretty
  | .pins => c.sketch.pins.toJson.pretty
  | .buildInfo => (BuildInfo.of .standard p board).text

def Options.boardOrDefault (o : Options) : Board := o.board.getD .uno

def Options.stageOrDefault (o : Options) : Stage := o.stage.getD .sketch

def compileProgram (o : Options) (p : Program) : Outcome :=
  match Registry.standard.compile p o.boardOrDefault o.header with
  | .error e => .failure 1 e.message
  | .ok c =>
      let text := o.stageOrDefault.text p o.boardOrDefault c
      let notices := c.sketch.diagnostics.toList.map (fun d => Outcome.noticeLine d.2.text)
      match o.output with
      | some path => { stderr := String.join notices, file := some (path, text) }
      | none => { stdout := text, stderr := String.join notices }

def compileFile (path : String) (o : Options) (content : Except FileError String) : Outcome :=
  match LogLevel.ofCount? o.verbosity, content with
  | none, _ => .failure 2 (LogLevel.excess o.verbosity)
  | some _, .error e => .failure 2 (path ++ ": " ++ e.message)
  | some _, .ok text =>
      match Program.load text with
      | .error _ => badProgramFile path
      | .ok p => compileProgram o p

def usageText : String :=
  "Usage: inoc [--output FILE] [--board BOARD] [--emit STAGE] [--header] [--verbose] PROGRAM\n"

def outcome (order : Order) (content : String → Except FileError String) : Outcome :=
  match order with
  | .compile path o => compileFile path o (content path)
  | .version => { stdout := s!"inoc {version}\n" }
  | .help => { stdout := usageText }
  | .usage => { exitCode := 2, stderr := usageText }

end BlockSketch.CommandLine
