import BlockSketch.CommandLine.Outcome

/-!
The command line: reads the program file, and writes what a call gives.
-/

namespace BlockSketch.CommandLine

/-- The number that the system gives for a failure. Some calls give its opposite, modulo 2 ^ 32. -/
def systemCode? (e : IO.Error) : Option Nat :=
  let code? := match e with
    | .noFileOrDirectory _ code _ | .inappropriateType _ code _ | .invalidArgument _ code _
    | .permissionDenied _ code _ | .resourceExhausted _ code _ | .noSuchThing _ code _
    | .alreadyExists _ code _ | .interrupted _ code _ => some code
    | .otherError code _ | .resourceBusy code _ | .unsupportedOperation code _
    | .unsatisfiedConstraints code _ | .illegalOperation code _ | .hardwareFault code _ => some code
    | _ => none
  code?.map (fun code => if code < 0x80000000 then code.toNat else (0 - code).toNat)

def FileError.ofError (e : IO.Error) : FileError :=
  ((systemCode? e).bind FileError.ofCode?).getD (.other (toString e))

def readTextFile (path : String) : IO (Except FileError String) := do
  match ← (IO.FS.readBinFile path).toBaseIO with
  | .ok bytes => return (String.fromUTF8? bytes).elim (.error .notText) .ok
  | .error e => return .error (.ofError e)

def contentFor : Order → IO (Except FileError String)
  | .compile path _ => readTextFile path
  | _ => return .error .missing

/-- Write a text to a file. What is held back in memory is written before the file is closed. -/
def writeTextFile (path text : String) : IO (Except FileError Unit) := do
  let write := IO.FS.withFile path .write fun file => do
    file.putStr text
    file.flush
  return (← write.toBaseIO).mapError .ofError

def deliver (o : Outcome) : IO Outcome := do
  match o.file with
  | none => return o
  | some (path, text) =>
      match ← writeTextFile path text with
      | .ok () => return o
      | .error e => return o.writeFailure path e

end BlockSketch.CommandLine

open BlockSketch.CommandLine in
def main (args : List String) : IO UInt32 := do
  let order := Order.ofArguments args
  let content ← contentFor order
  let result ← deliver (outcome order (fun _ => content))
  IO.print result.stdout
  IO.eprint result.stderr
  return UInt32.ofNat result.exitCode
