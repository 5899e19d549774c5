/-!
How much the command line tells about its work.
-/

namespace BlockSketch.CommandLine

/-- A level of log messages. Each includes those before it. -/
inductive LogLevel where
  | warn
  | info
  | debug
  | trace
  deriving DecidableEq, Repr, Inhabited

namespace LogLevel

def all : List LogLevel := [warn, info, debug, trace]

def name : LogLevel → String
  | warn => "WARN"
  | info => "INFO"
  | debug => "DEBUG"
  | trace => "TRACE"

def ofCount? (count : Nat) : Option LogLevel := all[count]?

def excess (count : Nat) : String := s!"verbosity {count} is out of range (use at most -vvv)"

end LogLevel

end BlockSketch.CommandLine
