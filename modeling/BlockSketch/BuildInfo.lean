import BlockSketch.Generation
import BlockSketch.Json.Writer
import BlockSketch.Program.Saved

/-!
The description of a build: digests of the program and of the block library, the board and the
version. Equal builds have equal descriptions.
-/

namespace BlockSketch

structure BuildInfo where
  programHash : String
  fingerprint : String
  board : Board
  version : String
  deriving DecidableEq, Repr

namespace BuildInfo

/-- The digest of a program, which depends on all of it and on nothing else. -/
def hashOf (p : Program) : String := Sha256.hexDigest p.save.toUTF8.toList

def of (r : Registry) (p : Program) (board : Board) : BuildInfo :=
  ⟨hashOf p, r.fingerprint, board, BlockSketch.version⟩

def toJson (i : BuildInfo) : Json :=
  .object
    [("program_hash", .text i.programHash), ("registry_fingerprint", .text i.fingerprint),
      ("board", .text i.board.key), ("compiler_version", .text i.version)]

def text (i : BuildInfo) : String := i.toJson.pretty ++ "\n"

end BuildInfo

end BlockSketch
