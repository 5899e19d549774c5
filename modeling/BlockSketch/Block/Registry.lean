import BlockSketch.Block.Basic
import BlockSketch.Digest.Sha256
import BlockSketch.Text.Visible

/-!
Block libraries: kinds of blocks under their names. A library has a fingerprint, which depends on
the names of the kinds and on what each tells about types.
-/

namespace BlockSketch

structure DuplicateKind where
  kind : String
  deriving DecidableEq, Repr, Inhabited

def DuplicateKind.message (e : DuplicateKind) : String :=
  "node kind '" ++ e.kind ++ "' is already registered"

/-- A kind in one line: its name, and whether it tells about types. -/
def Block.describe (b : Block) : String :=
  "BlockDef \x7b kind: " ++ Text.visible b.kind ++ ", block_type: " ++ toString b.typing?.isSome ++
    ", var_refs: " ++ toString b.mentions?.isSome ++ " \x7d"

structure Registry where
  blocks : SortedMap String Block

namespace Registry

def empty : Registry := ⟨.empty⟩

def get? (r : Registry) (kind : String) : Option Block := r.blocks.find? kind

def contains (r : Registry) (kind : String) : Bool := (r.get? kind).isSome

def kinds (r : Registry) : List String := r.blocks.keys

def size (r : Registry) : Nat := r.blocks.size

def isEmpty (r : Registry) : Bool := r.blocks.isEmpty

def register (r : Registry) (b : Block) : Except DuplicateKind Registry :=
  if r.contains b.kind then .error ⟨b.kind⟩ else .ok ⟨r.blocks.insert b.kind b⟩

def registerAll (r : Registry) : List Block → Registry × Option DuplicateKind
  | [] => (r, none)
  | b :: rest =>
      match r.register b with
      | .ok r' => r'.registerAll rest
      | .error e => (r, some e)

/-- The library of some kinds. Of two with one name the first is kept. -/
def ofList (blocks : List Block) : Registry :=
  blocks.foldl (fun r b => (r.register b).toOption.getD r) empty

def typing? (r : Registry) (kind : String) : Option ValueTyping := (r.get? kind).bind (·.typing?)

def mentions? (r : Registry) (kind : String) : Option MentionTyping :=
  (r.get? kind).bind (·.mentions?)

def probe (r : Registry) (p : Program) : Probe := ⟨p, r.typing?⟩

/-! ### Fingerprints -/

def flagByte (b : Bool) : UInt8 := if b then 1 else 0

def entryBytes (entry : String × Block) : List UInt8 :=
  entry.1.toUTF8.toList ++
    [':'.toNat.toUInt8, flagByte entry.2.typing?.isSome, flagByte entry.2.mentions?.isSome,
      '\n'.toNat.toUInt8]

def fingerprintBytes (r : Registry) : List UInt8 := r.blocks.toList.flatMap entryBytes

def fingerprint (r : Registry) : String := Sha256.hexDigest r.fingerprintBytes

end Registry

end BlockSketch
