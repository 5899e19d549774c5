import BlockSketch.Text.Blank
import BlockSketch.Text.VisibilityTable

/-!
Texts in quotes for people to read: what cannot be seen by itself is spelled out by its number.
-/

namespace BlockSketch.Text

def numbered (c : Char) : List Char := "\\u\x7b".toList ++ Nat.toDigits 16 c.toNat ++ ['\x7d']

/-- Whether a character cannot be seen by itself: it has no shape, fills a place that is left out,
or extends the character before it. -/
def isInvisible (c : Char) : Bool :=
  inRanges shapelessRanges c.toNat || inRanges fillerRanges c.toNat ||
    inRanges extenderRanges c.toNat

def visibleChar (c : Char) : List Char :=
  match c with
  | '"' => ['\\', '"']
  | '\\' => ['\\', '\\']
  | '\n' => ['\\', 'n']
  | '\r' => ['\\', 'r']
  | '\t' => ['\\', 't']
  | '\x00' => ['\\', '0']
  | c => if isInvisible c then numbered c else [c]

def visible (s : String) : String := String.ofList ('"' :: (s.toList.flatMap visibleChar ++ ['"']))

end BlockSketch.Text
