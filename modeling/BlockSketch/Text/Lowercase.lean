import BlockSketch.Text.Blank
import BlockSketch.Text.CaseTable

/-!
Lower case of a text by the full Unicode mapping. One letter has two characters as its lower case,
and a sigma at the end of a word has a form of its own; every other character maps by itself.
-/

namespace BlockSketch.Text

def CaseRun.lower? (n : Nat) (r : CaseRun) : Option Nat :=
  if r.first ≤ n ∧ n ≤ r.last ∧ (n - r.first) % r.step = 0 then some (n + r.shift).toNat else none

def lowerChar (c : Char) : List Char :=
  if c.toNat < 0x80 then [c.toLower]
  else if c.toNat = 0x130 then ['i', Char.ofNat 0x307]
  else
    match lowerRuns.findSome? (CaseRun.lower? c.toNat) with
    | some n => [Char.ofNat n]
    | none => [c]

def isCased (c : Char) : Bool := inRanges casedRanges c.toNat

def isCaseIgnorable (c : Char) : Bool := inRanges ignorableRanges c.toNat

/-- Whether the first character that case does not ignore is a letter with case. -/
def meetsCased (cs : List Char) : Bool :=
  match cs.dropWhile isCaseIgnorable with
  | c :: _ => isCased c
  | [] => false

def capitalSigma : Char := Char.ofNat 0x3A3

def finalSigma : Char := Char.ofNat 0x3C2

def lowerFrom (before : List Char) : List Char → List Char
  | [] => []
  | c :: cs =>
      let mapped :=
        if c = capitalSigma ∧ meetsCased before ∧ ¬ meetsCased cs then [finalSigma] else lowerChar c
      mapped ++ lowerFrom (c :: before) cs

def lowercase (s : String) : String := String.ofList (lowerFrom [] s.toList)

end BlockSketch.Text
