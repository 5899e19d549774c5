/-!
Lines of a text. A line ends at a line feed, or at a carriage return with a line feed behind it;
the end of the text ends a last line that is not empty.
-/

namespace BlockSketch.Text

def lineChars : List Char → List (List Char)
  | [] => []
  | '\r' :: '\n' :: cs => [] :: lineChars cs
  | '\n' :: cs => [] :: lineChars cs
  | c :: cs =>
      match lineChars cs with
      | [] => [[c]]
      | line :: rest => (c :: line) :: rest

def lines (s : String) : List String := (lineChars s.toList).map String.ofList

/-- Put a lead before every line that is not empty, and a line feed behind every line. -/
def leadLines (lead text : String) : String :=
  String.join ((lines text).map (fun line => (if line.isEmpty then "" else lead ++ line) ++ "\n"))

end BlockSketch.Text
