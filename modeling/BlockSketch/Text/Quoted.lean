/-!
String literals of the sketch language. Backslash, quote and line feed are written as escapes; every
other character stands for itself.
-/

namespace BlockSketch.Text.Quoted

def escape : Char → List Char
  | '\\' => ['\\', '\\']
  | '"' => ['\\', '"']
  | '\n' => ['\\', 'n']
  | c => [c]

def encode (cs : List Char) : List Char := cs.flatMap escape

@[simp] theorem encode_nil : encode [] = [] := rfl

@[simp] theorem encode_cons (c : Char) (cs : List Char) :
    encode (c :: cs) = escape c ++ encode cs := rfl

end BlockSketch.Text.Quoted

namespace BlockSketch.Text

def quote (s : String) : String :=
  String.ofList ('"' :: (Quoted.encode s.toList ++ ['"']))

end BlockSketch.Text
