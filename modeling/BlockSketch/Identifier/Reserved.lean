/-!
The words that no identifier of a sketch may be: control words, built-in types and the calls of the
core library.
-/

namespace BlockSketch.Identifier

def reservedWords : List String :=
  ["setup", "loop", "if", "else", "for", "switch", "case", "while", "do",
    "break", "continue", "return", "goto", "define", "include",
    "HIGH", "LOW", "INPUT", "OUTPUT", "INPUT_PULLUP", "true", "false",
    "integer", "constants", "floating", "point",
    "void", "boolean", "char", "unsigned", "byte", "int", "word", "long",
    "float", "double", "string", "String", "array", "static", "volatile",
    "const", "sizeof",
    "pinMode", "digitalWrite", "digitalRead", "analogReference", "analogRead",
    "analogWrite", "tone", "noTone", "shiftOut", "shiftIn", "pulseIn",
    "millis", "micros", "delay", "delayMicroseconds",
    "min", "max", "abs", "constrain", "map", "pow", "sqrt", "sin", "cos", "tan",
    "randomSeed", "random",
    "lowByte", "highByte", "bitRead", "bitWrite", "bitSet", "bitClear", "bit",
    "attachInterrupt", "detachInterrupt", "interrupts", "noInterrupts"]

def isReserved (word : String) : Bool := reservedWords.contains word

end BlockSketch.Identifier
