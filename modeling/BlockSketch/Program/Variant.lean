import BlockSketch.DataType

/-!
Variants of blocks whose sockets depend on how the user set them up, and the shape of each: the
sockets and fields that such a block has.
-/

namespace BlockSketch

inductive Variant where
  /-- A driver for one or two motors, each with or without a pin that sets its speed. -/
  | motorDriver (motorCount : UInt8) (aHasEnable bHasEnable : Bool)
  /-- A conditional with some further arms and perhaps a last one without a condition. -/
  | conditional (elseIfCount : UInt32) (hasElse : Bool)
  | procedureDef (arguments : List String)
  | procedureCall (arguments : List String)
  deriving DecidableEq, Repr, Inhabited

inductive SocketKind where
  | value
  | statement
  | field
  deriving DecidableEq, Repr, Inhabited

structure SocketSpec where
  name : String
  kind : SocketKind
  check : Option DataType := none
  deriving DecidableEq, Repr, Inhabited

namespace Variant

def valueSpec (name : String) : SocketSpec := ⟨name, .value, none⟩

def statementSpec (name : String) : SocketSpec := ⟨name, .statement, none⟩

def fieldSpec (name : String) : SocketSpec := ⟨name, .field, none⟩

def armSpecs (i : Nat) : List SocketSpec :=
  [⟨"IF" ++ toString i, .value, some .boolean⟩, statementSpec ("DO" ++ toString i)]

def shape : Variant → List SocketSpec
  | motorDriver motorCount aHasEnable bHasEnable =>
      [fieldSpec "VAR", fieldSpec "PIN0", fieldSpec "PIN1"] ++
        (if aHasEnable then [fieldSpec "PIN_ENA"] else []) ++
        (if 2 ≤ motorCount then
          [fieldSpec "PIN2", fieldSpec "PIN3"] ++
            (if bHasEnable then [fieldSpec "PIN_ENB"] else [])
        else [])
  | conditional elseIfCount hasElse =>
      (List.range (elseIfCount.toNat + 1)).flatMap armSpecs ++
        (if hasElse then [statementSpec "ELSE"] else [])
  | procedureDef arguments =>
      [fieldSpec "NAME", statementSpec "STACK", valueSpec "RETURN"] ++
        (List.range arguments.length).map (fun i => fieldSpec ("ARGTYPE" ++ toString i))
  | procedureCall arguments =>
      fieldSpec "NAME" ::
        (List.range arguments.length).map (fun i => valueSpec ("ARG" ++ toString i))

def allows (v : Variant) (name : String) (kind : SocketKind) : Bool :=
  v.shape.any (fun spec => spec.name = name && spec.kind = kind)

end Variant

end BlockSketch
