import BlockSketch.DataType
import BlockSketch.Json.Basic
import BlockSketch.SortedMap

/-!
The types found for the variables of a program, by name.
-/

namespace BlockSketch

/-- The types of variables, and the types of the elements of those that are arrays. -/
structure TypeMap where
  types : SortedMap String DataType := .empty
  elements : SortedMap String DataType := .empty
  deriving DecidableEq, Inhabited

namespace TypeMap

def empty : TypeMap := {}

def get? (m : TypeMap) (name : String) : Option DataType := m.types.find? name

def element? (m : TypeMap) (name : String) : Option DataType := m.elements.find? name

def get (m : TypeMap) (name : String) : DataType := (m.get? name).getD .undefined

def toList (m : TypeMap) : List (String × DataType) := m.types.toList

def tagsJson (m : SortedMap String DataType) : Json :=
  .object (m.toList.map (fun e => (e.1, .text e.2.tag)))

def toJson (m : TypeMap) : Json :=
  .object
    (("types", tagsJson m.types) ::
      if m.elements.isEmpty then [] else [("element_types", tagsJson m.elements)])

end TypeMap

end BlockSketch
