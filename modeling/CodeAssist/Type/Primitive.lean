/-!
# Primitive types

The eight primitive types, their keywords and wrapper classes, and the widening order on them.
-/

namespace CodeAssist

/-- A primitive type. -/
inductive Primitive where
  | boolean
  | byte
  | short
  | char
  | int
  | long
  | float
  | double
deriving DecidableEq, Repr, Inhabited

namespace Primitive

/-- All primitive types. -/
def all : List Primitive := [.boolean, .byte, .short, .char, .int, .long, .float, .double]

def keyword : Primitive → String
  | .boolean => "boolean"
  | .byte => "byte"
  | .short => "short"
  | .char => "char"
  | .int => "int"
  | .long => "long"
  | .float => "float"
  | .double => "double"

def ofKeyword? (word : String) : Option Primitive :=
  all.find? fun primitive => primitive.keyword == word

/-- The dotted name of the wrapper class. -/
def boxName : Primitive → String
  | .boolean => "java.lang.Boolean"
  | .byte => "java.lang.Byte"
  | .short => "java.lang.Short"
  | .char => "java.lang.Character"
  | .int => "java.lang.Integer"
  | .long => "java.lang.Long"
  | .float => "java.lang.Float"
  | .double => "java.lang.Double"

/-- The types that a value widens to, besides its own. -/
def wider : Primitive → List Primitive
  | .byte => [.short, .int, .long, .float, .double]
  | .short => [.int, .long, .float, .double]
  | .char => [.int, .long, .float, .double]
  | .int => [.long, .float, .double]
  | .long => [.float, .double]
  | .float => [.double]
  | .double => []
  | .boolean => []

/-- Whether a value of one type may stand where the other is asked for, as it is or widened. -/
def widensTo (source target : Primitive) : Bool :=
  source == target || source.wider.contains target

end Primitive

end CodeAssist
