import CodeAssist.Modifiers
import CodeAssist.QualifiedName
import CodeAssist.Type.Basic
/-!
# Classes and their members

What is known of a class: its place among packages and other classes, its supertypes, and the
members it declares. "Class" is short for every declared type; its kind tells interfaces,
enumerations, annotations and records apart.
-/

namespace CodeAssist

/-- The kind of a declared type. -/
inductive ClassKind where
  | «class»
  | interface
  | enumeration
  | annotationType
  | record
deriving DecidableEq, Repr, Inhabited

namespace ClassKind

/-- Interfaces and annotations. -/
def isInterfaceLike : ClassKind → Bool
  | .interface | .annotationType => true
  | _ => false

def word : ClassKind → String
  | .class => "class"
  | .interface => "interface"
  | .enumeration => "enum"
  | .annotationType => "annotation"
  | .record => "record"

def ofWord? (word : String) : Option ClassKind :=
  [ClassKind.class, interface, enumeration, annotationType, record].find? fun kind =>
    kind.word == word

end ClassKind

/-- The names given to parameters of which only the number is known. -/
def defaultParameterNames (count : Nat) : List String :=
  (List.range count).map fun index => "arg" ++ toString index

/-- A field of a class. -/
structure Field where
  name : String
  type : TypeRef
  modifiers : Modifiers := .public
  access : Access := .accessible
deriving DecidableEq, Repr, Inhabited

namespace Field

def isEnumConstant (field : Field) : Bool := field.modifiers.contains .enumConstant

/-- A static final field. -/
def isConstant (field : Field) : Bool := field.modifiers.contains (.static ||| .final)

/-- A constant of an enumeration, before it is known of which. -/
def enumConstant (name : String) : Field :=
  { name, type := .unknown, modifiers := .public ||| .static ||| .final ||| .enumConstant }

end Field

/-- A method of a class. -/
structure Method where
  name : String
  parameters : List TypeRef := []
  result : TypeRef := .void
  modifiers : Modifiers := .public
  parameterNames : List String := defaultParameterNames parameters.length
  typeParameters : List String := []
  access : Access := .accessible
deriving DecidableEq, Repr, Inhabited

namespace Method

def isStatic (method : Method) : Bool := method.modifiers.isStatic

def isAbstract (method : Method) : Bool := method.modifiers.isAbstract

end Method

/-- A constructor of a class. -/
structure Constructor where
  parameters : List TypeRef := []
  modifiers : Modifiers := .public
  parameterNames : List String := defaultParameterNames parameters.length
  access : Access := .accessible
deriving DecidableEq, Repr, Inhabited

/-- A component of a record. -/
structure Component where
  name : String
  type : TypeRef
deriving DecidableEq, Repr, Inhabited

/-- What is known of a class. -/
structure ClassDef where
  /-- The dotted name, enclosing classes included. -/
  name : QualifiedName
  package : QualifiedName
  kind : ClassKind := .class
  modifiers : Modifiers := .public
  access : Access := .accessible
  /-- The class that this one is a member of. -/
  enclosing : Option ClassId := none
  superclass : Option TypeRef := none
  interfaces : List TypeRef := []
  typeParameters : List String := []
  fields : List Field := []
  methods : List Method := []
  constructors : List Constructor := []
  memberTypes : List ClassId := []
  components : List Component := []
deriving DecidableEq, Repr, Inhabited

namespace ClassDef

/-- A public class outside any other; its package is its name without the last segment. -/
def topLevel (name : QualifiedName) (kind : ClassKind := .class) : ClassDef :=
  { name, package := name.container, kind }

def simpleName (definition : ClassDef) : String := definition.name.simple

def isInterface (definition : ClassDef) : Bool := definition.kind.isInterfaceLike

def isAbstract (definition : ClassDef) : Bool :=
  definition.isInterface || definition.modifiers.isAbstract

def isDeprecated (definition : ClassDef) : Bool := definition.modifiers.isDeprecated

/-- The classes named as superclass and interfaces, the superclass first. -/
def directSupertypes (definition : ClassDef) : List ClassId :=
  (definition.superclass.toList ++ definition.interfaces).filterMap TypeRef.classId?

end ClassDef

end CodeAssist
