import CodeAssist.Class.Basic
/-!
# Facts of the index

What a search of the class path reports: that there is a type, or a constructor, with a name. A fact
says nothing about imports and scopes, and the parameter types of a constructor are plain text.
-/

namespace CodeAssist

/-- A type on the class path. -/
structure TypeFact where
  package : QualifiedName := .empty
  /-- The types around it, outermost first. -/
  enclosing : List String := []
  simpleName : String
  modifiers : Modifiers := .none
  kind : ClassKind := .class
  access : Access := .accessible
deriving DecidableEq, Repr, Inhabited

namespace TypeFact

/-- A public type outside any other. -/
def topLevel (name : QualifiedName) (kind : ClassKind := .class) : TypeFact :=
  { package := name.container, simpleName := name.simple, modifiers := .public, kind }

/-- What the simple name stands behind: the package and the types around the type. -/
def container (fact : TypeFact) : QualifiedName := fact.package.append ⟨fact.enclosing⟩

def name (fact : TypeFact) : QualifiedName := fact.container.child fact.simpleName

/-- The name of the outermost type around the type, or of the type itself. -/
def topLevelName (fact : TypeFact) : QualifiedName :=
  match fact.enclosing with
  | outer :: _ => fact.package.child outer
  | [] => fact.name

/-- The name without its package. -/
def nameInPackage (fact : TypeFact) : String :=
  ".".intercalate (fact.enclosing ++ [fact.simpleName])

def isMember (fact : TypeFact) : Bool := !fact.enclosing.isEmpty

/-- Member types other than plain classes are static without saying so. -/
def isStatic (fact : TypeFact) : Bool :=
  fact.modifiers.isStatic || (fact.isMember && fact.kind != .class)

def isAbstract (fact : TypeFact) : Bool :=
  fact.kind.isInterfaceLike || fact.modifiers.isAbstract

def isDeprecated (fact : TypeFact) : Bool := fact.modifiers.isDeprecated

end TypeFact

/-- A constructor on the class path. -/
structure ConstructorFact where
  declaring : TypeFact
  /-- The parameter types as they are written. -/
  parameters : List String := []
  parameterNames : List String := []
  modifiers : Modifiers := .none
  access : Access := .accessible
deriving DecidableEq, Repr, Inhabited

/-- A public constructor with the given parameter types. -/
def ConstructorFact.ofParameters (declaring : TypeFact) (parameters : List String) :
    ConstructorFact :=
  { declaring, parameters, parameterNames := defaultParameterNames parameters.length,
    modifiers := .public }

/-- The contents of an index. -/
structure Snapshot where
  types : List TypeFact := []
  constructors : List ConstructorFact := []
  /-- Packages beyond those of the types. -/
  packages : List QualifiedName := []
deriving DecidableEq, Repr, Inhabited

/-- One snapshot after the other. -/
def Snapshot.append (first second : Snapshot) : Snapshot :=
  { types := first.types ++ second.types
    constructors := first.constructors ++ second.constructors
    packages := first.packages ++ second.packages }

end CodeAssist
