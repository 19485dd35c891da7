import CodeAssist.Class.Signature
import CodeAssist.Index.Fact
import CodeAssist.Matching.Match
import CodeAssist.Scope.Graph
/-!
# Candidates

A candidate is a symbol whose name matched the token, with what later stages need to know: how it
was reached, how it has to be written, and what speaks for it.
-/

namespace CodeAssist.Completion

open Matching (NameMatch)

/-- What sort of thing a candidate is. -/
inductive CandidateKind where
  | field
  | method
  | constructor
  | type
  | package
  | module
  | label
  | keyword
  | local
deriving DecidableEq, Repr, Inhabited

/-- How a candidate was reached. -/
inductive Origin where
  | localScope
  /-- Declared by the class that the search began at. -/
  | declared
  /-- Found on a superclass. -/
  | inherited
  /-- Found on an interface. -/
  | interface
  | explicitImport
  | onDemandImport
  | staticImport
  | favorite
  | search
  | synthetic
deriving DecidableEq, Repr, Inhabited

/-- The thing that a candidate stands for. -/
inductive Symbol where
  | local (type : TypeRef) (isFinal : Bool)
  | field (ref : MemberRef)
  | method (ref : MemberRef)
  | constructor (ref : MemberRef)
  | type (id : ClassId)
  /-- The length of an array. -/
  | arrayLength
  /-- The method that copies an array of the given type. -/
  | arrayClone (array : TypeRef)
  | indexedType (fact : TypeFact)
  | indexedConstructor (fact : ConstructorFact)
  | package (name : QualifiedName)
  | label
  | keyword
deriving DecidableEq, Repr, Inhabited

/-- How an object is made. -/
inductive AllocationStyle where
  | direct
  /-- With a class body, for interfaces and abstract classes. -/
  | anonymous
deriving DecidableEq, Repr, Inhabited

/-- A symbol whose name matched. -/
structure Candidate where
  kind : CandidateKind
  symbol : Symbol
  name : String
  nameMatch : NameMatch
  /-- The class that declares the member, or the type itself. -/
  declaring : Option ClassId := none
  /-- The type of a variable, the result of a method, or the type that is denoted. -/
  type : TypeRef := .unknown
  modifiers : Modifiers := .none
  access : Access := .accessible
  origin : Origin := .synthetic
  /-- The class that the search began at, then the classes the member was found through. -/
  chain : List ClassId := []
  mustQualify : Bool := false
  /-- What is written before the name and a dot. -/
  qualifier : Option String := none
  resolved : Bool := true
  /-- Found on a guessed type. -/
  missing : Bool := false
  /-- The import to be added with the candidate. -/
  requiredImport : Option String := none
  allocation : Option AllocationStyle := none
  /-- The method in whose stead the candidate is scored. -/
  scoredAs : Option MemberRef := none
deriving DecidableEq, Repr

namespace Candidate

/-- Whether the candidate is a field or a method. -/
def isMember (candidate : Candidate) : Bool :=
  candidate.kind == .field || candidate.kind == .method

def isStatic (candidate : Candidate) : Bool := candidate.modifiers.isStatic

def isFinal (candidate : Candidate) : Bool :=
  match candidate.symbol with
  | .local _ isFinal => isFinal
  | _ => candidate.modifiers.isFinal

/-- The class that the search began at. -/
def root? (candidate : Candidate) : Option ClassId := candidate.chain.head?

/-- The candidate with a qualifier that it cannot do without. -/
def qualifiedBy (candidate : Candidate) (qualifier : Option String) : Candidate :=
  { candidate with mustQualify := true, qualifier }

end Candidate

end CodeAssist.Completion

namespace CodeAssist.Store

open Completion

/-- The method at a place. -/
def methodAt? (store : Store) (ref : MemberRef) : Option Method := store.method? ref.owner ref.index

/-- The identity of a member for overriding and hiding; other candidates have none. -/
def signature? (store : Store) (candidate : Candidate) : Option Signature :=
  match candidate.symbol with
  | .field _ | .arrayLength => some { name := candidate.name, parameters := none }
  | .method ref => (store.methodAt? ref).map Method.signature
  | .arrayClone _ => some { name := candidate.name, parameters := some [] }
  | _ => none

/-- The name of the type that a type or a constructor denotes. -/
def typeName? (store : Store) (candidate : Candidate) : Option QualifiedName :=
  match candidate.symbol with
  | .type id => store.name? id
  | .constructor ref => store.name? ref.owner
  | .indexedType fact => some fact.name
  | .indexedConstructor fact => some fact.declaring.name
  | _ => none

end CodeAssist.Store
