import CodeAssist.Completion.Candidate
import CodeAssist.Text.CursorToken
/-!
# Proposals

A proposal is what a client is shown and may insert: the text that replaces the token, the symbol it
stands for, and its relevance.
-/

namespace CodeAssist.Completion

/-- What sort of thing is proposed. -/
inductive ProposalKind where
  | local
  | field
  | method
  | constructor
  /-- An object with a class body. -/
  | anonymousClass
  | type
  | package
  | module
  | label
  | keyword
deriving DecidableEq, Repr, Inhabited

namespace ProposalKind

def all : List ProposalKind :=
  [.local, .field, .method, .constructor, .anonymousClass, .type, .package, .module, .label,
   .keyword]

/-- The word for a kind. -/
def word : ProposalKind → String
  | .local => "local"
  | .field => "field"
  | .method => "method"
  | .constructor => "constructor"
  | .anonymousClass => "anonymous_class"
  | .type => "type"
  | .package => "package"
  | .module => "module"
  | .label => "label"
  | .keyword => "keyword"

/-- The kind with a given word. -/
def ofWord? (word : String) : Option ProposalKind := all.find? fun kind => kind.word == word

/-- What sort of thing a candidate is proposed as. -/
def ofCandidate (candidate : Candidate) : ProposalKind :=
  match candidate.kind with
  | .local => .local
  | .field => .field
  | .method => .method
  | .constructor =>
    if candidate.allocation = some .anonymous then .anonymousClass else .constructor
  | .type => .type
  | .package => .package
  | .module => .module
  | .label => .label
  | .keyword => .keyword

end ProposalKind

/-- A finished proposal. -/
structure Proposal where
  kind : ProposalKind
  /-- The text to insert, with its qualifier. -/
  completion : String
  /-- The bare name. -/
  name : String
  /-- What the text replaces. -/
  range : TextRange
  relevance : Nat
  /-- The full name of the declaring type. -/
  declaring : Option String
  /-- The symbol as it is shown. -/
  signature : Option String
  /-- What tells the symbol from others of its declaring type. -/
  key : String
  modifiers : Modifiers
  access : Access
  qualification : Option String
  requiredImport : Option String
  allocation : Option AllocationStyle
  missing : Bool
deriving DecidableEq, Repr

namespace Proposal

def isQualified (proposal : Proposal) : Bool := proposal.qualification.isSome

/-- The declaring type and the key, which are to tell the symbol from all others of its kind. -/
def identity (proposal : Proposal) : Option String × String := (proposal.declaring, proposal.key)

/-- What is inserted for a candidate. -/
def completionOf (candidate : Candidate) : String :=
  let text :=
    match candidate.kind with
    | .method | .constructor => candidate.name ++ "()"
    | _ => candidate.name
  match candidate.qualifier with
  | some qualifier => qualifier ++ "." ++ text
  | none => text

/-- The full name of the type that declares or is denoted by a candidate. -/
def declaringOf (store : Store) (candidate : Candidate) : Option String :=
  match candidate.kind with
  | .type | .constructor => (store.typeName? candidate).map QualifiedName.dotted
  | _ => (candidate.declaring.bind store.name?).map QualifiedName.dotted

/-- A candidate as it is shown. -/
def signatureOf (store : Store) (candidate : Candidate) : Option String :=
  let name := candidate.name
  match candidate.symbol with
  | .local type _ => some (name ++ " : " ++ store.showType type)
  | .field _ | .arrayLength => some (name ++ " : " ++ store.showType candidate.type)
  | .method ref => (store.methodAt? ref).map store.showMethod
  | .arrayClone array => some ("clone() : " ++ store.showType array)
  | .constructor ref =>
    (store.constructor? ref.owner ref.index).map fun constructor =>
      name ++ "(" ++ ", ".intercalate (constructor.parameters.map store.showType) ++ ")"
  | .indexedConstructor fact => some (name ++ "(" ++ ", ".intercalate fact.parameters ++ ")")
  | .type _ | .indexedType _ =>
    if candidate.kind = .constructor then some (name ++ "()")
    else (store.typeName? candidate).map QualifiedName.dotted
  | .package package => some package.dotted
  | .label | .keyword => none

/-- A parameter list by its erased types. -/
def erasedList (store : Store) (parameters : List TypeRef) : String :=
  "(" ++ ",".intercalate (parameters.map fun type => store.showType type.erasure) ++ ")"

/-- The name of a member with its erased parameters, and the full name of a type. -/
def keyOf (store : Store) (candidate : Candidate) : String :=
  match candidate.symbol with
  | .method ref =>
    match store.methodAt? ref with
    | some method => method.name ++ erasedList store method.parameters
    | none => candidate.name
  | .arrayClone _ => "clone()"
  | .constructor ref =>
    match store.constructor? ref.owner ref.index with
    | some constructor => "<init>" ++ erasedList store constructor.parameters
    | none => "<init>()"
  | .indexedConstructor fact => "<init>(" ++ ",".intercalate fact.parameters ++ ")"
  | .type _ | .indexedType _ =>
    if candidate.kind = .constructor then "<init>()"
    else ((store.typeName? candidate).map QualifiedName.dotted).getD candidate.name
  | .package package => package.dotted
  | .local _ _ | .field _ | .arrayLength | .label | .keyword => candidate.name

/-- The proposal for a candidate. -/
def ofCandidate (store : Store) (range : TextRange) (relevance : Nat) (candidate : Candidate) :
    Proposal :=
  { kind := .ofCandidate candidate
    completion := completionOf candidate
    name := candidate.name
    range, relevance
    declaring := declaringOf store candidate
    signature := signatureOf store candidate
    key := keyOf store candidate
    modifiers := candidate.modifiers
    access := candidate.access
    qualification := candidate.qualifier
    requiredImport := candidate.requiredImport
    allocation := candidate.allocation
    missing := candidate.missing }

end Proposal

end CodeAssist.Completion
