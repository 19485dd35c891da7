import CodeAssist.Completion.KnownTypes
import CodeAssist.Completion.Walk
/-!
# Shadowing

The candidates of the walk come in the order of their discovery, the innermost scope first. Of two
members with one name that clash:

* found through the same root, the one declared by a proper subclass of the other's class stays, in
  the place of the first, and without such a relation the first stays;
* found through different roots, the later one is hidden; it stays with a qualifier.

A type is proposed once, and the first to have a simple name may be written with it alone. Fields
that a variable hides are qualified too.
-/

namespace CodeAssist.Completion

/-- The methods that every record has. -/
def recordMethods : List String := ["equals", "hashCode", "toString"]

namespace Session

/-! ## Members -/

/-- The name of a class without its package. -/
def nameInPackage (definition : ClassDef) : String :=
  ".".intercalate (definition.name.segments.drop definition.package.length)

/-- What to write before a member to reach it through the root of its search: `this` for the
innermost class, the outer instance for others, and the type for static members. -/
def receiverQualifier (session : Session) (candidate : Candidate) : Option String := do
  let root ← candidate.root? <|> candidate.declaring
  let definition ← session.store.class? root
  if candidate.origin = .staticImport ∨ candidate.origin = .favorite then
    return definition.name.dotted
  else if candidate.isStatic then return nameInPackage definition
  else if session.view.within = some root then return "this"
  else return nameInPackage definition ++ ".this"

/-- The candidate with the qualifier that reaches it. -/
def qualify (session : Session) (candidate : Candidate) : Candidate :=
  candidate.qualifiedBy (session.receiverQualifier candidate)

/-- Whether the signatures of two members of one kind and name clash. Fields always do. -/
def signaturesClash (session : Session) (first second : Candidate) : Bool :=
  match first.symbol, second.symbol with
  | .method a, .method b =>
    match session.store.methodAt? a, session.store.methodAt? b with
    | some a, some b => a.isSubsignature b || b.isSubsignature a
    | _, _ => false
  | _, _ =>
    first.kind == .field || session.store.signature? first == session.store.signature? second

/-- Whether two candidates cannot both be written with their names alone. -/
def clash (session : Session) (first second : Candidate) : Bool :=
  first.kind == second.kind && first.name == second.name && session.signaturesClash first second

/-- Whether a candidate makes a second one superfluous that it clashes with: they are the same
member, or they were found through the same root. -/
def covers (first second : Candidate) : Bool :=
  (first.declaring == second.declaring && first.symbol == second.symbol)
    || first.root? == second.root?

/-- Whether one candidate is declared by a proper subclass of the other's class. -/
def overrides (session : Session) (candidate other : Candidate) : Bool :=
  match candidate.declaring, other.declaring with
  | some sub, some sup =>
    sub != sup && session.store.isSubclass sub sup && !session.store.isSubclass sup sub
  | _, _ => false

/-- What stays in the place of an earlier candidate when a later one is found that it covers: the
later one if it overrides, qualified if the earlier one had to be. -/
def merge (session : Session) (candidate earlier : Candidate) : Candidate :=
  if session.overrides candidate earlier then
    if earlier.mustQualify && candidate.qualifier.isNone then session.qualify candidate
    else candidate
  else earlier

/-- Whether an earlier candidate leaves no place of its own to a later one. -/
def displaces (session : Session) (earlier candidate : Candidate) : Bool :=
  session.clash earlier candidate && covers earlier candidate

/-- Adds a member to those that stay. -/
def addMember (session : Session) (kept : List Candidate) (candidate : Candidate) :
    List Candidate :=
  match kept.findIdx? (session.displaces · candidate) with
  | some slot => kept.modify slot (session.merge candidate)
  | none =>
    if kept.any (session.clash · candidate) && candidate.qualifier.isNone then
      kept ++ [session.qualify candidate]
    else kept ++ [candidate]

/-! ## Types -/

/-- What is written before the simple name of a type that is written in full. -/
def fullQualifier (name : QualifiedName) : Option String := name.parent?.map QualifiedName.dotted

/-- Adds a type to those that stay, unless it is known. -/
def addType (session : Session) (known : KnownTypes) (kept : List Candidate)
    (candidate : Candidate) : KnownTypes × List Candidate :=
  match session.store.typeName? candidate with
  | none => (known, kept ++ [candidate])
  | some name =>
    if known.contains name then (known, kept)
    else
      let known := (known.insert name).claim candidate.name name
      if known.holds candidate.name name then (known, kept ++ [candidate])
      else (known, kept ++ [candidate.qualifiedBy (fullQualifier name)])

/-- Adds a candidate to those that stay. -/
def addCandidate (session : Session) (state : KnownTypes × List Candidate)
    (candidate : Candidate) : KnownTypes × List Candidate :=
  match candidate.kind with
  | .type => session.addType state.1 state.2 candidate
  | .field | .method => (state.1, session.addMember state.2 candidate)
  | _ => (state.1, state.2 ++ [candidate])

/-! ## Later changes -/

/-- Qualifies the fields that have the name of a variable. -/
def qualifyHiddenFields (session : Session) (kept : List Candidate) : List Candidate :=
  let locals := (kept.filter fun candidate => candidate.kind == .local).map Candidate.name
  kept.map fun candidate =>
    if candidate.kind = .field && !candidate.mustQualify && locals.contains candidate.name then
      session.qualify candidate
    else candidate

/-- The method of the root class with the signature of another method. -/
def objectMethod? (session : Session) (method : Method) : Option MemberRef := do
  let definition ← session.store.class? .object
  let index ← definition.methods.findIdx? fun inherited => inherited.isSubsignature method
  return { owner := .object, index }

/-- Lets the methods that a record has of itself be scored as those of the root class. -/
def attributeRecordMethod (session : Session) (candidate : Candidate) : Candidate :=
  match candidate.symbol with
  | .method ref =>
    let isRecord := (session.store.class? ref.owner).any fun definition =>
      definition.kind == .record
    if candidate.modifiers.contains .mandated && recordMethods.contains candidate.name
        && isRecord then
      match session.store.methodAt? ref with
      | some method => { candidate with scoredAs := session.objectMethod? method }
      | none => candidate
    else candidate
  | _ => candidate

/-- Writes a member of the enclosing classes with its receiver. -/
def forceQualifier (session : Session) (candidate : Candidate) : Candidate :=
  let isImplicit :=
    candidate.origin = .declared ∨ candidate.origin = .inherited ∨ candidate.origin = .interface
  if candidate.isMember && candidate.qualifier.isNone && isImplicit then
    { candidate with qualifier := session.receiverQualifier candidate }
  else candidate

/-- The candidates that stay, as they are to be written, and the types that have become known. -/
def resolve (session : Session) (candidates : List Candidate) : KnownTypes × List Candidate :=
  let (known, kept) := candidates.foldl session.addCandidate ({}, [])
  let attributed := (session.qualifyHiddenFields kept).map session.attributeRecordMethod
  if session.options.forceQualification && session.request.site = .name then
    (known, attributed.map session.forceQualifier)
  else (known, attributed)

end Session

end CodeAssist.Completion
