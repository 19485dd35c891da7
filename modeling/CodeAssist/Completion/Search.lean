import CodeAssist.Completion.Allocation
import CodeAssist.Completion.Placement
import CodeAssist.Completion.Shadowing
/-!
# Candidates of the class path

Types, constructors and packages that a search of the index finds. Types that the walk has made
known are left out. Without a token only what lies below a written qualifier is searched for.
-/

namespace CodeAssist.Completion

/-- The items of a list without those whose name an earlier one has. -/
def uniqueNames (facts : List TypeFact) : List TypeFact :=
  facts.foldl (fun kept fact =>
    if kept.any fun earlier => earlier.name == fact.name then kept else kept ++ [fact]) []

namespace Session

/-- Whether the class path is searched for types. -/
def searchesTypes (session : Session) : Bool :=
  session.request.site.wantsTypes
    && (!session.request.token.isEmpty || session.request.site.qualifier?.isSome)

/-- Whether the class path is searched for packages. -/
def searchesPackages (session : Session) : Bool :=
  session.request.site.wantsPackages
    && (!session.request.token.isEmpty || session.request.site.qualifier?.isSome)

/-- The search for types and constructors. -/
def typeQuery (session : Session) : Index.TypeQuery :=
  { pattern := session.request.token, options := session.options.matching
    container := session.request.site.qualifier? }

/-- The constructors that the search finds; they are only looked for behind `new`. -/
def foundConstructors (session : Session) : List ConstructorFact :=
  if session.request.site = .allocation then session.index.findConstructors session.typeQuery
  else []

/-- The types that the search finds, themselves or by a constructor, each once. -/
def foundTypes (session : Session) : List TypeFact :=
  uniqueNames (session.index.findTypes session.typeQuery
    ++ session.foundConstructors.map ConstructorFact.declaring)

/-- Whether a type of the index may be named in a package. -/
def isFactVisible (package : QualifiedName) (fact : TypeFact) : Bool :=
  fact.modifiers.isPublic || (!fact.modifiers.isPrivate && fact.package == package)

/-- The type that a name denotes: a stored class, or else the name itself. -/
def denotedType (session : Session) (name : QualifiedName) : TypeRef :=
  match session.store.lookup? name.dotted with
  | some id => .plain id
  | none => .named name.dotted

/-- A type of the index, if it passes. -/
def screenFact (session : Session) (known : KnownTypes) (fact : TypeFact) : Screened Placed := do
  let (package, imports) := session.unit
  Screened.requireOr .duplicate !(known.contains fact.name)
  Screened.require !(session.forbidsName fact.name)
  let nameMatch ← session.matchName fact.simpleName
  Screened.requireOr .invisible
    (!session.options.checkVisibility || isFactVisible package fact)
  session.admitAccess fact.access fact.modifiers
  return { fact
           placement :=
             if session.request.site.qualifier?.isSome then .belowQualifier
             else .ofFact package imports fact
           candidate :=
             { kind := .type, symbol := .indexedType fact, name := fact.simpleName, nameMatch
               type := session.denotedType fact.name, modifiers := fact.modifiers
               access := fact.access } }

/-- What is proposed for a type of the index: the type, or behind `new` its constructors. -/
def placedCandidates (session : Session) (placed : Placed) : List (Event Candidate) :=
  if session.request.site = .allocation then
    session.indexedAllocations placed.written placed.fact
      (session.foundConstructors.filter fun fact => fact.declaring.name == placed.name)
  else [.found placed.written]

/-- The types and constructors that the class path offers. Each result of the search counts as a
step, and each type again when it is screened. -/
def searchTypes (session : Session) (known : KnownTypes) : List (Event Candidate) :=
  let screened := session.foundTypes.flatMap fun fact => (session.screenFact known fact).step
  (session.index.findTypes session.typeQuery).map (fun _ => .tick)
    ++ session.foundConstructors.map (fun _ => .tick)
    ++ Event.notes screened
    ++ (Placed.settle known (Event.items screened)).flatMap session.placedCandidates

/-- A package, if it passes. -/
def screenPackage (session : Session) (depth : Nat) (package : QualifiedName) :
    Screened Candidate := do
  match package.segments[depth]? with
  | none => throw none
  | some segment =>
    let nameMatch ← session.matchName segment
    return { kind := .package, symbol := .package package, name := segment, nameMatch
             origin := .search }

/-- The packages that the class path offers. -/
def searchPackages (session : Session) : List (Event Candidate) :=
  let parent := session.request.site.qualifier?.getD .empty
  let query : Index.PackageQuery :=
    { pattern := session.request.token, parent, options := session.options.matching }
  (session.index.findPackages query).flatMap fun package =>
    (session.screenPackage parent.length package).step

end Session

end CodeAssist.Completion
