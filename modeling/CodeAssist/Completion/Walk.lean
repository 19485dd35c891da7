import CodeAssist.Completion.Members
/-!
# The walk

Candidates that are reached from the cursor without a search of the class path. Scopes are walked
from the inside out: variables first, then what the scope's class or file gives. Where a variable
hides another of the same name, only the nearest is found; all other repetitions are left to the
next stage. Once code without an instance has been left, only static members are found.
-/

namespace CodeAssist.Completion

/-- What a walk over scopes looks for. -/
inductive WalkMode where
  /-- Variables, members and types. -/
  | expression
  /-- Types only. -/
  | types
  /-- Constants, for the labels of a switch. -/
  | constants
deriving DecidableEq, Repr, Inhabited

namespace WalkMode

def wantsVariables : WalkMode → Bool
  | .types => false
  | _ => true

def wantsTypes : WalkMode → Bool
  | .constants => false
  | _ => true

end WalkMode

/-- The items of a list whose names have not been seen, of each name the first. -/
def firstOfEach (name : α → String) : List String → List α → List α
  | _, [] => []
  | seen, item :: items =>
    if seen.contains (name item) then firstOfEach name seen items
    else item :: firstOfEach name (name item :: seen) items

/-- The words that can begin an expression. -/
def expressionKeywords : List String := ["false", "new", "null", "true"]

/-- The words for the instance. -/
def instanceKeywords : List String := ["super", "this"]

namespace Session

/-! ## Variables and types -/

/-- A variable, if it passes. -/
def screenLocal (session : Session) (mode : WalkMode) (binding : Local) : Screened Candidate := do
  Screened.require (mode != .constants || binding.isFinal)
  let nameMatch ← session.matchName binding.name
  return { kind := .local, symbol := .local binding.type binding.isFinal, name := binding.name
           nameMatch, type := binding.type, origin := .localScope
           modifiers := if binding.isFinal then .final else .none }

/-- A stored type, if it passes. -/
def screenType (session : Session) (origin : Origin) (id : ClassId) : Screened Candidate := do
  Screened.require !(session.forbids id)
  match session.store.class? id with
  | none => throw none
  | some definition =>
    let nameMatch ← session.matchName definition.simpleName
    Screened.requireOr .invisible
      (!session.options.checkVisibility || session.store.isClassVisible id session.view)
    session.admitAccess definition.access definition.modifiers
    return { kind := .type, symbol := .type id, name := definition.simpleName, nameMatch
             declaring := some id, type := .plain id, modifiers := definition.modifiers
             access := definition.access, origin }

/-- The member types of a class, its own and those it inherits. Private ones are not inherited. -/
def memberTypes (session : Session) (id : ClassId) : List (Event Candidate) :=
  let store := session.store
  let declared (owner : ClassId) : List ClassId :=
    ((store.class? owner).map ClassDef.memberTypes).getD []
  let isPrivate (member : ClassId) : Bool :=
    (store.class? member).any fun definition => definition.modifiers.isPrivate
  (declared id).flatMap (fun member => (session.screenType .declared member).step)
  ++ (store.supertypes id).flatMap fun owner =>
    ((declared owner).filter fun member => !isPrivate member).flatMap fun member =>
      (session.screenType .inherited member).step

/-! ## The file -/

/-- The types of single-type imports, as far as they are stored. -/
def importedTypes (session : Session) (imports : Imports) : List (Event Candidate) :=
  (imports.types.filterMap fun path => session.store.lookup? path.dotted).flatMap fun id =>
    (session.screenType .explicitImport id).step

/-- The members of static imports, single ones first. -/
def staticImports (session : Session) (imports : Imports) (mode : WalkMode) :
    List (Event Candidate) :=
  let search (onlyName : Option String) : MemberSearch :=
    { statics := .construct, onlyName, constantsOnly := mode == .constants }
  let membersOf (owner : QualifiedName) (onlyName : Option String) : List (Event Candidate) :=
    match session.store.lookup? owner.dotted with
    | some id => session.importedMembers (search onlyName) id .staticImport
    | none => []
  imports.members.flatMap (fun (owner, name) => membersOf owner (some name))
  ++ imports.memberOwners.flatMap fun owner => membersOf owner none

/-- Whether a static member is imported. -/
def isImported (imports : Imports) (owner : QualifiedName) (name : String) : Bool :=
  imports.memberOwners.contains owner || imports.members.contains (owner, name)

/-- How a favorite is written that is not imported: with a static import, or behind its type and
with an import of that. -/
def withImport (session : Session) (owner : QualifiedName) (candidate : Candidate) : Candidate :=
  if session.options.suggestStaticImport then
    { candidate with
      requiredImport := some ("static " ++ owner.dotted ++ "." ++ candidate.name) }
  else
    { candidate.qualifiedBy (some owner.simple) with requiredImport := some owner.dotted }

/-- The members that one favorite names, unless an import covers the favorite. -/
def favoriteMembers (session : Session) (imports : Imports) (favorite : Favorite) :
    List (Event Candidate) :=
  let covered :=
    match favorite.member with
    | some name => isImported imports favorite.owner name
    | none => imports.memberOwners.contains favorite.owner
  match session.store.lookup? favorite.owner.dotted, covered with
  | some id, false =>
    (session.importedMembers { statics := .construct, onlyName := favorite.member } id
      .favorite).map (Event.map fun candidate =>
        if isImported imports favorite.owner candidate.name then candidate
        else session.withImport favorite.owner candidate)
  | _, _ => []

/-- What a file gives to the code in it. -/
def unitCandidates (session : Session) (mode : WalkMode) (imports : Imports)
    (types : List ClassId) : List (Event Candidate) :=
  (if mode.wantsTypes then
    types.flatMap (fun id => (session.screenType .declared id).step)
      ++ session.importedTypes imports
  else [])
  ++ (if mode.wantsVariables then session.staticImports imports mode else [])
  ++ (if mode = .expression then
    session.options.parsedFavorites.flatMap (session.favoriteMembers imports)
  else [])

/-! ## Scopes -/

/-- What a class gives to the code in it. -/
def classCandidates (session : Session) (mode : WalkMode) (staticOnly : Bool) (id : ClassId) :
    List (Event Candidate) :=
  (if mode.wantsVariables then
    session.members
      { statics := if staticOnly then .context else .none, constantsOnly := mode == .constants }
      id id .declared
  else [])
  ++ (if mode.wantsTypes then session.memberTypes id else [])

/-- What the kind of a scope gives to the code in it. -/
def kindCandidates (session : Session) (mode : WalkMode) (staticOnly : Bool) :
    ScopeKind → List (Event Candidate)
  | .class id => session.classCandidates mode staticOnly id
  | .unit _ imports types => session.unitCandidates mode imports types
  | _ => []

/-- Walks scopes outward, knowing whether the instance is lost and which variables are hidden. -/
def walkScopes (session : Session) (mode : WalkMode) :
    Bool → List String → List Scope → List (Event Candidate)
  | _, _, [] => []
  | staticOnly, seen, scope :: outer =>
    (if mode.wantsVariables then
      (firstOfEach Local.name seen scope.locals.reverse).flatMap fun binding =>
        (session.screenLocal mode binding).step
    else [])
    ++ session.kindCandidates mode staticOnly scope.kind
    ++ session.walkScopes mode (staticOnly || scope.kind.isStaticBoundary session.store)
        (scope.locals.map Local.name ++ seen) outer

/-- A keyword, if the token begins it. Keywords are typed out, never abbreviated. -/
def keyword? (session : Session) (word : String) : Option Candidate := do
  let nameMatch ← session.match? word
  guard (Matching.MatchKind.leading.rank ≤ nameMatch.kind.rank)
  return { kind := .keyword, symbol := .keyword, name := word, nameMatch }

/-- The keywords of an expression; a token is asked for. -/
def keywords (session : Session) : List (Event Candidate) :=
  let words :=
    if session.request.token.isEmpty then []
    else if !session.inStaticContext && session.view.within.isSome then
      expressionKeywords ++ instanceKeywords
    else expressionKeywords
  (words.filterMap session.keyword?).map .found

/-- Whether labels inside a scope of a kind are unknown outside it. -/
def endsLabels : ScopeKind → Bool
  | .method _ _ _ | .lambda | .class _ | .initializer _ => true
  | _ => false

/-- Walks scopes outward for labels. -/
def labelsFrom (session : Session) : List String → List Scope → List (Event Candidate)
  | _, [] => []
  | seen, scope :: outer =>
    (firstOfEach id seen scope.labels.reverse).flatMap (fun label =>
      Screened.events do
        let nameMatch ← session.matchName label
        return { kind := .label, symbol := .label, name := label, nameMatch : Candidate })
    ++ (if endsLabels scope.kind then [] else session.labelsFrom (scope.labels ++ seen) outer)

/-! ## Behind a dot -/

/-- The members that the language gives to arrays. -/
def arrayMembers (session : Session) (array : TypeRef) : List (Event Candidate) :=
  .tick
    :: Screened.events (do
        let nameMatch ← session.matchName "length"
        return { kind := .field, symbol := .arrayLength, name := "length", nameMatch
                 type := .int, modifiers := .public ||| .final : Candidate })
    ++ Screened.events (do
        let nameMatch ← session.matchName "clone"
        return { kind := .method, symbol := .arrayClone array, name := "clone", nameMatch
                 type := array, modifiers := .public : Candidate })

/-- The members of a guessed class, marked as such. -/
def guessedMembers (session : Session) (written : String) : List (Event Candidate) :=
  match session.guess written with
  | none => []
  | some id =>
    (session.members {} id id .declared).map
      (Event.map fun candidate => { candidate with missing := true, resolved := false })

/-- The class whose members are reached from a receiver without a cast. -/
def receiverClass? (session : Session) (receiver : TypeRef) : Option ClassId :=
  match receiver.erasure with
  | .declared id _ => some id
  | .named written =>
    session.store.resolveQualified session.graph session.request.scope (.ofDotted written)
  | _ => none

/-- The members of a receiver. The class of a type that cannot be resolved is guessed from its
text. -/
def receiverMembers (session : Session) (receiver : TypeRef) : List (Event Candidate) :=
  match session.receiverClass? receiver, receiver.erasure with
  | some id, _ => session.members {} id id .declared
  | none, .array _ =>
    session.arrayMembers receiver
      ++ session.members { skipNames := ["clone"] } .object .object .inherited
  | none, .named written => session.guessedMembers written
  | none, _ => []

/-- Whether two candidates are the same member by kind, name and signature. -/
def sameMember (session : Session) (candidate other : Candidate) : Bool :=
  other.name == candidate.name && other.kind == candidate.kind
    && session.store.signature? other == session.store.signature? candidate

/-- The members that a variable has through a type test around the cursor, written with a cast;
those reached without the cast are dropped. -/
def narrowedMembers (session : Session) (name : String) (declared : Option ClassId)
    (reached : List Candidate) : List (Event Candidate) :=
  match session.graph.narrowed? session.request.scope name with
  | none => []
  | some narrowed =>
    match narrowed.erasure.classId? with
    | none => []
    | some id =>
      if declared = some id then []
      else
        let cast := "((" ++ session.store.showType narrowed ++ ") " ++ name ++ ")"
        (session.members {} id id .declared).map fun
          | .found candidate =>
            if reached.any (session.sameMember candidate) then .rejected .duplicate
            else .found (candidate.qualifiedBy (some cast))
          | event => event

/-- The members behind the dot of an expression. -/
def memberAccess (session : Session) (receiver : TypeRef) (name : Option String) :
    List (Event Candidate) :=
  let direct := session.receiverMembers receiver
  match name with
  | none => direct
  | some name =>
    direct ++ session.narrowedMembers name (session.receiverClass? receiver) (Event.items direct)

/-- The members behind the dot of a type. -/
def staticAccess (session : Session) (id : ClassId) : List (Event Candidate) :=
  session.members { statics := .construct } id id .declared
    ++ session.memberTypes id
    ++ (session.keyword? "class").toList.map .found

/-- The members behind `super.`. -/
def superAccess (session : Session) : List (Event Candidate) :=
  if session.inStaticContext then []
  else
    match session.view.within with
    | none => []
    | some current =>
      match ((session.store.class? current).bind ClassDef.superclass).bind TypeRef.classId? with
      | none => []
      | some superclass =>
        session.members { excludeAbstract := true } current superclass .inherited

/-- Whether a type is an enumeration, and which. -/
def enumeration? (session : Session) (type : TypeRef) : Option ClassId :=
  type.classId?.filter fun id =>
    (session.store.class? id).any fun definition => definition.kind == .enumeration

/-- The constants of an enumeration, which are written alone in the labels of a switch. -/
def enumConstants (session : Session) (id : ClassId) : List (Event Candidate) :=
  (session.declaredMembers { methods := false, constantsOnly := true }
    { owner := id, route := [id], origin := .declared, isStart := true }).filter fun
      | .found candidate => candidate.modifiers.contains .enumConstant
      | _ => true

/-! ## Sites -/

/-- The candidates reached from the cursor. -/
def walk (session : Session) : List (Event Candidate) :=
  let fromScopes (mode : WalkMode) := session.walkScopes mode false [] session.scopes
  match session.request.site with
  | .name => fromScopes .expression ++ session.keywords
  | .typeReference | .allocation => fromScopes .types
  | .memberAccess receiver name => session.memberAccess receiver name
  | .staticAccess id => session.staticAccess id
  | .superAccess => session.superAccess
  | .caseLabel switchType =>
    match session.enumeration? switchType with
    | some id => session.enumConstants id
    | none => fromScopes .constants
  | .label => session.labelsFrom [] session.scopes
  | .qualifiedName _ | .nothing => []

end Session

end CodeAssist.Completion
