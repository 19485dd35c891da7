import CodeAssist.Class.Inheritance
import CodeAssist.Completion.Candidate
import CodeAssist.Completion.Session
/-!
# Candidates among members

The search for fields and methods of a class: which classes are visited and by which routes, and
which of their members pass. A member passes if the construct can reach it, its name matches and it
may be named. The test for private members is that they belong to the class the search began at.
-/

namespace CodeAssist.Completion

/-- Which members a construct can reach without an instance. -/
inductive StaticNeed where
  /-- There is an instance. -/
  | none
  /-- The instance was lost on the way out; instance members are counted as rejected. -/
  | context
  /-- The construct never has an instance. -/
  | construct
deriving DecidableEq, Repr, Inhabited

/-- What a search for members looks for. -/
structure MemberSearch where
  statics : StaticNeed := .none
  fields : Bool := true
  methods : Bool := true
  excludeAbstract : Bool := false
  /-- Only constant fields. -/
  constantsOnly : Bool := false
  /-- Only members with this name. -/
  onlyName : Option String := none
  /-- No members with these names. -/
  skipNames : List String := []
deriving DecidableEq, Repr, Inhabited

namespace MemberSearch

def acceptsName (search : MemberSearch) (name : String) : Bool :=
  search.onlyName.all (· == name) && !search.skipNames.contains name

/-- Requires that a member with some modifiers can be reached. -/
def admitStatic (search : MemberSearch) (modifiers : Modifiers) : Screened Unit :=
  match search.statics with
  | .none => .ok ()
  | .context => Screened.requireOr .staticContext modifiers.isStatic
  | .construct => Screened.require modifiers.isStatic

end MemberSearch

/-- A class that is searched for members. -/
structure Visit where
  owner : ClassId
  /-- The classes from the root of the search to this one. -/
  route : List ClassId
  origin : Origin
  /-- Whether the search began here. -/
  isStart : Bool
deriving DecidableEq, Repr, Inhabited

namespace Session

/-- The classes visited for the members of a class. The search counts as begun at a root, which is
the class itself or one that inherits from it; what the class itself declares has the given
origin. -/
def visits (session : Session) (root start : ClassId) (origin : Origin) : List Visit :=
  let store := session.store
  (store.chainRoutes root start).zipIdx.map (fun ((owner, route), depth) =>
    { owner, route, isStart := depth == 0, origin := if depth = 0 then origin else .inherited })
  ++ (store.interfaceRoutes root start).map (fun (owner, route) =>
    { owner, route, isStart := owner == start
      origin := if owner = start then origin else .interface })
  ++ (store.objectRoute root start).map (fun (owner, route) =>
    { owner, route, isStart := false, origin := .inherited })

/-- A field of a visited class, if it passes. -/
def screenField (session : Session) (search : MemberSearch) (visit : Visit)
    (classAccess : Access) (field : Field) (index : Nat) : Screened Candidate := do
  Screened.require (search.acceptsName field.name)
  Screened.require (visit.isStart || !field.modifiers.isPrivate)
  search.admitStatic field.modifiers
  Screened.require (!search.constantsOnly || field.isConstant || field.isEnumConstant)
  let nameMatch ← session.matchName field.name
  session.admitMember visit.owner field.modifiers field.access
  return { kind := .field, symbol := .field ⟨visit.owner, index⟩, name := field.name, nameMatch
           declaring := some visit.owner, type := field.type, modifiers := field.modifiers
           access := field.access.strictest classAccess, origin := visit.origin
           chain := visit.route }

/-- A method of a visited class, if it passes. Static methods of an interface are only reached
through the interface itself. -/
def screenMethod (session : Session) (search : MemberSearch) (visit : Visit)
    (definition : ClassDef) (method : Method) (index : Nat) : Screened Candidate := do
  Screened.require (search.acceptsName method.name)
  Screened.require (visit.isStart || !method.modifiers.isPrivate)
  Screened.require (visit.isStart || !(definition.isInterface && method.isStatic))
  Screened.require !(search.excludeAbstract && method.isAbstract)
  Screened.require !search.constantsOnly
  search.admitStatic method.modifiers
  let nameMatch ← session.matchName method.name
  session.admitMember visit.owner method.modifiers method.access
  return { kind := .method, symbol := .method ⟨visit.owner, index⟩, name := method.name, nameMatch
           declaring := some visit.owner, type := method.result, modifiers := method.modifiers
           access := method.access.strictest definition.access, origin := visit.origin
           chain := visit.route }

/-- The members of a visited class, fields first. -/
def declaredMembers (session : Session) (search : MemberSearch) (visit : Visit) :
    List (Event Candidate) :=
  match session.store.class? visit.owner with
  | none => []
  | some definition =>
    (if search.fields then
      definition.fields.zipIdx.flatMap fun (field, index) =>
        (session.screenField search visit definition.access field index).step
    else [])
    ++ (if search.methods then
      definition.methods.zipIdx.flatMap fun (method, index) =>
        (session.screenMethod search visit definition method index).step
    else [])

/-- The members of a class and of all it inherits from. -/
def members (session : Session) (search : MemberSearch) (root start : ClassId) (origin : Origin) :
    List (Event Candidate) :=
  (session.visits root start origin).flatMap (session.declaredMembers search)

/-- The members of a class, with one origin for all of them. -/
def importedMembers (session : Session) (search : MemberSearch) (id : ClassId) (origin : Origin) :
    List (Event Candidate) :=
  (session.members search id id origin).map
    (Event.map fun candidate => { candidate with origin })

end Session

end CodeAssist.Completion
