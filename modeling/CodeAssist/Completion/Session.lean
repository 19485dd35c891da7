import CodeAssist.Completion.Event
import CodeAssist.Completion.Request
import CodeAssist.Index.Search
import CodeAssist.Scope.Resolve
import CodeAssist.Settings.Options
/-!
# Sessions

A session is a request together with all that it is answered from. Its tests are the ones that every
source of candidates applies: does the name match, may the member be named here, do the access rules
let it through.
-/

namespace CodeAssist.Completion

open Matching (NameMatch)

/-- A request and what it is answered from. -/
structure Session where
  store : Store
  graph : ScopeGraph
  index : Index
  options : Options
  /-- A class for the text of a type that could not be resolved. -/
  guess : String → Option ClassId
  request : Request

namespace Session

/-- Where the cursor stands. -/
def view (session : Session) : Viewpoint := session.graph.viewpoint session.request.scope

/-- The scopes around the cursor, innermost first. -/
def scopes (session : Session) : List Scope :=
  (session.graph.ancestors session.request.scope).map Prod.snd

/-- The package and the imports of the file. -/
def unit (session : Session) : QualifiedName × Imports :=
  (session.graph.unit? session.request.scope).getD (.empty, {})

/-- How the token matches a name. -/
def match? (session : Session) (name : String) : Option NameMatch :=
  Matching.matchName session.options.matching session.request.token name

/-- Requires that the token matches a name. -/
def matchName (session : Session) (name : String) : Screened NameMatch :=
  match session.match? name with
  | some found => .ok found
  | none => .error (some .nameMismatch)

/-- Requires what the access rules ask for, and that nothing deprecated is named. Each test has its
option. -/
def admitAccess (session : Session) (access : Access) (modifiers : Modifiers) : Screened Unit := do
  Screened.requireOr .forbiddenReference
    !(session.options.checkForbidden && access == .nonAccessible)
  Screened.requireOr .discouragedReference
    !(session.options.checkDiscouraged && access == .discouraged)
  Screened.requireOr .deprecated
    !(session.options.checkDeprecation && modifiers.isDeprecated)

/-- Requires that a member of a class may be named, as the language and as the access rules have
it. -/
def admitMember (session : Session) (declaring : ClassId) (modifiers : Modifiers)
    (access : Access) : Screened Unit := do
  Screened.requireOr .invisible
    (!session.options.checkVisibility
      || session.store.isMemberVisible declaring modifiers session.view)
  let classAccess := ((session.store.class? declaring).map ClassDef.access).getD .accessible
  session.admitAccess (access.strictest classAccess) modifiers

/-- Whether a class is one of those that are not proposed. -/
def forbids (session : Session) (id : ClassId) : Bool := session.request.forbidden.contains id

/-- Whether a name is that of a class which is not proposed. -/
def forbidsName (session : Session) (name : QualifiedName) : Bool :=
  session.request.forbidden.any fun id => session.store.name? id == some name

/-- Whether the innermost class around the cursor is entered through code without an instance. -/
def inStaticContext (session : Session) : Bool := go session.scopes
where
  go : List Scope → Bool
    | [] => false
    | scope :: outer =>
      match scope.kind with
      | .class _ => false
      | kind => kind.isStaticBoundary session.store || go outer

end Session

end CodeAssist.Completion
