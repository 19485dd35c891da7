import CodeAssist.Scope.Graph
import CodeAssist.Text.CursorToken
/-!
# Completion requests

A request says where the cursor stands: the token before it, the scope around it and the construct
it is in. The caller may add what the position expects.
-/

namespace CodeAssist.Completion

/-- How the type of a candidate should relate to an expected type. -/
inductive TypeFilter where
  /-- A subtype is wanted, as in an assignment. -/
  | subtype
  /-- A supertype is wanted, as for a cast. -/
  | supertype
  | exact
deriving DecidableEq, Repr, Inhabited

/-- The types that a position expects. -/
structure ExpectedTypes where
  types : List TypeRef := []
  filter : TypeFilter := .subtype
deriving DecidableEq, Repr, Inhabited

/-- The kind of type that a position asks for. -/
inductive KindHint where
  | «class»
  | interface
  | annotationType
  | exception
  | enumeration
deriving DecidableEq, Repr, Inhabited

/-- The construct that the cursor is in. -/
inductive Site where
  /-- A bare name in an expression or a statement. -/
  | name
  /-- Behind the dot of an expression, with the name of the variable if it is one. -/
  | memberAccess (receiver : TypeRef) (receiverName : Option String)
  /-- Behind the dot of a type. -/
  | staticAccess (id : ClassId)
  /-- Behind `super.`. -/
  | superAccess
  /-- Behind `case` in a switch over a type. -/
  | caseLabel (switchType : TypeRef)
  /-- Behind `new`. -/
  | allocation
  /-- Where only a type can stand. -/
  | typeReference
  /-- Behind the dot of a package or type name. -/
  | qualifiedName (qualifier : QualifiedName)
  /-- Behind `break` or `continue`. -/
  | label
  /-- Nothing that could be completed. -/
  | nothing
deriving DecidableEq, Repr, Inhabited

namespace Site

/-- The word for a site. -/
def tag : Site → String
  | .name => "name"
  | .memberAccess _ _ => "member_access"
  | .staticAccess _ => "static_member_access"
  | .superAccess => "super_access"
  | .caseLabel _ => "case_label"
  | .allocation => "allocation"
  | .typeReference => "type_reference"
  | .qualifiedName _ => "qualified_name"
  | .label => "label"
  | .nothing => "none"

/-- The name before the dot, at a qualified name. -/
def qualifier? : Site → Option QualifiedName
  | .qualifiedName qualifier => some qualifier
  | _ => none

/-- Whether types of the class path can stand at the site. -/
def wantsTypes : Site → Bool
  | .name | .typeReference | .allocation | .qualifiedName _ => true
  | _ => false

/-- Whether packages can stand at the site. -/
def wantsPackages : Site → Bool
  | .name | .typeReference | .qualifiedName _ => true
  | _ => false

end Site

/-- A request to complete the code at a cursor. -/
structure Request where
  /-- The identifier fragment before the cursor. -/
  token : String
  /-- What an accepted proposal replaces. -/
  range : TextRange
  /-- The innermost scope around the cursor. -/
  scope : ScopeId
  site : Site
  expected : ExpectedTypes := {}
  /-- Types that are being declared at the cursor; they are not proposed. -/
  forbidden : List ClassId := []
  /-- Variables that are of no use, such as the one being initialized. -/
  uninteresting : List String := []
  /-- Whether the position prefers what is qualified. -/
  insideQualified : Bool := false
  hint : Option KindHint := none
deriving DecidableEq, Repr

namespace Request

/-- A request for a token on its own. -/
def ofToken (token : String) (scope : ScopeId) (site : Site) : Request :=
  { token, range := { start := 0, stop := Text.byteLength token.toList }, scope, site }

/-- A request at a byte offset of a text. -/
def atOffset (text : String) (offset : Nat) (scope : ScopeId) (site : Site) : Request :=
  let cursor := CursorToken.before text.toList offset
  { token := String.ofList cursor.token, range := cursor.range, scope, site }

end Request

end CodeAssist.Completion
