import CodeAssist.Class.Visibility
import CodeAssist.Scope.Import
/-!
# Lexical scopes

The scopes of source text, each with a link to the scope around it. A link may lead nowhere or
around in a circle; the walk outward takes at most as many steps as there are scopes, which is
enough to see every scope of a chain that ends.
-/

namespace CodeAssist

/-- The place of a scope in its graph. -/
abbrev ScopeId := Nat

/-- A field, method or constructor of a class, by its place there. -/
structure MemberRef where
  owner : ClassId
  index : Nat
deriving DecidableEq, Repr, Inhabited

/-- How a variable came to be. -/
inductive LocalKind where
  | variable
  | parameter
  | pattern
deriving DecidableEq, Repr, Inhabited

/-- A variable of a scope. -/
structure Local where
  name : String
  type : TypeRef
  kind : LocalKind := .variable
  isFinal : Bool := false
deriving DecidableEq, Repr, Inhabited

/-- What a scope is the scope of. -/
inductive ScopeKind where
  /-- A source file: its package, its imports and the types declared in it. -/
  | unit (package : QualifiedName) (imports : Imports) (types : List ClassId)
  | «class» (id : ClassId)
  | method (method : Option MemberRef) (isStatic isConstructor : Bool)
  | initializer (isStatic : Bool)
  | block
  | lambda
  /-- Code behind a type test, where variables have narrower types. -/
  | guard (narrowed : List (String × TypeRef))
deriving DecidableEq, Repr, Inhabited

/-- A scope. -/
structure Scope where
  parent : Option ScopeId
  kind : ScopeKind
  locals : List Local := []
  labels : List String := []
deriving DecidableEq, Repr, Inhabited

namespace ScopeKind

/-- Whether code inside has no instance of the classes further out: static methods and initializers,
and nested classes that are static or not plain classes. -/
def isStaticBoundary (store : Store) : ScopeKind → Bool
  | .method _ isStatic _ => isStatic
  | .initializer isStatic => isStatic
  | .class id =>
    (store.class? id).any fun definition =>
      definition.enclosing.isSome
        && (definition.modifiers.isStatic || definition.kind != .class)
  | _ => false

end ScopeKind

/-- The scopes in the order in which they were added. -/
structure ScopeGraph where
  scopes : Array Scope := #[]
deriving DecidableEq, Repr, Inhabited

namespace ScopeGraph

def size (graph : ScopeGraph) : Nat := graph.scopes.size

def isEmpty (graph : ScopeGraph) : Bool := graph.scopes.isEmpty

def scope? (graph : ScopeGraph) (id : ScopeId) : Option Scope := graph.scopes[id]?

/-- Adds a scope and says where. -/
def add (graph : ScopeGraph) (parent : Option ScopeId) (kind : ScopeKind) : ScopeGraph × ScopeId :=
  (⟨graph.scopes.push { parent, kind }⟩, graph.size)

/-- A scope and those around it, as many as the first argument allows. -/
def outward (graph : ScopeGraph) : Nat → ScopeId → List (ScopeId × Scope)
  | 0, _ => []
  | steps + 1, id =>
    match graph.scope? id with
    | none => []
    | some scope =>
      (id, scope) :: match scope.parent with
        | some parent => graph.outward steps parent
        | none => []

/-- A scope and those around it, innermost first. -/
def ancestors (graph : ScopeGraph) (id : ScopeId) : List (ScopeId × Scope) :=
  graph.outward graph.size id

/-- The place of the compilation unit around a scope. -/
def unitId? (graph : ScopeGraph) (id : ScopeId) : Option ScopeId :=
  (graph.ancestors id).findSome? fun (outer, scope) =>
    match scope.kind with
    | .unit _ _ _ => some outer
    | _ => none

/-- The package and the imports of the compilation unit around a scope. -/
def unit? (graph : ScopeGraph) (id : ScopeId) : Option (QualifiedName × Imports) :=
  (graph.ancestors id).findSome? fun (_, scope) =>
    match scope.kind with
    | .unit package imports _ => some (package, imports)
    | _ => none

/-- The types declared in the compilation unit around a scope. -/
def declaredTypes (graph : ScopeGraph) (id : ScopeId) : List ClassId :=
  ((graph.ancestors id).findSome? fun (_, scope) =>
    match scope.kind with
    | .unit _ _ types => some types
    | _ => none).getD []

/-- The innermost class around a scope. -/
def enclosingClass? (graph : ScopeGraph) (id : ScopeId) : Option ClassId :=
  (graph.ancestors id).findSome? fun (_, scope) =>
    match scope.kind with
    | .class id => some id
    | _ => none

/-- The innermost known method around a scope. -/
def enclosingMethod? (graph : ScopeGraph) (id : ScopeId) : Option MemberRef :=
  (graph.ancestors id).findSome? fun (_, scope) =>
    match scope.kind with
    | .method method _ _ => method
    | _ => none

/-- The nearest variable with a name; in one scope the latest counts. -/
def local? (graph : ScopeGraph) (id : ScopeId) (name : String) : Option Local :=
  (graph.ancestors id).findSome? fun (_, scope) =>
    scope.locals.reverse.find? fun binding => binding.name == name

/-- The type to which the innermost type test that mentions a variable narrows it. -/
def narrowed? (graph : ScopeGraph) (id : ScopeId) (name : String) : Option TypeRef :=
  (graph.ancestors id).findSome? fun (_, scope) =>
    match scope.kind with
    | .guard narrowed => (narrowed.find? fun entry => entry.1 == name).map Prod.snd
    | _ => none

/-- Where references in a scope stand. -/
def viewpoint (graph : ScopeGraph) (id : ScopeId) : Viewpoint :=
  { package := ((graph.unit? id).map Prod.fst).getD .empty
    within := graph.enclosingClass? id }

/-- Changes the scope at a place. -/
def modify (graph : ScopeGraph) (id : ScopeId) (change : Scope → Scope) : ScopeGraph :=
  ⟨graph.scopes.modify id change⟩

/-- Records a type as declared in the compilation unit around a scope. -/
def declareType (graph : ScopeGraph) (id : ScopeId) (type : ClassId) : ScopeGraph :=
  match graph.unitId? id with
  | none => graph
  | some unit =>
    graph.modify unit fun scope =>
      match scope.kind with
      | .unit package imports types =>
        if types.contains type then scope
        else { scope with kind := .unit package imports (types ++ [type]) }
      | _ => scope

/-- Adds a variable to a scope. -/
def addLocal (graph : ScopeGraph) (id : ScopeId) (binding : Local) : ScopeGraph :=
  graph.modify id fun scope => { scope with locals := scope.locals ++ [binding] }

/-- Adds a label to a scope. -/
def addLabel (graph : ScopeGraph) (id : ScopeId) (label : String) : ScopeGraph :=
  graph.modify id fun scope => { scope with labels := scope.labels ++ [label] }

end ScopeGraph

end CodeAssist
