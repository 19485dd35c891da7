import CodeAssist.Scope.Graph
/-!
# What a type name means

A simple type name is looked up from the inside out: the classes around the scope with their member
types, the types of the file, the single-type imports, the package, and last all imports on demand
together. Only the last step can be ambiguous.
-/

namespace CodeAssist

/-- The meaning of a simple type name. -/
inductive TypeLookup where
  | found (id : ClassId)
  | ambiguous (ids : List ClassId)
  | notFound
deriving DecidableEq, Repr, Inhabited

/-- The class of an unambiguous lookup. -/
def TypeLookup.found? : TypeLookup → Option ClassId
  | .found id => some id
  | _ => none

/-- The meaning of a name by the classes that it could mean. -/
def TypeLookup.ofHits : List ClassId → TypeLookup
  | [] => .notFound
  | [id] => .found id
  | ids => .ambiguous ids

namespace Store

/-- Whether the class at a place has a simple name. -/
def isNamed (store : Store) (name : String) (id : ClassId) : Bool :=
  (store.class? id).any fun definition => definition.simpleName == name

/-- The member type with a name that a class declares, or else the nearest that it inherits. -/
def memberType? (store : Store) (id : ClassId) (name : String) : Option ClassId :=
  (id :: store.supertypes id).findSome? fun owner => do
    (← store.class? owner).memberTypes.find? (store.isNamed name)

/-- The type with a name in a package, or else the member type with that name of a class called like
the package. -/
def containedType? (store : Store) (container : QualifiedName) (name : String) : Option ClassId :=
  store.lookup? (container.child name).dotted
    <|> do store.memberType? (← store.lookup? container.dotted) name

/-- The classes that the imports on demand give a name to, each once. -/
def onDemandHits (store : Store) (imports : Imports) (name : String) : List ClassId :=
  (imports.onDemand.filterMap fun (container, _) => store.containedType? container name).eraseDups

/-- What a type name means to a compilation unit. -/
def resolveInUnit (store : Store) (package : QualifiedName) (imports : Imports)
    (types : List ClassId) (name : String) : TypeLookup :=
  let single :=
    types.find? (store.isNamed name)
      <|> (do store.lookup? (← imports.type? name).dotted)
      <|> store.lookup? (package.child name).dotted
  match single with
  | some id => .found id
  | none => .ofHits (store.onDemandHits imports name)

/-- What a type name means to a single scope; nothing for most scopes. -/
def resolveInScope (store : Store) (name : String) : ScopeKind → Option TypeLookup
  | .class id =>
    if store.isNamed name id then some (.found id)
    else (store.memberType? id name).map .found
  | .unit package imports types => some (store.resolveInUnit package imports types name)
  | _ => none

/-- What a simple type name means in a scope. -/
def resolveType (store : Store) (graph : ScopeGraph) (scope : ScopeId) (name : String) :
    TypeLookup :=
  ((graph.ancestors scope).findSome? fun (_, scope) => store.resolveInScope name scope.kind).getD
    .notFound

/-- What a dotted type name means in a scope: a stored class with that name, or else the meaning of
its first segment followed through member types. -/
def resolveQualified (store : Store) (graph : ScopeGraph) (scope : ScopeId)
    (path : QualifiedName) : Option ClassId :=
  match store.lookup? path.dotted with
  | some id => some id
  | none =>
    match path.segments with
    | [] => none
    | first :: rest => do
      let start ← (store.resolveType graph scope first).found?
      rest.foldlM store.memberType? start

end Store

end CodeAssist
