import CodeAssist.Class.Signature
import CodeAssist.Index.Fact
import CodeAssist.Matching.Match
/-!
# Searching the index

An index is a snapshot whose packages have been closed under taking parents, sorted and freed of
repetitions. A search for types or constructors goes through the *bucket* of the pattern's first
byte where that is thought to hold every match, and through everything otherwise; the facts it
reports are those whose name the pattern matches, in the order of the index.
-/

namespace CodeAssist

open Matching (MatchOptions)

/-! ## Packages -/

namespace QualifiedName

/-- A name and those it lies below, the unnamed package left out. -/
def lineage (name : QualifiedName) : List QualifiedName :=
  (List.range name.length).map fun count => ⟨name.segments.take (count + 1)⟩

/-- Puts a name into an increasing list, unless it is there. -/
def insertInto (name : QualifiedName) : List QualifiedName → List QualifiedName
  | [] => [name]
  | other :: names =>
    match name.compare other with
    | .lt => name :: other :: names
    | .eq => other :: names
    | .gt => other :: insertInto name names

/-- The names of a list in increasing order, each once. -/
def sortUnique (names : List QualifiedName) : List QualifiedName :=
  names.foldl (fun sorted name => insertInto name sorted) []

end QualifiedName

/-- A searchable index. -/
structure Index where
  types : List TypeFact := []
  constructors : List ConstructorFact := []
  /-- Increasing, and with every package the packages it lies in. -/
  packages : List QualifiedName := []
deriving DecidableEq, Repr, Inhabited

namespace Index

/-- The packages that a snapshot mentions. -/
def mentioned (snapshot : Snapshot) : List QualifiedName :=
  snapshot.types.map TypeFact.package
    ++ snapshot.constructors.map (fun fact => fact.declaring.package)
    ++ snapshot.packages

/-- Builds the index of a snapshot. -/
def build (snapshot : Snapshot) : Index :=
  { types := snapshot.types
    constructors := snapshot.constructors
    packages := QualifiedName.sortUnique ((mentioned snapshot).flatMap QualifiedName.lineage) }

/-- The contents of an index. -/
def snapshot (index : Index) : Snapshot :=
  { types := index.types, constructors := index.constructors, packages := index.packages }

/-! ## Facts of a class store -/

/-- The largest number of enclosing types that a fact of a stored class lists. -/
def enclosingLimit : Nat := 65

/-- The simple names of a class and those around it, innermost first, as far as they are stored. -/
def namesOutward (store : Store) : Nat → Option ClassId → List String
  | 0, _ => []
  | _, none => []
  | steps + 1, some id =>
    match store.class? id with
    | none => []
    | some definition => definition.simpleName :: namesOutward store steps definition.enclosing

/-- The fact that a class is stored. -/
def typeFact (store : Store) (definition : ClassDef) : TypeFact :=
  { package := definition.package
    enclosing := (namesOutward store enclosingLimit definition.enclosing).reverse
    simpleName := definition.simpleName
    modifiers := definition.modifiers
    kind := definition.kind
    access := definition.access }

/-- The facts about the constructors of a stored class. -/
def constructorFacts (store : Store) (definition : ClassDef) : List ConstructorFact :=
  definition.constructors.map fun constructor =>
    { declaring := typeFact store definition
      parameters := constructor.parameters.map store.showType
      parameterNames := constructor.parameterNames
      modifiers := constructor.modifiers
      access := constructor.access }

/-- The index of a class store. -/
def ofStore (store : Store) : Index :=
  build
    { types := store.classes.toList.map (typeFact store)
      constructors := store.classes.toList.flatMap (constructorFacts store) }

/-! ## Types and constructors -/

/-- A search for types or constructors. -/
structure TypeQuery where
  pattern : String
  /-- The package or type that the type has to be a direct member of. -/
  container : Option QualifiedName := none
  options : MatchOptions := {}
deriving DecidableEq, Repr, Inhabited

/-- Which facts a search looks at. -/
inductive Strategy where
  /-- Those in the bucket of a byte. -/
  | bucket (key : UInt8)
  | everything
deriving DecidableEq, Repr

/-- The bytes that a bucket key looks past at the start of a name. -/
def isLeadingMark (b : UInt8) : Bool := b == '_'.toUInt8 || b == '$'.toUInt8

/-- A bucket is enough if neither substrings nor words inside the name count, and the pattern begins
with neither `_` nor `$`. -/
def TypeQuery.strategy (query : TypeQuery) : Strategy :=
  match Text.bytesOf query.pattern with
  | [] => .everything
  | key :: _ =>
    if isLeadingMark key || query.options.substring || query.options.subword then .everything
    else .bucket (Matching.fold key)

/-- The keys of the buckets that hold a name: its first byte, and the first byte behind leading
marks, both in small letters. -/
def bucketKeys (name : String) : List UInt8 :=
  let bytes := Text.bytesOf name
  (bytes.head?.toList ++ (bytes.find? fun b => !isLeadingMark b).toList).map Matching.fold

/-- Whether a strategy looks at a name. -/
def Strategy.covers (strategy : Strategy) (name : String) : Bool :=
  match strategy with
  | .everything => true
  | .bucket key => (bucketKeys name).contains key

/-- Whether a type answers a query. -/
def TypeQuery.accepts (query : TypeQuery) (fact : TypeFact) : Bool :=
  query.container.all (fact.container == ·)
    && (Matching.matchName query.options query.pattern fact.simpleName).isSome

/-- The types that answer a query, in the order of the index. -/
def findTypes (index : Index) (query : TypeQuery) : List TypeFact :=
  (index.types.filter fun fact => query.strategy.covers fact.simpleName).filter query.accepts

/-- The constructors of types that answer a query, in the order of the index. -/
def findConstructors (index : Index) (query : TypeQuery) : List ConstructorFact :=
  (index.constructors.filter fun fact => query.strategy.covers fact.declaring.simpleName).filter
    fun fact => query.accepts fact.declaring

/-! ## Package queries -/

/-- A search for packages directly below another. -/
structure PackageQuery where
  pattern : String
  parent : QualifiedName := .empty
  options : MatchOptions := {}
deriving DecidableEq, Repr, Inhabited

/-- The package directly below the parent that a package is or lies in, if its last segment
matches. -/
def PackageQuery.child? (query : PackageQuery) (package : QualifiedName) : Option QualifiedName :=
  if package.within query.parent then
    match package.segments.drop query.parent.length with
    | [] => none
    | next :: _ =>
      if (Matching.matchName query.options query.pattern next).isSome then
        some (query.parent.child next)
      else none
  else none

/-- A list without those items that repeat the one before them. -/
def dropRepeats : List QualifiedName → List QualifiedName
  | [] => []
  | [name] => [name]
  | name :: next :: names =>
    if name = next then dropRepeats (next :: names) else name :: dropRepeats (next :: names)

/-- The packages that answer a query, in increasing order. -/
def findPackages (index : Index) (query : PackageQuery) : List QualifiedName :=
  dropRepeats (index.packages.filterMap query.child?)

end Index

end CodeAssist
