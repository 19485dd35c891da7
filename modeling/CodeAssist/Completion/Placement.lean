import CodeAssist.Completion.Candidate
import CodeAssist.Completion.KnownTypes
import CodeAssist.Scope.Import
/-!
# How types of the index are written

A type is written with its simple name alone if an import or the package makes it known and no other
type takes the name; otherwise it is written in full and an import is proposed with it. All types
are placed before any of them is written, because an import on demand becomes ambiguous with the
second type of one simple name, which may come at any point.
-/

namespace CodeAssist.Completion

/-- How a type of the index can be reached. -/
inductive Placement where
  /-- Behind the qualifier that is already written. -/
  | belowQualifier
  /-- By a single-type import of the type, or of a type around it. -/
  | imported (qualifier : Option String)
  | samePackage (qualifier : Option String)
  | onDemand
  /-- A static import on demand names its container but cannot reach it. -/
  | unreachable
  /-- Only in full. -/
  | qualified
deriving DecidableEq, Repr, Inhabited

namespace Placement

/-- Placements with a smaller number claim simple names first. -/
def precedence : Placement → Nat
  | .belowQualifier => 0
  | .imported _ => 1
  | .samePackage _ => 2
  | .onDemand => 3
  | .unreachable | .qualified => 4

/-- Whether the type is written with its simple name alone. -/
def isBare : Placement → Bool
  | .imported none | .samePackage none | .onDemand => true
  | _ => false

/-- Whether an import on demand names the container of the type. -/
def namedOnDemand : Placement → Bool
  | .onDemand | .unreachable => true
  | _ => false

/-- The types around a type, from the innermost on out to one that is imported, with dots. -/
def importedQualifier? (imports : Imports) (fact : TypeFact) : Option String :=
  (List.range fact.enclosing.length).findSome? fun depth => do
    let outer ← fact.enclosing[depth]?
    let path ← imports.type? outer
    guard (path = fact.package.append ⟨fact.enclosing.take (depth + 1)⟩)
    return ".".intercalate (fact.enclosing.drop depth)

/-- The placement of a type that neither a single-type import nor the package reaches. -/
def ofOnDemand (imports : Imports) (fact : TypeFact) : Placement :=
  let sources := imports.onDemand.filter fun entry => entry.1 == fact.container
  if sources.any fun entry => entry.2 != .static || fact.isStatic then .onDemand
  else if sources.isEmpty then .qualified
  else .unreachable

/-- How a type is reached from a file. A single-type import of another type with its simple name
takes the name from it. -/
def ofFact (package : QualifiedName) (imports : Imports) (fact : TypeFact) : Placement :=
  match imports.type? fact.simpleName with
  | some path => if path = fact.name then .imported none else .qualified
  | none =>
    match importedQualifier? imports fact with
    | some qualifier => .imported (some qualifier)
    | none =>
      if fact.package = package then
        .samePackage (if fact.isMember then some (".".intercalate fact.enclosing) else none)
      else ofOnDemand imports fact

end Placement

/-- A type of the index that is to be written. -/
structure Placed where
  fact : TypeFact
  candidate : Candidate
  placement : Placement
deriving DecidableEq, Repr

namespace Placed

def name (placed : Placed) : QualifiedName := placed.fact.name

def simpleName (placed : Placed) : String := placed.fact.simpleName

/-- Whether an import on demand gives the simple name of a type to another type as well. -/
def isAmbiguous (all : List Placed) (placed : Placed) : Bool :=
  all.any fun other =>
    other.placement.namedOnDemand && other.simpleName == placed.simpleName
      && other.name != placed.name

/-- Writes in full what an import on demand makes ambiguous. -/
def separate (all : List Placed) : List Placed :=
  all.map fun placed =>
    if placed.placement = .onDemand && isAmbiguous all placed then
      { placed with placement := .qualified }
    else placed

/-- Claims the simple names of those that would be written with them, in the order of precedence. -/
def claimAll (known : KnownTypes) (all : List Placed) : KnownTypes :=
  let bare := all.filter fun placed => placed.placement.isBare
  let ordered := bare.mergeSort fun a b => a.placement.precedence ≤ b.placement.precedence
  ordered.foldl (fun known placed => known.claim placed.simpleName placed.name) known

/-- Writes in full what does not hold its simple name. -/
def yield (known : KnownTypes) (placed : Placed) : Placed :=
  if placed.placement.isBare && !known.holds placed.simpleName placed.name then
    { placed with placement := .qualified }
  else placed

/-- The types as they can be written together. -/
def settle (known : KnownTypes) (all : List Placed) : List Placed :=
  let separated := separate all
  separated.map (yield (claimAll known separated))

/-- The candidate as it is written. A type of the unnamed package cannot be imported. -/
def written (placed : Placed) : Candidate :=
  let candidate := placed.candidate
  match placed.placement with
  | .belowQualifier => { candidate with origin := .search }
  | .imported qualifier => { candidate with origin := .explicitImport, qualifier }
  | .samePackage qualifier => { candidate with origin := .search, qualifier }
  | .onDemand => { candidate with origin := .onDemandImport }
  | .unreachable | .qualified =>
    let qualifier := placed.name.parent?.map QualifiedName.dotted
    { candidate.qualifiedBy qualifier with
      origin := .search
      requiredImport := qualifier.map fun _ => placed.name.dotted }

end Placed

end CodeAssist.Completion
