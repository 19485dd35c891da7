import CodeAssist.Class.Subtyping
import CodeAssist.Completion.Candidate
import CodeAssist.Completion.MixedRadix
import CodeAssist.Completion.Request
/-!
# Relevance

The relevance of a candidate is a mixed-radix number with one digit for each *tier*. A candidate
that is ahead in a tier is ahead of all that are ahead only in lower ones.
-/

namespace CodeAssist.Completion

/-- What can speak for a candidate, the least important first. -/
inductive Tier where
  /-- The candidate was not found on a guessed type. -/
  | resolved
  /-- The candidate is no variable that is of no use. -/
  | interesting
  | nameMatch
  | expectedType
  /-- A constant of an enumeration that is expected. -/
  | enumConstant
  | accessibility
  /-- Qualified or not, as the position prefers. -/
  | qualification
  /-- A type of the kind that is asked for. -/
  | kind
  /-- Declared by the very class behind whose dot the cursor stands. -/
  | nonInherited
  /-- A constant, at the label of a switch. -/
  | constant
  /-- The method that the one around the cursor overrides, behind `super.`. -/
  | override
deriving DecidableEq, Repr, Inhabited

namespace Tier

/-- The tiers, lowest first. -/
def all : List Tier :=
  [.resolved, .interesting, .nameMatch, .expectedType, .enumConstant, .accessibility,
   .qualification, .kind, .nonInherited, .constant, .override]

/-- The largest value of a tier. -/
def maximum : Tier → Nat
  | .nameMatch => 2 * Matching.MatchKind.exact.rank + 1
  | .expectedType => 4
  | .accessibility => 2
  | _ => 1

/-- The largest values, lowest tier first. -/
def maxima : List Nat := all.map maximum

/-- The weights, lowest tier first. -/
def weights : List Nat := MixedRadix.weights maxima

/-- The largest relevance that a candidate can have. -/
def largestRelevance : Nat := MixedRadix.largest maxima

end Tier

/-- The value of a candidate in each tier. -/
abbrev Factors := Tier → Nat

namespace Factors

/-- The values, lowest tier first, none above its largest. -/
def digits (factors : Factors) : List Nat :=
  Tier.all.map fun tier => min (factors tier) tier.maximum

/-- The values as one number. -/
def total (factors : Factors) : Nat := MixedRadix.value Tier.maxima factors.digits

end Factors

/-! ## Types -/

/-- Whether two types have the same erasure. -/
def sameErasure (type other : TypeRef) : Bool := type.erasure == other.erasure

/-- How well a type fits an expected one: 4 if it is the same, 3 if it is compatible, 2 if it is by
boxing, and otherwise 1. -/
def fit (store : Store) (filter : TypeFilter) (type expected : TypeRef) : Nat :=
  let graded (sub sup : TypeRef) : Nat :=
    if store.isSubtype sub sup then 3 else if store.isBoxingAssignable sub sup then 2 else 1
  if sameErasure type expected then 4
  else
    match filter with
    | .subtype => graded type expected
    | .supertype => graded expected type
    | .exact => 1

/-- The type of what a candidate evaluates to or denotes, if that is known. -/
def candidateType? (store : Store) (candidate : Candidate) : Option TypeRef :=
  match candidate.symbol with
  | .type id => some (.plain id)
  | .constructor ref => some (.plain ref.owner)
  | .indexedType _ | .indexedConstructor _ =>
    (store.typeName? candidate).map fun name =>
      match store.lookup? name.dotted with
      | some id => .plain id
      | none => .named name.dotted
  | .package _ | .label | .keyword => none
  | .local _ _ | .field _ | .method _ | .arrayLength | .arrayClone _ =>
    if candidate.type = .unknown then none else some candidate.type

/-- How well a candidate fits what is expected: the best fit; 1 where nothing is expected or known,
and 0 for guessed members and for what has no value. -/
def expectedTypeFactor (store : Store) (request : Request) (candidate : Candidate) : Nat :=
  if candidate.missing then 0
  else
    match request.expected.types, candidateType? store candidate with
    | [], _ => 1
    | _, none => 1
    | _, some .void => 0
    | types, some type => (types.map (fit store request.expected.filter type)).foldl max 0

/-! ## Kinds -/

/-- The kind of the type that a candidate denotes. -/
def typeKind? (store : Store) (candidate : Candidate) : Option ClassKind :=
  match candidate.symbol with
  | .type id => (store.class? id).map ClassDef.kind
  | .constructor ref => (store.class? ref.owner).map ClassDef.kind
  | .indexedType fact => some fact.kind
  | .indexedConstructor fact => some fact.declaring.kind
  | _ => none

/-- The stored class that a candidate denotes. -/
def storedClass? (candidate : Candidate) : Option ClassId :=
  match candidate.symbol with
  | .type id => some id
  | .constructor ref => some ref.owner
  | _ => none

/-- Whether a candidate is an exception: a stored class by its supertypes, any other by its name. -/
def isException (store : Store) (candidate : Candidate) : Bool :=
  match storedClass? candidate with
  | some id => store.isSubclass id .throwable
  | none =>
    let endsIn (ending : String) := (Text.before? ending.toList candidate.name.toList).isSome
    typeKind? store candidate == some .class && (endsIn "Exception" || endsIn "Error")

/-- Whether a candidate is a type of the kind that is asked for. -/
def fitsHint (store : Store) (candidate : Candidate) (hint : KindHint) : Bool :=
  (candidate.kind == .type || candidate.kind == .constructor) &&
    match hint with
    | .class => (typeKind? store candidate).any fun kind => kind == .class || kind == .record
    | .interface => typeKind? store candidate == some .interface
    | .annotationType => typeKind? store candidate == some .annotationType
    | .enumeration => typeKind? store candidate == some .enumeration
    | .exception => isException store candidate

/-! ## Factors -/

/-- Whether a candidate has the signature of the method around the cursor. -/
def overridesEnclosing (store : Store) (graph : ScopeGraph) (request : Request)
    (candidate : Candidate) : Bool :=
  match candidate.symbol with
  | .method ref =>
    match (graph.enclosingMethod? request.scope).bind store.methodAt?, store.methodAt? ref with
    | some current, some method => current.signature == method.signature
    | _, _ => false
  | _ => false

/-- The declaring class and the modifiers that count: those of the method in whose stead the
candidate is scored, if there is one. -/
def scoredMember (store : Store) (candidate : Candidate) : Option ClassId × Modifiers :=
  match candidate.scoredAs.bind fun ref => (store.methodAt? ref).map (ref, ·) with
  | some (ref, method) => (some ref.owner, method.modifiers)
  | none => (candidate.declaring, candidate.modifiers)

/-- The value of a candidate in each tier. -/
def factors (store : Store) (graph : ScopeGraph) (request : Request) (candidate : Candidate) :
    Factors :=
  let (declaring, modifiers) := scoredMember store candidate
  let isVariable := candidate.kind == .local || candidate.kind == .field
  fun
  | .resolved => (candidate.resolved && !candidate.missing).toNat
  | .interesting => (!(isVariable && request.uninteresting.contains candidate.name)).toNat
  | .nameMatch => candidate.nameMatch.rank
  | .expectedType => expectedTypeFactor store request candidate
  | .enumConstant =>
    (candidate.kind == .field && modifiers.contains .enumConstant
      && request.expected.types.any (sameErasure candidate.type)).toNat
  | .accessibility =>
    match candidate.access with
    | .accessible => 2
    | .discouraged => 1
    | .nonAccessible => 0
  | .qualification => (candidate.mustQualify == request.insideQualified).toNat
  | .kind => (request.hint.any (fitsHint store candidate)).toNat
  | .nonInherited =>
    match request.site with
    | .staticAccess id => (candidate.isMember && declaring == some id).toNat
    | _ => 0
  | .constant =>
    match request.site with
    | .caseLabel _ =>
      (isVariable && (candidate.isFinal || modifiers.contains .enumConstant)).toNat
    | _ => 0
  | .override =>
    match request.site with
    | .superAccess => (overridesEnclosing store graph request candidate).toNat
    | _ => 0

/-- The relevance of a candidate. -/
def relevance (store : Store) (graph : ScopeGraph) (request : Request) (candidate : Candidate) :
    Nat :=
  (factors store graph request candidate).total

end CodeAssist.Completion
