import CodeAssist.Completion.Candidate
import CodeAssist.Completion.Session
/-!
# Allocations

Behind `new` a type stands for its constructors. An interface or an abstract class is made with a
class body, an enumeration is only named, and an annotation cannot be made at all. A type that has
constructors of which none passes is still named.
-/

namespace CodeAssist.Completion

/-- What is proposed for a type behind `new`. -/
inductive AllocationPlan where
  | nothing
  | typeOnly
  | constructors (style : AllocationStyle)
deriving DecidableEq, Repr, Inhabited

/-- The plan for a type of a kind. -/
def AllocationPlan.ofKind (kind : ClassKind) (isAbstract : Bool) : AllocationPlan :=
  match kind with
  | .annotationType => .nothing
  | .enumeration => .typeOnly
  | .interface => .constructors .anonymous
  | .class | .record => .constructors (if isAbstract then .anonymous else .direct)

/-- A constructor in the place of its type. -/
def Candidate.constructedAs (type : Candidate) (symbol : Symbol) (style : AllocationStyle) :
    Candidate :=
  { type with kind := .constructor, symbol, allocation := some style }

/-- Events with a candidate to fall back on if they found nothing. -/
def withFallback (fallback : Candidate) (events : List (Event Candidate)) :
    List (Event Candidate) :=
  if (Event.items events).isEmpty then events ++ [.found fallback] else events

namespace Session

/-- A constructor of a stored class, if it passes. Protected constructors can be called by a class
body. -/
def screenConstructor (session : Session) (type : Candidate) (id : ClassId) (classAccess : Access)
    (style : AllocationStyle) (constructor : Constructor) (index : Nat) : Screened Candidate := do
  let isVisible := session.store.isMemberVisible id constructor.modifiers session.view
    || (style == .anonymous && constructor.modifiers.isProtected)
  Screened.requireOr .invisible (!session.options.checkVisibility || isVisible)
  let access := constructor.access.strictest classAccess
  session.admitAccess access constructor.modifiers
  return { type.constructedAs (.constructor ⟨id, index⟩) style with
           modifiers := constructor.modifiers, access }

/-- What is proposed for a stored class behind `new`. -/
def storedAllocations (session : Session) (type : Candidate) (id : ClassId) :
    List (Event Candidate) :=
  match session.store.class? id with
  | none => [.found type]
  | some definition =>
    match AllocationPlan.ofKind definition.kind definition.isAbstract with
    | .nothing => []
    | .typeOnly => [.found type]
    | .constructors style =>
      if definition.kind = .interface || definition.constructors.isEmpty then
        [.found (type.constructedAs (.type id) style)]
      else
        withFallback type (definition.constructors.zipIdx.flatMap fun (constructor, index) =>
          (session.screenConstructor type id definition.access style constructor index).events)

/-- What is proposed behind `new` for the candidates of the walk. -/
def expandAllocations (session : Session) (candidates : List Candidate) :
    List (Event Candidate) :=
  candidates.flatMap fun candidate =>
    .tick :: match candidate.symbol with
      | .type id => session.storedAllocations candidate id
      | _ => [.found candidate]

/-- A constructor of the index, if it passes. -/
def screenIndexedConstructor (session : Session) (type : Candidate) (fact : TypeFact)
    (style : AllocationStyle) (constructor : ConstructorFact) : Screened Candidate := do
  let isVisible := constructor.modifiers.isPublic
    || (fact.package == session.unit.1 && !constructor.modifiers.isPrivate)
    || (style == .anonymous && constructor.modifiers.isProtected)
  Screened.requireOr .invisible (!session.options.checkVisibility || isVisible)
  session.admitAccess constructor.access constructor.modifiers
  return { type.constructedAs (.indexedConstructor constructor) style with
           modifiers := constructor.modifiers
           access := constructor.access.strictest fact.access }

/-- What is proposed for a type of the index behind `new`. -/
def indexedAllocations (session : Session) (type : Candidate) (fact : TypeFact)
    (constructors : List ConstructorFact) : List (Event Candidate) :=
  match AllocationPlan.ofKind fact.kind fact.isAbstract with
  | .nothing => []
  | .typeOnly => [.found type]
  | .constructors style =>
    let made := type.constructedAs (.indexedType fact) style
    if fact.kind = .interface then [.found made]
    else
      let fallback := if constructors.isEmpty && style = .anonymous then made else type
      withFallback fallback (constructors.flatMap fun constructor =>
        (session.screenIndexedConstructor type fact style constructor).events)

end Session

end CodeAssist.Completion
