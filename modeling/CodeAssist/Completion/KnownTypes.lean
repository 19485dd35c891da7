import CodeAssist.QualifiedName
/-!
# Types known to a request

The types proposed so far, by their full names, and for each simple name the type that may be
written with it alone. The first type to claim a simple name keeps it.
-/

namespace CodeAssist.Completion

/-- Whether the constructors of a known type have been proposed. -/
inductive ConstructorState where
  | unknown
  | known
deriving DecidableEq, Repr, Inhabited

/-- The types that a request has met. -/
structure KnownTypes where
  types : List (QualifiedName × ConstructorState) := []
  claims : List (String × QualifiedName) := []
deriving DecidableEq, Repr, Inhabited

namespace KnownTypes

/-- The state of a type, if it is known. -/
def state? (known : KnownTypes) (name : QualifiedName) : Option ConstructorState :=
  known.types.lookup name

def contains (known : KnownTypes) (name : QualifiedName) : Bool := (known.state? name).isSome

/-- Makes a type known; a known type stays as it is. -/
def insert (known : KnownTypes) (name : QualifiedName) : KnownTypes :=
  if known.contains name then known
  else { known with types := known.types ++ [(name, .unknown)] }

/-- Records that the constructors of a type have been proposed, and makes it known. -/
def mark (known : KnownTypes) (name : QualifiedName) : KnownTypes :=
  if known.contains name then
    { known with
      types := known.types.map fun entry => if entry.1 = name then (name, .known) else entry }
  else { known with types := known.types ++ [(name, .known)] }

/-- The type that holds a simple name. -/
def claimant? (known : KnownTypes) (simple : String) : Option QualifiedName :=
  known.claims.lookup simple

/-- Gives a simple name to a type, unless a type holds it. -/
def claim (known : KnownTypes) (simple : String) (owner : QualifiedName) : KnownTypes :=
  match known.claimant? simple with
  | some _ => known
  | none => { known with claims := known.claims ++ [(simple, owner)] }

/-- Whether a claim succeeds: no other type holds the simple name. -/
def grants (known : KnownTypes) (simple : String) (owner : QualifiedName) : Bool :=
  (known.claimant? simple).all fun first => first == owner

/-- Whether a type holds a simple name. -/
def holds (known : KnownTypes) (simple : String) (owner : QualifiedName) : Bool :=
  known.claimant? simple == some owner

/-- The number of known types. -/
def size (known : KnownTypes) : Nat := known.types.length

def isEmpty (known : KnownTypes) : Bool := known.types.isEmpty

/-- What can be done with the known types or asked of them. -/
inductive Operation where
  | insert (name : QualifiedName)
  | mark (name : QualifiedName)
  | claim (simple : String) (owner : QualifiedName)
  | state (name : QualifiedName)
  | contains (name : QualifiedName)
  | claimant (simple : String)
  | size
  | isEmpty
deriving DecidableEq, Repr

/-- What an operation answers. -/
inductive Reply where
  | done
  | yesNo (answer : Bool)
  | state (state : Option ConstructorState)
  | owner (owner : Option QualifiedName)
  | count (number : Nat)
deriving DecidableEq, Repr

/-- What an operation leaves and what it answers. Inserting tells whether the type is new. -/
def perform (known : KnownTypes) : Operation → KnownTypes × Reply
  | .insert name => (known.insert name, .yesNo !known.contains name)
  | .mark name => (known.mark name, .done)
  | .claim simple owner => (known.claim simple owner, .yesNo (known.grants simple owner))
  | .state name => (known, .state (known.state? name))
  | .contains name => (known, .yesNo (known.contains name))
  | .claimant simple => (known, .owner (known.claimant? simple))
  | .size => (known, .count known.size)
  | .isEmpty => (known, .yesNo known.isEmpty)

/-! ## The effect of each operation -/

/-- A type made known has its state unless it was known before; others keep theirs. -/
theorem state?_insert (known : KnownTypes) (name other : QualifiedName) :
    (known.insert name).state? other =
      (known.state? other <|> if other = name then some .unknown else none) := by
  unfold insert contains
  split
  next found =>
    by_cases same : other = name
    · subst same
      cases state : known.state? other <;> simp_all
    · cases known.state? other <;> simp [same]
  next =>
    simp only [state?, List.lookup_append]
    by_cases same : other = name
    · simp [same]
    · simp [List.lookup_cons, beq_eq_false_iff_ne.2 same, same]

/-- Replacing the entry of one name changes the answer for that name alone. -/
theorem lookup_replaced (types : List (QualifiedName × ConstructorState))
    (name other : QualifiedName) :
    (types.map fun entry => if entry.1 = name then (name, .known) else entry).lookup other =
      if other = name then (types.lookup name).map fun _ => .known else types.lookup other := by
  induction types with
  | nil => simp
  | cons entry types ih =>
    obtain ⟨first, state⟩ := entry
    rw [List.map_cons]
    by_cases here : first = name
    · subst here
      by_cases same : other = first
      · simp [same]
      · simp [List.lookup_cons, beq_eq_false_iff_ne.2 same, same, ih]
    · by_cases same : other = name
      · subst same
        simp [List.lookup_cons, beq_eq_false_iff_ne.2 (Ne.symm here), here, ih]
      · simp [List.lookup_cons, here, same, ih]

/-- The constructors of a marked type have been proposed from then on; others keep their state. -/
theorem state?_mark (known : KnownTypes) (name other : QualifiedName) :
    (known.mark name).state? other =
      if other = name then some .known else known.state? other := by
  unfold mark contains
  split
  next found =>
    rw [state?, lookup_replaced]
    split
    next =>
      obtain ⟨state, held⟩ := Option.isSome_iff_exists.mp found
      exact congrArg _ held
    next => rfl
  next fresh =>
    have unknown : known.types.lookup name = none := Option.not_isSome_iff_eq_none.mp fresh
    simp only [state?, List.lookup_append]
    by_cases same : other = name
    · simp [same, unknown]
    · simp [List.lookup_cons, beq_eq_false_iff_ne.2 same, same]

/-- The first claim on a simple name decides, and claims on other names are untouched. -/
theorem claimant?_claim (known : KnownTypes) (simple other : String) (owner : QualifiedName) :
    (known.claim simple owner).claimant? other =
      (known.claimant? other <|> if other = simple then some owner else none) := by
  unfold claim
  cases held : known.claimant? simple with
  | some first =>
    by_cases same : other = simple
    · subst same
      simp [held]
    · cases known.claimant? other <;> simp [same]
  | none =>
    simp only [claimant?, List.lookup_append]
    by_cases same : other = simple
    · simp [same]
    · simp [List.lookup_cons, beq_eq_false_iff_ne.2 same, same]

/-- A simple name stays with the type that holds it. -/
theorem claimant?_claim_of_some {known : KnownTypes} {simple : String} {owner : QualifiedName}
    (held : known.claimant? simple = some owner) (other : String) (name : QualifiedName) :
    (known.claim other name).claimant? simple = some owner := by
  rw [claimant?_claim, held]
  rfl

/-- A claim succeeds if its type holds the name then. -/
theorem holds_claim (known : KnownTypes) (simple : String) (owner : QualifiedName) :
    (known.claim simple owner).holds simple owner = known.grants simple owner := by
  rw [holds, grants, claimant?_claim]
  cases known.claimant? simple <;> simp

/-- Inserting a type gives away no simple name. -/
@[simp] theorem claimant?_insert (known : KnownTypes) (name : QualifiedName) (simple : String) :
    (known.insert name).claimant? simple = known.claimant? simple := by
  unfold insert
  split <;> rfl

/-- Marking a type gives away no simple name. -/
@[simp] theorem claimant?_mark (known : KnownTypes) (name : QualifiedName) (simple : String) :
    (known.mark name).claimant? simple = known.claimant? simple := by
  unfold mark
  split <;> rfl

/-- Claims make no type known. -/
@[simp] theorem state?_claim (known : KnownTypes) (simple : String)
    (owner name : QualifiedName) :
    (known.claim simple owner).state? name = known.state? name := by
  unfold claim
  split <;> rfl

/-- Claiming a simple name makes no type known. -/
@[simp] theorem contains_claim (known : KnownTypes) (simple : String) (owner name : QualifiedName) :
    (known.claim simple owner).contains name = known.contains name := by
  simp [contains]

/-- An inserted type is known, and so are those known before. -/
theorem contains_insert (known : KnownTypes) (name other : QualifiedName) :
    (known.insert name).contains other = (known.contains other || decide (other = name)) := by
  simp only [contains, state?_insert]
  cases known.state? other with
  | some state => rfl
  | none => by_cases same : other = name <;> simp [same]

end KnownTypes

end CodeAssist.Completion
