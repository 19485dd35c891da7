import CodeAssist.Completion.KnownTypes
import Mathlib.Data.Finset.Card
import Mathlib.Data.Finset.Dedup
/-!
# What the known types tell of their history

The known types are changed by three operations, in any order: a type may be marked before it is
inserted, a simple name claimed for a type that is not known, a claim repeated. What is answered
depends on the operations before in a simple way (`answers_tell_history`). A type is known if an
operation inserted or marked it, its constructors have been proposed if one marked it, and a simple
name belongs to the type of the first claim on it.

Each of the two parts is settled by what one operation does to it (`state?_perform`,
`claimant?_perform`) and an induction over the history. The number of known types is that of
different names, because no name is listed twice (`nodup_names`).
-/

namespace CodeAssist.Completion.KnownTypes

variable {known : KnownTypes} {history : List Operation} {name : QualifiedName} {simple : String}

/-! ## Reading a history -/

namespace Operation

/-- The type that an operation makes known. -/
def registers? : Operation → Option QualifiedName
  | insert name => some name
  | mark name => some name
  | _ => none

/-- The type whose constructors an operation marks as proposed. -/
def marks? : Operation → Option QualifiedName
  | mark name => some name
  | _ => none

/-- The type for which an operation claims a simple name. -/
def claims? (simple : String) : Operation → Option QualifiedName
  | claim other owner => if simple = other then some owner else none
  | _ => none

def isClaim : Operation → Bool
  | claim _ _ => true
  | _ => false

end Operation

/-- The types that were inserted or marked, one for each time. -/
def registered (history : List Operation) : List QualifiedName :=
  history.filterMap Operation.registers?

/-- The types whose constructors were marked as proposed. -/
def marked (history : List Operation) : List QualifiedName :=
  history.filterMap Operation.marks?

/-- The type for which a simple name was claimed first. -/
def firstOwner? (history : List Operation) (simple : String) : Option QualifiedName :=
  history.findSome? (Operation.claims? simple)

/-- The types known after some operations, if none were known before. -/
def after (history : List Operation) : KnownTypes :=
  history.foldl (fun known operation => (known.perform operation).1) {}

/-- What an operation answers after some others. -/
def reply (history : List Operation) (operation : Operation) : Reply :=
  ((after history).perform operation).2

/-! ## One operation -/

/-- The last operation is performed on what the ones before it left. -/
theorem after_concat (history : List Operation) (operation : Operation) :
    after (history ++ [operation]) = ((after history).perform operation).1 := by
  rw [after, List.foldl_concat, ← after]

/-- An operation marks a type, or makes it known, if it says so of that type. -/
theorem state?_perform (known : KnownTypes) (operation : Operation) (name : QualifiedName) :
    (known.perform operation).1.state? name =
      if operation.marks? = some name then some .known
      else (known.state? name).or
        (if operation.registers? = some name then some .unknown else none) := by
  cases operation with
  | insert other =>
    rw [perform, state?_insert]
    simp [Operation.marks?, Operation.registers?, eq_comm]
  | mark other =>
    rw [perform, state?_mark]
    by_cases same : name = other
    · simp [Operation.marks?, same]
    · simp [Operation.marks?, Operation.registers?, same, Ne.symm same]
  | claim other owner => simp [perform, Operation.marks?, Operation.registers?]
  | state | contains | claimant | size | isEmpty =>
    simp [perform, Operation.marks?, Operation.registers?]

/-- An operation gives a simple name to a type if it claims it and no type holds it. -/
theorem claimant?_perform (known : KnownTypes) (operation : Operation) (simple : String) :
    (known.perform operation).1.claimant? simple =
      (known.claimant? simple).or (operation.claims? simple) := by
  cases operation with
  | claim other owner =>
    rw [perform, claimant?_claim]
    simp [Operation.claims?]
  | insert | mark | state | contains | claimant | size | isEmpty =>
    simp [perform, Operation.claims?]

/-- The names of the known types. -/
def names (known : KnownTypes) : List QualifiedName := known.types.map Prod.fst

theorem contains_iff_mem_names : known.contains name = true ↔ name ∈ known.names := by
  simp [contains, state?, names, List.lookup_isSome_iff]

/-- Operations list a name that they register unless it is listed. -/
theorem names_perform (known : KnownTypes) (operation : Operation) :
    (known.perform operation).1.names =
      known.names ++ operation.registers?.toList.filter fun name => !known.contains name := by
  cases operation with
  | insert name =>
    by_cases found : known.contains name = true
    · simp [perform, insert, Operation.registers?, found]
    · simp [perform, insert, Operation.registers?, found, names]
  | mark name =>
    by_cases found : known.contains name = true
    · have same : (fun entry : QualifiedName × ConstructorState =>
          (if entry.1 = name then (name, .known) else entry).1) = Prod.fst := by
        funext entry
        split
        next first => exact first.symm
        next => rfl
      simp [perform, mark, Operation.registers?, found, names, Function.comp_def, same]
    · simp [perform, mark, Operation.registers?, found, names]
  | claim simple owner =>
    cases held : known.claimant? simple <;>
      simp [perform, claim, Operation.registers?, held, names]
  | state | contains | claimant | size | isEmpty => simp [perform, Operation.registers?]

/-! ## All operations -/

/-- The last operation adds the type that it makes known. -/
theorem registered_concat (history : List Operation) (operation : Operation) :
    registered (history ++ [operation]) = registered history ++ operation.registers?.toList := by
  cases registers : operation.registers? <;> simp [registered, registers]

theorem marked_concat (history : List Operation) (operation : Operation) :
    marked (history ++ [operation]) = marked history ++ operation.marks?.toList := by
  cases marks : operation.marks? <;> simp [marked, marks]

/-- Claims register nothing. -/
theorem registered_filter_not_isClaim (history : List Operation) :
    registered (history.filter fun operation => !operation.isClaim) = registered history := by
  rw [registered, List.filterMap_filter]
  exact List.filterMap_congr fun operation _ => by cases operation <;> rfl

/-- No name is listed twice. -/
theorem nodup_names (history : List Operation) : (after history).names.Nodup := by
  induction history using List.reverseRecOn with
  | nil => exact List.nodup_nil
  | append_singleton history operation ih =>
    rw [after_concat, names_perform]
    cases operation.registers? with
    | none => simpa using ih
    | some name =>
      refine List.nodup_append.mpr ⟨ih, (List.nodup_singleton name).filter _, ?_⟩
      rintro listed mem _ fresh rfl
      rw [List.mem_filter, contains_iff_mem_names.mpr mem] at fresh
      cases fresh.2

/-- A type is known if it was inserted or marked, and its constructors have been proposed if it was
marked. -/
theorem state?_after (history : List Operation) (name : QualifiedName) :
    (after history).state? name =
      if name ∈ marked history then some .known
      else if name ∈ registered history then some .unknown
      else none := by
  induction history using List.reverseRecOn with
  | nil => rfl
  | append_singleton history operation ih =>
    rw [after_concat, state?_perform, ih, marked_concat, registered_concat]
    by_cases marks : operation.marks? = some name
    · simp [marks]
    · by_cases before : name ∈ marked history <;> by_cases known : name ∈ registered history <;>
        simp [marks, before, known, eq_comm]

/-- Marking makes a type known. -/
theorem mem_registered_of_mem_marked (mem : name ∈ marked history) : name ∈ registered history := by
  obtain ⟨operation, performed, marks⟩ := List.mem_filterMap.mp mem
  refine List.mem_filterMap.mpr ⟨operation, performed, ?_⟩
  cases operation with
  | mark => exact marks
  | insert | claim | state | contains | claimant | size | isEmpty => cases marks

/-- A type is known if it was inserted or marked before. -/
theorem contains_after (history : List Operation) (name : QualifiedName) :
    (after history).contains name = decide (name ∈ registered history) := by
  rw [contains, state?_after]
  by_cases marks : name ∈ marked history
  · simp [marks, mem_registered_of_mem_marked marks]
  · by_cases known : name ∈ registered history <;> simp [marks, known]

theorem state?_after_eq_known_iff :
    (after history).state? name = some .known ↔ name ∈ marked history := by
  rw [state?_after]
  by_cases marks : name ∈ marked history
  · simp [marks]
  · by_cases known : name ∈ registered history <;> simp [marks, known]

/-- A simple name belongs to the type of the first claim on it. -/
theorem claimant?_after (history : List Operation) (simple : String) :
    (after history).claimant? simple = firstOwner? history simple := by
  induction history using List.reverseRecOn with
  | nil => rfl
  | append_singleton history operation ih =>
    rw [after_concat, claimant?_perform, ih, firstOwner?, firstOwner?, List.findSome?_append]
    cases claims : operation.claims? simple <;> simp [claims]

/-- There are as many known types as names were registered. -/
theorem size_after (history : List Operation) :
    (after history).size = (registered history).toFinset.card := by
  have same : (after history).names.toFinset = (registered history).toFinset := by
    ext name
    rw [List.mem_toFinset, List.mem_toFinset, ← contains_iff_mem_names, contains_after,
      decide_eq_true_iff]
  rw [← same, List.toFinset_card_of_nodup (nodup_names history), names, List.length_map, size]

theorem isEmpty_after (history : List Operation) :
    (after history).isEmpty = decide (registered history = []) := by
  rw [Bool.eq_iff_iff, decide_eq_true_iff, isEmpty, List.isEmpty_iff_length_eq_zero, ← size,
    size_after, Finset.card_eq_zero, List.toFinset_eq_empty_iff]

/-- A claim succeeds if its type is that of the first claim on the name, itself counted. -/
theorem grants_after (history : List Operation) (simple : String) (owner : QualifiedName) :
    (after history).grants simple owner =
      decide (firstOwner? (history ++ [.claim simple owner]) simple = some owner) := by
  rw [← claimant?_after, after_concat, perform, ← holds_claim, holds]
  exact Bool.beq_eq_decide_eq _ _

theorem firstOwner?_append {owner : QualifiedName} (first : firstOwner? history simple = some owner)
    (later : List Operation) : firstOwner? (history ++ later) simple = some owner := by
  rw [firstOwner?, List.findSome?_append, ← firstOwner?, first]
  rfl

/-- What the known types answer is told by the operations before. Inserting a type tells whether no
operation inserted or marked it, its state is that of the strongest of them, a claim succeeds for
the type of the first claim on the simple name, and names are counted once. Whatever follows, a
state does not move back and a simple name keeps its type; and claims do not count. -/
theorem answers_tell_history (history later : List Operation) (name owner : QualifiedName)
    (simple : String) :
    reply history (.insert name) = .yesNo (decide (name ∉ registered history)) ∧
    reply history (.state name) = .state
      (if name ∈ marked history then some .known
        else if name ∈ registered history then some .unknown
        else none) ∧
    reply history (.contains name) = .yesNo (decide (name ∈ registered history)) ∧
    reply history (.claim simple owner) =
      .yesNo (decide (firstOwner? (history ++ [.claim simple owner]) simple = some owner)) ∧
    reply history (.claimant simple) = .owner (firstOwner? history simple) ∧
    reply history .size = .count (registered history).toFinset.card ∧
    reply history .isEmpty = .yesNo (decide (registered history = [])) ∧
    (reply history (.state name) = .state (some .known) →
      reply (history ++ later) (.state name) = .state (some .known)) ∧
    (reply history (.contains name) = .yesNo true →
      reply (history ++ later) (.contains name) = .yesNo true) ∧
    (reply history (.claimant simple) = .owner (some owner) →
      reply (history ++ later) (.claimant simple) = .owner (some owner)) ∧
    reply (history.filter fun operation => !operation.isClaim) .size = reply history .size := by
  refine ⟨?_, congrArg Reply.state (state?_after history name),
    congrArg Reply.yesNo (contains_after history name),
    congrArg Reply.yesNo (grants_after history simple owner),
    congrArg Reply.owner (claimant?_after history simple),
    congrArg Reply.count (size_after history), congrArg Reply.yesNo (isEmpty_after history),
    fun marks => ?_, fun known => ?_, fun first => ?_, ?_⟩
  · rw [decide_not, ← contains_after]
    rfl
  · have mem := state?_after_eq_known_iff.mp (Reply.state.inj marks)
    refine congrArg Reply.state (state?_after_eq_known_iff.mpr ?_)
    rw [marked, List.filterMap_append]
    exact List.mem_append_left _ mem
  · have mem := (contains_after history name).symm.trans (Reply.yesNo.inj known)
    refine congrArg Reply.yesNo ((contains_after _ name).trans (decide_eq_true ?_))
    rw [registered, List.filterMap_append]
    exact List.mem_append_left _ (of_decide_eq_true mem)
  · have owns := (claimant?_after history simple).symm.trans (Reply.owner.inj first)
    exact congrArg Reply.owner ((claimant?_after _ simple).trans (firstOwner?_append owns later))
  · refine congrArg Reply.count ?_
    rw [size_after, size_after, registered_filter_not_isClaim]

/-- A type is marked before it is inserted, and a simple name is claimed for two types, neither of
them known. -/
def outOfOrder : List Operation :=
  [.mark ⟨["util", "List"]⟩, .claim "List" ⟨["awt", "List"]⟩, .insert ⟨["util", "List"]⟩,
    .claim "List" ⟨["util", "List"]⟩, .size]

/-- The type is not new when it is inserted, its constructors stay proposed, and the simple name
stays with the first claim. -/
theorem out_of_order_told :
    (outOfOrder.inits.zip outOfOrder).map (fun step => reply step.1 step.2) =
      [.done, .yesNo true, .yesNo false, .yesNo false, .count 1] ∧
    reply outOfOrder (.state ⟨["util", "List"]⟩) = .state (some .known) ∧
    reply outOfOrder (.contains ⟨["util", "List"]⟩) = .yesNo true ∧
    reply outOfOrder (.claimant "List") = .owner (some ⟨["awt", "List"]⟩) ∧
    ∀ later : List Operation,
      reply (outOfOrder ++ later) (.state ⟨["util", "List"]⟩) = .state (some .known) ∧
      reply (outOfOrder ++ later) (.contains ⟨["util", "List"]⟩) = .yesNo true ∧
      reply (outOfOrder ++ later) (.claimant "List") = .owner (some ⟨["awt", "List"]⟩) := by
  have state : reply outOfOrder (.state ⟨["util", "List"]⟩) = .state (some .known) := by decide
  have known : reply outOfOrder (.contains ⟨["util", "List"]⟩) = .yesNo true := by decide
  have first : reply outOfOrder (.claimant "List") = .owner (some ⟨["awt", "List"]⟩) := by decide
  refine ⟨by decide, state, known, first, fun later => ?_⟩
  obtain ⟨-, -, -, -, -, -, -, marks, contains, owns, -⟩ :=
    answers_tell_history outOfOrder later ⟨["util", "List"]⟩ ⟨["awt", "List"]⟩ "List"
  exact ⟨marks state, contains known, owns first⟩

end CodeAssist.Completion.KnownTypes
