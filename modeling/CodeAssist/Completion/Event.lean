/-!
# What happens during a request

A stage of a request is a list of *events*: steps at which a cancellation may be noticed, reasons
for which something was dropped, and what was found. Because a stage is data, what a request would
do is known before it is known how far it gets.

Things are *screened* one after the other. A screening either lets something through, or drops it
for a reason that is counted, or drops it without further notice.
-/

namespace CodeAssist.Completion

/-- Why something was not proposed. -/
inductive Rejection where
  | nameMismatch
  | invisible
  | forbiddenReference
  | discouragedReference
  | deprecated
  /-- An instance member where there is no instance. -/
  | staticContext
  | duplicate
  /-- The client does not show this kind of proposal. -/
  | ignoredKind
deriving DecidableEq, Repr, Inhabited

/-- One event of a request. -/
inductive Event (α : Type) where
  /-- A step is counted, and a cancellation may be noticed. -/
  | tick
  | rejected (reason : Rejection)
  | found (item : α)
deriving DecidableEq, Repr

namespace Event

/-- What was found. -/
def item? : Event α → Option α
  | .found item => some item
  | _ => none

/-- The reason for a rejection. -/
def reason? : Event α → Option Rejection
  | .rejected reason => some reason
  | _ => none

/-- An event without what was found. -/
def unnoticed? : Event α → Option (Event β)
  | .tick => some .tick
  | .rejected reason => some (.rejected reason)
  | .found _ => none

/-- Changes what was found. -/
def map (change : α → β) : Event α → Event β
  | .tick => .tick
  | .rejected reason => .rejected reason
  | .found item => .found (change item)

/-- What was found in a stage, in order. -/
def items (events : List (Event α)) : List α := events.filterMap item?

/-- The steps and rejections of a stage, for a request whose next stage looks at what was found. -/
def notes (events : List (Event α)) : List (Event β) := events.filterMap unnoticed?

@[simp] theorem items_nil : items ([] : List (Event α)) = [] := rfl

/-- A step finds nothing. -/
@[simp] theorem items_tick (events : List (Event α)) : items (.tick :: events) = items events :=
  rfl

/-- A rejection finds nothing. -/
@[simp] theorem items_rejected (reason : Rejection) (events : List (Event α)) :
    items (.rejected reason :: events) = items events := rfl

@[simp] theorem items_found (item : α) (events : List (Event α)) :
    items (.found item :: events) = item :: items events := rfl

/-- Two stages find what the first finds, followed by what the second finds. -/
@[simp] theorem items_append (first second : List (Event α)) :
    items (first ++ second) = items first ++ items second := by
  simp [items]

/-- Two stages note what the first notes, followed by what the second notes. -/
@[simp] theorem notes_append (first second : List (Event α)) :
    (notes (first ++ second) : List (Event β)) = notes first ++ notes second := by
  simp [notes]

/-- Changing what was found changes the items and nothing else. -/
@[simp] theorem items_map (change : α → β) (events : List (Event α)) :
    items (events.map (map change)) = (items events).map change := by
  induction events with
  | nil => rfl
  | cons event events ih => cases event <;> simp [map, ih]

/-- The notes of a stage hold nothing that was found. -/
@[simp] theorem items_notes (events : List (Event α)) :
    items (notes events : List (Event β)) = [] := by
  induction events with
  | nil => rfl
  | cons event events ih => cases event <;> exact ih

end Event

/-- How often there was each reason to drop something. -/
structure Tally where
  nameMismatch : Nat
  invisible : Nat
  forbiddenReference : Nat
  discouragedReference : Nat
  deprecated : Nat
  staticContext : Nat
  duplicate : Nat
  ignoredKind : Nat
deriving DecidableEq, Repr, Inhabited

namespace Tally

/-- Counts the rejections of a list of events. -/
def ofEvents (events : List (Event α)) : Tally :=
  let reasons := events.filterMap Event.reason?
  { nameMismatch := reasons.count .nameMismatch
    invisible := reasons.count .invisible
    forbiddenReference := reasons.count .forbiddenReference
    discouragedReference := reasons.count .discouragedReference
    deprecated := reasons.count .deprecated
    staticContext := reasons.count .staticContext
    duplicate := reasons.count .duplicate
    ignoredKind := reasons.count .ignoredKind }

/-- All rejections. -/
def total (tally : Tally) : Nat :=
  tally.nameMismatch + tally.invisible + tally.forbiddenReference + tally.discouragedReference
    + tally.deprecated + tally.staticContext + tally.duplicate + tally.ignoredKind

end Tally

/-- The outcome of a screening: what passed, or a reason to count if there is one. -/
abbrev Screened := Except (Option Rejection)

namespace Screened

/-- Drops what fails a test, without notice. -/
def require (passes : Bool) : Screened Unit := if passes then .ok () else .error none

/-- Drops what fails a test, for a reason. -/
def requireOr (reason : Rejection) (passes : Bool) : Screened Unit :=
  if passes then .ok () else .error (some reason)

/-- The events of a screening. -/
def events : Screened α → List (Event α)
  | .ok item => [.found item]
  | .error (some reason) => [.rejected reason]
  | .error none => []

/-- The events of a screening that counts as a step. -/
def step (screened : Screened α) : List (Event α) := .tick :: screened.events

end Screened

end CodeAssist.Completion
