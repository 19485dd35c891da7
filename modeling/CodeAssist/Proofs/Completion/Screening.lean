import CodeAssist.Completion.Session
/-!
# What passes a screening

A screening is a sequence of tests. The lemmas here turn "the screening lets this through" into the
conjunction of its tests, and "this was found in a stage" into a screening that let it through. They
are tagged for `simp`, so that a caller unfolds the screening and reads off what was asked.
-/

namespace CodeAssist.Completion

namespace Screened

variable {α β : Type}

/-- A sequence lets something through if every step does. -/
@[simp] theorem bind_eq_ok {screened : Screened α} {next : α → Screened β} {result : β} :
    screened >>= next = .ok result ↔ ∃ item, screened = .ok item ∧ next item = .ok result := by
  cases screened <;> simp [bind, Except.bind]

@[simp] theorem pure_eq_ok {item result : α} :
    (pure item : Screened α) = .ok result ↔ item = result := by
  simp [pure, Except.pure]

@[simp] theorem throw_ne_ok {reason : Option Rejection} {result : α} :
    (throw reason : Screened α) ≠ .ok result := by
  simp [throw, throwThe, MonadExceptOf.throw]

/-- A requirement lets through what meets it. -/
@[simp] theorem require_eq_ok {passes : Bool} {passed : Unit} :
    require passes = .ok passed ↔ passes = true := by
  cases passes <;> simp [require]

/-- A requirement with a reason lets through what meets it. -/
@[simp] theorem requireOr_eq_ok {reason : Rejection} {passes : Bool} {passed : Unit} :
    requireOr reason passes = .ok passed ↔ passes = true := by
  cases passes <;> simp [requireOr]

/-- A screening finds what it lets through. -/
@[simp] theorem mem_items_events {screened : Screened α} {item : α} :
    item ∈ Event.items screened.events ↔ screened = .ok item := by
  cases screened with
  | ok found => simp [events, eq_comm]
  | error reason => cases reason <;> simp [events]

/-- What was let through, with the reason of a rejection left out. -/
@[simp] theorem toOption_eq_some {screened : Screened α} {item : α} :
    screened.toOption = some item ↔ screened = .ok item := by
  cases screened <;> simp [Except.toOption]

/-- What a list of screenings lets through, in order. -/
theorem items_flatMap_events (things : List β) (screen : β → Screened α) :
    Event.items (things.flatMap fun thing => (screen thing).events) =
      things.filterMap fun thing => (screen thing).toOption := by
  induction things with
  | nil => rfl
  | cons thing things ih =>
    rw [List.flatMap_cons, Event.items_append, ih, List.filterMap_cons]
    rcases screen thing with (_ | reason) | item <;> rfl

/-- What a list of screenings lets through, if each counts as a step. -/
theorem items_flatMap_step (things : List β) (screen : β → Screened α) :
    Event.items (things.flatMap fun thing => (screen thing).step) =
      things.filterMap fun thing => (screen thing).toOption := by
  rw [← items_flatMap_events, Event.items, Event.items, List.filterMap_flatMap,
    List.filterMap_flatMap]
  rfl

/-- The step that goes with a screening finds nothing itself. -/
@[simp] theorem items_step (screened : Screened α) :
    Event.items screened.step = Event.items screened.events := rfl

end Screened

/-- A name is let through with its match. -/
@[simp] theorem Session.matchName_eq_ok {session : Session} {name : String}
    {found : Matching.NameMatch} :
    session.matchName name = .ok found ↔ session.match? name = some found := by
  unfold matchName
  cases session.match? name <;> simp

namespace Event

variable {α β : Type}

/-- What a sequence of stages finds, stage by stage. -/
@[simp] theorem items_flatMap (stages : List α) (events : α → List (Event β)) :
    items (stages.flatMap events) = stages.flatMap fun stage => items (events stage) := by
  induction stages with
  | nil => rfl
  | cons _ _ ih => simp [ih]

@[simp] theorem items_ite_nil (wanted : Prop) [Decidable wanted] (events : List (Event α)) :
    items (if wanted then events else []) = if wanted then items events else [] := by
  split <;> rfl

/-- What the screenings of the numbered items of a list let through. -/
theorem mem_items_zipIdx {things : List β} {screen : β → Nat → Screened α} {item : α} :
    item ∈ items (things.zipIdx.flatMap fun (thing, index) => (screen thing index).step) ↔
      ∃ thing index, things[index]? = some thing ∧ screen thing index = .ok item := by
  simp only [items_flatMap, Screened.items_step, List.mem_flatMap, Screened.mem_items_events,
    Prod.exists, List.mem_zipIdx_iff_getElem?]

@[simp] theorem items_map_found (found : List α) : items (found.map .found) = found := by
  induction found with
  | nil => rfl
  | cons item _ ih => exact congrArg (item :: ·) ih

/-- Steps alone find nothing. -/
@[simp] theorem items_map_tick (steps : List α) :
    items (steps.map fun _ => (.tick : Event β)) = [] := by
  induction steps with
  | nil => rfl
  | cons _ _ ih => exact ih

@[simp] theorem items_replicate_rejected (count : Nat) (reason : Rejection) :
    items (List.replicate count (.rejected reason : Event α)) = [] := by
  induction count with
  | zero => rfl
  | succ _ ih => exact ih

end Event

end CodeAssist.Completion
