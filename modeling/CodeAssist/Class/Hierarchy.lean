import CodeAssist.Class.Store
/-!
# The class hierarchy

The supertypes of a class, found breadth first, the chain of its superclasses and the chain of the
classes around it. A hierarchy may be malformed: links may lead to no stored class, and classes may
inherit from or contain themselves. The searches end on every hierarchy, because each step either
shortens what is left to look at or visits a stored class that it has not visited.
-/

namespace CodeAssist.Store

/-- The direct supertypes of a class, the superclass first; none for an id without a class. -/
def directSupertypes (store : Store) (id : ClassId) : List ClassId :=
  match store.class? id with
  | some definition => definition.directSupertypes
  | none => []

/-- The class that a link of the class at a place leads to. -/
def linked? (store : Store) (link : ClassDef → Option ClassId) (id : ClassId) : Option ClassId :=
  (store.class? id).bind link

/-! ## A measure for searches -/

/-- The stored classes that are not among the visited ones. -/
def unvisited (store : Store) (visited : List ClassId) : List ClassId :=
  store.ids.filter fun id => !visited.contains id

/-- The ids of a store are those of its classes. -/
theorem mem_ids {store : Store} {id : ClassId} :
    id ∈ store.ids ↔ (store.class? id).isSome := by
  simp [ids, size, class?]

/-- Visiting a class takes it from the unvisited ones. -/
theorem unvisited_cons (store : Store) (visited : List ClassId) (id : ClassId) :
    store.unvisited (id :: visited) =
      (store.unvisited visited).filter fun other => other != id := by
  simp only [unvisited, List.filter_filter]
  congr 1
  funext other
  by_cases h : other = id <;> simp [h]

/-- Visiting a class never leaves more of them. -/
theorem length_unvisited_cons_le (store : Store) (visited : List ClassId) (id : ClassId) :
    (store.unvisited (id :: visited)).length ≤ (store.unvisited visited).length := by
  rw [unvisited_cons]
  exact List.length_filter_le _ _

/-- Visiting a stored class for the first time leaves fewer of them. -/
theorem length_unvisited_cons {store : Store} {visited : List ClassId} {id : ClassId}
    (stored : (store.class? id).isSome) (fresh : id ∉ visited) :
    (store.unvisited (id :: visited)).length < (store.unvisited visited).length := by
  rw [unvisited_cons]
  apply List.length_filter_lt_length_iff_exists.2
  exact ⟨id, by simp [unvisited, mem_ids, stored, fresh], by simp⟩

theorem class?_isSome_of_directSupertypes_ne_nil {store : Store} {id : ClassId}
    (h : store.directSupertypes id ≠ []) : (store.class? id).isSome := by
  unfold directSupertypes at h
  split at h
  next found => simp [found]
  next => exact absurd rfl h

/-- Only a stored class leads to another. -/
theorem class?_isSome_of_linked? {store : Store} {link : ClassDef → Option ClassId}
    {id next : ClassId} (h : store.linked? link id = some next) : (store.class? id).isSome := by
  cases found : store.class? id with
  | none => simp [linked?, found] at h
  | some _ => rfl

/-! ## Searches -/

/-- The classes reached from a queue, each once and in the order of their discovery, without those
visited before. -/
def reachedFrom (store : Store) (visited : List ClassId) : List ClassId → List ClassId
  | [] => []
  | id :: queue =>
    if visited.contains id then store.reachedFrom visited queue
    else id :: store.reachedFrom (id :: visited) (queue ++ store.directSupertypes id)
termination_by queue => ((store.unvisited visited).length, queue.length)
decreasing_by
  · exact Prod.Lex.right _ (by simp)
  · next fresh =>
    cases step : store.directSupertypes id with
    | nil =>
      rcases Nat.lt_or_eq_of_le (store.length_unvisited_cons_le visited id) with h | h
      · exact Prod.Lex.left _ _ h
      · rw [h]; exact Prod.Lex.right _ (by simp)
    | cons _ _ =>
      apply Prod.Lex.left
      exact length_unvisited_cons
        (class?_isSome_of_directSupertypes_ne_nil (by simp [step])) (by simpa using fresh)

/-- All supertypes of a class but itself, nearest first. -/
def supertypes (store : Store) (id : ClassId) : List ClassId :=
  store.reachedFrom [id] (store.directSupertypes id)

/-- A class and those that a link leads to from it, one after the other, up to the first that was
visited before. -/
def followFrom (store : Store) (link : ClassDef → Option ClassId) (visited : List ClassId)
    (id : ClassId) : List ClassId :=
  if visited.contains id then []
  else
    id :: match _found : store.linked? link id with
      | some next => store.followFrom link (id :: visited) next
      | none => []
termination_by (store.unvisited visited).length
decreasing_by
  next fresh =>
  exact length_unvisited_cons (class?_isSome_of_linked? _found) (by simpa using fresh)

/-- A class followed by its superclasses, the root last. -/
def superclassChain (store : Store) (id : ClassId) : List ClassId :=
  store.followFrom (fun definition => definition.superclass.bind TypeRef.classId?) [] id

/-- A class followed by the classes around it, the outermost last. -/
def enclosingChain (store : Store) (id : ClassId) : List ClassId :=
  store.followFrom ClassDef.enclosing [] id

/-- Whether one class is the other or inherits from it. Every stored class inherits from the root
class. -/
def isSubclass (store : Store) (sub sup : ClassId) : Bool :=
  if sub = sup then true
  else if sup = .object then (store.class? sub).isSome
  else (store.supertypes sub).contains sup

end CodeAssist.Store
