import CodeAssist.Class.Hierarchy
/-!
# Where members are inherited from

The members of a class are its own, those of its superclasses, those of every interface reached from
one of these, and, for lack of a superclass, those of the root class. A *route* leads from the class
that a search began at to a class that declares members. Interfaces are visited breadth first and
each once, by the first route that reaches them.
-/

namespace CodeAssist.Store

/-- The classes named as interfaces of a class. -/
def directInterfaces (store : Store) (id : ClassId) : List ClassId :=
  match store.class? id with
  | some definition => definition.interfaces.filterMap TypeRef.classId?
  | none => []

/-- Only a stored class has direct interfaces. -/
theorem class?_isSome_of_directInterfaces_ne_nil {store : Store} {id : ClassId}
    (h : store.directInterfaces id ≠ []) : (store.class? id).isSome := by
  unfold directInterfaces at h
  split at h
  next found => simp [found]
  next => exact absurd rfl h

/-- The interfaces reached from a queue, each once and with its route. An entry of the queue is an
interface and the route to what names it. -/
def interfacesFrom (store : Store) (visited : List ClassId) :
    List (ClassId × List ClassId) → List (ClassId × List ClassId)
  | [] => []
  | (id, route) :: queue =>
    if visited.contains id then store.interfacesFrom visited queue
    else
      (id, route ++ [id]) :: store.interfacesFrom (id :: visited)
        (queue ++ (store.directInterfaces id).map (·, route ++ [id]))
termination_by queue => ((store.unvisited visited).length, queue.length)
decreasing_by
  · exact Prod.Lex.right _ (by simp)
  · next fresh =>
    cases step : store.directInterfaces id with
    | nil =>
      rcases Nat.lt_or_eq_of_le (store.length_unvisited_cons_le visited id) with h | h
      · exact Prod.Lex.left _ _ h
      · rw [h]; exact Prod.Lex.right _ (by simp)
    | cons _ _ =>
      apply Prod.Lex.left
      exact length_unvisited_cons
        (class?_isSome_of_directInterfaces_ne_nil (by simp [step])) (by simpa using fresh)

/-- The superclass chain of a class, each with the route from a root to it. -/
def chainRoutes (store : Store) (root start : ClassId) : List (ClassId × List ClassId) :=
  let chain := store.superclassChain start
  let lead := if start = root then [root] else [root, start]
  chain.zipIdx.map fun (id, depth) => (id, lead ++ (chain.take (depth + 1)).drop 1)

/-- The interfaces of a superclass chain with their routes. A route to an interface passes through
the chain, but names the root only once. -/
def interfaceRoutes (store : Store) (root start : ClassId) : List (ClassId × List ClassId) :=
  let chain := store.superclassChain start
  store.interfacesFrom [] (chain.zipIdx.flatMap fun (id, depth) =>
    let route := root :: (chain.take (depth + 1)).filter fun passed => passed != root
    (store.directInterfaces id).map (·, route))

/-- The root class with its route, unless it is reached anyway. -/
def objectRoute (store : Store) (root start : ClassId) : List (ClassId × List ClassId) :=
  let chain := store.chainRoutes root start
  if (chain ++ store.interfaceRoutes root start).any fun entry => entry.1 == .object then []
  else [(.object, ((chain.getLast?.map Prod.snd).getD [root]) ++ [.object])]

end CodeAssist.Store
