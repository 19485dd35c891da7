import CodeAssist.Class.Inheritance
import Mathlib.Logic.Relation
/-!
# What the searches of the hierarchy reach

The supertypes of a class, the chain of its superclasses and the interfaces of that chain come from
three searches of one shape: a queue, a list of visited classes, and for each class the classes it
leads to. `Search` is that shape as a relation. A search leads to each class at most once, to none
that was visited before, and, whatever cycles and dangling links there are, to all that the queue
reaches.

What a class names is a matter of its declaration alone (`Extends`, `Implements`), whatever a search
follows. That the searches follow these names is a result of its own (`extends_iff`,
`implements_iff`, `namesSupertype_iff`), and `mem_supertypes`, `mem_superclassChain` and
`mem_interfaceRoutes` then say what is found in terms of the names. The order in which classes are
found is not described here.
-/

namespace CodeAssist

open Relation (ReflTransGen)

/-- The second class is among those that the first leads to. -/
def Follows (next : ClassId → List ClassId) (id after : ClassId) : Prop := after ∈ next id

/-- A search from a queue: a visited class is passed over, any other is found and its successors
join the queue. -/
inductive Search (next : ClassId → List ClassId) :
    (visited queue found : List ClassId) → Prop
  | done {visited : List ClassId} : Search next visited [] []
  | skip {visited queue found : List ClassId} {id : ClassId} (seen : id ∈ visited)
      (rest : Search next visited queue found) : Search next visited (id :: queue) found
  | visit {visited queue found : List ClassId} {id : ClassId} (fresh : id ∉ visited)
      (rest : Search next (id :: visited) (queue ++ next id) found) :
      Search next visited (id :: queue) (id :: found)

namespace Search

variable {next : ClassId → List ClassId} {visited queue found : List ClassId}

/-- A search finds nothing that was visited before. -/
theorem fresh (search : Search next visited queue found) : ∀ id ∈ found, id ∉ visited := by
  induction search with
  | done => simp
  | skip _ _ ih => exact ih
  | visit fresh _ ih =>
    intro id mem
    rcases List.mem_cons.mp mem with rfl | mem
    · exact fresh
    · exact fun seen => ih id mem (List.mem_cons_of_mem _ seen)

/-- A search finds each class once. -/
theorem nodup (search : Search next visited queue found) : found.Nodup := by
  induction search with
  | done => exact List.nodup_nil
  | skip _ _ ih => exact ih
  | visit _ rest ih =>
    exact List.nodup_cons.mpr ⟨fun mem => rest.fresh _ mem List.mem_cons_self, ih⟩

/-- What a search finds is reached from its queue. -/
theorem reached (search : Search next visited queue found) :
    ∀ id ∈ found, ∃ start ∈ queue, ReflTransGen (Follows next) start id := by
  induction search with
  | done => simp
  | skip _ _ ih =>
    intro id mem
    obtain ⟨start, hstart, path⟩ := ih id mem
    exact ⟨start, List.mem_cons_of_mem _ hstart, path⟩
  | @visit _ queue _ first _ _ ih =>
    intro id mem
    rcases List.mem_cons.mp mem with rfl | mem
    · exact ⟨id, List.mem_cons_self, .refl⟩
    · obtain ⟨start, hstart, path⟩ := ih id mem
      rcases List.mem_append.mp hstart with hqueue | hnext
      · exact ⟨start, List.mem_cons_of_mem _ hqueue, path⟩
      · exact ⟨first, List.mem_cons_self, .head hnext path⟩

/-- Nothing in the queue is lost. -/
theorem covers (search : Search next visited queue found) :
    ∀ id ∈ queue, id ∈ visited ∨ id ∈ found := by
  induction search with
  | done => simp
  | skip seen _ ih =>
    intro id mem
    rcases List.mem_cons.mp mem with rfl | mem
    · exact .inl seen
    · exact ih id mem
  | visit _ _ ih =>
    intro id mem
    rcases List.mem_cons.mp mem with rfl | mem
    · exact .inr List.mem_cons_self
    · rcases ih id (List.mem_append_left _ mem) with seen | mem
      · rcases List.mem_cons.mp seen with rfl | seen
        · exact .inr List.mem_cons_self
        · exact .inl seen
      · exact .inr (List.mem_cons_of_mem _ mem)

/-- What a search finds is closed under successors, but for those visited before. -/
theorem closed (search : Search next visited queue found) :
    ∀ id ∈ found, ∀ after ∈ next id, after ∈ visited ∨ after ∈ found := by
  induction search with
  | done => simp
  | skip _ _ ih => exact ih
  | @visit visited queue found first _ rest ih =>
    have widen : ∀ {after : ClassId}, after ∈ first :: visited ∨ after ∈ found →
        after ∈ visited ∨ after ∈ first :: found := by
      intro after h
      rcases h with seen | mem
      · rcases List.mem_cons.mp seen with rfl | seen
        · exact .inr List.mem_cons_self
        · exact .inl seen
      · exact .inr (List.mem_cons_of_mem _ mem)
    intro id mem after hafter
    rcases List.mem_cons.mp mem with rfl | mem
    · exact widen (rest.covers after (List.mem_append_right _ hafter))
    · exact widen (ih id mem after hafter)

/-- A search that has visited nothing finds exactly what its queue reaches. -/
theorem mem_iff (search : Search next [] queue found) {id : ClassId} :
    id ∈ found ↔ ∃ start ∈ queue, ReflTransGen (Follows next) start id := by
  constructor
  · exact search.reached id
  · rintro ⟨start, hstart, path⟩
    induction path with
    | refl => exact (search.covers start hstart).resolve_left List.not_mem_nil
    | tail _ edge ih => exact (search.closed _ ih _ edge).resolve_left List.not_mem_nil

/-- A search from the successors of a class that it has visited finds exactly the other classes
which that class reaches. A path that comes back to the class is no longer than its last part. -/
theorem mem_iff_of_start {origin id : ClassId}
    (search : Search next [origin] (next origin) found) :
    id ∈ found ↔ id ≠ origin ∧ ReflTransGen (Follows next) origin id := by
  constructor
  · intro mem
    obtain ⟨start, hstart, path⟩ := search.reached id mem
    exact ⟨by simpa using search.fresh id mem, .head hstart path⟩
  · rintro ⟨hne, path⟩
    have key : ∀ other, ReflTransGen (Follows next) origin other →
        other = origin ∨ other ∈ found := by
      intro other path
      induction path with
      | refl => exact .inl rfl
      | @tail before after _ edge ih =>
        have hafter : after ∈ [origin] ∨ after ∈ found := by
          rcases ih with rfl | mem
          · exact search.covers after edge
          · exact search.closed before mem after edge
        exact hafter.imp_left List.mem_singleton.mp
    exact (key id path).resolve_left hne

end Search

namespace Store

/-- The first class is stored and names the second as its superclass. -/
def Extends (store : Store) (sub sup : ClassId) : Prop :=
  ∃ definition arguments, store.class? sub = some definition ∧
    definition.superclass = some (.declared sup arguments)

/-- The first class is stored and names the second among its interfaces. -/
def Implements (store : Store) (sub sup : ClassId) : Prop :=
  ∃ definition arguments, store.class? sub = some definition ∧
    .declared sup arguments ∈ definition.interfaces

/-- The first class names the second as its superclass or among its interfaces. -/
def NamesSupertype (store : Store) (sub sup : ClassId) : Prop :=
  store.Extends sub sup ∨ store.Implements sub sup

/-! ## What a class names is what the searches follow -/

/-- The superclass of a stored class is where the chain of superclasses goes on. -/
theorem extends_iff {store : Store} {sub sup : ClassId} : store.Extends sub sup ↔
    store.linked? (fun definition => definition.superclass.bind TypeRef.classId?) sub =
      some sup := by
  cases stored : store.class? sub with
  | none => simp [Extends, linked?, stored]
  | some definition =>
    simp [Extends, linked?, stored, Option.bind_eq_some_iff, TypeRef.exists_classId?_iff]

/-- The interfaces of a stored class are its direct interfaces. -/
theorem implements_iff {store : Store} {sub sup : ClassId} :
    store.Implements sub sup ↔ sup ∈ store.directInterfaces sub := by
  cases stored : store.class? sub with
  | none => simp [Implements, directInterfaces, stored]
  | some definition =>
    simp [Implements, directInterfaces, stored, TypeRef.exists_classId?_iff]

/-- The superclass of a stored class comes first, then its interfaces. -/
theorem directSupertypes_of_stored {store : Store} {id : ClassId} {definition : ClassDef}
    (stored : store.class? id = some definition) :
    store.directSupertypes id = (definition.superclass.bind TypeRef.classId?).toList ++
      definition.interfaces.filterMap TypeRef.classId? := by
  simp only [directSupertypes, stored, ClassDef.directSupertypes, List.filterMap_append]
  cases definition.superclass with
  | none => rfl
  | some superclass => cases named : superclass.classId? <;> simp [named]

/-- The supertypes that a stored class names are its direct supertypes. -/
theorem namesSupertype_iff {store : Store} {sub sup : ClassId} :
    store.NamesSupertype sub sup ↔ sup ∈ store.directSupertypes sub := by
  rw [NamesSupertype, extends_iff, implements_iff]
  cases stored : store.class? sub with
  | none => simp [linked?, directInterfaces, directSupertypes, stored]
  | some definition =>
    rw [directSupertypes_of_stored stored, List.mem_append, Option.mem_toList, linked?,
      directInterfaces, stored]
    rfl

/-- The search for supertypes goes from a class to what it names. -/
theorem follows_directSupertypes (store : Store) :
    Follows store.directSupertypes = store.NamesSupertype := by
  funext sub sup
  exact propext namesSupertype_iff.symm

/-! ## The searches have the shape -/

theorem reachedFrom_search (store : Store) (visited queue : List ClassId) :
    Search store.directSupertypes visited queue (store.reachedFrom visited queue) := by
  fun_induction reachedFrom store visited queue with
  | case1 => exact .done
  | case2 visited id queue seen ih => exact .skip (by simpa using seen) ih
  | case3 visited id queue fresh ih => exact .visit (by simpa using fresh) ih

theorem interfacesFrom_search (store : Store) (visited : List ClassId)
    (queue : List (ClassId × List ClassId)) :
    Search store.directInterfaces visited (queue.map Prod.fst)
      ((store.interfacesFrom visited queue).map Prod.fst) := by
  fun_induction interfacesFrom store visited queue with
  | case1 => exact .done
  | case2 visited id route queue seen ih => exact .skip (by simpa using seen) ih
  | case3 visited id route queue fresh ih =>
    refine .visit (by simpa using fresh) ?_
    simpa [Function.comp_def] using ih

theorem followFrom_search (store : Store) (link : ClassDef → Option ClassId)
    (visited : List ClassId) (id : ClassId) :
    Search (fun id => (store.linked? link id).toList) visited [id]
      (store.followFrom link visited id) := by
  fun_induction followFrom store link visited id with
  | case1 visited id seen => exact .skip (by simpa using seen) .done
  | case2 visited id fresh ih =>
    refine .visit (by simpa using fresh) ?_
    cases found : store.linked? link id with
    | some next => simpa [found] using ih next found
    | none => simpa [found] using Search.done

/-! ## What they find -/

/-- The supertypes of a class are the other classes that it reaches. -/
theorem mem_supertypes {store : Store} {id sup : ClassId} :
    sup ∈ store.supertypes id ↔ sup ≠ id ∧ ReflTransGen store.NamesSupertype id sup := by
  rw [← follows_directSupertypes]
  exact (store.reachedFrom_search [id] (store.directSupertypes id)).mem_iff_of_start

/-- The superclass chain of a class holds what its superclass links reach, itself included. -/
theorem mem_superclassChain {store : Store} {id base : ClassId} :
    base ∈ store.superclassChain id ↔ ReflTransGen store.Extends id base := by
  have links : Follows (fun id => (store.linked? (fun definition =>
      definition.superclass.bind TypeRef.classId?) id).toList) = store.Extends := by
    funext sub sup
    simp [Follows, extends_iff]
  rw [superclassChain, (store.followFrom_search _ [] id).mem_iff, links]
  simp

/-- A superclass chain holds each class once. -/
theorem nodup_superclassChain (store : Store) (id : ClassId) : (store.superclassChain id).Nodup :=
  (store.followFrom_search _ [] id).nodup

/-- A superclass chain begins with its class. -/
theorem head?_superclassChain (store : Store) (id : ClassId) :
    (store.superclassChain id).head? = some id := by
  rw [superclassChain, followFrom]
  simp

/-- The interfaces visited for a class are those that its superclass chain reaches over one or more
links to interfaces. -/
theorem mem_interfaceRoutes {store : Store} {root start iface : ClassId} :
    iface ∈ (store.interfaceRoutes root start).map Prod.fst ↔
      ∃ base, ReflTransGen store.Extends start base ∧
        Relation.TransGen store.Implements base iface := by
  have links : Follows store.directInterfaces = store.Implements := by
    funext sub sup
    exact propext implements_iff.symm
  rw [interfaceRoutes, (store.interfacesFrom_search [] _).mem_iff, links]
  constructor
  · rintro ⟨first, hfirst, path⟩
    obtain ⟨⟨_, route⟩, hentry, rfl⟩ := List.mem_map.mp hfirst
    obtain ⟨⟨base, depth⟩, hbase, hentry⟩ := List.mem_flatMap.mp hentry
    obtain ⟨named, hnamed, heq⟩ := List.mem_map.mp hentry
    cases heq
    exact ⟨base, mem_superclassChain.mp (List.fst_mem_of_mem_zipIdx hbase),
      .head' (implements_iff.mpr hnamed) path⟩
  · rintro ⟨base, chain, path⟩
    obtain ⟨first, hfirst, path⟩ := Relation.TransGen.head'_iff.mp path
    obtain ⟨depth, hdepth⟩ := List.mem_iff_getElem?.mp (mem_superclassChain.mpr chain)
    have hbase : (base, depth) ∈ (store.superclassChain start).zipIdx :=
      List.mem_zipIdx_iff_getElem?.mpr hdepth
    exact ⟨first, List.mem_map.mpr ⟨_, List.mem_flatMap.mpr
      ⟨(base, depth), hbase, List.mem_map.mpr ⟨first, implements_iff.mp hfirst, rfl⟩⟩, rfl⟩, path⟩

/-- No interfaces are visited if the superclass chain has no links to any. -/
theorem interfaceRoutes_eq_nil {store : Store} {root start : ClassId}
    (none : ∀ base ∈ store.superclassChain start, store.directInterfaces base = []) :
    store.interfaceRoutes root start = [] := by
  apply List.map_eq_nil_iff.mp
  apply List.eq_nil_iff_forall_not_mem.mpr
  intro iface visited
  obtain ⟨base, chain, path⟩ := mem_interfaceRoutes.mp visited
  obtain ⟨first, link, -⟩ := Relation.TransGen.head'_iff.mp path
  rw [implements_iff, none base (mem_superclassChain.mpr chain)] at link
  exact absurd link List.not_mem_nil

end Store

end CodeAssist
