import CodeAssist.Proofs.Class.Ancestry
import Mathlib.Data.List.Chain
import Mathlib.Data.Nat.Find
/-!
# The order in which the hierarchy is searched

The supertypes of a class are listed breadth first: the nearer of two comes first, and among the
nearest, the direct supertypes, the superclass comes before the interfaces. The order rests on what
the queue of the search holds at each moment (`Frontier`): classes that are reached over a certain
number of links, followed by classes that are reached over one link more, while all classes that are
reached over fewer links have been visited.

The chain of superclasses has one class of each distance, so its order needs no such argument: each
class names the next, and the last names none that is not listed.

Nothing is asked of the hierarchy. That the searches end is part of their definitions; cycles cut
them short, and links to no stored class lead to an id that is listed and goes nowhere.
-/

namespace CodeAssist

open Relation (ReflTransGen TransGen)

/-- A class that is reached over a number of links. -/
inductive ReachedOver (link : ClassId → ClassId → Prop) (origin : ClassId) : Nat → ClassId → Prop
  | start : ReachedOver link origin 0 origin
  | further {count : Nat} {id after : ClassId} (path : ReachedOver link origin count id)
      (step : link id after) : ReachedOver link origin (count + 1) after

/-- The least number of links over which a class is reached. -/
structure IsDistance (link : ClassId → ClassId → Prop) (origin id : ClassId) (count : Nat) :
    Prop where
  reached : ReachedOver link origin count id
  least : ∀ other, ReachedOver link origin other id → count ≤ other

/-- The first class is reached over no more links than the second. -/
def NoFurther (link : ClassId → ClassId → Prop) (origin near far : ClassId) : Prop :=
  ∀ count, ReachedOver link origin count far → ∃ other ≤ count, ReachedOver link origin other near

variable {link : ClassId → ClassId → Prop} {next : ClassId → List ClassId} {origin : ClassId}

/-- What is reached at all is reached over some number of links. -/
theorem exists_reachedOver {id : ClassId}
    (path : ReflTransGen link origin id) :
    ∃ count, ReachedOver link origin count id := by
  induction path with
  | refl => exact ⟨0, .start⟩
  | tail _ step ih =>
    obtain ⟨count, path⟩ := ih
    exact ⟨count + 1, path.further step⟩

/-- Every class that is reached has a distance. -/
theorem exists_isDistance {id : ClassId}
    (path : ReflTransGen link origin id) :
    ∃ count, IsDistance link origin id count := by
  classical
  have reached := exists_reachedOver path
  exact ⟨Nat.find reached, Nat.find_spec reached, fun _ other => Nat.find_min' reached other⟩

/-- What is no further has no larger distance. -/
theorem NoFurther.le {near far : ClassId} (noFurther : NoFurther link origin near far) {m n : Nat}
    (first : IsDistance link origin near m) (second : IsDistance link origin far n) : m ≤ n := by
  obtain ⟨other, bound, path⟩ := noFurther n second.reached
  exact Nat.le_trans (first.least other path) bound

/-- What is known while a search goes over the classes that are reached over `count + 1` links: of
its queue, the near part is reached over so many links and the far part over one more; every class
that is nearer has been visited. -/
structure Frontier (next : ClassId → List ClassId) (origin : ClassId) (count : Nat)
    (visited near far : List ClassId) : Prop where
  settled : ∀ steps ≤ count, ∀ id, ReachedOver (Follows next) origin steps id → id ∈ visited
  covered : ∀ id, ReachedOver (Follows next) origin (count + 1) id → id ∈ visited ∨ id ∈ near
  reachedNear : ∀ id ∈ near, ReachedOver (Follows next) origin (count + 1) id
  reachedFar : ∀ id ∈ far, ReachedOver (Follows next) origin (count + 2) id
  closed : ∀ id ∈ visited, ∀ after ∈ next id, after ∈ visited ∨ after ∈ near ∨ after ∈ far

namespace Frontier

variable {count : Nat} {visited near far : List ClassId} {id : ClassId}

/-- A search from the successors of a class that it has visited. -/
theorem initial (next : ClassId → List ClassId) (origin : ClassId) :
    Frontier next origin 0 [origin] (next origin) [] where
  settled := by
    rintro steps bound id path
    cases path with
    | start => exact List.mem_singleton_self _
    | further _ _ => exact absurd bound (Nat.not_succ_le_zero _)
  covered := by
    rintro id (_ | ⟨path, step⟩)
    cases path with
    | start => exact .inr step
  reachedNear := fun _ step => ReachedOver.start.further step
  reachedFar := by simp
  closed := by
    intro id mem after step
    rw [List.mem_singleton.mp mem] at step
    exact .inr (.inl step)

/-- When the near part is used up, the far part takes its place. -/
theorem advance (frontier : Frontier next origin count visited [] far) :
    Frontier next origin (count + 1) visited far [] where
  settled := by
    intro steps bound id path
    rcases Nat.le_succ_iff.mp bound with bound | rfl
    · exact frontier.settled steps bound id path
    · exact (frontier.covered id path).resolve_right List.not_mem_nil
  covered := by
    rintro id (_ | ⟨path, step⟩)
    have before := (frontier.covered _ path).resolve_right List.not_mem_nil
    exact (frontier.closed _ before id step).imp_right (·.resolve_left List.not_mem_nil)
  reachedNear := frontier.reachedFar
  reachedFar := by simp
  closed := by
    intro id mem after step
    rcases frontier.closed id mem after step with seen | listed | waiting
    · exact .inl seen
    · exact absurd listed List.not_mem_nil
    · exact .inr (.inl waiting)

/-- The head of the queue is in the near part, after the far part has taken its place if need be. -/
theorem turn {queue : List ClassId} (frontier : Frontier next origin count visited near far)
    (split : near ++ far = id :: queue) :
    ∃ count near far, Frontier next origin count visited (id :: near) far ∧
      near ++ far = queue := by
  cases near with
  | nil =>
    rw [List.nil_append] at split
    subst split
    exact ⟨_, _, _, frontier.advance, List.append_nil queue⟩
  | cons first near =>
    obtain ⟨rfl, rest⟩ := List.cons.inj split
    exact ⟨_, _, _, frontier, rest⟩

theorem skip (frontier : Frontier next origin count visited (id :: near) far)
    (seen : id ∈ visited) : Frontier next origin count visited near far where
  settled := frontier.settled
  covered := by
    intro other path
    rcases frontier.covered other path with mem | mem
    · exact .inl mem
    · rcases List.mem_cons.mp mem with rfl | mem
      · exact .inl seen
      · exact .inr mem
  reachedNear := fun other mem => frontier.reachedNear other (List.mem_cons_of_mem _ mem)
  reachedFar := frontier.reachedFar
  closed := by
    intro other mem after step
    rcases frontier.closed other mem after step with mem | mem | mem
    · exact .inl mem
    · rcases List.mem_cons.mp mem with rfl | mem
      · exact .inl seen
      · exact .inr (.inl mem)
    · exact .inr (.inr mem)

theorem visit (frontier : Frontier next origin count visited (id :: near) far) :
    Frontier next origin count (id :: visited) near (far ++ next id) where
  settled := fun steps bound other path =>
    List.mem_cons_of_mem _ (frontier.settled steps bound other path)
  covered := by
    intro other path
    rcases frontier.covered other path with mem | mem
    · exact .inl (List.mem_cons_of_mem _ mem)
    · rcases List.mem_cons.mp mem with rfl | mem
      · exact .inl List.mem_cons_self
      · exact .inr mem
  reachedNear := fun other mem => frontier.reachedNear other (List.mem_cons_of_mem _ mem)
  reachedFar := by
    intro other mem
    rcases List.mem_append.mp mem with mem | step
    · exact frontier.reachedFar other mem
    · exact (frontier.reachedNear id List.mem_cons_self).further step
  closed := by
    intro other mem after step
    rcases List.mem_cons.mp mem with rfl | mem
    · exact .inr (.inr (List.mem_append_right _ step))
    · rcases frontier.closed other mem after step with mem | mem | mem
      · exact .inl (List.mem_cons_of_mem _ mem)
      · rcases List.mem_cons.mp mem with rfl | mem
        · exact .inl List.mem_cons_self
        · exact .inr (.inl mem)
      · exact .inr (.inr (List.mem_append_left _ mem))

end Frontier

namespace Search

variable {visited queue found : List ClassId}

/-- A search finds nearer classes first. -/
theorem nearest_first (search : Search next visited queue found) {count : Nat}
    {near far : List ClassId} (frontier : Frontier next origin count visited near far)
    (split : near ++ far = queue) : found.Pairwise (NoFurther (Follows next) origin) := by
  induction search generalizing count near far with
  | done => exact .nil
  | skip seen _ ih =>
    obtain ⟨_, _, _, frontier, rest⟩ := frontier.turn split
    exact ih (frontier.skip seen) rest
  | @visit visited queue found id _ search ih =>
    obtain ⟨count, near, far, frontier, rest⟩ := frontier.turn split
    refine .cons (fun later mem steps path => ?_)
      (ih frontier.visit (by rw [← rest, List.append_assoc]))
    -- what is found later is not visited yet, so it is as far away as the head of the queue
    have further : count + 1 ≤ steps := by
      by_contra nearer
      have seen := frontier.settled steps (by omega) later path
      exact search.fresh later mem (List.mem_cons_of_mem _ seen)
    exact ⟨count + 1, further, frontier.reachedNear id List.mem_cons_self⟩

/-- The classes of the queue are found first, in their order. -/
theorem queue_first (search : Search next visited queue found) {near far : List ClassId}
    (split : near ++ far = queue) :
    (near.filter fun id => !visited.contains id).eraseDups <+: found := by
  induction search generalizing near far with
  | done =>
    obtain ⟨rfl, -⟩ := List.append_eq_nil_iff.mp split
    exact List.nil_prefix
  | @skip visited _ _ id seen _ ih =>
    cases near with
    | nil => exact List.nil_prefix
    | cons first near =>
      obtain ⟨rfl, rest⟩ := List.cons.inj split
      rw [List.filter_cons_of_neg (by simpa using seen)]
      exact ih rest
  | @visit visited _ _ id fresh _ ih =>
    cases near with
    | nil => exact List.nil_prefix
    | cons first near =>
      obtain ⟨rfl, rest⟩ := List.cons.inj split
      rw [List.filter_cons_of_pos (by simpa using fresh), List.eraseDups_cons, List.filter_filter]
      refine List.cons_prefix_cons.mpr ⟨rfl, ?_⟩
      have unvisited : (fun id => !id == first && !visited.contains id) =
          fun id => !(first :: visited).contains id := by
        funext id
        rw [List.contains_cons, Bool.not_or]
      rw [unvisited]
      exact ih (by rw [← List.append_assoc, ← rest]; rfl)

end Search

namespace Store

variable {store : Store} {link : ClassDef → Option ClassId} {visited : List ClassId}
  {id : ClassId}

/-! ## Chains -/

theorem head?_followFrom {first : ClassId}
    (head : (store.followFrom link visited id).head? = some first) : first = id := by
  rw [followFrom] at head
  split at head
  · cases head
  · exact (Option.some.inj head).symm

/-- Each class of a chain links to the next. -/
theorem isChain_followFrom (store : Store) (link : ClassDef → Option ClassId)
    (visited : List ClassId) (id : ClassId) :
    (store.followFrom link visited id).IsChain fun a b => store.linked? link a = some b := by
  fun_induction followFrom store link visited id with
  | case1 => exact .nil
  | case2 visited id fresh ih =>
    cases linked : store.linked? link id with
    | none => exact .singleton id
    | some after =>
      refine List.isChain_cons.mpr ⟨fun first head => ?_, ih after linked⟩
      rw [linked, head?_followFrom head]

/-! ## What the answers are -/

/-- The supertypes of a class, nearest first. -/
structure ListsSupertypes (store : Store) (id : ClassId) (found : List ClassId) : Prop where
  /-- The other classes that are reached over one or more links. -/
  exact : ∀ sup, sup ∈ found ↔ sup ≠ id ∧ TransGen store.NamesSupertype id sup
  once : found.Nodup
  distances : ∀ sup ∈ found, ∃ count, IsDistance store.NamesSupertype id sup count
  nearestFirst : found.Pairwise fun near far => ∀ m n,
    IsDistance store.NamesSupertype id near m → IsDistance store.NamesSupertype id far n → m ≤ n
  /-- The superclass comes first, then the interfaces as they are declared. -/
  directFirst : ∀ definition, store.class? id = some definition →
    (((definition.superclass.bind TypeRef.classId?).toList ++
      definition.interfaces.filterMap TypeRef.classId?).filter fun sup => sup != id).eraseDups <+:
      found

/-- A class and its superclasses, up to the first that cannot be followed or is listed before. -/
structure ListsSuperclasses (store : Store) (id : ClassId) (chain : List ClassId) : Prop where
  head : chain.head? = some id
  once : chain.Nodup
  successive : chain.IsChain store.Extends
  ended : ∀ last, chain.getLast? = some last →
    store.class? last = none ∨
    (∃ definition, store.class? last = some definition ∧
      ∀ sup arguments, definition.superclass ≠ some (.declared sup arguments)) ∨
    ∃ sup ∈ chain, store.Extends last sup

/-- The search for supertypes lists them. -/
theorem listsSupertypes (store : Store) (id : ClassId) :
    store.ListsSupertypes id (store.supertypes id) := by
  have search := store.reachedFrom_search [id] (store.directSupertypes id)
  refine ⟨fun sup => ?_, search.nodup, fun sup mem => ?_, ?_, fun definition stored => ?_⟩
  · rw [mem_supertypes]
    refine and_congr_right fun other => ?_
    rw [Relation.reflTransGen_iff_eq_or_transGen, or_iff_right other]
  · exact exists_isDistance (mem_supertypes.mp mem).2
  · have nearest := search.nearest_first (.initial store.directSupertypes id) (List.append_nil _)
    rw [follows_directSupertypes] at nearest
    exact nearest.imp fun noFurther m n => noFurther.le
  · have others : (fun sup => !List.contains [id] sup) = fun sup => sup != id := by
      funext sup
      rw [List.contains_cons, List.contains_nil, Bool.or_false]
      rfl
    rw [← directSupertypes_of_stored stored]
    exact others ▸ search.queue_first (List.append_nil _)

/-- The chain of superclasses ends at a class that is not stored, that names none, or that names
one of the chain. -/
theorem listsSuperclasses (store : Store) (id : ClassId) :
    store.ListsSuperclasses id (store.superclassChain id) := by
  refine ⟨head?_superclassChain store id, nodup_superclassChain store id,
    (isChain_followFrom store _ [] id).imp fun _ _ => extends_iff.mpr, fun last isLast => ?_⟩
  cases stored : store.class? last with
  | none => exact .inl rfl
  | some definition =>
    by_cases named : ∃ sup arguments, definition.superclass = some (.declared sup arguments)
    · obtain ⟨sup, arguments, superclass⟩ := named
      have above : store.Extends last sup := ⟨definition, arguments, stored, superclass⟩
      have reached := mem_superclassChain.mp (List.mem_of_getLast? isLast)
      exact .inr (.inr ⟨sup, mem_superclassChain.mpr (reached.tail above), above⟩)
    · refine .inr (.inl ⟨definition, rfl, fun sup arguments superclass => ?_⟩)
      exact named ⟨sup, arguments, superclass⟩

/-- The searches of the hierarchy are exact on every store: the supertypes of a class and the chain
of its superclasses are listed in order, and a class is a subclass of itself, of what it reaches
and, if it is stored, of the root class. -/
theorem hierarchy_searches_are_exact (store : Store) (id : ClassId) :
    store.ListsSupertypes id (store.supertypes id) ∧
    store.ListsSuperclasses id (store.superclassChain id) ∧
    ∀ sup, store.isSubclass id sup = true ↔
      id = sup ∨ (sup = .object ∧ (store.class? id).isSome) ∨
        TransGen store.NamesSupertype id sup := by
  refine ⟨store.listsSupertypes id, store.listsSuperclasses id, fun sup => ?_⟩
  rw [isSubclass_iff, Relation.reflTransGen_iff_eq_or_transGen, or_assoc,
    or_comm (a := TransGen _ _ _), eq_comm]

end Store

end CodeAssist
