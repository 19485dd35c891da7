import CodeAssist.Class.Visibility
import CodeAssist.Proofs.Class.Additions
import Mathlib.Data.List.Perm.Subperm
/-!
# Where the question of visibility returns

Whether a class may be named is asked of the class and then of the classes around it, without a
bound. The question returns exactly if the way outward comes to an end or to a class that may not be
named (`exists_askOutward_iff`), and then with what the guarded search answers. A question that
returns asks of no class twice: the number of calls that are left is different each time
(`exists_asked`). So one call more than there are classes is always enough
(`visibility?_of_askOutward`).

The way outward ends in every store whose classes were added behind the classes around them
(`visibility?_of_builtInOrder`). A class may also be added inside itself, by the id that it is about
to get, or inside a class that is added later; then the question need not return.
-/

namespace CodeAssist.Store

open Relation (ReflTransGen)

variable {store : Store} {view : Viewpoint} {id outer last : ClassId} {calls : Nat} {answer : Bool}

/-- The second class stands directly around the first. -/
def InsideOf (store : Store) (id outer : ClassId) : Prop :=
  store.linked? ClassDef.enclosing id = some outer

/-- Nothing is asked beyond a class: it is outside any other, or may not be named as a member. -/
def EndsAt (store : Store) (view : Viewpoint) (last : ClassId) : Prop :=
  store.linked? ClassDef.enclosing last = none ∨ store.isLinkVisible view last = false

/-- The classes around a class are those that its links outward reach, itself included. -/
theorem mem_enclosingChain : last ∈ store.enclosingChain id ↔ ReflTransGen store.InsideOf id last := by
  have links : Follows (fun id => (store.linked? ClassDef.enclosing id).toList) =
      store.InsideOf := by
    funext id outer
    simp [Follows, InsideOf]
  rw [enclosingChain, (store.followFrom_search _ [] id).mem_iff, links]
  simp

theorem isClassVisible_iff_forall :
    store.isClassVisible id view = true ↔
      ∀ last, ReflTransGen store.InsideOf id last → store.isLinkVisible view last = true := by
  simp only [isClassVisible, List.all_eq_true, mem_enclosingChain]

/-! ## One call -/

/-- A call asks of the class alone, and of the class around it only if that is to be said. -/
theorem askOutward_succ (store : Store) (view : Viewpoint) (calls : Nat) (id : ClassId) :
    store.askOutward view (calls + 1) id =
      match store.linked? ClassDef.enclosing id with
      | none => some (store.isLinkVisible view id)
      | some outer =>
        if store.isLinkVisible view id then store.askOutward view calls outer else some false := by
  rw [askOutward, linked?]
  cases stored : store.class? id with
  | none => simp [isLinkVisible, stored]
  | some definition =>
    cases enclosing : definition.enclosing <;> simp [isLinkVisible, stored, enclosing]

theorem askOutward_of_inside (inside : store.InsideOf id outer)
    (visible : store.isLinkVisible view id = true) :
    store.askOutward view (calls + 1) id = store.askOutward view calls outer := by
  rw [askOutward_succ, inside]
  exact if_pos visible

/-- At an end there is an answer. -/
theorem askOutward_of_endsAt (ends : store.EndsAt view id) :
    store.askOutward view (calls + 1) id = some (store.isLinkVisible view id) := by
  rw [askOutward_succ]
  rcases ends with outside | hidden
  · rw [outside]
  · rw [hidden]
    split <;> rfl

/-- A class is an end, or the question goes on. -/
theorem endsAt_or_inside (store : Store) (view : Viewpoint) (id : ClassId) :
    store.EndsAt view id ∨
      ∃ outer, store.InsideOf id outer ∧ store.isLinkVisible view id = true := by
  cases linked : store.linked? ClassDef.enclosing id with
  | none => exact .inl (.inl linked)
  | some outer =>
    cases visible : store.isLinkVisible view id with
    | false => exact .inl (.inr visible)
    | true => exact .inr ⟨outer, linked, rfl⟩

/-- The guarded search answers in the same steps. -/
theorem isClassVisible_of_inside (inside : store.InsideOf id outer)
    (visible : store.isLinkVisible view id = true) :
    store.isClassVisible id view = store.isClassVisible outer view := by
  rw [Bool.eq_iff_iff, isClassVisible_iff_forall, isClassVisible_iff_forall]
  constructor
  · intro all last path
    exact all last (.head inside path)
  · intro all last path
    rcases ReflTransGen.cases_head path with rfl | ⟨next, first, path⟩
    · exact visible
    · have same : next = outer := Option.some.inj (first.symm.trans inside)
      exact all last (same ▸ path)

theorem isClassVisible_of_endsAt (ends : store.EndsAt view id) :
    store.isClassVisible id view = store.isLinkVisible view id := by
  rw [Bool.eq_iff_iff, isClassVisible_iff_forall]
  constructor
  · intro all
    exact all id .refl
  · intro visible last path
    rcases ReflTransGen.cases_head path with rfl | ⟨next, first, -⟩
    · exact visible
    · have outside := ends.resolve_right (by rw [visible]; decide)
      rw [InsideOf, outside] at first
      exact absurd first (Option.some_ne_none next).symm

/-! ## All calls -/

/-- An answer stays the same if more calls are allowed. -/
theorem askOutward_mono {more : Nat} (answered : store.askOutward view calls id = some answer)
    (le : calls ≤ more) : store.askOutward view more id = some answer := by
  induction calls generalizing id more with
  | zero => exact absurd answered (Option.some_ne_none answer).symm
  | succ calls ih =>
    obtain ⟨more, rfl⟩ : ∃ k, more = k + 1 := ⟨more - 1, by omega⟩
    rcases store.endsAt_or_inside view id with ends | ⟨outer, inside, visible⟩
    · rw [askOutward_of_endsAt ends] at answered ⊢
      exact answered
    · rw [askOutward_of_inside inside visible] at answered ⊢
      exact ih answered (by omega)

/-- An answer is that of the guarded search. -/
theorem isClassVisible_of_askOutward (answered : store.askOutward view calls id = some answer) :
    store.isClassVisible id view = answer := by
  induction calls generalizing id with
  | zero => exact absurd answered (Option.some_ne_none answer).symm
  | succ calls ih =>
    rcases store.endsAt_or_inside view id with ends | ⟨outer, inside, visible⟩
    · rw [askOutward_of_endsAt ends] at answered
      rw [isClassVisible_of_endsAt ends]
      exact Option.some.inj answered
    · rw [askOutward_of_inside inside visible] at answered
      rw [isClassVisible_of_inside inside visible]
      exact ih answered

/-- The question returns exactly if the way outward reaches an end. -/
theorem exists_askOutward_iff :
    (∃ calls, (store.askOutward view calls id).isSome) ↔
      ∃ last, ReflTransGen store.InsideOf id last ∧ store.EndsAt view last := by
  constructor
  · rintro ⟨calls, answered⟩
    induction calls generalizing id with
    | zero => exact absurd answered Bool.false_ne_true
    | succ calls ih =>
      rcases store.endsAt_or_inside view id with ends | ⟨outer, inside, visible⟩
      · exact ⟨id, .refl, ends⟩
      · rw [askOutward_of_inside inside visible] at answered
        obtain ⟨last, path, ends⟩ := ih answered
        exact ⟨last, .head inside path, ends⟩
  · rintro ⟨last, path, ends⟩
    induction path using ReflTransGen.head_induction_on with
    | refl => exact ⟨1, by rw [askOutward_of_endsAt ends]; rfl⟩
    | @head id outer inside _ ih =>
      obtain ⟨calls, answered⟩ := ih
      refine ⟨calls + 1, ?_⟩
      cases visible : store.isLinkVisible view id with
      | false =>
        rw [askOutward_of_endsAt (.inr visible)]
        rfl
      | true => rwa [askOutward_of_inside inside visible]

/-! ## How many calls are enough -/

/-- The question takes a number of calls beside the first. -/
def TakesCalls (store : Store) (view : Viewpoint) (calls : Nat) (id : ClassId) : Prop :=
  store.askOutward view calls id = none ∧ (store.askOutward view (calls + 1) id).isSome

/-- A question that returns takes some number of calls. -/
theorem exists_takesCalls (answered : (store.askOutward view calls id).isSome) :
    ∃ taken, taken < calls ∧ store.TakesCalls view taken id := by
  induction calls with
  | zero => exact absurd answered Bool.false_ne_true
  | succ calls ih =>
    cases earlier : store.askOutward view calls id with
    | none => exact ⟨calls, Nat.lt_succ_self calls, earlier, answered⟩
    | some answer =>
      obtain ⟨taken, lt, takes⟩ := ih (by rw [earlier]; rfl)
      exact ⟨taken, Nat.lt_succ_of_lt lt, takes⟩

/-- It takes one number only. -/
theorem TakesCalls.unique {other : Nat} (takes : store.TakesCalls view calls id)
    (also : store.TakesCalls view other id) : calls = other := by
  have excluded : ∀ {fewer more : Nat}, store.TakesCalls view fewer id →
      store.TakesCalls view more id → ¬ fewer < more := by
    intro fewer more early late lt
    obtain ⟨answer, answered⟩ := Option.isSome_iff_exists.mp early.2
    exact absurd (askOutward_mono answered lt) (late.1 ▸ (Option.some_ne_none answer).symm)
  exact Nat.le_antisymm (Nat.not_lt.mp (excluded also takes)) (Nat.not_lt.mp (excluded takes also))

/-- The pigeonhole: a question asks of as many different stored classes as it takes calls beside the
last. -/
theorem exists_asked (takes : store.TakesCalls view calls id) :
    ∃ asked : List ClassId, asked.length = calls ∧ asked.Nodup ∧
      ∀ other ∈ asked, other ∈ store.ids ∧ ∃ fewer ≤ calls, store.TakesCalls view fewer other := by
  induction calls generalizing id with
  | zero => exact ⟨[], rfl, List.nodup_nil, fun _ mem => absurd mem List.not_mem_nil⟩
  | succ calls ih =>
    rcases store.endsAt_or_inside view id with ends | ⟨outer, inside, visible⟩
    · have early := takes.1
      rw [askOutward_of_endsAt ends] at early
      exact absurd early (Option.some_ne_none _)
    · have around : store.TakesCalls view calls outer := by
        have both := takes
        rw [TakesCalls, askOutward_of_inside inside visible,
          askOutward_of_inside inside visible] at both
        exact both
      obtain ⟨asked, length, distinct, each⟩ := ih around
      refine ⟨id :: asked, congrArg Nat.succ length, ?_, ?_⟩
      · -- a class that is asked of again would take fewer calls the second time
        refine List.nodup_cons.mpr ⟨fun again => ?_, distinct⟩
        obtain ⟨-, fewer, le, sooner⟩ := each id again
        have same := takes.unique sooner
        omega
      · intro other mem
        rcases List.mem_cons.mp mem with rfl | mem
        · exact ⟨mem_ids.mpr (class?_isSome_of_linked? inside), calls + 1, Nat.le_refl _, takes⟩
        · obtain ⟨stored, fewer, le, sooner⟩ := each other mem
          exact ⟨stored, fewer, Nat.le_succ_of_le le, sooner⟩

/-- If the question returns at all, it does within one call more than there are classes. -/
theorem visibility?_of_askOutward (answered : store.askOutward view calls id = some answer) :
    store.visibility? id view = some answer := by
  obtain ⟨taken, -, takes⟩ := exists_takesCalls (by rw [answered]; rfl)
  obtain ⟨asked, length, distinct, each⟩ := exists_asked takes
  have bound : asked.length ≤ store.ids.length :=
    (List.Nodup.subperm distinct fun other mem => (each other mem).1).length_le
  rw [length, ids, List.length_range] at bound
  obtain ⟨given, returned⟩ := Option.isSome_iff_exists.mp takes.2
  have enough : store.visibility? id view = some given :=
    askOutward_mono returned (Nat.succ_le_succ bound)
  have same : answer = given :=
    (isClassVisible_of_askOutward answered).symm.trans (isClassVisible_of_askOutward returned)
  rw [enough, same]

/-- Whether a class may be named is answered exactly if its way outward ends or comes to a class that
may not be named, and then as the guarded search answers it. -/
theorem class_visibility_returns_iff (store : Store) (id : ClassId) (view : Viewpoint)
    (answer : Bool) :
    (∃ calls, store.askOutward view calls id = some answer) ↔
      (∃ last, ReflTransGen store.InsideOf id last ∧ store.EndsAt view last) ∧
        store.isClassVisible id view = answer := by
  rw [← exists_askOutward_iff]
  constructor
  · rintro ⟨calls, answered⟩
    exact ⟨⟨calls, by rw [answered]; rfl⟩, isClassVisible_of_askOutward answered⟩
  · rintro ⟨⟨calls, answered⟩, guarded⟩
    obtain ⟨given, returned⟩ := Option.isSome_iff_exists.mp answered
    exact ⟨calls, returned.trans
      (congrArg some ((isClassVisible_of_askOutward returned).symm.trans guarded))⟩

/-- A class that is added inside itself has no way out: of it, the question never returns. -/
theorem self_enclosed_never_answered :
    let store := (CoreLibrary.store.addMember 22 (ClassDef.topLevel ⟨["A"]⟩)).1
    store.Built ∧ (∀ last, ReflTransGen store.InsideOf 22 last → store.InsideOf last 22) ∧
      ∀ (view : Viewpoint) (calls : Nat), store.askOutward view calls 22 = none := by
  intro store
  have inside : store.InsideOf 22 22 := by
    have linked : store.linked? ClassDef.enclosing 22 = some 22 := by decide +kernel
    exact linked
  have isPublic : (store.class? 22).any (fun definition =>
      definition.enclosing == some 22 && definition.modifiers.isPublic) = true := by
    decide +kernel
  refine ⟨Built.core.addMember 22 _, ?_, ?_⟩
  · intro last path
    have stays : last = 22 := by
      induction path with
      | refl => rfl
      | tail _ next ih =>
        rw [ih] at next
        exact Option.some.inj (next.symm.trans inside)
    rwa [stays]
  · intro view calls
    have visible : store.isLinkVisible view 22 = true := by
      obtain ⟨definition, stored, both⟩ := (Option.any_eq_true _ _).mp isPublic
      rw [Bool.and_eq_true, beq_iff_eq] at both
      simp [isLinkVisible, stored, both.1, isMemberVisible, both.2]
    induction calls with
    | zero => rfl
    | succ calls ih => rw [askOutward_of_inside inside visible, ih]

/-! ## Classes added behind those around them -/

/-- The core library with classes added to it, each outside any other or inside a class that is
stored by then. -/
inductive BuiltInOrder : Store → Prop
  | core : BuiltInOrder CoreLibrary.store
  | add {store : Store} (built : BuiltInOrder store) (definition : ClassDef)
      (around : ∀ outer ∈ definition.enclosing, (store.class? outer).isSome) :
      BuiltInOrder (store.add definition).1
  | addMember {store : Store} (built : BuiltInOrder store) {outer : ClassId}
      (stored : (store.class? outer).isSome) (definition : ClassDef) :
      BuiltInOrder (store.addMember outer definition).1

/-- Links outward lead to classes that were added before. -/
def LinksBackward (store : Store) : Prop :=
  ∀ id outer, store.InsideOf id outer → outer < id

/-- The step: an earlier class keeps its link, and the added one leads to a class that is there. -/
theorem LinksBackward.add (backward : store.LinksBackward) {definition : ClassDef}
    (around : ∀ outer ∈ definition.enclosing, (store.class? outer).isSome) :
    (store.add definition).1.LinksBackward := by
  have enclosing : ∀ (other : Store) (place : ClassId), other.linked? ClassDef.enclosing place =
      ((other.class? place).map ClassDef.placeOf).bind fun found => found.2.2 := by
    intro other place
    rw [linked?, Option.bind_map]
    rfl
  intro id outer inside
  rw [InsideOf, enclosing] at inside
  by_cases added : id = store.size
  · rw [added, class?_add_size, Option.map_some, placeOf_complete] at inside
    have stored := mem_ids.mpr (around outer inside)
    rw [added]
    exact List.mem_range.mp stored
  · rw [placeOf_add definition added, ← enclosing] at inside
    exact backward id outer inside

theorem enclosing_asMember (store : Store) (outer : ClassId) (definition : ClassDef) :
    (store.asMember outer definition).enclosing = some outer := rfl

/-- The run: in a store that is built in order, links lead backward. -/
theorem BuiltInOrder.linksBackward (built : store.BuiltInOrder) : store.LinksBackward := by
  induction built with
  | core =>
    have outermost : ∀ definition ∈ CoreLibrary.store.classes.toList,
        definition.enclosing = none := by decide +kernel
    intro id outer inside
    obtain ⟨definition, stored, enclosing⟩ := Option.bind_eq_some_iff.mp inside
    have mem : definition ∈ CoreLibrary.store.classes.toList :=
      List.mem_iff_getElem?.mpr ⟨id, by rwa [Array.getElem?_toList]⟩
    exact absurd (enclosing.symm.trans (outermost definition mem)) (Option.some_ne_none outer)
  | add _ definition around ih => exact ih.add around
  | @addMember store outer _ stored definition ih =>
    refine ih.add fun around mem => ?_
    rw [enclosing_asMember, Option.mem_some_iff] at mem
    exact mem ▸ stored

/-- In a store that is built in order the question always returns. -/
theorem visibility?_of_builtInOrder (built : store.BuiltInOrder) (id : ClassId)
    (view : Viewpoint) : store.visibility? id view = some (store.isClassVisible id view) := by
  have backward := built.linksBackward
  have ends : ∃ last, ReflTransGen store.InsideOf id last ∧ store.EndsAt view last := by
    induction id using Nat.strongRecOn with
    | ind id ih =>
      rcases store.endsAt_or_inside view id with ends | ⟨outer, inside, -⟩
      · exact ⟨id, .refl, ends⟩
      · obtain ⟨last, path, ends⟩ := ih outer (backward id outer inside)
        exact ⟨last, .head inside path, ends⟩
  obtain ⟨calls, answered⟩ := exists_askOutward_iff.mpr ends
  obtain ⟨given, returned⟩ := Option.isSome_iff_exists.mp answered
  rw [visibility?_of_askOutward returned, isClassVisible_of_askOutward returned]

end CodeAssist.Store
