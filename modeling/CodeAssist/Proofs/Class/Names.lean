import CodeAssist.Class.Store
import Mathlib.Data.List.Induction
import Mathlib.Data.List.Nodup
/-!
# The names of stored classes

A store may hold several classes of one name; where it does not, a class is determined by its name
(`DistinctNames.eq`).

A store is *well nested* if every class outside others lies directly in its package, and every other
class is named below the stored class around it and shares its package. Then no class contains
itself, because names get longer on the way in, and the package is a part of the name
(`WellNested.package_lt`).
-/

namespace CodeAssist

@[simp] theorem QualifiedName.length_child (name : QualifiedName) (segment : String) :
    (name.child segment).length = name.length + 1 := by
  simp [length, child]

/-- One more segment leaves the name that it was put behind. -/
@[simp] theorem QualifiedName.container_child (name : QualifiedName) (segment : String) :
    (name.child segment).container = name := by
  simp [child, container]

/-- The segment put behind a name is the simple name. -/
@[simp] theorem QualifiedName.simple_child (name : QualifiedName) (segment : String) :
    (name.child segment).simple = segment := by
  simp [child, simple, last?]

namespace Store

variable {store : Store}

/-- No two stored classes have one name. -/
def DistinctNames (store : Store) : Prop := (store.classes.toList.map ClassDef.name).Nodup

instance (store : Store) : Decidable store.DistinctNames :=
  inferInstanceAs (Decidable (List.Nodup _))

/-- Where the names differ, two classes of one name are the same. -/
theorem DistinctNames.eq (distinct : store.DistinctNames) {first second : ClassId}
    {name : QualifiedName} (hfirst : store.name? first = some name)
    (hsecond : store.name? second = some name) : first = second := by
  have place : ∀ id, store.name? id = (store.classes.toList.map ClassDef.name)[id]? := by
    intro id
    simp [name?, class?]
  rw [place] at hfirst hsecond
  obtain ⟨inside, -⟩ := List.getElem?_eq_some_iff.mp hfirst
  exact (List.getElem?_inj inside distinct).mp (hfirst.trans hsecond.symm)

theorem mem_classes {definition : ClassDef} :
    definition ∈ store.classes.toList ↔ ∃ id, store.class? id = some definition := by
  simp [List.mem_iff_getElem?, class?]

/-! ## Nesting -/

/-- Whether a class is named for its place: in its package, or below the class around it. -/
def placesRightly (store : Store) (definition : ClassDef) : Bool :=
  match definition.enclosing with
  | none => definition.name == definition.package.child definition.simpleName
  | some outer =>
    (store.class? outer).any fun around =>
      definition.package == around.package
        && definition.name == around.name.child definition.simpleName

/-- Every class is named for its place. -/
def WellNested (store : Store) : Prop :=
  ∀ definition ∈ store.classes.toList, store.placesRightly definition = true

instance (store : Store) : Decidable store.WellNested :=
  inferInstanceAs (Decidable (∀ definition ∈ store.classes.toList, _))

namespace WellNested

variable {id outer : ClassId} {definition : ClassDef}

/-- A class with none around it is named after its package. -/
theorem topLevel (nested : store.WellNested) (stored : store.class? id = some definition)
    (alone : definition.enclosing = none) :
    definition.name = definition.package.child definition.simpleName := by
  have placed := nested definition (mem_classes.mpr ⟨id, stored⟩)
  simpa only [placesRightly, alone, beq_iff_eq] using placed

/-- A member class shares the package of the class around it and is named after that class. -/
theorem member (nested : store.WellNested) (stored : store.class? id = some definition)
    (inside : definition.enclosing = some outer) :
    ∃ around, store.class? outer = some around ∧ definition.package = around.package ∧
      definition.name = around.name.child definition.simpleName := by
  have placed := nested definition (mem_classes.mpr ⟨id, stored⟩)
  simpa only [placesRightly, inside, Option.any_eq_true, Bool.and_eq_true, beq_iff_eq] using placed

/-- A class has a longer name than its package. -/
theorem package_lt (nested : store.WellNested) (stored : store.class? id = some definition) :
    definition.package.length < definition.name.length := by
  -- the class around a class has a shorter name, so the way out comes to an end
  induction size : definition.name.length using Nat.strongRecOn generalizing id definition with
  | ind size ih =>
    subst size
    cases enclosing : definition.enclosing with
    | none =>
      have named := congrArg QualifiedName.length (nested.topLevel stored enclosing)
      rw [QualifiedName.length_child] at named
      omega
    | some outer =>
      obtain ⟨around, held, package, named⟩ := nested.member stored enclosing
      have longer := congrArg QualifiedName.length named
      rw [QualifiedName.length_child] at longer
      have shorter := ih around.name.length (by omega) held rfl
      rw [package]
      omega

/-- Every part of the name of a class that goes beyond its package is the name of a class around it,
or its own. -/
theorem exists_around (nested : store.WellNested) (stored : store.class? id = some definition)
    {before rest : List String} (path : definition.name.segments = before ++ rest)
    (beyond : definition.package.length < before.length) :
    ∃ outer around, store.class? outer = some around ∧ around.name = ⟨before⟩ := by
  induction rest using List.reverseRecOn generalizing id definition with
  | nil => exact ⟨id, definition, stored, congrArg QualifiedName.mk (by simpa using path)⟩
  | append_singleton rest last ih =>
    cases enclosing : definition.enclosing with
    | none =>
      have named := congrArg QualifiedName.length (nested.topLevel stored enclosing)
      have parts := congrArg List.length path
      rw [QualifiedName.length_child] at named
      rw [← QualifiedName.length, List.length_append, List.length_append] at parts
      exact absurd beyond (by simp only [List.length_singleton] at parts; omega)
    | some outer =>
      obtain ⟨around, held, package, named⟩ := nested.member stored enclosing
      rw [named, QualifiedName.child, ← List.append_assoc] at path
      exact ih held (List.append_inj_left' path rfl) (package ▸ beyond)

end WellNested

end Store

end CodeAssist
