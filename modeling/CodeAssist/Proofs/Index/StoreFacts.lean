import CodeAssist.Index.Search
import CodeAssist.Proofs.Class.Names
/-!
# The facts of a class store

The index of a store holds one fact for each class. A fact lists the classes around its class only
up to a limit; in a well-nested store that keeps within it, a fact has the name of its class
(`typeFact_name`).
-/

namespace CodeAssist.Index

variable {store : Store}

/-- No class is nested deeper than a fact can tell. -/
def WithinLimit (store : Store) : Prop :=
  ∀ definition ∈ store.classes.toList,
    definition.name.length ≤ definition.package.length + 1 + enclosingLimit

instance (store : Store) : Decidable (WithinLimit store) :=
  inferInstanceAs (Decidable (∀ definition ∈ store.classes.toList, _))

/-- The types of the index are the facts of the stored classes. -/
theorem mem_types_ofStore {fact : TypeFact} :
    fact ∈ (ofStore store).types ↔
      ∃ id definition, store.class? id = some definition ∧ fact = typeFact store definition := by
  show fact ∈ store.classes.toList.map (typeFact store) ↔ _
  rw [List.mem_map]
  constructor
  · rintro ⟨definition, mem, rfl⟩
    obtain ⟨id, stored⟩ := Store.mem_classes.mp mem
    exact ⟨id, definition, stored, rfl⟩
  · rintro ⟨id, definition, stored, rfl⟩
    exact ⟨definition, Store.mem_classes.mpr ⟨id, stored⟩, rfl⟩

/-- The names on the way out, read from the outside, lead from the package to the class. -/
theorem package_append_namesOutward (nested : store.WellNested) (steps : Nat) {id : ClassId}
    {definition : ClassDef} (stored : store.class? id = some definition)
    (near : definition.name.length ≤ definition.package.length + steps) :
    definition.package.segments ++ (namesOutward store steps (some id)).reverse =
      definition.name.segments := by
  induction steps generalizing id definition with
  | zero => exact absurd (nested.package_lt stored) (by omega)
  | succ steps ih =>
    rw [namesOutward, stored]
    dsimp only
    rw [List.reverse_cons, ← List.append_assoc]
    cases enclosing : definition.enclosing with
    | none =>
      have named := congrArg QualifiedName.segments (nested.topLevel stored enclosing)
      cases steps <;> simpa [namesOutward, QualifiedName.child] using named.symm
    | some outer =>
      obtain ⟨around, held, package, named⟩ := nested.member stored enclosing
      have longer := congrArg QualifiedName.length named
      rw [QualifiedName.length_child] at longer
      rw [package, ih held (by rw [package] at near; omega)]
      exact (congrArg QualifiedName.segments named).symm

/-- The fact of a class that is not nested too deep has its name. -/
theorem typeFact_name_of_near (nested : store.WellNested) {id : ClassId} {definition : ClassDef}
    (stored : store.class? id = some definition)
    (near : definition.name.length ≤ definition.package.length + 1 + enclosingLimit) :
    (typeFact store definition).name = definition.name := by
  have path := package_append_namesOutward nested (enclosingLimit + 1) stored (by omega)
  rw [namesOutward, stored] at path
  dsimp only at path
  rw [List.reverse_cons, ← List.append_assoc] at path
  exact congrArg QualifiedName.mk path

/-- A fact has the name of its class. -/
theorem typeFact_name (nested : store.WellNested) (limit : WithinLimit store) {id : ClassId}
    {definition : ClassDef} (stored : store.class? id = some definition) :
    (typeFact store definition).name = definition.name :=
  typeFact_name_of_near nested stored (limit definition (Store.mem_classes.mpr ⟨id, stored⟩))

/-- Facts of classes with different names have different names. -/
theorem nodup_names_ofStore (nested : store.WellNested) (limit : WithinLimit store)
    (distinct : store.DistinctNames) : ((ofStore store).types.map TypeFact.name).Nodup := by
  have names : (ofStore store).types.map TypeFact.name =
      store.classes.toList.map ClassDef.name := by
    show (store.classes.toList.map (typeFact store)).map TypeFact.name = _
    rw [List.map_map]
    refine List.map_congr_left fun definition mem => ?_
    obtain ⟨id, stored⟩ := Store.mem_classes.mp mem
    exact typeFact_name nested limit stored
  rw [names]
  exact distinct

end CodeAssist.Index
