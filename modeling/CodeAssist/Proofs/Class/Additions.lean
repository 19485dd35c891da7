import CodeAssist.Proofs.Class.Ancestry
/-!
# What adding a class changes

A class that is added stands behind all others, completed with its implicit members, and the class
around it takes note of it; nothing else changes (`class?_add`). So what was said of the name, the
package and the enclosing class of an earlier class still holds (`placeOf_add`), and the new class
has those of its definition (`placeOf_complete`).
-/

namespace CodeAssist

/-- Where a class belongs: its name, its package and the class around it. -/
def ClassDef.placeOf (definition : ClassDef) : QualifiedName × QualifiedName × Option ClassId :=
  (definition.name, definition.package, definition.enclosing)

namespace ClassDef

/-- A method added does not move its class. -/
@[simp] theorem placeOf_addMissing (method : Method) (definition : ClassDef) :
    (definition.addMissing method).placeOf = definition.placeOf := by
  unfold addMissing
  split <;> rfl

theorem placeOf_addComponent (definition : ClassDef) (component : Component) :
    (definition.addComponent component).placeOf = definition.placeOf := by
  unfold addComponent
  dsimp only
  rw [placeOf_addMissing]
  split <;> rfl

theorem placeOf_foldl_addComponent (components : List Component) (definition : ClassDef) :
    (components.foldl addComponent definition).placeOf = definition.placeOf := by
  induction components generalizing definition with
  | nil => rfl
  | cons component components ih => rw [List.foldl_cons, ih, placeOf_addComponent]

/-- Completing a record does not move it. -/
theorem placeOf_completeRecord (definition : ClassDef) :
    definition.completeRecord.placeOf = definition.placeOf := by
  have canonical : ∀ other : ClassDef, other.addCanonicalConstructor.placeOf = other.placeOf := by
    intro other
    unfold addCanonicalConstructor
    split <;> rfl
  unfold completeRecord
  dsimp only
  rw [placeOf_addMissing, placeOf_addMissing, placeOf_addMissing, canonical,
    placeOf_foldl_addComponent]
  rfl

/-- What is filled in leaves a class where it is. -/
theorem placeOf_completeMembers (id : ClassId) (definition : ClassDef) :
    (definition.completeMembers id).placeOf = definition.placeOf := by
  unfold completeMembers
  split
  · unfold completeEnumeration
    dsimp only
    rw [placeOf_addMissing, placeOf_addMissing]
    rfl
  · exact placeOf_completeRecord definition
  · rfl
  · rfl
  · unfold completeClass
    split <;> rfl

/-- Filling in the superclass does not move a class. -/
theorem placeOf_completeSuperclass (id : ClassId) (definition : ClassDef) :
    (definition.completeSuperclass id).placeOf = definition.placeOf := by
  unfold completeSuperclass
  split
  · rfl
  · split <;> rfl

end ClassDef

namespace Store

/-- A class stands where its declaration puts it, whatever is added to it. -/
theorem placeOf_complete (store : Store) (id : ClassId) (definition : ClassDef) :
    (store.complete id definition).placeOf = definition.placeOf := by
  rw [complete, ClassDef.placeOf_completeMembers]
  split
  · rfl
  · exact ClassDef.placeOf_completeSuperclass id definition

/-- A member type does not move the class around it. -/
@[simp] theorem placeOf_addMemberType (id : ClassId) (outer : ClassDef) :
    (addMemberType id outer).placeOf = outer.placeOf := by
  unfold addMemberType
  split <;> rfl

variable {store : Store}

/-- The added class stands behind all others, and the class around it takes note of it. -/
theorem class?_add (store : Store) (definition : ClassDef) (id : ClassId) :
    (store.add definition).1.class? id =
      if id = store.size then some (store.complete store.size definition)
      else (store.class? id).map fun earlier =>
        if definition.enclosing = some id then addMemberType store.size earlier else earlier := by
  have pushed : ∀ (linked : Store) (added : ClassDef), linked.size = store.size →
      (⟨linked.classes.push added⟩ : Store).class? id =
        if id = store.size then some added else linked.class? id := by
    intro linked added same
    rw [class?, Array.getElem?_push, ← same]
    rfl
  unfold add
  dsimp only
  cases enclosing : definition.enclosing with
  | none =>
    rw [pushed store _ rfl]
    split
    · rfl
    · simp
  | some outer =>
    rw [pushed _ _ (by simp [size, modify]), class?_modify]
    simp

/-- The class that was added. -/
theorem class?_add_size (store : Store) (definition : ClassDef) :
    (store.add definition).1.class? store.size =
      some (store.complete store.size definition) := by
  rw [class?_add, if_pos rfl]

/-- No class is stored behind the last one. -/
theorem class?_eq_none_of_size_le {id : ClassId} (behind : store.size ≤ id) :
    store.class? id = none := by
  rw [class?, Array.getElem?_eq_none_iff]
  exact behind

/-- An earlier class stays where it belongs. -/
theorem placeOf_add (definition : ClassDef) {id : ClassId} (other : id ≠ store.size) :
    ((store.add definition).1.class? id).map ClassDef.placeOf =
      (store.class? id).map ClassDef.placeOf := by
  rw [class?_add, if_neg other, Option.map_map]
  refine congrArg (fun f => Option.map f (store.class? id)) (funext fun earlier => ?_)
  rw [Function.comp_apply]
  split
  · exact placeOf_addMemberType store.size earlier
  · rfl

end Store

end CodeAssist
