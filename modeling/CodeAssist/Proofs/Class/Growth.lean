import CodeAssist.Proofs.Class.Additions
import CodeAssist.Proofs.Class.Names
/-!
# Growing a store from the outside inward

A store *grows* from the core library by classes outside any other, each in the package that its name
says, and by members of classes that are stored. A member is named downward: its name is that of the
class around it with one more segment. So every class of a grown store is named for its place
(`Grown.wellNested`), which an addition can only confirm, because earlier classes stay where they
are (`placesRightly_add`). Going outward from a class, names lose one segment at a time, down to the
package; that counts the classes around it (`WellNested.length_enclosingChain`).
-/

namespace CodeAssist

/-- A name with segments is its container with its last segment. -/
theorem QualifiedName.child_container {name : QualifiedName} (nonempty : name.segments ≠ []) :
    name.container.child name.simple = name := by
  have last : name.simple = name.segments.getLast nonempty := by
    rw [simple, last?, List.getLast?_eq_some_getLast nonempty, Option.getD_some]
  rw [child, container, last, List.dropLast_concat_getLast]

namespace Store

variable {store : Store} {definition : ClassDef} {id outer : ClassId}

/-- The core library with classes added from the outside inward. -/
inductive Grown : Store → Prop
  | core : Grown CoreLibrary.store
  /-- A class outside any other; its package is its name without the last segment. -/
  | topLevel {store : Store} (grown : Grown store) {definition : ClassDef}
      (nonempty : definition.name.segments ≠ [])
      (package : definition.package = definition.name.container)
      (alone : definition.enclosing = none) : Grown (store.add definition).1
  /-- A member of a stored class. -/
  | member {store : Store} (grown : Grown store) {outer : ClassId}
      (stored : (store.class? outer).isSome) (definition : ClassDef) :
      Grown (store.addMember outer definition).1

/-! ## Names say where classes are -/

/-- Whether a class is named for its place does not change with what is added. -/
theorem placesRightly_add {added other : ClassDef} (same : other.placeOf = added.placeOf)
    (definition : ClassDef) (rightly : store.placesRightly added = true) :
    (store.add definition).1.placesRightly other = true := by
  simp only [ClassDef.placeOf, Prod.mk.injEq] at same
  obtain ⟨name, package, enclosing⟩ := same
  unfold placesRightly at rightly ⊢
  rw [ClassDef.simpleName] at rightly ⊢
  rw [name, package, enclosing]
  cases inside : added.enclosing with
  | none => simpa only [inside] using rightly
  | some outer =>
    simp only [inside, Option.any_eq_true] at rightly ⊢
    obtain ⟨around, stored, named⟩ := rightly
    have earlier : outer ≠ store.size := by
      rintro rfl
      rw [class?_eq_none_of_size_le (Nat.le_refl _)] at stored
      exact absurd stored (Option.some_ne_none around).symm
    have kept : ((store.add definition).1.class? outer).map ClassDef.placeOf =
        (store.class? outer).map ClassDef.placeOf := placeOf_add definition earlier
    rw [stored, Option.map_some] at kept
    obtain ⟨linked, held, place⟩ := Option.map_eq_some_iff.mp kept
    simp only [ClassDef.placeOf, Prod.mk.injEq] at place
    refine ⟨linked, held, ?_⟩
    rw [place.1, place.2.1]
    exact named

/-- The step: a class that is named for its place joins others that are. -/
theorem WellNested.add (nested : store.WellNested)
    (rightly : store.placesRightly definition = true) :
    (store.add definition).1.WellNested := by
  intro other mem
  obtain ⟨id, stored⟩ := mem_classes.mp mem
  by_cases added : id = store.size
  · rw [added, class?_add_size, Option.some_inj] at stored
    exact placesRightly_add (stored ▸ placeOf_complete store store.size definition) definition
      rightly
  · have kept : ((store.add definition).1.class? id).map ClassDef.placeOf =
        (store.class? id).map ClassDef.placeOf := placeOf_add definition added
    rw [stored, Option.map_some] at kept
    obtain ⟨earlier, held, place⟩ := Option.map_eq_some_iff.mp kept.symm
    exact placesRightly_add place.symm definition (nested earlier (mem_classes.mpr ⟨id, held⟩))

/-- A member of a stored class takes its name and its package from there. -/
theorem placesRightly_asMember (stored : (store.class? outer).isSome) (definition : ClassDef) :
    store.placesRightly (store.asMember outer definition) = true := by
  obtain ⟨around, held⟩ := Option.isSome_iff_exists.mp stored
  simp [placesRightly, asMember, held, ClassDef.simpleName]

/-- The run: in a grown store every class is named for its place. -/
theorem Grown.wellNested (grown : store.Grown) : store.WellNested := by
  induction grown with
  | core => decide +kernel
  | topLevel _ nonempty package alone ih =>
    refine ih.add ?_
    rw [placesRightly, alone]
    dsimp only
    rw [package, ClassDef.simpleName, QualifiedName.child_container nonempty]
    exact beq_self_eq_true _
  | member _ stored definition ih => exact ih.add (placesRightly_asMember stored definition)

/-! ## The way outward -/

/-- Following a link: to the next class, if there is one. -/
theorem followFrom_of_fresh {link : ClassDef → Option ClassId} {visited : List ClassId}
    (fresh : id ∉ visited) :
    store.followFrom link visited id =
      id :: ((store.linked? link id).elim [] fun next =>
        store.followFrom link (id :: visited) next) := by
  rw [followFrom, if_neg (by simpa using fresh)]
  split <;> simp [*]

/-- A class has as many segments beyond its package as there are classes on the way outward, itself
included. -/
theorem WellNested.length_enclosingChain (nested : store.WellNested)
    (stored : store.class? id = some definition) :
    definition.name.length = definition.package.length + (store.enclosingChain id).length := by
  -- what was visited has longer names, so the way outward meets none of it
  have walk : ∀ visited : List ClassId, (∀ seen ∈ visited, ∃ inner,
      store.class? seen = some inner ∧ definition.name.length < inner.name.length) →
      definition.name.length = definition.package.length +
        (store.followFrom ClassDef.enclosing visited id).length := by
    induction size : definition.name.length using Nat.strongRecOn generalizing id definition with
    | ind size ih =>
      subst size
      intro visited longer
      have fresh : id ∉ visited := by
        intro seen
        obtain ⟨inner, again, lt⟩ := longer id seen
        rw [stored, Option.some_inj] at again
        exact absurd lt (again ▸ Nat.lt_irrefl _)
      have linked : store.linked? ClassDef.enclosing id = definition.enclosing := by
        rw [linked?, stored, Option.bind_some]
      rw [followFrom_of_fresh fresh, List.length_cons, linked]
      cases enclosing : definition.enclosing with
      | none =>
        have named := congrArg QualifiedName.length (nested.topLevel stored enclosing)
        rwa [QualifiedName.length_child] at named
      | some outer =>
        obtain ⟨around, held, package, named⟩ := nested.member stored enclosing
        have one := congrArg QualifiedName.length named
        rw [QualifiedName.length_child] at one
        have outward := ih around.name.length (by omega) held rfl (id :: visited) (by
          intro seen mem
          rcases List.mem_cons.mp mem with rfl | mem
          · exact ⟨definition, stored, by omega⟩
          · obtain ⟨inner, kept, lt⟩ := longer seen mem
            exact ⟨inner, kept, by omega⟩)
        rw [Option.elim_some, package]
        omega
  exact walk [] fun _ mem => absurd mem List.not_mem_nil

end Store

end CodeAssist
