import CodeAssist.Class.CoreLibrary
import CodeAssist.Proofs.Class.Reachability
/-!
# Subclasses in stores that were built by adding classes

A store is *built* if it holds the core library and then classes that were added one after the
other, at the top level or as members of a class. Nothing is asked of the added classes: they may
inherit from themselves, from each other, or from places where no class is.

In a built store the root class names no supertype, because adding a class changes no supertype of
an earlier one. That is what makes `isSubclass` transitive: every stored class counts as a subclass
of the root class, also one that does not reach it, so a supertype of the root class would have to
be one of all classes.
-/

namespace CodeAssist.Store

open Relation (ReflTransGen)

/-- The core library with classes added to it. -/
inductive Built : Store → Prop
  | core : Built CoreLibrary.store
  | add {store : Store} (built : Built store) (definition : ClassDef) :
      Built (store.add definition).1
  | addMember {store : Store} (built : Built store) (outer : ClassId) (definition : ClassDef) :
      Built (store.addMember outer definition).1

/-! ## Adding a class -/

/-- A member type changes no supertype of the class around it. -/
@[simp] theorem directSupertypes_addMemberType (id : ClassId) (outer : ClassDef) :
    (addMemberType id outer).directSupertypes = outer.directSupertypes := by
  unfold addMemberType
  split <;> rfl

/-- A change concerns the class at its place. -/
theorem class?_modify (store : Store) (place id : ClassId) (change : ClassDef → ClassDef) :
    (store.modify place change).class? id =
      (store.class? id).map fun definition =>
        if place = id then change definition else definition := by
  simp only [class?, modify, Array.getElem?_modify]
  split <;> simp

/-- The class at a place that is in use stays there, but for its list of members. -/
theorem class?_add_of_isSome {store : Store} {id : ClassId} (definition : ClassDef)
    (stored : (store.class? id).isSome) :
    ∃ linked, (store.add definition).1.class? id = some linked ∧
      ∃ earlier, store.class? id = some earlier ∧
        linked.directSupertypes = earlier.directSupertypes := by
  obtain ⟨earlier, hearlier⟩ := Option.isSome_iff_exists.mp stored
  have hlt : id < store.classes.size := by
    simpa [class?] using stored
  cases henclosing : definition.enclosing with
  | none =>
    refine ⟨earlier, ?_, earlier, hearlier, rfl⟩
    simpa only [add, henclosing, class?, Array.getElem?_push_lt hlt,
      Array.getElem?_eq_getElem hlt] using hearlier
  | some outer =>
    refine ⟨if outer = id then addMemberType store.size earlier else earlier, ?_, earlier,
      hearlier, by split <;> simp⟩
    have hsize : id < (store.modify outer (addMemberType store.size)).classes.size := by
      simpa [modify] using hlt
    have hmodified := store.class?_modify outer id (addMemberType store.size)
    rw [hearlier, Option.map_some] at hmodified
    simpa only [add, henclosing, class?, Array.getElem?_push_lt hsize,
      Array.getElem?_eq_getElem hsize] using hmodified

/-- Adding a class removes none. -/
theorem class?_isSome_add {store : Store} {id : ClassId} (definition : ClassDef)
    (stored : (store.class? id).isSome) : ((store.add definition).1.class? id).isSome := by
  obtain ⟨linked, hlinked, -⟩ := class?_add_of_isSome definition stored
  simp [hlinked]

/-- Adding a class changes no supertype of an earlier one. -/
theorem directSupertypes_add {store : Store} {id : ClassId} (definition : ClassDef)
    (stored : (store.class? id).isSome) :
    (store.add definition).1.directSupertypes id = store.directSupertypes id := by
  obtain ⟨linked, hlinked, earlier, hearlier, same⟩ := class?_add_of_isSome definition stored
  simp only [directSupertypes, hlinked, hearlier, same]

/-! ## The root class -/

/-- The root class is stored and names no supertype. -/
def RootedAtObject (store : Store) : Prop :=
  (store.class? .object).isSome ∧ store.directSupertypes .object = []

theorem RootedAtObject.add {store : Store} (rooted : store.RootedAtObject)
    (definition : ClassDef) : (store.add definition).1.RootedAtObject :=
  ⟨class?_isSome_add definition rooted.1,
    (directSupertypes_add definition rooted.1).trans rooted.2⟩

/-- Adding classes leaves the root class without supertypes. -/
theorem RootedAtObject.addAll {store : Store} (rooted : store.RootedAtObject)
    (definitions : List ClassDef) : (store.addAll definitions).RootedAtObject := by
  induction definitions generalizing store with
  | nil => exact rooted
  | cons definition definitions ih => exact ih (rooted.add definition)

/-- In a built store the root class names no supertype. -/
theorem Built.rootedAtObject {store : Store} (built : store.Built) : store.RootedAtObject := by
  induction built with
  | core =>
    -- the first class of the library is the root class; all others are added behind it
    have first : (({} : Store).add CoreLibrary.object).1.RootedAtObject := ⟨rfl, rfl⟩
    exact first.addAll CoreLibrary.classes.tail
  | add _ definition ih => exact ih.add definition
  | addMember _ outer definition ih => exact ih.add _

/-! ## Subclasses -/

/-- What inherits from another class is stored. -/
theorem class?_isSome_of_reaches {store : Store} {sub sup : ClassId}
    (path : ReflTransGen store.NamesSupertype sub sup) (hne : sub ≠ sup) :
    (store.class? sub).isSome := by
  obtain ⟨first, edge, -⟩ := (ReflTransGen.cases_head path).resolve_left hne
  exact class?_isSome_of_directSupertypes_ne_nil (List.ne_nil_of_mem (namesSupertype_iff.mp edge))

/-- A class is a subclass of what it reaches, and every stored class is one of the root class. -/
theorem isSubclass_iff {store : Store} {sub sup : ClassId} :
    store.isSubclass sub sup = true ↔
      ReflTransGen store.NamesSupertype sub sup ∨ sup = .object ∧ (store.class? sub).isSome := by
  unfold isSubclass
  split
  next same => subst same; simp [ReflTransGen.refl]
  next hne =>
    split
    next root =>
      constructor
      · intro stored
        exact .inr ⟨root, stored⟩
      · rintro (path | ⟨-, stored⟩)
        · exact class?_isSome_of_reaches path hne
        · exact stored
    next other =>
      simp only [List.contains_iff_mem, mem_supertypes, other, false_and, or_false]
      exact and_iff_right (Ne.symm hne)

@[simp] theorem isSubclass_refl (store : Store) (id : ClassId) : store.isSubclass id id = true := by
  simp [isSubclass]

/-- Above the root class there is nothing else. -/
theorem eq_object_of_reaches {store : Store} (rooted : store.RootedAtObject) {sup : ClassId}
    (path : ReflTransGen store.NamesSupertype .object sup) : sup = .object := by
  rcases ReflTransGen.cases_head path with same | ⟨first, edge, -⟩
  · exact same.symm
  · rw [namesSupertype_iff, rooted.2] at edge
    exact absurd edge List.not_mem_nil

/-- Where nothing is above the root class, subclasses of subclasses are subclasses. -/
theorem isSubclass_trans {store : Store} (rooted : store.RootedAtObject) {a b c : ClassId}
    (hab : store.isSubclass a b = true) (hbc : store.isSubclass b c = true) :
    store.isSubclass a c = true := by
  rw [isSubclass_iff] at hab hbc ⊢
  rcases hab with hab | ⟨rfl, stored⟩
  · rcases hbc with hbc | ⟨rfl, stored⟩
    · exact .inl (hab.trans hbc)
    · by_cases same : a = b
      · exact .inr ⟨rfl, same ▸ stored⟩
      · exact .inr ⟨rfl, class?_isSome_of_reaches hab same⟩
  · rcases hbc with hbc | ⟨rfl, -⟩
    · exact .inr ⟨eq_object_of_reaches rooted hbc, stored⟩
    · exact .inr ⟨rfl, stored⟩

/-- The first class is a subclass of the second, and not the other way around. -/
def ProperSubclass (store : Store) (sub sup : ClassId) : Prop :=
  store.isSubclass sub sup = true ∧ store.isSubclass sup sub = false

theorem ProperSubclass.ne {store : Store} {sub sup : ClassId}
    (proper : store.ProperSubclass sub sup) : sub ≠ sup := by
  rintro rfl
  simp [ProperSubclass] at proper

/-- Where nothing is above the root class, proper subclasses of proper subclasses are proper
subclasses. -/
theorem ProperSubclass.trans {store : Store} (rooted : store.RootedAtObject) {a b c : ClassId}
    (hab : store.ProperSubclass a b) (hbc : store.ProperSubclass b c) :
    store.ProperSubclass a c := by
  refine ⟨isSubclass_trans rooted hab.1 hbc.1, ?_⟩
  cases hca : store.isSubclass c a with
  | false => rfl
  | true =>
    have back : store.isSubclass c b = true := isSubclass_trans rooted hca hab.1
    exact absurd (back.symm.trans hbc.2) (by decide)

/-! ## What members are inherited from -/

/-- A class inherits members from its superclasses, from the interfaces that it or one of these
reaches, and from the root class. -/
def InheritsFrom (store : Store) (id owner : ClassId) : Prop :=
  owner = .object ∨ ∃ base, ReflTransGen store.Extends id base ∧
    ReflTransGen store.Implements base owner

/-- What is not stored names no classes, so it inherits from the root class alone. -/
theorem InheritsFrom.of_absent {store : Store} {id owner : ClassId}
    (inherits : store.InheritsFrom id owner) (absent : store.class? id = none) :
    owner = .object ∨ owner = id := by
  refine inherits.imp_right ?_
  rintro ⟨base, chain, path⟩
  rcases chain.cases_head with rfl | ⟨superclass, linked, -⟩
  · rcases path.cases_head with same | ⟨iface, linked, -⟩
    · exact same.symm
    · obtain ⟨_, _, stored, -⟩ := linked
      exact absurd (absent.symm.trans stored) nofun
  · obtain ⟨_, _, stored, -⟩ := linked
    exact absurd (absent.symm.trans stored) nofun

/-! ## What the class of texts inherits from -/

/-- The class of texts names the root class and three interfaces, and these name nothing. -/
theorem layout_string :
    [ClassId.string, .object, .serializable, .charSequence, .comparable].Nodup ∧
      (CoreLibrary.store.directSupertypes .string =
          [.object, .serializable, .charSequence, .comparable] ∧
        CoreLibrary.store.directSupertypes .object = [] ∧
        CoreLibrary.store.directSupertypes .serializable = [] ∧
        CoreLibrary.store.directSupertypes .charSequence = [] ∧
        CoreLibrary.store.directSupertypes .comparable = []) ∧
      (CoreLibrary.store.directInterfaces .string = [.serializable, .charSequence, .comparable] ∧
        CoreLibrary.store.directInterfaces .object = [] ∧
        CoreLibrary.store.directInterfaces .serializable = [] ∧
        CoreLibrary.store.directInterfaces .charSequence = [] ∧
        CoreLibrary.store.directInterfaces .comparable = []) ∧
      CoreLibrary.store.superclassChain .string = [.string, .object] := by
  decide +kernel

/-- The class of texts names three interfaces itself, and they name no others. -/
theorem interfaceRoutes_string : CoreLibrary.store.interfaceRoutes .string .string =
    [(.serializable, [.string, .serializable]), (.charSequence, [.string, .charSequence]),
      (.comparable, [.string, .comparable])] := by
  obtain ⟨differ, -, interfaces, chain⟩ := layout_string
  simp only [List.nodup_cons, List.mem_cons, List.not_mem_nil, or_false, not_or] at differ
  simp [interfaceRoutes, interfacesFrom, chain, interfaces, differ, Ne.symm]

theorem supertypes_string : CoreLibrary.store.supertypes .string =
    [.object, .serializable, .charSequence, .comparable] := by
  obtain ⟨differ, named, -⟩ := layout_string
  simp only [List.nodup_cons, List.mem_cons, List.not_mem_nil, or_false, not_or] at differ
  simp [supertypes, reachedFrom, named, differ, Ne.symm]

end CodeAssist.Store
