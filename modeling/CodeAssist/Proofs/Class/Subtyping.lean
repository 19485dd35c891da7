import CodeAssist.Class.Subtyping
import CodeAssist.Proofs.Class.Ancestry
/-!
# Subtyping is a preorder

`Below` states the subtyping of erased types by rules, one for each way in which a value of one type
may stand where the other is asked for. The test decides it (`isErasedSubtype_iff`), and in a store
that was built by adding classes the rules compose (`Below.trans`). The one rule that needs such a
store is the one for arrays: what stands above `Object`, `Cloneable` and `Serializable` is again one
of these three, because adding classes gives none of them a supertype.

Types that could not be resolved stand outside: they are below nothing and above nothing. An array
of such a type is below itself, as the test compares arrays before it looks at their elements.
-/

namespace CodeAssist

open Relation (ReflTransGen)

/-! ## Primitive types -/

/-- What a type widens to widens to nothing new. -/
theorem Primitive.wider_subset {a b : Primitive} (wider : b ∈ a.wider) : b.wider ⊆ a.wider := by
  have all : ∀ b ∈ a.wider, b.wider ⊆ a.wider := by cases a <;> decide
  exact all b wider

theorem Primitive.widensTo_trans {a b c : Primitive} (hab : a.widensTo b = true)
    (hbc : b.widensTo c = true) : a.widensTo c = true := by
  simp only [widensTo, Bool.or_eq_true, beq_iff_eq, List.contains_iff_mem] at *
  rcases hab with rfl | hab
  · exact hbc
  · rcases hbc with rfl | hbc
    · exact .inr hab
    · exact .inr (wider_subset hab hbc)

/-! ## Erasure -/

/-- Erasing twice is erasing once. -/
@[simp] theorem TypeRef.erasure_erasure (type : TypeRef) : type.erasure.erasure = type.erasure := by
  fun_induction erasure type with
  | case1 => rfl
  | case2 element ih => rw [erasure, ih]
  | case3 _ bound ih => exact ih
  | case4 => rfl
  | case5 type notClass notArray bounded unbounded => rw [erasure] <;> assumption

namespace Store

variable {store : Store}

/-- The classes that every array type is below. -/
def IsAboveArrays (id : ClassId) : Prop := id = .object ∨ id = .cloneable ∨ id = .serializable

/-- The rules of subtyping for erased types. -/
inductive Below (store : Store) : TypeRef → TypeRef → Prop
  | same {type : TypeRef} (resolved : type.isErroneous = false) : Below store type type
  | widened {p q : Primitive} (wider : p.widensTo q = true) :
      Below store (.primitive p) (.primitive q)
  | null {sup : TypeRef} (reference : sup.isReference = true)
      (resolved : sup.isErroneous = false) : Below store .null sup
  | declared {a b : ClassId} {as bs : List TypeRef} (inherits : store.isSubclass a b = true) :
      Below store (.declared a as) (.declared b bs)
  | array {element : TypeRef} {id : ClassId} {arguments : List TypeRef} (above : IsAboveArrays id) :
      Below store (.array element) (.declared id arguments)
  | elements {a b : TypeRef} (first : a.isReference = true) (second : b.isReference = true)
      (below : Below store a b) : Below store (.array a) (.array b)

/-- The test accepts only what the rules allow. -/
theorem Below.of_isErasedSubtype {sub sup : TypeRef}
    (holds : store.isErasedSubtype sub sup = true) : store.Below sub sup := by
  fun_induction isErasedSubtype store sub sup with
  | case1 => exact .same rfl
  | case2 a id arguments => exact .array (by simpa [IsAboveArrays, or_assoc] using holds)
  | case3 p q => rw [beq_iff_eq.mp holds]; exact .same rfl
  | case4 a b _ _ ih =>
    simp only [Bool.and_eq_true] at holds
    exact .elements holds.1.1 holds.1.2 (ih holds.2)
  | case5 => cases holds
  | case6 type => exact .same (by simpa using holds)
  | case7 p q => exact .widened holds
  | case8 sup =>
    simp only [Bool.and_eq_true, Bool.not_eq_true'] at holds
    exact .null holds.1 holds.2
  | case9 => exact .declared holds
  | case10 => cases holds

/-- A type is below itself if it could be resolved. -/
theorem isErasedSubtype_self (store : Store) (type : TypeRef) :
    store.isErasedSubtype type type = !type.isErroneous := by
  unfold isErasedSubtype
  cases type <;> simp [TypeRef.isErroneous]

/-- The test accepts all that the rules allow. -/
theorem Below.isErasedSubtype {sub sup : TypeRef} (below : store.Below sub sup) :
    store.isErasedSubtype sub sup = true := by
  induction below with
  | same resolved => rw [isErasedSubtype_self, resolved, Bool.not_false]
  | widened wider =>
    simp only [Store.isErasedSubtype, wider]
    split <;> rfl
  | @null sup reference resolved =>
    simp only [Store.isErasedSubtype, reference, resolved]
    split <;> rfl
  | declared inherits =>
    simp only [Store.isErasedSubtype, inherits]
    split <;> rfl
  | array above =>
    simpa [Store.isErasedSubtype, IsAboveArrays, or_assoc] using above
  | @elements a b first second _ ih =>
    rw [Store.isErasedSubtype]
    · simp [first, second, ih]
    · rintro p q rfl
      cases first

/-- The test decides the rules. -/
theorem isErasedSubtype_iff {sub sup : TypeRef} :
    store.isErasedSubtype sub sup = true ↔ store.Below sub sup :=
  ⟨.of_isErasedSubtype, Below.isErasedSubtype⟩

/-! ## Composing subtypes -/

/-- Adding classes changes no supertype of a class of the core library. -/
theorem Built.directSupertypes_core (built : store.Built) {id : ClassId}
    (stored : (CoreLibrary.store.class? id).isSome) :
    (store.class? id).isSome ∧
      store.directSupertypes id = CoreLibrary.store.directSupertypes id := by
  induction built with
  | core => exact ⟨stored, rfl⟩
  | add _ definition ih =>
    exact ⟨class?_isSome_add definition ih.1, (directSupertypes_add definition ih.1).trans ih.2⟩
  | addMember _ outer definition ih =>
    exact ⟨class?_isSome_add _ ih.1, (directSupertypes_add _ ih.1).trans ih.2⟩

/-- In a built store the classes above the arrays have no supertypes themselves. -/
theorem directSupertypes_of_isAboveArrays (built : store.Built) {id : ClassId}
    (above : IsAboveArrays id) : store.directSupertypes id = [] := by
  rcases above with rfl | rfl | rfl <;>
    exact (built.directSupertypes_core (by decide +kernel)).2.trans (by decide +kernel)

/-- What stands above every array stands below nothing else. -/
theorem IsAboveArrays.of_isSubclass (built : store.Built) {sub sup : ClassId}
    (above : IsAboveArrays sub) (inherits : store.isSubclass sub sup = true) :
    IsAboveArrays sup := by
  rcases isSubclass_iff.mp inherits with path | ⟨root, -⟩
  · rcases ReflTransGen.cases_head path with rfl | ⟨first, edge, -⟩
    · exact above
    · rw [namesSupertype_iff, directSupertypes_of_isAboveArrays built above] at edge
      exact absurd edge List.not_mem_nil
  · exact .inl root

/-- What stands above a type that was resolved was resolved. -/
theorem Below.resolved {sub sup : TypeRef} (below : store.Below sub sup) :
    sup.isErroneous = false := by
  cases below with
  | same resolved => exact resolved
  | null _ resolved => exact resolved
  | widened | declared | array | elements => rfl

/-- What stands above a reference type is one. -/
theorem Below.isReference {sub sup : TypeRef} (below : store.Below sub sup)
    (reference : sub.isReference = true) : sup.isReference = true := by
  cases below with
  | same => exact reference
  | widened => cases reference
  | null above => exact above
  | declared | array | elements => rfl

theorem Below.trans (built : store.Built) {a b c : TypeRef} (hab : store.Below a b)
    (hbc : store.Below b c) : store.Below a c := by
  induction hab generalizing c with
  | same => exact hbc
  | widened first =>
    cases hbc with
    | same => exact .widened first
    | widened second => exact .widened (Primitive.widensTo_trans first second)
  | null reference _ => exact .null (hbc.isReference reference) hbc.resolved
  | declared first =>
    cases hbc with
    | same => exact .declared first
    | declared second => exact .declared (isSubclass_trans built.rootedAtObject first second)
  | array above =>
    cases hbc with
    | same => exact .array above
    | declared second => exact .array (above.of_isSubclass built second)
  | elements first second below ih =>
    cases hbc with
    | same => exact .elements first second below
    | array above => exact .array above
    | elements _ third next => exact .elements first third (ih next)

/-! ## Types that are not erased -/

theorem isSubtype_iff {sub sup : TypeRef} :
    store.isSubtype sub sup = true ↔ store.Below sub.erasure sup.erasure :=
  isErasedSubtype_iff

/-- In a store that was built by adding classes, being a subclass and being a subtype are
preorders, the latter on the types that could be resolved; and subtyping looks at erasures only. -/
theorem subtyping_is_preorder (built : store.Built) :
    (∀ id, store.isSubclass id id = true) ∧
    (∀ a b c, store.isSubclass a b = true → store.isSubclass b c = true →
      store.isSubclass a c = true) ∧
    (∀ a b c, store.isSubtype a b = true → store.isSubtype b c = true →
      store.isSubtype a c = true) ∧
    (∀ type, store.isSubtype type type = true ↔
      (∀ text, type.erasure ≠ .named text) ∧ type.erasure ≠ .unknown) ∧
    (∀ a b, store.isSubtype a.erasure b = store.isSubtype a b ∧
      store.isSubtype a b.erasure = store.isSubtype a b) ∧
    ∀ type : TypeRef, type.erasure.erasure = type.erasure := by
  refine ⟨isSubclass_refl store, fun a b c => isSubclass_trans built.rootedAtObject,
    fun a b c hab hbc => ?_, fun type => ?_, fun a b => ?_, TypeRef.erasure_erasure⟩
  · rw [isSubtype_iff] at *
    exact hab.trans built hbc
  · rw [isSubtype, isErasedSubtype_self]
    cases type.erasure <;> simp [TypeRef.isErroneous]
  · simp only [isSubtype, TypeRef.erasure_erasure, and_self]

/-- A store in which two classes inherit from each other, and one of them from an interface that is
not stored. -/
def withCircle : Store :=
  let first : ClassDef :=
    { ClassDef.topLevel ⟨["app", "First"]⟩ with
      superclass := some (.plain (CoreLibrary.store.size + 1))
      interfaces := [.plain 99] }
  let second : ClassDef :=
    { ClassDef.topLevel ⟨["app", "Second"]⟩ with
      superclass := some (.plain CoreLibrary.store.size) }
  ((CoreLibrary.store.add first).1.add second).1

/-- Arrays of the second class are arrays of the missing interface, through arrays of the first. -/
theorem arrays_in_circle_compose :
    withCircle.Built ∧
    withCircle.isSubtype (.array (.plain 23)) (.array (.plain 22)) = true ∧
    withCircle.isSubtype (.array (.plain 22)) (.array (.plain 99)) = true ∧
    withCircle.isSubtype (.array (.plain 23)) (.array (.plain 99)) = true := by
  have built : withCircle.Built := (Built.core.add _).add _
  have below : ∀ sub sup : ClassId, sup ∈ withCircle.directSupertypes sub →
      withCircle.isSubtype (.array (.plain sub)) (.array (.plain sup)) = true :=
    fun _ _ edge => isSubtype_iff.mpr (.elements rfl rfl
      (.declared (isSubclass_iff.mpr (.inl (.single (namesSupertype_iff.mpr edge))))))
  have first := below 23 22 (by decide +kernel)
  have second := below 22 99 (by decide +kernel)
  exact ⟨built, first, second, (subtyping_is_preorder built).2.2.1 _ _ _ first second⟩

end Store

end CodeAssist
