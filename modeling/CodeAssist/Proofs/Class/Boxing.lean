import CodeAssist.Proofs.Class.Subtyping
/-!
# Boxing and erasure

A value that is not assignable as it is may be wrapped into an object of its wrapper class or
unwrapped from one (`isBoxingAssignable_iff`). Subtyping erases both types before it looks at them.
Boxing looks at the two types themselves. So it forgets type arguments, which it never reads, but it
does not see what a type variable stands for: a value of a variable is neither wrapped nor unwrapped,
whatever the bound is (`bounded_variable_is_not_unwrapped`). Everything else is answered as for the
erasures (`boxing_looks_at_erasures_unless_variable`). A variable as the target does no harm where
its bound is a reference type, because wrapping ends in a test for a subtype.
-/

namespace CodeAssist

namespace TypeRef

def isVariable : TypeRef → Bool
  | .variable _ _ => true
  | _ => false

/-- No erasure is a reference type unless the type was one. -/
theorem isReference_of_erasure {type : TypeRef} (reference : type.erasure.isReference = true) :
    type.isReference = true := by
  cases type with
  | void | primitive | unknown => exact reference
  | _ => rfl

/-- Erasing leaves wrapper classes and primitive types what they are, and makes no others but of
variables. -/
theorem erasure_of_not_isVariable {type : TypeRef} (constant : type.isVariable = false) :
    type.erasure.unboxed? = type.unboxed? ∧
      ∀ primitive, type.erasure = .primitive primitive ↔ type = .primitive primitive := by
  cases type with
  | «variable» => cases constant
  | _ => simp [erasure, plain, unboxed?]

end TypeRef

namespace Store

variable {store : Store} {source target : TypeRef}

/-- A primitive value can be wrapped for a target: its wrapper class is below the target. -/
def Wraps (store : Store) (source target : TypeRef) : Prop :=
  ∃ primitive, source = .primitive primitive ∧
    store.isSubtype (.boxed primitive) target = true

/-- An object of a wrapper class can be unwrapped, and widened, for a primitive target. -/
def Unwraps (source target : TypeRef) : Prop :=
  ∃ wrapped primitive, source.unboxed? = some wrapped ∧ target = .primitive primitive ∧
    wrapped.widensTo primitive = true

/-- What a wrapper class is below is a reference type. -/
theorem isReference_of_boxed {primitive : Primitive}
    (below : store.isSubtype (.boxed primitive) target = true) :
    target.erasure.isReference = true :=
  (isSubtype_iff.mp below).isReference rfl

/-- The two ways of boxing, each for what is no subtype. -/
theorem isBoxingAssignable_iff :
    store.isBoxingAssignable source target = true ↔
      store.isSubtype source target = false ∧
        (store.Wraps source target ∨ Unwraps source target) := by
  unfold isBoxingAssignable
  cases store.isSubtype source target with
  | true => simp
  | false =>
    simp only [Bool.false_eq_true, if_false, true_and]
    constructor
    · intro assignable
      split at assignable
      next primitive =>
        split at assignable
        · exact .inl ⟨primitive, rfl, assignable⟩
        · cases assignable
      next primitive _ =>
        obtain ⟨wrapped, unboxed, widens⟩ := Option.any_eq_true _ _ |>.mp assignable
        exact .inr ⟨wrapped, primitive, unboxed, rfl, widens⟩
      next => cases assignable
    · rintro (⟨primitive, rfl, wraps⟩ | ⟨wrapped, primitive, unboxed, rfl, widens⟩)
      · have reference := TypeRef.isReference_of_erasure (isReference_of_boxed wraps)
        simp only [reference, wraps, if_true]
      · cases source with
        | declared => simp only [unboxed, Option.any_some, widens]
        | _ => cases unboxed

/-! ## Erasures -/

/-- Wrapping looks at the erasure of the target, but sees no primitive type in a variable. -/
theorem wraps_iff_erasure :
    store.Wraps source target ↔
      store.Wraps source.erasure target.erasure ∧ source.isVariable = false := by
  have erased (type : TypeRef) :
      store.isSubtype type target.erasure = store.isSubtype type target := by
    rw [isSubtype, TypeRef.erasure_erasure, isSubtype]
  unfold Wraps
  simp only [erased]
  constructor
  · rintro ⟨primitive, rfl, below⟩
    exact ⟨⟨primitive, rfl, below⟩, rfl⟩
  · rintro ⟨⟨primitive, shape, below⟩, constant⟩
    exact ⟨primitive, ((TypeRef.erasure_of_not_isVariable constant).2 primitive).mp shape, below⟩

/-- Unwrapping sees neither a wrapper class nor a primitive type in a variable. -/
theorem unwraps_iff_erasure :
    Unwraps source target ↔
      Unwraps source.erasure target.erasure ∧ source.isVariable = false ∧
        target.isVariable = false := by
  constructor
  · rintro ⟨wrapped, primitive, unboxed, rfl, widens⟩
    have constant : source.isVariable = false := by
      cases source with
      | declared => rfl
      | _ => cases unboxed
    have same := (TypeRef.erasure_of_not_isVariable constant).1
    exact ⟨⟨wrapped, primitive, same.trans unboxed, rfl, widens⟩, constant, rfl⟩
  · rintro ⟨⟨wrapped, primitive, unboxed, shape, widens⟩, first, second⟩
    have same := (TypeRef.erasure_of_not_isVariable first).1
    exact ⟨wrapped, primitive, same.symm.trans unboxed,
      ((TypeRef.erasure_of_not_isVariable second).2 primitive).mp shape, widens⟩

/-- Boxing answers as for the erasures, except that it never applies to a value of a type variable,
nor to a target variable that stands for a primitive type; and it never holds together with
subtyping. -/
theorem boxing_looks_at_erasures_unless_variable (store : Store) (source target : TypeRef) :
    (store.isBoxingAssignable source target = true ↔
      store.isBoxingAssignable source.erasure target.erasure = true ∧ source.isVariable = false ∧
        (target.isVariable = true → target.erasure.isPrimitive = false)) ∧
    ¬ (store.isBoxingAssignable source target = true ∧ store.isSubtype source target = true) := by
  have same : store.isSubtype source.erasure target.erasure = store.isSubtype source target := by
    simp only [isSubtype, TypeRef.erasure_erasure]
  rw [isBoxingAssignable_iff, isBoxingAssignable_iff, same]
  refine ⟨⟨?_, ?_⟩, ?_⟩
  · rintro ⟨unrelated, wraps | unwraps⟩
    · obtain ⟨erased, constant⟩ := wraps_iff_erasure.mp wraps
      refine ⟨⟨unrelated, .inl erased⟩, constant, fun _ => ?_⟩
      obtain ⟨primitive, -, below⟩ := wraps
      have reference := isReference_of_boxed below
      cases shape : target.erasure with
      | primitive => rw [shape] at reference; cases reference
      | _ => rfl
    · obtain ⟨erased, first, second⟩ := unwraps_iff_erasure.mp unwraps
      refine ⟨⟨unrelated, .inr erased⟩, first, fun bounded => ?_⟩
      rw [second] at bounded
      cases bounded
  · rintro ⟨⟨unrelated, wraps | unwraps⟩, constant, bound⟩
    · exact ⟨unrelated, .inl (wraps_iff_erasure.mpr ⟨wraps, constant⟩)⟩
    · refine ⟨unrelated, .inr (unwraps_iff_erasure.mpr ⟨unwraps, constant, ?_⟩)⟩
      obtain ⟨-, primitive, -, shape, -⟩ := unwraps
      rw [Bool.eq_false_iff]
      intro bounded
      have reference := bound bounded
      rw [shape] at reference
      cases reference
  · rintro ⟨⟨unrelated, -⟩, related⟩
    rw [unrelated] at related
    cases related

/-- A primitive value is wrapped for a variable that is bounded by a generic interface. -/
theorem int_boxed_for_comparable_variable :
    CoreLibrary.store.isBoxingAssignable .int
        (.variable "T" (some (.declared .comparable [.variable "T" none]))) = true := by
  have edge : CoreLibrary.store.NamesSupertype (.box .int) .comparable :=
    namesSupertype_iff.mpr (by decide +kernel)
  have below : CoreLibrary.store.isSubtype (.boxed .int) (.plain .comparable) = true :=
    isSubtype_iff.mpr (.declared (isSubclass_iff.mpr (.inl (.single edge))))
  have wraps : CoreLibrary.store.isBoxingAssignable .int (.plain .comparable) = true :=
    isBoxingAssignable_iff.mpr ⟨by decide +kernel, .inl ⟨.int, rfl, below⟩⟩
  exact (boxing_looks_at_erasures_unless_variable CoreLibrary.store _ _).1.mpr
    ⟨wraps, rfl, fun _ => rfl⟩

/-- A value of a variable that is bounded by a wrapper class is not unwrapped, though one of its
erasure is. -/
theorem bounded_variable_is_not_unwrapped :
    CoreLibrary.store.Built ∧
      CoreLibrary.store.isBoxingAssignable (.variable "T" (some (.boxed .int))) .int = false ∧
      CoreLibrary.store.isBoxingAssignable (TypeRef.variable "T" (some (.boxed .int))).erasure
        TypeRef.int.erasure = true :=
  ⟨.core, by decide +kernel, by decide +kernel⟩

end Store

end CodeAssist
