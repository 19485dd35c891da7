import CodeAssist.Type.Primitive
/-!
# Type expressions

The types of fields, parameters and results. A class is referred to by its place in the class
store; an id may name no class at all. A type that is written in the source but belongs to no stored
class keeps its text.

*Erasure* forgets type arguments and replaces a type variable by its bound. Every comparison of
types in the library goes by erasures.
-/

namespace CodeAssist

/-- The place of a class in the class store. -/
abbrev ClassId := Nat

namespace ClassId

/-! The classes that the language itself refers to have fixed places. -/

def object : ClassId := 0
def serializable : ClassId := 1
def cloneable : ClassId := 2
def charSequence : ClassId := 3
def comparable : ClassId := 4
def string : ClassId := 5
def reflected : ClassId := 6
def number : ClassId := 7
def enumeration : ClassId := 16
def record : ClassId := 17
def throwable : ClassId := 18
def exception : ClassId := 19

/-- The wrapper class of a primitive type. -/
def box : Primitive → ClassId
  | .boolean => 8
  | .byte => 9
  | .short => 10
  | .char => 11
  | .int => 12
  | .long => 13
  | .float => 14
  | .double => 15

/-- The primitive type that a class wraps. -/
def unbox? (id : ClassId) : Option Primitive :=
  Primitive.all.find? fun primitive => box primitive == id

end ClassId

/-- A type expression. -/
inductive TypeRef where
  | void
  | null
  | primitive (primitive : Primitive)
  /-- A class with its type arguments. -/
  | declared (id : ClassId) (arguments : List TypeRef)
  | array (element : TypeRef)
  /-- A type variable with its upper bound. -/
  | variable (name : String) (bound : Option TypeRef)
  /-- A type that is written but not stored. -/
  | named (text : String)
  | unknown
deriving Repr, Inhabited

namespace TypeRef

/-! ## Equality -/

mutual

/-- Whether two type expressions are the same. -/
def same : TypeRef → TypeRef → Bool
  | .void, .void => true
  | .null, .null => true
  | .primitive p, .primitive q => p == q
  | .declared i as, .declared j bs => i == j && sameList as bs
  | .array a, .array b => same a b
  | .variable m a, .variable n b => m == n && sameOption a b
  | .named s, .named t => s == t
  | .unknown, .unknown => true
  | _, _ => false

def sameList : List TypeRef → List TypeRef → Bool
  | [], [] => true
  | a :: as, b :: bs => same a b && sameList as bs
  | _, _ => false

def sameOption : Option TypeRef → Option TypeRef → Bool
  | none, none => true
  | some a, some b => same a b
  | _, _ => false

end

mutual

/-- The comparison accepts a type and itself. -/
theorem same_self : ∀ a : TypeRef, same a a = true
  | .void => by simp [same]
  | .null => by simp [same]
  | .primitive _ => by simp [same]
  | .declared _ as => by simp [same, sameList_self as]
  | .array a => by simp [same, same_self a]
  | .variable _ b => by simp [same, sameOption_self b]
  | .named _ => by simp [same]
  | .unknown => by simp [same]

theorem sameList_self : ∀ as : List TypeRef, sameList as as = true
  | [] => by simp [sameList]
  | a :: as => by simp [sameList, same_self a, sameList_self as]

theorem sameOption_self : ∀ a : Option TypeRef, sameOption a a = true
  | none => by simp [sameOption]
  | some a => by simp [sameOption, same_self a]

end

mutual

/-- The comparison accepts only equal types. -/
theorem eq_of_same : ∀ {a b : TypeRef}, same a b = true → a = b
  | .void, b, h => by cases b <;> simp_all [same]
  | .null, b, h => by cases b <;> simp_all [same]
  | .primitive _, b, h => by cases b <;> simp_all [same]
  | .declared _ as, b, h => by
    cases b <;> simp only [same, Bool.and_eq_true, beq_iff_eq, Bool.false_eq_true] at h
    next j bs => rw [h.1, eq_of_sameList h.2]
  | .array a, b, h => by
    cases b <;> simp only [same, Bool.false_eq_true] at h
    next b => rw [eq_of_same h]
  | .variable _ a, b, h => by
    cases b <;> simp only [same, Bool.and_eq_true, beq_iff_eq, Bool.false_eq_true] at h
    next n b => rw [h.1, eq_of_sameOption h.2]
  | .named _, b, h => by cases b <;> simp_all [same]
  | .unknown, b, h => by cases b <;> simp_all [same]

/-- Types compared one by one are equal lists of types. -/
theorem eq_of_sameList : ∀ {as bs : List TypeRef}, sameList as bs = true → as = bs
  | [], bs, h => by cases bs <;> simp_all [sameList]
  | a :: as, bs, h => by
    cases bs <;> simp only [sameList, Bool.and_eq_true, Bool.false_eq_true] at h
    next b bs => rw [eq_of_same h.1, eq_of_sameList h.2]

/-- Types compared where they are present are equal. -/
theorem eq_of_sameOption : ∀ {a b : Option TypeRef}, sameOption a b = true → a = b
  | none, b, h => by cases b <;> simp_all [sameOption]
  | some a, b, h => by
    cases b <;> simp only [sameOption, Bool.false_eq_true] at h
    next b => rw [eq_of_same h]

end

instance : DecidableEq TypeRef := fun a b =>
  if h : same a b = true then .isTrue (eq_of_same h)
  else .isFalse fun e => h (e ▸ same_self a)

/-! ## Shape -/

/-- A class without type arguments. -/
def plain (id : ClassId) : TypeRef := .declared id []

def boolean : TypeRef := .primitive .boolean

def int : TypeRef := .primitive .int

def isVoid : TypeRef → Bool
  | .void => true
  | _ => false

def isPrimitive : TypeRef → Bool
  | .primitive _ => true
  | _ => false

/-- Whether values of the type are references. -/
def isReference : TypeRef → Bool
  | .declared _ _ | .array _ | .variable _ _ | .null | .named _ => true
  | _ => false

/-- Whether the type could not be resolved. -/
def isErroneous : TypeRef → Bool
  | .named _ | .unknown => true
  | _ => false

def classId? : TypeRef → Option ClassId
  | .declared id _ => some id
  | _ => none

/-- The declared types are the ones with a class. -/
theorem classId?_eq_some_iff {type : TypeRef} {id : ClassId} :
    type.classId? = some id ↔ ∃ arguments, type = .declared id arguments := by
  cases type <;> simp [classId?]

/-- A class is asked for by the arguments that it may have. -/
theorem exists_classId?_iff {holds : TypeRef → Prop} {id : ClassId} :
    (∃ type, holds type ∧ type.classId? = some id) ↔ ∃ arguments, holds (.declared id arguments) := by
  simp only [classId?_eq_some_iff]
  constructor
  · rintro ⟨_, held, arguments, rfl⟩
    exact ⟨arguments, held⟩
  · rintro ⟨arguments, held⟩
    exact ⟨_, held, arguments, rfl⟩

def element? : TypeRef → Option TypeRef
  | .array element => some element
  | _ => none

/-! ## Erasure -/

/-- The type without arguments and variables. A variable without a bound stands for any object. -/
def erasure : TypeRef → TypeRef
  | .declared id _ => plain id
  | .array element => .array element.erasure
  | .variable _ (some bound) => bound.erasure
  | .variable _ none => plain .object
  | type => type

/-- The wrapper class of a primitive type, as a type. -/
def boxed (primitive : Primitive) : TypeRef := plain (.box primitive)

/-- The primitive type that a class type wraps. -/
def unboxed? : TypeRef → Option Primitive
  | .declared id _ => id.unbox?
  | _ => none

end TypeRef

end CodeAssist
