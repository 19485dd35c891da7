import CodeAssist.Class.Hierarchy
/-!
# Subtyping

Subtyping of type expressions by their erasures, and assignment that needs a value to be wrapped or
unwrapped.
-/

namespace CodeAssist.Store

/-- Subtyping of erased types. -/
def isErasedSubtype (store : Store) : TypeRef → TypeRef → Bool
  | .array a, sup =>
    if TypeRef.array a = sup then true
    else
      match sup with
      | .declared id _ => id == .object || id == .cloneable || id == .serializable
      | .array b =>
        match a, b with
        | .primitive p, .primitive q => p == q
        | a, b => a.isReference && b.isReference && store.isErasedSubtype a b
      | _ => false
  | sub, sup =>
    if sub = sup then !sub.isErroneous
    else
      match sub, sup with
      | .primitive p, .primitive q => p.widensTo q
      | .null, sup => sup.isReference && !sup.isErroneous
      | .declared a _, .declared b _ => store.isSubclass a b
      | _, _ => false

/-- Whether one type is a subtype of the other. Types that could not be resolved are subtypes of
nothing, not even of themselves. -/
def isSubtype (store : Store) (sub sup : TypeRef) : Bool :=
  store.isErasedSubtype sub.erasure sup.erasure

/-- Whether a value of one type can be assigned to the other by wrapping or unwrapping it, and not
as it is. -/
def isBoxingAssignable (store : Store) (source target : TypeRef) : Bool :=
  if store.isSubtype source target then false
  else
    match source, target with
    | .primitive p, target =>
      if target.isReference then store.isSubtype (.boxed p) target
      else false
    | source, .primitive q => source.unboxed?.any fun p => p.widensTo q
    | _, _ => false

end CodeAssist.Store
