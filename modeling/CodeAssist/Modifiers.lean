/-!
# Modifiers and access rules

A declaration carries a set of modifiers, kept as 16 bits of which eleven have a meaning and the
others are passed through, and the verdict of the workspace's access rules on it.
-/

namespace CodeAssist

/-- A set of declaration modifiers. -/
structure Modifiers where
  bits : UInt16
deriving DecidableEq, Repr, Inhabited

namespace Modifiers

def none : Modifiers := ⟨0⟩
def «public» : Modifiers := ⟨1⟩
def «private» : Modifiers := ⟨2⟩
def «protected» : Modifiers := ⟨4⟩
def static : Modifiers := ⟨8⟩
def final : Modifiers := ⟨16⟩
def abstract : Modifiers := ⟨32⟩
/-- An interface method with a body. -/
def default : Modifiers := ⟨64⟩
def deprecated : Modifiers := ⟨128⟩
/-- Declared by the language rather than by the source. -/
def mandated : Modifiers := ⟨256⟩
/-- A constant of an enumeration. -/
def enumConstant : Modifiers := ⟨512⟩
def variadic : Modifiers := ⟨1024⟩

/-- Whether all of `other` is in the set. -/
def contains (modifiers other : Modifiers) : Bool :=
  modifiers.bits &&& other.bits == other.bits

def union (modifiers other : Modifiers) : Modifiers := ⟨modifiers.bits ||| other.bits⟩

/-- The set without the members of `other`. -/
def without (modifiers other : Modifiers) : Modifiers := ⟨modifiers.bits &&& ~~~other.bits⟩

instance : OrOp Modifiers := ⟨union⟩

def isPublic (modifiers : Modifiers) : Bool := modifiers.contains «public»
def isPrivate (modifiers : Modifiers) : Bool := modifiers.contains «private»
def isProtected (modifiers : Modifiers) : Bool := modifiers.contains «protected»
def isStatic (modifiers : Modifiers) : Bool := modifiers.contains static
def isFinal (modifiers : Modifiers) : Bool := modifiers.contains final
def isAbstract (modifiers : Modifiers) : Bool := modifiers.contains abstract
def isDeprecated (modifiers : Modifiers) : Bool := modifiers.contains deprecated

/-- The modifiers that have a name, lowest bit first. -/
def named : List (Modifiers × String) :=
  [(«public», "public"), («private», "private"), («protected», "protected"), (static, "static"),
   (final, "final"), (abstract, "abstract"), (default, "default"), (deprecated, "deprecated"),
   (mandated, "mandated"), (enumConstant, "enum"), (variadic, "varargs")]

/-- The names of the members in braces. -/
def describe (modifiers : Modifiers) : String :=
  let names := (named.filter fun entry => modifiers.contains entry.1).map Prod.snd
  "\x7b" ++ ", ".intercalate names ++ "\x7d"

end Modifiers

/-- The verdict of the workspace's access rules on a declaration. -/
inductive Access where
  | accessible
  | discouraged
  | nonAccessible
deriving DecidableEq, Repr, Inhabited

namespace Access

/-- The stricter of two verdicts. -/
def strictest : Access → Access → Access
  | .nonAccessible, _ => .nonAccessible
  | _, .nonAccessible => .nonAccessible
  | .discouraged, _ => .discouraged
  | _, .discouraged => .discouraged
  | .accessible, .accessible => .accessible

/-- The word for a verdict. -/
def word : Access → String
  | .accessible => "accessible"
  | .discouraged => "discouraged"
  | .nonAccessible => "non_accessible"

/-- The verdict with a given word. -/
def ofWord? (word : String) : Option Access :=
  [accessible, discouraged, nonAccessible].find? fun access => access.word == word

end Access

end CodeAssist
