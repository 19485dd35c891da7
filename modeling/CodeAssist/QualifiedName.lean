import CodeAssist.Text.Blank
import CodeAssist.Text.Split
/-!
# Dotted names

A `QualifiedName` is a sequence of segments, written with dots: a package such as `java.util`, a
type such as `java.util.Map` or a type nested in another. The name without segments is the unnamed
package. Reading a dotted text is lenient: blanks around a segment and empty segments are dropped,
so every text has a name.
-/

namespace CodeAssist

/-- A dotted name, as its segments. -/
structure QualifiedName where
  segments : List String
deriving DecidableEq, Repr, Inhabited

namespace QualifiedName

/-- The unnamed package. -/
def empty : QualifiedName := ⟨[]⟩

/-- Reads a dotted text. -/
def ofDotted (text : String) : QualifiedName :=
  ⟨(((Text.splitAt '.' text.toList).map Text.trim).filter fun piece => !piece.isEmpty).map
    String.ofList⟩

/-- The name written with dots between its segments. -/
def dotted (name : QualifiedName) : String :=
  ".".intercalate name.segments

def isEmpty (name : QualifiedName) : Bool := name.segments.isEmpty

def length (name : QualifiedName) : Nat := name.segments.length

def first? (name : QualifiedName) : Option String := name.segments.head?

def last? (name : QualifiedName) : Option String := name.segments.getLast?

/-- The last segment, and the empty text for the unnamed package. -/
def simple (name : QualifiedName) : String := name.last?.getD ""

/-- The name without its last segment, if something remains. -/
def parent? (name : QualifiedName) : Option QualifiedName :=
  match name.segments.dropLast with
  | [] => none
  | rest => some ⟨rest⟩

/-- The name without its last segment. -/
def container (name : QualifiedName) : QualifiedName := ⟨name.segments.dropLast⟩

/-- The name with one more segment, taken as it is. -/
def child (name : QualifiedName) (segment : String) : QualifiedName :=
  ⟨name.segments ++ [segment]⟩

/-- The segments of one name followed by those of another. -/
def append (name other : QualifiedName) : QualifiedName :=
  ⟨name.segments ++ other.segments⟩

/-- Whether a name is `top` or lies below it. -/
def within (name top : QualifiedName) : Bool :=
  top.segments.isPrefixOf name.segments

/-- Names are ordered as lists of segments, and segments by their characters. -/
def compare (first second : QualifiedName) : Ordering :=
  compareSegments first.segments second.segments
where
  compareSegments : List String → List String → Ordering
    | [], [] => .eq
    | [], _ :: _ => .lt
    | _ :: _, [] => .gt
    | a :: as, b :: bs =>
      match Ord.compare a b with
      | .eq => compareSegments as bs
      | order => order

end QualifiedName

end CodeAssist
