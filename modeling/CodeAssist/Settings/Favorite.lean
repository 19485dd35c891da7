import CodeAssist.QualifiedName
import CodeAssist.Text.Identifier
/-!
# Favorite static members

A favorite names one static member of a type, or all of them with a star: `pkg.Type.member` or
`pkg.Type.*`. Blanks around the text are ignored, blanks inside it are not.
-/

namespace CodeAssist

/-- A favorite: a type, and one of its members unless all are meant. -/
structure Favorite where
  owner : QualifiedName
  member : Option String
deriving DecidableEq, Repr, Inhabited

namespace Favorite

/-- Reads the last segment of a favorite. -/
def parseMember (text : List Char) : Option (Option String) :=
  if text = ['*'] then some none
  else if Text.isIdentifier text then some (some (String.ofList text))
  else none

/-- Reads a favorite. -/
def parse? (text : String) : Option Favorite :=
  match Text.cutLast '.' (Text.trim text.toList) with
  | none => none
  | some (owner, last) =>
    if (Text.splitAt '.' owner).all Text.isIdentifier then
      (parseMember last).map fun member => { owner := .ofDotted (String.ofList owner), member }
    else none

/-- Whether a member is meant. -/
def accepts (favorite : Favorite) (name : String) : Bool := favorite.member.all (· == name)

/-- The favorite as it is written. -/
def text (favorite : Favorite) : String :=
  favorite.owner.dotted ++ "." ++ favorite.member.getD "*"

end Favorite

end CodeAssist
