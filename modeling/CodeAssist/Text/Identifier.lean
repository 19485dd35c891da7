import CodeAssist.Text.IdentifierTable
import CodeAssist.Text.Ranges
/-!
# Identifiers

Which characters may begin and continue an identifier, and which texts are identifiers. Beside the
Unicode classes an identifier may begin with `_` or `$`, and `$` may stand anywhere in it.
-/

namespace CodeAssist.Text

/-- Whether a character may begin an identifier. -/
def isIdentifierStart (c : Char) : Bool :=
  c.isAlpha || c == '_' || c == '$' || inRanges startRanges c.toNat

/-- Whether a character may stand after the first character of an identifier. -/
def isIdentifierPart (c : Char) : Bool :=
  isIdentifierStart c || c.isDigit || inRanges continueRanges c.toNat

/-- Whether a text is an identifier: a start character, then part characters only. -/
def isIdentifier : List Char → Bool
  | [] => false
  | c :: rest => isIdentifierStart c && rest.all isIdentifierPart

/-- Whatever begins an identifier also continues one. -/
theorem isIdentifierPart_of_start {c : Char} (h : isIdentifierStart c = true) :
    isIdentifierPart c = true := by
  simp [isIdentifierPart, h]

/-- An identifier consists of part characters. -/
theorem all_isIdentifierPart {text : List Char} (h : isIdentifier text = true) :
    text.all isIdentifierPart = true := by
  cases text with
  | nil => rfl
  | cons c rest =>
    simp only [isIdentifier, Bool.and_eq_true] at h
    simp only [List.all_cons, isIdentifierPart_of_start h.1, h.2, Bool.and_self]

end CodeAssist.Text
