import CodeAssist.Text.Identifier
import CodeAssist.Text.Utf8
/-!
# The token at the cursor

A request to complete code names a place in a text. The *cursor token* is the identifier fragment
that ends at that place: the longest identifier that is a suffix of the text before the cursor. It
is what candidate names are matched against, and its range is what an accepted proposal replaces.
-/

namespace CodeAssist

/-- A range of byte offsets, `stop` not included. -/
structure TextRange where
  start : Nat
  stop : Nat
deriving DecidableEq, Repr

/-- The range between two places of a text. Offsets are kept in 32 bits, so that places further on
wrap around. -/
def TextRange.between (start stop : Nat) : TextRange :=
  { start := start % UInt32.size, stop := stop % UInt32.size }

/-- The identifier fragment before a cursor and the range it occupies. -/
structure CursorToken where
  range : TextRange
  token : List Char
deriving DecidableEq, Repr

namespace CursorToken

/-- The longest run of identifier characters at the end of a text. -/
def trailingPart (text : List Char) : List Char :=
  (text.reverse.takeWhile Text.isIdentifierPart).reverse

/-- The fragment at the end of a text: its trailing run of identifier characters, less the leading
ones that cannot begin an identifier. -/
def fragment (text : List Char) : List Char :=
  (trailingPart text).dropWhile fun c => !Text.isIdentifierStart c

/-- The token before a byte offset. An offset past the end means the end, and one inside a
character means the boundary before that character. -/
def before (text : List Char) (offset : Nat) : CursorToken :=
  let seen := Text.takeBytes text offset
  let token := fragment seen
  let stop := Text.byteLength seen
  { range := .between (stop - Text.byteLength token) stop, token }

end CursorToken

end CodeAssist
