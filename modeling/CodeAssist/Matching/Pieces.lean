/-!
# Pieces of a name

Matching a pattern against a name compares the *pieces* of both. A piece is a run of bytes of the
name; a separator (`_`, `$`, `-`, blank or dot) ends a piece and belongs to none, and a *cut rule*
says where a new piece begins between two bytes that are no separators. Three rules are used:
camel-case humps and words for names, camel-case segments for patterns.

All rules look at ASCII letters and digits only, so a piece never begins inside a character.
-/

namespace CodeAssist.Matching

/-- Whether a byte separates pieces. -/
def isSeparator (b : UInt8) : Bool :=
  b == '_'.toUInt8 || b == '$'.toUInt8 || b == '-'.toUInt8 || b == ' '.toUInt8 || b == '.'.toUInt8

def isUpper (b : UInt8) : Bool := 'A'.toUInt8 ≤ b && b ≤ 'Z'.toUInt8

def isLower (b : UInt8) : Bool := 'a'.toUInt8 ≤ b && b ≤ 'z'.toUInt8

def isDigit (b : UInt8) : Bool := '0'.toUInt8 ≤ b && b ≤ '9'.toUInt8

def isLetter (b : UInt8) : Bool := isUpper b || isLower b

/-- A byte with ASCII capitals made small. -/
def fold (b : UInt8) : UInt8 := if isUpper b then b + 32 else b

/-- A run of bytes of a name and the offset of its first byte. -/
structure Piece where
  start : Nat
  bytes : List UInt8
deriving DecidableEq, Repr

/-- The offset after the last byte of a piece. -/
def Piece.stop (piece : Piece) : Nat := piece.start + piece.bytes.length

/-- A rule for where pieces begin: given a byte, its successor and what follows that (if anything),
whether the successor begins a new piece. -/
abbrev CutRule := UInt8 → UInt8 → Option UInt8 → Bool

/-- Every capital begins a hump, and so does the first digit of a run of digits: `URLConnection` is
`U`, `R`, `L`, `Connection`. -/
def humpRule : CutRule := fun previous current _ =>
  isUpper current || (isDigit current && !isDigit previous)

/-- Every capital begins a segment of a pattern. -/
def segmentRule : CutRule := fun _ current _ => isUpper current

/-- A run of capitals stays one word, less its last capital if a small letter follows:
`URLConnection` is `URL`, `Connection`. Letters and digits part. -/
def wordRule : CutRule := fun previous current next =>
  (isLower previous && isUpper current)
    || (isUpper previous && isUpper current && next.any isLower)
    || (isLetter previous && isDigit current)
    || (isDigit previous && isLetter current)

/-- Whether the byte after `b` belongs to the piece of `b`. -/
def continues (rule : CutRule) (b : UInt8) : List UInt8 → Bool
  | [] => false
  | c :: rest => !isSeparator c && !rule b c rest.head?

/-- Puts a byte in front of the first of some pieces. -/
def extendFirst (start : Nat) (b : UInt8) : List Piece → List Piece
  | [] => [⟨start, [b]⟩]
  | piece :: pieces => ⟨start, b :: piece.bytes⟩ :: pieces

/-- The pieces of a text that begins at the given offset, by a rule. -/
def piecesFrom (rule : CutRule) (offset : Nat) : List UInt8 → List Piece
  | [] => []
  | b :: rest =>
    let later := piecesFrom rule (offset + 1) rest
    if isSeparator b then later
    else if continues rule b rest then extendFirst offset b later
    else ⟨offset, [b]⟩ :: later

/-- The humps of a name. -/
def humps (text : List UInt8) : List Piece := piecesFrom humpRule 0 text

/-- The words of a name or pattern. -/
def words (text : List UInt8) : List Piece := piecesFrom wordRule 0 text

/-- The camel-case segments of a pattern. -/
def segments (text : List UInt8) : List Piece := piecesFrom segmentRule 0 text

end CodeAssist.Matching
