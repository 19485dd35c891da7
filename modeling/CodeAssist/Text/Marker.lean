import CodeAssist.Text.Utf8
/-!
# Markers in a text fixture

A fixture is a text with numbered markers written into it: a dollar sign and decimal digits. The
marker `$0` stands for the cursor. Stripping a fixture gives the text without its markers and, for
each marker, the byte offset in that text at which it stood. A dollar sign before anything but a
digit is plain text.
-/

namespace CodeAssist

/-- A numbered place in a text. -/
structure Marker where
  id : Nat
  offset : Nat
deriving DecidableEq, Repr

/-- Why a fixture cannot be stripped. -/
inductive FixtureError where
  /-- The same number marks two places. -/
  | duplicate (id : Nat)
  /-- A number does not fit in 32 bits. -/
  | idTooLarge
  /-- No marker has the number zero. -/
  | noCursor
deriving DecidableEq, Repr

/-- The text that describes a fixture error. -/
def FixtureError.message : FixtureError → String
  | .duplicate id => "duplicate fixture marker $" ++ toString id
  | .idTooLarge => "marker id fits in u32"
  | .noCursor => "fixture missing $0 cursor marker"

namespace Fixture

/-- A fixture is read as a sequence of characters and markers. -/
inductive Piece where
  | plain (c : Char)
  | marker (digits : List Char)
deriving DecidableEq, Repr

/-- The value of a run of decimal digits. -/
def decimalValue (digits : List Char) : Nat :=
  digits.foldl (fun value c => 10 * value + (c.toNat - '0'.toNat)) 0

/-- Cuts a fixture into characters and markers. A marker takes all the digits that follow its
dollar sign. -/
def pieces : List Char → List Piece
  | [] => []
  | c :: rest =>
    if c = '$' ∧ !(rest.takeWhile Char.isDigit).isEmpty then
      .marker (rest.takeWhile Char.isDigit) :: pieces (rest.dropWhile Char.isDigit)
    else
      .plain c :: pieces rest
termination_by text => text.length
decreasing_by
  all_goals
    have := (List.dropWhile_sublist Char.isDigit : (rest.dropWhile Char.isDigit).Sublist rest)
    have := this.length_le
    simp only [List.length_cons]
    omega

/-- Reads the markers off the pieces, from the byte offset reached so far and with the numbers
already given away. -/
def place (offset : Nat) (taken : List Nat) :
    List Piece → Except FixtureError (List Char × List Marker)
  | [] => .ok ([], [])
  | .plain c :: rest => do
    let (text, markers) ← place (offset + c.utf8Size) taken rest
    return (c :: text, markers)
  | .marker digits :: rest =>
    let id := decimalValue digits
    if 4294967296 ≤ id then .error .idTooLarge
    else if id ∈ taken then .error (.duplicate id)
    else do
      let (text, markers) ← place offset (id :: taken) rest
      return (text, { id, offset } :: markers)

/-- The text of a fixture without its markers, and the markers in the order of the text. -/
def strip (fixture : List Char) : Except FixtureError (List Char × List Marker) :=
  place 0 [] (pieces fixture)

/-- The text of a fixture and the place of its cursor. -/
def cursor (fixture : List Char) : Except FixtureError (List Char × Nat) := do
  let (text, markers) ← strip fixture
  match markers.find? fun marker => marker.id == 0 with
  | some marker => return (text, marker.offset)
  | none => throw .noCursor

end Fixture

end CodeAssist
