import CodeAssist.Json.Basic
/-!
# Writing JSON

Two layouts: `compact` on one line, and `pretty` with one item per line, indented by two blanks a
level, where an empty array or object is written without a line break. In strings only the quote,
the backslash and the control characters below the blank are escaped.
-/

namespace CodeAssist.Json

/-- A hexadecimal digit, with small letters. -/
def hexDigit (n : Nat) : Char :=
  if n < 10 then Char.ofNat ('0'.toNat + n) else Char.ofNat ('a'.toNat + (n - 10))

/-- A character as it stands inside a quoted string. -/
def escape (c : Char) : List Char :=
  if c = '"' then ['\\', '"']
  else if c = '\\' then ['\\', '\\']
  else if c = '\x08' then ['\\', 'b']
  else if c = '\x0c' then ['\\', 'f']
  else if c = '\n' then ['\\', 'n']
  else if c = '\r' then ['\\', 'r']
  else if c = '\t' then ['\\', 't']
  else if c.toNat < 0x20 then
    ['\\', 'u', '0', '0', hexDigit (c.toNat / 16), hexDigit (c.toNat % 16)]
  else [c]

/-- A string in quotes. -/
def quote (text : String) : List Char :=
  '"' :: text.toList.flatMap escape ++ ['"']

/-- An integer in decimal. -/
def decimal (n : Int) : List Char :=
  match n with
  | .ofNat n => Nat.toDigits 10 n
  | .negSucc n => '-' :: Nat.toDigits 10 (n + 1)

/-- The text of a number. -/
def Number.text : Number → List Char
  | .integer value => decimal value
  | .other literal => literal.toList

/-- Where the items of a value stand. -/
structure Layout where
  /-- What is written before each item and before the closing bracket, by depth. -/
  newline : Nat → List Char
  /-- What is written between a name and its value. -/
  colon : List Char

/-- Everything on one line. -/
def Layout.compact : Layout := { newline := fun _ => [], colon := [':'] }

/-- One item per line, two blanks per level. -/
def Layout.pretty : Layout :=
  { newline := fun depth => '\n' :: List.replicate (2 * depth) ' ', colon := [':', ' '] }

mutual

/-- Writes a value at a depth. -/
def write (layout : Layout) (depth : Nat) : Json → List Char
  | .null => "null".toList
  | .bool true => "true".toList
  | .bool false => "false".toList
  | .number value => value.text
  | .string value => quote value
  | .array [] => ['[', ']']
  | .array (item :: items) =>
    '[' :: layout.newline (depth + 1) ++ write layout (depth + 1) item
      ++ writeItems layout (depth + 1) items ++ layout.newline depth ++ [']']
  | .object [] => ['\x7b', '\x7d']
  | .object ((name, value) :: members) =>
    '\x7b' :: layout.newline (depth + 1) ++ quote name ++ layout.colon
      ++ write layout (depth + 1) value
      ++ writeMembers layout (depth + 1) members ++ layout.newline depth ++ ['\x7d']

/-- Writes the items after the first. -/
def writeItems (layout : Layout) (depth : Nat) : List Json → List Char
  | [] => []
  | item :: items =>
    ',' :: layout.newline depth ++ write layout depth item ++ writeItems layout depth items

/-- Writes the members after the first. -/
def writeMembers (layout : Layout) (depth : Nat) : List (String × Json) → List Char
  | [] => []
  | (name, value) :: members =>
    ',' :: layout.newline depth ++ quote name ++ layout.colon ++ write layout depth value
      ++ writeMembers layout depth members

end

/-- The text of a value on one line. -/
def compact (value : Json) : String := String.ofList (write .compact 0 value)

/-- The text of a value on indented lines. -/
def pretty (value : Json) : String := String.ofList (write .pretty 0 value)

end CodeAssist.Json
