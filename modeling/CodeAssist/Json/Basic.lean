/-!
# JSON values

The data format in which index snapshots are kept. An object is the list of its members in order;
a number is either an integer of at most 64 bits or any other literal, which no field of the
library takes and which is therefore kept as written.
-/

namespace CodeAssist

/-- A JSON number. -/
inductive Json.Number where
  /-- An integer literal between `-2^63` and `2^64 - 1`, written without fraction and exponent. -/
  | integer (value : Int)
  /-- Any other literal. -/
  | other (literal : String)
deriving DecidableEq, Repr

/-- A JSON value. -/
inductive Json where
  | null
  | bool (value : Bool)
  | number (value : Json.Number)
  | string (value : String)
  | array (items : List Json)
  | object (members : List (String × Json))
deriving Repr, Inhabited

namespace Json

/-- A natural number as a value. -/
def nat (n : Nat) : Json := .number (.integer n)

/-- An integer as a value. -/
def int (n : Int) : Json := .number (.integer n)

/-- A list of strings as a value. -/
def strings (items : List String) : Json := .array (items.map .string)

/-- An optional value, `null` if there is none. -/
def ofOption (encode : α → Json) : Option α → Json
  | none => .null
  | some a => encode a

end Json

end CodeAssist
