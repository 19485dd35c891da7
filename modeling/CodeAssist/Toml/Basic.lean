import CodeAssist.Decimal.Double
/-!
# TOML values

The values of a settings document. Tables keep the order in which their keys came to be. Dates and
times are told apart from the other values but not looked into.
-/

namespace CodeAssist

/-- A floating-point value. -/
inductive FloatValue where
  | finite (negative : Bool) (magnitude : Double)
  | infinite (negative : Bool)
  | notANumber
deriving DecidableEq, Repr, Inhabited

/-- The text of a floating-point value: the fewest digits that read back, without exponent. -/
def FloatValue.text : FloatValue → List Char
  | .finite negative magnitude => (if negative then ['-'] else []) ++ magnitude.shortest.positional
  | .infinite negative => (if negative then ['-'] else []) ++ "inf".toList
  | .notANumber => "NaN".toList

/-- A TOML value. -/
inductive Toml where
  | string (value : String)
  | integer (value : Int)
  | float (value : FloatValue)
  | boolean (value : Bool)
  | dateTime
  | array (items : List Toml)
  | table (members : List (String × Toml))
deriving Repr, Inhabited

end CodeAssist
