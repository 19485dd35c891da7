/-!
# Mixed-radix numbers

Digits with different largest values make up one number: the weight of a digit is the product of the
numbers of values that the lower digits can have. With digits within their bounds the order of the
numbers is the order of the digits, the highest first.
-/

namespace CodeAssist.MixedRadix

/-- The weights of digits from the lowest on, the lowest having the given weight. -/
def weightsFrom (weight : Nat) : List Nat → List Nat
  | [] => []
  | maximum :: maxima => weight :: weightsFrom (weight * (maximum + 1)) maxima

/-- The weights of digits with the given largest values, lowest first. -/
def weights (maxima : List Nat) : List Nat := weightsFrom 1 maxima

/-- The number that digits stand for, lowest first. -/
def value (maxima digits : List Nat) : Nat :=
  (List.zipWith (· * ·) digits (weights maxima)).foldr (· + ·) 0

/-- The largest number. -/
def largest (maxima : List Nat) : Nat := value maxima maxima

end CodeAssist.MixedRadix
