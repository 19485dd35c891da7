/-!
# Tables of code points

A property of characters is held as a list of inclusive ranges of code points. Tables above the
ASCII range stand beside the tests for ASCII characters that read them.
-/

namespace CodeAssist.Text

/-- Whether a code point lies in one of the inclusive ranges. -/
def inRanges (table : List (Nat × Nat)) (code : Nat) : Bool :=
  table.any fun range => range.1 ≤ code && code ≤ range.2

/-- A code point of a table lies between the bounds of one of its ranges. -/
theorem inRanges_iff {table : List (Nat × Nat)} {code : Nat} :
    inRanges table code = true ↔ ∃ range ∈ table, range.1 ≤ code ∧ code ≤ range.2 := by
  simp [inRanges]

end CodeAssist.Text
