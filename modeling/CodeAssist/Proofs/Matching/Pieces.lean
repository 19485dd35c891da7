import CodeAssist.Matching.Pieces
import Mathlib.Data.List.TakeWhile
/-!
# The first piece of a text

Whatever the cut rule, the first piece of a text begins behind all the separators that the text
begins with, and what follows it is cut like a text of its own (`exists_behind_first`). A text has
no piece only if it consists of separators.
-/

namespace CodeAssist.Matching

variable {rule : CutRule} {offset : Nat} {b : UInt8} {text : List UInt8} {piece : Piece}
  {pieces : List Piece}

/-! ## Separators, letters and digits -/

/-- The separators are `_`, `$`, `-`, the blank and the dot. -/
theorem isSeparator_iff : isSeparator b = true ↔
    b.toNat = 95 ∨ b.toNat = 36 ∨ b.toNat = 45 ∨ b.toNat = 32 ∨ b.toNat = 46 := by
  simp only [isSeparator, Bool.or_eq_true, beq_iff_eq, ← UInt8.toNat_inj, or_assoc]
  rfl

/-- The upper-case letters have the codes from 65 to 90. -/
theorem isUpper_iff : isUpper b = true ↔ 65 ≤ b.toNat ∧ b.toNat ≤ 90 := by
  simp only [isUpper, Bool.and_eq_true, decide_eq_true_eq, UInt8.le_iff_toNat_le]
  rfl

/-- The lower-case letters have the codes from 97 to 122. -/
theorem isLower_iff : isLower b = true ↔ 97 ≤ b.toNat ∧ b.toNat ≤ 122 := by
  simp only [isLower, Bool.and_eq_true, decide_eq_true_eq, UInt8.le_iff_toNat_le]
  rfl

theorem isDigit_iff : isDigit b = true ↔ 48 ≤ b.toNat ∧ b.toNat ≤ 57 := by
  simp only [isDigit, Bool.and_eq_true, decide_eq_true_eq, UInt8.le_iff_toNat_le]
  rfl

/-- A separator is a whole character: no byte of a longer one is one. -/
theorem toNat_lt_of_isSeparator (separator : isSeparator b = true) : b.toNat < 128 := by
  rw [isSeparator_iff] at separator
  omega

/-- A letter or digit is a whole character: no byte of a longer one is one. -/
theorem toNat_lt_of_isAlphanumeric (alphanumeric : (isLetter b || isDigit b) = true) :
    b.toNat < 128 := by
  simp only [isLetter, Bool.or_eq_true, isUpper_iff, isLower_iff, isDigit_iff] at alphanumeric
  omega

/-! ## The first piece -/

theorem extendFirst_ne_nil (start : Nat) (b : UInt8) (pieces : List Piece) :
    extendFirst start b pieces ≠ [] := by
  cases pieces <;> exact List.cons_ne_nil _ _

/-- The texts without a piece are those of separators alone. -/
theorem piecesFrom_eq_nil_iff :
    piecesFrom rule offset text = [] ↔ ∀ b ∈ text, isSeparator b = true := by
  induction text generalizing offset with
  | nil => simp [piecesFrom]
  | cons b text ih =>
    rw [piecesFrom, List.forall_mem_cons]
    by_cases separator : isSeparator b = true
    · rw [if_pos separator, ih, and_iff_right separator]
    · rw [if_neg separator]
      refine iff_of_false ?_ fun all => separator all.1
      split
      · exact extendFirst_ne_nil _ _ _
      · exact List.cons_ne_nil _ _

/-- A piece goes on only to a byte that is no separator and has no cut before it. -/
theorem exists_of_continues (continued : continues rule b text = true) :
    ∃ c rest, text = c :: rest ∧ isSeparator c = false ∧ rule b c rest.head? = false := by
  cases text with
  | nil => cases continued
  | cons c rest =>
    simp only [continues, Bool.and_eq_true, Bool.not_eq_true'] at continued
    exact ⟨c, rest, rfl, continued⟩

/-- Between a byte and one that continues its piece there is no separator. -/
theorem takeWhile_of_continues (continued : continues rule b text = true) :
    text.takeWhile isSeparator = [] := by
  obtain ⟨c, rest, rfl, plain, -⟩ := exists_of_continues continued
  exact List.takeWhile_cons_of_neg (by simp [plain])

/-- A text is the separators that it begins with, its first piece and a rest that has the other
pieces. The rest begins with a separator or where the rule cuts. -/
theorem exists_behind_first (cut : piecesFrom rule offset text = piece :: pieces) :
    ∃ behind, text = text.takeWhile isSeparator ++ (piece.bytes ++ behind) ∧
      piece.start = offset + (text.takeWhile isSeparator).length ∧
      piece.bytes ≠ [] ∧ (∀ b ∈ piece.bytes, isSeparator b = false) ∧
      (∀ c ∈ behind.head?, isSeparator c = false → ∃ previous next, rule previous c next = true) ∧
      piecesFrom rule piece.stop behind = pieces := by
  induction text generalizing offset piece pieces with
  | nil => cases cut
  | cons b text ih =>
    rw [piecesFrom] at cut
    by_cases separator : isSeparator b = true
    · rw [if_pos separator] at cut
      obtain ⟨behind, whole, start, some, plain, edge, later⟩ := ih cut
      rw [List.takeWhile_cons_of_pos separator]
      refine ⟨behind, congrArg _ whole, ?_, some, plain, edge, later⟩
      rw [start, List.length_cons, Nat.add_right_comm, Nat.add_assoc]
    · rw [if_neg separator] at cut
      have own : isSeparator b = false := Bool.of_not_eq_true separator
      rw [List.takeWhile_cons_of_neg separator]
      split at cut
      next continued =>
        cases rest : piecesFrom rule (offset + 1) text with
        | nil =>
          rw [rest] at cut
          cases cut
          refine ⟨text, rfl, rfl, List.cons_ne_nil _ _, by simpa using own, ?_, rest⟩
          -- behind a last piece there are separators only
          intro c first plain
          rw [piecesFrom_eq_nil_iff.mp rest c (List.mem_of_mem_head? first)] at plain
          cases plain
        | cons first others =>
          rw [rest] at cut
          cases cut
          obtain ⟨behind, whole, start, -, plain, edge, later⟩ := ih rest
          have apart := takeWhile_of_continues continued
          rw [apart, List.nil_append] at whole
          refine ⟨behind, congrArg _ whole, rfl, List.cons_ne_nil _ _,
            List.forall_mem_cons.mpr ⟨own, plain⟩, edge, ?_⟩
          have stop : first.stop = Piece.stop ⟨offset, b :: first.bytes⟩ := by
            rw [Piece.stop, start, apart, Piece.stop, List.length_nil, List.length_cons]
            dsimp only
            omega
          rw [← stop, later]
      next separate =>
        cases cut
        refine ⟨text, rfl, rfl, List.cons_ne_nil _ _, by simpa using own, ?_, rfl⟩
        intro c first plain
        obtain ⟨rest, rfl⟩ := List.head?_eq_some_iff.mp first
        exact ⟨b, rest.head?, by simpa [continues, plain] using separate⟩

end CodeAssist.Matching
