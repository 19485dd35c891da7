import CodeAssist.Text.CursorToken
import Mathlib.Data.List.DropRight
import Mathlib.Order.Bounds.Basic
/-!
# The token before a cursor is the longest identifier there

A cursor stands at a byte offset. What it has seen is the text up to the last boundary of a character
that is not beyond it (`isGreatest_takeBytes`). The token is found in two passes over that text, one
backward over the characters that may continue an identifier and one forward over those of them that
may not begin one. Both passes keep every identifier that the text ends with (`suffix_trailingPart`,
`suffix_fragment`), and what they leave is an identifier or nothing at all. So nothing longer can be
one.

Of the two classes of characters only one thing is used, that whatever begins an identifier also
continues one (`Text.all_isIdentifierPart`). A digit after a mark, a mark after a letter or an offset
inside a character are no cases of their own.
-/

namespace CodeAssist

/-! ## What a cursor has seen -/

namespace Text

variable {text front : List Char} {offset : Nat}

/-- A place before, between or behind the characters of a text, counted in bytes. -/
def IsBoundary (text : List Char) (place : Nat) : Prop :=
  ∃ front, front <+: text ∧ byteLength front = place

/-- A start of a text has no more bytes than the text. -/
theorem byteLength_mono (start : front <+: text) : byteLength front ≤ byteLength text := by
  obtain ⟨rest, rfl⟩ := start
  rw [byteLength_append]
  exact Nat.le_add_right _ _

theorem takeBytes_prefix (text : List Char) (offset : Nat) : takeBytes text offset <+: text := by
  fun_induction takeBytes text offset with
  | case1 => exact List.prefix_rfl
  | case2 c rest offset fits ih => exact (List.prefix_cons_inj c).mpr ih
  | case3 => exact List.nil_prefix

/-- What is taken up to an offset has no more bytes than that. -/
theorem byteLength_takeBytes_le (text : List Char) (offset : Nat) :
    byteLength (takeBytes text offset) ≤ offset := by
  fun_induction takeBytes text offset with
  | case1 | case3 => exact Nat.zero_le _
  | case2 c rest offset fits ih =>
    rw [byteLength_cons]
    omega

/-- What ends at a boundary not beyond the offset has been seen. -/
theorem prefix_takeBytes (start : front <+: text) (near : byteLength front ≤ offset) :
    front <+: takeBytes text offset := by
  fun_induction takeBytes text offset generalizing front with
  | case1 => exact start
  | case2 c rest offset fits ih =>
    cases front with
    | nil => exact List.nil_prefix
    | cons first front =>
      obtain ⟨rfl, inside⟩ := List.cons_prefix_cons.mp start
      rw [byteLength_cons] at near
      exact (List.prefix_cons_inj first).mpr (ih inside (by omega))
  | case3 c rest offset beyond =>
    cases front with
    | nil => exact List.nil_prefix
    | cons first front =>
      obtain ⟨rfl, -⟩ := List.cons_prefix_cons.mp start
      rw [byteLength_cons] at near
      omega

/-- A cursor has seen the text up to the last boundary that is neither beyond it nor beyond the
text. -/
theorem isGreatest_takeBytes (text : List Char) (offset : Nat) :
    IsGreatest {place | IsBoundary text place ∧ place ≤ min offset (byteLength text)}
      (byteLength (takeBytes text offset)) := by
  have seen := takeBytes_prefix text offset
  refine ⟨⟨⟨_, seen, rfl⟩, ?_⟩, ?_⟩
  · exact le_min (byteLength_takeBytes_le text offset) (byteLength_mono seen)
  · rintro place ⟨⟨front, start, rfl⟩, near⟩
    exact byteLength_mono (prefix_takeBytes start (near.trans (min_le_left _ _)))

end Text

/-! ## The fragment at the end of a text -/

namespace CursorToken

open Text

variable {text word : List Char}

theorem trailingPart_suffix (text : List Char) : trailingPart text <:+ text :=
  List.rtakeWhile_suffix _ _

/-- The backward pass keeps whatever consists of part characters at the end of the text. -/
theorem suffix_trailingPart (parts : word.all isIdentifierPart = true) (ends : word <:+ text) :
    word <:+ trailingPart text := by
  obtain ⟨front, rfl⟩ := ends
  have whole : ∀ c ∈ word.reverse, isIdentifierPart c = true := fun c mem =>
    List.all_eq_true.mp parts c (List.mem_reverse.mp mem)
  rw [trailingPart, List.reverse_append, List.takeWhile_append_of_pos whole, List.reverse_append,
    List.reverse_reverse]
  exact List.suffix_append _ _

theorem fragment_suffix_trailingPart (text : List Char) : fragment text <:+ trailingPart text :=
  List.dropWhile_suffix _

/-- What both passes leave is an identifier, or nothing. -/
theorem fragment_eq_nil_or_isIdentifier (text : List Char) :
    fragment text = [] ∨ isIdentifier (fragment text) = true := by
  cases kept : fragment text with
  | nil => exact .inl rfl
  | cons c rest =>
    have start : isIdentifierStart c = true := by
      have stopped := List.head?_dropWhile_not (fun c => !isIdentifierStart c) (trailingPart text)
      rw [← fragment, kept] at stopped
      simpa using stopped
    have parts : ∀ d ∈ rest, isIdentifierPart d = true := fun d mem =>
      List.mem_rtakeWhile_imp
        ((fragment_suffix_trailingPart text).subset (kept ▸ List.mem_cons_of_mem c mem))
    exact .inr (by rw [isIdentifier, start, List.all_eq_true.mpr parts, Bool.and_self])

/-- Neither pass cuts into an identifier at the end of the text. -/
theorem suffix_fragment (identifier : isIdentifier word = true) (ends : word <:+ text) :
    word <:+ fragment text := by
  obtain ⟨front, run⟩ := suffix_trailingPart (all_isIdentifierPart identifier) ends
  cases word with
  | nil => cases identifier
  | cons c rest =>
    have start : isIdentifierStart c = true := (Bool.and_eq_true_iff.mp identifier).1
    -- the forward pass stops at the first character of the identifier, if not before it
    have stop : (c :: rest).dropWhile (fun c => !isIdentifierStart c) = c :: rest :=
      List.dropWhile_cons_of_neg (by simp [start])
    rw [fragment, ← run, List.dropWhile_append, stop]
    split
    · exact List.suffix_rfl
    · exact List.suffix_append _ _

/-! ## The token -/

/-- The token before an offset of a text that is shorter than offsets can tell ends at the last
character boundary not beyond the offset, is what its range says, is an identifier or empty, and no
longer end of the text before it is an identifier. -/
theorem before_is_longest_identifier (text : List Char) (offset : Nat)
    (short : byteLength text < UInt32.size) :
    ∃ front rest,
      text = front ++ (before text offset).token ++ rest ∧
      byteLength front = (before text offset).range.start ∧
      byteLength (front ++ (before text offset).token) = (before text offset).range.stop ∧
      IsGreatest {place | IsBoundary text place ∧ place ≤ min offset (byteLength text)}
        (before text offset).range.stop ∧
      ((before text offset).token = [] ∨ isIdentifier (before text offset).token = true) ∧
      ∀ longer, longer <:+ front ++ (before text offset).token →
        (before text offset).token.length < longer.length → isIdentifier longer = false := by
  have greatest := isGreatest_takeBytes text offset
  obtain ⟨rest, cut⟩ := takeBytes_prefix text offset
  obtain ⟨front, seen⟩ :=
    (fragment_suffix_trailingPart (takeBytes text offset)).trans (trailingPart_suffix _)
  have token : (before text offset).token = fragment (takeBytes text offset) := rfl
  have fits : byteLength (takeBytes text offset) < UInt32.size :=
    (greatest.1.2.trans (min_le_right _ _)).trans_lt short
  have length : byteLength (takeBytes text offset) =
      byteLength front + byteLength (fragment (takeBytes text offset)) := by
    rw [← byteLength_append, seen]
  have stop : (before text offset).range.stop = byteLength (takeBytes text offset) :=
    Nat.mod_eq_of_lt fits
  have start : (before text offset).range.start = byteLength front := by
    show (byteLength (takeBytes text offset) -
      byteLength (fragment (takeBytes text offset))) % UInt32.size = byteLength front
    rw [length, Nat.add_sub_cancel]
    exact Nat.mod_eq_of_lt (by omega)
  refine ⟨front, rest, ?_, start.symm, ?_, stop ▸ greatest, ?_, ?_⟩
  · rw [token, seen, cut]
  · rw [token, seen, stop]
  · exact fragment_eq_nil_or_isIdentifier _
  · rw [token, seen]
    intro longer ends more
    by_contra identifier
    have inside := suffix_fragment (Bool.of_not_eq_false identifier) ends
    exact absurd inside.length_le (Nat.not_le.mpr more)

/-- An offset between the two bytes of the last character means the boundary before it, and the
digit before the letter cannot begin the token. -/
theorem token_before_half_a_character :
    byteLength ['9', 'n', 'é'] < UInt32.size ∧
      before ['9', 'n', 'é'] 3 = { range := { start := 1, stop := 2 }, token := ['n'] } ∧
      ∃ front rest,
        ['9', 'n', 'é'] = front ++ ['n'] ++ rest ∧
        byteLength front = 1 ∧
        byteLength (front ++ ['n']) = 2 ∧
        IsGreatest {place | IsBoundary ['9', 'n', 'é'] place ∧
          place ≤ min 3 (byteLength ['9', 'n', 'é'])} 2 ∧
        (['n'] = [] ∨ isIdentifier ['n'] = true) ∧
        ∀ longer, longer <:+ front ++ ['n'] → ['n'].length < longer.length →
          isIdentifier longer = false := by
  have short : byteLength ['9', 'n', 'é'] < UInt32.size := by decide
  have found : before ['9', 'n', 'é'] 3 =
      { range := { start := 1, stop := 2 }, token := ['n'] } := by decide +kernel
  have longest := before_is_longest_identifier ['9', 'n', 'é'] 3 short
  rw [found] at longest
  exact ⟨short, found, longest⟩

end CursorToken

end CodeAssist
