/-!
# Texts cut at a character

Cutting a text at every occurrence of a character, at the first or at the last one, and joining
pieces again.
-/

namespace CodeAssist.Text

/-- The pieces between the occurrences of a character, in order: one more than there are
occurrences, so a text without any is its own only piece. -/
def splitAt (mark : Char) : List Char → List (List Char)
  | [] => [[]]
  | c :: rest =>
    if c = mark then [] :: splitAt mark rest
    else
      match splitAt mark rest with
      | [] => [[c]]
      | piece :: pieces => (c :: piece) :: pieces

/-- The pieces written one after the other with a character between neighbours. -/
def joinWith (mark : Char) : List (List Char) → List Char
  | [] => []
  | [piece] => piece
  | piece :: pieces => piece ++ mark :: joinWith mark pieces

/-- Every text has a piece. -/
theorem splitAt_ne_nil (mark : Char) (text : List Char) : splitAt mark text ≠ [] := by
  cases text with
  | nil => simp [splitAt]
  | cons c rest =>
    unfold splitAt
    split
    · simp
    · split <;> simp

/-- A text cut at the last occurrence of a character: what precedes it and what follows it. -/
def cutLast (mark : Char) : List Char → Option (List Char × List Char)
  | [] => none
  | c :: rest =>
    match cutLast mark rest with
    | some (front, back) => some (c :: front, back)
    | none => if c = mark then some ([], rest) else none

/-- A text that cannot be cut does not hold the character. -/
theorem cutLast_eq_none_iff {mark : Char} {text : List Char} :
    cutLast mark text = none ↔ mark ∉ text := by
  induction text with
  | nil => simp [cutLast]
  | cons c rest ih =>
    rw [cutLast, List.mem_cons, not_or, ← ih]
    cases cutLast mark rest with
    | some cut => simp
    | none => simp [eq_comm]

/-- A text is cut where no later occurrence follows. -/
theorem cutLast_append {mark : Char} {back : List Char} (absent : mark ∉ back)
    (front : List Char) : cutLast mark (front ++ mark :: back) = some (front, back) := by
  induction front with
  | nil => simp [cutLast, cutLast_eq_none_iff.mpr absent]
  | cons c front ih => rw [List.cons_append, cutLast, ih]

/-- What follows the last occurrence holds no other. -/
theorem eq_append_of_cutLast {mark : Char} {text front back : List Char}
    (cut : cutLast mark text = some (front, back)) :
    text = front ++ mark :: back ∧ mark ∉ back := by
  induction text generalizing front with
  | nil => cases cut
  | cons c rest ih =>
    unfold cutLast at cut
    split at cut
    next before after inside =>
      cases cut
      obtain ⟨rfl, absent⟩ := ih inside
      exact ⟨rfl, absent⟩
    next inside =>
      split at cut
      next here =>
        cases cut
        exact ⟨by rw [here, List.nil_append], cutLast_eq_none_iff.mp inside⟩
      next => cases cut

/-- What follows a given start of a text. -/
def after? : List Char → List Char → Option (List Char)
  | [], text => some text
  | _ :: _, [] => none
  | c :: lead, d :: text => if c = d then after? lead text else none

/-- What precedes a given end of a text. -/
def before? (tail text : List Char) : Option (List Char) :=
  (after? tail.reverse text.reverse).map List.reverse

/-- What follows a start is the rest of the text. -/
theorem after?_eq_some_iff {lead text rest : List Char} :
    after? lead text = some rest ↔ text = lead ++ rest := by
  fun_induction after? lead text with
  | case1 text => simp
  | case2 => simp
  | case3 lead c text ih => simpa using ih
  | case4 c lead d text differ => simp [Ne.symm differ]

/-- What follows a start is found behind it. -/
theorem after?_append (lead rest : List Char) : after? lead (lead ++ rest) = some rest :=
  after?_eq_some_iff.mpr rfl

/-- Texts that begin with different characters. -/
theorem after?_cons_of_ne {c d : Char} (differ : c ≠ d) (lead text : List Char) :
    after? (c :: lead) (d :: text) = none := by
  rw [after?, if_neg differ]

/-- A text without one of the characters of the start. -/
theorem after?_of_not_mem {c : Char} {lead text : List Char} (mem : c ∈ lead) (absent : c ∉ text) :
    after? lead text = none := by
  rw [Option.eq_none_iff_forall_ne_some]
  intro rest found
  rw [after?_eq_some_iff.mp found] at absent
  exact absent (List.mem_append_left rest mem)

/-- What precedes an end is found in front of it. -/
theorem before?_append (text tail : List Char) : before? tail (text ++ tail) = some text := by
  rw [before?, List.reverse_append, after?_append, Option.map_some, List.reverse_reverse]

theorem before?_of_not_mem {c : Char} {tail text : List Char} (mem : c ∈ tail)
    (absent : c ∉ text) : before? tail text = none := by
  rw [before?, after?_of_not_mem (List.mem_reverse.mpr mem) (mt List.mem_reverse.mp absent),
    Option.map_none]

end CodeAssist.Text
