import CodeAssist.Proofs.Text.DottedNames
import CodeAssist.Text.Marker
import Mathlib.Data.List.Chain
import Mathlib.Data.List.TakeWhile
/-!
# Markers are read back as they were written

Markers can be written into a text at boundaries of its characters, from front to back, where no
digit follows; and no dollar sign of the text may stand right before a digit (`Markable`). Stripping
such a fixture gives the text and the markers back. Whatever else is stripped, its text and its
markers are of this kind, so nothing in the text that is left looks like a marker
(`markers_are_read_back`).

A fixture is read as pieces, and spelling the pieces gives the fixture (`spell_pieces`). The reverse
is the question where one piece ends: a marker takes all digits behind it. `Legible` says of pieces
that no digit stands where it would be taken, which is what both directions keep: the pieces of a
fixture are legible (`legible_pieces`), legible pieces are found again (`pieces_spell`), and in the
text without its markers a digit comes no nearer to a dollar sign, because what stood behind the
last marker between them was none (`Legible.unmarked`).
-/

namespace CodeAssist

namespace Text

/-- What stands before a boundary is cut off there. -/
theorem takeBytes_append (front rest : List Char) :
    takeBytes (front ++ rest) (byteLength front) = front := by
  induction front with
  | nil =>
    cases rest with
    | nil => rfl
    | cons c rest => exact if_neg (Nat.not_le.mpr c.utf8Size_pos)
  | cons c front ih =>
    rw [List.cons_append, takeBytes, byteLength_cons, if_pos (Nat.le_add_right _ _),
      Nat.add_sub_cancel_left, ih]

end Text

open Text (byteLength)

/-! ## Writing markers -/

/-- A marker as it is written. -/
def Marker.text (marker : Marker) : List Char := '$' :: Nat.toDigits 10 marker.id

namespace Fixture

/-- Writes a marker into a text at its offset. -/
def insert (marker : Marker) (text : List Char) : List Char :=
  let front := Text.takeBytes text marker.offset
  front ++ marker.text ++ text.drop front.length

/-- Writes markers into a text, the last one first, so that the offsets of those before it stay what
they are. -/
def insertAll (markers : List Marker) (text : List Char) : List Char :=
  markers.foldr insert text

/-- A text does not begin with a digit. -/
def NoDigit (text : List Char) : Prop := ∀ c ∈ text.head?, c.isDigit = false

/-- No dollar sign stands right before a digit. -/
def Unmarked (text : List Char) : Prop := text.IsChain fun c next => c = '$' → next.isDigit = false

/-- A boundary of characters with no digit behind it. -/
def IsOpen (text : List Char) (place : Nat) : Prop :=
  ∃ front rest, text = front ++ rest ∧ byteLength front = place ∧ NoDigit rest

/-- A text and markers that can be written into it: their numbers are different and fit in 32 bits,
and their places are in order and open. -/
structure Markable (text : List Char) (markers : List Marker) : Prop where
  unmarked : Unmarked text
  small : ∀ marker ∈ markers, marker.id < 4294967296
  distinct : (markers.map Marker.id).Nodup
  ordered : markers.Pairwise fun first second => first.offset ≤ second.offset
  isOpen : ∀ marker ∈ markers, IsOpen text marker.offset

/-! ## Pieces and what they spell -/

/-- A piece as it stands in a fixture. -/
def Piece.text : Piece → List Char
  | .plain c => [c]
  | .marker digits => '$' :: digits

/-- The fixture that pieces spell. -/
def spell (ps : List Piece) : List Char := ps.flatMap Piece.text

/-- The characters that are in no marker. -/
def plainText : List Piece → List Char
  | [] => []
  | .plain c :: ps => c :: plainText ps
  | .marker _ :: ps => plainText ps

/-- The markers among pieces, from the byte offset reached so far. -/
def marksFrom (offset : Nat) : List Piece → List Marker
  | [] => []
  | .plain c :: ps => marksFrom (offset + c.utf8Size) ps
  | .marker digits :: ps => ⟨decimalValue digits, offset⟩ :: marksFrom offset ps

/-- Pieces that do not run together: no digit follows a marker or a plain dollar sign. -/
inductive Legible : List Piece → Prop
  | nil : Legible []
  | plain {c : Char} {ps : List Piece} (apart : c = '$' → NoDigit (spell ps))
      (later : Legible ps) : Legible (.plain c :: ps)
  | marker {digits : List Char} {ps : List Piece} (some : digits ≠ [])
      (decimal : ∀ c ∈ digits, c.isDigit = true) (apart : NoDigit (spell ps))
      (later : Legible ps) : Legible (.marker digits :: ps)

variable {text front rest digits : List Char} {ps : List Piece} {marker : Marker}
  {markers : List Marker} {offset : Nat}

@[simp] theorem spell_plain (c : Char) (ps : List Piece) : spell (.plain c :: ps) = c :: spell ps :=
  rfl

@[simp] theorem spell_marker (digits : List Char) (ps : List Piece) :
    spell (.marker digits :: ps) = '$' :: (digits ++ spell ps) := rfl

/-- Text in front of pieces is spelled as it is. -/
theorem spell_append (front : List Char) (ps : List Piece) :
    spell (front.map .plain ++ ps) = front ++ spell ps := by
  induction front with
  | nil => rfl
  | cons c front ih => rw [List.map_cons, List.cons_append, spell_plain, ih, List.cons_append]

/-- Pieces without markers spell their text. -/
theorem spell_map_plain (text : List Char) : spell (text.map .plain) = text := by
  simpa [spell] using spell_append text []

theorem plainText_append (front : List Char) (ps : List Piece) :
    plainText (front.map .plain ++ ps) = front ++ plainText ps := by
  induction front with
  | nil => rfl
  | cons c front ih => rw [List.map_cons, List.cons_append, plainText, ih, List.cons_append]

/-- Text in front moves the places of the markers by its bytes. -/
theorem marksFrom_append (offset : Nat) (front : List Char) (ps : List Piece) :
    marksFrom offset (front.map .plain ++ ps) = marksFrom (offset + byteLength front) ps := by
  induction front generalizing offset with
  | nil => rfl
  | cons c front ih =>
    rw [List.map_cons, List.cons_append, marksFrom, ih, Text.byteLength_cons, Nat.add_assoc]

/-! ## Reading a fixture as pieces -/

/-- Nothing of a fixture is lost in its pieces. -/
theorem spell_pieces (text : List Char) : spell (pieces text) = text := by
  fun_induction pieces text with
  | case1 => rfl
  | case2 c rest marked ih =>
    rw [spell_marker, ih, List.takeWhile_append_dropWhile, marked.1]
  | case3 c rest _ ih => rw [spell_plain, ih]

/-- Behind all digits that a text begins with there is no digit. -/
theorem noDigit_dropWhile (text : List Char) : NoDigit (text.dropWhile Char.isDigit) := by
  intro c first
  have stopped := List.head?_dropWhile_not Char.isDigit text
  rw [Option.mem_def.mp first] at stopped
  exact stopped

theorem takeWhile_eq_nil_iff_noDigit : text.takeWhile Char.isDigit = [] ↔ NoDigit text := by
  cases text with
  | nil => simp [NoDigit]
  | cons c rest => cases digit : c.isDigit <;> simp [NoDigit, digit]

/-- The pieces of a text can be told apart again. -/
theorem legible_pieces (text : List Char) : Legible (pieces text) := by
  fun_induction pieces text with
  | case1 => exact .nil
  | case2 c rest marked ih =>
    refine .marker ?_ (fun c mem => List.mem_takeWhile_imp mem) ?_ ih
    · simpa using marked.2
    · rw [spell_pieces]
      exact noDigit_dropWhile rest
  | case3 c rest unmarked ih =>
    refine .plain (fun dollar => ?_) ih
    rw [spell_pieces, ← takeWhile_eq_nil_iff_noDigit]
    simpa [dollar] using unmarked

/-- Pieces that do not run together are found again. -/
theorem pieces_spell (legible : Legible ps) : pieces (spell ps) = ps := by
  induction legible with
  | nil => rw [spell, List.flatMap_nil, pieces]
  | @plain c ps apart _ ih =>
    have plain : ¬ (c = '$' ∧ (!((spell ps).takeWhile Char.isDigit).isEmpty) = true) := by
      rintro ⟨dollar, digits⟩
      rw [takeWhile_eq_nil_iff_noDigit.mpr (apart dollar)] at digits
      cases digits
    rw [spell_plain, pieces, if_neg plain, ih]
  | @marker digits ps some decimal apart _ ih =>
    have taken : (digits ++ spell ps).takeWhile Char.isDigit = digits := by
      rw [List.takeWhile_append_of_pos decimal, takeWhile_eq_nil_iff_noDigit.mpr apart,
        List.append_nil]
    have left : (digits ++ spell ps).dropWhile Char.isDigit = spell ps := by
      rw [List.dropWhile_append_of_pos decimal, Text.dropWhile_of_head? apart]
    rw [spell_marker, pieces, taken, left, ih, if_pos (by simpa using some)]

/-! ## Reading the markers off the pieces -/

/-- Markers with different numbers that fit in 32 bits, none of which is taken. -/
def Fresh (taken : List Nat) (markers : List Marker) : Prop :=
  (∀ marker ∈ markers, marker.id < 4294967296 ∧ marker.id ∉ taken) ∧
    (markers.map Marker.id).Nodup

/-- Markers are fresh if the first one fits and is not taken, and the others are fresh once it
is. -/
theorem fresh_cons {taken : List Nat} : Fresh taken (marker :: markers) ↔
    (marker.id < 4294967296 ∧ marker.id ∉ taken) ∧ Fresh (marker.id :: taken) markers := by
  simp only [Fresh, List.mem_cons, forall_eq_or_imp, not_or, List.map_cons, List.nodup_cons,
    List.mem_map, not_exists, not_and]
  grind

/-- Reading the markers off pieces leaves the other characters, and fails only at a number that is
too large or taken. -/
theorem place_eq_ok_iff {taken : List Nat} :
    place offset taken ps = .ok (text, markers) ↔
      plainText ps = text ∧ marksFrom offset ps = markers ∧ Fresh taken markers := by
  induction ps generalizing offset taken text markers with
  | nil =>
    simp only [place, Except.ok.injEq, Prod.mk.injEq, plainText, marksFrom]
    constructor
    · rintro ⟨rfl, rfl⟩
      simp [Fresh]
    · rintro ⟨rfl, rfl, -⟩
      exact ⟨rfl, rfl⟩
  | cons piece ps ih =>
    cases piece with
    | plain c =>
      rw [place, plainText, marksFrom]
      constructor
      · intro read
        cases later : place (offset + c.utf8Size) taken ps with
        | error failure =>
          rw [later] at read
          cases read
        | ok found =>
          rw [later] at read
          cases read
          obtain ⟨whole, marks⟩ := ih.mp later
          exact ⟨congrArg _ whole, marks⟩
      · rintro ⟨rfl, marks⟩
        rw [ih.mpr ⟨rfl, marks⟩]
        rfl
    | marker digits =>
      rw [place, plainText, marksFrom]
      dsimp only
      constructor
      · intro read
        split at read
        next => cases read
        next small =>
          split at read
          next => cases read
          next free =>
            cases later : place offset (decimalValue digits :: taken) ps with
            | error failure =>
              rw [later] at read
              cases read
            | ok found =>
              rw [later] at read
              cases read
              obtain ⟨whole, marks, fresh⟩ := ih.mp later
              have new : Fresh taken (⟨decimalValue digits, offset⟩ :: found.2) :=
                fresh_cons.mpr ⟨⟨Nat.not_le.mp small, free⟩, fresh⟩
              exact ⟨whole, congrArg _ marks, new⟩
      · rintro ⟨rfl, rfl, fresh⟩
        obtain ⟨⟨small, free⟩, fresh⟩ := fresh_cons.mp fresh
        rw [if_neg (Nat.not_le.mpr small), if_neg free, ih.mpr ⟨rfl, rfl, fresh⟩]
        rfl

/-! ## The text without its markers -/

/-- A fixture that does not begin with a digit does not begin with one without its markers. -/
theorem Legible.noDigit_plainText (legible : Legible ps) (apart : NoDigit (spell ps)) :
    NoDigit (plainText ps) := by
  induction legible with
  | nil => exact apart
  | plain => exact apart
  | marker _ _ behind _ ih => exact ih behind

/-- Taking the markers out of a fixture makes no new one. -/
theorem Legible.unmarked (legible : Legible ps) : Unmarked (plainText ps) := by
  induction legible with
  | nil => exact .nil
  | plain apart later ih =>
    refine List.isChain_cons.mpr ⟨fun next first dollar => ?_, ih⟩
    exact later.noDigit_plainText (apart dollar) next first
  | marker _ _ _ _ ih => exact ih

/-- No marker stands before the place that is counted from. -/
theorem le_offset_of_mem_marksFrom (mem : marker ∈ marksFrom offset ps) :
    offset ≤ marker.offset := by
  induction ps generalizing offset with
  | nil => cases mem
  | cons piece ps ih =>
    cases piece with
    | plain c => exact (Nat.le_add_right _ _).trans (ih mem)
    | marker digits =>
      rcases List.mem_cons.mp mem with rfl | later
      · exact Nat.le_refl _
      · exact ih later

/-- Markers are found from left to right. -/
theorem pairwise_marksFrom (offset : Nat) (ps : List Piece) :
    (marksFrom offset ps).Pairwise fun first second => first.offset ≤ second.offset := by
  induction ps generalizing offset with
  | nil => exact .nil
  | cons piece ps ih =>
    cases piece with
    | plain c => exact ih _
    | marker digits =>
      exact List.pairwise_cons.mpr ⟨fun _ mem => le_offset_of_mem_marksFrom mem, ih offset⟩

/-- Markers stand at boundaries of the text without them, and no digit follows there. -/
theorem Legible.isOpen_of_mem (legible : Legible ps) (mem : marker ∈ marksFrom offset ps) :
    ∃ front rest, plainText ps = front ++ rest ∧ offset + byteLength front = marker.offset ∧
      NoDigit rest := by
  induction legible generalizing offset with
  | nil => cases mem
  | @plain c ps _ _ ih =>
    obtain ⟨front, rest, cut, reached, free⟩ := ih mem
    refine ⟨c :: front, rest, congrArg _ cut, ?_, free⟩
    rw [Text.byteLength_cons, ← Nat.add_assoc, reached]
  | @marker digits ps _ _ apart later ih =>
    rcases List.mem_cons.mp mem with rfl | mem
    · exact ⟨[], plainText ps, rfl, rfl, later.noDigit_plainText apart⟩
    · exact ih mem

/-- What is stripped can be written again. -/
theorem markable_of_strip {fixture : List Char} (stripped : strip fixture = .ok (text, markers)) :
    Markable text markers := by
  obtain ⟨rfl, rfl, fresh, distinct⟩ := place_eq_ok_iff.mp stripped
  have legible := legible_pieces fixture
  refine ⟨legible.unmarked, fun marker mem => (fresh marker mem).1, distinct,
    pairwise_marksFrom 0 _, fun marker mem => ?_⟩
  obtain ⟨front, rest, cut, reached, free⟩ := legible.isOpen_of_mem mem
  exact ⟨front, rest, cut, by rw [← reached, Nat.zero_add], free⟩

/-! ## Pieces with markers written into them -/

theorem legible_plain (unmarked : Unmarked text) : Legible (text.map .plain) := by
  induction text with
  | nil => exact .nil
  | cons c text ih =>
    obtain ⟨apart, later⟩ := List.isChain_cons.mp unmarked
    refine .plain (fun dollar next first => ?_) (ih later)
    rw [spell_map_plain] at first
    exact apart next first dollar

/-- Characters before the first marker are pieces of their own. -/
theorem exists_behind (cut : plainText ps = front ++ rest)
    (behind : ∀ marker ∈ marksFrom offset ps, offset + byteLength front ≤ marker.offset) :
    ∃ later, ps = front.map .plain ++ later ∧ plainText later = rest := by
  induction front generalizing offset ps with
  | nil => exact ⟨ps, rfl, cut⟩
  | cons c front ih =>
    match ps with
    | [] => cases cut
    | .marker digits :: ps =>
      have here := behind ⟨decimalValue digits, offset⟩ List.mem_cons_self
      have size := c.utf8Size_pos
      rw [Text.byteLength_cons] at here
      dsimp only at here
      omega
    | .plain d :: ps =>
      rw [plainText, List.cons_append, List.cons.injEq] at cut
      obtain ⟨rfl, cut⟩ := cut
      have behind : ∀ marker ∈ marksFrom (offset + d.utf8Size) ps,
          offset + d.utf8Size + byteLength front ≤ marker.offset := by
        simpa only [marksFrom, Text.byteLength_cons, ← Nat.add_assoc] using behind
      obtain ⟨later, rfl, whole⟩ := ih cut behind
      exact ⟨later, rfl, whole⟩

/-- A marker may be put in where no digit follows. -/
theorem Legible.insert (legible : Legible (front.map .plain ++ ps)) (free : NoDigit (spell ps))
    (some : digits ≠ []) (decimal : ∀ c ∈ digits, c.isDigit = true) :
    Legible (front.map .plain ++ .marker digits :: ps) := by
  induction front with
  | nil => exact .marker some decimal free legible
  | cons c front ih =>
    rw [List.map_cons, List.cons_append] at legible ⊢
    cases legible with
    | plain apart later =>
      refine .plain (fun dollar => ?_) (ih later)
      -- the dollar sign of the marker is no digit, and elsewhere the same character follows
      have apart := apart dollar
      rw [spell_append] at apart ⊢
      cases front with
      | nil => simp [NoDigit]
      | cons => exact apart

/-- A text that begins with no digit still does with markers in it, since these begin with their
sign. -/
theorem noDigit_spell (free : NoDigit (plainText ps)) : NoDigit (spell ps) := by
  match ps with
  | [] => exact free
  | .plain _ :: _ => exact free
  | .marker _ :: _ => simp [NoDigit]

theorem insert_append (reached : byteLength front = marker.offset) (rest : List Char) :
    Fixture.insert marker (front ++ rest) = front ++ marker.text ++ rest := by
  rw [Fixture.insert, ← reached, Text.takeBytes_append, List.drop_left]

/-- What can be marked with some markers can be marked with the later ones. -/
theorem Markable.tail (markable : Markable text (marker :: markers)) : Markable text markers where
  unmarked := markable.unmarked
  small := fun other mem => markable.small other (List.mem_cons_of_mem _ mem)
  distinct := (List.nodup_cons.mp markable.distinct).2
  ordered := (List.pairwise_cons.mp markable.ordered).2
  isOpen := fun other mem => markable.isOpen other (List.mem_cons_of_mem _ mem)

theorem decimalValue_toDigits (n : Nat) : decimalValue (Nat.toDigits 10 n) = n :=
  Nat.ofDigitChars_ten_toDigits

/-- A text with markers written into it is spelled by legible pieces, which are its characters and
these markers. -/
theorem exists_pieces_insertAll (markable : Markable text markers) :
    ∃ ps, spell ps = insertAll markers text ∧ Legible ps ∧ plainText ps = text ∧
      marksFrom 0 ps = markers := by
  induction markers with
  | nil =>
    refine ⟨text.map .plain, spell_map_plain text, legible_plain markable.unmarked, ?_, ?_⟩
    · simpa [plainText] using plainText_append text []
    · simpa [marksFrom] using marksFrom_append 0 text []
  | cons marker markers ih =>
    obtain ⟨ps, spelled, legible, whole, marks⟩ := ih markable.tail
    obtain ⟨front, rest, cut, reached, free⟩ := markable.isOpen marker List.mem_cons_self
    have behind : ∀ other ∈ marksFrom 0 ps, 0 + byteLength front ≤ other.offset := by
      rw [marks, Nat.zero_add, reached]
      exact (List.pairwise_cons.mp markable.ordered).1
    obtain ⟨later, rfl, remains⟩ := exists_behind (whole.trans cut) behind
    have number := decimalValue_toDigits marker.id
    have decimal : ∀ c ∈ Nat.toDigits 10 marker.id, c.isDigit = true := fun c mem =>
      Nat.isDigit_of_mem_toDigits (by decide) (by decide) mem
    refine ⟨front.map .plain ++ .marker (Nat.toDigits 10 marker.id) :: later, ?_,
      legible.insert (noDigit_spell (remains ▸ free)) Nat.toDigits_ne_nil decimal, ?_, ?_⟩
    · have written : insertAll (marker :: markers) text = front ++ marker.text ++ spell later := by
        rw [insertAll, List.foldr_cons, ← insertAll, ← spelled, spell_append,
          insert_append reached]
      rw [written, spell_append, spell_marker, Marker.text, List.append_assoc, List.cons_append]
    · rw [plainText_append, plainText, remains, cut]
    · rw [marksFrom_append] at marks ⊢
      rw [marksFrom, marks, number, Nat.zero_add, reached]

/-- Markers that can be written into a text are read back from it, and the text without them is
left; and whatever is read from a fixture can be written again, and nothing more is stripped from
what is left. -/
theorem markers_are_read_back :
    (∀ text markers, Markable text markers →
      strip (insertAll markers text) = .ok (text, markers)) ∧
    ∀ fixture text markers, strip fixture = .ok (text, markers) →
      Markable text markers ∧ strip text = .ok (text, []) := by
  have written : ∀ text markers, Markable text markers →
      strip (insertAll markers text) = .ok (text, markers) := by
    intro text markers markable
    obtain ⟨ps, spelled, legible, whole, marks⟩ := exists_pieces_insertAll markable
    rw [strip, ← spelled, pieces_spell legible]
    refine place_eq_ok_iff.mpr ⟨whole, marks, fun marker mem => ?_, markable.distinct⟩
    exact ⟨markable.small marker mem, List.not_mem_nil⟩
  refine ⟨written, fun fixture text markers stripped => ?_⟩
  have markable := markable_of_strip stripped
  have bare : Markable text [] :=
    ⟨markable.unmarked, by simp, .nil, .nil, by simp⟩
  exact ⟨markable, written text [] bare⟩

/-- Two markers at one place, one between a dollar sign and a letter, and one at the end behind
another dollar sign. -/
theorem crowded_markers_are_read_back :
    let text := "α$x9$".toList
    let markers : List Marker := [⟨10, 2⟩, ⟨0, 2⟩, ⟨4294967295, 3⟩, ⟨7, 6⟩]
    let fixture := "α$10$0$$4294967295x9$$7".toList
    Markable text markers ∧ insertAll markers text = fixture ∧
      strip fixture = .ok (text, markers) ∧ strip text = .ok (text, []) := by
  intro text markers fixture
  have markable : Markable text markers :=
    { unmarked := by unfold Unmarked; decide
      small := by decide
      distinct := by decide
      ordered := by decide
      isOpen := by
        intro marker mem
        simp only [markers, List.mem_cons, List.not_mem_nil, or_false] at mem
        rcases mem with rfl | rfl | rfl | rfl
        · exact ⟨['α'], ['$', 'x', '9', '$'], rfl, rfl, by simp [NoDigit]⟩
        · exact ⟨['α'], ['$', 'x', '9', '$'], rfl, rfl, by simp [NoDigit]⟩
        · exact ⟨['α', '$'], ['x', '9', '$'], rfl, rfl, by simp [NoDigit]⟩
        · exact ⟨['α', '$', 'x', '9', '$'], [], rfl, rfl, by simp [NoDigit]⟩ }
  have written : insertAll markers text = fixture := by decide +kernel
  have stripped := markers_are_read_back.1 text markers markable
  rw [written] at stripped
  exact ⟨markable, written, stripped, (markers_are_read_back.2 fixture text markers stripped).2⟩

end Fixture

end CodeAssist
