import CodeAssist.Proofs.Matching.Pieces
import CodeAssist.Proofs.Text.CursorToken
import Mathlib.Data.List.Chain
import Mathlib.Data.List.Forall2
/-!
# Pieces as ranges of a name

The words, the humps and the segments of a name are ranges of its bytes. They come in order, do not
overlap and cover the bytes that are no separators, and no others (`pieces_segment_names`). Two
neighbours have separators between them or meet at an ASCII letter or digit. A byte of either kind
is a character of its own, so no range begins or ends inside a character (`isBoundary_of_ascii`).

All this holds of every rule that cuts at letters and digits only, by one induction over the pieces
(`laidOut`). That each segment is made of humps is a fact about two rules: humps are cut wherever
segments are (`exists_joined_runs`).
-/

namespace CodeAssist

/-! ## Bytes that are characters -/

namespace Text

variable {text : List Char} {place : Nat}

/-- A text has as many bytes as its characters have together. -/
theorem length_bytes (text : List Char) : (bytes text).length = byteLength text := by
  induction text with
  | nil => rfl
  | cons c text ih =>
    rw [bytes, List.flatMap_cons, List.length_append, ← bytes, ih, String.length_utf8EncodeChar,
      byteLength_cons]

/-- In the bytes of a character, one below 128 stands alone. -/
theorem utf8EncodeChar_of_ascii {c : Char} {b : UInt8} (mem : b ∈ String.utf8EncodeChar c)
    (ascii : b.toNat < 128) : String.utf8EncodeChar c = [b] := by
  unfold String.utf8EncodeChar at mem ⊢
  dsimp only at mem ⊢
  generalize c.val.toNat = v at mem ⊢
  split at mem
  next small => rw [if_pos small, List.mem_singleton.mp mem]
  next =>
    -- of a longer character no byte is below 128
    have big : ∀ x, 128 ≤ x → x < 256 → b ≠ UInt8.ofNat x := by
      rintro x low high rfl
      rw [UInt8.toNat_ofNat_of_lt' (by simpa using high)] at ascii
      omega
    exfalso
    split at mem
    next =>
      simp only [List.mem_cons, List.not_mem_nil, or_false] at mem
      rcases mem with rfl | rfl <;> exact big _ (by omega) (by omega) rfl
    next =>
      split at mem <;> simp only [List.mem_cons, List.not_mem_nil, or_false] at mem
      next => rcases mem with rfl | rfl | rfl <;> exact big _ (by omega) (by omega) rfl
      next => rcases mem with rfl | rfl | rfl | rfl <;> exact big _ (by omega) (by omega) rfl

theorem isBoundary_zero (text : List Char) : IsBoundary text 0 :=
  ⟨[], List.nil_prefix, rfl⟩

/-- The last boundary is behind all bytes. -/
theorem isBoundary_length (text : List Char) : IsBoundary text (bytes text).length :=
  ⟨text, List.prefix_rfl, (length_bytes text).symm⟩

/-- A character in front moves all boundaries by its bytes. -/
theorem IsBoundary.cons (boundary : IsBoundary text place) (c : Char) :
    IsBoundary (c :: text) (c.utf8Size + place) := by
  obtain ⟨front, start, rfl⟩ := boundary
  exact ⟨c :: front, (List.prefix_cons_inj c).mpr start, rfl⟩

/-- A byte below 128 has a boundary before it and one behind it. -/
theorem isBoundary_of_ascii {b : UInt8} (here : b ∈ (bytes text)[place]?) (ascii : b.toNat < 128) :
    IsBoundary text place ∧ IsBoundary text (place + 1) := by
  induction text generalizing place with
  | nil => exact absurd here (Option.not_mem_none b)
  | cons c text ih =>
    rw [bytes, List.flatMap_cons, ← bytes] at here
    rcases Nat.lt_or_ge place (String.utf8EncodeChar c).length with inside | behind
    · rw [List.getElem?_append_left inside] at here
      have alone := utf8EncodeChar_of_ascii (List.mem_of_getElem? here) ascii
      rw [alone, List.length_singleton, Nat.lt_one_iff] at inside
      subst inside
      have next := (isBoundary_zero text).cons c
      rw [← String.length_utf8EncodeChar, alone] at next
      exact ⟨isBoundary_zero _, next⟩
    · rw [List.getElem?_append_right behind] at here
      obtain ⟨place, rfl⟩ := Nat.exists_eq_add_of_le behind
      rw [Nat.add_sub_cancel_left] at here
      obtain ⟨before, after⟩ := ih here
      rw [String.length_utf8EncodeChar, Nat.add_assoc]
      exact ⟨before.cons c, after.cons c⟩

end Text

namespace Matching

variable {rule : CutRule} {front text : List UInt8} {offset place : Nat} {piece : Piece}
  {pieces : List Piece}

/-! ## Places of a name -/

/-- A place lies in the range of a piece. -/
def Piece.Covers (piece : Piece) (place : Nat) : Prop := piece.start ≤ place ∧ place < piece.stop

/-- A separator stands at a place. -/
def SeparatorAt (text : List UInt8) (place : Nat) : Prop :=
  ∃ b ∈ text[place]?, isSeparator b = true

/-- Something else stands at a place. -/
def PlainAt (text : List UInt8) (place : Nat) : Prop :=
  ∃ b ∈ text[place]?, isSeparator b = false

/-- An ASCII letter or digit stands at a place. -/
def AlphanumericAt (text : List UInt8) (place : Nat) : Prop :=
  ∃ b ∈ text[place]?, (isLetter b || isDigit b) = true

/-- Two pieces stand next to each other: there is something between them, and nothing but
separators, or they meet at a letter or digit. -/
def Adjoin (text : List UInt8) (first second : Piece) : Prop :=
  (first.stop < second.start ∧
    ∀ place, first.stop ≤ place → place < second.start → SeparatorAt text place) ∨
  (first.stop = second.start ∧ AlphanumericAt text second.start)

/-- Pieces are the ranges of a text between its separators. -/
structure Segmentation (text : List Char) (pieces : List Piece) : Prop where
  nonempty : ∀ piece ∈ pieces, piece.start < piece.stop
  /-- A piece has the bytes of its range. -/
  bytes : ∀ piece ∈ pieces, piece.bytes =
    ((Text.bytes text).drop piece.start).take (piece.stop - piece.start)
  inOrder : pieces.Pairwise fun first second => first.stop ≤ second.start
  exact : ∀ place, (∃ piece ∈ pieces, piece.Covers place) ↔ PlainAt (Text.bytes text) place
  onBoundaries : ∀ piece ∈ pieces,
    Text.IsBoundary text piece.start ∧ Text.IsBoundary text piece.stop
  adjoin : pieces.IsChain (Adjoin (Text.bytes text))

/-- A place holds one byte, which is a separator or is not. -/
theorem PlainAt.not_separatorAt (plain : PlainAt text place) : ¬ SeparatorAt text place := by
  rintro ⟨b, mem, separator⟩
  obtain ⟨c, mem', other⟩ := plain
  obtain rfl := Option.mem_unique mem mem'
  rw [separator] at other
  cases other

theorem PlainAt.lt_length (plain : PlainAt text place) : place < text.length := by
  obtain ⟨b, mem, -⟩ := plain
  exact (List.getElem?_eq_some_iff.mp mem).1

section Boundaries

variable {name : List Char}

/-- A separator is a character of its own. -/
theorem SeparatorAt.isBoundary (separator : SeparatorAt (Text.bytes name) place) :
    Text.IsBoundary name place ∧ Text.IsBoundary name (place + 1) := by
  obtain ⟨b, here, own⟩ := separator
  exact Text.isBoundary_of_ascii here (toNat_lt_of_isSeparator own)

/-- So is a letter or a digit of ASCII. -/
theorem AlphanumericAt.isBoundary (alphanumeric : AlphanumericAt (Text.bytes name) place) :
    Text.IsBoundary name place := by
  obtain ⟨b, here, own⟩ := alphanumeric
  exact (Text.isBoundary_of_ascii here (toNat_lt_of_isAlphanumeric own)).1

end Boundaries

/-! ## From one piece to the next -/

/-- Pieces in a text from a place on: separators up to the first one, its own bytes, then the end, a
separator, or a letter or digit, from where the others are laid out in the same way. -/
inductive LaidOut (text : List UInt8) : Nat → List Piece → Prop
  | rest {offset : Nat} (separators : ∀ place, offset ≤ place → ¬ PlainAt text place) :
      LaidOut text offset []
  | piece {offset : Nat} {piece : Piece} {pieces : List Piece} (below : offset ≤ piece.start)
      (separators : ∀ place, offset ≤ place → place < piece.start → SeparatorAt text place)
      (nonempty : piece.start < piece.stop)
      (bytes : piece.bytes = (text.drop piece.start).take (piece.stop - piece.start))
      (plain : ∀ place, piece.Covers place → PlainAt text place)
      (edge : piece.stop = text.length ∨ SeparatorAt text piece.stop ∨
        AlphanumericAt text piece.stop)
      (later : LaidOut text piece.stop pieces) : LaidOut text offset (piece :: pieces)

/-- A rule cuts at letters and digits only. -/
def CutsAtAlphanumerics (rule : CutRule) : Prop :=
  ∀ previous current next, rule previous current next = true →
    (isLetter current || isDigit current) = true

/-- Humps begin at capitals and at first digits. -/
theorem humpRule_cuts : CutsAtAlphanumerics humpRule := by
  intro previous current next cut
  simp only [humpRule, isLetter, Bool.or_eq_true, Bool.and_eq_true] at cut ⊢
  tauto

/-- Segments begin at capitals. -/
theorem segmentRule_cuts : CutsAtAlphanumerics segmentRule := by
  intro previous current next cut
  simp only [segmentRule, isLetter, Bool.or_eq_true] at cut ⊢
  tauto

/-- Words begin where letters turn into capitals or digits, or digits into letters. -/
theorem wordRule_cuts : CutsAtAlphanumerics wordRule := by
  intro previous current next cut
  simp only [wordRule, isLetter, Bool.or_eq_true, Bool.and_eq_true] at cut ⊢
  tauto

/-- What is so of each byte of a part is so at the places of the part. -/
theorem holds_between {middle behind : List UInt8} {test : UInt8 → Bool} {answer : Bool}
    (all : ∀ b ∈ middle, test b = answer) (far : front.length ≤ place)
    (near : place < front.length + middle.length) :
    ∃ b ∈ (front ++ (middle ++ behind))[place]?, test b = answer := by
  obtain ⟨place, rfl⟩ := Nat.exists_eq_add_of_le far
  have inside : place < middle.length := Nat.lt_of_add_lt_add_left near
  refine ⟨middle[place], ?_, all _ (List.getElem_mem inside)⟩
  rw [List.getElem?_append_right far, Nat.add_sub_cancel_left, List.getElem?_append_left inside,
    List.getElem?_eq_getElem inside]
  rfl

/-- Where a piece ends there is the end, a separator, or a letter or digit at which the rule cuts. -/
theorem edge_of_cuts {behind : List UInt8} (cuts : CutsAtAlphanumerics rule)
    (edge : ∀ c ∈ behind.head?, isSeparator c = false →
      ∃ previous next, rule previous c next = true) :
    front.length = (front ++ behind).length ∨ SeparatorAt (front ++ behind) front.length ∨
      AlphanumericAt (front ++ behind) front.length := by
  cases behind with
  | nil => exact .inl (by rw [List.append_nil])
  | cons c behind =>
    have here : c ∈ (front ++ c :: behind)[front.length]? := by
      rw [List.getElem?_append_right le_rfl, Nat.sub_self]
      rfl
    cases kind : isSeparator c with
    | true => exact .inr (.inl ⟨c, here, kind⟩)
    | false =>
      obtain ⟨previous, next, cut⟩ := edge c rfl kind
      exact .inr (.inr ⟨c, here, cuts previous c next cut⟩)

/-- The pieces that such a rule cuts are laid out. -/
theorem laidOut (front : List UInt8) (cuts : CutsAtAlphanumerics rule)
    (cut : piecesFrom rule front.length text = pieces) :
    LaidOut (front ++ text) front.length pieces := by
  induction pieces generalizing front text with
  | nil =>
    have all := piecesFrom_eq_nil_iff.mp cut
    refine .rest fun place far ⟨b, mem, plain⟩ => ?_
    rw [List.getElem?_append_right far] at mem
    rw [all b (List.mem_of_getElem? mem)] at plain
    cases plain
  | cons piece pieces ih =>
    obtain ⟨behind, whole, start, some, plain, edge, later⟩ := exists_behind_first cut
    have separators : ∀ b ∈ text.takeWhile isSeparator, isSeparator b = true :=
      fun b => List.mem_takeWhile_imp
    -- the text is what stands in front, a gap, the piece and what stands behind it
    generalize text.takeWhile isSeparator = gap at whole start separators
    subst whole
    have before : (front ++ gap).length = piece.start := by rw [start, List.length_append]
    have through : (front ++ gap ++ piece.bytes).length = piece.stop := by
      rw [List.length_append, before, Piece.stop]
    have regroup : front ++ (gap ++ (piece.bytes ++ behind)) =
        front ++ gap ++ (piece.bytes ++ behind) := (List.append_assoc _ _ _).symm
    have regroup' : front ++ (gap ++ (piece.bytes ++ behind)) =
        front ++ gap ++ piece.bytes ++ behind := by rw [regroup, List.append_assoc (front ++ gap)]
    apply LaidOut.piece
    case below =>
      rw [start]
      exact Nat.le_add_right _ _
    case separators => exact fun place far near => holds_between separators far (start ▸ near)
    case nonempty => exact Nat.lt_add_of_pos_right (List.length_pos_of_ne_nil some)
    case bytes =>
      rw [regroup, ← before, List.drop_left, before, Piece.stop, Nat.add_sub_cancel_left,
        List.take_left]
    case plain =>
      rintro place ⟨far, near⟩
      rw [regroup]
      exact holds_between plain (before ▸ far) (before ▸ near)
    case edge =>
      rw [regroup', ← through]
      exact edge_of_cuts cuts edge
    case later =>
      rw [regroup', ← through]
      exact ih _ (through ▸ later)

/-! ## All pieces -/

namespace LaidOut

/-- No piece begins before the place from which the pieces are laid out. -/
theorem le_start (laid : LaidOut text offset pieces) : ∀ piece ∈ pieces, offset ≤ piece.start := by
  induction laid with
  | rest => exact fun _ mem => absurd mem List.not_mem_nil
  | piece below _ nonempty _ _ _ _ ih =>
    refine List.forall_mem_cons.mpr ⟨below, fun piece mem => ?_⟩
    exact below.trans (nonempty.le.trans (ih piece mem))

theorem nonempty (laid : LaidOut text offset pieces) :
    ∀ piece ∈ pieces, piece.start < piece.stop := by
  induction laid with
  | rest => exact fun _ mem => absurd mem List.not_mem_nil
  | piece _ _ nonempty _ _ _ _ ih => exact List.forall_mem_cons.mpr ⟨nonempty, ih⟩

theorem bytes (laid : LaidOut text offset pieces) :
    ∀ piece ∈ pieces, piece.bytes = (text.drop piece.start).take (piece.stop - piece.start) := by
  induction laid with
  | rest => exact fun _ mem => absurd mem List.not_mem_nil
  | piece _ _ _ bytes _ _ _ ih => exact List.forall_mem_cons.mpr ⟨bytes, ih⟩

/-- Each piece ends before those behind it begin. -/
theorem inOrder (laid : LaidOut text offset pieces) :
    pieces.Pairwise fun first second => first.stop ≤ second.start := by
  induction laid with
  | rest => exact .nil
  | piece _ _ _ _ _ _ later ih => exact .cons later.le_start ih

/-- From the place on, the pieces cover what is no separator. -/
theorem exact (laid : LaidOut text offset pieces) (far : offset ≤ place) :
    (∃ piece ∈ pieces, piece.Covers place) ↔ PlainAt text place := by
  induction laid with
  | rest separators => exact iff_of_false (by simp) (separators place far)
  | @piece offset piece pieces below separators nonempty bytes plain edge later ih =>
    rw [List.exists_mem_cons_iff]
    rcases Nat.lt_or_ge place piece.start with before | from_start
    · refine iff_of_false ?_ fun plain => plain.not_separatorAt (separators place far before)
      rintro (⟨inside, -⟩ | ⟨other, mem, inside, -⟩)
      · omega
      · have := later.le_start other mem
        omega
    · rcases Nat.lt_or_ge place piece.stop with inside | behind
      · exact iff_of_true (.inl ⟨from_start, inside⟩) (plain place ⟨from_start, inside⟩)
      · rw [← ih behind]
        refine or_iff_right fun covers => ?_
        exact absurd covers.2 (Nat.not_lt.mpr behind)

/-- Behind a piece there are separators up to the next one, or none and then a letter or digit. -/
theorem adjoin (laid : LaidOut text offset pieces) : pieces.IsChain (Adjoin text) := by
  induction laid with
  | rest => exact .nil
  | piece _ _ _ _ _ edge later ih =>
    refine ih.cons fun next first => ?_
    cases later with
    | rest => cases first
    | piece below separators nonempty _ plain _ _ =>
      cases first
      rcases Nat.lt_or_eq_of_le below with apart | meet
      · exact .inl ⟨apart, separators⟩
      · -- where the next piece begins there is neither the end nor a separator
        have begins := plain _ ⟨le_rfl, nonempty⟩
        rw [meet] at edge
        refine .inr ⟨meet, edge.resolve_left ?_ |>.resolve_left begins.not_separatorAt⟩
        exact begins.lt_length.ne

/-- Pieces that are laid out from a boundary on lie between boundaries. -/
theorem onBoundaries {name : List Char} (laid : LaidOut (Text.bytes name) offset pieces)
    (start : Text.IsBoundary name offset) :
    ∀ piece ∈ pieces, Text.IsBoundary name piece.start ∧ Text.IsBoundary name piece.stop := by
  induction laid with
  | rest => exact fun _ mem => absurd mem List.not_mem_nil
  | @piece offset piece pieces below separators _ _ _ edge _ ih =>
    have first : Text.IsBoundary name piece.start := by
      rcases Nat.lt_or_eq_of_le below with apart | meet
      · have last := separators (piece.start - 1) (by omega) (by omega)
        have behind := last.isBoundary.2
        rwa [Nat.sub_add_cancel (by omega)] at behind
      · exact meet ▸ start
    have second : Text.IsBoundary name piece.stop := by
      rcases edge with whole | separator | alphanumeric
      · exact whole ▸ Text.isBoundary_length name
      · exact separator.isBoundary.1
      · exact alphanumeric.isBoundary
    exact List.forall_mem_cons.mpr ⟨⟨first, second⟩, ih second⟩

end LaidOut

/-- A rule that cuts at letters and digits only segments every name. -/
theorem segmentation (cuts : CutsAtAlphanumerics rule) (name : List Char) :
    Segmentation name (piecesFrom rule 0 (Text.bytes name)) := by
  have laid : LaidOut (Text.bytes name) 0 (piecesFrom rule 0 (Text.bytes name)) :=
    laidOut [] cuts rfl
  exact {
    nonempty := laid.nonempty
    bytes := laid.bytes
    inOrder := laid.inOrder
    exact := fun place => laid.exact (Nat.zero_le place)
    onBoundaries := laid.onBoundaries (Text.isBoundary_zero name)
    adjoin := laid.adjoin }

/-! ## Pieces that are made of others -/

/-- A piece is the bytes of some pieces that follow each other without a gap. -/
inductive Joins : Piece → List Piece → Prop
  | one (piece : Piece) : Joins piece [piece]
  | cons {first rest : Piece} {run : List Piece} (meet : first.stop = rest.start)
      (joins : Joins rest run) : Joins ⟨first.start, first.bytes ++ rest.bytes⟩ (first :: run)

namespace Joins

variable {b : UInt8} {first : Piece} {run : List Piece}

theorem ne_nil (joins : Joins piece run) : run ≠ [] := by
  cases joins <;> exact List.cons_ne_nil _ _

/-- What a joined piece covers is what its parts cover. -/
theorem covers_iff (joins : Joins piece run) :
    piece.Covers place ↔ ∃ part ∈ run, part.Covers place := by
  induction joins with
  | one => simp
  | @cons first rest run meet _ ih =>
    rw [List.exists_mem_cons_iff, ← ih]
    simp only [Piece.Covers, Piece.stop, List.length_append] at meet ⊢
    omega

/-- A byte in front of the first part is one in front of the whole. -/
theorem extend (joins : Joins piece (first :: run)) (start : first.start = offset + 1) :
    Joins ⟨offset, b :: piece.bytes⟩ (⟨offset, b :: first.bytes⟩ :: run) := by
  cases joins with
  | one => exact .one _
  | cons meet joins =>
    refine @Joins.cons ⟨offset, b :: first.bytes⟩ _ _ ?_ joins
    rw [← meet, Piece.stop, Piece.stop, start]
    exact Nat.add_right_comm offset first.bytes.length 1

end Joins

/-- One rule cuts wherever another does. -/
def Finer (fine coarse : CutRule) : Prop :=
  ∀ previous current next, coarse previous current next = true → fine previous current next = true

/-- Humps are cut wherever segments are. -/
theorem humpRule_finer : Finer humpRule segmentRule := by
  intro previous current next cut
  exact Bool.or_eq_true_iff.mpr (.inl cut)

/-- Where the finer rule does not cut, the coarser one does not either. -/
theorem continues_mono {fine coarse : CutRule} {b : UInt8} (finer : Finer fine coarse)
    (continued : continues fine b text = true) : continues coarse b text = true := by
  obtain ⟨c, rest, rfl, plain, uncut⟩ := exists_of_continues continued
  have whole : coarse b c rest.head? = false :=
    Bool.eq_false_iff.mpr fun cut => by rw [finer b c _ cut] at uncut; cases uncut
  simp [continues, plain, whole]

/-- Where a byte continues a piece, the next one begins there by any rule. -/
theorem exists_first_of_continues {other : CutRule} {b : UInt8} (rule : CutRule) (offset : Nat)
    (continued : continues other b text = true) :
    ∃ first later, piecesFrom rule offset text = first :: later ∧ first.start = offset := by
  cases cut : piecesFrom rule offset text with
  | nil =>
    obtain ⟨c, rest, rfl, plain, -⟩ := exists_of_continues continued
    rw [piecesFrom_eq_nil_iff.mp cut c List.mem_cons_self] at plain
    cases plain
  | cons first later =>
    obtain ⟨-, -, start, -⟩ := exists_behind_first cut
    rw [takeWhile_of_continues continued, List.length_nil, Nat.add_zero] at start
    exact ⟨first, later, rfl, start⟩

/-- Where one rule cuts whenever another does, the pieces of the other are made of its pieces, of
all of them and in order. -/
theorem exists_joined_runs {fine coarse : CutRule} (finer : Finer fine coarse) :
    ∃ runs : List (List Piece), runs.flatten = piecesFrom fine offset text ∧
      List.Forall₂ Joins (piecesFrom coarse offset text) runs := by
  induction text generalizing offset with
  | nil => exact ⟨[], rfl, .nil⟩
  | cons b text ih =>
    obtain ⟨runs, all, joined⟩ := @ih (offset + 1)
    rw [piecesFrom, piecesFrom]
    by_cases separator : isSeparator b = true
    · rw [if_pos separator, if_pos separator]
      exact ⟨runs, all, joined⟩
    · rw [if_neg separator, if_neg separator]
      by_cases whole : continues coarse b text = true
      · rw [if_pos whole]
        obtain ⟨piece, pieces, cut, start⟩ := exists_first_of_continues coarse (offset + 1) whole
        obtain ⟨part, parts, cut', start'⟩ := exists_first_of_continues fine (offset + 1) whole
        rw [cut] at joined ⊢
        rw [cut'] at all ⊢
        cases joined with
        | @cons _ run _ runs joins joined =>
          by_cases kept : continues fine b text = true
          · rw [if_pos kept]
            obtain ⟨first, run, rfl⟩ := List.exists_cons_of_ne_nil joins.ne_nil
            obtain ⟨rfl, rest⟩ := List.cons.inj all
            exact ⟨(⟨offset, b :: first.bytes⟩ :: run) :: runs, congrArg _ rest,
              .cons (joins.extend start') joined⟩
          · rw [if_neg kept]
            exact ⟨(⟨offset, [b]⟩ :: run) :: runs, congrArg _ all,
              .cons (@Joins.cons ⟨offset, [b]⟩ _ _ start.symm joins) joined⟩
      · rw [if_neg whole, if_neg (mt (continues_mono finer) whole)]
        exact ⟨[⟨offset, [b]⟩] :: runs, congrArg _ all, .cons (.one _) joined⟩

/-- Words, humps and segments are the ranges of a name between its separators. Each segment is the
union of humps that follow each other, and all humps belong to segments in this way. -/
theorem pieces_segment_names (name : String) :
    Segmentation name.toList (words (Text.bytesOf name)) ∧
    Segmentation name.toList (humps (Text.bytesOf name)) ∧
    Segmentation name.toList (segments (Text.bytesOf name)) ∧
    ∃ runs : List (List Piece), runs.flatten = humps (Text.bytesOf name) ∧
      List.Forall₂ (fun segment run => run ≠ [] ∧
        ∀ place, segment.Covers place ↔ ∃ hump ∈ run, hump.Covers place)
        (segments (Text.bytesOf name)) runs := by
  refine ⟨segmentation wordRule_cuts _, segmentation humpRule_cuts _,
    segmentation segmentRule_cuts _, ?_⟩
  obtain ⟨runs, all, joined⟩ : ∃ runs : List (List Piece),
      runs.flatten = humps (Text.bytesOf name) ∧
      List.Forall₂ Joins (segments (Text.bytesOf name)) runs :=
    exists_joined_runs humpRule_finer
  exact ⟨runs, all, joined.imp fun _ _ joins => ⟨joins.ne_nil, fun _ => joins.covers_iff⟩⟩

example :
    (segments (Text.bytesOf "nöt_URLs2")).map (fun piece => (piece.start, piece.stop)) =
      [(0, 4), (5, 6), (6, 7), (7, 10)] ∧
    (humps (Text.bytesOf "nöt_URLs2")).map (fun piece => (piece.start, piece.stop)) =
      [(0, 4), (5, 6), (6, 7), (7, 9), (9, 10)] := by decide

end Matching

end CodeAssist
