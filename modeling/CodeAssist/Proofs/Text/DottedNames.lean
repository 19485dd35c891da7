import CodeAssist.QualifiedName
import CodeAssist.Text.Identifier
import Mathlib.Data.List.DropRight
import Mathlib.Data.List.Basic
/-!
# Dotted names and their texts

A name is read back from its text if it is *normal*: no segment is empty, has a dot in itself or
blanks around it (`ofDotted_dotted`). Whatever is read is normal. A *path* is a name of one or more
identifiers. No identifier holds a blank or a dot, so paths are normal, and reading a text whose
pieces are identifiers loses nothing of it (`dotted_ofDotted`).
-/

namespace CodeAssist

/-! ## Trimming and cutting -/

namespace Text

variable {c : Char} {text piece : List Char}

/-- Cutting is that of the standard library. -/
theorem splitAt_eq_splitOn (mark : Char) (text : List Char) :
    splitAt mark text = text.splitOn mark := by
  induction text with
  | nil => rfl
  | cons c text ih =>
    obtain ⟨piece, rest, cut⟩ := List.exists_cons_of_ne_nil (splitAt_ne_nil mark text)
    have cutOn : text.splitOnP (· == mark) = piece :: rest := ih.symm.trans cut
    show splitAt mark (c :: text) = (c :: text).splitOnP (· == mark)
    rw [splitAt, List.splitOnP_cons_eq_if_modifyHead, cut, cutOn]
    by_cases same : c = mark <;> simp [same]

/-- A piece has no mark in itself. -/
theorem not_mem_of_mem_splitAt {mark : Char} (mem : piece ∈ splitAt mark text) : mark ∉ piece := by
  induction text generalizing piece with
  | nil =>
    obtain rfl := List.mem_singleton.mp mem
    exact List.not_mem_nil
  | cons c text ih =>
    unfold splitAt at mem
    split at mem
    next =>
      rcases List.mem_cons.mp mem with rfl | mem
      · exact List.not_mem_nil
      · exact ih mem
    next other =>
      split at mem
      next nothing => exact absurd nothing (splitAt_ne_nil mark text)
      next first rest cut =>
        rcases List.mem_cons.mp mem with rfl | mem
        · have inside := ih (cut ▸ List.mem_cons_self)
          simp [inside, Ne.symm other]
        · exact ih (cut ▸ List.mem_cons_of_mem _ mem)

/-- What is trimmed at the end is a beginning of what was trimmed at the start. -/
theorem trim_initial (text : List Char) : trim text <+: trimStart text :=
  List.rdropWhile_prefix _ _

theorem mem_of_mem_trim (mem : c ∈ trim text) : c ∈ text :=
  (List.dropWhile_suffix _).subset ((trim_initial text).subset mem)

/-- A trimmed text has no blanks around it. -/
theorem trim_trim (text : List Char) : trim (trim text) = trim text := by
  have start : trimStart (trim text) = trim text := by
    refine List.dropWhile_eq_self_iff.mpr fun some => ?_
    rw [(trim_initial text).getElem]
    exact List.dropWhile_eq_self_iff.mp (List.dropWhile_idempotent isBlank text) _
  rw [trim, start]
  exact List.rdropWhile_idempotent _ _

/-- Nothing is dropped from a text that begins with something else. -/
theorem dropWhile_of_head? {stops : Char → Bool} (first : ∀ c ∈ text.head?, stops c = false) :
    text.dropWhile stops = text := by
  cases text with
  | nil => rfl
  | cons c rest => exact List.dropWhile_cons_of_neg (by simp [first c rfl])

/-- Blanks behind a text that has none around it are all that is trimmed. -/
theorem trim_append_blanks {blanks : List Char} (blank : ∀ c ∈ blanks, isBlank c = true)
    (first : ∀ c ∈ text.head?, isBlank c = false) (last : ∀ c ∈ text.getLast?, isBlank c = false) :
    trim (text ++ blanks) = text := by
  have behind : trimEnd (text ++ blanks) = text := by
    rw [trimEnd, List.reverse_append,
      List.dropWhile_append_of_pos fun c mem => blank c (List.mem_reverse.mp mem),
      dropWhile_of_head? (by rwa [List.head?_reverse]), List.reverse_reverse]
  cases text with
  | nil =>
    have nothing : trimStart blanks = [] := List.dropWhile_eq_nil_iff.mpr blank
    rw [List.nil_append, trim, nothing]
    rfl
  | cons c rest =>
    have start : trimStart (c :: rest ++ blanks) = c :: rest ++ blanks :=
      dropWhile_of_head? first
    rw [trim, start, behind]

/-- A text without blanks at its ends is left alone. -/
theorem trim_eq_self (first : ∀ c ∈ text.head?, isBlank c = false)
    (last : ∀ c ∈ text.getLast?, isBlank c = false) : trim text = text := by
  have nothing : ∀ c ∈ ([] : List Char), isBlank c = true := fun _ mem => nomatch mem
  simpa using trim_append_blanks nothing first last

/-! ## Identifiers -/

/-- No blank is part of an identifier. -/
theorem not_isBlank_of_isIdentifierPart (part : isIdentifierPart c = true) : isBlank c = false := by
  have table : ∀ range ∈ blankRanges, ∀ further < range.2 + 1 - range.1,
      isIdentifierPart (Char.ofNat (range.1 + further)) = false := by decide +kernel
  rw [Bool.eq_false_iff]
  intro blank
  obtain ⟨range, mem, low, high⟩ := inRanges_iff.mp blank
  have outside := table range mem (c.toNat - range.1) (by omega)
  rw [Nat.add_sub_cancel' low, Char.ofNat_toNat, part] at outside
  cases outside

theorem isIdentifierPart_of_mem (identifier : isIdentifier text = true) (mem : c ∈ text) :
    isIdentifierPart c = true :=
  List.all_eq_true.mp (all_isIdentifierPart identifier) c mem

theorem not_isBlank_of_mem (identifier : isIdentifier text = true) (mem : c ∈ text) :
    isBlank c = false :=
  not_isBlank_of_isIdentifierPart (isIdentifierPart_of_mem identifier mem)

/-- No identifier holds a dot. -/
theorem dot_not_mem_identifier (identifier : isIdentifier text = true) : '.' ∉ text := by
  intro mem
  have part := isIdentifierPart_of_mem identifier mem
  exact absurd part (by decide +kernel)

/-- Nor does it begin or end with a blank. -/
theorem trim_identifier (identifier : isIdentifier text = true) : trim text = text :=
  trim_eq_self (fun _ mem => not_isBlank_of_mem identifier (List.mem_of_head? mem))
    (fun _ mem => not_isBlank_of_mem identifier (List.mem_of_getLast? mem))

theorem ne_nil_of_isIdentifier (identifier : isIdentifier text = true) : text ≠ [] := by
  rintro rfl
  cases identifier

end Text

/-! ## Names -/

namespace QualifiedName

variable {name : QualifiedName} {text : List Char}

/-- No segment is empty, has a dot in itself or blanks around it. -/
def Normal (name : QualifiedName) : Prop :=
  ∀ segment ∈ name.segments,
    segment ≠ "" ∧ '.' ∉ segment.toList ∧ Text.trimmed segment = segment

instance (name : QualifiedName) : Decidable name.Normal :=
  inferInstanceAs (Decidable (∀ segment ∈ name.segments, _))

/-- What is read is normal. -/
theorem normal_ofDotted (text : String) : (ofDotted text).Normal := by
  intro segment mem
  obtain ⟨piece, listed, rfl⟩ := List.mem_map.mp mem
  obtain ⟨trimmed, some⟩ := List.mem_filter.mp listed
  obtain ⟨whole, cut, rfl⟩ := List.mem_map.mp trimmed
  refine ⟨?_, ?_, ?_⟩
  · simpa [String.ext_iff] using some
  · rw [String.toList_ofList]
    exact fun dot => Text.not_mem_of_mem_splitAt cut (Text.mem_of_mem_trim dot)
  · rw [Text.trimmed, String.toList_ofList, Text.trim_trim]

/-- Where no segment has a dot in itself, the text of a name is cut into its segments. -/
theorem splitAt_dotted (nonempty : name.segments ≠ [])
    (plain : ∀ segment ∈ name.segments, '.' ∉ segment.toList) :
    Text.splitAt '.' name.dotted.toList = name.segments.map String.toList := by
  rw [Text.splitAt_eq_splitOn, dotted, String.toList_intercalate]
  refine List.splitOn_intercalate '.' (fun text mem => ?_) (by simpa using nonempty)
  obtain ⟨segment, listed, rfl⟩ := List.mem_map.mp mem
  exact plain segment listed

/-- A normal name is read back. -/
theorem ofDotted_dotted (normal : name.Normal) : ofDotted name.dotted = name := by
  obtain ⟨segments⟩ := name
  rcases segments.eq_nil_or_concat' with rfl | ⟨_, _, some⟩
  · rfl
  have cut : Text.splitAt '.' (dotted ⟨segments⟩).toList = segments.map String.toList :=
    splitAt_dotted (by simp [some]) fun segment mem => (normal segment mem).2.1
  have pieces : ∀ segment ∈ segments, Text.trim segment.toList = segment.toList := by
    intro segment listed
    have trimmed := congrArg String.toList (normal segment listed).2.2
    rwa [Text.trimmed, String.toList_ofList] at trimmed
  have each : (segments.map String.toList).map Text.trim = segments.map String.toList := by
    rw [List.map_map]
    exact List.map_congr_left pieces
  have all : (segments.map String.toList).filter (fun piece => !piece.isEmpty) =
      segments.map String.toList := by
    refine List.filter_eq_self.mpr fun text mem => ?_
    obtain ⟨segment, listed, rfl⟩ := List.mem_map.mp mem
    simpa using (normal segment listed).1
  rw [ofDotted, cut, each, all, List.map_map]
  simp

/-! ## Paths -/

/-- A name of one or more identifiers. -/
def IsPath (name : QualifiedName) : Prop :=
  name.segments ≠ [] ∧ ∀ segment ∈ name.segments, Text.isIdentifier segment.toList = true

instance (name : QualifiedName) : Decidable name.IsPath :=
  inferInstanceAs (Decidable (_ ∧ _))

/-- Paths are normal names. -/
theorem IsPath.normal (path : name.IsPath) : name.Normal := by
  intro segment mem
  have identifier := path.2 segment mem
  refine ⟨?_, Text.dot_not_mem_identifier identifier, ?_⟩
  · rintro rfl
    cases identifier
  · rw [Text.trimmed, Text.trim_identifier identifier, String.ofList_toList]

/-- Cutting the dotted form of a path gives its segments. -/
theorem IsPath.splitAt_dotted (path : name.IsPath) :
    Text.splitAt '.' name.dotted.toList = name.segments.map String.toList :=
  QualifiedName.splitAt_dotted path.1 fun segment mem =>
    Text.dot_not_mem_identifier (path.2 segment mem)

theorem IsPath.isIdentifier_of_mem_splitAt {piece : List Char} (path : name.IsPath)
    (mem : piece ∈ Text.splitAt '.' name.dotted.toList) : Text.isIdentifier piece = true := by
  rw [path.splitAt_dotted] at mem
  obtain ⟨segment, listed, rfl⟩ := List.mem_map.mp mem
  exact path.2 segment listed

/-- Reading drops nothing but the blanks around the pieces of a text, if these are identifiers. -/
theorem ofDotted_of_identifiers
    (pieces : ∀ piece ∈ Text.splitAt '.' text, Text.isIdentifier (Text.trim piece) = true) :
    ofDotted (String.ofList text) =
      ⟨(Text.splitAt '.' text).map fun piece => String.ofList (Text.trim piece)⟩ := by
  have all : ((Text.splitAt '.' text).map Text.trim).filter (fun piece => !piece.isEmpty) =
      (Text.splitAt '.' text).map Text.trim := by
    refine List.filter_eq_self.mpr fun piece mem => ?_
    obtain ⟨whole, cut, rfl⟩ := List.mem_map.mp mem
    simpa using Text.ne_nil_of_isIdentifier (pieces whole cut)
  rw [ofDotted, String.toList_ofList, all, List.map_map]
  rfl

/-- Identifiers with blanks around them make a path. -/
theorem isPath_ofDotted
    (pieces : ∀ piece ∈ Text.splitAt '.' text, Text.isIdentifier (Text.trim piece) = true) :
    (ofDotted (String.ofList text)).IsPath := by
  rw [ofDotted_of_identifiers pieces]
  refine ⟨by simpa using Text.splitAt_ne_nil '.' text, fun segment mem => ?_⟩
  obtain ⟨piece, cut, rfl⟩ := List.mem_map.mp mem
  rw [String.toList_ofList]
  exact pieces piece cut

/-- A text whose pieces are identifiers is the text of the name that it is read as. -/
theorem dotted_ofDotted
    (pieces : ∀ piece ∈ Text.splitAt '.' text, Text.isIdentifier piece = true) :
    (ofDotted (String.ofList text)).dotted = String.ofList text := by
  have trimmed : ∀ piece ∈ Text.splitAt '.' text, Text.trim piece = piece := fun piece cut =>
    Text.trim_identifier (pieces piece cut)
  rw [ofDotted_of_identifiers fun piece cut => (trimmed piece cut).symm ▸ pieces piece cut,
    ← String.toList_inj, dotted, String.toList_intercalate, List.map_map]
  have same : (Text.splitAt '.' text).map
      (String.toList ∘ fun piece => String.ofList (Text.trim piece)) = text.splitOn '.' := by
    rw [← Text.splitAt_eq_splitOn]
    refine (List.map_congr_left fun piece cut => ?_).trans (List.map_id _)
    rw [Function.comp_apply, String.toList_ofList, trimmed piece cut, id]
  rw [same]
  exact (List.intercalate_splitOn '.').trans String.toList_ofList.symm

/-- What stands in the text of a path: dots and parts of identifiers. -/
theorem IsPath.mem_dotted {c : Char} (path : name.IsPath) (mem : c ∈ name.dotted.toList) :
    c = '.' ∨ Text.isIdentifierPart c = true := by
  obtain ⟨segments⟩ := name
  obtain ⟨-, identifiers⟩ := path
  induction segments with
  | nil => cases mem
  | cons segment rest ih =>
    have first : c ∈ segment.toList → Text.isIdentifierPart c = true :=
      Text.isIdentifierPart_of_mem (identifiers segment List.mem_cons_self)
    rcases rest.eq_nil_or_concat' with rfl | ⟨_, _, more⟩
    · exact .inr (first (by simpa [dotted] using mem))
    · rw [dotted, String.intercalate_cons_of_ne_nil (by simp [more])] at mem
      simp only [String.toList_append, List.mem_append] at mem
      rcases mem with (mem | dot) | mem
      · exact .inr (first mem)
      · exact .inl (List.mem_singleton.mp dot)
      · exact ih mem fun segment listed => identifiers segment (List.mem_cons_of_mem _ listed)

end QualifiedName

end CodeAssist
