import CodeAssist.Settings.Favorite
import CodeAssist.Proofs.Text.DottedNames
/-!
# Favorites are read exactly

A favorite is *well formed* if its type is a path of identifiers and its member, where it has one, is
an identifier. Reading a text gives a favorite exactly if that is well formed and its own text is the
one that was read, without blanks around it (`parse?_eq_some_iff`). Neither the cut at the last dot
nor the reader of the type, which would drop blanks and empty segments, loses anything: they only see
what the check of the segments has let through.
-/

namespace CodeAssist.Favorite

variable {favorite : Favorite} {raw : String} {text : List Char} {member : Option String}

/-- Whether a favorite can be written. -/
structure WellFormed (favorite : Favorite) : Prop where
  owner : favorite.owner.IsPath
  member : ∀ name ∈ favorite.member, Text.isIdentifier name.toList = true

/-- The last segment is a star or an identifier, and no star is an identifier. -/
theorem parseMember_eq_some_iff :
    parseMember text = some member ↔
      text = (member.getD "*").toList ∧ ∀ name ∈ member, Text.isIdentifier name.toList = true := by
  have star : Text.isIdentifier ['*'] = false := by decide +kernel
  unfold parseMember
  split
  next same =>
    subst same
    cases member with
    | none => simp
    | some name =>
      simp only [Option.some.injEq, reduceCtorEq, false_iff, not_and]
      intro written identifier
      have named := identifier name rfl
      rw [← show ['*'] = name.toList from written, star] at named
      cases named
  next other =>
    split
    next identifier =>
      rw [Option.some_inj]
      constructor
      · rintro rfl
        exact ⟨String.toList_ofList.symm, by
          rintro _ ⟨⟩
          rwa [String.toList_ofList]⟩
      · rintro ⟨rfl, -⟩
        cases member with
        | none => exact absurd rfl other
        | some name => exact congrArg some String.ofList_toList
    next no =>
      simp only [reduceCtorEq, false_iff, not_and]
      rintro rfl identifier
      cases member with
      | none => exact other rfl
      | some name => exact no (identifier name rfl)

theorem toList_text (favorite : Favorite) :
    favorite.text.toList =
      favorite.owner.dotted.toList ++ '.' :: (favorite.member.getD "*").toList := by
  simp [Favorite.text]

theorem dot_not_mem_member (named : ∀ name ∈ member, Text.isIdentifier name.toList = true) :
    '.' ∉ (member.getD "*").toList := by
  cases member with
  | none => decide
  | some name => exact Text.dot_not_mem_identifier (named name rfl)

/-- Reading is the inverse of writing, up to blanks around the text. -/
theorem parse?_eq_some_iff :
    parse? raw = some favorite ↔ favorite.WellFormed ∧ favorite.text = Text.trimmed raw := by
  have written : favorite.text = Text.trimmed raw ↔
      favorite.text.toList = Text.trim raw.toList := by
    rw [← String.toList_inj, Text.trimmed, String.toList_ofList]
  rw [written, toList_text]
  constructor
  · intro read
    unfold parse? at read
    split at read
    next => cases read
    next owner last cut =>
      split at read
      next identifiers =>
        have identifiers := List.all_eq_true.mp identifiers
        obtain ⟨member, parsed, rfl⟩ := Option.map_eq_some_iff.mp read
        obtain ⟨rfl, named⟩ := parseMember_eq_some_iff.mp parsed
        refine ⟨⟨QualifiedName.isPath_ofDotted fun piece mem => ?_, named⟩, ?_⟩
        · rw [Text.trim_identifier (identifiers piece mem)]
          exact identifiers piece mem
        · rw [QualifiedName.dotted_ofDotted identifiers, String.toList_ofList]
          exact (Text.eq_append_of_cutLast cut).1.symm
      next => cases read
  · rintro ⟨⟨path, named⟩, whole⟩
    have cut : Text.cutLast '.' (Text.trim raw.toList) =
        some (favorite.owner.dotted.toList, (favorite.member.getD "*").toList) := by
      rw [← whole, Text.cutLast_append (dot_not_mem_member named)]
    have identifiers : ∀ piece ∈ Text.splitAt '.' favorite.owner.dotted.toList,
        Text.isIdentifier piece = true := fun piece mem => path.isIdentifier_of_mem_splitAt mem
    have last : parseMember (favorite.member.getD "*").toList = some favorite.member :=
      parseMember_eq_some_iff.mpr ⟨rfl, named⟩
    simp only [parse?, cut, List.all_eq_true.mpr identifiers, if_true, last, Option.map_some,
      String.ofList_toList, QualifiedName.ofDotted_dotted path.normal]

/-- The text of a favorite is its segments and the star or the member, with dots between them. -/
theorem text_eq_intercalate (inside : favorite.owner.segments ≠ []) :
    favorite.text = ".".intercalate (favorite.owner.segments ++ [favorite.member.getD "*"]) := by
  rw [Favorite.text, String.intercalate_append_of_ne_nil inside (List.cons_ne_nil _ _),
    String.intercalate_singleton, QualifiedName.dotted]

/-- Which texts can be read. -/
theorem isSome_parse?_iff :
    (parse? raw).isSome ↔ ∃ segments : List String, ∃ last : String,
      segments ≠ [] ∧ (∀ segment ∈ segments, Text.isIdentifier segment.toList = true) ∧
        (last = "*" ∨ Text.isIdentifier last.toList = true) ∧
        Text.trimmed raw = ".".intercalate (segments ++ [last]) := by
  rw [Option.isSome_iff_exists]
  constructor
  · rintro ⟨favorite, read⟩
    obtain ⟨⟨path, named⟩, whole⟩ := parse?_eq_some_iff.mp read
    refine ⟨favorite.owner.segments, favorite.member.getD "*", path.1, path.2, ?_, ?_⟩
    · cases member : favorite.member with
      | none => exact .inl rfl
      | some name => exact .inr (named name member)
    · rw [← whole, text_eq_intercalate path.1]
  · rintro ⟨segments, last, nonempty, identifiers, final, whole⟩
    have readable : ∀ member : Option String, member.getD "*" = last →
        (∀ name ∈ member, Text.isIdentifier name.toList = true) →
        ∃ favorite, parse? raw = some favorite := by
      rintro member rfl named
      refine ⟨{ owner := ⟨segments⟩, member }, parse?_eq_some_iff.mpr ⟨⟨⟨nonempty, identifiers⟩,
        named⟩, ?_⟩⟩
      rw [whole]
      exact text_eq_intercalate nonempty
    rcases final with rfl | identifier
    · exact readable none rfl nofun
    · refine readable (some last) rfl fun name mem => ?_
      rw [← Option.some.inj mem]
      exact identifier

/-- The favorites that texts can be read as are the well formed ones, each from its own text and
from no other but for blanks around it; and a text can be read if and only if, without such blanks,
it is one or more identifiers and then a star or one more identifier, with dots between them. -/
theorem favorites_are_read_exactly :
    (∀ raw favorite, parse? raw = some favorite ↔
      favorite.WellFormed ∧ favorite.text = Text.trimmed raw) ∧
    (∀ raw, (parse? raw).isSome ↔ ∃ segments : List String, ∃ last : String,
      segments ≠ [] ∧ (∀ segment ∈ segments, Text.isIdentifier segment.toList = true) ∧
        (last = "*" ∨ Text.isIdentifier last.toList = true) ∧
        Text.trimmed raw = ".".intercalate (segments ++ [last])) ∧
    ∀ first second favorite, parse? first = some favorite → parse? second = some favorite →
      Text.trimmed first = Text.trimmed second := by
  refine ⟨fun raw favorite => parse?_eq_some_iff, fun raw => isSome_parse?_iff, ?_⟩
  intro first second favorite readFirst readSecond
  calc Text.trimmed first = favorite.text := (parse?_eq_some_iff.mp readFirst).2.symm
    _ = Text.trimmed second := (parse?_eq_some_iff.mp readSecond).2

/-- Two texts of one favorite differ in the blanks around them. -/
theorem assertions_read_twice :
    parse? "org.junit.Assert.*" = some { owner := ⟨["org", "junit", "Assert"]⟩, member := none } ∧
      parse? " org.junit.Assert.*\t" =
        some { owner := ⟨["org", "junit", "Assert"]⟩, member := none } ∧
      Text.trimmed "org.junit.Assert.*" = Text.trimmed " org.junit.Assert.*\t" := by
  have plain : parse? "org.junit.Assert.*" =
      some { owner := ⟨["org", "junit", "Assert"]⟩, member := none } := by decide +kernel
  have spaced : parse? " org.junit.Assert.*\t" =
      some { owner := ⟨["org", "junit", "Assert"]⟩, member := none } := by decide +kernel
  exact ⟨plain, spaced, favorites_are_read_exactly.2.2 _ _ _ plain spaced⟩

end CodeAssist.Favorite
