import CodeAssist.Index.Search
import CodeAssist.Proofs.Matching.Pieces
/-!
# The bucketed search and the scan

A search that neither substrings nor inner words concern looks at one bucket only. What can match
outside the bucket of the pattern's first byte is the camel-case way, which compares the first
segment of the pattern with the first hump of the name: both begin behind *all* separators
(`exists_first_of_piecesFrom`), while bucket keys look past `_` and `$` alone.

So the search is a scan unless the pattern begins with one of the other separators, or the first
hump of a name stands behind one (`TypeQuery.overlooks`). In both cases matches can be lost.
-/

namespace CodeAssist

namespace Matching

/-! ## What the ways to match say about first bytes -/

/-- The first piece of a text begins with its first byte that is no separator. -/
theorem exists_first_of_piecesFrom {rule : CutRule} {offset : Nat} {text : List UInt8}
    {piece : Piece} {pieces : List Piece} (cut : piecesFrom rule offset text = piece :: pieces) :
    ∃ first rest, piece.bytes = first :: rest ∧
      (text.find? fun b => !isSeparator b) = some first := by
  obtain ⟨behind, spelled, -, some, plain, -⟩ := exists_behind_first cut
  obtain ⟨first, rest, bytes⟩ := List.exists_cons_of_ne_nil some
  have before : ((text.takeWhile isSeparator).find? fun b => !isSeparator b) = none :=
    List.find?_eq_none.mpr fun b mem => by simp [List.mem_takeWhile_imp mem]
  refine ⟨first, rest, bytes, ?_⟩
  rw [bytes] at spelled plain
  rw [spelled, List.find?_append, before, Option.none_or]
  exact List.find?_cons_of_pos (by simp [plain first List.mem_cons_self])

/-- A needle that begins a text has its first byte, up to case. -/
theorem map_fold_head?_of_foldBegins {first : UInt8} {needle hay : List UInt8}
    (begins : foldBegins (first :: needle) hay = true) :
    hay.head?.map fold = some (fold first) := by
  cases hay with
  | nil => exact absurd begins (by simp [foldBegins])
  | cons h hay =>
    simp only [foldBegins, Bool.and_eq_true, beq_iff_eq] at begins
    simp [begins.1]

theorem foldBegins_of_agreement {needle hay : List UInt8} {exact : Bool}
    (agrees : agreement needle hay = some exact) : foldBegins needle hay = true := by
  unfold agreement at agrees
  split at agrees
  next begins => exact begins
  next => cases agrees

/-- The camel-case way compares the first bytes of pattern and name that are no separators. -/
theorem map_fold_find?_of_camelCaseMatch {pattern candidate : List UInt8} {exact : Bool}
    (found : camelCaseMatch pattern candidate = some exact) :
    (candidate.find? fun b => !isSeparator b).map fold =
      (pattern.find? fun b => !isSeparator b).map fold := by
  unfold camelCaseMatch at found
  split at found
  next first second others hump later cutPattern cutName =>
    obtain ⟨agrees, firstAgrees, -⟩ := Option.bind_eq_some_iff.mp found
    obtain ⟨b, needle, segment, patternFirst⟩ := exists_first_of_piecesFrom cutPattern
    obtain ⟨c, hay, hump, nameFirst⟩ := exists_first_of_piecesFrom cutName
    have begins := foldBegins_of_agreement firstAgrees
    rw [segment, hump] at begins
    rw [nameFirst, patternFirst]
    exact map_fold_head?_of_foldBegins begins
  next => cases found

/-- Without substrings and inner words, a name that a pattern matches begins like the pattern, or
its first hump does. -/
theorem first_bytes_of_matchBytes {options : MatchOptions} {first : UInt8}
    {pattern candidate : List UInt8} (whole : options.substring = false)
    (outer : options.subword = false)
    (found : (matchBytes options (first :: pattern) candidate).isSome = true) :
    candidate.head?.map fold = some (fold first) ∨
      options.camelCase = true ∧ (candidate.find? fun b => !isSeparator b).map fold =
        ((first :: pattern).find? fun b => !isSeparator b).map fold := by
  simp only [matchBytes, List.isEmpty_cons, whole, outer, Bool.false_eq_true, ↓reduceIte,
    Option.orElse_eq_orElse, Option.orElse_eq_or, Option.or_none] at found
  split at found
  next same =>
    rw [← beq_iff_eq.mp same]
    exact .inl rfl
  next =>
    cases agrees : agreement (first :: pattern) candidate with
    | some exact => exact .inl (map_fold_head?_of_foldBegins (foldBegins_of_agreement agrees))
    | none =>
      rw [agrees, Option.map_none, Option.none_or] at found
      split at found
      next camelCase =>
        rw [Option.isSome_map] at found
        obtain ⟨exact, camel⟩ := Option.isSome_iff_exists.mp found
        exact .inr ⟨camelCase, map_fold_find?_of_camelCaseMatch camel⟩
      next => cases found

end Matching

namespace Index

/-! ## What a bucket holds -/

/-- The separators that bucket keys do not look past. -/
def isOverlooked (b : UInt8) : Bool := Matching.isSeparator b && !isLeadingMark b

/-- Whether a search in a bucket takes a hump for something else: the pattern begins with a
separator that is no mark, or the name has one behind its marks. -/
def TypeQuery.overlooks (query : TypeQuery) (name : String) : Bool :=
  query.strategy != .everything && query.options.camelCase &&
    ((Text.bytesOf query.pattern).head?.any isOverlooked ||
      ((Text.bytesOf name).find? fun b => !isLeadingMark b).any isOverlooked)

theorem isSeparator_of_isLeadingMark {b : UInt8} (mark : isLeadingMark b = true) :
    Matching.isSeparator b = true := by
  simp only [isLeadingMark, Bool.or_eq_true, beq_iff_eq] at mark
  rcases mark with rfl | rfl <;> decide

/-- Where the first byte behind the marks is not overlooked, it is the first that is no
separator. -/
theorem find?_not_isSeparator {bytes : List UInt8}
    (seen : (bytes.find? fun b => !isLeadingMark b).any isOverlooked = false) :
    (bytes.find? fun b => !Matching.isSeparator b) = bytes.find? fun b => !isLeadingMark b := by
  induction bytes with
  | nil => rfl
  | cons b bytes ih =>
    by_cases mark : isLeadingMark b = true
    · rw [List.find?_cons_of_neg (by simp [isSeparator_of_isLeadingMark mark])]
      rw [List.find?_cons_of_neg (by simp [mark])] at seen ⊢
      exact ih seen
    · rw [List.find?_cons_of_pos (by simpa using mark)] at seen
      have plain : Matching.isSeparator b = false := by simpa [isOverlooked, mark] using seen
      rw [List.find?_cons_of_pos (by simp [plain]), List.find?_cons_of_pos (by simpa using mark)]

theorem mem_bucketKeys {name : String} {key : UInt8} :
    key ∈ bucketKeys name ↔
      (Text.bytesOf name).head?.map Matching.fold = some key ∨
        ((Text.bytesOf name).find? fun b => !isLeadingMark b).map Matching.fold = some key := by
  simp only [bucketKeys, List.mem_map, List.mem_append, Option.mem_toList, Option.map_eq_some_iff]
  constructor
  · rintro ⟨b, first | behind, same⟩
    · exact .inl ⟨b, first, same⟩
    · exact .inr ⟨b, behind, same⟩
  · rintro (⟨b, first, same⟩ | ⟨b, behind, same⟩)
    · exact ⟨b, .inl first, same⟩
    · exact ⟨b, .inr behind, same⟩

/-- When a search looks into a bucket, and into which. -/
theorem strategy_eq_bucket {query : TypeQuery} {key : UInt8}
    (bucket : query.strategy = .bucket key) :
    ∃ first rest, Text.bytesOf query.pattern = first :: rest ∧ key = Matching.fold first ∧
      isLeadingMark first = false ∧ query.options.substring = false ∧
      query.options.subword = false := by
  unfold TypeQuery.strategy at bucket
  split at bucket
  next => cases bucket
  next first rest bytes =>
    split at bucket
    next => cases bucket
    next narrow =>
      cases bucket
      simp only [Bool.or_eq_true, not_or, Bool.not_eq_true] at narrow
      exact ⟨first, rest, bytes, rfl, narrow.1.1, narrow.1.2, narrow.2⟩

/-- What a search accepts, it looks at, unless it overlooks a hump. -/
theorem covers_of_accepts {query : TypeQuery} {fact : TypeFact}
    (seen : query.overlooks fact.simpleName = false) (accepted : query.accepts fact = true) :
    query.strategy.covers fact.simpleName = true := by
  cases strategy : query.strategy with
  | everything => rfl
  | bucket key =>
    obtain ⟨first, rest, pattern, rfl, unmarked, whole, outer⟩ := strategy_eq_bucket strategy
    simp only [TypeQuery.accepts, Bool.and_eq_true, Matching.matchName] at accepted
    rw [pattern] at accepted
    have like := Matching.first_bytes_of_matchBytes whole outer accepted.2
    refine List.contains_iff_mem.mpr (mem_bucketKeys.mpr ?_)
    rcases like with like | ⟨camelCase, like⟩
    · exact .inl like
    · simp only [TypeQuery.overlooks, strategy, camelCase, pattern, List.head?_cons,
        Option.any_some, Bool.and_true, Bool.and_eq_false_iff, Bool.or_eq_false_iff] at seen
      obtain ⟨plain, seen⟩ := seen.resolve_left (by simp)
      have begins : Matching.isSeparator first = false := by
        simpa [isOverlooked, unmarked] using plain
      rw [find?_not_isSeparator seen, List.find?_cons_of_pos (by simp [begins])] at like
      exact .inr like

/-! ## The search as a scan -/

/-- Looking into buckets first does not change what is found among facts whose names are not
overlooked. -/
theorem filter_covers {α : Type} {query : TypeQuery} {facts : List α} (type : α → TypeFact)
    (seen : ∀ fact ∈ facts, query.overlooks (type fact).simpleName = false) :
    (facts.filter fun fact => query.strategy.covers (type fact).simpleName).filter
        (fun fact => query.accepts (type fact)) =
      facts.filter fun fact => query.accepts (type fact) := by
  rw [List.filter_filter]
  refine List.filter_congr fun fact mem => ?_
  cases accepted : query.accepts (type fact) with
  | false => rfl
  | true => rw [covers_of_accepts (seen fact mem) accepted, Bool.and_true]

/-- A search finds, in the order of the index, the types in the container whose names the pattern
matches, and the constructors of such types, if it overlooks no hump of their names. -/
theorem findTypes_build_eq_scan {snapshot : Snapshot} {query : TypeQuery}
    (types : ∀ fact ∈ snapshot.types, query.overlooks fact.simpleName = false)
    (constructors : ∀ fact ∈ snapshot.constructors,
      query.overlooks fact.declaring.simpleName = false) :
    (build snapshot).findTypes query = snapshot.types.filter (fun fact =>
        query.container.all (fact.container == ·) &&
          (Matching.matchName query.options query.pattern fact.simpleName).isSome) ∧
      (build snapshot).findConstructors query = snapshot.constructors.filter fun fact =>
        query.container.all (fact.declaring.container == ·) &&
          (Matching.matchName query.options query.pattern fact.declaring.simpleName).isSome :=
  ⟨filter_covers id types, filter_covers ConstructorFact.declaring constructors⟩

/-- A name behind a mark and one without, found by their humps. -/
theorem findTypes_build_eq_scan_of_humps :
    (build { types := [.topLevel ⟨["p", "$ArrayList"]⟩, .topLevel ⟨["p", "ArrayList"]⟩] }).findTypes
        { pattern := "aLi", options := ⟨true, false, false⟩ } =
      [.topLevel ⟨["p", "$ArrayList"]⟩, .topLevel ⟨["p", "ArrayList"]⟩] := by
  refine (findTypes_build_eq_scan ?_ ?_).1.trans ?_
  · decide +kernel
  · simp
  · decide +kernel

/-- A pattern that begins with a hyphen, and a name that does: the humps match, and the bucket of
the pattern's first byte does not hold the name. -/
theorem findTypes_loses_camelCase_match :
    ((build { types := [.topLevel ⟨["p", "ArrayList"]⟩] }).findTypes
        { pattern := "-AL", options := ⟨true, false, false⟩ } = [] ∧
      (Matching.matchName ⟨true, false, false⟩ "-AL" "ArrayList").isSome = true) ∧
    (build { types := [.topLevel ⟨["p", "-ArrayList"]⟩] }).findTypes
        { pattern := "AL", options := ⟨true, false, false⟩ } = [] ∧
      (Matching.matchName ⟨true, false, false⟩ "AL" "-ArrayList").isSome = true := by
  decide +kernel

end Index

end CodeAssist
