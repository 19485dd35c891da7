import CodeAssist.Matching.Match
import Mathlib.Data.Fin.Tuple.Basic
import Mathlib.Data.List.Forall2
import Mathlib.Data.List.NodupEquivFin
import Mathlib.Order.Fin.Basic
/-!
# The ways to match

What it means that a pattern matches a name in one of the five ways (`Way`), without a word about
how a match is looked for: two of the ways ask for an assignment of pieces of the pattern to pieces
of the name, in order and otherwise free. A match reports the strongest enabled way there is, and
reports none only if there is none (`matchName_reports_strongest`).

The search is greedy: each piece of the pattern takes the first remaining piece of the name that it
begins. No assignment is lost by that, because what is left behind the first such piece contains
what is left behind any other (`sublistForall₂_of_cons`).

A match that agrees in case does so as it was found. The converse holds where the search looks for
agreement first (`leading`, `substring`). It fails where pieces are assigned: the greedy assignment
may disagree in case where another one agrees.
-/

namespace CodeAssist.Matching

open List (SublistForall₂)

/-! ## What is looked for -/

/-- Whether a needle begins a text, where bytes count by a view of them: the view `fold` compares up
to case, and `id` byte for byte. -/
def Begins (view : UInt8 → UInt8) (needle hay : List UInt8) : Prop :=
  needle.map view <+: hay.map view

/-- Pieces sent to others in order, each to one that it begins. -/
structure Assignment (view : UInt8 → UInt8) (needles pieces : List Piece) where
  place : Fin needles.length → Fin pieces.length
  increasing : StrictMono place
  begins : ∀ i, Begins view (needles.get i).bytes (pieces.get (place i)).bytes

/-- Whether the first piece is sent to the first one. -/
def Assignment.Anchored {view : UInt8 → UInt8} {needles pieces : List Piece}
    (assignment : Assignment view needles pieces) : Prop :=
  ∀ i, i.val = 0 → (assignment.place i).val = 0

/-- Whether a pattern matches a name in some way. -/
def Way (view : UInt8 → UInt8) (pattern candidate : List UInt8) : MatchKind → Prop
  | .exact => pattern = candidate
  | .leading => Begins view pattern candidate
  | .camelCase => 2 ≤ (segments pattern).length ∧
      ∃ assignment : Assignment view (segments pattern) (humps candidate), assignment.Anchored
  | .substring => pattern.map view <:+: candidate.map view
  | .subword => words pattern ≠ [] ∧
      Nonempty (Assignment view (words pattern) (words candidate))

/-- Whether a way to match is enabled. -/
def MatchOptions.allows (options : MatchOptions) : MatchKind → Bool
  | .exact | .leading => true
  | .camelCase => options.camelCase
  | .substring => options.substring
  | .subword => options.subword

/-! ## Beginnings -/

/-- A piece begins another. -/
abbrev Starts (view : UInt8 → UInt8) (needle piece : Piece) : Prop :=
  Begins view needle.bytes piece.bytes

/-- Byte for byte, to begin a text is to be a prefix of it. -/
@[simp] theorem begins_id {needle hay : List UInt8} : Begins id needle hay ↔ needle <+: hay := by
  simp [Begins]

/-- The test goes over both texts at once and compares bytes up to case. -/
theorem foldBegins_iff {needle hay : List UInt8} :
    foldBegins needle hay = true ↔ Begins fold needle hay := by
  induction needle generalizing hay with
  | nil => simp [foldBegins, Begins]
  | cons n needle ih =>
    cases hay with
    | nil => simp [foldBegins, Begins]
    | cons h hay =>
      rw [foldBegins, Bool.and_eq_true, ih, beq_iff_eq]
      simp [Begins, List.cons_prefix_cons]

/-- There is no agreement only where the needle does not begin the text up to case. -/
theorem agreement_eq_none {needle hay : List UInt8} :
    agreement needle hay = none ↔ ¬ Begins fold needle hay := by
  rw [← foldBegins_iff]
  unfold agreement
  split <;> simp_all

/-- An agreement tells whether the needle begins the text byte for byte too. -/
theorem agreement_eq_some {needle hay : List UInt8} {exact : Bool} :
    agreement needle hay = some exact ↔
      Begins fold needle hay ∧ (exact = true ↔ Begins id needle hay) := by
  rw [← foldBegins_iff, begins_id, ← List.isPrefixOf_iff_prefix, ← Bool.eq_iff_iff, agreement]
  split
  next begins => simp [begins, eq_comm (a := exact)]
  next differs => simp [differs]

/-! ## Assignments -/

section Assignments

variable {view : UInt8 → UInt8} {needle piece : Piece} {needles pieces : List Piece}

/-- An assignment picks a sublist of the pieces. -/
theorem nonempty_assignment_iff :
    Nonempty (Assignment view needles pieces) ↔ SublistForall₂ (Starts view) needles pieces := by
  rw [List.sublistForall₂_iff]
  constructor
  · rintro ⟨place, increasing, begins⟩
    refine ⟨List.ofFn fun i => pieces.get (place i), ?_, ?_⟩
    · refine List.forall₂_iff_get.mpr ⟨by simp, fun i hi hi' => ?_⟩
      simpa using begins ⟨i, hi⟩
    · refine List.sublist_iff_exists_fin_orderEmbedding_get_eq.mpr ⟨?_, fun i => ?_⟩
      · exact (Fin.castOrderIso (by simp)).toOrderEmbedding.trans
          (OrderEmbedding.ofStrictMono place increasing)
      · simp
        rfl
  · rintro ⟨picked, begins, sublist⟩
    obtain ⟨place, picks⟩ := List.sublist_iff_exists_fin_orderEmbedding_get_eq.mp sublist
    obtain ⟨length, begins⟩ := List.forall₂_iff_get.mp begins
    refine ⟨fun i => place (i.cast length), fun i j less => ?_, fun i => ?_⟩
    · exact place.strictMono less
    · rw [← picks]
      exact begins i i.isLt (length ▸ i.isLt)

/-- An anchored assignment is one for what lies behind the first pieces. -/
theorem exists_anchored_iff :
    (∃ assignment : Assignment view (needle :: needles) (piece :: pieces), assignment.Anchored) ↔
      Starts view needle piece ∧ SublistForall₂ (Starts view) needles pieces := by
  rw [← nonempty_assignment_iff]
  constructor
  · rintro ⟨⟨place, increasing, begins⟩, anchored⟩
    have first : place 0 = 0 := Fin.ext (anchored 0 rfl)
    have later (i : Fin needles.length) : place i.succ ≠ 0 := by
      rw [← first]
      exact (increasing i.succ_pos).ne'
    refine ⟨by simpa [first] using begins 0, ⟨fun i => (place i.succ).pred (later i), ?_, ?_⟩⟩
    · intro i j less
      exact Fin.pred_lt_pred_iff.mpr (increasing (Fin.succ_lt_succ_iff.mpr less))
    · intro i
      have behind := begins i.succ
      rwa [← Fin.succ_pred (place i.succ) (later i)] at behind
  · rintro ⟨begins, ⟨place, increasing, behind⟩⟩
    refine ⟨⟨Fin.cons 0 fun i => (place i).succ, ?_, ?_⟩, ?_⟩
    · intro i j less
      cases i using Fin.cases with
      | zero =>
        cases j using Fin.cases with
        | zero => exact absurd less (lt_irrefl _)
        | succ j => exact Fin.succ_pos _
      | succ i =>
        cases j using Fin.cases with
        | zero => exact absurd less (Fin.not_lt_zero _)
        | succ j => exact Fin.succ_lt_succ_iff.mpr (increasing (Fin.succ_lt_succ_iff.mp less))
    · intro i
      cases i using Fin.cases with
      | zero => exact begins
      | succ i => exact behind i
    · intro i zero
      obtain rfl : i = 0 := Fin.ext zero
      rfl

/-- What is left of a choice without its first needle. -/
theorem sublistForall₂_of_cons (chosen : SublistForall₂ (Starts view) (needle :: needles) pieces) :
    SublistForall₂ (Starts view) needles pieces := by
  induction pieces with
  | nil => cases chosen
  | cons piece pieces ih =>
    cases chosen with
    | cons _ rest => exact rest.cons_right
    | cons_right rest => exact (ih rest).cons_right

/-- The greedy search finds a choice if there is one: a needle may take the first piece that it
begins, whichever it takes in another choice. -/
theorem isSome_assign_iff :
    (assign needles pieces).isSome = true ↔ SublistForall₂ (Starts fold) needles pieces := by
  fun_induction assign needles pieces with
  | case1 => simp [SublistForall₂.nil]
  | case2 =>
    refine iff_of_false (by simp) ?_
    rintro ⟨⟩
  | case3 needle needles piece pieces exact agrees ih =>
    rw [Option.isSome_map, ih]
    refine ⟨fun rest => .cons (agreement_eq_some.mp agrees).1 rest, fun chosen => ?_⟩
    cases chosen with
    | cons _ rest => exact rest
    | cons_right rest => exact sublistForall₂_of_cons rest
  | case4 needle needles piece pieces differs ih =>
    rw [ih]
    refine ⟨fun rest => rest.cons_right, fun chosen => ?_⟩
    cases chosen with
    | cons begins _ => exact absurd begins (agreement_eq_none.mp differs)
    | cons_right rest => exact rest

/-- If the assignment says that it agrees in case, all pieces begin theirs byte for byte. -/
theorem sublistForall₂_id_of_assign (agrees : assign needles pieces = some true) :
    SublistForall₂ (Starts id) needles pieces := by
  fun_induction assign needles pieces with
  | case1 => exact .nil
  | case2 => cases agrees
  | case3 needle needles piece pieces exact begins ih =>
    obtain ⟨rest, found, both⟩ := Option.map_eq_some_iff.mp agrees
    obtain ⟨rfl, rfl⟩ : exact = true ∧ rest = true := by simpa using both
    exact .cons ((agreement_eq_some.mp begins).2.mp rfl) (ih found)
  | case4 needle needles piece pieces _ ih => exact (ih agrees).cons_right

end Assignments

/-! ## Each way by itself -/

variable {pattern candidate : List UInt8}

/-- The outcome of looking for a way: whether there is one, and `some true` only if there is one
that agrees in case. -/
structure Tells (pattern candidate : List UInt8) (kind : MatchKind) (outcome : Option Bool) :
    Prop where
  found : outcome.isSome = true ↔ Way fold pattern candidate kind
  agrees : outcome = some true → Way id pattern candidate kind

theorem tells_agreement : Tells pattern candidate .leading (agreement pattern candidate) where
  found := by
    rw [Option.isSome_iff_ne_none, ne_eq, agreement_eq_none, not_not]
    rfl
  agrees agrees := (agreement_eq_some.mp agrees).2.mp rfl

/-- The match of segments against humps asks for two segments and for an anchored assignment. -/
theorem tells_camelCaseMatch :
    Tells pattern candidate .camelCase (camelCaseMatch pattern candidate) := by
  unfold camelCaseMatch
  split
  next first second others hump later cutPattern cutName =>
    have way (view : UInt8 → UInt8) : Way view pattern candidate .camelCase ↔
        Starts view first hump ∧ SublistForall₂ (Starts view) (second :: others) later := by
      simp only [Way]
      rw [cutPattern, cutName, exists_anchored_iff]
      simp
    constructor
    · rw [way, ← isSome_assign_iff]
      cases agrees : agreement first.bytes hump.bytes with
      | none => simp [agreement_eq_none.mp agrees]
      | some exact =>
        cases rest : assign (second :: others) later <;> simp [(agreement_eq_some.mp agrees).1]
    · intro found
      obtain ⟨exact, agrees, found⟩ := Option.bind_eq_some_iff.mp found
      obtain ⟨rest, chosen, both⟩ := Option.bind_eq_some_iff.mp found
      obtain ⟨rfl, rfl⟩ : exact = true ∧ rest = true := by simpa using both
      exact (way id).mpr ⟨(agreement_eq_some.mp agrees).2.mp rfl,
        sublistForall₂_id_of_assign chosen⟩
  next short =>
    refine ⟨iff_of_false (by simp) ?_, by simp⟩
    rintro ⟨two, ⟨assignment, -⟩⟩
    -- without two segments there is no such way, and without humps no assignment
    match cutPattern : segments pattern, cutName : humps candidate with
    | [], _ => simp [cutPattern] at two
    | [_], _ => simp [cutPattern] at two
    | first :: second :: others, hump :: later =>
      exact short first second others hump later cutPattern cutName
    | first :: second :: others, [] =>
      rw [cutPattern, cutName] at assignment
      exact (assignment.place 0).elim0

/-- A needle occurs in a text if it begins one of the ends of the text, whatever bytes count as
equal. -/
theorem occurs_iff {begins : List UInt8 → List UInt8 → Bool} {view : UInt8 → UInt8}
    (spec : ∀ hay, begins pattern hay = true ↔ Begins view pattern hay) :
    substringMatch.occurs pattern begins candidate = true ↔
      pattern.map view <:+: candidate.map view := by
  induction candidate with
  | nil =>
    rw [substringMatch.occurs, spec, Begins]
    simp
  | cons c candidate ih =>
    rw [substringMatch.occurs, Bool.or_eq_true, spec, ih, List.map_cons, List.infix_cons_iff]
    rfl

theorem occurs_exact :
    substringMatch.occurs pattern List.isPrefixOf candidate = true ↔
      Way id pattern candidate .substring :=
  occurs_iff fun hay => by rw [begins_id, List.isPrefixOf_iff_prefix]

/-- The same up to case. -/
theorem occurs_fold :
    substringMatch.occurs pattern foldBegins candidate = true ↔
      Way fold pattern candidate .substring :=
  occurs_iff fun _ => foldBegins_iff

/-- An occurrence that agrees in case is looked for before any other. -/
theorem tells_substringMatch :
    Tells pattern candidate .substring (substringMatch pattern candidate) where
  found := by
    have weaker : Way id pattern candidate .substring → Way fold pattern candidate .substring := by
      simp only [Way, List.map_id]
      exact fun inside => inside.map fold
    unfold substringMatch
    split
    next exact => simpa using weaker (occurs_exact.mp exact)
    next =>
      rw [← occurs_fold]
      split <;> simp_all
  agrees found := by
    unfold substringMatch at found
    split at found
    next exact => exact occurs_exact.mp exact
    next => split at found <;> cases found

/-- The match of words needs no anchor, so it is the greedy assignment itself. -/
theorem tells_subwordMatch : Tells pattern candidate .subword (subwordMatch pattern candidate) := by
  unfold subwordMatch
  split
  next none => exact ⟨iff_of_false (by simp) fun way => way.1 none, by simp⟩
  next needles some =>
    have way (view : UInt8 → UInt8) : Way view pattern candidate .subword ↔
        SublistForall₂ (Starts view) (words pattern) (words candidate) := by
      rw [Way, nonempty_assignment_iff]
      exact and_iff_right some
    exact ⟨by rw [way, isSome_assign_iff], fun agrees =>
      (way id).mpr (sublistForall₂_id_of_assign agrees)⟩

/-! ## The strongest way -/

/-- Looks for one way, if it is enabled. -/
def attempt (options : MatchOptions) (pattern candidate : List UInt8) (kind : MatchKind) :
    Option Bool :=
  if options.allows kind then
    match kind with
    | .exact => if pattern = candidate then some true else none
    | .leading => agreement pattern candidate
    | .camelCase => camelCaseMatch pattern candidate
    | .substring => substringMatch pattern candidate
    | .subword => subwordMatch pattern candidate
  else none

/-- The ways to match, strongest first. -/
def strongestFirst : List MatchKind := [.exact, .leading, .camelCase, .substring, .subword]

theorem mem_strongestFirst (kind : MatchKind) : kind ∈ strongestFirst := by
  cases kind <;> decide

/-- The order of the attempts is that of the ranks. -/
theorem pairwise_strongestFirst :
    strongestFirst.Pairwise fun stronger weaker => weaker.rank < stronger.rank := by
  decide

theorem rank_inj {kind other : MatchKind} : kind.rank = other.rank ↔ kind = other := by
  cases kind <;> cases other <;> decide

/-- One way after the other is looked for. -/
theorem matchBytes_eq_findSome? (options : MatchOptions) (nonempty : pattern ≠ []) :
    matchBytes options pattern candidate =
      strongestFirst.findSome? fun kind =>
        (attempt options pattern candidate kind).map (⟨kind, ·⟩) := by
  have start : pattern.isEmpty = false := by simpa using nonempty
  by_cases same : pattern = candidate
  · subst same
    simp [matchBytes, start, strongestFirst, attempt, MatchOptions.allows]
  · simp only [matchBytes, start, same, strongestFirst, attempt, MatchOptions.allows,
      List.findSome?_cons, beq_iff_eq, Bool.false_eq_true, ↓reduceIte, Option.map_none,
      List.findSome?_nil, Option.orElse_eq_orElse, Option.orElse_eq_or]
    cases agreement pattern candidate with
    | some exact => rfl
    | none =>
      cases options.camelCase <;> cases options.substring <;> cases options.subword <;>
        cases camelCaseMatch pattern candidate <;> cases substringMatch pattern candidate <;>
        cases subwordMatch pattern candidate <;> rfl

/-- Looking for an enabled way finds it if there is one. -/
theorem tells_attempt {options : MatchOptions} {kind : MatchKind}
    (allowed : options.allows kind = true) :
    Tells pattern candidate kind (attempt options pattern candidate kind) := by
  unfold attempt
  rw [if_pos allowed]
  cases kind with
  | exact => constructor <;> simp [Way]
  | leading => exact tells_agreement
  | camelCase => exact tells_camelCaseMatch
  | substring => exact tells_substringMatch
  | subword => exact tells_subwordMatch

/-- A way that is enabled and that a pattern matches a name in. -/
def Available (options : MatchOptions) (pattern candidate : List UInt8) (kind : MatchKind) : Prop :=
  options.allows kind = true ∧ Way fold pattern candidate kind

/-- Looking for a way succeeds if the way is enabled and there. -/
theorem isSome_attempt_iff {options : MatchOptions} {kind : MatchKind} :
    (attempt options pattern candidate kind).isSome = true ↔
      Available options pattern candidate kind := by
  by_cases allowed : options.allows kind = true
  · rw [Available, (tells_attempt allowed).found]
    exact (and_iff_right allowed).symm
  · exact iff_of_false (by simp [attempt, allowed]) fun available => allowed available.1

/-- Where the search looks for agreement in case first, it reports it if there is any. -/
theorem attempt_eq_some_true {options : MatchOptions} {kind : MatchKind} {exact : Bool}
    (outcome : attempt options pattern candidate kind = some exact)
    (whole : kind = .leading ∨ kind = .substring) (way : Way id pattern candidate kind) :
    exact = true := by
  unfold attempt at outcome
  split at outcome
  · rcases whole with rfl | rfl
    · exact (agreement_eq_some.mp outcome).2.mpr way
    · simp only [substringMatch, if_pos (occurs_exact.mpr way), Option.some.injEq] at outcome
      exact outcome.symm
  · cases outcome

/-- A way that is available, and none that is available is stronger. -/
structure Strongest (options : MatchOptions) (pattern candidate : List UInt8) (kind : MatchKind) :
    Prop where
  available : Available options pattern candidate kind
  highest : ∀ other, Available options pattern candidate other → other.rank ≤ kind.rank

/-- There is one strongest way at most, since ranks differ. -/
theorem Strongest.unique {options : MatchOptions} {kind other : MatchKind}
    (first : Strongest options pattern candidate kind)
    (second : Strongest options pattern candidate other) : kind = other :=
  rank_inj.mp (le_antisymm (second.highest _ first.available) (first.highest _ second.available))

/-- A match is of the strongest kind, and was found by looking for that kind. -/
theorem matchBytes_eq_some {options : MatchOptions} (nonempty : pattern ≠ []) {found : NameMatch}
    (result : matchBytes options pattern candidate = some found) :
    Strongest options pattern candidate found.kind ∧
      attempt options pattern candidate found.kind = some found.caseExact := by
  rw [matchBytes_eq_findSome? options nonempty, List.findSome?_eq_some_iff] at result
  obtain ⟨stronger, kind, weaker, order, here, before⟩ := result
  obtain ⟨exact, outcome, rfl⟩ := Option.map_eq_some_iff.mp here
  refine ⟨⟨isSome_attempt_iff.mp (Option.isSome_of_eq_some outcome), fun other available => ?_⟩,
    outcome⟩
  have listed := mem_strongestFirst other
  have sorted := pairwise_strongestFirst
  rw [order] at listed sorted
  rcases List.mem_append.mp listed with earlier | later
  · have missing := Option.map_eq_none_iff.mp (before other earlier)
    have present := isSome_attempt_iff.mpr available
    rw [missing] at present
    cases present
  · rcases List.mem_cons.mp later with rfl | later
    · exact le_rfl
    · exact ((List.pairwise_cons.mp (List.pairwise_append.mp sorted).2.1).1 other later).le

/-- No match is reported only if no enabled way is there. -/
theorem matchBytes_eq_none {options : MatchOptions} (nonempty : pattern ≠ []) :
    matchBytes options pattern candidate = none ↔
      ∀ kind, ¬ Available options pattern candidate kind := by
  rw [matchBytes_eq_findSome? options nonempty, List.findSome?_eq_none_iff]
  refine ⟨fun missing kind available => ?_, fun missing kind _ => ?_⟩
  · have present := isSome_attempt_iff.mpr available
    rw [Option.map_eq_none_iff.mp (missing kind (mem_strongestFirst kind))] at present
    cases present
  · rw [Option.map_eq_none_iff, ← Option.not_isSome_iff_eq_none, isSome_attempt_iff]
    exact missing kind

/-! ## Names as strings -/

/-- The bytes of a text tell it from all others. -/
theorem bytesOf_inj {first second : String} :
    Text.bytesOf first = Text.bytesOf second ↔ first = second := by
  refine ⟨fun same => ?_, fun same => same ▸ rfl⟩
  rw [← String.toByteArray_inj, ← String.utf8Encode_toList, ← String.utf8Encode_toList]
  exact congrArg List.toByteArray same

/-- A match reports the strongest enabled way in which a pattern matches a name, and there is none
only if there is no such way; the empty pattern begins every name. What agrees in case does so in
that way, and an agreement at the beginning or inside of the name is never missed. -/
theorem matchName_reports_strongest (options : MatchOptions) (pattern candidate : String) :
    matchName options "" candidate = some ⟨.leading, true⟩ ∧
    (Way fold (Text.bytesOf pattern) (Text.bytesOf candidate) .exact ↔ pattern = candidate) ∧
    (pattern ≠ "" →
      (∀ kind, (matchName options pattern candidate).map NameMatch.kind = some kind ↔
        Strongest options (Text.bytesOf pattern) (Text.bytesOf candidate) kind) ∧
      (matchName options pattern candidate = none ↔
        ∀ kind, ¬ Available options (Text.bytesOf pattern) (Text.bytesOf candidate) kind) ∧
      ∀ found, matchName options pattern candidate = some found →
        (found.caseExact = true →
          Way id (Text.bytesOf pattern) (Text.bytesOf candidate) found.kind) ∧
        (found.kind = .leading ∨ found.kind = .substring →
          Way id (Text.bytesOf pattern) (Text.bytesOf candidate) found.kind →
            found.caseExact = true)) := by
  refine ⟨by simp [matchName, matchBytes, Text.bytesOf, Text.bytes], bytesOf_inj, fun given => ?_⟩
  have nonempty : Text.bytesOf pattern ≠ [] := fun empty => given (bytesOf_inj.mp empty)
  refine ⟨fun kind => ⟨fun reported => ?_, fun strongest => ?_⟩,
    matchBytes_eq_none nonempty, fun found result => ?_⟩
  · obtain ⟨found, result, rfl⟩ := Option.map_eq_some_iff.mp reported
    exact (matchBytes_eq_some nonempty result).1
  · cases result : matchName options pattern candidate with
    | none =>
      exact absurd strongest.available ((matchBytes_eq_none nonempty).mp result kind)
    | some found =>
      exact congrArg some ((matchBytes_eq_some nonempty result).1.unique strongest)
  · obtain ⟨strongest, outcome⟩ := matchBytes_eq_some nonempty result
    refine ⟨fun exact => (tells_attempt strongest.available.1).agrees (exact ▸ outcome),
      fun whole way => ?_⟩
    exact attempt_eq_some_true outcome whole way

/-- A pattern in small letters begins the name, and the report says that it does so up to case
only. -/
theorem stri_begins_string_up_to_case :
    "stri" ≠ "" ∧ matchName .all "stri" "String" = some ⟨.leading, false⟩ ∧
    Strongest .all (Text.bytesOf "stri") (Text.bytesOf "String") .leading ∧
    ¬ Way id (Text.bytesOf "stri") (Text.bytesOf "String") .leading := by
  have given : "stri" ≠ "" := by decide
  have found : matchName .all "stri" "String" = some ⟨.leading, false⟩ := by decide +kernel
  have reported := (matchName_reports_strongest .all "stri" "String").2.2 given
  refine ⟨given, found, (reported.1 .leading).mp (by rw [found]; rfl), fun way => ?_⟩
  exact absurd ((reported.2.2 _ found).2 (.inl rfl) way) (by decide)

/-- The capital of the pattern takes the first hump that it begins up to case, though it begins the
next one byte for byte. -/
example : matchName .all "aB" "a_b_B" = some ⟨.camelCase, false⟩ := by decide +kernel

end CodeAssist.Matching
