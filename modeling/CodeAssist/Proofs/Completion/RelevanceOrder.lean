import CodeAssist.Completion.Relevance
import Mathlib.Algebra.BigOperators.Group.List.Basic
import Mathlib.Data.List.Forall2
import Mathlib.Tactic.Ring
/-!
# The order of relevance

A candidate that is ahead in a tier is ahead of all that are ahead only in lower ones: the order of
relevances is the lexicographic order of the values in the tiers, the highest tier first.

That holds for mixed-radix numbers of any digits (`MixedRadix.Lexicographic`). Below a digit there
is room for all that the lower digits can come to, and the capacity of the whole bounds every weight
and every number, so that words of 32 bits hold them all if they hold the capacity.

The values of a candidate are within their bounds of themselves (`factors_le_maximum`): none of them
is ever cut.
-/

namespace CodeAssist

namespace MixedRadix

/-- How many numbers there are with digits up to the given largest values. -/
def capacity (maxima : List Nat) : Nat := (maxima.map (· + 1)).prod

/-- Digits that are within their bounds. -/
abbrev Fits (maxima digits : List Nat) : Prop := List.Forall₂ (· ≤ ·) digits maxima

/-- The least number that a word of 32 bits does not hold. -/
def wordLimit : Nat := 2 ^ 32

variable {maxima digits first second : List Nat}

/-! ## Numbers digit by digit -/

/-- The weights from a higher one on make the number that many times as large. -/
theorem foldr_zipWith_weightsFrom (weight : Nat) (maxima digits : List Nat) :
    (List.zipWith (· * ·) digits (weightsFrom weight maxima)).foldr (· + ·) 0 =
      weight * value maxima digits := by
  induction maxima generalizing weight digits with
  | nil => simp [value, weights, weightsFrom]
  | cons maximum maxima ih =>
    cases digits with
    | nil => simp [value]
    | cons digit digits =>
      rw [value, weights, weightsFrom, weightsFrom, List.zipWith_cons_cons, List.zipWith_cons_cons,
        List.foldr_cons, List.foldr_cons, ih, ih]
      ring

theorem value_nil (digits : List Nat) : value [] digits = 0 := by
  simp [value, weights, weightsFrom]

/-- The lowest digit counts for itself, the others for the base of the lowest each. -/
theorem value_cons (maximum digit : Nat) (maxima digits : List Nat) :
    value (maximum :: maxima) (digit :: digits) = digit + (maximum + 1) * value maxima digits := by
  rw [value, weights, weightsFrom, List.zipWith_cons_cons, List.foldr_cons,
    foldr_zipWith_weightsFrom, Nat.mul_one, Nat.one_mul]

theorem capacity_cons (maximum : Nat) (maxima : List Nat) :
    capacity (maximum :: maxima) = (maximum + 1) * capacity maxima := rfl

/-! ## Bounds -/

/-- There is always room for one value. -/
theorem one_le_capacity (maxima : List Nat) : 1 ≤ capacity maxima := by
  induction maxima with
  | nil => exact Nat.le_refl 1
  | cons maximum maxima ih =>
    rw [capacity_cons]
    exact Nat.mul_pos (Nat.succ_pos maximum) ih

/-- Digits that fit give a value below the capacity. -/
theorem value_lt_capacity (fits : Fits maxima digits) : value maxima digits < capacity maxima := by
  induction fits with
  | nil => simp [value_nil, capacity]
  | @cons digit maximum digits maxima bound _ ih =>
    rw [value_cons, capacity_cons]
    calc digit + (maximum + 1) * value maxima digits
        < (maximum + 1) * (value maxima digits + 1) := by rw [Nat.mul_succ]; omega
      _ ≤ (maximum + 1) * capacity maxima := Nat.mul_le_mul_left _ ih

/-- The largest digits make up the largest number, and one more would not fit. -/
theorem largest_succ (maxima : List Nat) : largest maxima + 1 = capacity maxima := by
  induction maxima with
  | nil => rfl
  | cons maximum maxima ih =>
    rw [largest, value_cons, capacity_cons, ← ih, largest]
    ring

/-- No weight is larger than the first one times the capacity. -/
theorem mem_weightsFrom_le {weight entry : Nat} (mem : entry ∈ weightsFrom weight maxima) :
    entry ≤ weight * capacity maxima := by
  induction maxima generalizing weight with
  | nil => cases mem
  | cons maximum maxima ih =>
    rw [capacity_cons, ← Nat.mul_assoc]
    rcases List.mem_cons.mp mem with rfl | mem
    · rw [Nat.mul_assoc]
      exact Nat.le_mul_of_pos_right _ (Nat.mul_pos (Nat.succ_pos maximum) (one_le_capacity maxima))
    · exact ih mem

/-- No weight exceeds the capacity. -/
theorem mem_weights_le {entry : Nat} (mem : entry ∈ weights maxima) : entry ≤ capacity maxima := by
  simpa using mem_weightsFrom_le mem

/-! ## Order -/

/-- Of lists of one length the last items decide only if all before them are equal. -/
theorem append_singleton_lt_iff {first second : List Nat} (length : first.length = second.length)
    (a b : Nat) :
    first ++ [a] < second ++ [b] ↔ first < second ∨ first = second ∧ a < b := by
  induction first generalizing second with
  | nil =>
    obtain rfl := List.length_eq_zero_iff.mp length.symm
    simp [List.cons_lt_cons_iff]
  | cons x first ih =>
    cases second with
    | nil => simp at length
    | cons y second =>
      rw [List.cons_append, List.cons_append, List.cons_lt_cons_iff, List.cons_lt_cons_iff,
        ih (Nat.succ.inj length), List.cons_eq_cons]
      tauto

/-- With a digit in its bounds, a higher part decides, and only if it is equal the digit does. -/
theorem digit_lt_iff {base d e u v : Nat} (hd : d < base) (he : e < base) :
    d + base * u < e + base * v ↔ u < v ∨ u = v ∧ d < e := by
  rcases Nat.lt_trichotomy u v with less | rfl | more
  · have room : base * u + base ≤ base * v := by
      rw [← Nat.mul_succ]
      exact Nat.mul_le_mul_left _ less
    omega
  · omega
  · have room : base * v + base ≤ base * u := by
      rw [← Nat.mul_succ]
      exact Nat.mul_le_mul_left _ more
    omega

/-- Two numbers of one base are equal if their lowest digits and the rest are. -/
theorem digit_eq_iff {base d e u v : Nat} (hd : d < base) (he : e < base) :
    d + base * u = e + base * v ↔ u = v ∧ d = e := by
  have less := digit_lt_iff (u := u) (v := v) hd he
  have more := digit_lt_iff (u := v) (v := u) he hd
  omega

/-- Digits within their bounds can be read off their number. -/
theorem value_inj (hfirst : Fits maxima first) (hsecond : Fits maxima second) :
    value maxima first = value maxima second ↔ first = second := by
  refine ⟨fun same => ?_, fun same => same ▸ rfl⟩
  induction hfirst generalizing second with
  | nil => exact (List.forall₂_nil_right_iff.mp hsecond).symm
  | @cons d maximum first maxima hd _ ih =>
    cases hsecond with
    | @cons e _ second _ he hsecond =>
      rw [value_cons, value_cons,
        digit_eq_iff (Nat.lt_succ_of_le hd) (Nat.lt_succ_of_le he)] at same
      rw [ih hsecond same.1, same.2]

/-- The number of digits within their bounds is the smaller, the smaller they are from the highest
on. -/
theorem value_lt_iff (hfirst : Fits maxima first) (hsecond : Fits maxima second) :
    value maxima first < value maxima second ↔ first.reverse < second.reverse := by
  induction hfirst generalizing second with
  | nil =>
    obtain rfl := List.forall₂_nil_right_iff.mp hsecond
    simp
  | @cons d maximum first maxima hd hfirst ih =>
    cases hsecond with
    | @cons e _ second _ he hsecond =>
      have length : first.reverse.length = second.reverse.length := by
        simp [hfirst.length_eq, hsecond.length_eq]
      rw [value_cons, value_cons, digit_lt_iff (Nat.lt_succ_of_le hd) (Nat.lt_succ_of_le he),
        ih hsecond, value_inj hfirst hsecond, List.reverse_cons, List.reverse_cons,
        append_singleton_lt_iff length, List.reverse_inj]

/-- Numbers are ordered by their digits, highest first, and words hold them and their weights. -/
structure Lexicographic (maxima : List Nat) : Prop where
  less : ∀ first second, Fits maxima first → Fits maxima second →
    (value maxima first < value maxima second ↔ first.reverse < second.reverse)
  same : ∀ first second, Fits maxima first → Fits maxima second →
    (value maxima first = value maxima second ↔ first = second)
  bounded : ∀ digits, Fits maxima digits → value maxima digits ≤ largest maxima
  weights : ∀ weight ∈ weights maxima, weight < wordLimit
  largest : largest maxima < wordLimit

/-- Below the limit of a word nothing wraps, so the word compares as its digits do. -/
theorem lexicographic_of_capacity (holds : capacity maxima < wordLimit) : Lexicographic maxima where
  less _ _ hfirst hsecond := value_lt_iff hfirst hsecond
  same _ _ hfirst hsecond := value_inj hfirst hsecond
  bounded digits fits := by
    have below := value_lt_capacity fits
    rw [← largest_succ] at below
    exact Nat.le_of_lt_succ below
  weights _ mem := (mem_weights_le mem).trans_lt holds
  largest := by
    rw [← largest_succ] at holds
    omega

end MixedRadix

namespace Completion

open MixedRadix (capacity wordLimit)

/-! ## The values of a candidate -/

/-- Ranks of matches fit their tier. -/
theorem rank_le_maximum (found : Matching.NameMatch) : found.rank ≤ Tier.nameMatch.maximum := by
  obtain ⟨kind, exact⟩ := found
  cases kind <;> cases exact <;> decide

theorem fit_le (store : Store) (filter : TypeFilter) (type expected : TypeRef) :
    fit store filter type expected ≤ 4 := by
  have graded (sub sup : TypeRef) :
      (if store.isSubtype sub sup then 3 else if store.isBoxingAssignable sub sup then 2 else 1)
        ≤ 4 := by
    split
    · decide
    · split <;> decide
  unfold fit
  dsimp only
  split
  · exact Nat.le_refl 4
  · cases filter with
    | subtype => exact graded type expected
    | supertype => exact graded expected type
    | exact => exact Nat.le_add_left 1 3

theorem foldl_max_le {bound start : Nat} {entries : List Nat} (hstart : start ≤ bound)
    (hentries : ∀ entry ∈ entries, entry ≤ bound) : entries.foldl max start ≤ bound := by
  induction entries generalizing start with
  | nil => exact hstart
  | cons entry entries ih =>
    exact ih (Nat.max_le.mpr ⟨hstart, hentries entry List.mem_cons_self⟩)
      fun other mem => hentries other (List.mem_cons_of_mem _ mem)

/-- The factor for the expected type fits its tier, however many types are expected. -/
theorem expectedTypeFactor_le (store : Store) (request : Request) (candidate : Candidate) :
    expectedTypeFactor store request candidate ≤ Tier.expectedType.maximum := by
  unfold expectedTypeFactor
  split
  · exact Nat.zero_le _
  · split
    · decide
    · decide
    · exact Nat.zero_le _
    · refine foldl_max_le (Nat.zero_le _) fun entry mem => ?_
      obtain ⟨expected, -, rfl⟩ := List.mem_map.mp mem
      exact fit_le _ _ _ _

/-- No value of a candidate exceeds the largest of its tier. -/
theorem factors_le_maximum (store : Store) (graph : ScopeGraph) (request : Request)
    (candidate : Candidate) (tier : Tier) :
    factors store graph request candidate tier ≤ tier.maximum := by
  cases tier with
  | nameMatch => exact rank_le_maximum candidate.nameMatch
  | expectedType => exact expectedTypeFactor_le store request candidate
  | accessibility => cases access : candidate.access <;> simp [factors, access, Tier.maximum]
  | nonInherited | constant | override =>
    cases site : request.site <;> simp [factors, site, Tier.maximum, Bool.toNat_le]
  | _ => exact Bool.toNat_le _

namespace Factors

/-- The values of the tiers, the highest tier first. -/
def highestFirst (factors : Factors) : List Nat := factors.digits.reverse

/-- All factors fit their tiers. -/
theorem fits_digits (factors : Factors) : MixedRadix.Fits Tier.maxima factors.digits := by
  refine List.forall₂_map_left_iff.mpr (List.forall₂_map_right_iff.mpr (List.forall₂_same.mpr ?_))
  exact fun tier _ => Nat.min_le_right _ _

theorem total_lt_iff {first second : Factors} :
    first.total < second.total ↔ first.highestFirst < second.highestFirst :=
  MixedRadix.value_lt_iff first.fits_digits second.fits_digits

end Factors

/-- The relevance of candidates is ordered by their values in the tiers, the highest tier first, and
no value is cut. Words of 32 bits hold the weights with their running product, and every relevance.
The same is true of all mixed-radix numbers whose capacity a word holds. -/
theorem relevance_is_lexicographic :
    (∀ store graph request (first second : Candidate),
      (relevance store graph request first < relevance store graph request second ↔
        (factors store graph request first).highestFirst <
          (factors store graph request second).highestFirst) ∧
      (relevance store graph request first = relevance store graph request second ↔
        (factors store graph request first).highestFirst =
          (factors store graph request second).highestFirst) ∧
      (factors store graph request first).highestFirst =
        (Tier.all.map (factors store graph request first)).reverse ∧
      relevance store graph request first ≤ Tier.largestRelevance) ∧
    (∀ first second : Factors,
      (first.total < second.total ↔ first.highestFirst < second.highestFirst) ∧
      (first.total = second.total ↔ first.highestFirst = second.highestFirst) ∧
      first.total ≤ Tier.largestRelevance) ∧
    capacity Tier.maxima < wordLimit ∧ (∀ weight ∈ Tier.weights, weight < wordLimit) ∧
    Tier.largestRelevance < wordLimit ∧
    ∀ maxima, capacity maxima < wordLimit → MixedRadix.Lexicographic maxima := by
  have holds : capacity Tier.maxima < wordLimit := by decide
  have tiers := MixedRadix.lexicographic_of_capacity holds
  have vectors (first second : Factors) :
      (first.total < second.total ↔ first.highestFirst < second.highestFirst) ∧
      (first.total = second.total ↔ first.highestFirst = second.highestFirst) ∧
      first.total ≤ Tier.largestRelevance := by
    refine ⟨tiers.less _ _ first.fits_digits second.fits_digits, ?_,
      tiers.bounded _ first.fits_digits⟩
    rw [Factors.highestFirst, Factors.highestFirst, List.reverse_inj]
    exact tiers.same _ _ first.fits_digits second.fits_digits
  refine ⟨fun store graph request first second => ?_, vectors, holds,
    tiers.weights, tiers.largest, fun _ => MixedRadix.lexicographic_of_capacity⟩
  obtain ⟨less, same, bounded⟩ :=
    vectors (factors store graph request first) (factors store graph request second)
  refine ⟨less, same, ?_, bounded⟩
  refine congrArg List.reverse (List.map_congr_left fun tier _ => ?_)
  exact Nat.min_eq_left (factors_le_maximum store graph request first tier)

/-- Three digits, the middle one always zero. -/
theorem three_digits_ordered :
    capacity [3, 0, 9] < wordLimit ∧ MixedRadix.Lexicographic [3, 0, 9] := by
  have holds : capacity [3, 0, 9] < wordLimit := by decide
  exact ⟨holds, relevance_is_lexicographic.2.2.2.2.2 _ holds⟩

end Completion

end CodeAssist
