import CodeAssist.Proofs.Matching.Pieces
import CodeAssist.Proofs.Matching.Ways
/-!
# Patterns of a single segment

The camel-case way asks for two segments at least. A pattern of one segment is left to the way that
compares it with the beginning of the name. The two do not ask the same: segments and humps begin
behind separators, the other way compares every byte.

So where the one segment of a pattern begins the first hump of a name, the pattern need not begin
the name. It does so if and only if both begin with the same separators, and the separators behind
the segment stand in the name as well (`single_segment_loses_only_separators`). Without separators
at these places nothing is lost. With them `Proxy` does not find `$Proxy`, although `PrH` finds
`$ProxyHandler` (`single_segment_loses_proxy`).
-/

namespace CodeAssist.Matching

variable {pattern candidate lead trail needle hay : List UInt8} {segment hump : Piece}
  {later : List Piece} {b c : UInt8}

/-! ## Separators have no case -/

theorem isSeparator_fold (b : UInt8) : isSeparator (fold b) = isSeparator b := by
  unfold fold
  split
  next capital =>
    rw [isUpper_iff] at capital
    have small : (b + 32).toNat = b.toNat + 32 := by
      rw [UInt8.toNat_add]
      exact Nat.mod_eq_of_lt (by show b.toNat + 32 < 256; omega)
    rw [Bool.eq_iff_iff, isSeparator_iff, isSeparator_iff, small]
    omega
  next => rfl

theorem fold_of_isSeparator (separator : isSeparator b = true) : fold b = b := by
  rw [isSeparator_iff] at separator
  refine if_neg fun capital => ?_
  rw [isUpper_iff] at capital
  omega

/-- A separator is like itself only, whatever the case. -/
theorem fold_eq_fold_iff (separator : isSeparator b = true) : fold b = fold c ↔ b = c := by
  refine ⟨fun same => ?_, congrArg fold⟩
  have other : isSeparator c = true := by
    rw [← isSeparator_fold, ← same, isSeparator_fold, separator]
  rwa [fold_of_isSeparator separator, fold_of_isSeparator other] at same

theorem begins_cons :
    Begins fold (b :: needle) (c :: hay) ↔ fold b = fold c ∧ Begins fold needle hay := by
  simp only [Begins, List.map_cons, List.cons_prefix_cons]

/-- Separators begin a text if they stand there as they are. -/
theorem begins_of_separators (separators : ∀ b ∈ trail, isSeparator b = true) :
    Begins fold trail hay ↔ trail <+: hay := by
  induction trail generalizing hay with
  | nil => simp [Begins]
  | cons b trail ih =>
    obtain ⟨own, rest⟩ := List.forall_mem_cons.mp separators
    cases hay with
    | nil => simp [Begins]
    | cons c hay => rw [begins_cons, List.cons_prefix_cons, fold_eq_fold_iff own, ih rest]

/-- What stands behind separators begins another such text only if the separators are the same. -/
theorem begins_append_iff {lead' : List UInt8} (marks : ∀ b ∈ lead, isSeparator b = true)
    (marks' : ∀ b ∈ lead', isSeparator b = true) (some : needle ≠ [])
    (plain : ∀ b ∈ needle, isSeparator b = false)
    (plain' : ∀ b ∈ hay.head?, isSeparator b = false) :
    Begins fold (lead ++ needle ++ trail) (lead' ++ hay) ↔
      lead = lead' ∧ Begins fold (needle ++ trail) hay := by
  induction lead generalizing lead' with
  | nil =>
    cases lead' with
    | nil => simp
    | cons c lead' =>
      -- the first byte of the needle would be a separator
      refine iff_of_false (fun begins => ?_) (by simp)
      obtain ⟨b, needle, rfl⟩ := List.exists_cons_of_ne_nil some
      have same := (begins_cons.mp begins).1.symm
      have own := (List.forall_mem_cons.mp marks').1
      rw [(fold_eq_fold_iff own).mp same, plain b List.mem_cons_self] at own
      cases own
  | cons b lead ih =>
    obtain ⟨own, rest⟩ := List.forall_mem_cons.mp marks
    cases lead' with
    | nil =>
      -- the first byte of the other text would be one
      refine iff_of_false (fun begins => ?_) (by simp)
      cases hay with
      | nil => simp [Begins] at begins
      | cons c hay =>
        have same := (begins_cons.mp begins).1
        rw [(fold_eq_fold_iff own).mp same, plain' c rfl] at own
        cases own
    | cons c lead' =>
      obtain ⟨-, rest'⟩ := List.forall_mem_cons.mp marks'
      simp only [List.cons_append]
      rw [begins_cons, fold_eq_fold_iff own, ih rest rest', List.cons.injEq, and_assoc]

/-- Behind a needle that begins a text, separators must follow in the text. -/
theorem begins_behind_iff (begins : Begins fold needle hay)
    (separators : ∀ b ∈ trail, isSeparator b = true) :
    Begins fold (needle ++ trail) hay ↔ trail <+: hay.drop needle.length := by
  rw [← begins_of_separators separators]
  induction needle generalizing hay with
  | nil => simp
  | cons b needle ih =>
    cases hay with
    | nil => simp [Begins] at begins
    | cons c hay =>
      obtain ⟨same, begins⟩ := begins_cons.mp begins
      rw [List.cons_append, begins_cons, and_iff_right same, ih begins]
      rfl

/-! ## Patterns of a single segment -/

/-- The anchored rule, asked of a single segment. -/
theorem exists_anchored_singleton_iff {pieces : List Piece} :
    (∃ assignment : Assignment fold [segment] pieces, assignment.Anchored) ↔
      ∃ hump later, pieces = hump :: later ∧ Starts fold segment hump := by
  cases pieces with
  | nil =>
    refine iff_of_false ?_ (by simp)
    rintro ⟨assignment, -⟩
    exact (assignment.place 0).elim0
  | cons hump later =>
    rw [exists_anchored_iff]
    constructor
    · exact fun accepted => ⟨hump, later, rfl, accepted.1⟩
    · rintro ⟨_, _, cut, begins⟩
      obtain ⟨rfl, rfl⟩ := List.cons.inj cut
      exact ⟨begins, .nil⟩

/-- If the one segment of a pattern begins the first hump of a name, the camel-case way passes the
name over, and the pattern begins the name if and only if both begin with the same separators and
what follows the segment, separators again, follows it in the name. -/
theorem single_segment_loses_only_separators (single : segments pattern = [segment])
    (accepted : ∃ assignment : Assignment fold (segments pattern) (humps candidate),
      assignment.Anchored) :
    camelCaseMatch pattern candidate = none ∧
    (Way fold pattern candidate .leading ↔
      pattern.takeWhile isSeparator = candidate.takeWhile isSeparator ∧
        pattern.drop segment.stop <+: candidate.drop segment.stop) := by
  refine ⟨by rw [camelCaseMatch, single], ?_⟩
  rw [single] at accepted
  obtain ⟨hump, later, cut, begins⟩ := exists_anchored_singleton_iff.mp accepted
  obtain ⟨trail, spelled, start, some, plain, -, nothing⟩ := exists_behind_first single
  obtain ⟨behind, spelled', -, some', plain', -⟩ := exists_behind_first cut
  have separators := piecesFrom_eq_nil_iff.mp nothing
  have marks : ∀ b ∈ pattern.takeWhile isSeparator, isSeparator b = true := fun _ =>
    List.mem_takeWhile_imp
  have marks' : ∀ b ∈ candidate.takeWhile isSeparator, isSeparator b = true := fun _ =>
    List.mem_takeWhile_imp
  have stop : segment.stop = (pattern.takeWhile isSeparator).length + segment.bytes.length := by
    rw [Piece.stop, start, Nat.zero_add]
  generalize pattern.takeWhile isSeparator = lead at spelled marks stop ⊢
  generalize candidate.takeWhile isSeparator = lead' at spelled' marks' ⊢
  have first : ∀ b ∈ (hump.bytes ++ behind).head?, isSeparator b = false := by
    rw [List.head?_append_of_ne_nil _ some']
    exact fun b mem => plain' b (List.mem_of_mem_head? mem)
  have onward : Begins fold segment.bytes (hump.bytes ++ behind) := by
    refine begins.trans ?_
    rw [List.map_append]
    exact List.prefix_append _ _
  rw [spelled, spelled', Way, ← List.append_assoc, begins_append_iff marks marks' some plain first,
    begins_behind_iff onward separators]
  refine and_congr_right fun same => ?_
  rw [stop, ← List.drop_drop, ← List.drop_drop, List.append_assoc, List.drop_left, List.drop_left,
    same, List.drop_left]

/-- Marks before and behind the segment that stand in the name as well. -/
theorem marked_segment_begins_name :
    segments (Text.bytesOf "_map_") = [⟨1, Text.bytesOf "map"⟩] ∧
    (∃ assignment : Assignment fold (segments (Text.bytesOf "_map_"))
      (humps (Text.bytesOf "_Map_entry")), assignment.Anchored) ∧
    Way fold (Text.bytesOf "_map_") (Text.bytesOf "_Map_entry") .leading := by
  have single : segments (Text.bytesOf "_map_") = [⟨1, Text.bytesOf "map"⟩] := by decide +kernel
  have cut : humps (Text.bytesOf "_Map_entry") =
      [⟨1, Text.bytesOf "Map"⟩, ⟨5, Text.bytesOf "entry"⟩] := by decide +kernel
  have accepted : ∃ assignment : Assignment fold (segments (Text.bytesOf "_map_"))
      (humps (Text.bytesOf "_Map_entry")), assignment.Anchored := by
    rw [single, exists_anchored_singleton_iff]
    exact ⟨_, _, cut, foldBegins_iff.mp (by decide +kernel)⟩
  have begins := (single_segment_loses_only_separators single accepted).2.mpr (by decide +kernel)
  exact ⟨single, accepted, begins⟩

/-- A mark before the name, before the segment or behind it: the segment begins the first hump, the
pattern does not begin the name, and the name is not found. With a second segment the same marks do
no harm. -/
theorem single_segment_loses_proxy :
    (segments (Text.bytesOf "Proxy") = [⟨0, Text.bytesOf "Proxy"⟩] ∧
      humps (Text.bytesOf "$Proxy") = [⟨1, Text.bytesOf "Proxy"⟩] ∧
      foldBegins (Text.bytesOf "Proxy") (Text.bytesOf "Proxy") = true ∧
      begins "Proxy" "$Proxy" = false ∧ matchName ⟨true, false, false⟩ "Proxy" "$Proxy" = none ∧
      matchName ⟨true, false, false⟩ "PrH" "$ProxyHandler" = some ⟨.camelCase, true⟩) ∧
    (segments (Text.bytesOf "_proxy") = [⟨1, Text.bytesOf "proxy"⟩] ∧
      humps (Text.bytesOf "Proxy") = [⟨0, Text.bytesOf "Proxy"⟩] ∧
      foldBegins (Text.bytesOf "proxy") (Text.bytesOf "Proxy") = true ∧
      begins "_proxy" "Proxy" = false ∧ matchName ⟨true, false, false⟩ "_proxy" "Proxy" = none ∧
      matchName ⟨true, false, false⟩ "_prH" "ProxyHandler" = some ⟨.camelCase, false⟩) ∧
    segments (Text.bytesOf "proxy_") = [⟨0, Text.bytesOf "proxy"⟩] ∧
      begins "proxy_" "Proxy" = false ∧ matchName ⟨true, false, false⟩ "proxy_" "Proxy" = none ∧
      matchName ⟨true, false, false⟩ "prH_" "ProxyHandler" = some ⟨.camelCase, false⟩ := by
  decide +kernel

end CodeAssist.Matching
