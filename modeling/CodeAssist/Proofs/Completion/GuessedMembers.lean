import CodeAssist.Proofs.Completion.Narrowing
import CodeAssist.Proofs.Completion.RelevanceOrder
/-!
# Where guessed members rank

Behind a variable whose type cannot be resolved stand the members of a guessed class, and those
that a type test gives to the variable, with a cast. The first are marked as missing, and nothing
else is.

Of the tiers in which members behind a dot can differ, the qualification is the highest
(`relevance_lt_of_qualification`). A guess costs two of the lowest, and a cast is a qualifier. So
what decides is whether the position prefers what is qualified, and it decides for all of them
alike: if it does, every guessed member ranks below every cast member, and if it does not, above
(`guessed_members_rank_by_qualification`).
-/

namespace CodeAssist.Completion

/-! ## The highest tier that tells members apart -/

/-- Members are not of the kind that a position asks for. -/
theorem fitsHint_of_isMember {store : Store} {candidate : Candidate} (hint : KindHint)
    (member : candidate.isMember = true) : fitsHint store candidate hint = false := by
  simp only [Candidate.isMember, Bool.or_eq_true, beq_iff_eq] at member
  rcases member with kind | kind <;> simp [fitsHint, kind]

/-- Behind the dot of an expression, a member ranks below all members that are qualified as the
position prefers, if it is not. -/
theorem relevance_lt_of_qualification {store : Store} {graph : ScopeGraph} {request : Request}
    {receiver : TypeRef} {name : Option String} {first second : Candidate}
    (site : request.site = .memberAccess receiver name) (hfirst : first.isMember = true)
    (hsecond : second.isMember = true)
    (less : (first.mustQualify == request.insideQualified) = false)
    (more : (second.mustQualify == request.insideQualified) = true) :
    relevance store graph request first < relevance store graph request second := by
  have kind : ∀ candidate : Candidate, candidate.isMember = true →
      request.hint.any (fitsHint store candidate) = false := by
    intro candidate member
    cases hint : request.hint with
    | none => rfl
    | some wanted => exact fitsHint_of_isMember wanted member
  refine Factors.total_lt_iff.mpr ?_
  simp [Factors.highestFirst, Factors.digits, Tier.all, factors, site, kind first hfirst,
    kind second hsecond, less, more, List.cons_lt_cons_iff, Tier.maximum]

namespace Session

variable {session : Session} {receiver : TypeRef} {name : String} {candidate : Candidate}
  {kept : List Candidate}

/-! ## Members found through one root -/

/-- A member that was found through the same root as all before it stays as it is, as far as it
stays, because none of them hides it. -/
theorem mem_addMember_of_root {root : Option ClassId} {other : Candidate}
    (before : ∀ earlier ∈ kept, earlier.mustQualify = false ∧ earlier.root? = root)
    (own : candidate.mustQualify = false ∧ candidate.root? = root)
    (mem : other ∈ session.addMember kept candidate) : other ∈ kept ∨ other = candidate := by
  apply mem_addMember_asFound _ _ mem
  · intro earlier hearlier
    rw [(before earlier hearlier).1, Bool.false_and]
  · intro free
    have quiet : kept.any (session.clash · candidate) = false := by
      apply List.any_eq_false.mpr
      intro earlier hearlier clash
      have covered : covers earlier candidate = true := by
        simp [covers, (before earlier hearlier).2, own.2]
      have displaced := free earlier hearlier
      rw [displaces, clash, covered] at displaced
      cases displaced
    rw [quiet, Bool.false_and]

/-! ## Guessed members and cast members -/

/-- What a search for members finds is neither missing nor qualified. -/
theorem plain_of_members {search : MemberSearch} {root start : ClassId} {origin : Origin}
    (mem : candidate ∈ Event.items (session.members search root start origin)) :
    candidate.missing = false ∧ candidate.mustQualify = false := by
  obtain ⟨visit, -, declaration, nameMatch, -, rfl⟩ := mem_items_members.mp mem
  exact ⟨rfl, rfl⟩

theorem missing_arrayMembers {array : TypeRef}
    (mem : candidate ∈ Event.items (session.arrayMembers array)) : candidate.missing = false := by
  simp only [arrayMembers, List.cons_append, Event.items_tick, Event.items_append, List.mem_append,
    Screened.mem_items_events, Screened.bind_eq_ok, Screened.pure_eq_ok] at mem
  rcases mem with ⟨nameMatch, -, rfl⟩ | ⟨nameMatch, -, rfl⟩ <;> rfl

/-- If one member of a receiver is missing, all of them are, and were found through one class. -/
theorem guessed_of_missing (mem : candidate ∈ Event.items (session.receiverMembers receiver))
    (missing : candidate.missing = true) :
    ∃ id, ∀ other ∈ Event.items (session.receiverMembers receiver),
      other.missing = true ∧ other.mustQualify = false ∧ other.root? = some id := by
  have absent : ∀ {search : MemberSearch} {root start : ClassId} {origin : Origin},
      candidate ∉ Event.items (session.members search root start origin) := by
    intro search root start origin mem
    rw [(plain_of_members mem).1] at missing
    cases missing
  unfold receiverMembers at mem ⊢
  split at mem
  next => exact absurd mem absent
  next =>
    rw [Event.items_append, List.mem_append] at mem
    rcases mem with mem | mem
    · rw [missing_arrayMembers mem] at missing
      cases missing
    · exact absurd mem absent
  next =>
    unfold guessedMembers at mem ⊢
    split at mem
    next => exact absurd mem List.not_mem_nil
    next id _ =>
      refine ⟨id, fun other hother => ?_⟩
      rw [Event.items_map] at hother
      obtain ⟨original, found, rfl⟩ := List.mem_map.mp hother
      have rooted := (session.oneRoot_members {} id id .declared original found).1
      exact ⟨rfl, (plain_of_members found).2, rooted⟩
  next => exact absurd mem List.not_mem_nil

/-- Once a member of a receiver is missing, all that stay of its members are, and none of them is
qualified. -/
theorem guessed_of_kept (mem : candidate ∈ (session.behind receiver none).kept)
    (missing : candidate.missing = true) :
    ∀ other ∈ (session.behind receiver none).kept,
      other.missing = true ∧ other.mustQualify = false := by
  obtain ⟨original, listed, same⟩ := exists_original_of_mem_resolve mem
  have original_missing : original.missing = true :=
    (congr_of_stripped Candidate.missing (fun _ => rfl) same).symm.trans missing
  obtain ⟨id, guessed⟩ := guessed_of_missing listed original_missing
  intro other hother
  rw [kept_behind] at hother
  obtain ⟨found, gathered, rfl⟩ := List.mem_map.mp hother
  have walked : found ∈ (session.behind receiver none).walked :=
    (mem_foldl_addMember (fun _ _ _ before own => mem_addMember_of_root before own) (by simp)
      (fun member hmember => (guessed member hmember).2) gathered).resolve_left List.not_mem_nil
  rw [attributeRecordMethod_eq]
  exact ⟨(guessed found walked).1, (guessed found walked).2.1⟩

/-- The cast members are not missing, and are qualified. -/
theorem cast_of_keptCasts (mem : candidate ∈ session.keptCasts receiver name) :
    candidate.missing = false ∧ candidate.mustQualify = true := by
  obtain ⟨original, listed, rfl⟩ := mem_keptCasts mem
  obtain ⟨id, members⟩ := session.exists_members_of_narrowedMembers name
    (session.receiverClass? receiver) (Event.items (session.receiverMembers receiver))
  obtain ⟨member, found, -, cast, rfl⟩ := members original listed
  rw [attributeRecordMethod_eq]
  exact ⟨(plain_of_members found).1, rfl⟩

/-- A missing member and one that is not are proposed together only if the one is a member of a
guessed class and the other one has a cast. -/
theorem mustQualify_of_missing {name : Option String} {guessed other : Candidate}
    (hguessed : guessed ∈ (session.behind receiver name).kept)
    (hother : other ∈ (session.behind receiver name).kept) (missing : guessed.missing = true)
    (resolved : other.missing = false) :
    guessed.mustQualify = false ∧ other.mustQualify = true := by
  have direct : guessed ∈ (session.behind receiver none).kept →
      other ∉ (session.behind receiver none).kept := by
    intro hguessed hother
    rw [(guessed_of_kept hguessed missing other hother).1] at resolved
    cases resolved
  cases name with
  | none => exact absurd hother (direct hguessed)
  | some name =>
    rw [kept_behind_some, List.mem_append] at hguessed hother
    rcases hguessed with hguessed | hguessed
    · have cast := hother.resolve_left (direct hguessed)
      exact ⟨(guessed_of_kept hguessed missing guessed hguessed).2, (cast_of_keptCasts cast).2⟩
    · rw [(cast_of_keptCasts hguessed).1] at missing
      cases missing

/-- Members of a guessed class rank below all other proposals if the position prefers what is
qualified, and above all of them if it does not. -/
theorem guessed_members_rank_by_qualification {ignores : ProposalKind → Bool} {signal : Signal}
    {name : Option String} {guessed other : Proposal}
    (hguessed : guessed ∈ ((session.behind receiver name).run ignores signal).proposals)
    (hother : other ∈ ((session.behind receiver name).run ignores signal).proposals)
    (missing : guessed.missing = true) (resolved : other.missing = false) :
    if session.request.insideQualified then guessed.relevance < other.relevance
    else other.relevance < guessed.relevance := by
  have kept : ∀ proposal ∈ ((session.behind receiver name).run ignores signal).proposals,
      ∃ candidate ∈ (session.behind receiver name).kept, candidate.isMember = true ∧
        (session.behind receiver name).proposal candidate = proposal := by
    intro proposal mem
    obtain ⟨candidate, shown, rfl⟩ := List.mem_map.mp
      (((session.behind receiver name).proposals_run_initial ignores signal).mem mem)
    rw [shown_behind] at shown
    have stays := (List.mem_filter.mp shown).1
    obtain ⟨original, walked, same⟩ := exists_original_of_mem_resolve stays
    have member : candidate.isMember = original.isMember :=
      congr_of_stripped Candidate.isMember (fun _ => rfl) same
    exact ⟨candidate, stays, member.trans (isMember_of_memberAccess walked), rfl⟩
  obtain ⟨first, hfirst, firstMember, rfl⟩ := kept guessed hguessed
  obtain ⟨second, hsecond, secondMember, rfl⟩ := kept other hother
  obtain ⟨alone, qualified⟩ := mustQualify_of_missing hfirst hsecond missing resolved
  have site : (session.behind receiver name).request.site = .memberAccess receiver name := rfl
  have prefers : (session.behind receiver name).request.insideQualified =
      session.request.insideQualified := rfl
  split
  next inside =>
    refine relevance_lt_of_qualification site firstMember secondMember ?_ ?_
    · rw [alone, prefers, inside]
      rfl
    · rw [qualified, prefers, inside]
      rfl
  next outside =>
    refine relevance_lt_of_qualification site secondMember firstMember ?_ ?_
    · rw [qualified, prefers, Bool.eq_false_iff.mpr outside]
      rfl
    · rw [alone, prefers, Bool.eq_false_iff.mpr outside]
      rfl

/-- A token behind the dot of a variable whose type is missing, and guessed to be the root class. The
variable is tested to hold a class object. -/
def guessedTest (insideQualified : Bool) : Session :=
  let session := overCore "get" .name
    ⟨#[{ parent := none, kind := .guard [("o", .plain .reflected)] }]⟩
  { session with
    guess := fun _ => some .object
    request := { session.request with insideQualified } }

/-- What is proposed there. -/
def guessedTestProposals (insideQualified : Bool) : List Proposal :=
  (((guessedTest insideQualified).behind (.named "Missing") (some "o")).run (fun _ => false)
    fun _ _ => false).proposals

/-- Both classes have a member that matches the token. -/
theorem guessedTestProposals_eq (insideQualified : Bool) :
    (guessedTestProposals insideQualified).map
        (fun proposal => (proposal.name, proposal.missing, proposal.relevance)) =
      [("getClass", true, if insideQualified then 830 else 2030),
        ("getName", false, if insideQualified then 2071 else 871)] := by
  have object : CoreLibrary.store.interfaceRoutes .object .object = [] :=
    Store.interfaceRoutes_eq_nil (by decide +kernel)
  have reflected : CoreLibrary.store.interfaceRoutes .reflected .reflected = [] :=
    Store.interfaceRoutes_eq_nil (by decide +kernel)
  have store : (guessedTest insideQualified).store = CoreLibrary.store := rfl
  have unresolved : (guessedTest insideQualified).receiverClass? (.named "Missing") = none := by
    decide +kernel +revert
  have erasure : (TypeRef.named "Missing").erasure = .named "Missing" := rfl
  have guess : (guessedTest insideQualified).guess "Missing" = some .object := rfl
  have cast : (guessedTest insideQualified).castTo? "o" none =
      some (.reflected, "((Class) o)") := by
    decide +kernel +revert
  rw [guessedTestProposals, proposals_run (run_outcome_of_silent _ _ fun _ _ => rfl), shown_behind,
    kept_behind, walked_behind_some, castMembers, items_narrowedMembers, unresolved, cast,
    walked_behind_none, receiverMembers, unresolved, erasure]
  simp only [guessedMembers, guess, members, visits, Store.objectRoute, store, object, reflected]
  cases insideQualified <;> decide +kernel

/-- Where what is qualified is preferred, the guessed member ranks below the other one. -/
theorem guessed_class_below_cast :
    ∃ guessed ∈ guessedTestProposals true, ∃ other ∈ guessedTestProposals true,
      guessed.missing = true ∧ other.missing = false ∧ guessed.relevance < other.relevance := by
  obtain ⟨guessed, rest, proposed, first, others⟩ :=
    List.map_eq_cons_iff.mp (guessedTestProposals_eq true)
  obtain ⟨other, rfl, second⟩ := List.map_eq_singleton_iff.mp others
  have hguessed : guessed ∈ guessedTestProposals true := by simp [proposed]
  have hother : other ∈ guessedTestProposals true := by simp [proposed]
  have missing : guessed.missing = true := congrArg (·.2.1) first
  have resolved : other.missing = false := congrArg (·.2.1) second
  have ranked : if (guessedTest true).request.insideQualified then
      guessed.relevance < other.relevance else other.relevance < guessed.relevance :=
    guessed_members_rank_by_qualification hguessed hother missing resolved
  exact ⟨guessed, hguessed, other, hother, missing, resolved, ranked⟩

/-- Elsewhere it ranks above it, although it was only guessed. -/
theorem guessed_class_above_cast :
    ∃ guessed ∈ guessedTestProposals false, ∃ other ∈ guessedTestProposals false,
      guessed.missing = true ∧ other.missing = false ∧
        guessed.relevance = 2030 ∧ other.relevance = 871 := by
  obtain ⟨guessed, rest, proposed, first, others⟩ :=
    List.map_eq_cons_iff.mp (guessedTestProposals_eq false)
  obtain ⟨other, rfl, second⟩ := List.map_eq_singleton_iff.mp others
  refine ⟨guessed, by simp [proposed], other, by simp [proposed], congrArg (·.2.1) first,
    congrArg (·.2.1) second, congrArg (·.2.2) first, congrArg (·.2.2) second⟩

end Session

end CodeAssist.Completion
