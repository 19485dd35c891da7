import CodeAssist.Proofs.Completion.Allocations
import CodeAssist.Proofs.Completion.Words
/-!
# What a type test adds

Around code behind a type test, a variable has the members of the narrower type too, written with a
cast. The walk comes to them behind the members of the variable's own type, and leaves out those
that have the kind, name and signature of one of these. The resolution knows nothing of the two
groups, but what it asks of two members, whether they clash, is a matter of their signatures. So a
cast member never meets one that was reached without the cast: it takes no place from it, and gets
no other qualifier because of it (`addMember_append`). What is proposed without the name of the
variable is a first part of what is proposed with it.

Nothing is asked of the type of the variable. Arrays have members that no class declares, and the
type may be guessed; their members are signed as others are.
-/

namespace CodeAssist.Completion.Session

variable {session : Session} {receiver : TypeRef} {name : String} {candidate : Candidate}
  {kept rest candidates : List Candidate}

/-! ## Members that clash with none before them -/

/-- The step: a member looks past those that it does not clash with. -/
theorem addMember_append (apart : ∀ earlier ∈ kept, session.clash earlier candidate = false) :
    session.addMember (kept ++ rest) candidate = kept ++ session.addMember rest candidate := by
  have clear : ∀ earlier ∈ kept, session.displaces earlier candidate = false := by
    intro earlier mem
    rw [displaces, apart earlier mem, Bool.false_and]
  rcases session.addMember_first rest candidate with
    ⟨before, earlier, after, rfl, free, displaced, result⟩ | ⟨alone, result⟩
  · have free : ∀ other ∈ kept ++ before, session.displaces other candidate = false :=
      fun other mem => (List.mem_append.mp mem).elim (clear other) (free other)
    rw [result, ← List.append_assoc, addMember_of_displaces free displaced, List.append_assoc]
  · have alone : ∀ earlier ∈ kept ++ rest, session.displaces earlier candidate = false :=
      fun earlier mem => (List.mem_append.mp mem).elim (clear earlier) (alone earlier)
    have quiet : kept.any (session.clash · candidate) = false := by
      apply List.any_eq_false.mpr
      intro earlier mem
      simp [apart earlier mem]
    rw [result, addMember_of_alone alone, ownPlace, ownPlace, List.any_append, quiet,
      Bool.false_or, List.append_assoc]

/-- The run: so do all members of a list. -/
theorem foldl_addMember_append
    (apart : ∀ earlier ∈ kept, ∀ later ∈ candidates, session.clash earlier later = false) :
    candidates.foldl session.addMember (kept ++ rest) =
      kept ++ candidates.foldl session.addMember rest := by
  induction candidates generalizing rest with
  | nil => rfl
  | cons candidate candidates ih =>
    have first : ∀ earlier ∈ kept, session.clash earlier candidate = false :=
      fun earlier mem => apart earlier mem candidate List.mem_cons_self
    rw [List.foldl_cons, List.foldl_cons, addMember_append first]
    apply ih
    intro earlier mem later hlater
    exact apart earlier mem later (List.mem_cons_of_mem _ hlater)

/-! ## Members that get no other qualifier -/

/-- The step: a member stays as it is, as far as it stays, if it needs no qualifier in the place of
an earlier one, and none in a place of its own. -/
theorem mem_addMember_asFound {other : Candidate}
    (inPlace : ∀ earlier ∈ kept, (earlier.mustQualify && candidate.qualifier.isNone) = false)
    (alone : (∀ earlier ∈ kept, session.displaces earlier candidate = false) →
      (kept.any (session.clash · candidate) && candidate.qualifier.isNone) = false)
    (mem : other ∈ session.addMember kept candidate) : other ∈ kept ∨ other = candidate := by
  rcases session.addMember_cases kept candidate with
    ⟨before, earlier, after, rfl, -, result⟩ | ⟨free, result⟩
  · rw [result, List.mem_append, List.mem_cons, merge, inPlace earlier (by simp)] at mem
    split at mem
    · rcases mem with mem | rfl | mem
      · exact .inl (List.mem_append_left _ mem)
      · exact .inr rfl
      · exact .inl (List.mem_append_right _ (List.mem_cons_of_mem _ mem))
    · exact .inl (by simpa using mem)
  · rw [result, ownPlace, alone free, List.mem_append] at mem
    exact mem.imp_right List.mem_singleton.mp

/-- The run: members stay as they are, as far as they stay, if each of them does when it joins others
of its sort. -/
theorem mem_foldl_addMember {sort : Candidate → Prop} {other : Candidate}
    (step : ∀ kept candidate other, (∀ earlier ∈ kept, sort earlier) → sort candidate →
      other ∈ session.addMember kept candidate → other ∈ kept ∨ other = candidate)
    (before : ∀ earlier ∈ kept, sort earlier) (found : ∀ candidate ∈ candidates, sort candidate)
    (mem : other ∈ candidates.foldl session.addMember kept) :
    other ∈ kept ∨ other ∈ candidates := by
  induction candidates generalizing kept with
  | nil => exact .inl mem
  | cons candidate candidates ih =>
    have own : sort candidate := found candidate List.mem_cons_self
    have added : ∀ earlier ∈ session.addMember kept candidate, sort earlier := by
      intro earlier hearlier
      rcases step _ _ _ before own hearlier with hearlier | rfl
      · exact before earlier hearlier
      · exact own
    rcases ih added (fun later hlater => found later (List.mem_cons_of_mem _ hlater)) mem with
      mem | mem
    · rcases step _ _ _ before own mem with mem | rfl
      · exact .inl mem
      · exact .inr List.mem_cons_self
    · exact .inr (List.mem_cons_of_mem _ mem)

/-! ## The two requests -/

/-- The request for the members of a receiver, which may be a variable. -/
def behind (session : Session) (receiver : TypeRef) (name : Option String) : Session :=
  session.atSite (.memberAccess receiver name)

/-- The members that the variable has through a type test, with a cast. -/
def castMembers (session : Session) (receiver : TypeRef) (name : String) : List Candidate :=
  Event.items (session.narrowedMembers name (session.receiverClass? receiver)
    (Event.items (session.receiverMembers receiver)))

theorem walked_behind_none (session : Session) (receiver : TypeRef) :
    (session.behind receiver none).walked = Event.items (session.receiverMembers receiver) := rfl

theorem walked_behind_some (session : Session) (receiver : TypeRef) (name : String) :
    (session.behind receiver (some name)).walked =
      (session.behind receiver none).walked ++ session.castMembers receiver name :=
  Event.items_append _ _

theorem proposal_behind (session : Session) (receiver : TypeRef) (name : String)
    (candidate : Candidate) :
    (session.behind receiver (some name)).proposal candidate =
      (session.behind receiver none).proposal candidate := by
  have same : factors session.store session.graph (session.behind receiver (some name)).request
      candidate =
      factors session.store session.graph (session.behind receiver none).request candidate := by
    funext tier
    cases tier <;> rfl
  have relevance : relevance session.store session.graph
      (session.behind receiver (some name)).request candidate =
      relevance session.store session.graph (session.behind receiver none).request candidate :=
    congrArg Factors.total same
  exact congrArg (Proposal.ofCandidate session.store session.request.range · candidate) relevance

theorem kept_behind (session : Session) (receiver : TypeRef) (name : Option String) :
    (session.behind receiver name).kept =
      ((session.behind receiver name).walked.foldl session.addMember []).map
        session.attributeRecordMethod := by
  have site : (session.behind receiver name).request.site ≠ .name := nofun
  apply resolve_members site
  intro candidate mem
  exact isMember_of_memberAccess mem

/-- What stays without the name of the variable are members of the receiver. -/
theorem exists_receiverMember {earlier : Candidate}
    (mem : earlier ∈ (session.behind receiver none).walked.foldl session.addMember []) :
    ∃ original ∈ Event.items (session.receiverMembers receiver), original.SameSubject earlier := by
  have members : ∀ candidate ∈ (session.behind receiver none).walked, candidate.isMember = true :=
    fun candidate mem => isMember_of_receiverMembers mem
  have gathered : earlier ∈
      ((session.behind receiver none).walked.foldl session.addCandidate ({}, [])).2 := by
    rwa [foldl_addCandidate_of_members members]
  obtain ⟨original, listed, respells⟩ :=
    (respells_of_mem_foldl gathered).resolve_left List.not_mem_nil
  exact ⟨original, listed, sameSubject_of_stripped respells.stripped_eq⟩

section CastMembers

variable {earlier later : Candidate}
  (hearlier : earlier ∈ (session.behind receiver none).walked.foldl session.addMember [])
  (hlater : later ∈ session.castMembers receiver name)

include hearlier hlater

/-- The cast members have no signature in common with them. -/
theorem signature?_ne_of_castMembers :
    session.store.signature? later ≠ session.store.signature? earlier := by
  obtain ⟨original, listed, same⟩ := exists_receiverMember hearlier
  rw [same.signature?]
  exact signature?_ne_of_narrowedMembers listed hlater

/-- So they do not clash with them. -/
theorem clash_castMembers : session.clash earlier later = false := by
  obtain ⟨original, listed, same⟩ := exists_receiverMember hearlier
  obtain ⟨signature, signed⟩ := signed_of_receiverMembers listed
  have signedEarlier := signed.congr same
  obtain ⟨root, oneRoot⟩ := session.oneRoot_narrowedMembers name (session.receiverClass? receiver)
    (Event.items (session.receiverMembers receiver))
  obtain ⟨own, signedLater⟩ := oneRoot.signed hlater
  apply Bool.eq_false_iff.mpr
  intro clash
  apply signature?_ne_of_castMembers hearlier hlater
  rw [signedLater.signed, signedEarlier.signed, (signedEarlier.clash_iff signedLater).mp clash]

end CastMembers

/-- The cast members that stay. -/
def keptCasts (session : Session) (receiver : TypeRef) (name : String) : List Candidate :=
  ((session.castMembers receiver name).foldl session.addMember []).map
    session.attributeRecordMethod

/-- With the name of the variable, the cast members come behind what stays without it. -/
theorem kept_behind_some (session : Session) (receiver : TypeRef) (name : String) :
    (session.behind receiver (some name)).kept =
      (session.behind receiver none).kept ++ session.keptCasts receiver name := by
  set reached := (session.behind receiver none).walked.foldl session.addMember []
  have apart : ∀ earlier ∈ reached, ∀ later ∈ session.castMembers receiver name,
      session.clash earlier later = false := fun _ hearlier _ hlater =>
    clash_castMembers hearlier hlater
  have added : (session.castMembers receiver name).foldl session.addMember (reached ++ []) =
      reached ++ (session.castMembers receiver name).foldl session.addMember [] :=
    foldl_addMember_append apart
  rw [List.append_nil] at added
  rw [kept_behind, kept_behind, walked_behind_some, List.foldl_append, added, List.map_append]
  rfl

/-- A cast member is written behind the cast of the variable to its narrower type. -/
theorem qualifier_of_castMembers (mem : candidate ∈ session.castMembers receiver name) :
    ∃ narrowed, session.graph.narrowed? session.request.scope name = some narrowed ∧
      candidate.qualifier =
        some ("((" ++ session.store.showType narrowed ++ ") " ++ name ++ ")") := by
  rw [castMembers, items_narrowedMembers] at mem
  split at mem
  next => exact absurd mem List.not_mem_nil
  next id cast found =>
    obtain ⟨original, -, rfl⟩ := List.mem_map.mp mem
    simp only [castTo?, Option.bind_eq_bind, Option.bind_eq_some_iff] at found
    obtain ⟨narrowed, hnarrowed, declared, -, found⟩ := found
    split at found
    next => cases found
    next =>
      cases found
      exact ⟨narrowed, hnarrowed, rfl⟩

/-- The cast members that stay are as they were found, but for what they are scored as. -/
theorem mem_keptCasts (mem : candidate ∈ session.keptCasts receiver name) :
    ∃ original ∈ session.castMembers receiver name,
      candidate = session.attributeRecordMethod original := by
  obtain ⟨original, gathered, rfl⟩ := List.mem_map.mp mem
  have qualified : ∀ candidate ∈ session.castMembers receiver name,
      candidate.qualifier.isSome = true := by
    intro candidate mem
    obtain ⟨narrowed, -, written⟩ := qualifier_of_castMembers mem
    exact Option.isSome_of_eq_some written
  -- what has a qualifier needs none
  have step : ∀ kept (candidate other : Candidate),
      (∀ earlier ∈ kept, earlier.qualifier.isSome = true) → candidate.qualifier.isSome = true →
      other ∈ session.addMember kept candidate → other ∈ kept ∨ other = candidate := by
    intro kept candidate other _ own mem
    have bound : candidate.qualifier.isNone = false := by
      rwa [← Option.not_isSome, Bool.not_eq_false']
    exact mem_addMember_asFound (by simp [bound]) (by simp [bound]) mem
  have listed := (mem_foldl_addMember step (by simp) qualified gathered).resolve_left
    List.not_mem_nil
  exact ⟨original, listed, rfl⟩

/-- The cast members that stay are written as they were found. -/
theorem exists_castMember (mem : candidate ∈ session.keptCasts receiver name) :
    ∃ original ∈ session.castMembers receiver name, original.SameSubject candidate ∧
      candidate.qualifier = original.qualifier := by
  obtain ⟨original, listed, rfl⟩ := mem_keptCasts mem
  refine ⟨original, listed, (rewrites_attributeRecordMethod session).same original, ?_⟩
  rw [attributeRecordMethod_eq]

/-! ## What is proposed -/

/-- What tells a member from the others behind a dot. -/
def nameAndSignature (session : Session) (candidate : Candidate) :
    CandidateKind × String × Option Signature :=
  (candidate.kind, candidate.name, session.store.signature? candidate)

/-- Of the cast members, each signature stays once, because all were found through one root. -/
theorem nodup_keptCasts (built : session.store.Built) (receiver : TypeRef) (name : String) :
    ((session.keptCasts receiver name).map session.nameAndSignature).Nodup := by
  have rooted : (session.behind receiver (some name)).store.RootedAtObject := built.rootedAtObject
  have orderly := (session.behind receiver (some name)).orderly_memberAccess receiver (some name)
  have differ := (members_differ rooted orderly.turns orderly.signed).2
  have stay : ((session.behind receiver (some name)).resolve (Event.items
      ((session.behind receiver (some name)).memberAccess receiver (some name)))).2 =
      (session.behind receiver none).kept ++ session.keptCasts receiver name :=
    session.kept_behind_some receiver name
  rw [stay, List.pairwise_append] at differ
  obtain ⟨root, oneRoot⟩ := session.oneRoot_narrowedMembers name (session.receiverClass? receiver)
    (Event.items (session.receiverMembers receiver))
  have casts : session.OneRoot root (session.keptCasts receiver name) := by
    apply oneRoot.congr
    intro candidate mem
    obtain ⟨original, listed, same, -⟩ := exists_castMember mem
    exact ⟨original, listed, same⟩
  rw [List.Nodup, List.pairwise_map]
  apply differ.2.1.imp_of_mem
  intro first second hfirst hsecond apart alike
  obtain ⟨rootFirst, _, standsForFirst⟩ := casts first hfirst
  obtain ⟨rootSecond, _, standsForSecond⟩ := casts second hsecond
  have signatures : session.store.signature? first = session.store.signature? second :=
    congrArg (·.2.2) alike
  exact (apart standsForFirst.isMember standsForSecond.isMember signatures).2
    (rootFirst.trans rootSecond.symm)

/-- Behind a dot, a client is shown the members that stay, but for kinds that it does not want. -/
theorem shown_behind (session : Session) (ignores : ProposalKind → Bool) (receiver : TypeRef)
    (name : Option String) :
    (session.behind receiver name).shown ignores =
      (session.behind receiver name).kept.filter fun candidate =>
        !ignores (.ofCandidate candidate) := by
  have site : (session.behind receiver name).request.site = .memberAccess receiver name := rfl
  rw [shown, offered_memberAccess site]

/-- A type test around the cursor only adds proposals. Those behind the dot of an expression come
first, unchanged, when the expression is a variable; the others are written with the cast of the
variable to its narrower type, and no two of them, and none of them and of the first ones, have one
kind, name and signature. -/
theorem narrowing_only_adds {ignores : ProposalKind → Bool} {signal signal' : Signal}
    (built : session.store.Built)
    (direct : ((session.behind receiver none).run ignores signal).outcome = .completed)
    (named : ((session.behind receiver (some name)).run ignores signal').outcome = .completed) :
    ∃ more : List Candidate,
      (session.behind receiver (some name)).shown ignores =
        (session.behind receiver none).shown ignores ++ more ∧
      ((session.behind receiver none).run ignores signal).proposals =
        ((session.behind receiver none).shown ignores).map
          (session.behind receiver none).proposal ∧
      ((session.behind receiver (some name)).run ignores signal').proposals =
        ((session.behind receiver none).run ignores signal).proposals ++
          more.map (session.behind receiver (some name)).proposal ∧
      (∀ candidate ∈ more, ∃ narrowed,
        session.graph.narrowed? session.request.scope name = some narrowed ∧
        ((session.behind receiver (some name)).proposal candidate).qualification =
          some ("((" ++ session.store.showType narrowed ++ ") " ++ name ++ ")")) ∧
      (more.map session.nameAndSignature).Nodup ∧
      ∀ candidate ∈ more, ∀ other ∈ (session.behind receiver none).shown ignores,
        session.nameAndSignature candidate ≠ session.nameAndSignature other := by
  have proposal : (session.behind receiver (some name)).proposal =
      (session.behind receiver none).proposal := funext (session.proposal_behind receiver name)
  have shown : (session.behind receiver (some name)).shown ignores =
      (session.behind receiver none).shown ignores ++
        (session.keptCasts receiver name).filter fun candidate =>
          !ignores (.ofCandidate candidate) := by
    rw [shown_behind, shown_behind, kept_behind_some, List.filter_append]
  refine ⟨_, shown, proposals_run direct, ?_, ?_, ?_, ?_⟩
  · rw [proposals_run direct, proposals_run named, shown, List.map_append, proposal]
  · intro candidate mem
    obtain ⟨original, listed, -, written⟩ := exists_castMember (List.mem_filter.mp mem).1
    obtain ⟨narrowed, found, cast⟩ := qualifier_of_castMembers listed
    exact ⟨narrowed, found, written.trans cast⟩
  · exact (session.nodup_keptCasts built receiver name).sublist (List.filter_sublist.map _)
  · intro candidate mem other hother alike
    obtain ⟨original, listed, same, -⟩ := exists_castMember (List.mem_filter.mp mem).1
    rw [shown_behind, kept_behind] at hother
    obtain ⟨reached, hreached, rfl⟩ := List.mem_map.mp (List.mem_filter.mp hother).1
    have attributed := (rewrites_attributeRecordMethod session).same reached
    apply signature?_ne_of_castMembers hreached listed
    rw [← same.signature?, ← attributed.signature?]
    exact congrArg (·.2.2) alike

/-- A token behind the dot of a variable that is tested to hold a text. -/
def insideTest : Session :=
  overCore "sub" .name ⟨#[{ parent := none, kind := .guard [("o", .plain .string)] }]⟩

/-- What an object has does not match the token, and one member of a text does. -/
theorem shown_insideTest :
    ((insideTest.behind (.plain .object) none).shown fun _ => false) = [] ∧
      ((insideTest.behind (.plain .object) (some "o")).shown fun _ => false).map Candidate.name =
        ["substring"] := by
  have object : CoreLibrary.store.interfaceRoutes .object .object = [] :=
    Store.interfaceRoutes_eq_nil (by decide +kernel)
  have store : insideTest.store = CoreLibrary.store := rfl
  have direct : insideTest.receiverMembers (.plain .object) =
      insideTest.members {} .object .object .declared := rfl
  have cast : insideTest.castTo? "o" (some .object) = some (.string, "((String) o)") := by
    decide +kernel
  have declared : insideTest.receiverClass? (.plain .object) = some .object := by decide +kernel
  constructor
  · rw [shown_behind, kept_behind, walked_behind_none, direct]
    simp only [members, visits, Store.objectRoute, store, object]
    decide +kernel
  · rw [shown_behind, kept_behind, walked_behind_some, castMembers, items_narrowedMembers,
      declared, cast, walked_behind_none, direct]
    simp only [members, visits, Store.objectRoute, store, object, Store.interfaceRoutes_string]
    decide +kernel

/-- The test adds it, behind a cast. -/
theorem test_adds_substring :
    ∃ substring : Candidate,
      ((insideTest.behind (.plain .object) (some "o")).run (fun _ => false)
          fun _ _ => false).proposals =
        ((insideTest.behind (.plain .object) none).run (fun _ => false)
          fun _ _ => false).proposals ++
          [(insideTest.behind (.plain .object) (some "o")).proposal substring] ∧
      substring.name = "substring" ∧
      ((insideTest.behind (.plain .object) (some "o")).proposal substring).qualification =
        some "((String) o)" := by
  have silent : ∀ name, ((insideTest.behind (.plain .object) name).run (fun _ => false)
      fun _ _ => false).outcome = .completed := fun name =>
    run_outcome_of_silent _ _ fun _ _ => rfl
  obtain ⟨more, -, direct, added, written, -, -⟩ :=
    narrowing_only_adds (.core : insideTest.store.Built) (silent none) (silent (some "o"))
  have names : more.map Candidate.name = ["substring"] := by
    have same := congrArg (List.map Proposal.name) added
    rw [proposals_run (silent (some "o")), direct, shown_insideTest.1, List.map_nil,
      List.nil_append, List.map_map, List.map_map] at same
    exact same.symm.trans shown_insideTest.2
  obtain ⟨substring, rfl, name⟩ := List.map_eq_singleton_iff.mp names
  obtain ⟨narrowed, found, cast⟩ := written substring List.mem_cons_self
  have text : insideTest.graph.narrowed? insideTest.request.scope "o" = some (.plain .string) := by
    decide +kernel
  obtain rfl := Option.some.inj (text.symm.trans found)
  refine ⟨substring, added, name, cast.trans ?_⟩
  decide +kernel

end CodeAssist.Completion.Session
