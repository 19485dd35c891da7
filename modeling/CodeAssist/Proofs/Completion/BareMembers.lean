import CodeAssist.Proofs.Completion.Delivery
import CodeAssist.Proofs.Completion.ScopeWalk
import CodeAssist.Proofs.Completion.Shadowing
import CodeAssist.Proofs.Completion.TypeSearch
/-!
# What a bare member name means

At a bare name, members are found through several roots: the classes around the cursor, static
imports and favorites. Of those with one signature at most one is written without a qualifier, and
that one was found through the root that the walk came to first.

`Ordered` is the invariant of the candidates that stay: whoever comes first in its signature has the
root of the first one seen, and everyone later has to be qualified and is. A place may change hands,
but never to another root (`root?_merge`), and what takes a place that has to be qualified is
qualified itself (`hidden_merge`). A qualifier can always be found, because roots are stored.
-/

namespace CodeAssist.Completion.Session

variable {session : Session} {seen kept : List Candidate} {candidate earlier : Candidate}

/-! ## Places -/

/-- Whether a candidate is a member with a signature. -/
def signedAs (session : Session) (signature : Signature) (candidate : Candidate) : Bool :=
  candidate.isMember && session.store.signature? candidate == some signature

theorem signedAs_congr {other : Candidate} (same : candidate.SameSubject other)
    (signature : Signature) :
    session.signedAs signature other = session.signedAs signature candidate := by
  simp only [signedAs, same.isMember, same.signature?]

theorem signedAs_iff {declaration : Declaration} {signature : Signature}
    (standsFor : candidate.StandsFor session.store declaration) :
    session.signedAs signature candidate = true ↔ declaration.signature = signature := by
  simp [signedAs, standsFor.isMember, standsFor.signature?]

/-- A member that was found through a stored root can be qualified. -/
theorem hidden_qualify (classes : session.graph.ClassesStoredIn session.store)
    (rooted : session.Rooted candidate) : Hidden (session.qualify candidate) := by
  obtain ⟨root, found, opens⟩ := rooted.opened
  exact ⟨rfl, receiverQualifier_isSome found (opens.stored classes)⟩

theorem rooted_qualify (rooted : session.Rooted candidate) :
    session.Rooted (session.qualify candidate) :=
  rooted.congr (sameSubject_qualify session candidate) fun _ => rfl

/-- A member is hidden once it has been qualified, unless it was before. -/
theorem hidden_of_qualified (classes : session.graph.ClassesStoredIn session.store)
    (rooted : session.Rooted candidate) :
    Hidden (if candidate.qualifier.isNone then session.qualify candidate else candidate) := by
  split
  · exact hidden_qualify classes rooted
  next named =>
    have qualified : candidate.qualifier.isSome := by
      simpa [Option.isSome_iff_ne_none] using named
    exact ⟨rooted.mustQualify qualified, qualified⟩

/-! ## A place that changes hands -/

/-- Members clash if they have one signature. -/
theorem clash_iff_signedAs (hearlier : session.Rooted earlier)
    (hcandidate : session.Rooted candidate) :
    session.clash earlier candidate = true ↔
      ∀ signature, session.signedAs signature earlier = session.signedAs signature candidate := by
  obtain ⟨a, ha⟩ := hearlier.standsFor
  obtain ⟨b, hb⟩ := hcandidate.standsFor
  rw [clash_iff ha hb]
  constructor
  · intro same signature
    rw [Bool.eq_iff_iff, signedAs_iff ha, signedAs_iff hb, same]
  · intro same
    exact (signedAs_iff ha).mp ((same b.signature).trans ((signedAs_iff hb).mpr rfl))

theorem rooted_merge (hearlier : session.Rooted earlier) (hcandidate : session.Rooted candidate) :
    session.Rooted (session.merge candidate earlier) := by
  unfold merge
  split
  · split
    · exact rooted_qualify hcandidate
    · exact hcandidate
  · exact hearlier

/-- A place stays with its signature. -/
theorem signedAs_merge (hearlier : session.Rooted earlier) (hcandidate : session.Rooted candidate)
    (displaced : session.displaces earlier candidate = true) (signature : Signature) :
    session.signedAs signature (session.merge candidate earlier) =
      session.signedAs signature earlier := by
  have clashes : session.clash earlier candidate = true := (Bool.and_eq_true_iff.mp displaced).1
  have same := (clash_iff_signedAs hearlier hcandidate).mp clashes signature
  unfold merge
  split
  · split
    · rw [signedAs_congr (sameSubject_qualify session candidate), same]
    · exact same.symm
  · rfl

/-- A place stays with its root: what overrides is declared elsewhere, so only the root can have
made the two share the place. -/
theorem root?_merge (displaced : session.displaces earlier candidate = true) :
    (session.merge candidate earlier).root? = earlier.root? := by
  have covered : covers earlier candidate = true := (Bool.and_eq_true_iff.mp displaced).2
  unfold merge
  split
  next above =>
    have elsewhere : earlier.declaring ≠ candidate.declaring := by
      intro same
      rw [overrides, same] at above
      cases declaring : candidate.declaring <;> simp [declaring] at above
    have root : earlier.root? = candidate.root? := by
      simpa [covers, elsewhere] using covered
    split
    · exact root.symm
    · exact root.symm
  next => rfl

/-- A place that has to be qualified stays qualified. -/
theorem hidden_merge (classes : session.graph.ClassesStoredIn session.store)
    (hcandidate : session.Rooted candidate) (hidden : Hidden earlier) :
    Hidden (session.merge candidate earlier) := by
  unfold merge
  split
  · rw [hidden.1, Bool.true_and]
    exact hidden_of_qualified classes hcandidate
  · exact hidden

/-- Who is first with a signature does not change its root when a place does neither. -/
theorem root?_find?_replace {before after : List Candidate} {later : Candidate}
    {test : Candidate → Bool} (same : test later = test earlier)
    (root : later.root? = earlier.root?) :
    ((before ++ later :: after).find? test).map Candidate.root? =
      ((before ++ earlier :: after).find? test).map Candidate.root? := by
  rw [List.find?_append, List.find?_append, List.find?_cons, List.find?_cons, same, Option.map_or,
    Option.map_or]
  cases test earlier with
  | true => simp only [Option.map_some, root]
  | false => rfl

/-! ## The invariant -/

/-- Of the candidates that stay, the first with a signature has the root of the first one seen, and
all later ones are hidden. -/
structure Ordered (session : Session) (seen kept : List Candidate) : Prop where
  rooted : ∀ candidate ∈ kept, candidate.isMember = true → session.Rooted candidate
  first : ∀ signature, (kept.find? (session.signedAs signature)).map Candidate.root? =
    (seen.find? (session.signedAs signature)).map Candidate.root?
  later : kept.Pairwise fun earlier candidate => ∀ signature,
    session.signedAs signature earlier = true → session.signedAs signature candidate = true →
      Hidden candidate

namespace Ordered

/-- A candidate that is no member changes nothing for members. -/
theorem skip {rest : List Candidate} (ordered : session.Ordered seen kept)
    (other : candidate.isMember = false) (others : ∀ added ∈ rest, added.kind = candidate.kind) :
    session.Ordered (seen ++ [candidate]) (kept ++ rest) := by
  have rest_other : ∀ added ∈ rest, added.isMember = false := by
    intro added mem
    rw [Candidate.isMember, others added mem]
    exact other
  have unsigned : ∀ added ∈ rest, ∀ signature, session.signedAs signature added = false := by
    intro added mem signature
    rw [signedAs, rest_other added mem, Bool.false_and]
  refine ⟨?_, ?_, ?_⟩
  · intro added mem member
    rcases List.mem_append.mp mem with mem | mem
    · exact ordered.rooted added mem member
    · exact absurd (member.symm.trans (rest_other added mem)) (by decide)
  · intro signature
    have none_of_rest : rest.find? (session.signedAs signature) = none :=
      List.find?_eq_none.mpr fun added mem => by simp [unsigned added mem signature]
    simp [List.find?_append, none_of_rest, ordered.first signature, signedAs, other]
  · refine List.pairwise_append.mpr ⟨ordered.later, ?_, ?_⟩
    · refine List.pairwise_of_forall_mem_list fun _ _ added mem signature _ signed => ?_
      exact absurd (signed.symm.trans (unsigned added mem signature)) (by decide)
    · intro _ _ added mem signature _ signed
      exact absurd (signed.symm.trans (unsigned added mem signature)) (by decide)

/-- A member that shares a place is merged into it. -/
theorem merge {before after : List Candidate}
    (classes : session.graph.ClassesStoredIn session.store)
    (ordered : session.Ordered seen (before ++ earlier :: after))
    (rooted : session.Rooted candidate) (displaced : session.displaces earlier candidate = true) :
    session.Ordered (seen ++ [candidate])
      (before ++ session.merge candidate earlier :: after) := by
  have clashes : session.clash earlier candidate = true := (Bool.and_eq_true_iff.mp displaced).1
  have hearlier : session.Rooted earlier := by
    obtain ⟨declaration, standsFor⟩ := rooted.standsFor
    refine ordered.rooted earlier (by simp) ?_
    rw [Candidate.isMember, (kind_merge displaced).1]
    exact standsFor.isMember
  have signed := signedAs_merge hearlier rooted displaced
  refine ⟨?_, ?_, ?_⟩
  · intro added mem member
    rcases List.mem_append.mp mem with mem | mem
    · exact ordered.rooted added (List.mem_append_left _ mem) member
    · rcases List.mem_cons.mp mem with rfl | mem
      · exact rooted_merge hearlier rooted
      · exact ordered.rooted added (by simp [mem]) member
  · intro signature
    have first := ordered.first signature
    rw [root?_find?_replace (signed signature) (root?_merge displaced), first, List.find?_append,
      Option.map_or]
    cases held : session.signedAs signature candidate with
    | false => simp [held]
    | true =>
      -- the place that is shared has the signature already, so something with it was seen
      have shared : session.signedAs signature earlier = true :=
        ((clash_iff_signedAs hearlier rooted).mp clashes signature).trans held
      have known : ((before ++ earlier :: after).find? (session.signedAs signature)).isSome := by
        rw [List.find?_isSome]
        exact ⟨earlier, by simp, shared⟩
      rw [← Option.isSome_map, first] at known
      rw [Option.or_of_isSome known]
  · have later := ordered.later
    rw [List.pairwise_append, List.pairwise_cons] at later ⊢
    obtain ⟨hbefore, ⟨hhead, hafter⟩, hcross⟩ := later
    refine ⟨hbefore, ⟨fun added mem signature h => ?_, hafter⟩, fun first hfirst added mem => ?_⟩
    · rw [signed] at h
      exact hhead added mem signature h
    · rcases List.mem_cons.mp mem with rfl | mem
      · intro signature h₁ h₂
        rw [signed] at h₂
        exact hidden_merge classes rooted
          (hcross first hfirst earlier List.mem_cons_self signature h₁ h₂)
      · exact hcross first hfirst added (List.mem_cons_of_mem _ mem)

/-- A member that shares no place gets one, qualified if there is one with its signature. -/
theorem append (classes : session.graph.ClassesStoredIn session.store)
    (ordered : session.Ordered seen kept) (rooted : session.Rooted candidate) :
    session.Ordered (seen ++ [candidate]) (kept ++ [session.ownPlace kept candidate]) := by
  have same : candidate.SameSubject (session.ownPlace kept candidate) := by
    unfold ownPlace
    split
    · exact sameSubject_qualify session candidate
    · exact ⟨rfl, rfl, rfl, rfl, rfl⟩
  have rooted_own : session.Rooted (session.ownPlace kept candidate) := by
    unfold ownPlace
    split
    · exact rooted_qualify rooted
    · exact rooted
  refine ⟨?_, ?_, ?_⟩
  · intro added mem member
    rcases List.mem_append.mp mem with mem | mem
    · exact ordered.rooted added mem member
    · exact List.mem_singleton.mp mem ▸ rooted_own
  · intro signature
    rw [List.find?_append, List.find?_append, Option.map_or, Option.map_or, ordered.first signature,
      List.find?_singleton, List.find?_singleton, signedAs_congr same]
    split
    · simp [same.root?]
    · rfl
  · refine List.pairwise_append.mpr ⟨ordered.later, List.pairwise_singleton _ _, ?_⟩
    intro holder hholder added mem signature h₁ h₂
    obtain rfl := List.mem_singleton.mp mem
    rw [signedAs_congr same] at h₂
    have hrooted := ordered.rooted holder hholder (Bool.and_eq_true_iff.mp h₁).1
    have clashes : kept.any (session.clash · candidate) = true := by
      obtain ⟨a, ha⟩ := hrooted.standsFor
      obtain ⟨b, hb⟩ := rooted.standsFor
      refine List.any_eq_true.mpr ⟨holder, hholder, (clash_iff ha hb).mpr ?_⟩
      rw [(signedAs_iff ha).mp h₁, (signedAs_iff hb).mp h₂]
    rw [ownPlace, clashes, Bool.true_and]
    exact hidden_of_qualified classes rooted

/-- The step: adding a candidate keeps the order. -/
theorem addCandidate {state : KnownTypes × List Candidate}
    (classes : session.graph.ClassesStoredIn session.store)
    (ordered : session.Ordered seen state.2)
    (rooted : candidate.isMember = true → session.Rooted candidate) :
    session.Ordered (seen ++ [candidate]) (session.addCandidate state candidate).2 := by
  rcases session.addCandidate_cases state candidate with
    ⟨member, added⟩ | ⟨other, rest, added, kinds⟩
  · rw [added]
    rcases session.addMember_cases state.2 candidate with
      ⟨before, earlier, after, split, displaced, result⟩ | ⟨-, result⟩
    · rw [result]
      exact merge classes (split ▸ ordered) (rooted member) displaced
    · rw [result]
      exact append classes ordered (rooted member)
  · rw [added]
    exact skip ordered other kinds

/-- The run: the order of the candidates that stay. -/
theorem foldl {state : KnownTypes × List Candidate} (candidates : List Candidate)
    (classes : session.graph.ClassesStoredIn session.store)
    (ordered : session.Ordered seen state.2)
    (rooted : ∀ candidate ∈ candidates, candidate.isMember = true → session.Rooted candidate) :
    session.Ordered (seen ++ candidates) (candidates.foldl session.addCandidate state).2 := by
  induction candidates generalizing seen state with
  | nil => simpa using ordered
  | cons candidate candidates ih =>
    rw [List.append_cons, List.foldl_cons]
    exact ih (ordered.addCandidate classes (rooted candidate List.mem_cons_self))
      fun other mem => rooted other (List.mem_cons_of_mem _ mem)

end Ordered

/-! ## At a bare name -/

theorem rooted_of_walked (site : session.request.site = .name) :
    ∀ candidate ∈ session.walked, candidate.isMember = true → session.Rooted candidate := by
  intro candidate mem member
  simp only [walked, walk, site, Event.items_append, List.mem_append] at mem
  rcases mem with mem | mem
  · cases walkScopes_found (fun _ inside => inside) candidate mem with
    | binding kind => simp [Candidate.isMember, kind] at member
    | member rooted => exact rooted
    | type stored => simp [Candidate.isMember, stored.kind] at member
  · simp [Candidate.isMember, kind_of_mem_keywords mem] at member

/-- But for allocations, the candidates of the walk that stay come first, then types and packages of
the class path. -/
theorem exists_offered (session : Session) (notNothing : session.request.site ≠ .nothing)
    (notAllocation : session.request.site ≠ .allocation) :
    ∃ found, session.offered = session.kept ++ found ∧
      ∀ candidate ∈ found, candidate.kind = .type ∨ candidate.kind = .package := by
  simp only [offered, if_neg notNothing, items_reached notAllocation, List.append_assoc]
  refine ⟨_, rfl, fun candidate mem => ?_⟩
  rw [List.mem_append, List.mem_ite_nil_right, List.mem_ite_nil_right] at mem
  rcases mem with ⟨-, mem⟩ | ⟨-, mem⟩
  · exact .inl (kind_of_mem_searchTypes notAllocation mem)
  · exact .inr (kind_of_mem_searchPackages mem)

/-- Of the candidates that are delivered, only those of the walk are members. -/
theorem offered_name (site : session.request.site = .name) :
    ∃ found, session.offered = session.kept ++ found ∧
      ∀ candidate ∈ found, candidate.isMember = false := by
  obtain ⟨found, offered, kinds⟩ := session.exists_offered (by simp [site]) (by simp [site])
  refine ⟨found, offered, fun candidate mem => ?_⟩
  rcases kinds candidate mem with kind | kind
  · simp [Candidate.isMember, kind]
  · simp [Candidate.isMember, kind]

section Name

variable (classes : session.graph.ClassesStoredIn session.store)
  (site : session.request.site = .name)

include classes site

/-- The candidates of the walk that stay are those of the fold, rewritten; the fold is in order. -/
theorem exists_ordered : ∃ gathered change, session.Ordered session.walked gathered ∧
    Rewrites change ∧ session.kept = gathered.map change := by
  have start : session.Ordered [] (({}, []) : KnownTypes × List Candidate).2 :=
    ⟨by simp, by simp, .nil⟩
  obtain ⟨change, rewrites, result⟩ := session.exists_rewrites session.walked
  exact ⟨_, change, Ordered.foldl session.walked classes start (rooted_of_walked site), rewrites,
    result⟩

/-- At a bare name, of two members with one signature the later is qualified. -/
theorem later_qualified : session.offered.Pairwise fun first second => ∀ signature,
    session.signedAs signature first = true → session.signedAs signature second = true →
      second.qualifier.isSome := by
  obtain ⟨gathered, change, ordered, rewrites, kept⟩ := exists_ordered classes site
  obtain ⟨found, offered, others⟩ := offered_name site
  have unsigned : ∀ candidate ∈ found, ∀ signature,
      session.signedAs signature candidate ≠ true := by
    intro candidate mem signature signed
    exact absurd ((Bool.and_eq_true_iff.mp signed).1.symm.trans (others candidate mem)) (by decide)
  rw [offered, kept, List.pairwise_append, List.pairwise_map]
  refine ⟨ordered.later.imp fun {first second} later signature h₁ h₂ => ?_, ?_, ?_⟩
  · rw [signedAs_congr (rewrites.same _)] at h₁ h₂
    exact (rewrites.hidden second (later signature h₁ h₂)).2
  · refine List.pairwise_of_forall_mem_list fun _ _ candidate mem signature _ signed => ?_
    exact absurd signed (unsigned candidate mem signature)
  · intro _ _ candidate mem signature _ signed
    exact absurd signed (unsigned candidate mem signature)

/-- The first candidate with a signature that stays has the root of the first one that the walk
found. -/
theorem first_root (signature : Signature) :
    (session.offered.find? (session.signedAs signature)).map Candidate.root? =
      (session.walked.find? (session.signedAs signature)).map Candidate.root? := by
  obtain ⟨gathered, change, ordered, rewrites, kept⟩ := exists_ordered classes site
  obtain ⟨found, offered, others⟩ := offered_name site
  have unsigned : found.find? (session.signedAs signature) = none :=
    List.find?_eq_none.mpr fun candidate mem => by simp [signedAs, others candidate mem]
  have signed : session.signedAs signature ∘ change = session.signedAs signature :=
    funext fun candidate => signedAs_congr (rewrites.same candidate) signature
  have roots : Candidate.root? ∘ change = Candidate.root? :=
    funext fun candidate => (rewrites.same candidate).root?
  rw [offered, kept, List.find?_append, unsigned, Option.or_none, List.find?_map, signed,
    Option.map_map, roots, ordered.first]

/-- Every member that is offered was found through a root. -/
theorem member_offered (mem : candidate ∈ session.offered) (member : candidate.isMember = true) :
    (∃ declaration, candidate.StandsFor session.store declaration) ∧
      ∃ root, candidate.root? = some root ∧ session.Opens root := by
  obtain ⟨gathered, change, ordered, rewrites, kept⟩ := exists_ordered classes site
  obtain ⟨found, offered, others⟩ := offered_name site
  rw [offered, kept] at mem
  rcases List.mem_append.mp mem with mem | mem
  · obtain ⟨original, horiginal, rfl⟩ := List.mem_map.mp mem
    have same := rewrites.same original
    have rooted := ordered.rooted original horiginal (same.isMember.symm.trans member)
    obtain ⟨declaration, standsFor⟩ := rooted.standsFor
    obtain ⟨root, hroot, opens⟩ := rooted.opened
    exact ⟨⟨declaration, standsFor.congr same⟩, root, same.root?.trans hroot, opens⟩
  · exact absurd (member.symm.trans (others candidate mem)) (by decide)

end Name

/-- An unqualified candidate is the first with its signature, if all later ones are qualified. -/
theorem find?_of_unqualified {candidates : List Candidate} {signature : Signature}
    (later : candidates.Pairwise fun first second => ∀ signature,
      session.signedAs signature first = true → session.signedAs signature second = true →
        second.qualifier.isSome)
    (mem : candidate ∈ candidates) (signed : session.signedAs signature candidate = true)
    (bare : candidate.qualifier = none) :
    candidates.find? (session.signedAs signature) = some candidate := by
  obtain ⟨before, after, rfl⟩ := List.append_of_mem mem
  have earlier : before.find? (session.signedAs signature) = none := by
    refine List.find?_eq_none.mpr fun first hfirst signedFirst => ?_
    have qualified := (List.pairwise_append.mp later).2.2 first hfirst candidate
      List.mem_cons_self signature signedFirst signed
    simp [bare] at qualified
  rw [List.find?_append, earlier, Option.none_or, List.find?_cons_of_pos signed]

/-- At a bare name, of the members with one signature at most one is proposed without a qualifier,
and that one was found through the root of the first that the walk came to. -/
theorem bare_member_name_means_one_member {ignores : ProposalKind → Bool} {signal : Signal}
    (classes : session.graph.ClassesStoredIn session.store)
    (site : session.request.site = .name)
    (completed : (session.run ignores signal).outcome = .completed) :
    (session.run ignores signal).proposals = (session.shown ignores).map session.proposal ∧
    (session.shown ignores).Pairwise (fun first second => ∀ a b,
      first.StandsFor session.store a → second.StandsFor session.store b →
      a.signature = b.signature → (session.proposal second).isQualified = true) ∧
    ∀ candidate ∈ session.shown ignores, candidate.isMember = true →
      ∃ declaration root, candidate.StandsFor session.store declaration ∧
        candidate.root? = some root ∧ session.Opens root ∧
        ((session.proposal candidate).isQualified = false →
          (session.walked.find? (session.signedAs declaration.signature)).bind Candidate.root? =
            some root) := by
  have later := later_qualified classes site
  refine ⟨proposals_run completed, (later.filter _).imp ?_, ?_⟩
  · intro first second qualified a b ha hb same
    exact qualified a.signature ((signedAs_iff ha).mpr rfl) ((signedAs_iff hb).mpr same.symm)
  · intro candidate mem member
    have offered : candidate ∈ session.offered := (List.mem_filter.mp mem).1
    obtain ⟨⟨declaration, standsFor⟩, root, hroot, opens⟩ :=
      member_offered classes site offered member
    refine ⟨declaration, root, standsFor, hroot, opens, fun bare => ?_⟩
    have unqualified : candidate.qualifier = none := by
      simpa [Proposal.isQualified, proposal, Proposal.ofCandidate] using bare
    have first := first_root classes site declaration.signature
    rw [find?_of_unqualified later offered ((signedAs_iff standsFor).mpr rfl) unqualified,
      Option.map_some, hroot] at first
    cases found : session.walked.find? (session.signedAs declaration.signature) with
    | none => simp [found] at first
    | some walked => simpa [found] using first.symm

/-! ## A class inside another one -/

/-- A class with a method. -/
def outerPainter : ClassId := CoreLibrary.store.size

/-- A class inside it, with a method of the same signature. -/
def innerPainter : ClassId := outerPainter + 1

/-- The core library with both classes. -/
def withPainters : Store :=
  let outer := { ClassDef.topLevel ⟨["app", "Outer"]⟩ with methods := [{ name := "draw" }] }
  let inner := { ClassDef.topLevel ⟨["Inner"]⟩ with methods := [{ name := "draw" }] }
  ((CoreLibrary.store.add outer).1.addMember outerPainter inner).1

/-- A request for the method inside the inner class. -/
def insidePainters : Session :=
  let graph : ScopeGraph := ⟨#[{ parent := none, kind := .unit ⟨["app"]⟩ {} [outerPainter] },
    { parent := some 0, kind := .class outerPainter },
    { parent := some 1, kind := .class innerPainter }]⟩
  { overCore "dra" .name graph with
    store := withPainters
    request := { Request.ofToken "dra" 0 .name with scope := 2 } }

/-- The scopes around the cursor, and what the two classes inherit from. -/
theorem layout_insidePainters :
    insidePainters.scopes =
        [{ parent := some 1, kind := .class innerPainter },
          { parent := some 0, kind := .class outerPainter },
          { parent := none, kind := .unit ⟨["app"]⟩ {} [outerPainter] }] ∧
      [innerPainter, outerPainter, .object].Nodup ∧
      withPainters.directSupertypes innerPainter = [.object] ∧
      withPainters.directSupertypes outerPainter = [.object] ∧
      withPainters.directSupertypes .object = [] := by
  decide +kernel

/-- Both methods are proposed, that of the outer class behind its class. -/
theorem shown_insidePainters :
    ((insidePainters.shown fun _ => false).map fun candidate =>
      (candidate.root?, (insidePainters.proposal candidate).isQualified)) =
        [(some innerPainter, false), (some outerPainter, true)] := by
  obtain ⟨scopes, differ, inner, outer, object⟩ := layout_insidePainters
  simp only [List.nodup_cons, List.mem_cons, List.not_mem_nil, or_false, not_or] at differ
  have walk : insidePainters.walk =
      insidePainters.walkScopes .expression false [] insidePainters.scopes ++
        insidePainters.keywords := rfl
  have store : insidePainters.store = withPainters := rfl
  have routesInner : withPainters.interfaceRoutes innerPainter innerPainter = [] :=
    Store.interfaceRoutes_eq_nil (by decide +kernel)
  have routesOuter : withPainters.interfaceRoutes outerPainter outerPainter = [] :=
    Store.interfaceRoutes_eq_nil (by decide +kernel)
  have aboveInner : withPainters.supertypes innerPainter = [.object] := by
    simp [Store.supertypes, Store.reachedFrom, inner, object, differ, Ne.symm]
  have aboveOuter : withPainters.supertypes outerPainter = [.object] := by
    simp [Store.supertypes, Store.reachedFrom, outer, object, differ, Ne.symm]
  simp only [shown, offered, known, kept, walked, walk, scopes, walkScopes, kindCandidates,
    classCandidates, members, visits, Store.objectRoute, store, routesInner, routesOuter,
    memberTypes, aboveInner, aboveOuter]
  decide +kernel

/-- Written alone, the name means the method of the inner class. -/
theorem inner_method_is_written_alone :
    insidePainters.graph.ClassesStoredIn insidePainters.store ∧
    ((insidePainters.shown fun _ => false).map fun candidate =>
      (candidate.root?, (insidePainters.proposal candidate).isQualified)) =
        [(some innerPainter, false), (some outerPainter, true)] ∧
    ∀ candidate ∈ insidePainters.shown fun _ => false,
      insidePainters.signedAs { name := "draw", parameters := some [] } candidate = true →
        (insidePainters.proposal candidate).isQualified = false →
          candidate.root? = some innerPainter := by
  have classes : insidePainters.graph.ClassesStoredIn insidePainters.store := by
    intro place scope id found kind
    match place with
    | 0 =>
      cases found
      cases kind
    | 1 | 2 =>
      cases found
      cases kind
      decide +kernel
    | place + 3 => simp [insidePainters, overCore, ScopeGraph.scope?] at found
  obtain ⟨-, -, members⟩ := bare_member_name_means_one_member classes rfl
    (run_outcome_of_silent insidePainters (fun _ => false) (fun _ _ => rfl))
  have nearest : (insidePainters.walked.find? (insidePainters.signedAs
      { name := "draw", parameters := some [] })).bind Candidate.root? = some innerPainter := by
    decide +kernel
  refine ⟨classes, shown_insidePainters, fun candidate mem signed bare => ?_⟩
  obtain ⟨declaration, root, standsFor, found, -, first⟩ :=
    members candidate mem (Bool.and_eq_true_iff.mp signed).1
  rw [found, ← first bare, (signedAs_iff standsFor).mp signed, nearest]

end CodeAssist.Completion.Session
