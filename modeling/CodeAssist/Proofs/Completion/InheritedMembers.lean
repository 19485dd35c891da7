import CodeAssist.Proofs.Completion.Delivery
import CodeAssist.Proofs.Completion.Shadowing
import Mathlib.Data.List.Forall2
import Mathlib.Data.List.Nodup
import Mathlib.Tactic.Choose
/-!
# The members behind a dot

Behind the dot of an expression whose type is a class, the members of that class are proposed, of
each signature one: a member that no other one overrides.

All of them are found through one root, so of those with one signature only one has a place, and a
place changes hands only to an overriding member. `Survivors` is the invariant of that: nothing that
was seen overrides what stands in the place of its signature. It survives a change of hands because
overriding is transitive, which needs that the store was built by adding classes.

Among members none of which overrides the other, the theorem does not say which is chosen.
-/

namespace CodeAssist.Completion.Session

open Matching (NameMatch)

variable {session : Session} {root : ClassId} {seen kept : List Candidate}

/-! ## One place for each signature -/

/-- The candidate stands for a member, was found through a root and needs no qualifier. -/
structure FoundThrough (session : Session) (root : ClassId) (candidate : Candidate) : Prop where
  standsFor : ∃ declaration, candidate.StandsFor session.store declaration
  root : candidate.root? = some root
  plain : candidate.mustQualify = false

/-- What is kept of the candidates seen so far: one for each signature, and none that another one
overrides. -/
structure Survivors (session : Session) (seen kept : List Candidate) : Prop where
  found : ∀ candidate ∈ kept, candidate ∈ seen
  once : (kept.map session.store.signature?).Nodup
  complete : ∀ candidate ∈ seen,
    session.store.signature? candidate ∈ kept.map session.store.signature?
  foremost : ∀ candidate ∈ kept, ∀ other ∈ seen,
    session.store.signature? other = session.store.signature? candidate →
      session.overrides other candidate = false

/-- Found through one root, candidates clash if their signatures agree. -/
theorem clash_iff_signature? {first second : Candidate} (hfirst : session.FoundThrough root first)
    (hsecond : session.FoundThrough root second) :
    session.clash first second = true ↔
      session.store.signature? first = session.store.signature? second := by
  obtain ⟨a, ha⟩ := hfirst.standsFor
  obtain ⟨b, hb⟩ := hsecond.standsFor
  rw [clash_iff ha hb, ha.signature?, hb.signature?, Option.some.injEq]

/-- Of candidates found through one root, those with one signature share a place. -/
theorem displaces_iff_signature? {first second : Candidate}
    (hfirst : session.FoundThrough root first) (hsecond : session.FoundThrough root second) :
    session.displaces first second = true ↔
      session.store.signature? first = session.store.signature? second := by
  have same : covers first second = true := by simp [covers, hfirst.root, hsecond.root]
  rw [displaces, same, Bool.and_true, clash_iff_signature? hfirst hsecond]

/-- Found through one root, what overrides an overriding member overrides what that one
overrides. -/
theorem overrides_trans (rooted : session.store.RootedAtObject) {first second third : Candidate}
    (hfirst : session.FoundThrough root first) (hsecond : session.FoundThrough root second)
    (hthird : session.FoundThrough root third) (upper : session.overrides first second = true)
    (lower : session.overrides second third = true) : session.overrides first third = true := by
  obtain ⟨a, ha⟩ := hfirst.standsFor
  obtain ⟨b, hb⟩ := hsecond.standsFor
  obtain ⟨c, hc⟩ := hthird.standsFor
  rw [overrides_iff ha hb] at upper
  rw [overrides_iff hb hc] at lower
  exact (overrides_iff ha hc).mpr (upper.trans rooted lower)

theorem overrides_self {candidate : Candidate} (found : session.FoundThrough root candidate) :
    session.overrides candidate candidate = false := by
  obtain ⟨declaration, standsFor⟩ := found.standsFor
  simp [overrides, standsFor.declaring]

namespace Survivors

variable {candidate : Candidate}

/-- A candidate that does not override what has its signature changes nothing. -/
theorem keep (survivors : session.Survivors seen kept) {earlier : Candidate}
    (mem : earlier ∈ kept)
    (same : session.store.signature? earlier = session.store.signature? candidate)
    (weaker : session.overrides candidate earlier = false) :
    session.Survivors (seen ++ [candidate]) kept where
  found other hother := List.mem_append_left _ (survivors.found other hother)
  once := survivors.once
  complete other hother := by
    rcases List.mem_append.mp hother with hseen | hlast
    · exact survivors.complete other hseen
    · rw [List.mem_singleton.mp hlast, ← same]
      exact List.mem_map_of_mem mem
  foremost holder hholder other hother hsame := by
    rcases List.mem_append.mp hother with hseen | hlast
    · exact survivors.foremost holder hholder other hseen hsame
    · obtain rfl := List.mem_singleton.mp hlast
      have holds : earlier = holder :=
        List.inj_on_of_nodup_map survivors.once mem hholder (same.trans hsame)
      exact holds ▸ weaker

/-- A candidate that overrides what has its signature takes its place. What overrides the new holder
would have overridden the old one. -/
theorem replace (rooted : session.store.RootedAtObject) {before after : List Candidate}
    {earlier : Candidate} (survivors : session.Survivors seen (before ++ earlier :: after))
    (found : ∀ other ∈ seen ++ [candidate], session.FoundThrough root other)
    (same : session.store.signature? earlier = session.store.signature? candidate)
    (stronger : session.overrides candidate earlier = true) :
    session.Survivors (seen ++ [candidate]) (before ++ candidate :: after) where
  found other hother := by
    rcases List.mem_append.mp hother with hbefore | hrest
    · exact List.mem_append_left _ (survivors.found other (List.mem_append_left _ hbefore))
    · rcases List.mem_cons.mp hrest with rfl | hafter
      · exact List.mem_append_right _ (List.mem_singleton_self _)
      · exact List.mem_append_left _ (survivors.found other
          (List.mem_append_right _ (List.mem_cons_of_mem _ hafter)))
  once := by
    have once := survivors.once
    rwa [List.map_append, List.map_cons, same, ← List.map_cons, ← List.map_append] at once
  complete other hother := by
    rw [List.map_append, List.map_cons, ← same, ← List.map_cons, ← List.map_append]
    rcases List.mem_append.mp hother with hseen | hlast
    · exact survivors.complete other hseen
    · rw [List.mem_singleton.mp hlast, ← same]
      exact List.mem_map_of_mem (by simp)
  foremost holder hholder other hother hsame := by
    have foundEarlier : session.FoundThrough root earlier :=
      found earlier (List.mem_append_left _ (survivors.found earlier (by simp)))
    have hholder : holder = candidate ∨ holder ∈ before ++ after := by
      simpa [or_left_comm] using hholder
    rcases hholder with rfl | hrest
    · rcases List.mem_append.mp hother with hseen | hlast
      · cases above : session.overrides other holder with
        | false => rfl
        | true =>
          have : session.overrides other earlier = true :=
            overrides_trans rooted (found other hother) (found holder (by simp)) foundEarlier above
              stronger
          rw [survivors.foremost earlier (by simp) other hseen (hsame.trans same.symm)] at this
          exact absurd this (by decide)
      · rw [List.mem_singleton.mp hlast]
        exact overrides_self (found holder (by simp))
    · have kept : holder ∈ before ++ earlier :: after := by
        rcases List.mem_append.mp hrest with h | h <;> simp [h]
      rcases List.mem_append.mp hother with hseen | hlast
      · exact survivors.foremost holder kept other hseen hsame
      · -- only the old holder had the signature of the candidate
        have once := survivors.once
        rw [List.map_append, List.map_cons, List.nodup_middle, ← List.map_append,
          List.nodup_cons] at once
        have shared : session.store.signature? holder = session.store.signature? earlier := by
          rw [← hsame, List.mem_singleton.mp hlast, same]
        exact absurd (shared ▸ List.mem_map_of_mem hrest) once.1

/-- A candidate with a new signature gets a place. -/
theorem append (survivors : session.Survivors seen kept)
    (found : session.FoundThrough root candidate)
    (fresh : session.store.signature? candidate ∉ kept.map session.store.signature?) :
    session.Survivors (seen ++ [candidate]) (kept ++ [candidate]) where
  found other hother := by
    rcases List.mem_append.mp hother with hkept | hlast
    · exact List.mem_append_left _ (survivors.found other hkept)
    · exact List.mem_append_right _ hlast
  once := by
    rw [List.map_append, List.nodup_append']
    refine ⟨survivors.once, List.nodup_singleton _, ?_⟩
    simpa using fresh
  complete other hother := by
    rw [List.map_append]
    rcases List.mem_append.mp hother with hseen | hlast
    · exact List.mem_append_left _ (survivors.complete other hseen)
    · exact List.mem_append_right _ (List.mem_map_of_mem hlast)
  foremost holder hholder other hother hsame := by
    rcases List.mem_append.mp hholder with hkept | hlast
    · rcases List.mem_append.mp hother with hseen | hlast
      · exact survivors.foremost holder hkept other hseen hsame
      · rw [List.mem_singleton.mp hlast] at hsame
        exact absurd (hsame ▸ List.mem_map_of_mem hkept) fresh
    · obtain rfl := List.mem_singleton.mp hlast
      rcases List.mem_append.mp hother with hseen | hlast
      · exact absurd (hsame ▸ survivors.complete other hseen) fresh
      · rw [List.mem_singleton.mp hlast]
        exact overrides_self found

/-- The step: adding a member keeps one of each signature that no other overrides. -/
theorem addMember (rooted : session.store.RootedAtObject)
    (survivors : session.Survivors seen kept)
    (found : ∀ other ∈ seen ++ [candidate], session.FoundThrough root other) :
    session.Survivors (seen ++ [candidate]) (session.addMember kept candidate) := by
  have foundCandidate := found candidate (by simp)
  have foundKept : ∀ other ∈ kept, session.FoundThrough root other :=
    fun other mem => found other (List.mem_append_left _ (survivors.found other mem))
  rcases session.addMember_cases kept candidate with
    ⟨before, earlier, after, rfl, displaced, result⟩ | ⟨alone, result⟩
  · have mem : earlier ∈ before ++ earlier :: after := by simp
    have same := (displaces_iff_signature? (foundKept earlier mem) foundCandidate).mp displaced
    rw [result, merge, (foundKept earlier mem).plain, Bool.false_and]
    cases above : session.overrides candidate earlier with
    | true => exact survivors.replace rooted found same above
    | false => exact survivors.keep mem same above
  · have fresh : session.store.signature? candidate ∉ kept.map session.store.signature? := by
      intro mem
      obtain ⟨earlier, hearlier, same⟩ := List.mem_map.mp mem
      have displaced :=
        (displaces_iff_signature? (foundKept earlier hearlier) foundCandidate).mpr same
      rw [alone earlier hearlier] at displaced
      exact absurd displaced (by decide)
    have quiet : kept.any (session.clash · candidate) = false := by
      refine List.any_eq_false.mpr fun earlier hearlier clashes => fresh ?_
      rw [← (clash_iff_signature? (foundKept earlier hearlier) foundCandidate).mp clashes]
      exact List.mem_map_of_mem hearlier
    rw [result, ownPlace, quiet, Bool.false_and]
    exact survivors.append foundCandidate fresh

/-- The run: what stays of candidates that were found through one root. -/
theorem foldl (rooted : session.store.RootedAtObject) (candidates : List Candidate)
    (survivors : session.Survivors seen kept)
    (found : ∀ other ∈ seen ++ candidates, session.FoundThrough root other) :
    session.Survivors (seen ++ candidates) (candidates.foldl session.addMember kept) := by
  induction candidates generalizing seen kept with
  | nil => simpa using survivors
  | cons candidate candidates ih =>
    rw [List.append_cons] at found ⊢
    exact ih (survivors.addMember rooted fun other mem => found other (List.mem_append_left _ mem))
      found

end Survivors

/-! ## Behind a dot -/

theorem foldl_addCandidate_of_members {candidates : List Candidate}
    (members : ∀ candidate ∈ candidates, candidate.isMember = true)
    (state : KnownTypes × List Candidate) :
    candidates.foldl session.addCandidate state =
      (state.1, candidates.foldl session.addMember state.2) := by
  induction candidates generalizing state with
  | nil => rfl
  | cons candidate candidates ih =>
    rcases session.addCandidate_cases state candidate with ⟨-, added⟩ | ⟨other, -⟩
    · rw [List.foldl_cons, added, ih fun other mem => members other (List.mem_cons_of_mem _ mem)]
      rfl
    · rw [members candidate List.mem_cons_self] at other
      exact absurd other (by decide)

/-- If there are only members, all that is done to those that stay is to score some of them as
methods of the root class. -/
theorem resolve_members {candidates : List Candidate} (site : session.request.site ≠ .name)
    (members : ∀ candidate ∈ candidates, candidate.isMember = true) :
    (session.resolve candidates).2 =
      (candidates.foldl session.addMember []).map session.attributeRecordMethod := by
  have step : candidates.foldl session.addCandidate ({}, []) =
      ({}, candidates.foldl session.addMember []) :=
    foldl_addCandidate_of_members members ({}, [])
  have locals : (candidates.foldl session.addMember []).filter
      (fun candidate => candidate.kind == .local) = [] := by
    refine List.filter_eq_nil_iff.mpr fun candidate mem isLocal => ?_
    have gathered : candidate ∈ (candidates.foldl session.addCandidate ({}, [])).2 := by rwa [step]
    obtain ⟨original, listed, respells⟩ :=
      (respells_of_mem_foldl gathered).resolve_left List.not_mem_nil
    have kind : candidate.kind = original.kind :=
      congr_of_stripped Candidate.kind (fun _ => rfl) respells.stripped_eq
    have member := members original listed
    simp [Candidate.isMember, ← kind, beq_iff_eq.mp isLocal] at member
  have visible : session.qualifyHiddenFields (candidates.foldl session.addMember []) =
      candidates.foldl session.addMember [] := by
    simp [qualifyHiddenFields, locals]
  simp [resolve, step, visible, site]

/-- Behind a dot, nothing but members is offered. -/
theorem offered_memberAccess {receiver : TypeRef} {name : Option String}
    (site : session.request.site = .memberAccess receiver name) :
    session.offered = session.kept := by
  simp [offered, site, items_reached, searchesTypes, searchesPackages, Site.wantsTypes,
    Site.wantsPackages]

/-- A member that a class has and that may be named at the cursor. -/
structure Admits (session : Session) (id : ClassId) (declaration : Declaration) : Prop where
  stored : declaration.StoredIn session.store
  inherited : session.store.InheritsFrom id declaration.owner
  notPrivate : declaration.modifiers.isPrivate = false ∨ declaration.owner = id
  notStatic : declaration.isInterfaceStatic session.store = false ∨ declaration.owner = id
  named : (session.match? declaration.name).isSome
  admitted :
    session.admitMember declaration.owner declaration.modifiers declaration.access = .ok ()

/-- The proposal is the one for the member, written with its name alone. -/
def Presents (session : Session) (declaration : Declaration) (proposal : Proposal) : Prop :=
  ∃ nameMatch, session.match? declaration.name = some nameMatch ∧
    proposal = session.proposal (session.attributeRecordMethod
      (declaration.candidate session.store nameMatch .declared [declaration.owner]))

theorem attributeRecordMethod_route (candidate : Candidate) (origin : Origin)
    (chain : List ClassId) :
    session.attributeRecordMethod { candidate with origin, chain } =
      { session.attributeRecordMethod candidate with origin, chain } := by
  unfold attributeRecordMethod
  dsimp only
  split
  · split
    · split <;> rfl
    · rfl
  · rfl

/-- How a member was reached does not show in its proposal. -/
theorem presents_candidate {declaration : Declaration} {nameMatch : NameMatch}
    (named : session.match? declaration.name = some nameMatch) (origin : Origin)
    (chain : List ClassId) :
    session.Presents declaration (session.proposal (session.attributeRecordMethod
      (declaration.candidate session.store nameMatch origin chain))) := by
  refine ⟨nameMatch, named, ?_⟩
  have route := session.attributeRecordMethod_route
    (declaration.candidate session.store nameMatch .declared [declaration.owner]) origin chain
  exact (congrArg session.proposal route).trans rfl

/-- The search for the members of a class finds those that it has and that may be named. -/
theorem passes_iff_admits {id : ClassId} {declaration : Declaration} :
    (∃ visit ∈ session.visits id id .declared, ∃ nameMatch,
      session.Passes {} visit declaration nameMatch) ↔ session.Admits id declaration := by
  rw [exists_passes_iff]
  constructor
  · intro finds
    have home := finds.home
    rw [Declaration.staysHome, Bool.or_eq_false_iff] at home
    exact ⟨finds.stored, finds.inherited, home.imp_left And.left, home.imp_left And.right,
      finds.named, finds.admitted⟩
  · intro admits
    refine ⟨admits.stored, admits.inherited, ?_, ?_, ?_, rfl, admits.named, admits.admitted⟩
    · rw [Declaration.staysHome, Bool.or_eq_false_iff, and_or_right]
      exact ⟨admits.notPrivate, admits.notStatic⟩
    · cases declaration <;> simp [MemberSearch.wants]
    · simp [MemberSearch.acceptsName]

section MemberAccess

variable {receiver : TypeRef} {id : ClassId}

/-- Behind a receiver the walk finds the declarations of the classes it visits, as far as they
pass. -/
theorem mem_walked_memberAccess (site : session.request.site = .memberAccess receiver none)
    (erased : receiver.erasure = .plain id) {candidate : Candidate} :
    candidate ∈ session.walked ↔ ∃ visit ∈ session.visits id id .declared,
      ∃ declaration nameMatch, session.Passes {} visit declaration nameMatch ∧
        candidate = declaration.candidate session.store nameMatch visit.origin visit.route := by
  have walk : session.walk = session.members {} id id .declared := by
    simp [Session.walk, site, memberAccess, receiverMembers, receiverClass?, erased, TypeRef.plain]
  rw [walked, walk, mem_items_members]

theorem foundThrough_of_walked (site : session.request.site = .memberAccess receiver none)
    (erased : receiver.erasure = .plain id) :
    ∀ candidate ∈ session.walked, session.FoundThrough id candidate := by
  intro candidate mem
  obtain ⟨visit, visited, declaration, nameMatch, passes, rfl⟩ :=
    (mem_walked_memberAccess site erased).mp mem
  exact ⟨⟨declaration, passes.stored, rfl, rfl, rfl, rfl⟩, head?_route visited, rfl⟩

/-- Behind a dot, what stays is one candidate for each signature, and none that another
overrides. -/
theorem survivors_memberAccess (built : session.store.Built)
    (site : session.request.site = .memberAccess receiver none)
    (erased : receiver.erasure = .plain id) :
    session.Survivors session.walked (session.walked.foldl session.addMember []) := by
  have start : session.Survivors [] [] := ⟨by simp, by simp, by simp, by simp⟩
  exact start.foldl built.rootedAtObject session.walked (foundThrough_of_walked site erased)

theorem proposals_memberAccess {signal : Signal}
    (site : session.request.site = .memberAccess receiver none)
    (erased : receiver.erasure = .plain id)
    (completed : (session.run (fun _ => false) signal).outcome = .completed) :
    (session.run (fun _ => false) signal).proposals =
      (session.walked.foldl session.addMember []).map
        fun candidate => session.proposal (session.attributeRecordMethod candidate) := by
  have members : ∀ candidate ∈ session.walked, candidate.isMember = true := by
    intro candidate mem
    obtain ⟨declaration, standsFor⟩ := (foundThrough_of_walked site erased candidate mem).standsFor
    exact standsFor.isMember
  have kept : session.kept =
      (session.walked.foldl session.addMember []).map session.attributeRecordMethod :=
    resolve_members (by simp [site]) members
  rw [proposals_run completed, shown, offered_memberAccess site, kept]
  simp [Function.comp_def]

/-- Every candidate of the walk stands for a member that the class has. -/
theorem exists_admits_of_walked (site : session.request.site = .memberAccess receiver none)
    (erased : receiver.erasure = .plain id) {candidate : Candidate}
    (mem : candidate ∈ session.walked) :
    ∃ declaration, candidate.StandsFor session.store declaration ∧
      session.Admits id declaration ∧
      session.Presents declaration
        (session.proposal (session.attributeRecordMethod candidate)) := by
  obtain ⟨visit, visited, declaration, nameMatch, passes, rfl⟩ :=
    (mem_walked_memberAccess site erased).mp mem
  exact ⟨declaration, ⟨passes.stored, rfl, rfl, rfl, rfl⟩,
    passes_iff_admits.mp ⟨visit, visited, nameMatch, passes⟩, presents_candidate passes.named _ _⟩

/-- Every member that the class has is among the candidates of the walk. -/
theorem exists_walked_of_admits (site : session.request.site = .memberAccess receiver none)
    (erased : receiver.erasure = .plain id) {declaration : Declaration}
    (admits : session.Admits id declaration) :
    ∃ candidate ∈ session.walked, candidate.StandsFor session.store declaration := by
  obtain ⟨visit, visited, nameMatch, passes⟩ := passes_iff_admits.mpr admits
  exact ⟨_, (mem_walked_memberAccess site erased).mpr
    ⟨visit, visited, declaration, nameMatch, passes, rfl⟩, passes.stored, rfl, rfl, rfl, rfl⟩

/-- The proposals behind the dot of an expression of a class type are, for each signature of a
member that the class has and that may be named, one such member that no other overrides. -/
theorem proposals_are_inherited_members {signal : Signal} (built : session.store.Built)
    (site : session.request.site = .memberAccess receiver none)
    (erased : receiver.erasure = .plain id)
    (completed : (session.run (fun _ => false) signal).outcome = .completed) :
    ∃ chosen : List Declaration,
      List.Forall₂ session.Presents chosen (session.run (fun _ => false) signal).proposals ∧
      (chosen.map Declaration.signature).Nodup ∧
      (∀ declaration, session.Admits id declaration →
        declaration.signature ∈ chosen.map Declaration.signature) ∧
      ∀ declaration ∈ chosen, session.Admits id declaration ∧
        ∀ other, session.Admits id other → other.signature = declaration.signature →
          ¬ session.store.ProperSubclass other.owner declaration.owner := by
  have survivors := survivors_memberAccess built site erased
  rw [proposals_memberAccess site erased completed]
  generalize session.walked.foldl session.addMember [] = kept at survivors
  choose! declared standsFor admits presents using
    fun candidate mem => exists_admits_of_walked site erased (survivors.found candidate mem)
  have signatures : kept.map session.store.signature? =
      ((kept.map declared).map Declaration.signature).map some := by
    rw [List.map_map, List.map_map]
    exact List.map_congr_left fun candidate mem => (standsFor candidate mem).signature?
  refine ⟨kept.map declared, ?_, ?_, ?_, ?_⟩
  · rw [List.forall₂_map_left_iff, List.forall₂_map_right_iff, List.forall₂_same]
    exact presents
  · exact List.Nodup.of_map some (signatures ▸ survivors.once)
  · intro declaration admitted
    obtain ⟨candidate, mem, represents⟩ := exists_walked_of_admits site erased admitted
    have covered := survivors.complete candidate mem
    rw [signatures, represents.signature?] at covered
    simpa using covered
  · intro declaration mem
    obtain ⟨candidate, hkept, rfl⟩ := List.mem_map.mp mem
    refine ⟨admits candidate hkept, fun other admitted same proper => ?_⟩
    obtain ⟨rival, hrival, represents⟩ := exists_walked_of_admits site erased admitted
    have weaker := survivors.foremost candidate hkept rival hrival (by
      rw [represents.signature?, (standsFor candidate hkept).signature?, same])
    rw [(overrides_iff represents (standsFor candidate hkept)).mpr proper] at weaker
    exact absurd weaker (by decide)

/-- Behind a wrapped number, the method of the interface that the wrapper class names is among those
proposed. -/
theorem compareTo_is_inherited_member :
    CoreLibrary.store.Implements (.box .int) .comparable ∧
    ∃ chosen : List Declaration,
      List.Forall₂ (overCore "comp" (.memberAccess (.boxed .int) none)).Presents chosen
        ((overCore "comp" (.memberAccess (.boxed .int) none)).run (fun _ => false)
          (fun _ _ => false)).proposals ∧
      { name := "compareTo", parameters := some [.plain .object] } ∈
        chosen.map Declaration.signature := by
  have names : CoreLibrary.store.Implements (.box .int) .comparable :=
    Store.implements_iff.mpr (by decide +kernel)
  obtain ⟨chosen, presents, -, complete, -⟩ := proposals_are_inherited_members .core rfl rfl
    (run_outcome_of_silent (overCore "comp" (.memberAccess (.boxed .int) none)) (fun _ => false)
      (fun _ _ => rfl))
  refine ⟨names, chosen, presents, complete (.method ⟨.comparable, 0⟩
    { name := "compareTo", parameters := [.variable "T" none], result := .int,
      modifiers := .public ||| .abstract, parameterNames := ["o"] }) ?_⟩
  exact ⟨by decide +kernel, .inr ⟨_, .refl, .single names⟩, .inl rfl, .inl rfl, by decide +kernel,
    by decide +kernel⟩

end MemberAccess

end CodeAssist.Completion.Session
