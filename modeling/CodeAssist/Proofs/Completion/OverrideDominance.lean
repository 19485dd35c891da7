import CodeAssist.Proofs.Completion.BareMembers
import CodeAssist.Proofs.Completion.MembersOnce
/-!
# Overriding through each root

At a bare name members are found through several roots, and for each root the candidates that stay
are to be those that no other one of the root overrides. That is so, with one exception: a member
that was found through another root before is dropped as known, before it is compared with what its
own root has put in the place of its signature. There an overridden member can stay
(`outer_place_keeps_overridden`).

`Dominant` is the invariant: whatever was seen either does not override the place that its root has
for its signature, or another root has a place for it, held by the member itself or by one that
overrides it. A place may change hands, but only to a member that overrides what held it, and
overriding is transitive.
-/

namespace CodeAssist.Completion.Session

variable {session : Session} {seen kept : List Candidate} {candidate other : Candidate}

/-! ## Places of a root -/

/-- What tells the places of members: the signature and the root. -/
def slot (session : Session) (candidate : Candidate) : Option Signature × Option ClassId :=
  (session.store.signature? candidate, candidate.root?)

/-- The slot of a member is decided by the member and by its root. -/
theorem slot_congr (same : candidate.SameSubject other) :
    session.slot other = session.slot candidate := by
  rw [slot, slot, same.signature?, same.root?]

/-- The slots of the members among some candidates. -/
def memberSlots (session : Session) (candidates : List Candidate) :
    List (Option Signature × Option ClassId) :=
  (candidates.filter Candidate.isMember).map session.slot

theorem memberSlots_append_member (member : candidate.isMember = true) :
    session.memberSlots (kept ++ [candidate]) =
      session.memberSlots kept ++ [session.slot candidate] := by
  simp [memberSlots, member]

/-- The place of another root for the same signature is held by the same member or by one that
overrides it. -/
structure HeldElsewhere (session : Session) (kept : List Candidate) (candidate : Candidate) :
    Prop where
  exists_holder : ∃ holder ∈ kept, holder.isMember = true ∧
    session.store.signature? holder = session.store.signature? candidate ∧
    holder.root? ≠ candidate.root? ∧
    (holder.symbol = candidate.symbol ∨ session.overrides holder candidate = true)

/-- The root of a candidate has a place for its signature, which the candidate does not override. -/
structure Yields (session : Session) (kept : List Candidate) (candidate : Candidate) : Prop where
  exists_place : ∃ place ∈ kept, place.isMember = true ∧
    session.slot place = session.slot candidate ∧ session.overrides candidate place = false

/-- What is known of the members that stay: each was found, a root has one place for a signature,
and what was seen yields to the place unless it is held elsewhere. -/
structure Dominant (session : Session) (seen kept : List Candidate) : Prop where
  found : ∀ candidate ∈ kept, candidate.isMember = true →
    ∃ earlier ∈ seen, earlier.SameSubject candidate
  once : (session.memberSlots kept).Nodup
  weaker : ∀ candidate ∈ seen, candidate.isMember = true →
    session.Yields kept candidate ∨ session.HeldElsewhere kept candidate

/-- A place that is held stays held. -/
theorem HeldElsewhere.mono {more : List Candidate} (held : session.HeldElsewhere kept candidate) :
    session.HeldElsewhere (kept ++ more) candidate := by
  obtain ⟨holder, mem, rest⟩ := held
  exact ⟨holder, List.mem_append_left _ mem, rest⟩

/-- So a candidate that yields goes on yielding. -/
theorem Yields.mono {more : List Candidate} (yields : session.Yields kept candidate) :
    session.Yields (kept ++ more) candidate := by
  obtain ⟨place, mem, rest⟩ := yields
  exact ⟨place, List.mem_append_left _ mem, rest⟩

/-! ## A place that changes hands -/

section Replaced

variable {before after : List Candidate} {place taker : Candidate}

/-- What stays when one candidate is replaced is the new one or was there. -/
theorem mem_replaced (taker : Candidate) (mem : other ∈ before ++ place :: after) :
    other = place ∨ other ∈ before ++ taker :: after := by
  simp only [List.mem_append, List.mem_cons] at mem ⊢
  tauto

variable (rooted : session.store.RootedAtObject) (member : place.isMember = true)
  (same : taker.isMember = true ∧ session.slot taker = session.slot place)
  (above : session.overrides taker place = true)

include member same in
/-- A place that changes hands keeps its slot. -/
theorem memberSlots_replaced :
    session.memberSlots (before ++ taker :: after) =
      session.memberSlots (before ++ place :: after) := by
  simp [memberSlots, member, same.1, same.2]

include rooted same above

/-- What yielded to the old holder yields to the new one, which is stronger. -/
theorem Yields.replaced (yields : session.Yields (before ++ place :: after) candidate) :
    session.Yields (before ++ taker :: after) candidate := by
  obtain ⟨holder, mem, isMember, slots, weaker⟩ := yields
  rcases mem_replaced taker mem with rfl | mem
  · refine ⟨taker, by simp, same.1, same.2.trans slots, Bool.eq_false_iff.mpr fun beaten => ?_⟩
    have both := overrides_trans_of_rooted rooted beaten above
    exact absurd (both.symm.trans weaker) (by decide)
  · exact ⟨holder, mem, isMember, slots, weaker⟩

/-- What is held elsewhere stays so: the new holder overrides what the old one stood for. -/
theorem HeldElsewhere.replaced {a b : Signature} (hplace : session.SignedBy place a)
    (hcandidate : session.SignedBy candidate b)
    (held : session.HeldElsewhere (before ++ place :: after) candidate) :
    session.HeldElsewhere (before ++ taker :: after) candidate := by
  obtain ⟨holder, mem, isMember, signatures, roots, stands⟩ := held
  rcases mem_replaced taker mem with rfl | mem
  · have signature := (congrArg Prod.fst same.2).trans signatures
    have shared : taker.root? = holder.root? := congrArg Prod.snd same.2
    have root : taker.root? ≠ candidate.root? := shared ▸ roots
    refine ⟨taker, by simp, same.1, signature, root, .inr ?_⟩
    rcases stands with symbol | beats
    · have declaring : candidate.declaring = holder.declaring := by
        rw [hplace.declaring, hcandidate.declaring, symbol]
      rwa [overrides, declaring, ← overrides]
    · exact overrides_trans_of_rooted rooted above beats
  · exact ⟨holder, mem, isMember, signatures, roots, stands⟩

end Replaced

namespace Dominant

/-- A candidate that is no member changes nothing for members. -/
theorem skip {rest : List Candidate} (dominant : session.Dominant seen kept)
    (nonmember : candidate.isMember = false)
    (others : ∀ added ∈ rest, added.kind = candidate.kind) :
    session.Dominant (seen ++ [candidate]) (kept ++ rest) := by
  have rest_other : ∀ added ∈ rest, added.isMember = false := by
    intro added mem
    rwa [Candidate.isMember, others added mem, ← Candidate.isMember]
  have no_members : rest.filter Candidate.isMember = [] :=
    List.filter_eq_nil_iff.mpr fun added mem => by simp [rest_other added mem]
  refine ⟨fun added mem member => ?_, ?_, fun seenOne mem member => ?_⟩
  · rcases List.mem_append.mp mem with mem | mem
    · obtain ⟨earlier, hearlier, same⟩ := dominant.found added mem member
      exact ⟨earlier, List.mem_append_left _ hearlier, same⟩
    · exact absurd (member.symm.trans (rest_other added mem)) (by decide)
  · simpa [memberSlots, no_members] using dominant.once
  · rcases List.mem_append.mp mem with mem | mem
    · exact (dominant.weaker seenOne mem member).imp Yields.mono HeldElsewhere.mono
    · rw [List.mem_singleton.mp mem, nonmember] at member
      exact absurd member (by decide)

section Member

variable {signature : Signature} (hcandidate : session.SignedBy candidate signature)

include hcandidate

/-- A member that shares a place and does not override it changes nothing. If it shares the place
for being the same member, it is held elsewhere. -/
theorem keep {place : Candidate} (dominant : session.Dominant seen kept) (mem : place ∈ kept)
    (hplace : session.SignedBy place signature)
    (displaced : session.displaces place candidate = true)
    (weaker : session.overrides candidate place = false) :
    session.Dominant (seen ++ [candidate]) kept := by
  have signatures : session.store.signature? place = session.store.signature? candidate :=
    hplace.signed.trans hcandidate.signed.symm
  refine ⟨fun added mem member => ?_, dominant.once, fun seenOne mem' member => ?_⟩
  · obtain ⟨earlier, hearlier, same⟩ := dominant.found added mem member
    exact ⟨earlier, List.mem_append_left _ hearlier, same⟩
  · rcases List.mem_append.mp mem' with mem' | mem'
    · exact dominant.weaker seenOne mem' member
    · obtain rfl := List.mem_singleton.mp mem'
      by_cases root : place.root? = seenOne.root?
      · exact .inl ⟨place, mem, hplace.isMember, by rw [slot, slot, signatures, root], weaker⟩
      · have symbol := ((hplace.displaces_iff hcandidate).mp displaced).2.resolve_right root
        exact .inr ⟨place, mem, hplace.isMember, signatures, root, .inl symbol⟩

/-- A member that overrides the place it shares takes it over, and no root changes. -/
theorem replace (rooted : session.store.RootedAtObject) {before after : List Candidate}
    {place taker : Candidate} (dominant : session.Dominant seen (before ++ place :: after))
    (signed : ∀ member ∈ seen, member.isMember = true →
      ∃ signature, session.SignedBy member signature)
    (hplace : session.SignedBy place signature)
    (displaced : session.displaces place candidate = true)
    (stronger : session.overrides candidate place = true) (subject : candidate.SameSubject taker) :
    session.Dominant (seen ++ [candidate]) (before ++ taker :: after) := by
  have htaker := hcandidate.congr subject
  have root : place.root? = candidate.root? := by
    refine ((hplace.displaces_iff hcandidate).mp displaced).2.resolve_left fun symbol => ?_
    have declaring : candidate.declaring = place.declaring := by
      rw [hcandidate.declaring, hplace.declaring, symbol]
    exact absurd (stronger.symm.trans (overrides_of_declaring declaring)) (by decide)
  have same : taker.isMember = true ∧ session.slot taker = session.slot place := by
    refine ⟨htaker.isMember, ?_⟩
    rw [slot, slot, htaker.signed, hplace.signed, subject.root?, root]
  have above : session.overrides taker place = true := by
    rwa [overrides, subject.declaring, ← overrides]
  refine ⟨fun added mem member => ?_, ?_, fun seenOne mem member => ?_⟩
  · rcases mem_replaced place mem with rfl | mem
    · exact ⟨candidate, by simp, subject⟩
    · obtain ⟨earlier, hearlier, same⟩ := dominant.found added mem member
      exact ⟨earlier, List.mem_append_left _ hearlier, same⟩
  · rw [memberSlots_replaced hplace.isMember same]
    exact dominant.once
  · rcases List.mem_append.mp mem with mem | mem
    · obtain ⟨_, hseen⟩ := signed seenOne mem member
      exact (dominant.weaker seenOne mem member).imp (Yields.replaced rooted same above)
        (HeldElsewhere.replaced rooted same above hplace hseen)
    · obtain rfl := List.mem_singleton.mp mem
      exact .inl ⟨taker, by simp, same.1, slot_congr subject,
        overrides_of_declaring subject.declaring.symm⟩

/-- A member that shares no place gets one. -/
theorem append {own : Candidate} (dominant : session.Dominant seen kept)
    (signed : ∀ member ∈ seen, member.isMember = true →
      ∃ signature, session.SignedBy member signature)
    (alone : ∀ earlier ∈ kept, session.displaces earlier candidate = false)
    (subject : candidate.SameSubject own) :
    session.Dominant (seen ++ [candidate]) (kept ++ [own]) := by
  have hown := hcandidate.congr subject
  refine ⟨fun added mem member => ?_, ?_, fun seenOne mem member => ?_⟩
  · rcases List.mem_append.mp mem with mem | mem
    · obtain ⟨earlier, hearlier, same⟩ := dominant.found added mem member
      exact ⟨earlier, List.mem_append_left _ hearlier, same⟩
    · exact ⟨candidate, by simp, List.mem_singleton.mp mem ▸ subject⟩
  · have fresh : session.slot own ∉ session.memberSlots kept := by
      intro taken
      obtain ⟨holder, mem, slots⟩ := List.mem_map.mp taken
      obtain ⟨mem, member⟩ := List.mem_filter.mp mem
      obtain ⟨earlier, hearlier, same⟩ := dominant.found holder mem member
      obtain ⟨b, hb⟩ := signed earlier hearlier (same.isMember.symm.trans member)
      have hholder := hb.congr same
      rw [slot_congr subject, slot, slot, Prod.mk.injEq, hholder.signed, hcandidate.signed,
        Option.some.injEq] at slots
      have displaced := (hholder.displaces_iff hcandidate).mpr ⟨slots.1, .inr slots.2⟩
      exact absurd (displaced.symm.trans (alone holder mem)) (by decide)
    rw [memberSlots_append_member hown.isMember]
    exact List.nodup_append.mpr ⟨dominant.once, by simp, by
      rintro taken mem added only rfl
      exact fresh (List.mem_singleton.mp only ▸ mem)⟩
  · rcases List.mem_append.mp mem with mem | mem
    · exact (dominant.weaker seenOne mem member).imp Yields.mono HeldElsewhere.mono
    · obtain rfl := List.mem_singleton.mp mem
      exact .inl ⟨own, by simp, hown.isMember, slot_congr subject,
        overrides_of_declaring subject.declaring.symm⟩

end Member

/-- The step: adding a candidate keeps every root's places dominant. -/
theorem addCandidate (rooted : session.store.RootedAtObject)
    {state : KnownTypes × List Candidate} (dominant : session.Dominant seen state.2)
    (signed : ∀ member ∈ seen ++ [candidate], member.isMember = true →
      ∃ signature, session.SignedBy member signature) :
    session.Dominant (seen ++ [candidate]) (session.addCandidate state candidate).2 := by
  have signedSeen : ∀ member ∈ seen, member.isMember = true →
      ∃ signature, session.SignedBy member signature :=
    fun member mem => signed member (List.mem_append_left _ mem)
  rcases session.addCandidate_cases state candidate with
    ⟨member, added⟩ | ⟨nonmember, rest, added, kinds⟩
  swap
  · rw [added]
    exact dominant.skip nonmember kinds
  obtain ⟨signature, hcandidate⟩ := signed candidate (by simp) member
  rw [added]
  rcases session.addMember_cases state.2 candidate with
    ⟨before, place, after, split, displaced, result⟩ | ⟨alone, result⟩
  swap
  · rw [result]
    refine append hcandidate dominant signedSeen alone ?_
    unfold ownPlace
    split
    · exact sameSubject_qualify session candidate
    · exact .refl candidate
  rw [split] at dominant
  have held : place ∈ before ++ place :: after := by simp
  obtain ⟨earlier, hearlier, same⟩ := dominant.found place held (by
    rw [Candidate.isMember, (kind_merge displaced).1]
    exact member)
  obtain ⟨shared, hshared⟩ := signedSeen earlier hearlier (by
    rw [← same.isMember, Candidate.isMember, (kind_merge displaced).1]
    exact member)
  have hplace := hshared.congr same
  obtain ⟨rfl, -⟩ := (hplace.displaces_iff hcandidate).mp displaced
  rw [result]
  unfold merge
  by_cases stronger : session.overrides candidate place = true
  · rw [if_pos stronger]
    refine replace hcandidate rooted dominant signedSeen hplace displaced stronger ?_
    split
    · exact sameSubject_qualify session candidate
    · exact .refl candidate
  · rw [if_neg stronger]
    exact keep hcandidate dominant held hplace displaced (Bool.eq_false_iff.mpr stronger)

/-- The run: the places of every root are dominant among all candidates. -/
theorem foldl (rooted : session.store.RootedAtObject) (candidates : List Candidate)
    {state : KnownTypes × List Candidate} (dominant : session.Dominant seen state.2)
    (signed : ∀ member ∈ seen ++ candidates, member.isMember = true →
      ∃ signature, session.SignedBy member signature) :
    session.Dominant (seen ++ candidates) (candidates.foldl session.addCandidate state).2 := by
  induction candidates generalizing seen state with
  | nil => simpa using dominant
  | cons candidate candidates ih =>
    rw [List.append_cons] at signed ⊢
    exact ih (dominant.addCandidate rooted fun member mem =>
      signed member (List.mem_append_left _ mem)) signed

/-- What overrides the place that its own root has for its signature is held elsewhere. -/
theorem heldElsewhere (dominant : session.Dominant seen kept) (mem : candidate ∈ kept)
    (member : candidate.isMember = true) (hother : other ∈ seen)
    (otherMember : other.isMember = true)
    (slots : session.slot candidate = session.slot other)
    (above : session.overrides other candidate = true) :
    session.HeldElsewhere kept other := by
  refine (dominant.weaker other hother otherMember).resolve_left ?_
  rintro ⟨place, hplace, isMember, same, weaker⟩
  obtain rfl : place = candidate := List.inj_on_of_nodup_map dominant.once
    (List.mem_filter.mpr ⟨hplace, isMember⟩) (List.mem_filter.mpr ⟨mem, member⟩)
    (same.trans slots.symm)
  exact absurd (above.symm.trans weaker) (by decide)

end Dominant

/-! ## At a bare name -/

/-- Two members of one kind, name and signature that were found through one root. -/
structure SameGroup (session : Session) (candidate other : Candidate) : Prop where
  root : candidate.root? = other.root?
  kind : candidate.kind = other.kind
  name : candidate.name = other.name
  signature : session.store.signature? candidate = session.store.signature? other

/-- At a bare name, a member that stays is overridden by another that was found through its root
only if that one is held by another root: what stays there is the same member, or one that overrides
it. -/
theorem override_dominates_unless_shared (built : session.store.Built)
    (site : session.request.site = .name) :
    ∀ candidate ∈ session.kept, candidate.isMember = true → ∀ other ∈ session.walked,
      session.SameGroup candidate other → ∀ sub sup, other.declaring = some sub →
      candidate.declaring = some sup → session.store.ProperSubclass sub sup →
      ∃ holder ∈ session.kept, holder.root? ≠ candidate.root? ∧
        session.store.signature? holder = session.store.signature? candidate ∧
        (holder.symbol = other.symbol ∨ ∃ lower, holder.declaring = some lower ∧
          session.store.ProperSubclass lower sub) := by
  intro candidate mem member other hother group sub sup hsub hsup proper
  have signed : ∀ member ∈ session.walked, member.isMember = true →
      ∃ signature, session.SignedBy member signature := by
    intro member mem isMember
    obtain ⟨declaration, standsFor⟩ := (rooted_of_walked site member mem isMember).standsFor
    exact ⟨declaration.signature, signedBy_of_standsFor standsFor⟩
  have start : session.Dominant [] (({}, []) : KnownTypes × List Candidate).2 :=
    ⟨by simp, by simp [memberSlots], by simp⟩
  have dominant := start.foldl built.rootedAtObject session.walked (by simpa using signed)
  rw [List.nil_append] at dominant
  obtain ⟨change, rewrites, result⟩ := session.exists_rewrites session.walked
  rw [kept, result] at mem ⊢
  obtain ⟨original, horiginal, rfl⟩ := List.mem_map.mp mem
  have same := rewrites.same original
  have otherMember : other.isMember = true := by
    rw [Candidate.isMember, ← group.kind]
    exact member
  have above : session.overrides other original = true :=
    overrides_iff_exists.mpr ⟨sub, sup, hsub, same.declaring.symm.trans hsup, proper⟩
  have slots : session.slot original = session.slot other := by
    rw [← slot_congr same, slot, slot, group.signature, group.root]
  obtain ⟨holder, hholder, -, signatures, roots, stands⟩ := dominant.heldElsewhere horiginal
    (same.isMember.symm.trans member) hother otherMember slots above
  have changed := rewrites.same holder
  refine ⟨change holder, List.mem_map_of_mem hholder, ?_, ?_, ?_⟩
  · rwa [changed.root?, group.root]
  · rw [changed.signature?, signatures, group.signature]
  · rw [changed.symbol, changed.declaring]
    refine stands.imp_right fun beats => ?_
    obtain ⟨lower, middle, hlower, hmiddle, below⟩ := overrides_iff_exists.mp beats
    obtain rfl := Option.some.inj (hmiddle.symm.trans hsub)
    exact ⟨lower, hlower, below⟩

/-! ## A place that another root keeps -/

/-- An interface with a method that an interface below it declares again. -/
def baseInterface : ClassId := CoreLibrary.store.size

def derivedInterface : ClassId := baseInterface + 1

/-- A class that names both interfaces, the upper one first. -/
def outerClass : ClassId := baseInterface + 2

/-- A class inside the other one that names the lower interface. -/
def innerClass : ClassId := baseInterface + 3

/-- The core library with the two interfaces and the two classes. -/
def sharedInterfaces : Store :=
  let draw : Method := { name := "draw", modifiers := .public ||| .abstract }
  let base := { ClassDef.topLevel ⟨["app", "Base"]⟩ .interface with methods := [draw] }
  let derived := { ClassDef.topLevel ⟨["app", "Derived"]⟩ .interface with
    interfaces := [.plain baseInterface], methods := [draw] }
  let outer := { ClassDef.topLevel ⟨["app", "Outer"]⟩ with
    interfaces := [.plain baseInterface, .plain derivedInterface] }
  let inner := { ClassDef.topLevel ⟨["Inner"]⟩ with interfaces := [.plain derivedInterface] }
  ((((CoreLibrary.store.add base).1.add derived).1.add outer).1.addMember outerClass inner).1

/-- A request for the method inside the inner class. -/
def insideInner : Session :=
  let graph : ScopeGraph := ⟨#[{ parent := none, kind := .unit ⟨["app"]⟩ {} [outerClass] },
    { parent := some 0, kind := .class outerClass },
    { parent := some 1, kind := .class innerClass }]⟩
  { overCore "dra" .name graph with
    store := sharedInterfaces
    request := { Request.ofToken "dra" 0 .name with scope := 2 } }

theorem built_insideInner : insideInner.store.Built :=
  (((Store.Built.core.add _).add _).add _).addMember _ _

/-- The classes have different places, and this is what they name. -/
theorem layout_sharedInterfaces :
    [innerClass, outerClass, derivedInterface, baseInterface, .object].Nodup ∧
      (sharedInterfaces.directSupertypes innerClass = [.object, derivedInterface] ∧
        sharedInterfaces.directSupertypes outerClass = [.object, baseInterface, derivedInterface] ∧
        sharedInterfaces.directSupertypes derivedInterface = [baseInterface] ∧
        sharedInterfaces.directSupertypes baseInterface = [] ∧
        sharedInterfaces.directSupertypes .object = []) ∧
      (sharedInterfaces.directInterfaces innerClass = [derivedInterface] ∧
        sharedInterfaces.directInterfaces outerClass = [baseInterface, derivedInterface] ∧
        sharedInterfaces.directInterfaces derivedInterface = [baseInterface] ∧
        sharedInterfaces.directInterfaces baseInterface = [] ∧
        sharedInterfaces.directInterfaces .object = []) ∧
      sharedInterfaces.superclassChain innerClass = [innerClass, .object] ∧
      sharedInterfaces.superclassChain outerClass = [outerClass, .object] := by
  decide +kernel

theorem classes_differ :
    (innerClass ≠ outerClass ∧ innerClass ≠ derivedInterface ∧ innerClass ≠ baseInterface ∧
        innerClass ≠ .object) ∧
      (outerClass ≠ derivedInterface ∧ outerClass ≠ baseInterface ∧ outerClass ≠ .object) ∧
      (derivedInterface ≠ baseInterface ∧ derivedInterface ≠ .object) ∧
      baseInterface ≠ .object := by
  simpa using layout_sharedInterfaces.1

/-- From the inner class the lower interface is reached first. -/
theorem interfaceRoutes_innerClass :
    sharedInterfaces.interfaceRoutes innerClass innerClass =
      [(derivedInterface, [innerClass, derivedInterface]),
        (baseInterface, [innerClass, derivedInterface, baseInterface])] := by
  obtain ⟨-, -, interfaces, chain, -⟩ := layout_sharedInterfaces
  have places := classes_differ
  simp [Store.interfaceRoutes, Store.interfacesFrom, chain, interfaces]
  grind

/-- From the outer class the upper one is. -/
theorem interfaceRoutes_outerClass :
    sharedInterfaces.interfaceRoutes outerClass outerClass =
      [(baseInterface, [outerClass, baseInterface]),
        (derivedInterface, [outerClass, derivedInterface])] := by
  obtain ⟨-, -, interfaces, -, chain⟩ := layout_sharedInterfaces
  have places := classes_differ
  simp [Store.interfaceRoutes, Store.interfacesFrom, chain, interfaces]
  grind

theorem supertypes_found :
    sharedInterfaces.supertypes innerClass = [.object, derivedInterface, baseInterface] ∧
      sharedInterfaces.supertypes outerClass = [.object, baseInterface, derivedInterface] ∧
      sharedInterfaces.supertypes derivedInterface = [baseInterface] ∧
      sharedInterfaces.supertypes baseInterface = [] := by
  obtain ⟨-, supertypes, -⟩ := layout_sharedInterfaces
  have places := classes_differ
  simp [Store.supertypes, Store.reachedFrom, supertypes]
  grind

theorem properSubclass_derivedInterface :
    sharedInterfaces.ProperSubclass derivedInterface baseInterface := by
  have places := classes_differ
  simp [Store.ProperSubclass, Store.isSubclass, supertypes_found]
  grind

/-- The method as it is found in one of the interfaces. -/
def drawOf (owner : ClassId) (route : List ClassId) : Candidate :=
  { kind := .method, symbol := .method ⟨owner, 0⟩, name := "draw"
    nameMatch := { kind := .leading, caseExact := true }, declaring := some owner, type := .void
    modifiers := .public ||| .abstract, origin := .interface, chain := route }

def lowerOfInner : Candidate := drawOf derivedInterface [innerClass, derivedInterface]

def upperOfInner : Candidate := drawOf baseInterface [innerClass, derivedInterface, baseInterface]

def upperOfOuter : Candidate := drawOf baseInterface [outerClass, baseInterface]

def lowerOfOuter : Candidate := drawOf derivedInterface [outerClass, derivedInterface]

/-- The method is found in both interfaces through each class, in different orders. -/
theorem classCandidates_insideInner :
    Event.items (insideInner.classCandidates .expression false innerClass) =
        [lowerOfInner, upperOfInner] ∧
      Event.items (insideInner.classCandidates .expression false outerClass) =
        [upperOfOuter, lowerOfOuter] := by
  have inner : insideInner.store.interfaceRoutes innerClass innerClass = _ :=
    interfaceRoutes_innerClass
  have outer : insideInner.store.interfaceRoutes outerClass outerClass = _ :=
    interfaceRoutes_outerClass
  have supertypesInner : insideInner.store.supertypes innerClass = _ := supertypes_found.1
  have supertypesOuter : insideInner.store.supertypes outerClass = _ := supertypes_found.2.1
  simp only [classCandidates, members, visits, Store.objectRoute, inner, outer, memberTypes,
    supertypesInner, supertypesOuter]
  decide +kernel

/-- The scopes around the cursor are the two classes and the file, which adds nothing. -/
theorem frame_insideInner :
    insideInner.scopes =
        [{ parent := some 1, kind := .class innerClass },
          { parent := some 0, kind := .class outerClass },
          { parent := none, kind := .unit ⟨["app"]⟩ {} [outerClass] }] ∧
      Event.items (insideInner.unitCandidates .expression {} [outerClass]) = [] ∧
      (ScopeKind.class innerClass).isStaticBoundary insideInner.store = false ∧
      Event.items insideInner.keywords = [] := by
  decide +kernel

/-- The walk finds the method four times. -/
theorem walked_insideInner :
    insideInner.walked = [lowerOfInner, upperOfInner, upperOfOuter, lowerOfOuter] := by
  obtain ⟨scopes, file, inner, words⟩ := frame_insideInner
  have site : insideInner.request.site = .name := rfl
  simp [walked, walk, site, scopes, walkScopes, kindCandidates, inner, classCandidates_insideInner,
    file, words, firstOfEach]

/-- What stays at the outer class: the upper method, which came first. -/
def keptOfOuter : Candidate := upperOfOuter.qualifiedBy (some "Outer.this")

/-- Each method finds the place that the resolution gives it. -/
theorem places_insideInner :
    insideInner.addMember [] lowerOfInner = [lowerOfInner] ∧
      [lowerOfInner].findIdx? (insideInner.displaces · upperOfInner) = some 0 ∧
      insideInner.addMember [lowerOfInner] upperOfOuter = [lowerOfInner, keptOfOuter] ∧
      insideInner.addMember [lowerOfInner, keptOfOuter] lowerOfOuter =
        [lowerOfInner, keptOfOuter] ∧
      insideInner.store.signature? keptOfOuter = insideInner.store.signature? lowerOfOuter := by
  decide +kernel

/-- At the outer class the lower method is dropped, as it is known from the inner one. -/
theorem kept_insideInner : insideInner.kept = [lowerOfInner, keptOfOuter] := by
  obtain ⟨first, shared, third, fourth, -⟩ := places_insideInner
  have second : insideInner.addMember [lowerOfInner] upperOfInner = [lowerOfInner] := by
    have above : insideInner.store.isSubclass baseInterface derivedInterface = false :=
      properSubclass_derivedInterface.2
    have weaker : insideInner.overrides upperOfInner lowerOfInner = false := by
      simp [overrides, upperOfInner, lowerOfInner, drawOf, above]
    simp [addMember, shared, merge, weaker]
  have methods : lowerOfInner.kind = .method ∧ upperOfInner.kind = .method ∧
      upperOfOuter.kind = .method ∧ lowerOfOuter.kind = .method := by decide
  simp only [kept, walked_insideInner, resolve, List.foldl_cons, List.foldl_nil, addCandidate,
    methods, first, second, third, fourth]
  rfl

theorem sameGroup_keptOfOuter : insideInner.SameGroup keptOfOuter lowerOfOuter :=
  have root : keptOfOuter.root? = some outerClass := rfl
  ⟨root, rfl, rfl, places_insideInner.2.2.2.2⟩

/-- In the inner class, the method of the upper interface stays for the outer class, although that
has the lower interface too. -/
theorem outer_place_keeps_overridden :
    insideInner.store.Built ∧ insideInner.request.site = .name ∧
      ∃ candidate ∈ insideInner.kept, candidate.isMember = true ∧
        ∃ other ∈ insideInner.walked, insideInner.SameGroup candidate other ∧
          ∃ sub sup, other.declaring = some sub ∧ candidate.declaring = some sup ∧
            insideInner.store.ProperSubclass sub sup :=
  ⟨built_insideInner, rfl, keptOfOuter, by simp [kept_insideInner], rfl, lowerOfOuter,
    by simp [walked_insideInner], sameGroup_keptOfOuter, derivedInterface, baseInterface, rfl, rfl,
    properSubclass_derivedInterface⟩

/-- There, the lower method is held by the inner class. -/
theorem outer_place_shared : ∃ holder ∈ insideInner.kept, holder.root? ≠ keptOfOuter.root? ∧
    insideInner.store.signature? holder = insideInner.store.signature? keptOfOuter ∧
    (holder.symbol = lowerOfOuter.symbol ∨ ∃ lower, holder.declaring = some lower ∧
      insideInner.store.ProperSubclass lower derivedInterface) :=
  override_dominates_unless_shared built_insideInner rfl keptOfOuter (by simp [kept_insideInner])
    rfl lowerOfOuter (by simp [walked_insideInner]) sameGroup_keptOfOuter derivedInterface
    baseInterface rfl rfl properSubclass_derivedInterface

end CodeAssist.Completion.Session
