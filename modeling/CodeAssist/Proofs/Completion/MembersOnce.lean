import CodeAssist.Proofs.Completion.InheritedMembers
/-!
# No member stays twice

Of the members that a walk finds, each stays at most once, by whatever ways it was found. That is
not plain from the step: where a member overrides one that has a place, it takes the place, and it
could have a later place already, from a search through another root.

It has none, because of the order of the walk. A search through a root finds all its members before
another root has its turn, and if a root has its turn again, nothing is found that was not found
before. So when a second root gets a place for a signature, the first one has had its say: `Closed`
says that all that will be found through it has been seen. Only the last place of a signature can
still change hands (`Settled.apart`), and what takes it over was not found before.
-/

namespace CodeAssist

open Completion

/-- The class that declares a member. -/
def Completion.Symbol.owner? : Symbol → Option ClassId
  | .field ref | .method ref => some ref.owner
  | _ => none

/-- The signature of what a symbol denotes. -/
def Store.signatureOf? (store : Store) : Symbol → Option Signature
  | .field ref =>
    (store.field? ref.owner ref.index).map fun field => { name := field.name, parameters := none }
  | .method ref => (store.methodAt? ref).map Method.signature
  | .arrayLength => some { name := "length", parameters := none }
  | .arrayClone _ => some { name := "clone", parameters := some [] }
  | _ => none

namespace Completion.Session

variable {session : Session} {first second third : Candidate}

/-! ## Members -/

/-- The candidate is a member with a signature, of a class or of arrays. What it stands for says all
that is asked of it. -/
structure SignedBy (session : Session) (candidate : Candidate) (signature : Signature) :
    Prop where
  symbol : session.store.signatureOf? candidate.symbol = some signature
  signed : session.store.signature? candidate = some signature
  name : candidate.name = signature.name
  kind : candidate.kind = if signature.parameters.isSome then .method else .field
  declaring : candidate.declaring = candidate.symbol.owner?
  /-- The members of arrays are found through no class. -/
  rootless : candidate.symbol.owner? = none → candidate.root? = none

/-- A candidate that stands for a declaration is signed by it. -/
theorem signedBy_of_standsFor {declaration : Declaration}
    (standsFor : first.StandsFor session.store declaration) :
    session.SignedBy first declaration.signature := by
  have stored := standsFor.stored
  refine ⟨?_, standsFor.signature?, ?_, ?_, ?_, fun unowned => ?_⟩
  · cases declaration with
    | field ref data =>
      have field : session.store.field? ref.owner ref.index = some data := stored
      simp [standsFor.symbol, Store.signatureOf?, field, Declaration.signature]
    | method ref data =>
      have method : session.store.methodAt? ref = some data := stored
      simp [standsFor.symbol, Store.signatureOf?, method, Declaration.signature]
  · rw [standsFor.name]
    cases declaration <;> rfl
  · rw [standsFor.kind]
    cases declaration <;> rfl
  · rw [standsFor.declaring, standsFor.symbol]
    cases declaration <;> rfl
  · rw [standsFor.symbol] at unowned
    cases declaration <;> cases unowned

namespace SignedBy

variable {a b : Signature}

theorem isMember (signed : session.SignedBy first a) : first.isMember = true := by
  rw [Candidate.isMember, signed.kind]
  split <;> rfl

/-- Signatures go with the subject. -/
theorem congr (signed : session.SignedBy first a) (same : first.SameSubject second) :
    session.SignedBy second a :=
  ⟨same.symbol ▸ signed.symbol, (same.signature? _).trans signed.signed,
    same.name.trans signed.name, same.kind.trans signed.kind, by
      rw [same.declaring, same.symbol, signed.declaring], by
      rw [same.symbol, same.root?]
      exact signed.rootless⟩

theorem eq_of_symbol (hfirst : session.SignedBy first a) (hsecond : session.SignedBy second b)
    (same : first.symbol = second.symbol) : a = b := by
  have symbol := hfirst.symbol
  rw [same, hsecond.symbol] at symbol
  exact (Option.some.inj symbol).symm

/-- Members clash if they have one signature. -/
theorem clash_iff (hfirst : session.SignedBy first a) (hsecond : session.SignedBy second b) :
    session.clash first second = true ↔ a = b := by
  have signatures : session.signaturesClash first second = true ↔
      first.kind = .field ∨ a = b := by
    unfold signaturesClash
    split
    next refA refB symbolA symbolB =>
      have method := hfirst.symbol
      have other := hsecond.symbol
      rw [symbolA, Store.signatureOf?, Option.map_eq_some_iff] at method
      rw [symbolB, Store.signatureOf?, Option.map_eq_some_iff] at other
      obtain ⟨dataA, storedA, rfl⟩ := method
      obtain ⟨dataB, storedB, rfl⟩ := other
      have kind : first.kind ≠ .field := by
        rw [hfirst.kind]
        simp [Method.signature]
      simp only [storedA, storedB, Method.isSubsignature, Bool.or_eq_true, beq_iff_eq, kind,
        false_or, eq_comm (a := dataB.signature), or_self]
    next => simp [hfirst.signed, hsecond.signed]
  simp only [clash, Bool.and_eq_true, beq_iff_eq, signatures]
  constructor
  · rintro ⟨⟨kinds, names⟩, field | same⟩
    · -- fields have no parameters, so their names are their signatures
      rw [kinds, hsecond.kind] at field
      rw [hfirst.kind, hsecond.kind] at kinds
      rw [hfirst.name, hsecond.name] at names
      obtain ⟨nameA, parametersA⟩ := a
      obtain ⟨nameB, parametersB⟩ := b
      cases parametersA <;> cases parametersB <;> simp_all
    · exact same
  · rintro rfl
    exact ⟨⟨hfirst.kind.trans hsecond.kind.symm, hfirst.name.trans hsecond.name.symm⟩, .inr rfl⟩

/-- Members share a place if they have one signature and one root, or are the same. -/
theorem displaces_iff (hfirst : session.SignedBy first a) (hsecond : session.SignedBy second b) :
    session.displaces first second = true ↔
      a = b ∧ (first.symbol = second.symbol ∨ first.root? = second.root?) := by
  have declared : first.symbol = second.symbol → first.declaring = second.declaring := by
    intro same
    rw [hfirst.declaring, hsecond.declaring, same]
  simp only [displaces, covers, Bool.and_eq_true, Bool.or_eq_true, beq_iff_eq,
    hfirst.clash_iff hsecond, and_iff_right_of_imp declared]

end SignedBy

/-! ## Overriding -/

/-- To override is to be declared by a proper subclass. -/
theorem overrides_iff_exists : session.overrides first second = true ↔
    ∃ sub sup, first.declaring = some sub ∧ second.declaring = some sup ∧
      session.store.ProperSubclass sub sup := by
  unfold overrides
  split
  next sub sup hsub hsup =>
    simp only [Bool.and_eq_true, bne_iff_ne, Bool.not_eq_true', and_assoc]
    constructor
    · rintro ⟨-, proper⟩
      exact ⟨sub, sup, hsub, hsup, proper⟩
    · rintro ⟨a, b, ha, hb, proper⟩
      obtain rfl := Option.some.inj (hsub.symm.trans ha)
      obtain rfl := Option.some.inj (hsup.symm.trans hb)
      exact ⟨proper.ne, proper⟩
  next missing =>
    refine iff_of_false Bool.false_ne_true ?_
    rintro ⟨sub, sup, hsub, hsup, -⟩
    exact missing sub sup hsub hsup

/-- Overriding is transitive, whatever the candidates stand for. -/
theorem overrides_trans_of_rooted (rooted : session.store.RootedAtObject)
    (upper : session.overrides first second = true)
    (lower : session.overrides second third = true) : session.overrides first third = true := by
  obtain ⟨a, b, ha, hb, above⟩ := overrides_iff_exists.mp upper
  obtain ⟨b', c, hb', hc, below⟩ := overrides_iff_exists.mp lower
  obtain rfl := Option.some.inj (hb.symm.trans hb')
  exact overrides_iff_exists.mpr ⟨a, c, ha, hc, above.trans rooted below⟩

/-- Members of one class do not override each other. -/
theorem overrides_of_declaring (same : first.declaring = second.declaring) :
    session.overrides first second = false := by
  refine Bool.eq_false_iff.mpr fun above => ?_
  obtain ⟨a, b, ha, hb, proper⟩ := overrides_iff_exists.mp above
  rw [same] at ha
  exact proper.ne (Option.some.inj (ha.symm.trans hb))

/-! ## Roots that have had their turn -/

variable {all seen kept : List Candidate} {candidate : Candidate}

/-- What will be found through the root of a candidate, with the signature of the candidate, has
been seen. -/
def Closed (session : Session) (all seen : List Candidate) (candidate : Candidate) : Prop :=
  ∀ later ∈ all, later.isMember = true →
    session.store.signature? later = session.store.signature? candidate →
    later.root? = candidate.root? →
    ∃ earlier ∈ seen, earlier.isMember = true ∧ earlier.symbol = later.symbol ∧
      earlier.root? = later.root?

/-- When another root has its turn, all roots before it have had theirs. -/
def TakesTurns (session : Session) (all : List Candidate) : Prop :=
  ∀ seen candidate rest, all = seen ++ candidate :: rest → candidate.isMember = true →
    ∀ earlier ∈ seen, earlier.isMember = true → earlier.root? ≠ candidate.root? →
      session.Closed all seen earlier

/-- What is closed stays closed. -/
theorem Closed.mono {more : List Candidate} (closed : session.Closed all seen candidate) :
    session.Closed all (seen ++ more) candidate := by
  intro later mem member signature root
  obtain ⟨earlier, hearlier, same⟩ := closed later mem member signature root
  exact ⟨earlier, List.mem_append_left _ hearlier, same⟩

theorem Closed.congr {other : Candidate} (closed : session.Closed all seen candidate)
    (signature : session.store.signature? other = session.store.signature? candidate)
    (root : other.root? = candidate.root?) : session.Closed all seen other := by
  intro later mem member hsignature hroot
  exact closed later mem member (hsignature.trans signature) (hroot.trans root)

/-- Members that stand for one thing and were found through one root are displaced alike. -/
theorem displaces_congr {a b : Signature} (hfirst : session.SignedBy first a)
    (hsecond : session.SignedBy second b) (symbol : first.symbol = second.symbol)
    (root : first.root? = second.root?) (earlier : Candidate) :
    session.displaces earlier first = session.displaces earlier second := by
  obtain rfl := hfirst.eq_of_symbol hsecond symbol
  simp only [displaces, clash, signaturesClash, covers, hfirst.kind, hsecond.kind, hfirst.name,
    hsecond.name, hfirst.signed, hsecond.signed, hfirst.declaring, hsecond.declaring, symbol, root]

/-! ## The invariant -/

/-- What is known of the members that stay. -/
structure Settled (session : Session) (all seen kept : List Candidate) : Prop where
  /-- Each was found through its root. -/
  found : ∀ candidate ∈ kept, candidate.isMember = true →
    ∃ earlier ∈ seen, earlier.SameSubject candidate
  /-- Of two with one signature, the first has had its turn. -/
  apart : kept.Pairwise fun first second => first.isMember = true → second.isMember = true →
    session.store.signature? first = session.store.signature? second →
      first.symbol ≠ second.symbol ∧ first.root? ≠ second.root? ∧ session.Closed all seen first
  /-- What was seen does not override the place that it shares, and the place stays as it is or
  keeps the root. -/
  covered : ∀ candidate ∈ seen, candidate.isMember = true →
    ∃ place, kept.find? (session.displaces · candidate) = some place ∧
      session.overrides candidate place = false ∧
      (place.root? = candidate.root? ∨ session.Closed all seen place)

namespace Settled

/-- What stays was found, so it is signed. -/
theorem signed_of_kept (settled : session.Settled all seen kept)
    (signed : ∀ member ∈ seen, member.isMember = true →
      ∃ signature, session.SignedBy member signature)
    (mem : candidate ∈ kept) (member : candidate.isMember = true) :
    ∃ signature, session.SignedBy candidate signature := by
  obtain ⟨earlier, hearlier, same⟩ := settled.found candidate mem member
  obtain ⟨signature, hsigned⟩ := signed earlier hearlier (same.isMember.symm.trans member)
  exact ⟨signature, hsigned.congr same⟩

/-- Places that are apart stay apart as more is seen. -/
theorem apart_mono (settled : session.Settled all seen kept) (more : List Candidate) :
    kept.Pairwise fun first second => first.isMember = true → second.isMember = true →
      session.store.signature? first = session.store.signature? second →
        first.symbol ≠ second.symbol ∧ first.root? ≠ second.root? ∧
          session.Closed all (seen ++ more) first := by
  refine settled.apart.imp fun apart hfirst hsecond alike => ?_
  obtain ⟨symbol, root, closed⟩ := apart hfirst hsecond alike
  exact ⟨symbol, root, closed.mono⟩

theorem found_mono (settled : session.Settled all seen kept) (more : List Candidate)
    (mem : candidate ∈ kept) (member : candidate.isMember = true) :
    ∃ earlier ∈ seen ++ more, earlier.SameSubject candidate := by
  obtain ⟨earlier, hearlier, same⟩ := settled.found candidate mem member
  exact ⟨earlier, List.mem_append_left _ hearlier, same⟩

/-- A candidate that is no member changes nothing for members. -/
theorem skip {rest : List Candidate} (settled : session.Settled all seen kept)
    (other : candidate.isMember = false) (others : ∀ added ∈ rest, added.kind = candidate.kind) :
    session.Settled all (seen ++ [candidate]) (kept ++ rest) := by
  have rest_other : ∀ added ∈ rest, added.isMember ≠ true := by
    intro added mem
    rw [Candidate.isMember, others added mem, ← Candidate.isMember, other]
    exact Bool.false_ne_true
  refine ⟨?_, List.pairwise_append.mpr ⟨settled.apart_mono _, ?_, ?_⟩, ?_⟩
  · intro added mem member
    rcases List.mem_append.mp mem with mem | mem
    · exact settled.found_mono _ mem member
    · exact absurd member (rest_other added mem)
  · exact List.pairwise_of_forall_mem_list fun added mem _ _ member =>
      absurd member (rest_other added mem)
  · intro _ _ added mem _ member
    exact absurd member (rest_other added mem)
  · intro seenOne mem member
    rcases List.mem_append.mp mem with mem | mem
    · obtain ⟨place, found, weaker, stays⟩ := settled.covered seenOne mem member
      refine ⟨place, ?_, weaker, stays.imp_right Closed.mono⟩
      rw [List.find?_append, found, Option.some_or]
    · rw [List.mem_singleton.mp mem, other] at member
      exact absurd member (by decide)

section Member

variable {before after rest : List Candidate} {place : Candidate} {signature : Signature}
  (signed : ∀ member ∈ all, member.isMember = true → ∃ signature, session.SignedBy member signature)
  (split : all = seen ++ candidate :: rest) (hcandidate : session.SignedBy candidate signature)

include signed split in
theorem signed_of_seen : ∀ member ∈ seen, member.isMember = true →
    ∃ signature, session.SignedBy member signature :=
  fun member mem => signed member (by simp [split, mem])

/-! ### A place that is shared -/

variable (settled : session.Settled all seen (before ++ place :: after))
  (hplace : session.SignedBy place signature)
  (free : ∀ other ∈ before, session.displaces other candidate = false)
  (displaced : session.displaces place candidate = true)

include free in
/-- The first place that is shared is found behind those that are not. -/
theorem find?_shared {holder : Candidate} (shares : session.displaces holder candidate = true) :
    (before ++ holder :: after).find? (session.displaces · candidate) = some holder := by
  have none : before.find? (session.displaces · candidate) = none :=
    List.find?_eq_none.mpr fun other hother => by simp [free other hother]
  rw [List.find?_append, none, Option.none_or, List.find?_cons, shares]

include split hcandidate settled hplace free displaced

/-- A member that does not override the place it shares changes nothing. -/
theorem keep (turns : session.TakesTurns all)
    (weaker : session.overrides candidate place = false) :
    session.Settled all (seen ++ [candidate]) (before ++ place :: after) := by
  refine ⟨fun _ => settled.found_mono _, settled.apart_mono _, ?_⟩
  intro seenOne mem member
  rcases List.mem_append.mp mem with mem | mem
  · obtain ⟨place, found, weaker, stays⟩ := settled.covered seenOne mem member
    exact ⟨place, found, weaker, stays.imp_right Closed.mono⟩
  · obtain rfl := List.mem_singleton.mp mem
    refine ⟨place, find?_shared free displaced, weaker, ?_⟩
    by_cases root : place.root? = seenOne.root?
    · exact .inl root
    · -- the place was found through another root, whose turn is over
      obtain ⟨earlier, hearlier, same⟩ := settled.found place (by simp) hplace.isMember
      have closed := turns seen seenOne rest split member earlier hearlier
        (same.isMember.symm.trans hplace.isMember) (same.root? ▸ root)
      exact .inr (closed.mono.congr (same.signature? _) same.root?)

variable (stronger : session.overrides candidate place = true)

include stronger

omit split settled free in
theorem root?_of_overrides : place.root? = candidate.root? := by
  refine ((hplace.displaces_iff hcandidate).mp displaced).2.resolve_left fun symbol => ?_
  have declaring : candidate.declaring = place.declaring := by
    rw [hcandidate.declaring, hplace.declaring, symbol]
  exact absurd (stronger.symm.trans (overrides_of_declaring declaring)) (by decide)

include signed

/-- A place whose root has had its turn does not change hands. -/
theorem not_closed_of_overrides : ¬ session.Closed all seen place := by
  intro closed
  obtain ⟨earlier, hearlier, member, symbol, root⟩ := closed candidate (by simp [split])
    hcandidate.isMember (hcandidate.signed.trans hplace.signed.symm)
    (root?_of_overrides hcandidate hplace displaced stronger).symm
  obtain ⟨_, hsigned⟩ := signed_of_seen signed split earlier hearlier member
  obtain ⟨held, found, weaker, -⟩ := settled.covered earlier hearlier member
  have alike := displaces_congr hsigned hcandidate symbol root
  rw [funext alike, find?_shared free displaced] at found
  obtain rfl := Option.some.inj found
  have declaring : earlier.declaring = candidate.declaring := by
    rw [hsigned.declaring, hcandidate.declaring, symbol]
  rw [overrides, declaring, ← overrides, stronger] at weaker
  exact absurd weaker (by decide)

/-- A place that changes hands is the last with its signature. -/
theorem last_of_overrides {later : Candidate} (mem : later ∈ after)
    (member : later.isMember = true) : session.store.signature? later ≠ some signature := by
  intro alike
  have apart := (List.pairwise_cons.mp (List.pairwise_append.mp settled.apart).2.1).1 later mem
    hplace.isMember member (hplace.signed.trans alike.symm)
  exact not_closed_of_overrides signed split hcandidate settled hplace free displaced stronger
    apart.2.2

variable {taker : Candidate} (same : candidate.SameSubject taker)

include same

/-- What takes a place over is apart from all others that stay. -/
theorem apart_of_overrides :
    (before ++ taker :: after).Pairwise fun first second => first.isMember = true →
      second.isMember = true →
      session.store.signature? first = session.store.signature? second →
        first.symbol ≠ second.symbol ∧ first.root? ≠ second.root? ∧
          session.Closed all (seen ++ [candidate]) first := by
  have htaker := hcandidate.congr same
  have root := root?_of_overrides hcandidate hplace displaced stronger
  obtain ⟨apartBefore, apartRest, apartAcross⟩ :=
    List.pairwise_append.mp (settled.apart_mono [candidate])
  refine List.pairwise_append.mpr ⟨apartBefore, List.pairwise_cons.mpr ⟨?_, ?_⟩, ?_⟩
  · intro later mem _ member alike
    exact absurd (alike.symm.trans htaker.signed) (last_of_overrides signed split hcandidate
      settled hplace free displaced stronger mem member)
  · exact (List.pairwise_cons.mp apartRest).2
  · intro first hfirst second hsecond member member' alike
    rcases List.mem_cons.mp hsecond with rfl | hsecond
    · rw [htaker.signed, ← hplace.signed] at alike
      obtain ⟨-, apart, closed⟩ :=
        apartAcross first hfirst place List.mem_cons_self member hplace.isMember alike
      refine ⟨fun symbol => ?_, by rwa [same.root?, ← root], closed⟩
      -- what stands for the same would have been displaced by the earlier place
      obtain ⟨other, hother⟩ :=
        settled.signed_of_kept (signed_of_seen signed split) (by simp [hfirst]) member
      have shares := (hother.displaces_iff hcandidate).mpr
        ⟨hother.eq_of_symbol htaker symbol, .inl (symbol.trans same.symbol)⟩
      exact absurd (shares.symm.trans (free first hfirst)) (by decide)
    · exact apartAcross first hfirst second (List.mem_cons_of_mem _ hsecond) member member' alike

/-- What shared the place that changes hands shares it still, and is not stronger. What shared
another does so still. -/
theorem covered_of_overrides (rooted : session.store.RootedAtObject) {earlier : Candidate}
    (mem : earlier ∈ seen) (member : earlier.isMember = true) :
    ∃ holder, (before ++ taker :: after).find? (session.displaces · earlier) = some holder ∧
      session.overrides earlier holder = false ∧
      (holder.root? = earlier.root? ∨ session.Closed all (seen ++ [candidate]) holder) := by
  have htaker := hcandidate.congr same
  have root := root?_of_overrides hcandidate hplace displaced stronger
  obtain ⟨held, found, weaker, stays⟩ := settled.covered earlier mem member
  obtain ⟨other, hother⟩ := signed_of_seen signed split earlier mem member
  rw [List.find?_append] at found ⊢
  cases early : before.find? (session.displaces · earlier) with
  | some first =>
    rw [early, Option.some_or] at found
    refine ⟨held, ?_, weaker, stays.imp_right Closed.mono⟩
    rw [Option.some_or, found]
  | none =>
    rw [early, Option.none_or, List.find?_cons] at found
    rw [Option.none_or, List.find?_cons]
    cases shares : session.displaces place earlier with
    | true =>
      rw [shares] at found
      obtain rfl := Option.some.inj found
      have sameRoot : taker.root? = earlier.root? := by
        rw [same.root?, ← root]
        exact stays.resolve_right (not_closed_of_overrides signed split hcandidate settled hplace
          free displaced stronger)
      obtain ⟨rfl, -⟩ := (hplace.displaces_iff hother).mp shares
      have takes : session.displaces taker earlier = true :=
        (htaker.displaces_iff hother).mpr ⟨rfl, .inr sameRoot⟩
      refine ⟨taker, by rw [takes], Bool.eq_false_iff.mpr fun above => ?_, .inl sameRoot⟩
      have below : session.overrides taker place = true := by
        rw [overrides, same.declaring, ← overrides, stronger]
      have both := overrides_trans_of_rooted rooted above below
      exact absurd (both.symm.trans weaker) (by decide)
    | false =>
      rw [shares] at found
      have shares' := List.find?_some found
      have listed := List.mem_of_find?_eq_some found
      have member' : held.isMember = true := by
        rw [Candidate.isMember, (kind_merge shares').1]
        exact member
      obtain ⟨third, hthird⟩ :=
        settled.signed_of_kept (signed_of_seen signed split) (by simp [listed]) member'
      obtain ⟨rfl, -⟩ := (hthird.displaces_iff hother).mp shares'
      have apart : session.displaces taker earlier = false := by
        refine Bool.eq_false_iff.mpr fun takes => ?_
        obtain ⟨rfl, -⟩ := (htaker.displaces_iff hother).mp takes
        exact last_of_overrides signed split hcandidate settled hplace free displaced stronger
          listed member' hthird.signed
      exact ⟨held, by rw [apart]; exact found, weaker, stays.imp_right Closed.mono⟩

/-- A member that overrides the place it shares takes it over. -/
theorem replace (rooted : session.store.RootedAtObject) :
    session.Settled all (seen ++ [candidate]) (before ++ taker :: after) := by
  have apart :=
    apart_of_overrides signed split hcandidate settled hplace free displaced stronger same
  refine ⟨?_, apart, ?_⟩
  · intro added mem member
    have others : added = taker ∨ added ∈ before ++ place :: after := by
      simp only [List.mem_append, List.mem_cons] at mem ⊢
      tauto
    rcases others with rfl | mem
    · exact ⟨candidate, by simp, same⟩
    · exact settled.found_mono _ mem member
  · intro seenOne mem member
    rcases List.mem_append.mp mem with mem | mem
    · exact covered_of_overrides signed split hcandidate settled hplace free displaced stronger same
        rooted mem member
    · obtain rfl := List.mem_singleton.mp mem
      have takes : session.displaces taker seenOne = true :=
        ((hcandidate.congr same).displaces_iff hcandidate).mpr ⟨rfl, .inl same.symbol⟩
      exact ⟨taker, find?_shared free takes, overrides_of_declaring same.declaring.symm,
        .inl same.root?⟩

end Member

/-- A member that shares no place gets one. Those of its signature that have one were found through
other roots, whose turns are over. -/
theorem append {rest : List Candidate} {signature : Signature} {own : Candidate}
    (settled : session.Settled all seen kept)
    (signed : ∀ member ∈ all, member.isMember = true →
      ∃ signature, session.SignedBy member signature)
    (turns : session.TakesTurns all) (split : all = seen ++ candidate :: rest)
    (hcandidate : session.SignedBy candidate signature)
    (alone : ∀ earlier ∈ kept, session.displaces earlier candidate = false)
    (same : candidate.SameSubject own) :
    session.Settled all (seen ++ [candidate]) (kept ++ [own]) := by
  have hown := hcandidate.congr same
  refine ⟨?_, List.pairwise_append.mpr ⟨settled.apart_mono _, List.pairwise_singleton _ _, ?_⟩, ?_⟩
  · intro added mem member
    rcases List.mem_append.mp mem with mem | mem
    · exact settled.found_mono _ mem member
    · exact ⟨candidate, by simp, List.mem_singleton.mp mem ▸ same⟩
  · intro first hfirst second hsecond member _ alike
    obtain rfl := List.mem_singleton.mp hsecond
    obtain ⟨other, hother⟩ := settled.signed_of_kept (signed_of_seen signed split) hfirst member
    rw [hother.signed, hown.signed, Option.some.injEq] at alike
    subst alike
    have apart : ¬ (first.symbol = candidate.symbol ∨ first.root? = candidate.root?) := by
      intro shares
      have displaced := (hother.displaces_iff hcandidate).mpr ⟨rfl, shares⟩
      exact absurd (displaced.symm.trans (alone first hfirst)) (by decide)
    rw [not_or] at apart
    obtain ⟨earlier, hearlier, subject⟩ := settled.found first hfirst member
    have closed := turns seen candidate rest split hcandidate.isMember earlier hearlier
      (subject.isMember.symm.trans member) (subject.root? ▸ apart.2)
    exact ⟨same.symbol ▸ apart.1, same.root? ▸ apart.2,
      closed.mono.congr (subject.signature? _) subject.root?⟩
  · intro seenOne mem member
    rcases List.mem_append.mp mem with mem | mem
    · obtain ⟨place, found, weaker, stays⟩ := settled.covered seenOne mem member
      refine ⟨place, ?_, weaker, stays.imp_right Closed.mono⟩
      rw [List.find?_append, found, Option.some_or]
    · obtain rfl := List.mem_singleton.mp mem
      have shares : session.displaces own seenOne = true :=
        (hown.displaces_iff hcandidate).mpr ⟨rfl, .inl same.symbol⟩
      exact ⟨own, find?_shared alone shares, overrides_of_declaring same.declaring.symm,
        .inl same.root?⟩

/-! ## A whole run -/

section Run

variable (rooted : session.store.RootedAtObject) (turns : session.TakesTurns all)
  (signed : ∀ member ∈ all, member.isMember = true →
    ∃ signature, session.SignedBy member signature)

include rooted turns signed

/-- One more candidate leaves all settled. -/
theorem step {known : KnownTypes} {rest : List Candidate}
    (settled : session.Settled all seen kept) (split : all = seen ++ candidate :: rest) :
    session.Settled all (seen ++ [candidate])
      (session.addCandidate (known, kept) candidate).2 := by
  rcases session.addCandidate_cases (known, kept) candidate with
    ⟨member, result⟩ | ⟨other, rest, result, others⟩
  swap
  · rw [result]
    exact settled.skip other others
  rw [result]
  obtain ⟨signature, hcandidate⟩ := signed candidate (by simp [split]) member
  rcases session.addMember_first kept candidate with
    ⟨before, place, after, rfl, free, displaced, result⟩ | ⟨alone, result⟩
  swap
  · rw [result]
    refine settled.append signed turns split hcandidate alone ?_
    unfold ownPlace
    by_cases qualified :
      (kept.any (session.clash · candidate) && candidate.qualifier.isNone) = true
    · rw [if_pos qualified]
      exact sameSubject_qualify session candidate
    · rw [if_neg qualified]
      exact .refl candidate
  rw [result]
  have held : place ∈ before ++ place :: after := by simp
  obtain ⟨other, hother⟩ := settled.signed_of_kept (signed_of_seen signed split) held (by
    rw [Candidate.isMember, (kind_merge displaced).1]
    exact member)
  obtain ⟨rfl, -⟩ := (hother.displaces_iff hcandidate).mp displaced
  unfold merge
  by_cases stronger : session.overrides candidate place = true
  · rw [if_pos stronger]
    refine replace signed split hcandidate settled hother free displaced stronger ?_ rooted
    split
    · exact sameSubject_qualify session candidate
    · exact .refl candidate
  · rw [if_neg stronger]
    exact keep split hcandidate settled hother free displaced turns
      (Bool.eq_false_iff.mpr stronger)

/-- What stays of a walk is settled, as far as the walk has come. -/
theorem foldl (state : KnownTypes × List Candidate) (rest : List Candidate)
    (settled : session.Settled all seen state.2) (split : all = seen ++ rest) :
    session.Settled all all (rest.foldl session.addCandidate state).2 := by
  induction rest generalizing seen state with
  | nil =>
    rw [List.append_nil] at split
    subst split
    exact settled
  | cons candidate rest ih =>
    have split' : all = (seen ++ [candidate]) ++ rest := by
      rw [split, List.append_assoc, List.singleton_append]
    exact ih _ (settled.step rooted turns signed split) split'

end Run

end Settled

/-- The members that stay are signed, and those with one signature are not the same and were found
through different roots. -/
theorem members_differ (rooted : session.store.RootedAtObject)
    (turns : session.TakesTurns all)
    (signed : ∀ member ∈ all, member.isMember = true →
      ∃ signature, session.SignedBy member signature) :
    (∀ candidate ∈ (session.resolve all).2, candidate.isMember = true →
      ∃ signature, session.SignedBy candidate signature) ∧
    (session.resolve all).2.Pairwise fun first second =>
      first.isMember = true → second.isMember = true →
      session.store.signature? first = session.store.signature? second →
        first.symbol ≠ second.symbol ∧ first.root? ≠ second.root? := by
  obtain ⟨change, rewrites, result⟩ := session.exists_rewrites all
  have start : session.Settled all [] [] := ⟨by simp, List.Pairwise.nil, by simp⟩
  have settled : session.Settled all all (all.foldl session.addCandidate ({}, [])).2 :=
    start.foldl rooted turns signed ({}, []) all rfl
  rw [result]
  refine ⟨fun candidate mem member => ?_, ?_⟩
  · obtain ⟨original, horiginal, rfl⟩ := List.mem_map.mp mem
    rw [(rewrites.same _).isMember] at member
    obtain ⟨signature, hsigned⟩ := settled.signed_of_kept signed horiginal member
    exact ⟨signature, hsigned.congr (rewrites.same original)⟩
  · rw [List.pairwise_map]
    refine settled.apart.imp fun {first second} apart hfirst hsecond alike => ?_
    simp only [(rewrites.same _).isMember, (rewrites.same _).signature?, (rewrites.same _).symbol,
      (rewrites.same _).root?] at hfirst hsecond alike ⊢
    obtain ⟨symbol, root, -⟩ := apart hfirst hsecond alike
    exact ⟨symbol, root⟩

end Completion.Session

end CodeAssist
