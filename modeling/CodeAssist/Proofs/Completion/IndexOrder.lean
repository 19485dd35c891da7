import CodeAssist.Proofs.Completion.Delivery
import CodeAssist.Proofs.Completion.ScopeWalk
import CodeAssist.Proofs.Completion.TypeSearch
import CodeAssist.Proofs.Index.Packages
import Mathlib.Data.List.Nodup
import Mathlib.Data.List.Perm.Basic
/-!
# The order of the index

What is proposed does not depend on the order in which an index lists its types: with the types
permuted, the proposals are permuted.

Types are written one by one, but how each is written depends on all of its simple name, through the
claims on it (`Placed.settled_congr`). Claims are made in the order of precedence, and of the types
that claim one simple name no two have the same precedence (`strict_separate`): a single-type import
names one type, a package has one type of a name, and an import on demand that gives a name to two
types gives it to none.
-/

namespace CodeAssist.Completion

/-! ## Repeated names -/

/-- Which facts are kept does not depend on the order of those before. -/
theorem addName_perm {kept other : List TypeFact} (perm : kept.Perm other) (fact : TypeFact) :
    (addName kept fact).Perm (addName other fact) := by
  have same := (perm.map TypeFact.name).mem_iff (a := fact.name)
  by_cases known : fact.name ∈ kept.map TypeFact.name
  · rwa [addName_of_mem known, addName_of_mem (same.mp known)]
  · rw [addName_of_not_mem known, addName_of_not_mem (mt same.mpr known)]
    exact perm.append_right _

theorem foldl_addName_perm {kept other : List TypeFact} (perm : kept.Perm other)
    (facts : List TypeFact) : (facts.foldl addName kept).Perm (facts.foldl addName other) := by
  induction facts generalizing kept other with
  | nil => exact perm
  | cons fact facts ih => exact ih (addName_perm perm fact)

/-- Where all names are distinct, no fact is dropped. -/
theorem foldl_addName_of_nodup {kept facts : List TypeFact}
    (nodup : ((kept ++ facts).map TypeFact.name).Nodup) :
    facts.foldl addName kept = kept ++ facts := by
  induction facts generalizing kept with
  | nil => simp
  | cons fact facts ih =>
    have fresh : fact.name ∉ kept.map TypeFact.name := by
      rw [List.map_append, List.map_cons, List.nodup_middle, List.nodup_cons] at nodup
      exact fun mem => nodup.1 (List.mem_append_left _ mem)
    rw [List.append_cons] at nodup ⊢
    rw [List.foldl_cons, addName_of_not_mem fresh]
    exact ih nodup

/-- Permuting facts of different names permutes what remains of them and of others behind them. -/
theorem uniqueNames_append_perm {first second : List TypeFact} (perm : first.Perm second)
    (nodup : (first.map TypeFact.name).Nodup) (more : List TypeFact) :
    (uniqueNames (first ++ more)).Perm (uniqueNames (second ++ more)) := by
  have alone : ∀ {facts : List TypeFact}, (facts.map TypeFact.name).Nodup →
      facts.foldl addName [] = facts := fun nodup => foldl_addName_of_nodup nodup
  rw [uniqueNames_eq_foldl, uniqueNames_eq_foldl, List.foldl_append, List.foldl_append,
    alone nodup, alone ((perm.map _).nodup_iff.mp nodup)]
  exact foldl_addName_perm perm more

/-! ## Claims -/

namespace Placed

variable {all other : List Placed}

/-- A type is ambiguous if some other one has its simple name, wherever that one stands. -/
theorem isAmbiguous_perm (perm : all.Perm other) (placed : Placed) :
    isAmbiguous all placed = isAmbiguous other placed := perm.any_eq

theorem separate_perm (perm : all.Perm other) : (separate all).Perm (separate other) := by
  unfold separate
  simp only [isAmbiguous_perm perm]
  exact perm.map _

/-- Sorting by a rank sorts. -/
theorem pairwise_mergeSort_rank (placed : List Placed) (rank : Placed → Nat) :
    (placed.mergeSort fun a b => rank a ≤ rank b).Pairwise fun a b => rank a ≤ rank b := by
  have ranked : (placed.mergeSort fun a b => rank a ≤ rank b).Pairwise
      fun a b => decide (rank a ≤ rank b) = true := by
    refine List.pairwise_mergeSort (fun a b c => ?_) (fun a b => ?_) placed
    · simp only [decide_eq_true_eq]
      exact Nat.le_trans
    · simpa only [Bool.or_eq_true, decide_eq_true_eq] using Nat.le_total _ _
  exact ranked.imp of_decide_eq_true

/-- The first of a sorted list that passes a test depends only on what passes it, in whatever order,
if no two that pass have the same rank. -/
theorem find?_mergeSort_perm (rank : Placed → Nat) {test : Placed → Bool}
    (perm : (all.filter test).Perm (other.filter test))
    (strict : ∀ a ∈ all, ∀ b ∈ all, test a = true → test b = true → rank a = rank b → a = b) :
    (all.mergeSort fun a b => rank a ≤ rank b).find? test =
      (other.mergeSort fun a b => rank a ≤ rank b).find? test := by
  have sorted : ∀ placed : List Placed, ((placed.mergeSort fun a b => rank a ≤ rank b).filter
      test).Pairwise fun a b => rank a ≤ rank b :=
    fun placed => (pairwise_mergeSort_rank placed rank).filter _
  have permuted : ((all.mergeSort fun a b => rank a ≤ rank b).filter test).Perm
      ((other.mergeSort fun a b => rank a ≤ rank b).filter test) :=
    (((List.mergeSort_perm all _).filter _).trans perm).trans
      ((List.mergeSort_perm other _).symm.filter _)
  rw [← List.head?_filter, ← List.head?_filter]
  refine congrArg List.head? (permuted.eq_of_pairwise (fun a b ha hb less more => ?_) (sorted all)
    (sorted other))
  have passingA := List.mem_filter.mp ((List.mergeSort_perm all _).filter test |>.mem_iff.mp ha)
  have passingB := List.mem_filter.mp
    (perm.mem_iff.mpr ((List.mergeSort_perm other _).filter test |>.mem_iff.mp hb))
  exact strict a passingA.1 b passingB.1 passingA.2 passingB.2 (Nat.le_antisymm less more)

/-- Of the types that claim one simple name, no two have the same precedence. -/
def Strict (all : List Placed) : Prop :=
  ∀ a ∈ all, ∀ b ∈ all, a.placement.isBare = true → b.placement.isBare = true →
    a.simpleName = b.simpleName → a.placement.precedence = b.placement.precedence → a = b

/-- The types of a simple name. -/
def named (simple : String) (all : List Placed) : List Placed :=
  all.filter fun placed => placed.simpleName == simple

/-- Only types with its simple name make a type ambiguous. -/
theorem isAmbiguous_named (all : List Placed) (placed : Placed) :
    isAmbiguous (named placed.simpleName all) placed = isAmbiguous all placed := by
  rw [isAmbiguous, named, List.any_filter, isAmbiguous]
  refine congrArg all.any (funext fun other => ?_)
  cases other.simpleName == placed.simpleName <;> simp

theorem named_separate (simple : String) (all : List Placed) :
    named simple (separate all) = separate (named simple all) := by
  have kept : ∀ placed : Placed, (if placed.placement = .onDemand && isAmbiguous all placed then
      { placed with placement := .qualified } else placed).simpleName = placed.simpleName := by
    intro placed
    split <;> rfl
  rw [separate, named, List.filter_map, separate]
  simp only [Function.comp_def, kept]
  refine List.map_congr_left fun placed mem => ?_
  obtain rfl : placed.simpleName = simple := beq_iff_eq.mp (List.mem_filter.mp mem).2
  rw [isAmbiguous_named]

/-- Who holds a simple name depends on the claims on it alone, in whatever order they are made. -/
theorem claimant?_claimAll_congr {known later : KnownTypes} {simple : String}
    (held : known.claimant? simple = later.claimant? simple)
    (perm : (named simple all).Perm (named simple other)) (strict : Strict all) :
    (claimAll known all).claimant? simple = (claimAll later other).claimant? simple := by
  have bare : ((all.filter fun placed => placed.placement.isBare).filter fun placed =>
      placed.simpleName == simple).Perm ((other.filter fun placed =>
        placed.placement.isBare).filter fun placed => placed.simpleName == simple) := by
    rw [List.filter_comm, List.filter_comm (l := other)]
    exact perm.filter _
  have first : ∀ a ∈ all.filter (fun placed => placed.placement.isBare),
      ∀ b ∈ all.filter (fun placed => placed.placement.isBare), (a.simpleName == simple) = true →
        (b.simpleName == simple) = true → a.placement.precedence = b.placement.precedence →
          a = b := by
    intro a ha b hb simpleA simpleB rank
    rw [List.mem_filter] at ha hb
    rw [beq_iff_eq] at simpleA simpleB
    exact strict a ha.1 b hb.1 ha.2 hb.2 (simpleA.trans simpleB.symm) rank
  rw [claimAll, claimAll, claimant?_foldl_claim, claimant?_foldl_claim, held,
    find?_mergeSort_perm (fun placed => placed.placement.precedence) bare first]

/-- How a type is written depends on the types of its simple name alone, and not on their order. -/
theorem settled_congr {known later : KnownTypes} {placed : Placed}
    (held : known.claimant? placed.simpleName = later.claimant? placed.simpleName)
    (perm : (named placed.simpleName all).Perm (named placed.simpleName other))
    (strict : Strict (separate all)) : settled known all placed = settled later other placed := by
  have ambiguous : isAmbiguous all placed = isAmbiguous other placed := by
    rw [← isAmbiguous_named, isAmbiguous_perm perm, isAmbiguous_named]
  have separated : (named placed.simpleName (separate all)).Perm
      (named placed.simpleName (separate other)) := by
    rw [named_separate, named_separate]
    exact separate_perm perm
  have holds : ∀ owner, (claimAll known (separate all)).holds placed.simpleName owner =
      (claimAll later (separate other)).holds placed.simpleName owner := fun owner => by
    rw [KnownTypes.holds, KnownTypes.holds, claimant?_claimAll_congr held separated strict]
  unfold settled yield
  rw [ambiguous]
  split
  · rfl
  · rw [holds]

/-- A type that is still to be written bare was so before, and no import on demand makes it
ambiguous. -/
theorem mem_separate_of_isBare {placed : Placed} (mem : placed ∈ separate all)
    (bare : placed.placement.isBare = true) :
    placed ∈ all ∧ (placed.placement = .onDemand → isAmbiguous all placed = false) := by
  obtain ⟨original, horiginal, rfl⟩ := List.mem_map.mp mem
  split at bare
  · exact absurd bare Bool.false_ne_true
  next clear =>
    rw [if_neg clear]
    refine ⟨horiginal, fun onDemand => ?_⟩
    simpa [onDemand] using clear

end Placed

namespace Placement

variable {package : QualifiedName} {imports : Imports} {fact : TypeFact}

/-- The placements that let a type be written alone. -/
theorem isBare_cases {placement : Placement} (bare : placement.isBare = true) :
    placement = .imported none ∨ placement = .samePackage none ∨ placement = .onDemand := by
  unfold isBare at bare
  split at bare
  · exact .inl rfl
  · exact .inr (.inl rfl)
  · exact .inr (.inr rfl)
  · exact absurd bare Bool.false_ne_true

/-- Bare placements are told apart by their precedence. -/
theorem eq_of_precedence {placement other : Placement} (bare : placement.isBare = true)
    (bareOther : other.isBare = true) (same : placement.precedence = other.precedence) :
    placement = other := by
  rcases isBare_cases bare with rfl | rfl | rfl <;>
    rcases isBare_cases bareOther with rfl | rfl | rfl <;>
    first
    | rfl
    | exact absurd same (by decide)

/-- What an import on demand can lead to. -/
theorem ofOnDemand_cases (imports : Imports) (fact : TypeFact) :
    ofOnDemand imports fact = .onDemand ∨ ofOnDemand imports fact = .qualified ∨
      ofOnDemand imports fact = .unreachable := by
  unfold ofOnDemand
  dsimp only
  split
  · exact .inl rfl
  · split
    · exact .inr (.inl rfl)
    · exact .inr (.inr rfl)

/-- A single-type import names the type. -/
theorem type?_of_ofFact_imported (placement : ofFact package imports fact = .imported none) :
    imports.type? fact.simpleName = some fact.name := by
  unfold ofFact at placement
  split at placement
  next path found =>
    split at placement
    next same => rw [found, same]
    next => exact absurd placement (by simp)
  next =>
    split at placement
    next => exact absurd placement (by simp)
    next =>
      split at placement
      next => exact absurd placement (by simp)
      next =>
        rcases ofOnDemand_cases imports fact with h | h | h <;>
          exact absurd (h.symm.trans placement) (by simp)

/-- A type of the package stands directly in it. -/
theorem name_of_ofFact_samePackage (placement : ofFact package imports fact = .samePackage none) :
    fact.name = package.child fact.simpleName := by
  unfold ofFact at placement
  split at placement
  next path found => split at placement <;> exact absurd placement (by simp)
  next =>
    split at placement
    next => exact absurd placement (by simp)
    next =>
      split at placement
      next inside =>
        have outermost : fact.enclosing = [] := by
          simpa [TypeFact.isMember] using placement
        simp [TypeFact.name, TypeFact.container, outermost, inside, QualifiedName.append]
      next =>
        rcases ofOnDemand_cases imports fact with h | h | h <;>
          exact absurd (h.symm.trans placement) (by simp)

end Placement

namespace Session

variable {session : Session} {known : KnownTypes}

/-- Of the types that the class path would write with one simple name, no two have the same
precedence. -/
theorem strict_separate (session : Session) (known : KnownTypes) :
    Placed.Strict (Placed.separate (session.placedTypes known)) := by
  intro a ha b hb bareA bareB simple precedence
  obtain ⟨ha, clearA⟩ := Placed.mem_separate_of_isBare ha bareA
  obtain ⟨hb, clearB⟩ := Placed.mem_separate_of_isBare hb bareB
  have placement : ∀ placed ∈ session.placedTypes known, placed.placement.isBare = true →
      placed.placement = .ofFact session.unit.1 session.unit.2 placed.fact := by
    intro placed mem bare
    have placement := (places_of_mem mem).placement
    split at placement
    · rw [placement] at bare
      exact absurd bare Bool.false_ne_true
    · exact placement
  have shared := Placement.eq_of_precedence bareA bareB precedence
  suffices same : a.name = b.name from
    List.inj_on_of_nodup_map (session.nodup_placedTypes known) ha hb same
  rcases Placement.isBare_cases bareA with reached | reached | reached
  · have imported := Placement.type?_of_ofFact_imported ((placement a ha bareA).symm.trans reached)
    have other := Placement.type?_of_ofFact_imported
      ((placement b hb bareB).symm.trans (shared.symm.trans reached))
    rw [show b.fact.simpleName = a.fact.simpleName from simple.symm, imported] at other
    exact Option.some.inj other
  · have inside := Placement.name_of_ofFact_samePackage
      ((placement a ha bareA).symm.trans reached)
    have other := Placement.name_of_ofFact_samePackage
      ((placement b hb bareB).symm.trans (shared.symm.trans reached))
    rw [show b.fact.simpleName = a.fact.simpleName from simple.symm] at other
    exact inside.trans other.symm
  · -- with different names, the import on demand would have been ambiguous
    have clear := List.any_eq_false.mp (clearA reached) b hb
    rw [← shared, reached, simple] at clear
    have same : b.name = a.name := by simpa [Placement.namedOnDemand] using clear
    exact same.symm

/-! ## Another index -/

/-- The same request over the index of a snapshot, and with another way to guess types. -/
def withIndex (session : Session) (snapshot : Snapshot) (guess : String → Option ClassId) :
    Session :=
  { session with index := .build snapshot, guess }

section WithIndex

variable (session : Session) (snapshot : Snapshot) (guess : String → Option ClassId)

/-- The walk over the scopes never asks the index. -/
theorem walkScopes_withIndex (mode : WalkMode) (staticOnly : Bool) (seen : List String)
    (scopes : List Scope) :
    (session.withIndex snapshot guess).walkScopes mode staticOnly seen scopes =
      session.walkScopes mode staticOnly seen scopes := by
  induction scopes generalizing staticOnly seen with
  | nil => rfl
  | cons scope outer ih =>
    rw [walkScopes, walkScopes, ← ih]
    rfl

theorem keywords_withIndex : (session.withIndex snapshot guess).keywords = session.keywords := by
  have context : (session.withIndex snapshot guess).inStaticContext = session.inStaticContext :=
    inStaticContext_congr rfl rfl
  unfold keywords
  rw [context]
  rfl

end WithIndex

/-- Where types of the class path can stand, the walk takes nothing from the index. -/
theorem walk_withIndex {snapshot : Snapshot} {guess : String → Option ClassId}
    (site : session.request.site.wantsTypes = true) :
    (session.withIndex snapshot guess).walk = session.walk := by
  have same : (session.withIndex snapshot guess).request = session.request := rfl
  have scopes : (session.withIndex snapshot guess).scopes = session.scopes := rfl
  unfold walk
  rw [same, scopes]
  simp only [walkScopes_withIndex, keywords_withIndex]
  cases here : session.request.site <;> simp_all [Site.wantsTypes]

/-! ## A permuted index -/

/-- The snapshots differ at most in the order of their types, which have different names. -/
structure Reorders (first second : Snapshot) : Prop where
  types : first.types.Perm second.types
  distinct : (first.types.map TypeFact.name).Nodup
  constructors : first.constructors = second.constructors
  packages : first.packages = second.packages

section Reordered

variable {first second : Snapshot} (reorders : Reorders first second)
  (session : Session) (guess other : String → Option ClassId)

include reorders

/-- The constructors are the same in both indexes, and so is their order. -/
theorem foundConstructors_withIndex :
    (session.withIndex first guess).foundConstructors =
      (session.withIndex second other).foundConstructors := by
  have constructors : (Index.build first).constructors = (Index.build second).constructors :=
    reorders.constructors
  simp only [foundConstructors, Index.findConstructors, withIndex, constructors]
  rfl

/-- The types that are found are the same, in another order. -/
theorem foundTypes_withIndex_perm :
    (session.withIndex first guess).foundTypes.Perm
      (session.withIndex second other).foundTypes := by
  unfold foundTypes
  rw [foundConstructors_withIndex reorders session guess other]
  refine uniqueNames_append_perm ((reorders.types.filter _).filter _) ?_ _
  exact reorders.distinct.sublist ((List.filter_sublist.trans List.filter_sublist).map _)

/-- So are those that pass their screening, each with its placement. -/
theorem placedTypes_withIndex_perm (known : KnownTypes) :
    ((session.withIndex first guess).placedTypes known).Perm
      ((session.withIndex second other).placedTypes known) := by
  rw [placedTypes_eq, placedTypes_eq]
  exact (foundTypes_withIndex_perm reorders session guess other).filterMap _

theorem placedCandidates_withIndex :
    (session.withIndex first guess).placedCandidates =
      (session.withIndex second other).placedCandidates := by
  funext placed
  unfold placedCandidates
  rw [foundConstructors_withIndex reorders session guess other]
  rfl

/-- A permuted index offers the same types and constructors, permuted. -/
theorem searchTypes_withIndex_perm (known : KnownTypes) :
    (Event.items ((session.withIndex first guess).searchTypes known)).Perm
      (Event.items ((session.withIndex second other).searchTypes known)) := by
  have placed := placedTypes_withIndex_perm reorders session guess other known
  have settled : Placed.settled known ((session.withIndex first guess).placedTypes known) =
      Placed.settled known ((session.withIndex second other).placedTypes known) :=
    funext fun _ => Placed.settled_congr rfl (placed.filter _) (strict_separate _ known)
  rw [items_searchTypes, items_searchTypes, Placed.settle_eq_map, Placed.settle_eq_map,
    placedCandidates_withIndex reorders session guess other,
    settled]
  exact (placed.map _).flatMap_right _

/-- The packages are collected and sorted, so their order is the same. -/
theorem searchPackages_withIndex :
    (session.withIndex first guess).searchPackages =
      (session.withIndex second other).searchPackages := by
  have packages : (Index.build first).packages = (Index.build second).packages :=
    Index.packages_build_perm reorders.types reorders.constructors reorders.packages
  simp only [searchPackages, Index.findPackages, withIndex, packages]
  rfl

/-- A permuted index leads to the same candidates, permuted. -/
theorem offered_withIndex_perm (site : session.request.site.wantsTypes = true) :
    (session.withIndex first guess).offered.Perm (session.withIndex second other).offered := by
  have walked :
      (session.withIndex first guess).walked = (session.withIndex second other).walked := by
    rw [Session.walked, Session.walked, walk_withIndex site, walk_withIndex site]
  have known : (session.withIndex first guess).known = (session.withIndex second other).known := by
    rw [Session.known, Session.known, walked]
    rfl
  have kept : (session.withIndex first guess).kept = (session.withIndex second other).kept := by
    rw [Session.kept, Session.kept, walked]
    rfl
  have packages := searchPackages_withIndex reorders session guess other
  have types := searchTypes_withIndex_perm reorders session guess other
    (session.withIndex second other).known
  have stages : ∀ snapshot guess, (session.withIndex snapshot guess).offered =
      if session.request.site = .nothing then []
      else
        Event.items (session.reached (session.withIndex snapshot guess).walked
            (session.withIndex snapshot guess).kept)
          ++ (if session.searchesTypes then
            Event.items ((session.withIndex snapshot guess).searchTypes
              (session.withIndex snapshot guess).known) else [])
          ++ (if session.searchesPackages then
            Event.items (session.withIndex snapshot guess).searchPackages else []) := fun _ _ => rfl
  rw [stages, stages, walked, known, kept, packages]
  split
  · exact .refl _
  · refine (List.Perm.append_left _ ?_).append_right _
    split
    · exact types
    · exact .refl _

end Reordered

/-- Where types of the class path can stand, the order in which the index lists its types makes no
difference to what is proposed, but for the order of the proposals. -/
theorem proposals_perm_of_reordered_index {session : Session} {first second : Snapshot}
    {guess other : String → Option ClassId} {ignores : ProposalKind → Bool}
    {signal later : Signal} (site : session.request.site.wantsTypes = true)
    (types : first.types.Perm second.types)
    (distinct : (first.types.map TypeFact.name).Nodup)
    (constructors : first.constructors = second.constructors)
    (packages : first.packages = second.packages)
    (completed : ((session.withIndex first guess).run ignores signal).outcome = .completed)
    (completedToo : ((session.withIndex second other).run ignores later).outcome = .completed) :
    ((session.withIndex first guess).run ignores signal).proposals.Perm
      ((session.withIndex second other).run ignores later).proposals := by
  have reorders : Reorders first second := ⟨types, distinct, constructors, packages⟩
  have offered := offered_withIndex_perm reorders session guess other site
  rw [proposals_run completed, proposals_run completedToo]
  exact (offered.filter _).map _

/-- Two types of one simple name, listed either way. -/
theorem proposals_perm_of_swapped_lists :
    (((overCore "List" .allocation).withIndex { types :=
        [.topLevel ⟨["java", "util", "List"]⟩, .topLevel ⟨["java", "awt", "List"]⟩] }
      fun _ => none).run (fun _ => false) fun _ _ => false).proposals.Perm
    (((overCore "List" .allocation).withIndex { types :=
        [.topLevel ⟨["java", "awt", "List"]⟩, .topLevel ⟨["java", "util", "List"]⟩] }
      fun _ => none).run (fun _ => false) fun _ _ => false).proposals := by
  refine proposals_perm_of_reordered_index rfl (.swap _ _ _) ?_ rfl rfl ?_ ?_
  · decide
  · exact run_outcome_of_silent _ _ fun _ _ => rfl
  · exact run_outcome_of_silent _ _ fun _ _ => rfl

end Session

end CodeAssist.Completion
