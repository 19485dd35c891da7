import CodeAssist.Proofs.Completion.Variables
/-!
# Members of an instance

The walk over scopes remembers whether code without an instance has been left. It asks that of a
class before it looks at the class's own boundary, so the members of a nested static class are still
reached from inside it. `member_of_walkScopes` says where a member comes from: from the class of a
scope, searched with what the scopes further in have left, or from an import or a favorite, which
give static members only.

Later stages write members with other qualifiers, but neither exchange them for others nor change
the root that they were found through, so the same holds of what is proposed.
-/

namespace CodeAssist.Completion.Session

variable {session : Session} {mode : WalkMode} {candidate : Candidate}

/-- Around the cursor is a scope of the class, and no scope further in takes its instance away. -/
def HasInstance (session : Session) (id : ClassId) : Prop :=
  ∃ inner scope outer, session.scopes = inner ++ scope :: outer ∧ scope.kind = .class id ∧
    ∀ other ∈ inner, other.kind.isStaticBoundary session.store = false

/-! ## What a search finds -/

/-- The candidate was found by a search through a root. What has to be qualified is. -/
structure FoundBy (session : Session) (search : MemberSearch) (root : ClassId)
    (candidate : Candidate) : Prop where
  rooted : candidate.root? = some root
  finds : ∃ declaration, candidate.StandsFor session.store declaration ∧
    candidate.modifiers = declaration.modifiers ∧ session.Finds search root declaration
  qualified : candidate.mustQualify = true → candidate.qualifier.isSome = true

namespace FoundBy

variable {search : MemberSearch} {root : ClassId}

/-- What the search of one class finds is found by that search. -/
theorem of_members {origin : Origin}
    (mem : candidate ∈ Event.items (session.members search root root origin)) :
    session.FoundBy search root candidate := by
  obtain ⟨visit, visited, declaration, nameMatch, passes, rfl⟩ := mem_items_members.mp mem
  refine ⟨head?_route visited, ⟨declaration, ⟨passes.stored, rfl, rfl, rfl, rfl⟩, rfl, ?_⟩, nofun⟩
  exact exists_passes_iff.mp ⟨visit, visited, nameMatch, passes⟩

theorem of_importedMembers {origin : Origin}
    (mem : candidate ∈ Event.items (session.importedMembers search root origin)) :
    session.FoundBy search root candidate := by
  rw [importedMembers, Event.items_map] at mem
  obtain ⟨member, hmember, rfl⟩ := List.mem_map.mp mem
  obtain ⟨rooted, ⟨declaration, standsFor, modifiers, finds⟩, qualified⟩ := of_members hmember
  exact ⟨rooted, ⟨declaration, standsFor.congr ⟨rfl, rfl, rfl, rfl, rfl⟩, modifiers, finds⟩,
    qualified⟩

theorem withImport (found : session.FoundBy search root candidate) (owner : QualifiedName) :
    session.FoundBy search root (session.withImport owner candidate) := by
  obtain ⟨rooted, ⟨declaration, standsFor, modifiers, finds⟩, qualified⟩ := found
  unfold Session.withImport
  split
  · exact ⟨rooted, ⟨declaration, standsFor.congr ⟨rfl, rfl, rfl, rfl, rfl⟩, modifiers, finds⟩,
      qualified⟩
  · exact ⟨rooted, ⟨declaration, standsFor.congr ⟨rfl, rfl, rfl, rfl, rfl⟩, modifiers, finds⟩,
      fun _ => rfl⟩

/-- A search for statics alone finds nothing else. -/
theorem isStatic (found : session.FoundBy search root candidate) (needed : search.statics ≠ .none) :
    candidate.isStatic = true := by
  obtain ⟨declaration, -, modifiers, finds⟩ := found.finds
  rw [Candidate.isStatic, modifiers]
  exact MemberSearch.admitStatic_eq_ok.mp finds.callable needed

/-- The name of what was found matches the token. -/
theorem matched (found : session.FoundBy search root candidate) :
    (session.match? candidate.name).isSome = true := by
  obtain ⟨declaration, standsFor, -, finds⟩ := found.finds
  rw [standsFor.name]
  exact finds.named

/-- Through a class that is not stored, only members of the root class are found. -/
theorem declaring_of_absent (found : session.FoundBy search root candidate)
    (absent : session.store.class? root = none) : candidate.declaring = some .object := by
  obtain ⟨declaration, standsFor, -, finds⟩ := found.finds
  rw [standsFor.declaring]
  have stored := Declaration.class?_of_storedIn finds.stored
  rcases finds.inherited.of_absent absent with owner | owner
  · exact congrArg some owner
  · rw [owner, absent] at stored
    exact absurd stored (by simp)

end FoundBy

/-! ## Scopes -/

theorem foundBy_of_unitCandidates {imports : Imports} {types : List ClassId}
    (mem : candidate ∈ Event.items (session.unitCandidates mode imports types))
    (member : candidate.isMember = true) :
    ∃ search root, search.statics = .construct ∧ session.FoundBy search root candidate := by
  simp only [unitCandidates, Event.items_append, List.mem_append, Event.items_ite_nil,
    List.mem_ite_nil_right, Event.items_flatMap, List.mem_flatMap] at mem
  rcases mem with (⟨-, types⟩ | ⟨-, mem⟩) | ⟨-, favorite, -, mem⟩
  · have other : candidate.isMember = false := by
      rcases types with ⟨id, -, mem⟩ | mem
      · obtain ⟨_, stored⟩ := storedType_of_screenType (by simpa using mem)
        exact stored.isMember
      · obtain ⟨_, _, stored⟩ := storedType_of_types mem
        exact stored.isMember
    exact absurd (member.symm.trans other) (by decide)
  · obtain ⟨_, -, id, search, -, statics, mem⟩ := exists_importedMembers_of_staticImports mem
    exact ⟨search, id, statics, .of_importedMembers mem⟩
  · obtain ⟨id, search, original, -, statics, found, written⟩ :=
      exists_importedMembers_of_favoriteMembers mem
    refine ⟨search, id, statics, ?_⟩
    rcases written with rfl | rfl
    · exact .of_importedMembers found
    · exact (FoundBy.of_importedMembers found).withImport _

/-- A member that a walk over scopes finds was found in the class of a scope, without its instance
if a boundary lies further in, or comes from an import or a favorite. -/
theorem member_of_walkScopes {staticOnly : Bool} {seen : List String} {scopes : List Scope}
    (mem : candidate ∈ Event.items (session.walkScopes mode staticOnly seen scopes))
    (member : candidate.isMember = true) :
    (∃ inner scope outer id, scopes = inner ++ scope :: outer ∧ scope.kind = .class id ∧
      session.FoundBy (scopeSearch mode (staticOnly ||
        inner.any fun other => other.kind.isStaticBoundary session.store)) id candidate) ∨
      ∃ search root, search.statics = .construct ∧ session.FoundBy search root candidate := by
  induction scopes generalizing staticOnly seen with
  | nil => exact absurd mem List.not_mem_nil
  | cons scope outer ih =>
    simp only [walkScopes, Event.items_append, List.mem_append, Event.items_ite_nil,
      List.mem_ite_nil_right] at mem
    rcases mem with (⟨-, mem⟩ | mem) | mem
    · exact absurd (member.symm.trans (isMember_of_locals mem)) (by decide)
    · unfold kindCandidates at mem
      split at mem
      next id kind =>
        simp only [classCandidates, Event.items_append, List.mem_append, Event.items_ite_nil,
          List.mem_ite_nil_right] at mem
        rcases mem with ⟨-, mem⟩ | ⟨-, mem⟩
        · refine .inl ⟨[], scope, outer, id, rfl, kind, ?_⟩
          rw [List.any_nil, Bool.or_false]
          exact .of_members mem
        · obtain ⟨_, _, stored⟩ := storedType_of_memberTypes mem
          exact absurd (member.symm.trans stored.isMember) (by decide)
      next => exact .inr (foundBy_of_unitCandidates mem member)
      next => exact absurd mem List.not_mem_nil
    · -- what is found further out has this scope further in
      refine (ih mem).imp_left ?_
      rintro ⟨inner, around, outermost, id, rfl, kind, found⟩
      refine ⟨scope :: inner, around, outermost, id, rfl, kind, ?_⟩
      rwa [List.any_cons, ← Bool.or_assoc]

/-- At a bare site every member of the walk comes from the scopes. -/
theorem mem_walkScopes_of_walked (bare : session.Bare mode) (mem : candidate ∈ session.walked)
    (member : candidate.isMember = true) :
    candidate ∈ Event.items (session.walkScopes mode false [] session.scopes) := by
  obtain ⟨keywords, kinds, walked⟩ := bare.exists_walked
  rw [walked, List.mem_append] at mem
  apply mem.resolve_right
  intro mem
  have other := isMember_of_kind (kinds candidate mem) (by decide) (by decide)
  exact absurd (member.symm.trans other) (by decide)

/-- At a bare site every member of the walk is found by a search of some class. -/
theorem foundBy_of_walked (bare : session.Bare mode) (mem : candidate ∈ session.walked)
    (member : candidate.isMember = true) :
    ∃ search root, session.FoundBy search root candidate := by
  rcases member_of_walkScopes (mem_walkScopes_of_walked bare mem member) member with
    ⟨_, _, _, id, -, -, found⟩ | ⟨search, root, -, found⟩
  · exact ⟨_, id, found⟩
  · exact ⟨search, root, found⟩

/-- A member of the walk that needs an instance has one. -/
theorem hasInstance_of_walked (bare : session.Bare mode) (mem : candidate ∈ session.walked)
    (member : candidate.isMember = true) (dynamic : candidate.isStatic = false) :
    ∃ root, candidate.root? = some root ∧ session.HasInstance root := by
  have needless : ∀ {search root}, session.FoundBy search root candidate →
      search.statics = .none := by
    intro search root found
    by_contra needed
    exact absurd ((found.isStatic needed).symm.trans dynamic) (by decide)
  rcases member_of_walkScopes (mem_walkScopes_of_walked bare mem member) member with
    ⟨inner, scope, outer, id, split, kind, found⟩ | ⟨search, root, statics, found⟩
  · refine ⟨id, found.rooted, inner, scope, outer, split, kind, ?_⟩
    simpa [scopeSearch] using needless found
  · exact absurd ((needless found).symm.trans statics) (by decide)

/-! ## What is proposed -/

/-- The members that are proposed where a name can stand alone are members that stay. -/
theorem mem_kept_of_shown (bare : session.Bare mode) {ignores : ProposalKind → Bool}
    (mem : candidate ∈ session.shown ignores) (member : candidate.isMember = true) :
    candidate ∈ session.kept := by
  obtain ⟨found, offered, kinds⟩ := bare.exists_offered
  have listed := (List.mem_filter.mp mem).1
  rw [offered, List.mem_append] at listed
  apply listed.resolve_right
  intro mem
  have other : candidate.isMember = false := by
    rcases kinds candidate mem with kind | kind
    · exact isMember_of_kind kind (by decide) (by decide)
    · exact isMember_of_kind kind (by decide) (by decide)
  exact absurd (member.symm.trans other) (by decide)

/-- Where a name can stand alone, a field or a method that is not static is proposed only from
inside its class: between the cursor and the scope of the class that it was found through, no scope
takes the instance away. -/
theorem instance_members_need_their_instance (bare : session.Bare mode)
    (ignores : ProposalKind → Bool) (signal : Signal) :
    (session.run ignores signal).proposals <+: (session.shown ignores).map session.proposal ∧
    ∀ candidate ∈ session.shown ignores, candidate.isMember = true → candidate.isStatic = false →
      ∃ root, candidate.root? = some root ∧ session.HasInstance root := by
  refine ⟨session.proposals_run_initial ignores signal, ?_⟩
  intro candidate mem member dynamic
  obtain ⟨original, listed, same⟩ :=
    exists_original_of_mem_resolve (mem_kept_of_shown bare mem member)
  obtain ⟨root, found, inside⟩ := hasInstance_of_walked bare listed
    (congr_of_stripped Candidate.isMember (fun _ => rfl) same ▸ member)
    (congr_of_stripped Candidate.isStatic (fun _ => rfl) same ▸ dynamic)
  exact ⟨root, (congr_of_stripped Candidate.root? (fun _ => rfl) same).trans found, inside⟩

/-- A method of the class of texts. -/
def insideMethod (isStatic : Bool) : ScopeGraph :=
  ⟨#[{ parent := some 1, kind := .method none isStatic false },
    { parent := none, kind := .class .string }]⟩

/-- In a method `equals` is proposed; in a static one static members are. -/
theorem shown_insideMethod :
    ((overCore "al" .name (insideMethod false)).shown fun _ => false).any (fun candidate =>
      candidate.isMember && !candidate.isStatic && candidate.name == "equals") = true ∧
    ((overCore "al" .name (insideMethod true)).shown fun _ => false).any (fun candidate =>
      candidate.isMember && candidate.isStatic) = true := by
  have scopes (isStatic : Bool) : (overCore "al" .name (insideMethod isStatic)).scopes =
      [{ parent := some 1, kind := .method none isStatic false },
        { parent := none, kind := .class .string }] := by
    cases isStatic <;> decide +kernel
  have walk (isStatic : Bool) : (overCore "al" .name (insideMethod isStatic)).walk =
      (overCore "al" .name (insideMethod isStatic)).walkScopes .expression false []
        (overCore "al" .name (insideMethod isStatic)).scopes ++
        (overCore "al" .name (insideMethod isStatic)).keywords := rfl
  have store (isStatic : Bool) :
      (overCore "al" .name (insideMethod isStatic)).store = CoreLibrary.store := rfl
  simp only [shown, offered, known, kept, walked, walk, scopes, walkScopes, kindCandidates,
    classCandidates, members, visits, Store.objectRoute, store, Store.interfaceRoutes_string,
    memberTypes, Store.supertypes_string]
  decide +kernel

/-- The token matches `equals`, for which the static method has no instance. -/
theorem static_method_offers_static_members :
    (((overCore "al" .name (insideMethod false)).shown fun _ => false).any (fun candidate =>
      candidate.isMember && !candidate.isStatic && candidate.name == "equals") = true ∧
    ((overCore "al" .name (insideMethod true)).shown fun _ => false).any (fun candidate =>
      candidate.isMember && candidate.isStatic) = true) ∧
    ((overCore "al" .name (insideMethod true)).shown fun _ => false).all (fun candidate =>
      !candidate.isMember || candidate.isStatic) = true := by
  refine ⟨shown_insideMethod, List.all_eq_true.mpr fun candidate mem => ?_⟩
  obtain ⟨-, members⟩ := instance_members_need_their_instance
    (.name rfl : (overCore "al" .name (insideMethod true)).Bare .expression) (fun _ => false)
    fun _ _ => false
  cases member : candidate.isMember with
  | false => rfl
  | true =>
    show (false || candidate.isStatic) = true
    by_contra dynamic
    obtain ⟨root, -, inner, scope, outer, split, kind, inside⟩ :=
      members candidate mem member (by simpa using dynamic)
    cases inner with
    | nil =>
      cases (List.cons.inj split).1
      cases kind
    | cons first inner =>
      have boundary := inside first List.mem_cons_self
      rw [← (List.cons.inj split).1] at boundary
      exact absurd boundary (by decide)

end CodeAssist.Completion.Session
