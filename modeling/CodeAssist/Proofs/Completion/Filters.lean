import CodeAssist.Proofs.Class.Names
import CodeAssist.Proofs.Completion.Delivery
import CodeAssist.Proofs.Completion.ScopeWalk
import CodeAssist.Proofs.Completion.Shadowing
import CodeAssist.Proofs.Completion.TypeSearch
/-!
# What the filters keep out

Every source of candidates applies the filters by hand: members, stored types and constructors,
types and constructors of the index each have their own screening, and the access that a screening
looks at is not always the one that the candidate carries. `Permitted` says what a candidate has
passed in terms of the candidate alone, and is shown of every source.

What later stages change about a candidate is how it is written and scored. Its `profile` is the
rest, and whether a candidate is permitted depends on its profile only (`Permitted.congr`). So the
resolution of candidates needs one fact: what stays has the profile of something that was walked
(`exists_walked_of_kept`).
-/

namespace CodeAssist

/-- Neither of two verdicts is stricter than the strictest. -/
theorem Access.strictest_eq_nonAccessible {first second : Access} :
    first.strictest second = .nonAccessible ↔
      first = .nonAccessible ∨ second = .nonAccessible := by
  cases first <;> cases second <;> simp [strictest]

/-- Of two accesses the stricter one is discouraged only if one of them is. -/
theorem Access.eq_discouraged_of_strictest {first second : Access}
    (strict : first.strictest second = .discouraged) :
    first = .discouraged ∨ second = .discouraged := by
  cases first <;> cases second <;> simp_all [strictest]

namespace Completion

/-- What a candidate is, apart from how it was reached, is written and is scored. -/
def Candidate.profile (candidate : Candidate) :
    CandidateKind × Symbol × Option ClassId × Modifiers × Access :=
  (candidate.kind, candidate.symbol, candidate.declaring, candidate.modifiers, candidate.access)

namespace Session

variable {session : Session} {candidate other : Candidate}

/-- What the access rules and the filter for deprecation ask. -/
theorem admitAccess_eq_ok {access : Access} {modifiers : Modifiers} {passed : Unit} :
    session.admitAccess access modifiers = .ok passed ↔
      (session.options.checkForbidden = true → access ≠ .nonAccessible) ∧
      (session.options.checkDiscouraged = true → access ≠ .discouraged) ∧
      (session.options.checkDeprecation = true → modifiers.isDeprecated = false) := by
  simp [admitAccess, imp_iff_not_or]

/-- The candidate has passed every filter that is on. -/
structure Permitted (session : Session) (candidate : Candidate) : Prop where
  rules : session.admitAccess candidate.access candidate.modifiers = .ok ()
  visible : session.options.checkVisibility = true → candidate.isMember = true →
    ∀ owner, candidate.declaring = some owner →
      session.store.isMemberVisible owner candidate.modifiers session.view = true
  allowed : ∀ name, session.store.typeName? candidate = some name →
    session.forbidsName name = false
  named : candidate.kind = .type ∨ candidate.kind = .constructor →
    (session.store.typeName? candidate).isSome

/-- Being permitted is a matter of the profile. -/
theorem Permitted.congr (permitted : session.Permitted candidate)
    (same : other.profile = candidate.profile) : session.Permitted other := by
  simp only [Candidate.profile, Prod.mk.injEq] at same
  obtain ⟨kind, symbol, declaring, modifiers, access⟩ := same
  refine ⟨?_, ?_, ?_, ?_⟩
  · rw [access, modifiers]
    exact permitted.rules
  · rw [Candidate.isMember, kind, declaring, modifiers]
    exact permitted.visible
  · rw [Store.typeName?, symbol]
    exact permitted.allowed
  · rw [Store.typeName?, kind, symbol]
    exact permitted.named

/-- The modifiers of what no class declares. -/
def undeclaredModifiers : List Modifiers := [.none, .final, .public, .public ||| .final]

/-- Variables, keywords, labels, packages and the members of arrays have no declaring class, and no
rule speaks of them. -/
theorem permitted_of_undeclared (declaring : candidate.declaring = none)
    (access : candidate.access = .accessible)
    (modifiers : candidate.modifiers ∈ undeclaredModifiers)
    (unnamed : session.store.typeName? candidate = none)
    (kind : candidate.kind ≠ .type ∧ candidate.kind ≠ .constructor) :
    session.Permitted candidate := by
  have current : ∀ modifiers ∈ undeclaredModifiers, modifiers.isDeprecated = false := by decide
  refine ⟨admitAccess_eq_ok.mpr ?_, fun _ _ owner declared => ?_, fun name denotes => ?_,
    fun named => ?_⟩
  · simp [access, current _ modifiers]
  · rw [declaring] at declared
    cases declared
  · rw [unnamed] at denotes
    cases denotes
  · exact (named.elim kind.1 kind.2).elim

/-! ## Sources of the walk -/

/-- A member that passes its screening is permitted: it is screened by its own access and
modifiers. -/
theorem permitted_of_passes {search : MemberSearch} {visit : Visit} {declaration : Declaration}
    {nameMatch : Matching.NameMatch} (passes : session.Passes search visit declaration nameMatch)
    (origin : Origin) (chain : List ClassId) :
    session.Permitted (declaration.candidate session.store nameMatch origin chain) := by
  have admitted := passes.admitted
  simp only [admitMember, Screened.bind_eq_ok, Screened.requireOr_eq_ok] at admitted
  obtain ⟨_, visible, rules⟩ := admitted
  refine ⟨rules, fun checks _ owner declared => ?_, fun name denotes => ?_, fun named => ?_⟩
  · obtain rfl : declaration.owner = owner := Option.some.inj declared
    show session.store.isMemberVisible declaration.owner declaration.modifiers session.view = true
    rw [checks] at visible
    exact visible
  · cases declaration <;> cases denotes
  · cases declaration <;> simp [Declaration.candidate] at named

/-- So are the members that a search finds. -/
theorem permitted_of_members {search : MemberSearch} {root start : ClassId} {origin : Origin}
    (mem : candidate ∈ Event.items (session.members search root start origin)) :
    session.Permitted candidate := by
  obtain ⟨visit, -, declaration, nameMatch, passes, rfl⟩ := mem_items_members.mp mem
  exact permitted_of_passes passes _ _

/-- And those that an import or a favorite adds. -/
theorem permitted_of_importedMembers {search : MemberSearch} {id : ClassId} {origin : Origin}
    (mem : candidate ∈ Event.items (session.importedMembers search id origin)) :
    session.Permitted candidate := by
  rw [importedMembers, Event.items_map] at mem
  obtain ⟨member, found, rfl⟩ := List.mem_map.mp mem
  exact (permitted_of_members found).congr rfl

/-- A full name is allowed if no forbidden class is stored under it. -/
theorem forbidsName_eq_false {name : QualifiedName} :
    session.forbidsName name = false ↔
      ∀ id ∈ session.request.forbidden, session.store.name? id ≠ some name := by
  simp [forbidsName]

/-- With distinct names, what is not forbidden by its place is not forbidden by its name. -/
theorem forbidsName_of_not_forbids (distinct : session.store.DistinctNames) {id : ClassId}
    {name : QualifiedName} (stored : session.store.name? id = some name)
    (allowed : session.forbids id = false) : session.forbidsName name = false := by
  refine forbidsName_eq_false.mpr fun listed mem same => ?_
  obtain rfl : listed = id := distinct.eq same stored
  exact absurd (List.contains_iff_mem.mpr mem) (Bool.eq_false_iff.mp allowed)

/-- A type that passes its screening is permitted. It was screened by its place, and with distinct
names the place of a forbidden class is the only one with its name. -/
theorem permitted_of_screenType (distinct : session.store.DistinctNames) {origin : Origin}
    {id : ClassId} (screened : session.screenType origin id = .ok candidate) :
    session.Permitted candidate := by
  simp only [screenType, Screened.bind_eq_ok, Screened.require_eq_ok] at screened
  obtain ⟨_, allowed, screened⟩ := screened
  split at screened
  next => exact absurd screened Screened.throw_ne_ok
  next definition stored =>
    simp only [Screened.bind_eq_ok, Screened.pure_eq_ok] at screened
    obtain ⟨nameMatch, -, _, -, _, rules, rfl⟩ := screened
    have named : session.store.name? id = some definition.name := by simp [Store.name?, stored]
    refine ⟨rules, fun _ member => ?_, fun name denotes => ?_, fun _ => ?_⟩
    · simp [Candidate.isMember] at member
    · exact forbidsName_of_not_forbids distinct denotes (by simpa using allowed)
    · exact Option.isSome_of_eq_some named

theorem permitted_of_types (distinct : session.store.DistinctNames) {origin : Origin}
    {ids : List ClassId}
    (mem : candidate ∈ Event.items (ids.flatMap fun id => (session.screenType origin id).step)) :
    session.Permitted candidate := by
  simp only [Event.items_flatMap, Screened.items_step, List.mem_flatMap,
    Screened.mem_items_events] at mem
  obtain ⟨id, -, screened⟩ := mem
  exact permitted_of_screenType distinct screened

/-- Member types go through the same screening. -/
theorem permitted_of_memberTypes (distinct : session.store.DistinctNames) {id : ClassId}
    (mem : candidate ∈ Event.items (session.memberTypes id)) : session.Permitted candidate := by
  rw [memberTypes, Event.items_append, List.mem_append] at mem
  rcases mem with mem | mem
  · exact permitted_of_types distinct mem
  · rw [Event.items_flatMap, List.mem_flatMap] at mem
    obtain ⟨owner, -, mem⟩ := mem
    exact permitted_of_types distinct mem

theorem permitted_of_staticImports {imports : Imports} {mode : WalkMode}
    (mem : candidate ∈ Event.items (session.staticImports imports mode)) :
    session.Permitted candidate := by
  obtain ⟨_, _, _, _, _, _, member⟩ := exists_importedMembers_of_staticImports mem
  exact permitted_of_importedMembers member

/-- Favorites add members, which are screened like all others. -/
theorem permitted_of_favoriteMembers {imports : Imports} {favorite : Favorite}
    (mem : candidate ∈ Event.items (session.favoriteMembers imports favorite)) :
    session.Permitted candidate := by
  obtain ⟨_, _, member, -, -, found, written⟩ := exists_importedMembers_of_favoriteMembers mem
  have permitted := permitted_of_importedMembers found
  rcases written with rfl | rfl
  · exact permitted
  · refine permitted.congr ?_
    unfold withImport
    split <;> rfl

/-- Whatever a scope adds apart from its variables is permitted. -/
theorem permitted_of_kindCandidates (distinct : session.store.DistinctNames) {mode : WalkMode}
    {staticOnly : Bool} {kind : ScopeKind}
    (mem : candidate ∈ Event.items (session.kindCandidates mode staticOnly kind)) :
    session.Permitted candidate := by
  cases kind with
  | «class» id =>
    simp only [kindCandidates, classCandidates, Event.items_append, List.mem_append,
      Event.items_ite_nil, List.mem_ite_nil_right] at mem
    rcases mem with ⟨-, mem⟩ | ⟨-, mem⟩
    · exact permitted_of_members mem
    · exact permitted_of_memberTypes distinct mem
  | unit package imports types =>
    simp only [kindCandidates, unitCandidates, Event.items_append, List.mem_append,
      Event.items_ite_nil, List.mem_ite_nil_right] at mem
    rcases mem with (⟨-, mem | mem⟩ | ⟨-, mem⟩) | ⟨-, mem⟩
    · exact permitted_of_types distinct mem
    · exact permitted_of_types distinct mem
    · exact permitted_of_staticImports mem
    · rw [Event.items_flatMap, List.mem_flatMap] at mem
      obtain ⟨favorite, -, mem⟩ := mem
      exact permitted_of_favoriteMembers mem
  | _ => exact absurd mem List.not_mem_nil

/-- A variable has no declaring class, is accessible and is no type, so there is nothing to
forbid. -/
theorem permitted_of_screenLocal {mode : WalkMode} {binding : Local}
    (screened : session.screenLocal mode binding = .ok candidate) :
    session.Permitted candidate := by
  simp only [screenLocal, Screened.bind_eq_ok, Screened.pure_eq_ok] at screened
  obtain ⟨_, -, nameMatch, -, rfl⟩ := screened
  refine permitted_of_undeclared rfl rfl ?_ rfl (by simp)
  cases binding.isFinal <;> simp [undeclaredModifiers]

/-- The walk over the scopes finds nothing but what is permitted. -/
theorem permitted_of_walkScopes (distinct : session.store.DistinctNames) {mode : WalkMode}
    {staticOnly : Bool} {seen : List String} {scopes : List Scope}
    (mem : candidate ∈ Event.items (session.walkScopes mode staticOnly seen scopes)) :
    session.Permitted candidate := by
  induction scopes generalizing staticOnly seen with
  | nil => exact absurd mem List.not_mem_nil
  | cons scope outer ih =>
    simp only [walkScopes, Event.items_append, List.mem_append, Event.items_ite_nil,
      List.mem_ite_nil_right, Event.items_flatMap, Screened.items_step, List.mem_flatMap,
      Screened.mem_items_events] at mem
    rcases mem with (⟨-, binding, -, screened⟩ | mem) | mem
    · exact permitted_of_screenLocal screened
    · exact permitted_of_kindCandidates distinct mem
    · exact ih mem

/-- A keyword is permitted for the same reasons as a variable. -/
theorem permitted_of_keyword? {word : String} (found : session.keyword? word = some candidate) :
    session.Permitted candidate := by
  simp only [keyword?, Option.bind_eq_bind, Option.bind_eq_some_iff] at found
  obtain ⟨nameMatch, -, _, -, same⟩ := found
  cases same
  exact permitted_of_undeclared rfl rfl (by simp [undeclaredModifiers]) rfl (by simp)

/-- So is a label. -/
theorem permitted_of_labelsFrom {seen : List String} {scopes : List Scope}
    (mem : candidate ∈ Event.items (session.labelsFrom seen scopes)) :
    session.Permitted candidate := by
  induction scopes generalizing seen with
  | nil => exact absurd mem List.not_mem_nil
  | cons scope outer ih =>
    simp only [labelsFrom, Event.items_append, List.mem_append, Event.items_flatMap,
      List.mem_flatMap, Screened.mem_items_events, Screened.bind_eq_ok,
      Screened.pure_eq_ok] at mem
    rcases mem with ⟨label, -, nameMatch, -, rfl⟩ | mem
    · exact permitted_of_undeclared rfl rfl (by simp [undeclaredModifiers]) rfl (by simp)
    · split at mem
      · exact absurd mem List.not_mem_nil
      · exact ih mem

/-! ## Behind a dot -/

/-- The members of an array are built in and accessible. -/
theorem permitted_of_arrayMembers {array : TypeRef}
    (mem : candidate ∈ Event.items (session.arrayMembers array)) :
    session.Permitted candidate := by
  simp only [arrayMembers, List.cons_append, Event.items_tick, Event.items_append,
    List.mem_append, Screened.mem_items_events, Screened.bind_eq_ok, Screened.pure_eq_ok] at mem
  rcases mem with ⟨nameMatch, -, rfl⟩ | ⟨nameMatch, -, rfl⟩
  · exact permitted_of_undeclared rfl rfl (by simp [undeclaredModifiers]) rfl (by simp)
  · exact permitted_of_undeclared rfl rfl (by simp [undeclaredModifiers]) rfl (by simp)

/-- Behind a dot stand the members of a class, of an array or of a guessed class. -/
theorem permitted_of_receiverMembers {receiver : TypeRef}
    (mem : candidate ∈ Event.items (session.receiverMembers receiver)) :
    session.Permitted candidate := by
  unfold receiverMembers at mem
  split at mem
  next => exact permitted_of_members mem
  next =>
    rw [Event.items_append, List.mem_append] at mem
    rcases mem with mem | mem
    · exact permitted_of_arrayMembers mem
    · exact permitted_of_members mem
  next =>
    unfold guessedMembers at mem
    split at mem
    next => exact absurd mem List.not_mem_nil
    next =>
      rw [Event.items_map] at mem
      obtain ⟨member, found, rfl⟩ := List.mem_map.mp mem
      exact (permitted_of_members found).congr rfl
  next => exact absurd mem List.not_mem_nil

/-- The members of a cast are found by the same search. -/
theorem permitted_of_narrowedMembers {name : String} {declared : Option ClassId}
    {reached : List Candidate}
    (mem : candidate ∈ Event.items (session.narrowedMembers name declared reached)) :
    session.Permitted candidate := by
  obtain ⟨id, members⟩ := session.exists_members_of_narrowedMembers name declared reached
  obtain ⟨original, found, -, cast, rfl⟩ := members candidate mem
  exact (permitted_of_members found).congr rfl

/-- Both kinds of members behind a dot are permitted. -/
theorem permitted_of_memberAccess {receiver : TypeRef} {name : Option String}
    (mem : candidate ∈ Event.items (session.memberAccess receiver name)) :
    session.Permitted candidate := by
  unfold memberAccess at mem
  dsimp only at mem
  split at mem
  next => exact permitted_of_receiverMembers mem
  next =>
    rw [Event.items_append, List.mem_append] at mem
    rcases mem with mem | mem
    · exact permitted_of_receiverMembers mem
    · exact permitted_of_narrowedMembers mem

theorem permitted_of_staticAccess (distinct : session.store.DistinctNames) {id : ClassId}
    (mem : candidate ∈ Event.items (session.staticAccess id)) : session.Permitted candidate := by
  simp only [staticAccess, Event.items_append, List.mem_append, Event.items_map_found,
    Option.mem_toList] at mem
  rcases mem with (mem | mem) | mem
  · exact permitted_of_members mem
  · exact permitted_of_memberTypes distinct mem
  · exact permitted_of_keyword? mem

theorem permitted_of_superAccess (mem : candidate ∈ Event.items session.superAccess) :
    session.Permitted candidate := by
  unfold superAccess at mem
  split at mem
  next => exact absurd mem List.not_mem_nil
  next =>
    split at mem
    next => exact absurd mem List.not_mem_nil
    next =>
      split at mem
      next => exact absurd mem List.not_mem_nil
      next => exact permitted_of_members mem

theorem permitted_of_enumConstants {id : ClassId}
    (mem : candidate ∈ Event.items (session.enumConstants id)) : session.Permitted candidate := by
  obtain ⟨event, listed, item⟩ := List.mem_filterMap.mp mem
  have found : candidate ∈ Event.items (session.declaredMembers _ _) :=
    List.mem_filterMap.mpr ⟨event, (List.mem_filter.mp listed).1, item⟩
  obtain ⟨declaration, nameMatch, passes, rfl⟩ := mem_items_declaredMembers.mp found
  exact permitted_of_passes passes _ _

/-- Whatever the site, what the walk finds has passed the filters. -/
theorem permitted_of_walked (distinct : session.store.DistinctNames)
    (mem : candidate ∈ session.walked) : session.Permitted candidate := by
  unfold walked walk at mem
  dsimp only at mem
  split at mem
  next =>
    rw [Event.items_append, List.mem_append, keywords, Event.items_map_found] at mem
    rcases mem with mem | mem
    · exact permitted_of_walkScopes distinct mem
    · obtain ⟨word, -, found⟩ := List.mem_filterMap.mp mem
      exact permitted_of_keyword? found
  next => exact permitted_of_walkScopes distinct mem
  next => exact permitted_of_walkScopes distinct mem
  next => exact permitted_of_memberAccess mem
  next => exact permitted_of_staticAccess distinct mem
  next => exact permitted_of_superAccess mem
  next =>
    split at mem
    next => exact permitted_of_enumConstants mem
    next => exact permitted_of_walkScopes distinct mem
  next => exact permitted_of_labelsFrom mem
  next => exact absurd mem List.not_mem_nil
  next => exact absurd mem List.not_mem_nil

/-! ## The candidates that stay -/

/-- What stays has the profile of something that was walked. -/
theorem exists_walked_of_kept (mem : candidate ∈ session.kept) :
    ∃ walked ∈ session.walked, candidate.profile = walked.profile := by
  obtain ⟨walked, listed, same⟩ := exists_original_of_mem_resolve mem
  exact ⟨walked, listed, congr_of_stripped Candidate.profile (fun _ => rfl) same⟩

/-- The resolution changes no profile, so what it keeps is permitted as well. -/
theorem permitted_of_kept (distinct : session.store.DistinctNames)
    (mem : candidate ∈ session.kept) : session.Permitted candidate := by
  obtain ⟨walked, hwalked, same⟩ := exists_walked_of_kept mem
  exact (permitted_of_walked distinct hwalked).congr same

/-! ## Constructors -/

/-- A type stands for the same name with its constructors in its place. -/
theorem permitted_of_constructedAs {type : Candidate} (permitted : session.Permitted type)
    (symbol : Symbol) (style : AllocationStyle)
    (same : session.store.typeName? (type.constructedAs symbol style) =
      session.store.typeName? type)
    (named : (session.store.typeName? type).isSome) {modifiers : Modifiers} {access : Access}
    (rules : session.admitAccess access modifiers = .ok ()) :
    session.Permitted { type.constructedAs symbol style with modifiers, access } := by
  refine ⟨rules, fun _ member => ?_, fun name denotes => ?_, fun _ => ?_⟩
  · simp [Candidate.isMember, Candidate.constructedAs] at member
  · exact permitted.allowed name (same.symm.trans denotes)
  · exact (congrArg Option.isSome same).trans named

/-- A stage with a fallback finds nothing else. -/
theorem permitted_of_withFallback {fallback : Candidate} {events : List (Event Candidate)}
    (mem : candidate ∈ Event.items (withFallback fallback events))
    (found : candidate ∈ Event.items events → session.Permitted candidate)
    (otherwise : session.Permitted fallback) : session.Permitted candidate := by
  unfold withFallback at mem
  split at mem
  · rw [Event.items_append, List.mem_append] at mem
    rcases mem with mem | mem
    · exact found mem
    · rw [List.mem_singleton.mp mem]
      exact otherwise
  · exact found mem

/-- The constructors of a type are screened by their own access, and the type that stands for them
otherwise was permitted. -/
theorem permitted_of_storedAllocations {type : Candidate} {id : ClassId}
    (permitted : session.Permitted type) (symbol : type.symbol = .type id)
    (mem : candidate ∈ Event.items (session.storedAllocations type id)) :
    session.Permitted candidate := by
  have denotes : session.store.typeName? type = session.store.name? id := by
    simp only [Store.typeName?, symbol]
  unfold storedAllocations at mem
  split at mem
  next => exact List.mem_singleton.mp mem ▸ permitted
  next definition stored =>
    have named : (session.store.typeName? type).isSome := by simp [denotes, Store.name?, stored]
    split at mem
    next => exact absurd mem List.not_mem_nil
    next => exact List.mem_singleton.mp mem ▸ permitted
    next style _ =>
      split at mem
      · rw [List.mem_singleton.mp mem]
        exact permitted_of_constructedAs permitted (.type id) style denotes.symm named
          permitted.rules
      · refine permitted_of_withFallback mem (fun found => ?_) permitted
        rw [Event.items_flatMap, List.mem_flatMap] at found
        obtain ⟨⟨constructor, index⟩, -, screened⟩ := found
        simp only [Screened.mem_items_events, screenConstructor, Screened.bind_eq_ok,
          Screened.pure_eq_ok] at screened
        obtain ⟨_, -, _, rules, rfl⟩ := screened
        exact permitted_of_constructedAs permitted (.constructor ⟨id, index⟩) style denotes.symm
          named rules

theorem permitted_of_reached (distinct : session.store.DistinctNames)
    (mem : candidate ∈ Event.items (session.reached session.walked session.kept)) :
    session.Permitted candidate := by
  simp only [reached, Event.items_append, Event.items_map_tick, Event.items_replicate_rejected,
    List.nil_append] at mem
  split at mem
  · rw [expandAllocations, Event.items_flatMap, List.mem_flatMap] at mem
    obtain ⟨type, listed, mem⟩ := mem
    have permitted := permitted_of_kept distinct listed
    rw [Event.items_tick] at mem
    split at mem
    next id symbol => exact permitted_of_storedAllocations permitted symbol mem
    next => exact List.mem_singleton.mp mem ▸ permitted
  · rw [Event.items_map_found] at mem
    exact permitted_of_kept distinct mem

/-! ## The class path -/

/-- A fact that passes its screening is permitted, with the access of the fact. -/
theorem permitted_of_screenFact {known : KnownTypes} {fact : TypeFact} {placed : Placed}
    (screened : session.screenFact known fact = .ok placed) :
    session.Permitted placed.candidate ∧ placed.candidate.access = placed.fact.access := by
  simp only [screenFact, Screened.bind_eq_ok, Screened.requireOr_eq_ok, Screened.require_eq_ok,
    Screened.pure_eq_ok] at screened
  obtain ⟨_, -, _, allowed, nameMatch, -, _, -, _, rules, rfl⟩ := screened
  refine ⟨⟨rules, fun _ member => ?_, fun name denotes => ?_, fun _ => rfl⟩, rfl⟩
  · simp [Candidate.isMember] at member
  · cases denotes
    simpa using allowed

/-- How a type is written is not part of its profile. -/
theorem profile_written (placed : Placed) : placed.written.profile = placed.candidate.profile := by
  unfold Placed.written
  split <;> rfl

/-- The stricter of two verdicts that pass is one that passes. -/
theorem admitAccess_strictest {first second : Access} {modifiers others : Modifiers}
    (hfirst : session.admitAccess first modifiers = .ok ())
    (hsecond : session.admitAccess second others = .ok ()) :
    session.admitAccess (first.strictest second) modifiers = .ok () := by
  rw [admitAccess_eq_ok] at hfirst hsecond ⊢
  refine ⟨fun checks strict => ?_, fun checks strict => ?_, hfirst.2.2⟩
  · exact (Access.strictest_eq_nonAccessible.mp strict).elim (hfirst.1 checks) (hsecond.1 checks)
  · exact (Access.eq_discouraged_of_strictest strict).elim (hfirst.2.1 checks)
      (hsecond.2.1 checks)

/-- The same for the constructors of a type of the index. -/
theorem permitted_of_indexedAllocations {type : Candidate} {fact : TypeFact}
    {constructors : List ConstructorFact} (permitted : session.Permitted type)
    (symbol : type.symbol = .indexedType fact) (access : type.access = fact.access)
    (declared : ∀ constructor ∈ constructors, constructor.declaring.name = fact.name)
    (mem : candidate ∈ Event.items (session.indexedAllocations type fact constructors)) :
    session.Permitted candidate := by
  have denotes : session.store.typeName? type = some fact.name := by
    simp only [Store.typeName?, symbol]
  have named : (session.store.typeName? type).isSome := by simp [denotes]
  have made : ∀ style, session.Permitted (type.constructedAs (.indexedType fact) style) :=
    fun style => permitted_of_constructedAs permitted (.indexedType fact) style denotes.symm named
      permitted.rules
  unfold indexedAllocations at mem
  split at mem
  next => exact absurd mem List.not_mem_nil
  next => exact List.mem_singleton.mp mem ▸ permitted
  next style _ =>
    dsimp only at mem
    split at mem
    · exact List.mem_singleton.mp mem ▸ made style
    · refine permitted_of_withFallback mem (fun found => ?_) ?_
      · rw [Event.items_flatMap, List.mem_flatMap] at found
        obtain ⟨constructor, listed, screened⟩ := found
        simp only [Screened.mem_items_events, screenIndexedConstructor, Screened.bind_eq_ok,
          Screened.pure_eq_ok] at screened
        obtain ⟨_, -, _, rules, rfl⟩ := screened
        refine permitted_of_constructedAs permitted (.indexedConstructor constructor) style ?_ named
          (admitAccess_strictest rules (access ▸ permitted.rules))
        rw [denotes, ← declared constructor listed]
        rfl
      · split
        · exact made style
        · exact permitted

/-- All types of the index were screened as facts. -/
theorem permitted_of_searchTypes {known : KnownTypes}
    (mem : candidate ∈ Event.items (session.searchTypes known)) : session.Permitted candidate := by
  rw [items_searchTypes, Placed.settle_eq_map, List.mem_flatMap] at mem
  obtain ⟨settled, listed, mem⟩ := mem
  obtain ⟨placed, hplaced, rfl⟩ := List.mem_map.mp listed
  obtain ⟨sameFact, sameCandidate⟩ := placed.sameType_settled known (session.placedTypes known)
  obtain ⟨fact, -, screened⟩ := mem_placedTypes.mp hplaced
  have places := (screenFact_eq_ok screened).2
  have profile := profile_written (placed.settled known (session.placedTypes known))
  rw [sameCandidate] at profile
  obtain ⟨passed, access⟩ := permitted_of_screenFact screened
  have permitted := passed.congr profile
  unfold placedCandidates at mem
  split at mem
  · refine permitted_of_indexedAllocations permitted ?_ ?_ ?_ mem
    · rw [Placed.symbol_written, sameCandidate, sameFact, places.symbol]
    · rw [sameFact, ← access]
      exact congrArg (·.2.2.2.2) profile
    · intro constructor found
      exact beq_iff_eq.mp (List.mem_filter.mp found).2
  · exact List.mem_singleton.mp mem ▸ permitted

/-- Packages have no access and belong to no class. -/
theorem permitted_of_searchPackages (mem : candidate ∈ Event.items session.searchPackages) :
    session.Permitted candidate := by
  simp only [searchPackages, Event.items_flatMap, Screened.items_step, List.mem_flatMap,
    Screened.mem_items_events] at mem
  obtain ⟨package, -, screened⟩ := mem
  unfold screenPackage at screened
  split at screened
  next => exact absurd screened Screened.throw_ne_ok
  next =>
    simp only [Screened.bind_eq_ok, Screened.pure_eq_ok] at screened
    obtain ⟨nameMatch, -, rfl⟩ := screened
    exact permitted_of_undeclared rfl rfl (by simp [undeclaredModifiers]) rfl (by simp)

/-! ## All proposals -/

/-- Whatever is offered has passed the filters. -/
theorem permitted_of_offered (distinct : session.store.DistinctNames)
    (mem : candidate ∈ session.offered) : session.Permitted candidate := by
  unfold offered at mem
  split at mem
  · exact absurd mem List.not_mem_nil
  · rw [List.mem_append, List.mem_append, List.mem_ite_nil_right, List.mem_ite_nil_right] at mem
    rcases mem with (mem | ⟨-, mem⟩) | ⟨-, mem⟩
    · exact permitted_of_reached distinct mem
    · exact permitted_of_searchTypes mem
    · exact permitted_of_searchPackages mem

/-- Fields and methods are proposed for members only. -/
theorem isMember_of_ofCandidate
    (kind : ProposalKind.ofCandidate candidate = .field ∨
      ProposalKind.ofCandidate candidate = .method) : candidate.isMember = true := by
  cases own : candidate.kind <;> simp_all [ProposalKind.ofCandidate, Candidate.isMember]
  split at kind <;> simp at kind

theorem namesType_of_ofCandidate
    (kind : ProposalKind.ofCandidate candidate = .type ∨
      ProposalKind.ofCandidate candidate = .constructor ∨
      ProposalKind.ofCandidate candidate = .anonymousClass) :
    candidate.kind = .type ∨ candidate.kind = .constructor := by
  cases own : candidate.kind <;> simp_all [ProposalKind.ofCandidate]

/-- No filter that is on lets through what it filters, at any site and from any source, whether the
request is cancelled or not. -/
theorem proposals_pass_enabled_filters (distinct : session.store.DistinctNames)
    (ignores : ProposalKind → Bool) (signal : Signal) :
    ∀ proposal ∈ (session.run ignores signal).proposals,
      (session.options.checkDeprecation = true →
        proposal.modifiers.contains .deprecated = false) ∧
      (session.options.checkForbidden = true → proposal.access ≠ .nonAccessible) ∧
      (session.options.checkDiscouraged = true → proposal.access ≠ .discouraged) ∧
      ∃ candidate ∈ session.shown ignores, proposal = session.proposal candidate ∧
        (session.options.checkVisibility = true →
          proposal.kind = .field ∨ proposal.kind = .method →
          ∀ owner, candidate.declaring = some owner →
            session.store.isMemberVisible owner proposal.modifiers session.view = true) ∧
        (proposal.kind = .type ∨ proposal.kind = .constructor ∨ proposal.kind = .anonymousClass →
          ∃ name, session.store.typeName? candidate = some name ∧
            ∀ id ∈ session.request.forbidden, session.store.name? id ≠ some name) := by
  intro proposal mem
  obtain ⟨candidate, shown, rfl⟩ :=
    List.mem_map.mp ((session.proposals_run_initial ignores signal).mem mem)
  have permitted := permitted_of_offered distinct (List.mem_filter.mp shown).1
  obtain ⟨forbidden, discouraged, deprecated⟩ := admitAccess_eq_ok.mp permitted.rules
  refine ⟨deprecated, forbidden, discouraged, candidate, shown, rfl, fun checks kind => ?_,
    fun kind => ?_⟩
  · exact permitted.visible checks (isMember_of_ofCandidate kind)
  · obtain ⟨name, denotes⟩ :=
      Option.isSome_iff_exists.mp (permitted.named (namesType_of_ofCandidate kind))
    exact ⟨name, denotes, forbidsName_eq_false.mp (permitted.allowed name denotes)⟩

/-- Behind the dot of an object, with deprecated members hidden. -/
theorem finalize_is_filtered :
    CoreLibrary.store.DistinctNames ∧
    ∀ proposal ∈ (({ overCore "" (.memberAccess (.plain .object) none) with
        options := { checkDeprecation := true, checkVisibility := false } } : Session).run
          (fun _ => false) fun _ _ => false).proposals,
      proposal.modifiers.contains .deprecated = false := by
  have distinct : CoreLibrary.store.DistinctNames := by decide +kernel
  refine ⟨distinct, fun proposal mem => ?_⟩
  exact (proposals_pass_enabled_filters distinct _ _ proposal mem).1 rfl

end Session

end Completion

end CodeAssist
