import CodeAssist.Proofs.Completion.Delivery
import CodeAssist.Proofs.Completion.ScopeWalk
import CodeAssist.Proofs.Completion.Shadowing
import CodeAssist.Proofs.Completion.TypeSearch
import Mathlib.Data.List.Nodup
/-!
# What a type name means

No type is proposed twice, and no simple name is given to two types, whether they come from the walk
or from the class path. What ties the two together is a *holder*: a function that says which type a
simple name belongs to. `TypeNames` says that types have different full names and that the ones
written without a qualifier hold their simple names; two of them cannot hold the same one.

The holder is the register of claims, which only grows, or behind a qualifier the qualifier itself.
A type without a container is written with its simple name even if another type holds it, so nothing
is said of these.
-/

namespace CodeAssist.Completion

variable {store : Store} {holder : String → Option QualifiedName} {types : List Candidate}

/-- The types of a list have different names, and those written without a qualifier hold their
simple names. -/
structure TypeNames (store : Store) (holder : String → Option QualifiedName)
    (types : List Candidate) : Prop where
  held : ∀ candidate ∈ types, ∃ name, store.typeName? candidate = some name ∧
    candidate.name = name.simple ∧
    (candidate.qualifier = none → 2 ≤ name.length → holder candidate.name = some name)
  distinct : (types.map store.typeName?).Nodup

namespace TypeNames

theorem nil (store : Store) (holder : String → Option QualifiedName) :
    TypeNames store holder [] := ⟨by simp, by simp⟩

/-- More claims on other names do no harm. -/
theorem mono {wider : String → Option QualifiedName} (names : TypeNames store holder types)
    (grows : ∀ simple owner, holder simple = some owner → wider simple = some owner) :
    TypeNames store wider types := by
  refine ⟨fun candidate mem => ?_, names.distinct⟩
  obtain ⟨name, denotes, simple, held⟩ := names.held candidate mem
  exact ⟨name, denotes, simple, fun bare nested => grows _ _ (held bare nested)⟩

/-- Types with different full names may be put together, if both lists keep to the same holders. -/
theorem append {more : List Candidate} (names : TypeNames store holder types)
    (others : TypeNames store holder more)
    (apart : ∀ candidate ∈ types, ∀ other ∈ more,
      store.typeName? candidate ≠ store.typeName? other) :
    TypeNames store holder (types ++ more) := by
  refine ⟨fun candidate mem => ?_, ?_⟩
  · exact (List.mem_append.mp mem).elim (names.held candidate) (others.held candidate)
  · rw [List.map_append, List.nodup_append]
    refine ⟨names.distinct, others.distinct, ?_⟩
    intro name hname other hother same
    obtain ⟨first, hfirst, rfl⟩ := List.mem_map.mp hname
    obtain ⟨second, hsecond, rfl⟩ := List.mem_map.mp hother
    exact apart first hfirst second hsecond same

/-- Two types do not share their full names, nor, if both are written without a qualifier, their
simple names. -/
theorem pairwise (names : TypeNames store holder types) :
    types.Pairwise fun first second => ∃ a b, store.typeName? first = some a ∧
      store.typeName? second = some b ∧ a ≠ b ∧
      (2 ≤ a.length → 2 ≤ b.length → a.simple = b.simple →
        first.qualifier.isSome ∨ second.qualifier.isSome) := by
  have distinct := names.distinct
  rw [List.Nodup, List.pairwise_map] at distinct
  refine distinct.imp_of_mem fun {first second} hfirst hsecond differ => ?_
  obtain ⟨a, ha, simpleA, heldA⟩ := names.held first hfirst
  obtain ⟨b, hb, simpleB, heldB⟩ := names.held second hsecond
  rw [ha, hb, ne_eq, Option.some.injEq] at differ
  refine ⟨a, b, ha, hb, differ, fun nestedA nestedB same => ?_⟩
  cases qualifierA : first.qualifier with
  | some _ => exact .inl rfl
  | none =>
    cases qualifierB : second.qualifier with
    | some _ => exact .inr rfl
    | none =>
      have held := heldA qualifierA nestedA
      rw [simpleA, same, ← simpleB, heldB qualifierB nestedB] at held
      exact absurd (Option.some.inj held).symm differ

end TypeNames

/-! ## The walk -/

/-- The types among candidates. -/
def typesOf (candidates : List Candidate) : List Candidate :=
  candidates.filter fun candidate => candidate.kind == .type

@[simp] theorem typesOf_append (first second : List Candidate) :
    typesOf (first ++ second) = typesOf first ++ typesOf second := List.filter_append _ _

/-- Other candidates count for nothing. -/
theorem typesOf_eq_nil {candidates : List Candidate}
    (others : ∀ candidate ∈ candidates, candidate.kind ≠ .type) : typesOf candidates = [] :=
  List.filter_eq_nil_iff.mpr fun candidate mem => by simpa using others candidate mem

theorem typesOf_eq_self {candidates : List Candidate}
    (types : ∀ candidate ∈ candidates, candidate.kind = .type) : typesOf candidates = candidates :=
  List.filter_eq_self.mpr fun candidate mem => by simpa using types candidate mem

namespace Session

variable {session : Session} {state : KnownTypes × List Candidate} {candidate : Candidate}

/-- Members come and go without touching types. -/
theorem typesOf_addMember (member : candidate.isMember = true) (kept : List Candidate) :
    typesOf (session.addMember kept candidate) = typesOf kept := by
  refine filter_kind_addMember (fun kind => kind == .type) ?_ kept
  cases kind : candidate.kind <;> simp_all [Candidate.isMember]

/-- A candidate that is no type changes nothing for types. -/
theorem addCandidate_of_ne_type (session : Session) (state : KnownTypes × List Candidate)
    (other : candidate.kind ≠ .type) :
    (session.addCandidate state candidate).1 = state.1 ∧
      typesOf (session.addCandidate state candidate).2 = typesOf state.2 := by
  unfold addCandidate
  split
  next kind => exact absurd kind other
  next kind => exact ⟨rfl, typesOf_addMember (by simp [Candidate.isMember, kind]) _⟩
  next kind => exact ⟨rfl, typesOf_addMember (by simp [Candidate.isMember, kind]) _⟩
  next => exact ⟨rfl, by simp [typesOf, other]⟩

/-- The types that stay are known, and those written without a qualifier hold their simple names. -/
structure Registered (session : Session) (state : KnownTypes × List Candidate) : Prop where
  names : TypeNames session.store state.1.claimant? (typesOf state.2)
  known : ∀ candidate ∈ typesOf state.2, ∀ name, session.store.typeName? candidate = some name →
    state.1.contains name = true

namespace Registered

/-- A type that was not known is registered and stays, if it holds its simple name or is
qualified. -/
theorem register (registered : session.Registered state) (written : Candidate)
    {name : QualifiedName} (fresh : state.1.contains name = false) (kind : written.kind = .type)
    (denotes : session.store.typeName? written = some name) (simple : written.name = name.simple)
    (held : written.qualifier = none → 2 ≤ name.length →
      ((state.1.insert name).claim written.name name).claimant? written.name = some name) :
    session.Registered ((state.1.insert name).claim written.name name, state.2 ++ [written]) := by
  have grown : typesOf (state.2 ++ [written]) = typesOf state.2 ++ [written] := by
    simp [typesOf, kind]
  constructor
  · rw [grown]
    refine (registered.names.mono fun simple owner held => ?_).append ⟨?_, by simp⟩ ?_
    · exact KnownTypes.claimant?_claim_of_some (by simpa using held) _ _
    · intro other mem
      obtain rfl := List.mem_singleton.mp mem
      exact ⟨name, denotes, simple, held⟩
    · intro earlier mem other hother same
      rw [List.mem_singleton.mp hother, denotes] at same
      rw [registered.known earlier mem name same] at fresh
      exact absurd fresh (by decide)
  · intro other mem otherName otherDenotes
    rw [KnownTypes.contains_claim, KnownTypes.contains_insert]
    rw [grown] at mem
    rcases List.mem_append.mp mem with mem | mem
    · rw [registered.known other mem otherName otherDenotes, Bool.true_or]
    · rw [List.mem_singleton.mp mem, denotes] at otherDenotes
      simp [Option.some.inj otherDenotes]

/-- Adding a type registers it and claims its simple name. -/
theorem addType {id : ClassId} {definition : ClassDef} (registered : session.Registered state)
    (stored : session.StoredType candidate id definition) :
    session.Registered (session.addType state.1 state.2 candidate) := by
  have denotes := stored.typeName?
  unfold Session.addType
  rw [denotes]
  dsimp only
  split
  · exact registered
  next fresh =>
    have fresh : state.1.contains definition.name = false := by simpa using fresh
    split
    next holds =>
      refine registered.register candidate fresh stored.kind denotes stored.name fun _ _ => ?_
      simpa [KnownTypes.holds] using holds
    next =>
      have qualified (nested : 2 ≤ definition.name.length) :
          fullQualifier definition.name ≠ none := by
        rw [fullQualifier, ne_eq, Option.map_eq_none_iff, ← ne_eq, ← Option.isSome_iff_ne_none]
        exact QualifiedName.parent?_isSome nested
      exact registered.register (candidate.qualifiedBy (fullQualifier definition.name)) fresh
        stored.kind denotes stored.name fun bare nested => absurd bare (qualified nested)

/-- The step: adding a candidate keeps the register. -/
theorem addCandidate (registered : session.Registered state)
    (stored : candidate.kind = .type →
      ∃ id definition, session.StoredType candidate id definition) :
    session.Registered (session.addCandidate state candidate) := by
  by_cases kind : candidate.kind = .type
  · obtain ⟨id, definition, stored⟩ := stored kind
    have added : session.addCandidate state candidate =
        session.addType state.1 state.2 candidate := by
      simp [Session.addCandidate, kind]
    exact added ▸ registered.addType stored
  · obtain ⟨known, types⟩ := session.addCandidate_of_ne_type state kind
    exact ⟨known ▸ types ▸ registered.names,
      fun other mem => known ▸ registered.known other (types ▸ mem)⟩

/-- The run: the register of the candidates that stay. -/
theorem foldl (registered : session.Registered state) (candidates : List Candidate)
    (stored : ∀ candidate ∈ candidates, candidate.kind = .type →
      ∃ id definition, session.StoredType candidate id definition) :
    session.Registered (candidates.foldl session.addCandidate state) := by
  induction candidates generalizing state with
  | nil => exact registered
  | cons candidate candidates ih =>
    exact ih (registered.addCandidate (stored candidate List.mem_cons_self))
      fun other mem => stored other (List.mem_cons_of_mem _ mem)

end Registered

/-- A type that a walk over scopes finds is stored. -/
theorem Reached.storedType (reached : session.Reached candidate) (kind : candidate.kind = .type) :
    ∃ id definition, session.StoredType candidate id definition := by
  cases reached with
  | binding other => exact absurd (kind.symm.trans other) (by decide)
  | member rooted =>
    obtain ⟨declaration, standsFor⟩ := rooted.standsFor
    have member := standsFor.isMember
    simp [Candidate.isMember, kind] at member
  | type stored => exact ⟨_, _, stored⟩

/-- Types are proposed as such: at a bare name, where a type has to stand, and behind the dot of a
type or package. Behind `new` they stand for their constructors. -/
def NamesTypes (session : Session) : Prop :=
  session.request.site = .name ∨ session.request.site = .typeReference ∨
    (∃ id, session.request.site = .staticAccess id) ∨
    ∃ qualifier, session.request.site = .qualifiedName qualifier

/-- Where types are named, the walk finds stored types only. -/
theorem storedType_of_walked (site : session.NamesTypes) :
    ∀ candidate ∈ session.walked, candidate.kind = .type →
      ∃ id definition, session.StoredType candidate id definition := by
  intro candidate mem kind
  have reached : session.Reached candidate := by
    rcases site with site | site | ⟨id, site⟩ | ⟨qualifier, site⟩ <;>
      simp only [walked, walk, site] at mem
    · rw [Event.items_append, List.mem_append] at mem
      rcases mem with mem | mem
      · exact walkScopes_found (fun _ inside => inside) candidate mem
      · exact absurd (kind.symm.trans (kind_of_mem_keywords mem)) (by decide)
    · exact walkScopes_found (fun _ inside => inside) candidate mem
    · simp only [staticAccess, Event.items_append, List.mem_append, Event.items_map_found,
        Option.mem_toList] at mem
      rcases mem with (mem | mem) | mem
      · obtain ⟨visit, visited, declaration, nameMatch, passes, rfl⟩ := mem_items_members.mp mem
        cases declaration <;> simp [Declaration.candidate] at kind
      · obtain ⟨_, _, stored⟩ := storedType_of_memberTypes mem
        exact .type stored
      · exact absurd (kind.symm.trans (kind_of_keyword? mem)) (by decide)
    · exact absurd mem List.not_mem_nil
  exact reached.storedType kind

/-- If the types of the walk are stored, those that stay hold their simple names, or are
qualified. -/
theorem registered_of_stored (stored : ∀ candidate ∈ session.walked, candidate.kind = .type →
      ∃ id definition, session.StoredType candidate id definition) :
    session.Registered (session.known, session.kept) := by
  have start : session.Registered ({}, []) := ⟨.nil _ _, by simp [typesOf]⟩
  have registered := start.foldl session.walked stored
  obtain ⟨change, rewrites, kept⟩ := session.exists_rewrites session.walked
  generalize gathered : session.walked.foldl session.addCandidate ({}, []) = state at *
  have known : session.known = state.1 := by rw [Session.known, resolve_known, gathered]
  have types : typesOf session.kept = (typesOf state.2).map change := by
    have kinds : (fun candidate : Candidate => candidate.kind == .type) ∘ change =
        fun candidate => candidate.kind == .type :=
      funext fun candidate => by simp [(rewrites.same candidate).kind]
    rw [Session.kept, kept, typesOf, List.filter_map, kinds, typesOf]
  have denoted : ∀ candidate, session.store.typeName? (change candidate) =
      session.store.typeName? candidate := fun candidate => by
    simp only [Store.typeName?, (rewrites.same candidate).symbol]
  constructor
  · rw [types, known]
    refine ⟨fun candidate mem => ?_, ?_⟩
    · obtain ⟨original, horiginal, rfl⟩ := List.mem_map.mp mem
      obtain ⟨name, denotes, simple, held⟩ := registered.names.held original horiginal
      have type : original.kind = .type := by simpa [typesOf] using (List.mem_filter.mp horiginal).2
      have other : original.isMember = false := by simp [Candidate.isMember, type]
      refine ⟨name, (denoted original).trans denotes,
        (rewrites.same original).name.trans simple, fun bare nested => ?_⟩
      rw [rewrites.other original other] at bare
      rw [(rewrites.same original).name]
      exact held bare nested
    · rw [List.map_map, Function.comp_def]
      simpa only [denoted] using registered.names.distinct
  · intro candidate mem name denotes
    rw [types] at mem
    obtain ⟨original, horiginal, rfl⟩ := List.mem_map.mp mem
    rw [known]
    exact registered.known original horiginal name ((denoted original).symm.trans denotes)

/-- All types that the resolution keeps are registered. -/
theorem registered_kept (site : session.NamesTypes) :
    session.Registered (session.known, session.kept) :=
  registered_of_stored (storedType_of_walked site)

/-! ## The class path -/

/-- Once the names are settled, types of the index that are written alone hold their simple
names. -/
theorem typeNames_settle {known : KnownTypes} {holder : String → Option QualifiedName}
    (held : ∀ placed ∈ session.placedTypes known,
      (placed.settled known (session.placedTypes known)).written.qualifier = none →
      2 ≤ placed.name.length → holder placed.simpleName = some placed.name) :
    TypeNames session.store holder
      ((Placed.settle known (session.placedTypes known)).map Placed.written) := by
  have denotes : ∀ placed ∈ session.placedTypes known, session.store.typeName?
      (placed.settled known (session.placedTypes known)).written = some placed.name := by
    intro placed mem
    rw [Store.typeName?, Placed.symbol_written, (placed.sameType_settled _ _).2,
      (places_of_mem mem).symbol]
    rfl
  have named : ∀ placed ∈ session.placedTypes known,
      (placed.settled known (session.placedTypes known)).written.name = placed.simpleName := by
    intro placed mem
    rw [Placed.name_written, (placed.sameType_settled _ _).2, (places_of_mem mem).name]
  rw [Placed.settle_eq_map, List.map_map]
  refine ⟨fun candidate mem => ?_, ?_⟩
  · obtain ⟨placed, hplaced, rfl⟩ := List.mem_map.mp mem
    refine ⟨placed.name, denotes placed hplaced, (named placed hplaced).trans ?_,
      fun bare nested => ?_⟩
    · exact (QualifiedName.simple_child _ _).symm
    · rw [Function.comp_apply, named placed hplaced]
      exact held placed hplaced bare nested
  · have names := (session.nodup_placedTypes known).map fun _ _ => Option.some.inj
    have same : (session.placedTypes known).map (session.store.typeName? ∘ Placed.written ∘
        Placed.settled known (session.placedTypes known)) =
        (session.placedTypes known).map (some ∘ Placed.name) := List.map_congr_left denotes
    rw [List.map_map] at names ⊢
    rwa [same]

/-- Without a qualifier, the class path is written on top of what the walk has claimed. -/
theorem typeNames_claimed (site : session.request.site.qualifier? = none) (known : KnownTypes) :
    TypeNames session.store
      (Placed.claimAll known (Placed.separate (session.placedTypes known))).claimant?
      ((Placed.settle known (session.placedTypes known)).map Placed.written) := by
  refine typeNames_settle fun placed mem bare nested => Placed.holds_of_isBare_settled ?_
  have name : (placed.settled known (session.placedTypes known)).name = placed.name := by
    rw [Placed.name, (placed.sameType_settled _ _).1, Placed.name]
  refine Placed.isBare_of_qualifier_written (fun below => ?_) (name ▸ nested) bare
  have placement := (places_of_mem mem).placement
  simp only [site, Option.isSome_none, Bool.false_eq_true, ↓reduceIte] at placement
  exact Placement.ofFact_ne_belowQualifier _ _ _
    (placement.symm.trans (Placed.placement_of_settled_below below))

/-- Behind a qualifier, all types have the qualifier for their container. -/
theorem typeNames_below {qualifier : QualifiedName}
    (site : session.request.site = .qualifiedName qualifier) (known : KnownTypes) :
    TypeNames session.store (fun simple => some (qualifier.child simple))
      ((Placed.settle known (session.placedTypes known)).map Placed.written) := by
  refine typeNames_settle fun placed mem _ _ => ?_
  obtain ⟨fact, found, screened⟩ := mem_placedTypes.mp mem
  obtain ⟨rfl, -⟩ := screenFact_eq_ok screened
  have listed := mem_of_mem_uniqueNames found
  simp only [foundConstructors, site, reduceCtorEq, ↓reduceIte, List.map_nil, List.append_nil,
    Index.findTypes, List.mem_filter, Index.TypeQuery.accepts, typeQuery, Site.qualifier?,
    Option.all_some, Bool.and_eq_true, beq_iff_eq] at listed
  rw [← listed.2.1]
  rfl

/-! ## All types together -/

theorem NamesTypes.ne_allocation (site : session.NamesTypes) :
    session.request.site ≠ .allocation := by
  rcases site with site | site | ⟨id, site⟩ | ⟨qualifier, site⟩ <;> simp [site]

theorem typesOf_offered (site : session.NamesTypes) :
    typesOf session.offered = typesOf session.kept ++
      if session.searchesTypes then
        (Placed.settle session.known (session.placedTypes session.known)).map Placed.written
      else [] := by
  have notNothing : session.request.site ≠ .nothing := by
    rcases site with site | site | ⟨id, site⟩ | ⟨qualifier, site⟩ <;> simp [site]
  have packages : typesOf (if session.searchesPackages then Event.items session.searchPackages
      else []) = [] := by
    refine typesOf_eq_nil fun candidate mem => ?_
    obtain ⟨-, mem⟩ := List.mem_ite_nil_right.mp mem
    simp [kind_of_mem_searchPackages mem]
  have types : typesOf (if session.searchesTypes then
      Event.items (session.searchTypes session.known) else []) =
      if session.searchesTypes then
        (Placed.settle session.known (session.placedTypes session.known)).map Placed.written
      else [] := by
    split
    · rw [typesOf_eq_self fun candidate => kind_of_mem_searchTypes site.ne_allocation,
        items_searchTypes_of_ne site.ne_allocation]
    · rfl
  simp only [offered, if_neg notNothing, items_reached site.ne_allocation, typesOf_append, types,
    packages, List.append_nil]

/-- The types of the walk and those of the class path are apart. -/
theorem typeNames_together (site : session.NamesTypes)
    (unqualified : session.request.site.qualifier? = none) :
    TypeNames session.store
      (Placed.claimAll session.known
        (Placed.separate (session.placedTypes session.known))).claimant?
      (typesOf session.kept ++
        (Placed.settle session.known (session.placedTypes session.known)).map Placed.written) := by
  have registered := registered_kept site
  refine (registered.names.mono fun simple owner held => ?_).append
    (typeNames_claimed unqualified _) fun earlier mem candidate hcandidate same => ?_
  · exact Placed.claimant?_claimAll held _
  · rw [Placed.settle_eq_map, List.map_map] at hcandidate
    obtain ⟨placed, hplaced, rfl⟩ := List.mem_map.mp hcandidate
    have places := places_of_mem hplaced
    have denotes : session.store.typeName? earlier = some placed.name := by
      rw [same, Function.comp_apply, Store.typeName?, Placed.symbol_written,
        (placed.sameType_settled _ _).2, places.symbol]
      rfl
    have known := registered.known earlier mem placed.name denotes
    exact absurd (known.symm.trans places.fresh) (by decide)

/-- The types that are offered keep to one holder for each simple name. -/
theorem exists_typeNames (site : session.NamesTypes) :
    ∃ holder, TypeNames session.store holder (typesOf session.offered) := by
  rw [typesOf_offered site]
  split
  next searches =>
    rcases site with site | site | ⟨id, site⟩ | ⟨qualifier, site⟩
    · exact ⟨_, typeNames_together (.inl site) (by simp [site, Site.qualifier?])⟩
    · exact ⟨_, typeNames_together (.inr (.inl site)) (by simp [site, Site.qualifier?])⟩
    · simp [searchesTypes, site, Site.wantsTypes] at searches
    · have nothing : typesOf session.kept = [] := by
        simp [Session.kept, walked, walk, site, resolve, qualifyHiddenFields, typesOf]
      rw [nothing, List.nil_append]
      exact ⟨_, typeNames_below site session.known⟩
  next =>
    rw [List.append_nil]
    exact ⟨_, (registered_kept site).names⟩

theorem kind_of_ofCandidate (type : ProposalKind.ofCandidate candidate = .type) :
    candidate.kind = .type := by
  cases kind : candidate.kind with
  | type => rfl
  | constructor =>
    simp only [ProposalKind.ofCandidate, kind] at type
    split at type <;> exact absurd type (by decide)
  | _ => simp [ProposalKind.ofCandidate, kind] at type

/-- No type is proposed twice, and no two types that have a container are both written with the same
simple name alone. -/
theorem type_names_mean_one_type {ignores : ProposalKind → Bool} {signal : Signal}
    (site : session.NamesTypes)
    (completed : (session.run ignores signal).outcome = .completed) :
    (session.run ignores signal).proposals = (session.shown ignores).map session.proposal ∧
    (session.shown ignores).Pairwise fun first second =>
      (session.proposal first).kind = .type → (session.proposal second).kind = .type →
      ∃ a b, session.store.typeName? first = some a ∧ session.store.typeName? second = some b ∧
        a ≠ b ∧ (2 ≤ a.length → 2 ≤ b.length → a.simple = b.simple →
          (session.proposal first).isQualified = true ∨
            (session.proposal second).isQualified = true) := by
  obtain ⟨holder, names⟩ := exists_typeNames site
  refine ⟨proposals_run completed, ((List.pairwise_filter.mp names.pairwise).filter _).imp ?_⟩
  intro first second apart hfirst hsecond
  exact apart (by simpa using kind_of_ofCandidate hfirst)
    (by simpa using kind_of_ofCandidate hsecond)

/-- Two types of the class path with one simple name. -/
theorem list_means_one_type :
    ((overCore "List" .typeReference {} (.build { types :=
      [.topLevel ⟨["java", "util", "List"]⟩, .topLevel ⟨["java", "awt", "List"]⟩] })).shown
        fun _ => false).Pairwise fun first second =>
      ProposalKind.ofCandidate first = .type → ProposalKind.ofCandidate second = .type →
        CoreLibrary.store.typeName? first ≠ CoreLibrary.store.typeName? second := by
  have apart := (type_names_mean_one_type (.inr (.inl rfl)) (run_outcome_of_silent
    (overCore "List" .typeReference {} (.build { types :=
      [.topLevel ⟨["java", "util", "List"]⟩, .topLevel ⟨["java", "awt", "List"]⟩] }))
    (fun _ => false) (fun _ _ => rfl))).2
  refine apart.imp fun different hfirst hsecond same => ?_
  obtain ⟨a, b, ha, hb, differ, -⟩ := different hfirst hsecond
  exact differ (Option.some.inj (ha.symm.trans (same.trans hb)))

end Session

end CodeAssist.Completion
