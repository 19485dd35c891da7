import CodeAssist.Proofs.Completion.WalkedTypes
/-!
# What stands behind `new`

Behind `new` a type is replaced: by its constructors that pass, by itself if none does, or by the
one constructor that an interface or a class without constructors is given.
`storedAllocations_cases` and `indexedAllocations_cases` say all that can become of a type, the one
for the classes of the walk and the other for the types of the class path. Whatever it is, it names
the same type with the same qualifier, and only annotations are left without anything.

So `new` offers the types that a type reference offers, but for annotations. The class path is asked
for constructors as well, and these can bring in types of their own; where every constructor belongs
to a type that the index lists, they do not (`foundTypes_allocation`).
-/

namespace CodeAssist.Completion

/-- A candidate in the place of a type: it names the type and is written with its qualifier. -/
structure Candidate.InPlaceOf (candidate : Candidate) (store : Store) (type : Candidate) :
    Prop where
  kind : candidate.kind = .type ∨ candidate.kind = .constructor
  name : store.typeName? candidate = store.typeName? type
  qualifier : candidate.qualifier = type.qualifier

/-- Only annotation types have no instances to create. -/
theorem AllocationPlan.ofKind_eq_nothing {kind : ClassKind} {isAbstract : Bool} :
    ofKind kind isAbstract = .nothing ↔ kind = .annotationType := by
  cases kind <;> simp [ofKind]

/-- The fallback stands for a stage that finds nothing. -/
@[simp] theorem items_withFallback (fallback : Candidate) (events : List (Event Candidate)) :
    Event.items (withFallback fallback events) =
      if Event.items events = [] then [fallback] else Event.items events := by
  unfold withFallback
  cases found : Event.items events <;> simp [found]

namespace Session

variable {session : Session} {type candidate : Candidate}

/-! ## One type -/

/-- The constructors of a stored class that pass. -/
def passingConstructors (session : Session) (type : Candidate) (id : ClassId)
    (definition : ClassDef) (style : AllocationStyle) : List Candidate :=
  definition.constructors.zipIdx.filterMap fun (constructor, index) =>
    (session.screenConstructor type id definition.access style constructor index).toOption

/-- The constructors of a type of the index that pass. -/
def passingIndexed (session : Session) (type : Candidate) (fact : TypeFact)
    (style : AllocationStyle) (constructors : List ConstructorFact) : List Candidate :=
  constructors.filterMap fun constructor =>
    (session.screenIndexedConstructor type fact style constructor).toOption

/-- A class of the walk is replaced by nothing, by one candidate, or by its constructors. -/
theorem storedAllocations_cases {id : ClassId} {definition : ClassDef}
    (stored : session.store.class? id = some definition) (symbol : type.symbol = .type id)
    (kind : type.kind = .type) :
    definition.kind = .annotationType ∧ Event.items (session.storedAllocations type id) = [] ∨
    definition.kind ≠ .annotationType ∧
      ((∃ candidate, Event.items (session.storedAllocations type id) = [candidate] ∧
          candidate.InPlaceOf session.store type) ∨
        ∃ style, session.passingConstructors type id definition style ≠ [] ∧
          Event.items (session.storedAllocations type id) =
            session.passingConstructors type id definition style) := by
  have itself : type.InPlaceOf session.store type := ⟨.inl kind, rfl, rfl⟩
  simp only [storedAllocations, stored]
  cases plan : AllocationPlan.ofKind definition.kind definition.isAbstract with
  | nothing => exact .inl ⟨AllocationPlan.ofKind_eq_nothing.mp plan, rfl⟩
  | typeOnly =>
    refine .inr ⟨fun same => ?_, .inl ⟨type, rfl, itself⟩⟩
    simp [AllocationPlan.ofKind_eq_nothing.mpr same] at plan
  | constructors style =>
    refine .inr ⟨fun same => ?_, ?_⟩
    · simp [AllocationPlan.ofKind_eq_nothing.mpr same] at plan
    · dsimp only
      split
      · refine .inl ⟨type.constructedAs (.type id) style, rfl, .inr rfl, ?_, rfl⟩
        simp only [Store.typeName?, symbol, Candidate.constructedAs]
      · rw [items_withFallback, Screened.items_flatMap_events definition.constructors.zipIdx
          fun (constructor, index) =>
            session.screenConstructor type id definition.access style constructor index]
        split
        · exact .inl ⟨type, rfl, itself⟩
        next some => exact .inr ⟨style, some, rfl⟩

/-- A type of the class path is replaced by nothing, by one candidate, or by its constructors. -/
theorem indexedAllocations_cases (session : Session) {fact : TypeFact}
    (symbol : type.symbol = .indexedType fact) (kind : type.kind = .type)
    (constructors : List ConstructorFact) :
    fact.kind = .annotationType ∧
      Event.items (session.indexedAllocations type fact constructors) = [] ∨
    fact.kind ≠ .annotationType ∧
      ((∃ candidate, Event.items (session.indexedAllocations type fact constructors) =
          [candidate] ∧ candidate.InPlaceOf session.store type) ∨
        ∃ style, session.passingIndexed type fact style constructors ≠ [] ∧
          Event.items (session.indexedAllocations type fact constructors) =
            session.passingIndexed type fact style constructors) := by
  have itself : type.InPlaceOf session.store type := ⟨.inl kind, rfl, rfl⟩
  have made : ∀ style, (type.constructedAs (.indexedType fact) style).InPlaceOf session.store
      type := by
    intro style
    refine ⟨.inr rfl, ?_, rfl⟩
    simp only [Store.typeName?, symbol, Candidate.constructedAs]
  simp only [indexedAllocations]
  cases plan : AllocationPlan.ofKind fact.kind fact.isAbstract with
  | nothing => exact .inl ⟨AllocationPlan.ofKind_eq_nothing.mp plan, rfl⟩
  | typeOnly =>
    refine .inr ⟨fun same => ?_, .inl ⟨type, rfl, itself⟩⟩
    simp [AllocationPlan.ofKind_eq_nothing.mpr same] at plan
  | constructors style =>
    refine .inr ⟨fun same => ?_, ?_⟩
    · simp [AllocationPlan.ofKind_eq_nothing.mpr same] at plan
    · dsimp only
      split
      · exact .inl ⟨_, rfl, made style⟩
      · rw [items_withFallback, Screened.items_flatMap_events]
        split
        · refine .inl ⟨_, rfl, ?_⟩
          split
          · exact made style
          · exact itself
        next some => exact .inr ⟨style, some, rfl⟩

/-- Constructors stand in the place of their class. -/
theorem inPlaceOf_of_passingConstructors {id : ClassId} {definition : ClassDef}
    {style : AllocationStyle} (symbol : type.symbol = .type id)
    (mem : candidate ∈ session.passingConstructors type id definition style) :
    candidate.InPlaceOf session.store type := by
  obtain ⟨⟨constructor, index⟩, -, screened⟩ := List.mem_filterMap.mp mem
  simp only [Screened.toOption_eq_some, screenConstructor, Screened.bind_eq_ok,
    Screened.pure_eq_ok] at screened
  obtain ⟨_, -, _, -, rfl⟩ := screened
  refine ⟨.inr rfl, ?_, rfl⟩
  simp only [Store.typeName?, symbol, Candidate.constructedAs]

theorem inPlaceOf_of_passingIndexed {fact : TypeFact} {style : AllocationStyle}
    {constructors : List ConstructorFact} (symbol : type.symbol = .indexedType fact)
    (declared : ∀ constructor ∈ constructors, constructor.declaring.name = fact.name)
    (mem : candidate ∈ session.passingIndexed type fact style constructors) :
    candidate.InPlaceOf session.store type := by
  obtain ⟨constructor, listed, screened⟩ := List.mem_filterMap.mp mem
  simp only [Screened.toOption_eq_some, screenIndexedConstructor, Screened.bind_eq_ok,
    Screened.pure_eq_ok] at screened
  obtain ⟨_, -, _, -, rfl⟩ := screened
  refine ⟨.inr rfl, ?_, rfl⟩
  simp only [Store.typeName?, symbol, Candidate.constructedAs, declared constructor listed]

/-! ## The types of a request -/

/-- The type that a candidate names, and the qualifier it is written with. -/
def mention (session : Session) (candidate : Candidate) : Option QualifiedName × Option String :=
  (session.store.typeName? candidate, candidate.qualifier)

/-- What stands for a type mentions that type. -/
theorem mention_of_inPlaceOf (stands : candidate.InPlaceOf session.store type) :
    session.mention candidate = session.mention type := by
  simp only [mention, stands.name, stands.qualifier]

/-- Whether a candidate stands for an annotation. -/
def isAnnotationType (session : Session) (candidate : Candidate) : Bool :=
  match candidate.symbol with
  | .type id => (session.store.class? id).any fun definition => definition.kind == .annotationType
  | .indexedType fact => fact.kind == .annotationType
  | _ => false

/-- Candidates replace a type: all of them stand in its place, and only an annotation is left
without any. -/
structure Replaces (session : Session) (block : List Candidate) (type : Candidate) : Prop where
  stands : ∀ candidate ∈ block, candidate.InPlaceOf session.store type
  empty : block = [] ↔ session.isAnnotationType type = true

/-- A stored type is replaced by its constructors, or by itself if none of them passes. -/
theorem replaces_storedAllocations (session : Session) {id : ClassId} {definition : ClassDef}
    (stored : session.store.class? id = some definition) (symbol : type.symbol = .type id)
    (kind : type.kind = .type) :
    session.Replaces (Event.items (session.storedAllocations type id)) type := by
  have annotated : session.isAnnotationType type = true ↔ definition.kind = .annotationType := by
    simp [isAnnotationType, symbol, stored]
  rcases storedAllocations_cases stored symbol kind with
    ⟨same, nothing⟩ | ⟨other, ⟨candidate, one, stands⟩ | ⟨style, some, constructors⟩⟩
  · rw [nothing]
    exact ⟨by simp, by simp [annotated, same]⟩
  · rw [one]
    exact ⟨by simpa using stands, by simp [annotated, other]⟩
  · rw [constructors]
    exact ⟨fun _ mem => inPlaceOf_of_passingConstructors symbol mem,
      by simp [annotated, other, some]⟩

/-- A type of the index is replaced in the same way. -/
theorem replaces_indexedAllocations {fact : TypeFact} (symbol : type.symbol = .indexedType fact)
    (kind : type.kind = .type) {constructors : List ConstructorFact}
    (declared : ∀ constructor ∈ constructors, constructor.declaring.name = fact.name) :
    session.Replaces (Event.items (session.indexedAllocations type fact constructors)) type := by
  have annotated : session.isAnnotationType type = true ↔ fact.kind = .annotationType := by
    simp [isAnnotationType, symbol]
  rcases session.indexedAllocations_cases symbol kind constructors with
    ⟨same, nothing⟩ | ⟨other, ⟨candidate, one, stands⟩ | ⟨style, some, passing⟩⟩
  · rw [nothing]
    exact ⟨by simp, by simp [annotated, same]⟩
  · rw [one]
    exact ⟨by simpa using stands, by simp [annotated, other]⟩
  · rw [passing]
    exact ⟨fun _ mem => inPlaceOf_of_passingIndexed symbol declared mem,
      by simp [annotated, other, some]⟩

/-- Blocks that replace types mention the types that are no annotations, and no other. -/
theorem mentions_flatMap {α : Type} {things : List α} {type : α → Candidate}
    {block : α → List Candidate}
    (replaces : ∀ thing ∈ things, session.Replaces (block thing) (type thing))
    (mentioned : Option QualifiedName × Option String) :
    (∃ candidate ∈ things.flatMap block, (candidate.kind = .type ∨ candidate.kind = .constructor) ∧
        session.mention candidate = mentioned) ↔
      ∃ thing ∈ things, session.isAnnotationType (type thing) = false ∧
        session.mention (type thing) = mentioned := by
  constructor
  · rintro ⟨candidate, mem, -, same⟩
    obtain ⟨thing, hthing, mem⟩ := List.mem_flatMap.mp mem
    have stands := (replaces thing hthing).stands candidate mem
    refine ⟨thing, hthing, Bool.eq_false_iff.mpr fun annotated => ?_, ?_⟩
    · exact List.ne_nil_of_mem mem ((replaces thing hthing).empty.mpr annotated)
    · exact (mention_of_inPlaceOf stands).symm.trans same
  · rintro ⟨thing, hthing, other, same⟩
    have some : block thing ≠ [] := by
      rw [ne_eq, (replaces thing hthing).empty, other]
      exact Bool.false_ne_true
    obtain ⟨candidate, mem⟩ := List.exists_mem_of_ne_nil _ some
    have stands := (replaces thing hthing).stands candidate mem
    exact ⟨candidate, List.mem_flatMap.mpr ⟨thing, hthing, mem⟩, stands.kind,
      (mention_of_inPlaceOf stands).trans same⟩

/-! ## The same request at another site -/

/-- The same request at another site. -/
def atSite (session : Session) (site : Site) : Session :=
  { session with request := { session.request with site } }

theorem walkScopes_atSite (session : Session) (site : Site) (mode : WalkMode) (staticOnly : Bool)
    (seen : List String) (scopes : List Scope) :
    (session.atSite site).walkScopes mode staticOnly seen scopes =
      session.walkScopes mode staticOnly seen scopes := by
  induction scopes generalizing staticOnly seen with
  | nil => rfl
  | cons scope outer ih =>
    rw [walkScopes, walkScopes, ← ih]
    rfl

/-- The walk for `new` is the walk for a type. -/
theorem walked_allocation (session : Session) :
    (session.atSite .allocation).walked = (session.atSite .typeReference).walked := by
  have walk : ∀ site, Event.items ((session.atSite site).walkScopes .types false []
      (session.atSite site).scopes) =
      Event.items (session.walkScopes .types false [] session.scopes) := by
    intro site
    rw [walkScopes_atSite]
    rfl
  exact (walk .allocation).trans (walk .typeReference).symm

theorem resolve_allocation (session : Session) (candidates : List Candidate) :
    (session.atSite .allocation).resolve candidates =
      (session.atSite .typeReference).resolve candidates := by
  simp only [resolve, atSite, reduceCtorEq, decide_false, Bool.and_false, Bool.false_eq_true,
    ↓reduceIte]
  rfl

theorem known_allocation (session : Session) :
    (session.atSite .allocation).known = (session.atSite .typeReference).known := by
  rw [known, known, walked_allocation, resolve_allocation]

/-- What stays of it is the same as well. -/
theorem kept_allocation (session : Session) :
    (session.atSite .allocation).kept = (session.atSite .typeReference).kept := by
  rw [kept, kept, walked_allocation, resolve_allocation]

/-- What stays of the walk of a type reference are types of stored classes. -/
theorem storedType_of_kept (session : Session) (site : session.request.site = .typeReference)
    (mem : candidate ∈ session.kept) :
    candidate.kind = .type ∧ ∃ id definition, candidate.symbol = .type id ∧
      session.store.class? id = some definition := by
  obtain ⟨walked, hwalked, same⟩ := exists_walked_of_kept mem
  simp only [Candidate.profile, Prod.mk.injEq] at same
  have kind := kind_of_walkScopes_types (walked_typeReference site ▸ hwalked)
  obtain ⟨id, definition, stored⟩ := storedType_of_walked (.inr (.inl site)) walked hwalked kind
  exact ⟨same.1.trans kind, id, definition, same.2.1.trans stored.symbol, stored.stored⟩

/-! ## Both sites -/

/-- The search for types finds the type of every constructor that the search for constructors
finds. -/
theorem foundTypes_allocation (session : Session)
    (listed : ∀ constructor ∈ session.index.constructors,
      ∃ type ∈ session.index.types, type.name = constructor.declaring.name) :
    (session.atSite .allocation).foundTypes = (session.atSite .typeReference).foundTypes := by
  show uniqueNames (session.index.findTypes _ ++
      (session.index.findConstructors _).map ConstructorFact.declaring) =
    uniqueNames (session.index.findTypes _ ++ [])
  rw [List.append_nil]
  apply uniqueNames_append_of_mem
  intro declaring mem
  obtain ⟨constructor, found, rfl⟩ := List.mem_map.mp mem
  simp only [Index.findConstructors, List.mem_filter] at found
  obtain ⟨type, htype, same⟩ := listed constructor found.1.1
  obtain ⟨container, simpleName⟩ := QualifiedName.child_inj.mp same
  refine List.mem_map.mpr ⟨type, ?_, same⟩
  simp only [Index.findTypes, List.mem_filter, Index.TypeQuery.accepts, container, simpleName]
  exact ⟨⟨htype, found.1.2⟩, found.2⟩

/-- The class path is placed in the same way at both sites. -/
theorem placedTypes_allocation (session : Session)
    (listed : ∀ constructor ∈ session.index.constructors,
      ∃ type ∈ session.index.types, type.name = constructor.declaring.name)
    (known : KnownTypes) :
    (session.atSite .allocation).placedTypes known =
      (session.atSite .typeReference).placedTypes known := by
  rw [placedTypes_eq, placedTypes_eq, foundTypes_allocation session listed]
  rfl

/-- What replaces a candidate of the walk behind `new`. -/
def replacements (session : Session) (type : Candidate) : List Candidate :=
  match type.symbol with
  | .type id => Event.items (session.storedAllocations type id)
  | _ => [type]

/-- What replaces a type of the class path behind `new`. -/
def indexedReplacements (session : Session) (placed : Placed) : List Candidate :=
  Event.items (session.indexedAllocations placed.written placed.fact
    (session.foundConstructors.filter fun fact => fact.declaring.name == placed.name))

/-- For `new`, each kept type is replaced where it stands. -/
theorem items_reached_allocation (site : session.request.site = .allocation)
    (walked kept : List Candidate) :
    Event.items (session.reached walked kept) = kept.flatMap session.replacements := by
  simp only [reached, site, expandAllocations, ↓reduceIte, Event.items_append,
    Event.items_map_tick, Event.items_replicate_rejected, Event.items_flatMap, Event.items_tick,
    List.nil_append]
  congr 1
  funext type
  unfold replacements
  cases type.symbol <;> rfl

theorem offered_allocation (site : session.request.site = .allocation) :
    session.offered = session.kept.flatMap session.replacements ++
      if session.searchesTypes then
        (Placed.settle session.known (session.placedTypes session.known)).flatMap
          session.indexedReplacements
      else [] := by
  have packages : session.searchesPackages = false := by
    simp [searchesPackages, site, Site.wantsPackages]
  simp only [offered, items_reached_allocation site, packages, items_searchTypes, placedCandidates,
    site, reduceCtorEq, ↓reduceIte, Bool.false_eq_true, List.append_nil]
  rfl

/-- The types that a type reference offers are those of the walk that stay and those of the class
path that are settled. -/
theorem types_offered_typeReference (site : session.request.site = .typeReference) :
    typesOf session.offered = session.kept ++
      if session.searchesTypes then
        (Placed.settle session.known (session.placedTypes session.known)).map Placed.written
      else [] := by
  rw [typesOf_offered (.inr (.inl site)),
    typesOf_eq_self fun _ mem => (session.storedType_of_kept site mem).1]

/-- The types of the walk are replaced behind `new`. -/
theorem replaces_replacements (session : Session) :
    ∀ type ∈ (session.atSite .typeReference).kept,
      session.Replaces ((session.atSite .allocation).replacements type) type := by
  intro type mem
  obtain ⟨kind, id, definition, symbol, stored⟩ :=
    (session.atSite .typeReference).storedType_of_kept rfl mem
  have replaces := (session.atSite .allocation).replaces_storedAllocations stored symbol kind
  rw [replacements, symbol]
  exact ⟨replaces.stands, replaces.empty⟩

/-- The types of the class path are replaced behind `new`. -/
theorem replaces_indexedReplacements (session : Session) (known : KnownTypes) :
    ∀ placed ∈ Placed.settle known (session.placedTypes known),
      session.Replaces (session.indexedReplacements placed) placed.written := by
  intro settled mem
  rw [Placed.settle_eq_map] at mem
  obtain ⟨placed, hplaced, rfl⟩ := List.mem_map.mp mem
  obtain ⟨fact, candidate⟩ := placed.sameType_settled known (session.placedTypes known)
  have places := places_of_mem hplaced
  refine replaces_indexedAllocations ?_ ?_ fun constructor found => ?_
  · rw [Placed.symbol_written, candidate, fact, places.symbol]
  · rw [Placed.kind_written, candidate, places.kind]
  · exact beq_iff_eq.mp (List.mem_filter.mp found).2

/-- The types that `new` mentions are those that a type reference offers, but for annotations. -/
theorem mentions_offered (session : Session)
    (listed : ∀ constructor ∈ session.index.constructors,
      ∃ type ∈ session.index.types, type.name = constructor.declaring.name)
    (mentioned : Option QualifiedName × Option String) :
    (∃ candidate ∈ (session.atSite .allocation).offered,
        (candidate.kind = .type ∨ candidate.kind = .constructor) ∧
          session.mention candidate = mentioned) ↔
      ∃ candidate ∈ typesOf (session.atSite .typeReference).offered,
        session.isAnnotationType candidate = false ∧ session.mention candidate = mentioned := by
  have searches : (session.atSite .allocation).searchesTypes =
      (session.atSite .typeReference).searchesTypes := rfl
  have classPath := mentions_flatMap
    ((session.atSite .allocation).replaces_indexedReplacements (session.atSite .allocation).known)
    mentioned
  have walk := mentions_flatMap session.replaces_replacements mentioned
  rw [known_allocation, placedTypes_allocation session listed] at classPath
  rw [offered_allocation rfl, types_offered_typeReference rfl, kept_allocation, known_allocation,
    placedTypes_allocation session listed, searches]
  simp only [List.mem_append, or_and_right (a := _ ∈ _), exists_or]
  refine or_congr walk ?_
  cases (session.atSite .typeReference).searchesTypes with
  | false => simp
  | true =>
    simp only [↓reduceIte, List.mem_map, exists_exists_and_eq_and]
    exact classPath

/-- Types and constructors are proposed as such and as nothing else. -/
theorem ofCandidate_mem_types_iff :
    ProposalKind.ofCandidate candidate ∈ [.type, .constructor, .anonymousClass] ↔
      candidate.kind = .type ∨ candidate.kind = .constructor := by
  cases kind : candidate.kind with
  | constructor =>
    simp only [ProposalKind.ofCandidate, kind]
    split <;> simp
  | _ => simp [ProposalKind.ofCandidate, kind]

/-- Behind `new` the same types are proposed as where a type has to stand, by themselves or by their
constructors and with the same qualifiers, but for annotations. -/
theorem new_offers_the_types_of_a_type_reference {signal other : Signal}
    (listed : ∀ constructor ∈ session.index.constructors,
      ∃ type ∈ session.index.types, type.name = constructor.declaring.name)
    (made : ((session.atSite .allocation).run (fun _ => false) signal).outcome = .completed)
    (referred : ((session.atSite .typeReference).run (fun _ => false) other).outcome =
      .completed) :
    ((session.atSite .allocation).run (fun _ => false) signal).proposals =
      (session.atSite .allocation).offered.map (session.atSite .allocation).proposal ∧
    ((session.atSite .typeReference).run (fun _ => false) other).proposals =
      (session.atSite .typeReference).offered.map (session.atSite .typeReference).proposal ∧
    ∀ name qualification,
      (∃ candidate ∈ (session.atSite .allocation).offered,
        ((session.atSite .allocation).proposal candidate).kind ∈
          [.type, .constructor, .anonymousClass] ∧
        session.store.typeName? candidate = name ∧
        ((session.atSite .allocation).proposal candidate).qualification = qualification) ↔
      ∃ candidate ∈ (session.atSite .typeReference).offered,
        ((session.atSite .typeReference).proposal candidate).kind = .type ∧
        session.isAnnotationType candidate = false ∧
        session.store.typeName? candidate = name ∧
        ((session.atSite .typeReference).proposal candidate).qualification = qualification := by
  have all : ∀ session : Session, (session.shown fun _ => false) = session.offered := by
    simp [shown]
  refine ⟨(proposals_run made).trans (by rw [all]), (proposals_run referred).trans (by rw [all]),
    fun name qualification => ?_⟩
  have mentions := session.mentions_offered listed (name, qualification)
  simp only [mention, Prod.mk.injEq, typesOf, List.mem_filter, beq_iff_eq, and_assoc] at mentions
  have type : ∀ candidate, ProposalKind.ofCandidate candidate = .type ↔ candidate.kind = .type := by
    intro candidate
    refine ⟨kind_of_ofCandidate, fun kind => ?_⟩
    rw [ProposalKind.ofCandidate, kind]
  simp only [proposal, Proposal.ofCandidate, ofCandidate_mem_types_iff, type]
  exact mentions

/-- A request over a class path with one type, whose only constructor is private. -/
def overHiddenConstructor : Session :=
  let list := TypeFact.topLevel ⟨["java", "util", "ArrayList"]⟩
  { overCore "ArrayL" .allocation {} (.build
      { types := [list], constructors := [{ declaring := list, modifiers := .private }] }) with
    options := { checkVisibility := true } }

/-- The type is offered although its constructor is hidden. -/
theorem hidden_constructor_keeps_its_type :
    ∃ candidate ∈ (overHiddenConstructor.atSite .allocation).offered,
      ((overHiddenConstructor.atSite .allocation).proposal candidate).kind ∈
        [.type, .constructor, .anonymousClass] ∧
      overHiddenConstructor.store.typeName? candidate = some ⟨["java", "util", "ArrayList"]⟩ ∧
      ((overHiddenConstructor.atSite .allocation).proposal candidate).qualification =
        some "java.util" := by
  have agree := (new_offers_the_types_of_a_type_reference (by decide)
    (run_outcome_of_silent (overHiddenConstructor.atSite .allocation) _ fun _ _ => rfl)
    (run_outcome_of_silent (overHiddenConstructor.atSite .typeReference) _ fun _ _ => rfl)).2.2
  exact (agree _ _).mpr (by decide +kernel)

end Session

end CodeAssist.Completion
