import CodeAssist.Proofs.Completion.Contention
import CodeAssist.Proofs.Completion.Identity
/-!
# Drafts

A request first comes to a *draft*: the candidates of the walk that stay, and the types of the class
path as they are to be written. Behind `new` each type of the draft is then replaced by what stands
in its place, and elsewhere the draft is what is offered (`offered_eq`).

What stands in the place of a type does not depend on how the type is written
(`unspelled_expanded`).
-/

namespace CodeAssist.Completion

/-- A change of what a screening lets through is a change of what it finds. -/
theorem Screened.items_map_events {α : Type} (screened : Screened α) (change : α → α) :
    Event.items (Screened.events (screened.map change)) =
      (Event.items screened.events).map change := by
  cases screened with
  | ok item => rfl
  | error reason => cases reason <;> rfl

/-- A change that is made to the fallback, too, is a change of all that is found. -/
theorem items_withFallback_map {change : Candidate → Candidate} {fallback : Candidate}
    {events changed : List (Event Candidate)}
    (items : Event.items changed = (Event.items events).map change) :
    Event.items (withFallback (change fallback) changed) =
      (Event.items (withFallback fallback events)).map change := by
  rw [items_withFallback, items_withFallback, items]
  simp only [List.map_eq_nil_iff]
  split <;> rfl

/-- Writing a type of the class path only decides its spelling. -/
theorem Placed.unspelled_written (placed : Placed) :
    placed.written.unspelled = placed.candidate.unspelled := by
  unfold written
  split <;> rfl

namespace Session

variable {session : Session} {candidate type other : Candidate}

/-- The types of the class path, as they are written. -/
def writtenTypes (session : Session) : List Candidate :=
  if session.searchesTypes then
    (Placed.settle session.known (session.placedTypes session.known)).map Placed.written
  else []

/-- The candidates of a request before types are replaced. -/
def drafted (session : Session) : List Candidate := session.kept ++ session.writtenTypes

/-- What is offered for a candidate of the draft. -/
def expanded (session : Session) (candidate : Candidate) : List Candidate :=
  if session.request.site = .allocation then
    match candidate.symbol with
    | .type id => Event.items (session.storedAllocations candidate id)
    | .indexedType fact =>
      Event.items (session.indexedAllocations candidate fact
        (session.foundConstructors.filter fun constructor =>
          constructor.declaring.name == fact.name))
    | _ => [candidate]
  else [candidate]

/-- Outside `new` a candidate stands for itself. -/
theorem expanded_of_ne (site : session.request.site ≠ .allocation) (candidate : Candidate) :
    session.expanded candidate = [candidate] := if_neg site

/-! ## The types of a draft -/

/-- A type that stays of the walk is that of a stored class. -/
theorem type_of_kept (mem : candidate ∈ session.kept) (kind : candidate.kind = .type) :
    ∃ id definition, candidate.symbol = .type id ∧ session.store.class? id = some definition ∧
      session.store.typeName? candidate = some definition.name ∧
      definition.name.simple = candidate.name := by
  have listed : candidate ∈ typesOf session.kept :=
    List.mem_filter.mpr ⟨mem, beq_iff_eq.mpr kind⟩
  obtain ⟨name, denotes, simple, -⟩ := session.registered_walk.names.held candidate listed
  rcases walks_of_kept mem with member | ⟨-, id, definition, symbol, stored⟩ | ⟨word, -⟩
  · simp [Candidate.isMember, kind] at member
  · have own : session.store.typeName? candidate = some definition.name := by
      rw [Store.typeName?, symbol]
      simp [Store.name?, stored]
    obtain rfl := Option.some.inj (denotes.symm.trans own)
    exact ⟨id, definition, symbol, stored, own, simple.symm⟩
  · simp [kind, CandidateKind.isWord] at word

/-- A settled type of the class path, as it is written. -/
theorem written_of_settled {known : KnownTypes} {placed : Placed}
    (mem : placed ∈ session.placedTypes known) (all : List Placed) :
    (placed.settled known all).written.kind = .type ∧
      (placed.settled known all).written.symbol = .indexedType placed.fact ∧
      (placed.settled known all).written.unspelled = placed.candidate.unspelled ∧
      session.store.typeName? (placed.settled known all).written = some placed.name ∧
      placed.name.simple = (placed.settled known all).written.name := by
  have places := places_of_mem mem
  obtain ⟨-, same⟩ := placed.sameType_settled known all
  have symbol : (placed.settled known all).written.symbol = .indexedType placed.fact := by
    rw [Placed.symbol_written, same, places.symbol]
  refine ⟨?_, symbol, ?_, ?_, ?_⟩
  · rw [Placed.kind_written, same, places.kind]
  · rw [Placed.unspelled_written, same]
  · rw [Store.typeName?, symbol]
    rfl
  · rw [Placed.name_written, same, places.name]
    exact QualifiedName.simple_child ..

/-- The types of the class path are written as the whole list of them settles it. -/
theorem mem_writtenTypes :
    candidate ∈ session.writtenTypes ↔ session.searchesTypes = true ∧
      ∃ placed ∈ session.placedTypes session.known,
        (placed.settled session.known (session.placedTypes session.known)).written = candidate := by
  rw [writtenTypes, List.mem_ite_nil_right, Placed.settle_eq_map, List.map_map, List.mem_map]
  rfl

/-- Behind `new` a draft consists of types. -/
theorem kind_of_drafted (site : session.request.site = .allocation)
    (mem : candidate ∈ session.drafted) : candidate.kind = .type := by
  rcases List.mem_append.mp mem with mem | mem
  · exact kind_of_kept_allocation site candidate mem
  · obtain ⟨-, placed, hplaced, rfl⟩ := mem_writtenTypes.mp mem
    exact (written_of_settled hplaced _).1

/-! ## What is offered -/

theorem replacements_eq_expanded (site : session.request.site = .allocation)
    (mem : candidate ∈ session.kept) :
    session.replacements candidate = session.expanded candidate := by
  obtain ⟨id, -, symbol, -⟩ := type_of_kept mem (kind_of_kept_allocation site candidate mem)
  rw [replacements, expanded, if_pos site, symbol]

theorem indexedReplacements_eq_expanded (site : session.request.site = .allocation)
    {known : KnownTypes} {placed : Placed} (mem : placed ∈ session.placedTypes known)
    (all : List Placed) :
    session.indexedReplacements (placed.settled known all) =
      session.expanded (placed.settled known all).written := by
  obtain ⟨fact, -⟩ := placed.sameType_settled known all
  rw [indexedReplacements, expanded, if_pos site, (written_of_settled mem all).2.1, Placed.name,
    fact]

/-- What is offered are the packages and what stands for the candidates of the draft. -/
theorem offered_eq (site : session.request.site ≠ .nothing) :
    session.offered = session.drafted.flatMap session.expanded ++
      if session.searchesPackages then Event.items session.searchPackages else [] := by
  rw [drafted, List.flatMap_append, writtenTypes]
  by_cases new : session.request.site = .allocation
  · have packages : session.searchesPackages = false := by
      simp [searchesPackages, new, Site.wantsPackages]
    have kept : session.kept.flatMap session.replacements =
        session.kept.flatMap session.expanded :=
      List.flatMap_congr fun _ mem => replacements_eq_expanded new mem
    rw [offered_allocation new, packages, kept, Placed.settle_eq_map]
    simp only [Bool.false_eq_true, ↓reduceIte, List.append_nil, List.append_cancel_left_eq]
    split
    · simp only [List.flatMap_map]
      exact List.flatMap_congr fun _ mem => indexedReplacements_eq_expanded new mem _
    · rfl
  · simp only [offered, if_neg site, items_reached new, items_searchTypes_of_ne new,
      funext (expanded_of_ne new), List.flatMap_singleton']

/-- What is offered for a type stands in its place. -/
theorem inPlaceOf_of_expanded (mem : type ∈ session.drafted) (kind : type.kind = .type)
    (made : candidate ∈ session.expanded type) : candidate.InPlaceOf session.store type := by
  by_cases site : session.request.site = .allocation
  swap
  · rw [expanded_of_ne site, List.mem_singleton] at made
    subst made
    exact ⟨.inl kind, rfl, rfl⟩
  rcases List.mem_append.mp mem with mem | mem
  · obtain ⟨id, definition, symbol, stored, -⟩ := type_of_kept mem kind
    rw [expanded, if_pos site, symbol] at made
    exact (session.replaces_storedAllocations stored symbol kind).stands candidate made
  · obtain ⟨-, placed, hplaced, rfl⟩ := mem_writtenTypes.mp mem
    have symbol := (written_of_settled hplaced (session.placedTypes session.known)).2.1
    rw [expanded, if_pos site, symbol] at made
    refine (replaces_indexedAllocations symbol kind fun constructor listed => ?_).stands
      candidate made
    exact beq_iff_eq.mp (List.mem_filter.mp listed).2

/-! ## Spelling -/

/-- Whether a stored constructor is let through does not depend on the spelling of its type. -/
theorem screenConstructor_unspelled (session : Session) (type : Candidate) (id : ClassId)
    (access : Access) (style : AllocationStyle) (constructor : Constructor) (index : Nat) :
    session.screenConstructor type.unspelled id access style constructor index =
      (session.screenConstructor type id access style constructor index).map
        Candidate.unspelled := by
  simp only [screenConstructor]
  cases Screened.requireOr .invisible _ with
  | error reason => rfl
  | ok _ => cases session.admitAccess _ _ <;> rfl

theorem screenIndexedConstructor_unspelled (session : Session) (type : Candidate) (fact : TypeFact)
    (style : AllocationStyle) (constructor : ConstructorFact) :
    session.screenIndexedConstructor type.unspelled fact style constructor =
      (session.screenIndexedConstructor type fact style constructor).map
        Candidate.unspelled := by
  simp only [screenIndexedConstructor]
  cases Screened.requireOr .invisible _ with
  | error reason => rfl
  | ok _ => cases session.admitAccess _ _ <;> rfl

/-- The constructors offered for a stored class do not depend on its spelling. -/
theorem storedAllocations_unspelled (session : Session) (type : Candidate) (id : ClassId) :
    Event.items (session.storedAllocations type.unspelled id) =
      (Event.items (session.storedAllocations type id)).map Candidate.unspelled := by
  unfold storedAllocations
  split
  next => rfl
  next definition _ =>
    split
    next => rfl
    next => rfl
    next style _ =>
      split
      next => rfl
      next =>
        refine items_withFallback_map ?_
        simp only [Event.items_flatMap, screenConstructor_unspelled, Screened.items_map_events,
          List.map_flatMap]

theorem indexedAllocations_unspelled (session : Session) (type : Candidate) (fact : TypeFact)
    (constructors : List ConstructorFact) :
    Event.items (session.indexedAllocations type.unspelled fact constructors) =
      (Event.items (session.indexedAllocations type fact constructors)).map
        Candidate.unspelled := by
  unfold indexedAllocations
  split
  next => rfl
  next => rfl
  next style _ =>
    dsimp only
    split
    next => rfl
    next =>
      rw [← items_withFallback_map]
      · split <;> rfl
      · simp only [Event.items_flatMap, screenIndexedConstructor_unspelled,
          Screened.items_map_events, List.map_flatMap]

/-- What stands in the place of a type does not depend on how the type is written. -/
theorem unspelled_expanded (session : Session) (candidate : Candidate) :
    session.expanded candidate.unspelled =
      (session.expanded candidate).map Candidate.unspelled := by
  have symbol : candidate.unspelled.symbol = candidate.symbol := rfl
  unfold expanded
  rw [symbol]
  split
  · split
    · exact session.storedAllocations_unspelled candidate _
    · exact session.indexedAllocations_unspelled candidate _ _
    · rfl
  · rfl

/-- Candidates that differ in their spelling alone are of one kind, and have one profile. -/
theorem profile_of_unspelled (store : Store) (same : candidate.unspelled = other.unspelled) :
    candidate.kind = other.kind ∧ candidate.profile = other.profile ∧
      store.typeName? candidate = store.typeName? other := by
  have profile : candidate.unspelled.profile = other.unspelled.profile := congrArg _ same
  have name : store.typeName? candidate.unspelled = store.typeName? other.unspelled :=
    congrArg _ same
  exact ⟨congrArg Prod.fst profile, profile, name⟩

/-- Types that differ in their spelling alone are replaced by what differs in its spelling alone. -/
theorem exists_expanded_of_unspelled (same : other.unspelled = type.unspelled)
    (made : candidate ∈ session.expanded type) :
    ∃ twin ∈ session.expanded other, twin.unspelled = candidate.unspelled := by
  have listed : candidate.unspelled ∈ (session.expanded type).map Candidate.unspelled :=
    List.mem_map_of_mem made
  rw [← unspelled_expanded, ← same, unspelled_expanded] at listed
  exact List.mem_map.mp listed

end Session

end CodeAssist.Completion
