import CodeAssist.Proofs.Completion.Drafts
import CodeAssist.Proofs.Completion.Hiding
import CodeAssist.Proofs.Completion.IndexOrder
/-!
# What hidden candidates make way for

With an option switched on that hides candidates, a request proposes no more than before, except
where something hidden contended with what is proposed. Filters come before everything else: what is
hidden overrides nothing, claims no simple name and makes no import ambiguous.

* A hidden type with the simple name of another changes at most how the other is written
  (`HidesNamesake`), as for the two lists of `importingTwoLists`.
* New are only members in the place of a hidden one (`HidesMember`), a type or its constructors in
  the place of a hidden type with the same full name (`HidesType`), and behind `new` a type in the
  place of its hidden constructors (`HidesConstructor`).

The first three are about the draft of a request, source by source (`kept_hidingBy` for the walk,
`writtenTypes_hidingBy` for the class path), and the last is about what replaces a type of the draft
(`expanded_hidingBy`). Nothing is said of what is proposed without the option and not with it.
-/

namespace CodeAssist.Completion.Session

variable {session : Session} {option : HidingOption} {candidate type : Candidate}

/-! ## The class path -/

theorem typeQuery_hidingBy (session : Session) (option : HidingOption) :
    (session.hidingBy option).typeQuery = session.typeQuery := by
  unfold typeQuery
  rw [matching_hidingBy]
  rfl

theorem foundConstructors_hidingBy (session : Session) (option : HidingOption) :
    (session.hidingBy option).foundConstructors = session.foundConstructors := by
  unfold foundConstructors
  rw [typeQuery_hidingBy]
  rfl

/-- The index is asked the same, so it finds the same types. -/
theorem foundTypes_hidingBy (session : Session) (option : HidingOption) :
    (session.hidingBy option).foundTypes = session.foundTypes := by
  unfold foundTypes
  rw [typeQuery_hidingBy, foundConstructors_hidingBy]
  rfl

theorem searchPackages_hidingBy (session : Session) (option : HidingOption) :
    (session.hidingBy option).searchPackages = session.searchPackages := by
  have screenPackage : (session.hidingBy option).screenPackage = session.screenPackage := by
    funext depth package
    simp only [Session.screenPackage, matchName_hidingBy]
  unfold searchPackages
  rw [matching_hidingBy, screenPackage]
  rfl

/-- A type of the index passes with the option if it passes without and is not hidden, provided
that it is known in both cases or in neither. -/
theorem screenFact_hidingBy {known later : KnownTypes} {fact : TypeFact} {placed : Placed}
    (same : later.contains fact.name = known.contains fact.name) :
    (session.hidingBy option).screenFact later fact = .ok placed ↔
      session.screenFact known fact = .ok placed ∧
        option.hides placed.candidate = false := by
  have unit : (session.hidingBy option).unit = session.unit := rfl
  have forbids : (session.hidingBy option).forbidsName = session.forbidsName := rfl
  have denoted : (session.hidingBy option).denotedType = session.denotedType := rfl
  have request : (session.hidingBy option).request = session.request := rfl
  simp only [screenFact, unit, forbids, denoted, request, same, matchName_hidingBy,
    checkVisibility_hidingBy, Screened.bind_eq_ok, Screened.pure_eq_ok, admitAccess_hidingBy]
  constructor
  · rintro ⟨_, fresh, _, allowed, nameMatch, matched, _, visible, _, ⟨admitted, shown⟩, rfl⟩
    exact ⟨⟨(), fresh, (), allowed, nameMatch, matched, (), visible, (), admitted, rfl⟩, shown⟩
  · rintro ⟨⟨_, fresh, _, allowed, nameMatch, matched, _, visible, _, admitted, rfl⟩, shown⟩
    exact ⟨(), fresh, (), allowed, nameMatch, matched, (), visible, (), ⟨admitted, shown⟩, rfl⟩

/-! ## Full names -/

theorem called_filter {name : QualifiedName} (test : Candidate → Bool)
    (candidates : List Candidate) :
    session.called name (candidates.filter test) =
      (session.called name candidates).filter test := by
  simp only [called, typesOf, List.filter_filter, Bool.and_comm, Bool.and_assoc]

/-- Of the types of a full name the walk finds those that are not hidden. -/
theorem called_walked_hidingBy (session : Session) (option : HidingOption) (name : QualifiedName) :
    session.called name (session.hidingBy option).walked =
      (session.called name session.walked).filter fun candidate => !option.hides candidate := by
  rcases session.sifts_walk option with ⟨receiver, member, site⟩ | sifts
  · have members : ∀ other : Session, other.request.site = session.request.site →
        session.called name other.walked = [] := by
      intro other same
      rw [called, typesOf_eq_nil, List.filter_nil]
      intro candidate mem kind
      rw [walked, walk, same, site] at mem
      simpa [Candidate.isMember, kind] using isMember_of_memberAccess mem
    rw [members session rfl, members (session.hidingBy option) rfl, List.filter_nil]
  · rw [walked, sifts.items, called_filter, walked]

/-- If no type of a full name is hidden, the same ones are found. -/
theorem called_walked_of_shown {name : QualifiedName}
    (shown : ∀ hidden ∈ session.called name session.walked, option.hides hidden = false) :
    session.called name (session.hidingBy option).walked = session.called name session.walked := by
  rw [called_walked_hidingBy, List.filter_eq_self]
  intro candidate mem
  rw [shown candidate mem, Bool.not_false]

/-- If no type of a full name is hidden, it is known in both cases or in neither. -/
theorem contains_hidingBy {name : QualifiedName}
    (shown : ∀ hidden ∈ session.called name session.walked, option.hides hidden = false) :
    (session.hidingBy option).known.contains name = session.known.contains name := by
  rw [known, known, resolve_hidingBy, contains_resolve, contains_resolve,
    called_walked_of_shown shown]

/-- If no type of a full name is hidden, the same type of the name stays. -/
theorem called_kept_hidingBy {name : QualifiedName}
    (shown : ∀ hidden ∈ session.called name session.walked, option.hides hidden = false) :
    (session.called name (session.hidingBy option).kept).map Candidate.unspelled =
      (session.called name session.kept).map Candidate.unspelled := by
  rw [kept, kept, resolve_hidingBy, called_resolve, called_resolve, called_walked_of_shown shown]

/-! ## What a hidden candidate makes way for -/

/-- What a request finds before it is decided what stays and how it is written. -/
def discovered (session : Session) : List Candidate :=
  session.walked ++
    if session.searchesTypes then (session.placedTypes session.known).map Placed.candidate else []

/-- The candidate is a type or a constructor, and the option hides a type with the simple name of
its type. -/
def HidesNamesake (session : Session) (option : HidingOption) (candidate : Candidate) : Prop :=
  (candidate.kind = .type ∨ candidate.kind = .constructor) ∧
    ∃ name, session.store.typeName? candidate = some name ∧
      ∃ hidden ∈ session.discovered, option.hides hidden = true ∧
        session.stake hidden = .simpleName name.simple

/-- The candidate is a field or a method, and the option hides one of its kind with its name and,
for methods, its erased parameters. -/
def HidesMember (session : Session) (option : HidingOption) (candidate : Candidate) : Prop :=
  candidate.isMember = true ∧
    ∃ hidden ∈ session.walked, option.hides hidden = true ∧
      session.stake hidden = session.stake candidate

/-- The candidate is a type or a constructor, and the option hides a type with the full name of its
type. -/
def HidesType (session : Session) (option : HidingOption) (candidate : Candidate) : Prop :=
  (candidate.kind = .type ∨ candidate.kind = .constructor) ∧
    ∃ name, session.store.typeName? candidate = some name ∧
      ∃ hidden ∈ session.called name session.walked, option.hides hidden = true

/-- The candidate is a type behind `new`, and the option hides a constructor of it. -/
def HidesConstructor (session : Session) (option : HidingOption) (candidate : Candidate) : Prop :=
  session.request.site = .allocation ∧ candidate.kind = .type ∧
    ∃ hidden ∈ session.offered, option.hides hidden = true ∧ hidden.kind = .constructor ∧
      session.store.typeName? hidden = session.store.typeName? candidate

/-- A candidate that is found with the option on is accounted for by those found without it: it is
one of them, or one of them differs from it in spelling alone, or something hidden is in its way. -/
inductive AccountedFor (session : Session) (option : HidingOption) (others : List Candidate)
    (candidate : Candidate) : Prop where
  | same (mem : candidate ∈ others)
  | respelled (kind : candidate.kind = .type) (hides : session.HidesNamesake option candidate)
    {twin : Candidate} (mem : twin ∈ others) (alike : twin.unspelled = candidate.unspelled)
  | member (hides : session.HidesMember option candidate)
  | type (kind : candidate.kind = .type) (hides : session.HidesType option candidate)

/-- More candidates account for no fewer. -/
theorem AccountedFor.mono {others more : List Candidate}
    (accounted : session.AccountedFor option others candidate)
    (grows : ∀ other ∈ others, other ∈ more) : session.AccountedFor option more candidate := by
  cases accounted with
  | same mem => exact .same (grows _ mem)
  | respelled kind hides mem alike => exact .respelled kind hides (grows _ mem) alike
  | member hides => exact .member hides
  | type kind hides => exact .type kind hides

/-- Only types contend for simple names. -/
theorem kind_of_stake {simple : String} (same : session.stake candidate = .simpleName simple) :
    candidate.kind = .type ∧ candidate.name = simple := by
  unfold stake at same
  split at same <;> simp_all

theorem isMember_of_stake {kind : CandidateKind} {name : String} {signature : Option Signature}
    (same : session.stake candidate = .member kind name signature) :
    candidate.isMember = true := by
  unfold stake at same
  split at same <;> simp_all [Candidate.isMember]

/-- What stays of the walk is accounted for by what stays without the option. -/
theorem kept_hidingBy (mem : candidate ∈ (session.hidingBy option).kept) :
    session.AccountedFor option session.kept candidate := by
  by_cases untouched : session.Untouched option (session.stake candidate)
  · have own : candidate ∈ session.vying (session.stake candidate) (session.hidingBy option).kept :=
      mem_vying.mpr ⟨mem, rfl⟩
    rw [vying_kept_hidingBy untouched] at own
    exact .same (mem_vying.mp own).1
  simp only [Untouched, not_forall, not_not] at untouched
  obtain ⟨hidden, found, hides, same⟩ := untouched
  rcases declared_of_hides found hides with member | type
  · obtain ⟨signature, own⟩ := stake_of_isMember session member
    exact .member ⟨isMember_of_stake (same.symm.trans own), hidden, found, hides, same⟩
  rw [stake_of_type type] at same
  obtain ⟨kind, name⟩ := kind_of_stake same.symm
  obtain ⟨id, definition, -, -, denotes, simple⟩ := type_of_kept mem kind
  by_cases taken : ∃ hidden ∈ session.called definition.name session.walked,
      option.hides hidden = true
  · exact .type kind ⟨.inl kind, definition.name, denotes, taken⟩
  have namesake : session.HidesNamesake option candidate := by
    refine ⟨.inl kind, definition.name, denotes, hidden, List.mem_append_left _ found, hides, ?_⟩
    rw [stake_of_type type, ← name, simple]
  have shown : ∀ hidden ∈ session.called definition.name session.walked,
      option.hides hidden = false := fun hidden mem =>
    Bool.eq_false_iff.mpr fun hides => taken ⟨hidden, mem, hides⟩
  have listed : candidate.unspelled ∈ (session.called definition.name
      (session.hidingBy option).kept).map Candidate.unspelled :=
    List.mem_map_of_mem (mem_called.mpr ⟨mem, kind, denotes⟩)
  rw [called_kept_hidingBy shown] at listed
  obtain ⟨twin, called, alike⟩ := List.mem_map.mp listed
  exact .respelled kind namesake (mem_called.mp called).1 alike

/-- If the class path has no hidden type of a simple name, and nor has the walk, the same types of
the name are placed. -/
theorem named_placedTypes_hidingBy {simple : String}
    (untouched : session.Untouched option (.simpleName simple))
    (shown : ∀ placed ∈ session.placedTypes session.known, placed.simpleName = simple →
      option.hides placed.candidate = false) :
    Placed.named simple
        ((session.hidingBy option).placedTypes (session.hidingBy option).known) =
      Placed.named simple (session.placedTypes session.known) := by
  have contains := (known_hidingBy untouched).2
  rw [placedTypes_eq, placedTypes_eq, foundTypes_hidingBy, Placed.named, Placed.named,
    List.filter_filterMap, List.filter_filterMap]
  refine List.filterMap_congr fun fact found => Option.ext fun placed => ?_
  simp only [Option.filter_eq_some_iff, Screened.toOption_eq_some, beq_iff_eq]
  refine and_congr_left fun own => ?_
  have fits : ∀ {other : Session} {known : KnownTypes},
      other.screenFact known fact = .ok placed → fact.name.simple = simple := by
    intro other known screened
    rw [← (screenFact_eq_ok screened).1, ← own]
    exact QualifiedName.simple_child ..
  constructor
  · intro screened
    exact ((screenFact_hidingBy (contains _ (fits screened))).mp screened).1
  · intro screened
    exact (screenFact_hidingBy (contains _ (fits screened))).mpr
      ⟨screened, shown placed (mem_placedTypes.mpr ⟨fact, found, screened⟩) own⟩

/-- If nothing hidden has the simple name of a type, the type is written in the same way. -/
theorem settled_hidingBy {placed : Placed} (searches : session.searchesTypes = true)
    (alone : ∀ hidden ∈ session.discovered, option.hides hidden = true →
      session.stake hidden ≠ .simpleName placed.simpleName) :
    placed.settled (session.hidingBy option).known
        ((session.hidingBy option).placedTypes (session.hidingBy option).known) =
      placed.settled session.known (session.placedTypes session.known) := by
  have untouched : session.Untouched option (.simpleName placed.simpleName) :=
    fun hidden mem => alone hidden (List.mem_append_left _ mem)
  have shown : ∀ other ∈ session.placedTypes session.known,
      other.simpleName = placed.simpleName → option.hides other.candidate = false := by
    intro other mem own
    have places := places_of_mem mem
    refine Bool.eq_false_iff.mpr fun hides => alone other.candidate ?_ hides ?_
    · rw [discovered, if_pos searches]
      exact List.mem_append_right _ (List.mem_map_of_mem mem)
    · rw [stake_of_type places.kind, places.name, own]
  refine Placed.settled_congr (known_hidingBy untouched).1 ?_ (strict_separate _ _)
  rw [named_placedTypes_hidingBy untouched shown]

/-- What the class path offers is accounted for by what it offers without the option. -/
theorem writtenTypes_hidingBy (mem : candidate ∈ (session.hidingBy option).writtenTypes) :
    session.AccountedFor option session.writtenTypes candidate := by
  obtain ⟨searches, placed, hplaced, rfl⟩ := mem_writtenTypes.mp mem
  have searches : session.searchesTypes = true := searches
  obtain ⟨kind, -, unspelled, denotes, -⟩ := written_of_settled hplaced
    ((session.hidingBy option).placedTypes (session.hidingBy option).known)
  obtain ⟨fact, found, screened⟩ := mem_placedTypes.mp hplaced
  obtain rfl := (screenFact_eq_ok screened).1
  by_cases taken : ∃ hidden ∈ session.called placed.name session.walked, option.hides hidden = true
  · exact .type kind ⟨.inl kind, placed.name, denotes, taken⟩
  have shown : ∀ hidden ∈ session.called placed.name session.walked,
      option.hides hidden = false := fun hidden mem =>
    Bool.eq_false_iff.mpr fun hides => taken ⟨hidden, mem, hides⟩
  have listed : placed ∈ session.placedTypes session.known :=
    mem_placedTypes.mpr ⟨placed.fact, foundTypes_hidingBy session option ▸ found,
      ((screenFact_hidingBy (contains_hidingBy shown)).mp screened).1⟩
  have offered := mem_writtenTypes.mpr ⟨searches, placed, listed, rfl⟩
  by_cases rivalled : ∃ hidden ∈ session.discovered, option.hides hidden = true ∧
      session.stake hidden = .simpleName placed.simpleName
  · obtain ⟨hidden, discovered, hides, same⟩ := rivalled
    obtain ⟨-, -, twin, -⟩ := written_of_settled listed (session.placedTypes session.known)
    refine .respelled kind ⟨.inl kind, placed.name, denotes, hidden, discovered, hides, ?_⟩
      offered (twin.trans unspelled.symm)
    rw [same]
    exact congrArg Stake.simpleName (QualifiedName.simple_child ..).symm
  · rw [settled_hidingBy searches fun hidden mem hides same =>
      rivalled ⟨hidden, mem, hides, same⟩]
    exact .same offered

/-! ## Behind `new` -/

/-- A constructor passes with the option if it passes without it and is not hidden. -/
theorem screenConstructor_hidingBy {id : ClassId} {access : Access} {style : AllocationStyle}
    {constructor : Constructor} {index : Nat} :
    (session.hidingBy option).screenConstructor type id access style constructor index =
        .ok candidate ↔
      session.screenConstructor type id access style constructor index = .ok candidate ∧
        option.hides candidate = false := by
  have store : (session.hidingBy option).store = session.store := rfl
  have view : (session.hidingBy option).view = session.view := rfl
  simp only [screenConstructor, store, view, checkVisibility_hidingBy, Screened.bind_eq_ok,
    Screened.pure_eq_ok, admitAccess_hidingBy]
  constructor
  · rintro ⟨_, visible, _, ⟨admitted, shown⟩, rfl⟩
    exact ⟨⟨(), visible, (), admitted, rfl⟩, shown⟩
  · rintro ⟨⟨_, visible, _, admitted, rfl⟩, shown⟩
    exact ⟨(), visible, (), ⟨admitted, shown⟩, rfl⟩

theorem screenIndexedConstructor_hidingBy {fact : TypeFact} {style : AllocationStyle}
    {constructor : ConstructorFact} :
    (session.hidingBy option).screenIndexedConstructor type fact style constructor =
        .ok candidate ↔
      session.screenIndexedConstructor type fact style constructor = .ok candidate ∧
        option.hides candidate = false := by
  have unit : (session.hidingBy option).unit = session.unit := rfl
  simp only [screenIndexedConstructor, unit, checkVisibility_hidingBy, Screened.bind_eq_ok,
    Screened.pure_eq_ok, admitAccess_hidingBy]
  constructor
  · rintro ⟨_, visible, _, ⟨admitted, shown⟩, rfl⟩
    exact ⟨⟨(), visible, (), admitted, rfl⟩, shown⟩
  · rintro ⟨⟨_, visible, _, admitted, rfl⟩, shown⟩
    exact ⟨(), visible, (), ⟨admitted, shown⟩, rfl⟩

/-- What is lost of a stage with a fallback are hidden candidates, and the fallback is all that can
be gained, in their place. -/
theorem mem_withFallback_of_filter {fallback : Candidate} {loose strict : List (Event Candidate)}
    (items : Event.items strict =
      (Event.items loose).filter fun candidate => !option.hides candidate)
    (mem : candidate ∈ Event.items (withFallback fallback strict)) :
    candidate ∈ Event.items (withFallback fallback loose) ∨
      candidate = fallback ∧ ∃ hidden ∈ Event.items (withFallback fallback loose),
        hidden ∈ Event.items loose ∧ option.hides hidden = true := by
  rw [items_withFallback] at mem ⊢
  split at mem
  next nothing =>
    rw [items, List.filter_eq_nil_iff] at nothing
    rw [List.mem_singleton] at mem
    cases found : Event.items loose with
    | nil => exact .inl (by simpa using mem)
    | cons hidden others =>
      have listed : hidden ∈ Event.items loose := found ▸ List.mem_cons_self
      have hides : option.hides hidden = true := by simpa using nothing hidden listed
      exact .inr ⟨mem, hidden, by simp, List.mem_cons_self, hides⟩
  next some =>
    rw [items] at mem
    have listed := (List.mem_filter.mp mem).1
    rw [if_neg (List.ne_nil_of_mem listed)]
    exact .inl listed

/-- Behind `new` the option can bring in a type of the walk, in the place of its hidden
constructors. -/
theorem mem_storedAllocations_hidingBy {id : ClassId}
    (mem : candidate ∈ Event.items ((session.hidingBy option).storedAllocations type id)) :
    candidate ∈ Event.items (session.storedAllocations type id) ∨
      candidate = type ∧ ∃ hidden ∈ Event.items (session.storedAllocations type id),
        option.hides hidden = true ∧ hidden.kind = .constructor := by
  have store : (session.hidingBy option).store = session.store := rfl
  unfold storedAllocations at mem ⊢
  rw [store] at mem
  split at mem
  next => exact .inl mem
  next definition _ =>
    split at mem
    next => exact .inl mem
    next => exact .inl mem
    next style _ =>
      split at mem
      next bare => exact .inl (by rwa [if_pos bare])
      next some =>
        rw [if_neg some]
        refine (mem_withFallback_of_filter ?_ mem).imp_right
          fun ⟨same, hidden, listed, made, hides⟩ => ⟨same, hidden, listed, hides, ?_⟩
        · simp only [Event.items_flatMap, List.filter_flatMap]
          exact List.flatMap_congr fun _ _ =>
            items_events_of_passes fun _ => screenConstructor_hidingBy
        · rw [Event.items_flatMap, List.mem_flatMap] at made
          obtain ⟨_, -, screened⟩ := made
          simp only [Screened.mem_items_events, screenConstructor, Screened.bind_eq_ok,
            Screened.pure_eq_ok] at screened
          obtain ⟨_, -, _, -, rfl⟩ := screened
          rfl

/-- Behind `new` the option can bring in a type of the class path, in the place of its hidden
constructors. -/
theorem mem_indexedAllocations_hidingBy {fact : TypeFact} {constructors : List ConstructorFact}
    (mem : candidate ∈
      Event.items ((session.hidingBy option).indexedAllocations type fact constructors)) :
    candidate ∈ Event.items (session.indexedAllocations type fact constructors) ∨
      candidate = type ∧ ∃ hidden ∈ Event.items (session.indexedAllocations type fact constructors),
        option.hides hidden = true ∧ hidden.kind = .constructor := by
  unfold indexedAllocations at mem ⊢
  split at mem
  next => exact .inl mem
  next => exact .inl mem
  next style _ =>
    dsimp only at mem ⊢
    split at mem
    next bare => exact .inl (by rwa [if_pos bare])
    next some =>
      rw [if_neg some]
      have made : ∀ hidden ∈ Event.items (constructors.flatMap fun constructor =>
          (session.screenIndexedConstructor type fact style constructor).events),
          hidden.kind = .constructor ∧ constructors.isEmpty = false := by
        intro hidden made
        rw [Event.items_flatMap, List.mem_flatMap] at made
        obtain ⟨constructor, listed, screened⟩ := made
        simp only [Screened.mem_items_events, screenIndexedConstructor, Screened.bind_eq_ok,
          Screened.pure_eq_ok] at screened
        obtain ⟨_, -, _, -, rfl⟩ := screened
        exact ⟨rfl, by simpa using List.ne_nil_of_mem listed⟩
      have kept : Event.items (constructors.flatMap fun constructor =>
          ((session.hidingBy option).screenIndexedConstructor type fact style constructor).events) =
          (Event.items (constructors.flatMap fun constructor =>
            (session.screenIndexedConstructor type fact style constructor).events)).filter
              fun candidate => !option.hides candidate := by
        simp only [Event.items_flatMap, List.filter_flatMap]
        exact List.flatMap_congr fun _ _ =>
          items_events_of_passes fun _ => screenIndexedConstructor_hidingBy
      refine (mem_withFallback_of_filter kept mem).imp_right ?_
      rintro ⟨same, hidden, listed, found, hides⟩
      exact ⟨by simpa [(made hidden found).2] using same, hidden, listed, hides,
        (made hidden found).1⟩

/-- What is offered for a candidate of a draft is offered without the option as well, unless it is a
type behind `new` that has hidden constructors. -/
theorem expanded_hidingBy (made : candidate ∈ (session.hidingBy option).expanded type) :
    candidate ∈ session.expanded type ∨
      session.request.site = .allocation ∧ candidate = type ∧
        ∃ hidden ∈ session.expanded type, option.hides hidden = true ∧
          hidden.kind = .constructor := by
  have request : (session.hidingBy option).request = session.request := rfl
  unfold expanded at made ⊢
  rw [request, foundConstructors_hidingBy] at made
  by_cases site : session.request.site = .allocation
  swap
  · rw [if_neg site] at made
    exact .inl (by rwa [if_neg site])
  rw [if_pos site] at made ⊢
  split at made
  next id _ => exact (mem_storedAllocations_hidingBy made).imp_right fun gained => ⟨site, gained⟩
  next fact _ => exact (mem_indexedAllocations_hidingBy made).imp_right fun gained => ⟨site, gained⟩
  next => exact .inl made

/-! ## All proposals -/

/-- Every type that is drafted with the option was drafted without it, up to how it is written. -/
theorem drafted_hidingBy (mem : candidate ∈ (session.hidingBy option).drafted) :
    session.AccountedFor option session.drafted candidate := by
  rcases List.mem_append.mp mem with mem | mem
  · exact (kept_hidingBy mem).mono fun _ => List.mem_append_left _
  · exact (writtenTypes_hidingBy mem).mono fun _ => List.mem_append_right _

/-- What a drafted type expands to is offered. -/
theorem mem_offered_of_expanded {other : Candidate} (site : session.request.site ≠ .nothing)
    (mem : type ∈ session.drafted) (made : other ∈ session.expanded type) :
    other ∈ session.offered := by
  rw [offered_eq site]
  exact List.mem_append_left _ (List.mem_flatMap.mpr ⟨type, mem, made⟩)

/-- A hidden constructor of a type is offered without the option, however the type is written
there. -/
theorem hidesConstructor_of_twin {twin hidden : Candidate}
    (site : session.request.site = .allocation) (drafted : twin ∈ session.drafted)
    (alike : twin.unspelled = type.unspelled) (made : hidden ∈ session.expanded type)
    (hides : option.hides hidden = true) (constructor : hidden.kind = .constructor) :
    session.HidesConstructor option type := by
  have kind : twin.kind = .type := kind_of_drafted site drafted
  obtain ⟨sameKind, -, name⟩ := profile_of_unspelled session.store alike
  obtain ⟨other, made, same⟩ := exists_expanded_of_unspelled alike made
  obtain ⟨otherKind, profile, -⟩ := profile_of_unspelled session.store same
  exact ⟨site, sameKind.symm.trans kind, other,
    mem_offered_of_expanded (by simp [site]) drafted made, (hides_congr profile).trans hides,
    otherKind.trans constructor, (inPlaceOf_of_expanded drafted kind made).name.trans name⟩

/-- What is offered with the option on is offered without it, or something hidden is in its way. -/
theorem offered_hidingBy (mem : candidate ∈ (session.hidingBy option).offered) :
    candidate ∈ session.offered ∨
      (session.HidesNamesake option candidate ∧
        ∃ twin ∈ session.offered, twin.unspelled = candidate.unspelled) ∨
      session.HidesMember option candidate ∨ session.HidesType option candidate ∨
      session.HidesConstructor option candidate := by
  by_cases site : session.request.site = .nothing
  · have none : (session.hidingBy option).offered = [] := if_pos site
    rw [none] at mem
    exact absurd mem List.not_mem_nil
  rw [@offered_eq (session.hidingBy option) site, List.mem_append] at mem
  rcases mem with mem | mem
  swap
  · rw [searchPackages_hidingBy] at mem
    rw [offered_eq site]
    exact .inl (List.mem_append_right _ mem)
  obtain ⟨type, drafted, made⟩ := List.mem_flatMap.mp mem
  have stands : type.kind = .type → candidate.InPlaceOf session.store type := fun kind =>
    @inPlaceOf_of_expanded (session.hidingBy option) _ _ drafted kind made
  cases drafted_hidingBy drafted with
  | same listed =>
    rcases expanded_hidingBy made with same | ⟨new, rfl, hidden, others, hides, constructor⟩
    · exact .inl (mem_offered_of_expanded site listed same)
    · exact .inr (.inr (.inr (.inr
        (hidesConstructor_of_twin new listed rfl others hides constructor))))
  | respelled kind namesake listed alike =>
    rcases expanded_hidingBy made with same | ⟨new, rfl, hidden, others, hides, constructor⟩
    · obtain ⟨other, made, same⟩ := exists_expanded_of_unspelled alike same
      refine .inr (.inl ⟨⟨(stands kind).kind, ?_⟩, other,
        mem_offered_of_expanded site listed made, same⟩)
      rw [(stands kind).name]
      exact namesake.2
    · exact .inr (.inr (.inr (.inr
        (hidesConstructor_of_twin new listed alike others hides constructor))))
  | member hides =>
    by_cases new : session.request.site = .allocation
    · have kind := @kind_of_drafted (session.hidingBy option) type new drafted
      simp [HidesMember, Candidate.isMember, kind] at hides
    · rw [@expanded_of_ne (session.hidingBy option) new, List.mem_singleton] at made
      exact .inr (.inr (.inl (made ▸ hides)))
  | type kind hides =>
    refine .inr (.inr (.inr (.inl ⟨(stands kind).kind, ?_⟩)))
    rw [(stands kind).name]
    exact hides.2

/-- Candidates that differ in their spelling alone are proposed with differences in their text,
their qualifier, their import and their relevance alone. -/
theorem proposal_of_unspelled {twin : Candidate} (alike : twin.unspelled = candidate.unspelled) :
    session.proposal candidate =
      { session.proposal twin with
        completion := (session.proposal candidate).completion
        relevance := (session.proposal candidate).relevance
        qualification := (session.proposal candidate).qualification
        requiredImport := (session.proposal candidate).requiredImport } := by
  have plain : ∀ candidate : Candidate, session.proposal candidate =
      { Proposal.ofCandidate session.store session.request.range 0 candidate.unspelled with
        completion := (session.proposal candidate).completion
        relevance := (session.proposal candidate).relevance
        qualification := (session.proposal candidate).qualification
        requiredImport := (session.proposal candidate).requiredImport } := fun _ => rfl
  rw [plain twin, alike]
  exact plain candidate

/-- Switching on an option that hides leaves the other proposals as they are, unless something is
hidden that contends with them. A hidden type with the simple name of a proposed one changes at most
how that one is written; a proposal is new only in the place of a hidden member or type, or of
hidden constructors. -/
theorem hiding_only_hides_or_makes_way {session : Session} {option : HidingOption}
    {ignores : ProposalKind → Bool} {signal later : Signal}
    (completed : (session.run ignores later).outcome = .completed) :
    ∀ proposal ∈ ((session.hidingBy option).run ignores signal).proposals,
      proposal ∈ (session.run ignores later).proposals ∨
        ∃ candidate ∈ (session.hidingBy option).shown ignores,
          proposal = session.proposal candidate ∧
            ((session.HidesNamesake option candidate ∧
                ∃ other ∈ (session.run ignores later).proposals,
                  proposal = { other with
                    completion := proposal.completion
                    relevance := proposal.relevance
                    qualification := proposal.qualification
                    requiredImport := proposal.requiredImport }) ∨
              session.HidesMember option candidate ∨ session.HidesType option candidate ∨
              session.HidesConstructor option candidate) := by
  intro proposal mem
  obtain ⟨candidate, shown, rfl⟩ :=
    List.mem_map.mp (((session.hidingBy option).proposals_run_initial ignores signal).mem mem)
  obtain ⟨offered, wanted⟩ := List.mem_filter.mp shown
  have proposed : ∀ other ∈ session.offered,
      ProposalKind.ofCandidate other = .ofCandidate candidate →
        session.proposal other ∈ (session.run ignores later).proposals := by
    intro other mem same
    rw [proposals_run completed]
    exact List.mem_map_of_mem (List.mem_filter.mpr ⟨mem, by rwa [same]⟩)
  rcases offered_hidingBy offered with same | ⟨namesake, twin, listed, alike⟩ | contended
  · exact .inl (proposed candidate same rfl)
  · have kind : ProposalKind.ofCandidate twin.unspelled = .ofCandidate candidate.unspelled :=
      congrArg _ alike
    exact .inr ⟨candidate, shown, rfl, .inl ⟨namesake, _, proposed twin listed kind,
      proposal_of_unspelled alike⟩⟩
  · exact .inr ⟨candidate, shown, rfl, .inr contended⟩

/-- A type whose only constructor is deprecated is itself offered behind `new` if that is hidden. -/
example :
    let list := TypeFact.topLevel ⟨["java", "util", "ArrayList"]⟩
    let session := overCore "ArrayL" .allocation {} (.build
      { types := [list]
        constructors := [{ declaring := list, modifiers := .public ||| .deprecated }] })
    (session.run (fun _ => false) fun _ _ => false).proposals.map Proposal.kind = [.constructor] ∧
      ((session.hidingBy .deprecation).run (fun _ => false) fun _ _ => false).proposals.map
        Proposal.kind = [.type] := by
  decide +kernel

/-- A file that imports two packages on demand. Each has a `List`, and the second one is
deprecated. -/
def importingTwoLists : Session :=
  overCore "List" .typeReference
    ⟨#[{ parent := none
         kind := .unit ⟨["app"]⟩ { typeContainers := [⟨["a"]⟩, ⟨["b"]⟩] } [] }]⟩
    (.build { types := [.topLevel ⟨["a", "List"]⟩,
      { TypeFact.topLevel ⟨["b", "List"]⟩ with modifiers := .public ||| .deprecated }] })

/-- With deprecated types hidden, the other `List` is accounted for. -/
theorem hiding_respells_list :
    (((importingTwoLists.hidingBy .deprecation).run (fun _ => false)
        fun _ _ => false).proposals.map Proposal.identity = [(some "a.List", "a.List")]) ∧
    ∀ proposal ∈
        ((importingTwoLists.hidingBy .deprecation).run (fun _ => false) fun _ _ => false).proposals,
      proposal ∈ (importingTwoLists.run (fun _ => false) fun _ _ => false).proposals ∨
        ∃ candidate ∈ (importingTwoLists.hidingBy .deprecation).shown fun _ => false,
          proposal = importingTwoLists.proposal candidate ∧
            ((importingTwoLists.HidesNamesake .deprecation candidate ∧
                ∃ other ∈ (importingTwoLists.run (fun _ => false) fun _ _ => false).proposals,
                  proposal = { other with
                    completion := proposal.completion
                    relevance := proposal.relevance
                    qualification := proposal.qualification
                    requiredImport := proposal.requiredImport }) ∨
              importingTwoLists.HidesMember .deprecation candidate ∨
              importingTwoLists.HidesType .deprecation candidate ∨
              importingTwoLists.HidesConstructor .deprecation candidate) :=
  ⟨by decide +kernel, hiding_only_hides_or_makes_way (run_outcome_of_silent _ _ fun _ _ => rfl)⟩

/-- With deprecated types hidden, the other `List` is written with its simple name, as no proposal
is otherwise. -/
theorem hidden_list_leaves_its_name :
    (importingTwoLists.run (fun _ => false) fun _ _ => false).outcome = .completed ∧
    ((importingTwoLists.hidingBy .deprecation).run (fun _ => false) fun _ _ => false).outcome =
      .completed ∧
    ¬ ∀ proposal ∈
        ((importingTwoLists.hidingBy .deprecation).run (fun _ => false) fun _ _ => false).proposals,
      ∃ other ∈ (importingTwoLists.run (fun _ => false) fun _ _ => false).proposals,
        other.kind = proposal.kind ∧ other.identity = proposal.identity ∧
          other.completion = proposal.completion ∧
          other.requiredImport = proposal.requiredImport := by
  refine ⟨run_outcome_of_silent _ _ fun _ _ => rfl, run_outcome_of_silent _ _ fun _ _ => rfl, ?_⟩
  decide +kernel

end CodeAssist.Completion.Session
