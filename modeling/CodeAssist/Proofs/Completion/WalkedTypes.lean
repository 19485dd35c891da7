import CodeAssist.Proofs.Completion.Filters
import CodeAssist.Proofs.Completion.TypeNames
/-!
# Which type the walk gives a simple name to

Where a type has to stand, the walk goes over the classes that the scopes around the cursor give, in
a fixed order (`Store.typesIn`). Without filters it leaves out only classes whose names do not match
the token. So a simple name that matches belongs to the first class that has it (`claimant?_known`),
and as long as no class has it, no type of that name is known (`contains_known`). All other types of
the walk are written in full (`qualifier_of_kept`).
-/

namespace CodeAssist

namespace Store

/-- The member types that a class declares. -/
def declaredTypes (store : Store) (id : ClassId) : List ClassId :=
  ((store.class? id).map ClassDef.memberTypes).getD []

def isPrivateType (store : Store) (id : ClassId) : Bool :=
  (store.class? id).any fun definition => definition.modifiers.isPrivate

/-- The classes that a scope gives to the code in it, in the order of the walk. -/
def typesIn (store : Store) : ScopeKind → List ClassId
  | .class id =>
    store.declaredTypes id ++ (store.supertypes id).flatMap fun owner =>
      (store.declaredTypes owner).filter fun member => !store.isPrivateType member
  | .unit _ imports types =>
    types ++ imports.types.filterMap fun path => store.lookup? path.dotted
  | _ => []

/-- The first class with a simple name that scopes give. -/
def firstIn (store : Store) (simple : String) (scopes : List Scope) : Option ClassId :=
  (scopes.flatMap fun scope => store.typesIn scope.kind).find? (store.isNamed simple)

/-- The name of the type that a candidate with a simple name denotes. -/
def denoted? (store : Store) (simple : String) (candidate : Completion.Candidate) :
    Option QualifiedName :=
  if candidate.name = simple then store.typeName? candidate else none

theorem isNamed_iff {store : Store} {simple : String} {id : ClassId} :
    store.isNamed simple id = true ↔
      ∃ definition, store.class? id = some definition ∧ definition.simpleName = simple := by
  simp [isNamed, Option.any_eq_true]

end Store

namespace Completion.Session

open Store

variable {session : Session} {simple : String} {candidate : Candidate}

/-- No filter is on, and no class is kept from being proposed. -/
structure Unfiltered (session : Session) : Prop where
  deprecation : session.options.checkDeprecation = false
  visibility : session.options.checkVisibility = false
  forbidden : session.options.checkForbidden = false
  discouraged : session.options.checkDiscouraged = false
  allowed : session.request.forbidden = []

/-- Without filters every access and every modifier is admitted. -/
theorem Unfiltered.admitAccess (unfiltered : session.Unfiltered) (access : Access)
    (modifiers : Modifiers) : session.admitAccess access modifiers = .ok () := by
  simp [Session.admitAccess, unfiltered.deprecation, unfiltered.forbidden,
    unfiltered.discouraged]

/-! ## The classes of the walk -/

/-- The first of the candidates with a simple name denotes the first of the classes with it. -/
def Shows (session : Session) (simple : String) (ids : List ClassId)
    (candidates : List Candidate) : Prop :=
  candidates.findSome? (session.store.denoted? simple) =
    (ids.find? (session.store.isNamed simple)).bind session.store.name?

theorem Shows.append {ids others : List ClassId} {candidates more : List Candidate}
    (first : session.Shows simple ids candidates) (second : session.Shows simple others more) :
    session.Shows simple (ids ++ others) (candidates ++ more) := by
  rw [Shows, List.findSome?_append, first, second, List.find?_append]
  cases found : ids.find? (session.store.isNamed simple) with
  | none => rfl
  | some id =>
    obtain ⟨definition, stored, -⟩ := isNamed_iff.mp (List.find?_some found)
    simp [Store.name?, stored]

/-- Without filters, a class whose name matches is let through. -/
theorem exists_screenType (unfiltered : session.Unfiltered) {id : ClassId}
    {definition : ClassDef} (stored : session.store.class? id = some definition)
    (matching : (session.match? definition.simpleName).isSome) (origin : Origin) :
    ∃ candidate, session.screenType origin id = .ok candidate ∧
      candidate.name = definition.simpleName ∧ candidate.symbol = .type id := by
  obtain ⟨nameMatch, matched⟩ := Option.isSome_iff_exists.mp matching
  simp [screenType, forbids, unfiltered.allowed, stored, unfiltered.visibility,
    unfiltered.admitAccess, matched]

theorem denoted?_of_screenType (unfiltered : session.Unfiltered)
    (matching : (session.match? simple).isSome) (origin : Origin) (id : ClassId) :
    (session.screenType origin id).toOption.bind (session.store.denoted? simple) =
      if session.store.isNamed simple id then session.store.name? id else none := by
  by_cases named : session.store.isNamed simple id = true
  · obtain ⟨definition, stored, rfl⟩ := isNamed_iff.mp named
    obtain ⟨candidate, screened, name, symbol⟩ :=
      exists_screenType unfiltered stored matching origin
    simp [screened, Except.toOption, denoted?, name, typeName?, symbol, named]
  · rw [if_neg named]
    refine Option.bind_eq_none_iff.mpr fun candidate screened => ?_
    obtain ⟨definition, type⟩ := storedType_of_screenType (Screened.toOption_eq_some.mp screened)
    exact if_neg fun same =>
      named (isNamed_iff.mpr ⟨definition, type.stored, type.name.symm.trans same⟩)

theorem shows_of_types (unfiltered : session.Unfiltered)
    (matching : (session.match? simple).isSome) (origin : Origin) (ids : List ClassId) :
    session.Shows simple ids
      (Event.items (ids.flatMap fun id => (session.screenType origin id).step)) := by
  rw [Shows, Screened.items_flatMap_step, ← List.head?_filterMap, List.filterMap_filterMap,
    List.head?_filterMap, funext (denoted?_of_screenType unfiltered matching origin)]
  induction ids with
  | nil => rfl
  | cons id ids ih =>
    rw [List.findSome?_cons, List.find?_cons]
    cases named : session.store.isNamed simple id with
    | false => exact ih
    | true =>
      obtain ⟨definition, stored, -⟩ := isNamed_iff.mp named
      simp [Store.name?, stored]

/-- What a scope gives is its own, or comes in one other way. -/
theorem kindCandidates_types (session : Session) (staticOnly : Bool) (kind : ScopeKind) :
    ∃ own others origin, session.store.typesIn kind = own ++ others ∧
      session.kindCandidates .types staticOnly kind =
        own.flatMap (fun id => (session.screenType .declared id).step) ++
          others.flatMap fun id => (session.screenType origin id).step := by
  cases kind with
  | «class» id =>
    refine ⟨_, _, .inherited, rfl, ?_⟩
    rw [List.flatMap_assoc]
    rfl
  | unit package imports types =>
    refine ⟨types, _, .explicitImport, rfl, ?_⟩
    simp [kindCandidates, unitCandidates, importedTypes, WalkMode.wantsTypes,
      WalkMode.wantsVariables]
  | _ => exact ⟨[], [], .declared, rfl, rfl⟩

/-- The walk shows the classes of the scopes, from the inside out. -/
theorem shows_of_walkScopes (unfiltered : session.Unfiltered)
    (matching : (session.match? simple).isSome) (staticOnly : Bool) (seen : List String)
    (scopes : List Scope) :
    session.Shows simple (scopes.flatMap fun scope => session.store.typesIn scope.kind)
      (Event.items (session.walkScopes .types staticOnly seen scopes)) := by
  induction scopes generalizing staticOnly seen with
  | nil => rfl
  | cons scope outer ih =>
    obtain ⟨own, others, origin, types, walked⟩ :=
      session.kindCandidates_types staticOnly scope.kind
    have shows := shows_of_types unfiltered matching
    rw [walkScopes, List.flatMap_cons, walked, types, Event.items_append, Event.items_append,
      Event.items_append]
    exact ((shows .declared own).append (shows origin others)).append (ih _ _)

/-! ## The register -/

/-- What the register has noted when some types have been walked. -/
structure Noted (session : Session) (walked : List Candidate)
    (state : KnownTypes × List Candidate) : Prop where
  /-- A simple name belongs to the first type that has it. -/
  claimant : ∀ simple,
    state.1.claimant? simple = walked.findSome? (session.store.denoted? simple)
  claimed : ∀ name, state.1.contains name = true → (state.1.claimant? name.simple).isSome
  qualifier : ∀ candidate ∈ typesOf state.2, ∀ name,
    session.store.typeName? candidate = some name →
    candidate.qualifier = none ∨ candidate.qualifier = fullQualifier name

namespace Noted

variable {walked : List Candidate} {state : KnownTypes × List Candidate} {id : ClassId}
  {definition : ClassDef}

/-- One more type gives its name to what no type before it denotes. -/
theorem findSome?_denoted?_concat (noted : session.Noted walked state)
    (stored : session.StoredType candidate id definition) (simple : String) :
    (walked ++ [candidate]).findSome? (session.store.denoted? simple) =
      (state.1.claimant? simple).or
        (if candidate.name = simple then some definition.name else none) := by
  rw [List.findSome?_append, ← noted.claimant, List.findSome?_singleton, denoted?,
    stored.typeName?]

/-- A type that is known changes nothing: its name was claimed when it became known. -/
theorem skip (noted : session.Noted walked state)
    (stored : session.StoredType candidate id definition)
    (known : state.1.contains definition.name = true) :
    session.Noted (walked ++ [candidate]) state := by
  refine ⟨fun simple => ?_, noted.claimed, noted.qualifier⟩
  rw [noted.findSome?_denoted?_concat stored]
  by_cases same : candidate.name = simple
  · have claimed := noted.claimed definition.name known
    rw [← ClassDef.simpleName, ← stored.name, same] at claimed
    rw [Option.or_of_isSome claimed]
  · rw [if_neg same, Option.or_none]

/-- A type that is not known yet is noted with its name, and written alone or in full. -/
theorem note (noted : session.Noted walked state)
    (stored : session.StoredType candidate id definition) {written : Candidate}
    (symbol : written.symbol = candidate.symbol)
    (qualifier : written.qualifier = none ∨
      written.qualifier = fullQualifier definition.name) :
    session.Noted (walked ++ [candidate])
      ((state.1.insert definition.name).claim candidate.name definition.name,
        state.2 ++ [written]) := by
  have claimant : ∀ simple, ((state.1.insert definition.name).claim candidate.name
      definition.name).claimant? simple =
        (walked ++ [candidate]).findSome? (session.store.denoted? simple) := by
    intro simple
    rw [noted.findSome?_denoted?_concat stored, KnownTypes.claimant?_claim,
      KnownTypes.claimant?_insert]
    simp only [Option.orElse_eq_orElse, Option.orElse_eq_or, eq_comm]
  refine ⟨claimant, fun name contained => ?_, fun other mem name denotes => ?_⟩
  · rw [claimant, noted.findSome?_denoted?_concat stored]
    rw [KnownTypes.contains_claim, KnownTypes.contains_insert, Bool.or_eq_true,
      decide_eq_true_eq] at contained
    rcases contained with known | rfl
    · rw [Option.or_of_isSome (noted.claimed name known)]
      exact noted.claimed name known
    · rw [← ClassDef.simpleName, if_pos stored.name]
      simp
  · rw [typesOf_append, List.mem_append] at mem
    rcases mem with mem | mem
    · exact noted.qualifier other mem name denotes
    · obtain rfl := List.mem_singleton.mp (List.mem_filter.mp mem).1
      rw [typeName?, symbol, ← typeName?, stored.typeName?] at denotes
      exact Option.some.inj denotes ▸ qualifier

/-- The step: one more type is noted. -/
theorem addType (noted : session.Noted walked state)
    (stored : session.StoredType candidate id definition) :
    session.Noted (walked ++ [candidate]) (session.addType state.1 state.2 candidate) := by
  unfold Session.addType
  rw [stored.typeName?]
  dsimp only
  split
  next known => exact noted.skip stored known
  next fresh =>
    split
    · exact noted.note stored rfl (.inl stored.qualifier)
    · exact noted.note stored rfl (.inr rfl)

/-- The run: all types that are walked are noted. -/
theorem foldl (noted : session.Noted walked state) (candidates : List Candidate)
    (stored : ∀ candidate ∈ candidates,
      ∃ id definition, session.StoredType candidate id definition) :
    session.Noted (walked ++ candidates) (candidates.foldl session.addCandidate state) := by
  induction candidates generalizing walked state with
  | nil =>
    rw [List.append_nil]
    exact noted
  | cons candidate candidates ih =>
    obtain ⟨id, definition, type⟩ := stored candidate List.mem_cons_self
    have added : session.addCandidate state candidate =
        session.addType state.1 state.2 candidate := by
      simp [Session.addCandidate, type.kind]
    rw [List.append_cons, List.foldl_cons, added]
    exact ih (noted.addType type) fun other mem => stored other (List.mem_cons_of_mem _ mem)

end Noted

/-! ## Where a type has to stand -/

/-- At a type reference the walk is that of the scopes, for types alone. -/
theorem walked_typeReference (site : session.request.site = .typeReference) :
    session.walked = Event.items (session.walkScopes .types false [] session.scopes) := by
  simp only [walked, walk, site]

/-- Only types are walked. -/
theorem kind_of_walkScopes_types {staticOnly : Bool} {seen : List String} {scopes : List Scope}
    (mem : candidate ∈ Event.items (session.walkScopes .types staticOnly seen scopes)) :
    candidate.kind = .type := by
  have screened : ∀ {origin : Origin} {ids : List ClassId}, candidate ∈ Event.items
      (ids.flatMap fun id => (session.screenType origin id).step) → candidate.kind = .type := by
    intro origin ids mem
    simp only [Event.items_flatMap, Screened.items_step, List.mem_flatMap,
      Screened.mem_items_events] at mem
    obtain ⟨id, -, screened⟩ := mem
    obtain ⟨definition, stored⟩ := storedType_of_screenType screened
    exact stored.kind
  induction scopes generalizing staticOnly seen with
  | nil => exact absurd mem List.not_mem_nil
  | cons scope outer ih =>
    obtain ⟨own, others, origin, -, walked⟩ := session.kindCandidates_types staticOnly scope.kind
    rw [walkScopes, walked, Event.items_append, Event.items_append, Event.items_append] at mem
    simp only [WalkMode.wantsVariables, Bool.false_eq_true, ↓reduceIte, Event.items_nil,
      List.nil_append, List.mem_append] at mem
    rcases mem with (mem | mem) | mem
    · exact screened mem
    · exact screened mem
    · exact ih mem

theorem noted_walked (site : session.request.site = .typeReference) :
    session.Noted session.walked (session.walked.foldl session.addCandidate ({}, [])) := by
  have start : session.Noted [] ({}, []) :=
    ⟨fun _ => rfl, fun _ known => absurd known Bool.false_ne_true,
      fun _ mem => absurd mem List.not_mem_nil⟩
  refine start.foldl session.walked fun candidate mem => ?_
  refine storedType_of_walked (.inr (.inl site)) candidate mem ?_
  exact kind_of_walkScopes_types (walked_typeReference site ▸ mem)

/-- A simple name that matches belongs to the first class of the scopes that has it. -/
theorem claimant?_known (site : session.request.site = .typeReference)
    (unfiltered : session.Unfiltered) (matching : (session.match? simple).isSome) :
    session.known.claimant? simple =
      (session.store.firstIn simple session.scopes).bind session.store.name? := by
  rw [Session.known, resolve_known, (noted_walked site).claimant, walked_typeReference site]
  exact shows_of_walkScopes unfiltered matching false [] session.scopes

/-- A type is not known before its simple name is claimed. -/
theorem contains_known (site : session.request.site = .typeReference) {name : QualifiedName}
    (free : session.known.claimant? name.simple = none) :
    session.known.contains name = false := by
  rw [Session.known, resolve_known] at free ⊢
  refine Bool.eq_false_iff.mpr fun known => ?_
  have claimed := (noted_walked site).claimed name known
  rw [free] at claimed
  cases claimed

/-- A type of the walk that stays stands for a class that was walked. -/
theorem exists_storedType_of_kept (site : session.NamesTypes)
    (mem : candidate ∈ typesOf session.kept) :
    ∃ walked id definition, session.StoredType walked id definition ∧
      session.store.typeName? candidate = some definition.name := by
  obtain ⟨listed, kind⟩ := List.mem_filter.mp mem
  obtain ⟨walked, hwalked, same⟩ := exists_walked_of_kept listed
  simp only [Candidate.profile, Prod.mk.injEq] at same
  obtain ⟨id, definition, stored⟩ :=
    storedType_of_walked site walked hwalked (same.1.symm.trans (beq_iff_eq.mp kind))
  refine ⟨walked, id, definition, stored, ?_⟩
  rw [Store.typeName?, same.2.1, ← Store.typeName?, stored.typeName?]

/-- A type of the walk is written with its simple name alone, or in full. -/
theorem qualifier_of_kept (site : session.request.site = .typeReference)
    (mem : candidate ∈ typesOf session.kept) {name : QualifiedName}
    (denotes : session.store.typeName? candidate = some name) :
    candidate.qualifier = none ∨ candidate.qualifier = fullQualifier name := by
  obtain ⟨change, rewrites, kept⟩ := session.exists_rewrites session.walked
  obtain ⟨listed, type⟩ := List.mem_filter.mp mem
  rw [Session.kept, kept] at listed
  obtain ⟨original, horiginal, rfl⟩ := List.mem_map.mp listed
  rw [(rewrites.same original).kind] at type
  have other : original.isMember = false := by simp [Candidate.isMember, beq_iff_eq.mp type]
  rw [rewrites.other original other]
  refine (noted_walked site).qualifier original (List.mem_filter.mpr ⟨horiginal, type⟩) name ?_
  simpa only [typeName?, (rewrites.same original).symbol] using denotes

end Completion.Session

end CodeAssist
