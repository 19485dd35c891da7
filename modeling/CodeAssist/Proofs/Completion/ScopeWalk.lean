import CodeAssist.Completion.Walk
import CodeAssist.Proofs.Completion.MemberSearch
import CodeAssist.Proofs.Scope.Chains
import Mathlib.Data.Option.Basic
/-!
# What a walk over scopes finds

Whatever a walk looks for, each of its candidates is a variable, a stored type, or a member that was
found through a *root*: a class around the cursor, the class of a static import, or the class of a
favorite (`walkScopes_found`).
-/

namespace CodeAssist

/-- Every class scope is the scope of a stored class. -/
def ScopeGraph.ClassesStoredIn (store : Store) (graph : ScopeGraph) : Prop :=
  ∀ place scope id, graph.scope? place = some scope → scope.kind = .class id →
    (store.class? id).isSome

/-- What a lookup finds is stored. -/
theorem Store.class?_isSome_of_lookup? {store : Store} {text : String} {id : ClassId}
    (found : store.lookup? text = some id) : (store.class? id).isSome := by
  have named : ∀ {dotted}, store.named? dotted = some id → (store.class? id).isSome := by
    intro dotted found
    exact mem_ids.mp (List.mem_reverse.mp (List.mem_of_find?_eq_some found))
  unfold lookup? at found
  split at found
  next first =>
    cases found
    exact named first
  next =>
    split at found
    · exact absurd found (by simp)
    · exact named found

namespace Completion.Session

variable {session : Session}

/-- A class through which members can be named at the cursor. -/
inductive Opens (session : Session) : ClassId → Prop
  | enclosing {scope : Scope} {id : ClassId} (mem : scope ∈ session.scopes)
      (kind : scope.kind = .class id) : Opens session id
  | imported {scope : Scope} {package : QualifiedName} {imports : Imports} {types : List ClassId}
      {owner : QualifiedName} {id : ClassId} (mem : scope ∈ session.scopes)
      (kind : scope.kind = .unit package imports types)
      (named : owner ∈ imports.members.map Prod.fst ++ imports.memberOwners)
      (found : session.store.lookup? owner.dotted = some id) : Opens session id
  | favorite {favorite : Favorite} {id : ClassId}
      (mem : favorite ∈ session.options.parsedFavorites)
      (found : session.store.lookup? favorite.owner.dotted = some id) : Opens session id

/-- Every root is a stored class: those of imports and favorites were looked up, those of scopes are
stored by assumption. -/
theorem Opens.stored {root : ClassId} (opens : session.Opens root)
    (classes : session.graph.ClassesStoredIn session.store) :
    (session.store.class? root).isSome := by
  cases opens with
  | enclosing mem kind =>
    obtain ⟨entry, hentry, rfl⟩ := List.mem_map.mp mem
    exact classes _ _ root (ScopeGraph.stored_of_mem_outward hentry) kind
  | imported _ _ _ found => exact Store.class?_isSome_of_lookup? found
  | favorite _ found => exact Store.class?_isSome_of_lookup? found

/-- The candidate stands for a member that was found through a root. If it is qualified it has to
be. -/
structure Rooted (session : Session) (candidate : Candidate) : Prop where
  standsFor : ∃ declaration, candidate.StandsFor session.store declaration
  opened : ∃ root, candidate.root? = some root ∧ session.Opens root
  mustQualify : candidate.qualifier.isSome → candidate.mustQualify = true

/-- To be rooted is a matter of the member, of the root and of when the member is qualified. -/
theorem Rooted.congr {candidate other : Candidate} (rooted : session.Rooted candidate)
    (same : candidate.SameSubject other)
    (mustQualify : other.qualifier.isSome → other.mustQualify = true) : session.Rooted other := by
  obtain ⟨⟨declaration, standsFor⟩, ⟨root, found, opens⟩, -⟩ := rooted
  exact ⟨⟨declaration, standsFor.congr same⟩, ⟨root, same.root?.trans found, opens⟩, mustQualify⟩

/-- The candidate stands for a stored class that matches and may be named, and is written with its
simple name. -/
structure StoredType (session : Session) (candidate : Candidate) (id : ClassId)
    (definition : ClassDef) : Prop where
  stored : session.store.class? id = some definition
  kind : candidate.kind = .type
  symbol : candidate.symbol = .type id
  name : candidate.name = definition.simpleName
  qualifier : candidate.qualifier = none
  matched : (session.match? definition.simpleName).isSome
  visible : session.options.checkVisibility = true →
    session.store.isClassVisible id session.view = true

theorem StoredType.typeName? {candidate : Candidate} {id : ClassId} {definition : ClassDef}
    (type : session.StoredType candidate id definition) :
    session.store.typeName? candidate = some definition.name := by
  simp [Store.typeName?, type.symbol, Store.name?, type.stored]

/-- What a class or a file gives to the code in it: members through a root, and stored types. -/
def Given (session : Session) (candidate : Candidate) : Prop :=
  session.Rooted candidate ∨ ∃ id definition, session.StoredType candidate id definition

/-- What a walk over scopes can find. -/
inductive Reached (session : Session) (candidate : Candidate) : Prop
  | binding (kind : candidate.kind = .local)
  | member (rooted : session.Rooted candidate)
  | type {id : ClassId} {definition : ClassDef}
      (stored : session.StoredType candidate id definition)

/-- What a scope gives apart from variables is among what a walk can find. -/
theorem Given.reached {candidate : Candidate} (given : session.Given candidate) :
    session.Reached candidate := by
  rcases given with rooted | ⟨id, definition, stored⟩
  · exact .member rooted
  · exact .type stored

/-! ## Members and types -/

/-- The members found in a class that opens for the request are rooted there. -/
theorem rooted_of_members {search : MemberSearch} {root : ClassId} {origin : Origin}
    {candidate : Candidate} (opens : session.Opens root)
    (mem : candidate ∈ Event.items (session.members search root root origin)) :
    session.Rooted candidate := by
  obtain ⟨visit, visited, declaration, nameMatch, passes, rfl⟩ := mem_items_members.mp mem
  exact ⟨⟨declaration, passes.stored, rfl, rfl, rfl, rfl⟩, ⟨root, head?_route visited, opens⟩,
    fun qualified => absurd qualified (by simp [Declaration.candidate])⟩

/-- So are imported members, which begin a search of their own at the class that the import
names. -/
theorem rooted_of_importedMembers {search : MemberSearch} {root : ClassId} {origin : Origin}
    {candidate : Candidate} (opens : session.Opens root)
    (mem : candidate ∈ Event.items (session.importedMembers search root origin)) :
    session.Rooted candidate := by
  rw [importedMembers, Event.items_map] at mem
  obtain ⟨found, hfound, rfl⟩ := List.mem_map.mp mem
  have rooted := rooted_of_members opens hfound
  exact rooted.congr ⟨rfl, rfl, rfl, rfl, rfl⟩ rooted.mustQualify

/-- Asking for an import leaves a member rooted. -/
theorem rooted_withImport {candidate : Candidate} (rooted : session.Rooted candidate)
    (owner : QualifiedName) : session.Rooted (session.withImport owner candidate) := by
  unfold withImport
  split
  · exact rooted.congr ⟨rfl, rfl, rfl, rfl, rfl⟩ rooted.mustQualify
  · exact rooted.congr ⟨rfl, rfl, rfl, rfl, rfl⟩ fun _ => rfl

/-- A type that passes its screening is a stored one, with its simple name. -/
theorem storedType_of_screenType {origin : Origin} {id : ClassId} {candidate : Candidate}
    (screened : session.screenType origin id = .ok candidate) :
    ∃ definition, session.StoredType candidate id definition := by
  simp only [screenType, Screened.bind_eq_ok] at screened
  obtain ⟨_, -, screened⟩ := screened
  split at screened
  next => exact absurd screened Screened.throw_ne_ok
  next definition stored =>
    simp only [Screened.bind_eq_ok, Screened.requireOr_eq_ok, Screened.pure_eq_ok,
      matchName_eq_ok] at screened
    obtain ⟨nameMatch, matched, _, visible, _, -, rfl⟩ := screened
    exact ⟨definition, stored, rfl, rfl, rfl, rfl, Option.isSome_of_eq_some matched,
      fun checks => by simpa [checks] using visible⟩

theorem storedType_of_types {origin : Origin} {ids : List ClassId} {candidate : Candidate}
    (mem : candidate ∈ Event.items (ids.flatMap fun id => (session.screenType origin id).step)) :
    ∃ id definition, session.StoredType candidate id definition := by
  simp only [Event.items_flatMap, Screened.items_step, List.mem_flatMap,
    Screened.mem_items_events] at mem
  obtain ⟨id, -, screened⟩ := mem
  exact ⟨id, storedType_of_screenType screened⟩

/-- Member types are stored types, be they declared or inherited. -/
theorem storedType_of_memberTypes {id : ClassId} {candidate : Candidate}
    (mem : candidate ∈ Event.items (session.memberTypes id)) :
    ∃ id definition, session.StoredType candidate id definition := by
  rw [memberTypes, Event.items_append, List.mem_append] at mem
  rcases mem with mem | mem
  · exact storedType_of_types mem
  · rw [Event.items_flatMap, List.mem_flatMap] at mem
    obtain ⟨owner, -, mem⟩ := mem
    exact storedType_of_types mem

/-! ## The file -/

section Unit

variable {scope : Scope} {package : QualifiedName} {imports : Imports} {types : List ClassId}
  {candidate : Candidate}

/-- What is imported statically is a static member of a stored class that an import names. -/
theorem exists_importedMembers_of_staticImports {mode : WalkMode}
    (mem : candidate ∈ Event.items (session.staticImports imports mode)) :
    ∃ owner ∈ imports.members.map Prod.fst ++ imports.memberOwners, ∃ id search,
      session.store.lookup? owner.dotted = some id ∧ search.statics = .construct ∧
      candidate ∈ Event.items (session.importedMembers search id .staticImport) := by
  simp only [staticImports, Event.items_append, List.mem_append, Event.items_flatMap,
    List.mem_flatMap] at mem
  -- both parts go over owners; only the name that is asked for differs
  rcases mem with ⟨⟨owner, name⟩, named, mem⟩ | ⟨owner, named, mem⟩
  · split at mem
    next id found =>
      exact ⟨owner, List.mem_append_left _ (List.mem_map_of_mem named), id, _, found, rfl, mem⟩
    next => exact absurd mem List.not_mem_nil
  · split at mem
    next id found => exact ⟨owner, List.mem_append_right _ named, id, _, found, rfl, mem⟩
    next => exact absurd mem List.not_mem_nil

/-- What a favorite names is a static member of its class, perhaps with an import. -/
theorem exists_importedMembers_of_favoriteMembers {favorite : Favorite}
    (mem : candidate ∈ Event.items (session.favoriteMembers imports favorite)) :
    ∃ id search member, session.store.lookup? favorite.owner.dotted = some id ∧
      search.statics = .construct ∧
      member ∈ Event.items (session.importedMembers search id .favorite) ∧
      (candidate = member ∨ candidate = session.withImport favorite.owner member) := by
  unfold favoriteMembers at mem
  dsimp only at mem
  split at mem
  next _ id found _ =>
    rw [Event.items_map] at mem
    obtain ⟨member, hmember, rfl⟩ := List.mem_map.mp mem
    refine ⟨id, _, member, found, rfl, hmember, ?_⟩
    split
    · exact .inl rfl
    · exact .inr rfl
  next => exact absurd mem List.not_mem_nil

/-- Static imports open the classes that they name. -/
theorem rooted_of_staticImports {mode : WalkMode} (inside : scope ∈ session.scopes)
    (kind : scope.kind = .unit package imports types)
    (mem : candidate ∈ Event.items (session.staticImports imports mode)) :
    session.Rooted candidate := by
  obtain ⟨owner, named, id, search, found, -, member⟩ :=
    exists_importedMembers_of_staticImports mem
  exact rooted_of_importedMembers (.imported inside kind named found) member

/-- Favorites open their classes as well. -/
theorem rooted_of_favoriteMembers {favorite : Favorite}
    (listed : favorite ∈ session.options.parsedFavorites)
    (mem : candidate ∈ Event.items (session.favoriteMembers imports favorite)) :
    session.Rooted candidate := by
  obtain ⟨id, search, member, found, -, hmember, written⟩ :=
    exists_importedMembers_of_favoriteMembers mem
  have rooted := rooted_of_importedMembers (.favorite listed found) hmember
  rcases written with rfl | rfl
  · exact rooted
  · exact rooted_withImport rooted _

/-- A file gives imported members, members of favorites and the types it declares or imports. -/
theorem given_of_unitCandidates {mode : WalkMode} (inside : scope ∈ session.scopes)
    (kind : scope.kind = .unit package imports types)
    (mem : candidate ∈ Event.items (session.unitCandidates mode imports types)) :
    session.Given candidate := by
  simp only [unitCandidates, Event.items_append, List.mem_append, Event.items_ite_nil,
    List.mem_ite_nil_right, Event.items_flatMap, List.mem_flatMap] at mem
  rcases mem with (⟨-, mem | mem⟩ | ⟨-, mem⟩) | ⟨-, favorite, listed, mem⟩
  · exact .inr (storedType_of_types (by simpa using mem))
  · exact .inr (storedType_of_types mem)
  · exact .inl (rooted_of_staticImports inside kind mem)
  · exact .inl (rooted_of_favoriteMembers listed mem)

end Unit

/-! ## Scopes -/

/-- Variables are candidates of their own kind. -/
theorem reached_of_locals {mode : WalkMode} {bindings : List Local} {candidate : Candidate}
    (mem : candidate ∈ Event.items (bindings.flatMap fun binding =>
      (session.screenLocal mode binding).step)) : session.Reached candidate := by
  simp only [Event.items_flatMap, Screened.items_step, List.mem_flatMap,
    Screened.mem_items_events, screenLocal, Screened.bind_eq_ok, Screened.pure_eq_ok] at mem
  obtain ⟨binding, -, _, -, nameMatch, -, rfl⟩ := mem
  exact .binding rfl

/-- A scope gives what its kind gives: members and member types of a class, or what a file gives. -/
theorem given_of_kindCandidates {mode : WalkMode} {staticOnly : Bool} {scope : Scope}
    {candidate : Candidate} (inside : scope ∈ session.scopes)
    (mem : candidate ∈ Event.items (session.kindCandidates mode staticOnly scope.kind)) :
    session.Given candidate := by
  unfold kindCandidates at mem
  split at mem
  next id kind =>
    simp only [classCandidates, Event.items_append, List.mem_append, Event.items_ite_nil,
      List.mem_ite_nil_right] at mem
    rcases mem with ⟨-, mem⟩ | ⟨-, mem⟩
    · exact .inl (rooted_of_members (.enclosing inside kind) mem)
    · exact .inr (storedType_of_memberTypes mem)
  next kind => exact given_of_unitCandidates inside kind mem
  next => exact absurd mem List.not_mem_nil

/-- A walk over scopes finds variables, types, and members through a root. -/
theorem walkScopes_found {mode : WalkMode} {staticOnly : Bool} {seen : List String}
    {scopes : List Scope} (inside : ∀ scope ∈ scopes, scope ∈ session.scopes) :
    ∀ candidate ∈ Event.items (session.walkScopes mode staticOnly seen scopes),
      session.Reached candidate := by
  induction scopes generalizing staticOnly seen with
  | nil => exact fun _ mem => absurd mem List.not_mem_nil
  | cons scope outer ih =>
    intro candidate mem
    simp only [walkScopes, Event.items_append, List.mem_append, Event.items_ite_nil,
      List.mem_ite_nil_right] at mem
    rcases mem with (⟨-, mem⟩ | mem) | mem
    · exact reached_of_locals mem
    · exact (given_of_kindCandidates (inside scope List.mem_cons_self) mem).reached
    · exact ih (fun other hother => inside other (List.mem_cons_of_mem _ hother)) candidate mem

/-! ## Keywords -/

/-- Whether there is an instance depends on the store and the scopes alone. -/
theorem inStaticContext_congr {other : Session} (store : other.store = session.store)
    (scopes : other.scopes = session.scopes) :
    other.inStaticContext = session.inStaticContext := by
  have step : ∀ scopes, inStaticContext.go other scopes = inStaticContext.go session scopes := by
    intro scopes
    induction scopes with
    | nil => rfl
    | cons scope outer ih => simp only [inStaticContext.go, ih, store]
  rw [inStaticContext, inStaticContext, scopes, step]

theorem kind_of_keyword? {word : String} {candidate : Candidate}
    (found : session.keyword? word = some candidate) : candidate.kind = .keyword := by
  simp only [keyword?, Option.bind_eq_bind, Option.bind_eq_some_iff] at found
  obtain ⟨nameMatch, -, _, -, same⟩ := found
  cases same
  rfl

/-- Among keywords there is nothing but keywords. -/
theorem kind_of_mem_keywords {candidate : Candidate}
    (mem : candidate ∈ Event.items session.keywords) : candidate.kind = .keyword := by
  rw [keywords, Event.items_map_found] at mem
  obtain ⟨word, -, found⟩ := List.mem_filterMap.mp mem
  exact kind_of_keyword? found

/-! ## Casts -/

/-- The class that a variable is cast to, and the cast. -/
def castTo? (session : Session) (name : String) (declared : Option ClassId) :
    Option (ClassId × String) := do
  let narrowed ← session.graph.narrowed? session.request.scope name
  let id ← narrowed.erasure.classId?
  if declared = some id then none
  else some (id, "((" ++ session.store.showType narrowed ++ ") " ++ name ++ ")")

/-- Behind a cast stand the members of one class, but for those reached without the cast. -/
theorem items_narrowedMembers (session : Session) (name : String) (declared : Option ClassId)
    (reached : List Candidate) :
    Event.items (session.narrowedMembers name declared reached) =
      match session.castTo? name declared with
      | none => []
      | some (id, cast) =>
        ((Event.items (session.members {} id id .declared)).filter fun candidate =>
          !reached.any (session.sameMember candidate)).map fun candidate =>
            candidate.qualifiedBy (some cast) := by
  unfold narrowedMembers castTo?
  cases session.graph.narrowed? session.request.scope name with
  | none => rfl
  | some narrowed =>
    dsimp only [Option.bind_eq_bind, Option.bind_some]
    cases narrowed.erasure.classId? with
    | none => rfl
    | some id =>
      dsimp only [Option.bind_some]
      split
      · rfl
      · dsimp only
        generalize session.members {} id id .declared = events
        induction events with
        | nil => rfl
        | cons event events ih =>
          cases event with
          | tick => exact ih
          | rejected reason => exact ih
          | found candidate =>
            rw [List.map_cons, Event.items_found, List.filter_cons]
            dsimp only
            cases reached.any (session.sameMember candidate) with
            | true => exact ih
            | false => simpa using ih

/-- The members behind a cast are those of one class, but for the ones reached without the cast. -/
theorem exists_members_of_narrowedMembers (session : Session) (name : String)
    (declared : Option ClassId) (reached : List Candidate) :
    ∃ id, ∀ candidate ∈ Event.items (session.narrowedMembers name declared reached),
      ∃ original ∈ Event.items (session.members {} id id .declared),
        reached.any (session.sameMember original) = false ∧
        ∃ cast, candidate = original.qualifiedBy (some cast) := by
  rw [items_narrowedMembers]
  cases session.castTo? name declared with
  | none => exact ⟨.object, by simp⟩
  | some target =>
    refine ⟨target.1, fun candidate mem => ?_⟩
    obtain ⟨original, passed, rfl⟩ := List.mem_map.mp mem
    obtain ⟨found, fresh⟩ := List.mem_filter.mp passed
    exact ⟨original, found, by simpa using fresh, _, rfl⟩

end Completion.Session

end CodeAssist
