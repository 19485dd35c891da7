import CodeAssist.Completion.Members
import CodeAssist.Proofs.Class.Ancestry
import CodeAssist.Proofs.Completion.Screening
/-!
# What a search for members finds

A *declaration* is a field or a method together with its place in the store. A search for the
members of a class finds, for every class it visits, the declarations there that pass
(`mem_items_declaredMembers`), and it visits the class, all that the class inherits from, and
nothing else (`mem_owners_visits`). Private members, and the static methods of an interface, are
only found in the class itself: `isStart_iff` says that this is what the mark of a visit means.

In what order classes are visited is left open.
-/

namespace CodeAssist

open Completion Matching Relation

/-- A field or a method with its place. -/
inductive Declaration where
  | field (ref : MemberRef) (data : Field)
  | method (ref : MemberRef) (data : Method)
deriving DecidableEq, Repr, Inhabited

namespace Declaration

@[simp] def ref : Declaration → MemberRef
  | .field ref _ | .method ref _ => ref

/-- The class that declares the member. -/
@[simp] def owner (declaration : Declaration) : ClassId := declaration.ref.owner

@[simp] def name : Declaration → String
  | .field _ data => data.name
  | .method _ data => data.name

@[simp] def modifiers : Declaration → Modifiers
  | .field _ data => data.modifiers
  | .method _ data => data.modifiers

@[simp] def access : Declaration → Access
  | .field _ data => data.access
  | .method _ data => data.access

/-- The name, and for a method its erased parameters. -/
def signature : Declaration → Signature
  | .field _ data => { name := data.name, parameters := none }
  | .method _ data => data.signature

/-- The member is what is stored at its place. -/
def StoredIn (store : Store) : Declaration → Prop
  | .field ref data => store.field? ref.owner ref.index = some data
  | .method ref data => store.method? ref.owner ref.index = some data

instance (store : Store) : (declaration : Declaration) → Decidable (declaration.StoredIn store)
  | .field ref data => inferInstanceAs (Decidable (store.field? ref.owner ref.index = some data))
  | .method ref data => inferInstanceAs (Decidable (store.method? ref.owner ref.index = some data))

/-- A stored member belongs to a stored class. -/
theorem class?_of_storedIn {store : Store} {declaration : Declaration}
    (stored : declaration.StoredIn store) : (store.class? declaration.owner).isSome := by
  cases declaration with
  | field ref data =>
    obtain ⟨definition, held, -⟩ := Option.bind_eq_some_iff.mp stored
    exact Option.isSome_of_eq_some held
  | method ref data =>
    obtain ⟨definition, held, -⟩ := Option.bind_eq_some_iff.mp stored
    exact Option.isSome_of_eq_some held

/-- Whether the member is a static method of an interface. -/
def isInterfaceStatic (store : Store) : Declaration → Bool
  | .field _ _ => false
  | .method ref data => (store.class? ref.owner).any ClassDef.isInterface && data.isStatic

/-- Whether the member is found in its own class only. -/
def staysHome (store : Store) (declaration : Declaration) : Bool :=
  declaration.modifiers.isPrivate || declaration.isInterfaceStatic store

/-- The type of a field and the result of a method. -/
@[simp] def type : Declaration → TypeRef
  | .field _ data => data.type
  | .method _ data => data.result

@[simp] def kind : Declaration → CandidateKind
  | .field _ _ => .field
  | .method _ _ => .method

@[simp] def symbol : Declaration → Symbol
  | .field ref _ => .field ref
  | .method ref _ => .method ref

/-- The candidate for a member that was reached in some way. -/
def candidate (store : Store) (nameMatch : NameMatch) (origin : Origin) (chain : List ClassId)
    (declaration : Declaration) : Candidate :=
  { kind := declaration.kind, symbol := declaration.symbol, name := declaration.name, nameMatch
    declaring := some declaration.owner, type := declaration.type
    modifiers := declaration.modifiers
    access := declaration.access.strictest
      (((store.class? declaration.owner).map ClassDef.access).getD .accessible)
    origin, chain }

end Declaration

namespace Completion

/-- The candidate stands for a stored member, however it was reached and is to be written. -/
structure Candidate.StandsFor (store : Store) (candidate : Candidate) (declaration : Declaration) :
    Prop where
  stored : declaration.StoredIn store
  kind : candidate.kind = declaration.kind
  symbol : candidate.symbol = declaration.symbol
  name : candidate.name = declaration.name
  declaring : candidate.declaring = some declaration.owner

/-- The candidates differ at most in how they are written and scored. -/
structure Candidate.SameSubject (candidate other : Candidate) : Prop where
  kind : other.kind = candidate.kind
  symbol : other.symbol = candidate.symbol
  name : other.name = candidate.name
  declaring : other.declaring = candidate.declaring
  chain : other.chain = candidate.chain

theorem Candidate.SameSubject.refl (candidate : Candidate) : candidate.SameSubject candidate :=
  ⟨rfl, rfl, rfl, rfl, rfl⟩

theorem Candidate.SameSubject.trans {first second third : Candidate}
    (upper : first.SameSubject second) (lower : second.SameSubject third) :
    first.SameSubject third :=
  ⟨lower.kind.trans upper.kind, lower.symbol.trans upper.symbol, lower.name.trans upper.name,
    lower.declaring.trans upper.declaring, lower.chain.trans upper.chain⟩

/-- Two candidates for one subject are members together. -/
theorem Candidate.SameSubject.isMember {candidate other : Candidate}
    (same : candidate.SameSubject other) : other.isMember = candidate.isMember := by
  simp only [Candidate.isMember, same.kind]

theorem Candidate.SameSubject.root? {candidate other : Candidate}
    (same : candidate.SameSubject other) : other.root? = candidate.root? :=
  congrArg List.head? same.chain

/-- They have one signature. -/
theorem Candidate.SameSubject.signature? {candidate other : Candidate}
    (same : candidate.SameSubject other) (store : Store) :
    store.signature? other = store.signature? candidate := by
  simp only [Store.signature?, same.symbol, same.name]

/-- And they stand for the same declaration. -/
theorem Candidate.StandsFor.congr {store : Store} {candidate other : Candidate}
    {declaration : Declaration} (standsFor : candidate.StandsFor store declaration)
    (same : candidate.SameSubject other) : other.StandsFor store declaration :=
  ⟨standsFor.stored, same.kind.trans standsFor.kind, same.symbol.trans standsFor.symbol,
    same.name.trans standsFor.name, same.declaring.trans standsFor.declaring⟩

/-- A candidate that stands for a declaration has its signature. -/
theorem Candidate.StandsFor.signature? {store : Store} {candidate : Candidate}
    {declaration : Declaration} (standsFor : candidate.StandsFor store declaration) :
    store.signature? candidate = some declaration.signature := by
  have stored := standsFor.stored
  cases declaration with
  | field ref data =>
    simp [Store.signature?, standsFor.symbol, standsFor.name, Declaration.signature]
  | method ref data =>
    have method : store.methodAt? ref = some data := stored
    simp [Store.signature?, standsFor.symbol, method, Declaration.signature]

theorem Candidate.StandsFor.isMember {store : Store} {candidate : Candidate}
    {declaration : Declaration} (standsFor : candidate.StandsFor store declaration) :
    candidate.isMember = true := by
  cases declaration <;> simp [Candidate.isMember, standsFor.kind]

/-- Whether a search looks for members like this one, whatever their names. -/
def MemberSearch.wants (search : MemberSearch) : Declaration → Bool
  | .field _ data =>
    search.fields && (!search.constantsOnly || data.isConstant || data.isEnumConstant)
  | .method _ data =>
    search.methods && !(search.excludeAbstract && data.isAbstract) && !search.constantsOnly

namespace Session

variable {session : Session} {search : MemberSearch} {visit : Visit}

/-- What a search asks of the members of a class that it visits. -/
structure Passes (session : Session) (search : MemberSearch) (visit : Visit)
    (declaration : Declaration) (nameMatch : NameMatch) : Prop where
  stored : declaration.StoredIn session.store
  visited : declaration.owner = visit.owner
  wanted : search.wants declaration = true
  accepted : search.acceptsName declaration.name = true
  inherited : visit.isStart = true ∨ declaration.staysHome session.store = false
  callable : search.admitStatic declaration.modifiers = .ok ()
  named : session.match? declaration.name = some nameMatch
  admitted :
    session.admitMember declaration.owner declaration.modifiers declaration.access = .ok ()

/-! ## The members of one class -/

/-- The screening of a field accepts what passes, as the candidate for it. -/
theorem screenField_eq_ok {definition : ClassDef} {data : Field} {index : Nat}
    {candidate : Candidate} (stored : session.store.class? visit.owner = some definition)
    (declared : definition.fields[index]? = some data) (wanted : search.fields = true) :
    session.screenField search visit definition.access data index = .ok candidate ↔
      ∃ nameMatch, session.Passes search visit (.field ⟨visit.owner, index⟩ data) nameMatch ∧
        candidate = (Declaration.field ⟨visit.owner, index⟩ data).candidate session.store nameMatch
          visit.origin visit.route := by
  simp only [screenField, Screened.bind_eq_ok, Screened.require_eq_ok, Screened.pure_eq_ok,
    matchName_eq_ok]
  constructor
  · rintro ⟨_, accepted, _, inherited, _, callable, _, constant, nameMatch, named, _, admitted,
      rfl⟩
    refine ⟨nameMatch, ⟨?_, rfl, ?_, accepted, ?_, callable, named, admitted⟩, ?_⟩
    · simp [Declaration.StoredIn, Store.field?, stored, declared]
    · simp [MemberSearch.wants, wanted, constant]
    · simpa [Declaration.staysHome, Declaration.isInterfaceStatic] using inherited
    · simp [Declaration.candidate, stored]
  · rintro ⟨nameMatch, passes, rfl⟩
    refine ⟨(), passes.accepted, (), ?_, (), passes.callable, (), ?_, nameMatch, passes.named, (),
      passes.admitted, ?_⟩
    · simpa [Declaration.staysHome, Declaration.isInterfaceStatic] using passes.inherited
    · simpa [MemberSearch.wants, wanted] using passes.wanted
    · simp [Declaration.candidate, stored]

/-- The screening of a method does the same. -/
theorem screenMethod_eq_ok {definition : ClassDef} {data : Method} {index : Nat}
    {candidate : Candidate} (stored : session.store.class? visit.owner = some definition)
    (declared : definition.methods[index]? = some data) (wanted : search.methods = true) :
    session.screenMethod search visit definition data index = .ok candidate ↔
      ∃ nameMatch, session.Passes search visit (.method ⟨visit.owner, index⟩ data) nameMatch ∧
        candidate = (Declaration.method ⟨visit.owner, index⟩ data).candidate session.store nameMatch
          visit.origin visit.route := by
  simp only [screenMethod, Screened.bind_eq_ok, Screened.require_eq_ok, Screened.pure_eq_ok,
    matchName_eq_ok]
  constructor
  · rintro ⟨_, accepted, _, notPrivate, _, notStatic, _, concrete, _, constant, _, callable,
      nameMatch, named, _, admitted, rfl⟩
    refine ⟨nameMatch, ⟨?_, rfl, ?_, accepted, ?_, callable, named, admitted⟩, ?_⟩
    · simp [Declaration.StoredIn, Store.method?, stored, declared]
    · simp_all [MemberSearch.wants]
    · simp only [Bool.or_eq_true, Bool.not_eq_true'] at notPrivate notStatic
      rw [Declaration.staysHome, Bool.or_eq_false_iff, or_and_left]
      simpa only [Declaration.isInterfaceStatic, stored] using ⟨notPrivate, notStatic⟩
    · simp [Declaration.candidate, stored]
  · rintro ⟨nameMatch, passes, rfl⟩
    have wants := passes.wanted
    have inherited := passes.inherited
    simp only [MemberSearch.wants, wanted, Bool.true_and, Bool.and_eq_true] at wants
    simp only [Declaration.staysHome, Declaration.isInterfaceStatic, Declaration.modifiers, stored,
      Option.any_some, Bool.or_eq_false_iff] at inherited
    refine ⟨(), passes.accepted, (), ?_, (), ?_, (), wants.1, (), wants.2, (), passes.callable,
      nameMatch, passes.named, (), passes.admitted, ?_⟩
    · simpa only [Bool.or_eq_true, Bool.not_eq_true'] using inherited.imp_right And.left
    · simpa only [Bool.or_eq_true, Bool.not_eq_true'] using inherited.imp_right And.right
    · simp [Declaration.candidate, stored]

/-- The search of a visited class finds the members that pass. -/
theorem mem_items_declaredMembers {candidate : Candidate} :
    candidate ∈ Event.items (session.declaredMembers search visit) ↔
      ∃ declaration nameMatch, session.Passes search visit declaration nameMatch ∧
        candidate = declaration.candidate session.store nameMatch visit.origin visit.route := by
  cases stored : session.store.class? visit.owner with
  | none =>
    simp only [declaredMembers, stored, Event.items_nil, List.not_mem_nil, false_iff]
    rintro ⟨declaration, nameMatch, passes, -⟩
    have held := Declaration.class?_of_storedIn passes.stored
    rw [passes.visited, stored] at held
    exact absurd held (by simp)
  | some definition =>
    simp only [declaredMembers, stored, Event.items_append, List.mem_append, Event.items_ite_nil,
      List.mem_ite_nil_right, Event.mem_items_zipIdx]
    constructor
    · rintro (⟨wanted, data, index, declared, passed⟩ | ⟨wanted, data, index, declared, passed⟩)
      · exact ⟨_, (screenField_eq_ok stored declared wanted).mp passed⟩
      · exact ⟨_, (screenMethod_eq_ok stored declared wanted).mp passed⟩
    · rintro ⟨declaration, nameMatch, passes, rfl⟩
      have held := passes.stored
      have wants := passes.wanted
      cases declaration with
      | field ref data =>
        obtain ⟨owner, index⟩ := ref
        obtain rfl : owner = visit.owner := passes.visited
        simp only [Declaration.StoredIn, Store.field?, stored, Option.bind_eq_bind,
          Option.bind_some] at held
        simp only [MemberSearch.wants, Bool.and_eq_true] at wants
        exact .inl ⟨wants.1, data, index, held,
          (screenField_eq_ok stored held wants.1).mpr ⟨nameMatch, passes, rfl⟩⟩
      | method ref data =>
        obtain ⟨owner, index⟩ := ref
        obtain rfl : owner = visit.owner := passes.visited
        simp only [Declaration.StoredIn, Store.method?, stored, Option.bind_eq_bind,
          Option.bind_some] at held
        simp only [MemberSearch.wants, Bool.and_eq_true] at wants
        exact .inr ⟨wants.1.1, data, index, held,
          (screenMethod_eq_ok stored held wants.1.1).mpr ⟨nameMatch, passes, rfl⟩⟩

/-! ## The classes that are visited -/

/-- The routes of the superclass chain lead to the classes of the chain, in order. -/
theorem map_fst_chainRoutes (store : Store) (root start : ClassId) :
    (store.chainRoutes root start).map Prod.fst = store.superclassChain start := by
  simp [Store.chainRoutes, Function.comp_def]

/-- The root class is visited on its own if it was not visited before. -/
theorem mem_objectRoute {store : Store} {root start : ClassId} {entry : ClassId × List ClassId} :
    entry ∈ store.objectRoute root start ↔
      .object ∉ store.superclassChain start ++ (store.interfaceRoutes root start).map Prod.fst ∧
      entry = (.object,
        (((store.chainRoutes root start).getLast?.map Prod.snd).getD [root]) ++ [.object]) := by
  have reached : ((store.chainRoutes root start ++ store.interfaceRoutes root start).any
      fun entry => entry.1 == .object) = true ↔
      .object ∈ store.superclassChain start ++ (store.interfaceRoutes root start).map Prod.fst := by
    rw [← map_fst_chainRoutes store root start, ← List.map_append, List.any_eq_true]
    simp only [List.mem_map, beq_iff_eq]
  by_cases found : .object ∈ store.superclassChain start ++
      (store.interfaceRoutes root start).map Prod.fst
  · simp only [Store.objectRoute, if_pos (reached.mpr found), found, not_true_eq_false, false_and,
      List.not_mem_nil]
  · simp only [Store.objectRoute, if_neg (mt reached.mp found), found, not_false_eq_true, true_and,
      List.mem_singleton]

/-- The classes visited: the superclass chain, the interfaces, and the root class if it is
missing. -/
theorem map_owner_visits (session : Session) (root start : ClassId) (origin : Origin) :
    (session.visits root start origin).map Visit.owner =
      session.store.superclassChain start ++ (session.store.interfaceRoutes root start).map Prod.fst
        ++ (session.store.objectRoute root start).map Prod.fst := by
  have routes : (session.store.chainRoutes root start).zipIdx.map (Prod.fst ∘ Prod.fst) =
      session.store.superclassChain start := by
    rw [← List.map_map, List.zipIdx_map_fst, map_fst_chainRoutes]
  rw [← routes]
  simp [visits, Function.comp_def]

/-- The classes visited for the members of a class are those that it inherits from. -/
theorem mem_owners_visits {root start owner : ClassId} {origin : Origin} :
    owner ∈ (session.visits root start origin).map Visit.owner ↔
      session.store.InheritsFrom start owner := by
  have early : owner ∈ session.store.superclassChain start ++
      (session.store.interfaceRoutes root start).map Prod.fst ↔
      ∃ base, ReflTransGen session.store.Extends start base ∧
        ReflTransGen session.store.Implements base owner := by
    rw [List.mem_append, Store.mem_superclassChain, Store.mem_interfaceRoutes]
    constructor
    · rintro (chain | ⟨base, chain, path⟩)
      · exact ⟨owner, chain, .refl⟩
      · exact ⟨base, chain, path.to_reflTransGen⟩
    · rintro ⟨base, chain, path⟩
      rcases reflTransGen_iff_eq_or_transGen.mp path with rfl | path
      · exact .inl chain
      · exact .inr ⟨base, chain, path⟩
  rw [map_owner_visits, List.mem_append, early, Store.InheritsFrom]
  constructor
  · rintro (found | late)
    · exact .inr found
    · obtain ⟨entry, mem, rfl⟩ := List.mem_map.mp late
      exact .inl (congrArg Prod.fst (mem_objectRoute.mp mem).2)
  · rintro (rfl | found)
    · by_cases found : ClassId.object ∈ session.store.superclassChain start ++
          (session.store.interfaceRoutes root start).map Prod.fst
      · exact .inl (early.mp found)
      · exact .inr (List.mem_map.mpr ⟨_, mem_objectRoute.mpr ⟨found, rfl⟩, rfl⟩)
    · exact .inl found

/-- A visit is one of the superclass chain, one of an interface, or one of the root class. -/
theorem visits_cases {root start : ClassId} {origin : Origin}
    (visited : visit ∈ session.visits root start origin) :
    (∃ depth, (session.store.superclassChain start)[depth]? = some visit.owner ∧
      (visit.owner, visit.route) ∈ session.store.chainRoutes root start ∧
      visit.isStart = (depth == 0)) ∨
    ((visit.owner, visit.route) ∈ session.store.interfaceRoutes root start ∧
      visit.isStart = (visit.owner == start)) ∨
    ((visit.owner, visit.route) ∈ session.store.objectRoute root start ∧
      visit.isStart = false) := by
  simp only [visits, List.mem_append, List.mem_map] at visited
  rcases visited with (⟨⟨⟨owner, route⟩, depth⟩, mem, rfl⟩ | ⟨⟨owner, route⟩, mem, rfl⟩) |
    ⟨⟨owner, route⟩, mem, rfl⟩
  · have place := List.mem_zipIdx_iff_getElem?.mp mem
    refine .inl ⟨depth, ?_, List.fst_mem_of_mem_zipIdx mem, rfl⟩
    rw [← map_fst_chainRoutes session.store root start, List.getElem?_map, place]
    rfl
  · exact .inr (.inl ⟨mem, rfl⟩)
  · exact .inr (.inr ⟨mem, rfl⟩)

/-- The search began at the visit of the class itself. -/
theorem isStart_iff {root start : ClassId} {origin : Origin}
    (visited : visit ∈ session.visits root start origin) :
    visit.isStart = true ↔ visit.owner = start := by
  have first : (session.store.superclassChain start)[0]? = some start :=
    (List.head?_eq_getElem? ▸ session.store.head?_superclassChain start)
  rcases visits_cases visited with ⟨depth, place, -, mark⟩ | ⟨-, mark⟩ | ⟨mem, mark⟩
  · rw [mark, beq_iff_eq]
    constructor
    · rintro rfl
      exact Option.some.inj (place.symm.trans first)
    · intro same
      rw [same, ← first] at place
      exact ((List.getElem?_inj (List.getElem?_eq_some_iff.mp first).1
        (session.store.nodup_superclassChain start)).mp place.symm).symm
  · rw [mark, beq_iff_eq]
  · obtain ⟨missing, same⟩ := mem_objectRoute.mp mem
    have owner : visit.owner = .object := congrArg Prod.fst same
    rw [mark, owner]
    refine ⟨fun absurd => by simp at absurd, ?_⟩
    rintro rfl
    exact absurd (List.mem_append_left _ (List.mem_of_getElem? first)) missing

/-- The search for interfaces keeps the beginnings of the routes in its queue. -/
theorem head?_interfacesFrom {store : Store} {root : ClassId} {visited : List ClassId}
    {queue : List (ClassId × List ClassId)}
    (started : ∀ entry ∈ queue, entry.2.head? = some root) :
    ∀ entry ∈ store.interfacesFrom visited queue, entry.2.head? = some root := by
  fun_induction Store.interfacesFrom store visited queue with
  | case1 => simp
  | case2 visited id route queue _ ih =>
    exact ih fun entry mem => started entry (List.mem_cons_of_mem _ mem)
  | case3 visited id route queue _ ih =>
    have route_start : (route ++ [id]).head? = some root := by
      simp [started (id, route) List.mem_cons_self]
    intro entry mem
    rcases List.mem_cons.mp mem with rfl | mem
    · exact route_start
    · refine ih (fun entry mem => ?_) entry mem
      rcases List.mem_append.mp mem with mem | mem
      · exact started entry (List.mem_cons_of_mem _ mem)
      · obtain ⟨next, -, rfl⟩ := List.mem_map.mp mem
        exact route_start

theorem head?_chainRoutes {store : Store} {root start : ClassId} :
    ∀ entry ∈ store.chainRoutes root start, entry.2.head? = some root := by
  intro entry mem
  obtain ⟨⟨id, depth⟩, -, rfl⟩ := List.mem_map.mp mem
  dsimp only
  split <;> rfl

/-- Every route begins at the root of the search. -/
theorem head?_route {root start : ClassId} {origin : Origin}
    (visited : visit ∈ session.visits root start origin) :
    visit.route.head? = some root := by
  rcases visits_cases visited with ⟨-, -, mem, -⟩ | ⟨mem, -⟩ | ⟨mem, -⟩
  · exact head?_chainRoutes _ mem
  · refine head?_interfacesFrom (fun entry queued => ?_) _ mem
    obtain ⟨⟨base, depth⟩, -, named⟩ := List.mem_flatMap.mp queued
    obtain ⟨iface, -, rfl⟩ := List.mem_map.mp named
    rfl
  · obtain ⟨-, same⟩ := mem_objectRoute.mp mem
    rw [show visit.route = _ from congrArg Prod.snd same]
    cases last : (session.store.chainRoutes root start).getLast? with
    | none => rfl
    | some entry => simp [head?_chainRoutes entry (List.mem_of_getLast? last)]

/-! ## The members of a class and of all it inherits from -/

/-- A search finds the members that pass in one of the classes it visits. -/
theorem mem_items_members {root start : ClassId} {origin : Origin} {candidate : Candidate} :
    candidate ∈ Event.items (session.members search root start origin) ↔
      ∃ visit ∈ session.visits root start origin, ∃ declaration nameMatch,
        session.Passes search visit declaration nameMatch ∧
          candidate = declaration.candidate session.store nameMatch visit.origin visit.route := by
  simp only [members, Event.items_flatMap, List.mem_flatMap, mem_items_declaredMembers]

/-- What a search for the members of a class finds, however it gets there. -/
structure Finds (session : Session) (search : MemberSearch) (root : ClassId)
    (declaration : Declaration) : Prop where
  stored : declaration.StoredIn session.store
  inherited : session.store.InheritsFrom root declaration.owner
  home : declaration.staysHome session.store = false ∨ declaration.owner = root
  wanted : search.wants declaration = true
  accepted : search.acceptsName declaration.name = true
  callable : search.admitStatic declaration.modifiers = .ok ()
  named : (session.match? declaration.name).isSome
  admitted :
    session.admitMember declaration.owner declaration.modifiers declaration.access = .ok ()

/-- A member passes in one of the classes visited if the search finds it. -/
theorem exists_passes_iff {root : ClassId} {origin : Origin} {declaration : Declaration} :
    (∃ visit ∈ session.visits root root origin, ∃ nameMatch,
      session.Passes search visit declaration nameMatch) ↔
        session.Finds search root declaration := by
  constructor
  · rintro ⟨visit, visited, nameMatch, passes⟩
    have inherited : session.store.InheritsFrom root declaration.owner :=
      passes.visited ▸ mem_owners_visits.mp (List.mem_map_of_mem visited)
    have home : declaration.staysHome session.store = false ∨ declaration.owner = root := by
      rw [passes.visited, ← isStart_iff visited]
      exact passes.inherited.symm
    exact ⟨passes.stored, inherited, home, passes.wanted, passes.accepted, passes.callable,
      Option.isSome_of_eq_some passes.named, passes.admitted⟩
  · intro finds
    have reached : declaration.owner ∈ (session.visits root root origin).map Visit.owner :=
      mem_owners_visits.mpr finds.inherited
    obtain ⟨visit, visited, owner⟩ := List.mem_map.mp reached
    obtain ⟨nameMatch, named⟩ := Option.isSome_iff_exists.mp finds.named
    refine ⟨visit, visited, nameMatch, finds.stored, owner.symm, finds.wanted, finds.accepted, ?_,
      finds.callable, named, finds.admitted⟩
    rw [isStart_iff visited, owner]
    exact finds.home.symm

end Session

end Completion

end CodeAssist
