import CodeAssist.Proofs.Completion.Contention
import CodeAssist.Proofs.Completion.Filters
import CodeAssist.Proofs.Completion.Words
/-!
# Options that hide, and the walk

Two options hide candidates, one what is deprecated and the other what the access rules discourage.
With such an option switched on, a walk finds what it found before, without what the option hides
(`Sifts`). Only behind a cast there can be more: the members of the cast are left out where the
receiver has the same member, and that member may be hidden.

So for a stake for which nothing is hidden the walk finds the same candidates
(`vying_walked_hidingBy`), and what becomes of them is the same (`vying_kept_hidingBy`).
-/

namespace CodeAssist.Completion

/-- An option that hides candidates. -/
inductive HidingOption where
  | deprecation
  | discouraged
deriving DecidableEq, Repr

namespace HidingOption

/-- The options with this one switched on. -/
def switchOn (option : HidingOption) (options : Options) : Options :=
  match option with
  | .deprecation => { options with checkDeprecation := true }
  | .discouraged => { options with checkDiscouraged := true }

/-- Whether the option speaks of a declaration with an access and modifiers. -/
def covers (option : HidingOption) (access : Access) (modifiers : Modifiers) : Bool :=
  match option with
  | .deprecation => modifiers.isDeprecated
  | .discouraged => access == .discouraged

/-- Whether the option hides a candidate. A constructor of the index is judged by its own access,
whatever the access of its type. -/
def hides (option : HidingOption) (candidate : Candidate) : Bool :=
  match candidate.symbol with
  | .indexedConstructor constructor => option.covers constructor.access constructor.modifiers
  | _ => option.covers candidate.access candidate.modifiers

end HidingOption

namespace Session

variable {session : Session} {option : HidingOption} {candidate other : Candidate}

/-- The same request with an option switched on that hides candidates. -/
def hidingBy (session : Session) (option : HidingOption) : Session :=
  { session with options := option.switchOn session.options }

/-! ## The options -/

section Options

variable (session : Session) (option : HidingOption)

@[simp] theorem matching_hidingBy :
    (session.hidingBy option).options.matching = session.options.matching := by
  cases option <;> rfl

@[simp] theorem checkVisibility_hidingBy :
    (session.hidingBy option).options.checkVisibility = session.options.checkVisibility := by
  cases option <;> rfl

@[simp] theorem suggestStaticImport_hidingBy :
    (session.hidingBy option).options.suggestStaticImport =
      session.options.suggestStaticImport := by
  cases option <;> rfl

@[simp] theorem parsedFavorites_hidingBy :
    (session.hidingBy option).options.parsedFavorites = session.options.parsedFavorites := by
  cases option <;> rfl

@[simp] theorem forceQualification_hidingBy :
    (session.hidingBy option).options.forceQualification = session.options.forceQualification := by
  cases option <;> rfl

/-- An option that hides does not change how names are matched. -/
@[simp] theorem match?_hidingBy : (session.hidingBy option).match? = session.match? := by
  funext name
  rw [match?, matching_hidingBy]
  rfl

@[simp] theorem matchName_hidingBy : (session.hidingBy option).matchName = session.matchName := by
  funext name
  rw [matchName, matchName, match?_hidingBy]

end Options

/-- With the option switched on, the access rules let through what they let through before, without
what the option covers. -/
theorem admitAccess_hidingBy {access : Access} {modifiers : Modifiers} {passed : Unit} :
    (session.hidingBy option).admitAccess access modifiers = .ok passed ↔
      session.admitAccess access modifiers = .ok passed ∧
        option.covers access modifiers = false := by
  rw [admitAccess_eq_ok, admitAccess_eq_ok]
  cases option <;> simp [hidingBy, HidingOption.switchOn, HidingOption.covers] <;> tauto

/-- What is hidden is decided by the profile of a candidate, whatever route it was found over. -/
theorem hides_congr (same : other.profile = candidate.profile) :
    option.hides other = option.hides candidate := by
  simp only [Candidate.profile, Prod.mk.injEq] at same
  obtain ⟨-, symbol, -, modifiers, access⟩ := same
  rw [HidingOption.hides, HidingOption.hides, symbol, modifiers, access]

/-- Variables, keywords, labels and the members of arrays are never hidden. -/
theorem hides_of_undeclared (access : candidate.access = .accessible)
    (modifiers : candidate.modifiers ∈ undeclaredModifiers)
    (symbol : ∀ constructor, candidate.symbol ≠ .indexedConstructor constructor) :
    option.hides candidate = false := by
  have current : ∀ modifiers ∈ undeclaredModifiers, modifiers.isDeprecated = false := by decide
  unfold HidingOption.hides
  split
  next constructor same => exact absurd same (symbol constructor)
  next => cases option <;> simp [HidingOption.covers, access, current _ modifiers]

/-- A screening that asks in addition whether the candidate is hidden loses what is hidden. -/
theorem items_events_of_passes {first second : Screened Candidate}
    (passes : ∀ candidate, second = .ok candidate ↔
      first = .ok candidate ∧ option.hides candidate = false) :
    Event.items second.events =
      (Event.items first.events).filter fun candidate => !option.hides candidate := by
  cases second with
  | ok candidate =>
    obtain ⟨rfl, shown⟩ := (passes candidate).mp rfl
    simp [Screened.events, shown]
  | error reason =>
    have nothing : Event.items (Screened.events (.error reason : Screened Candidate)) = [] := by
      cases reason <;> rfl
    rw [nothing]
    refine (List.filter_eq_nil_iff.mpr fun candidate mem => ?_).symm
    have found := Screened.mem_items_events.mp mem
    intro shown
    have passed := (passes candidate).mpr ⟨found, by simpa using shown⟩
    cases passed

/-! ## Stages that lose what is hidden -/

/-- The second stage finds what the first one finds without what the option hides, which are
members and types. -/
structure Sifts (option : HidingOption) (loose strict : List (Event Candidate)) : Prop where
  items : Event.items strict =
    (Event.items loose).filter fun candidate => !option.hides candidate
  declared : ∀ candidate ∈ Event.items loose, option.hides candidate = true →
    candidate.isMember = true ∨ candidate.kind = .type

namespace Sifts

variable {loose strict more moreStrict : List (Event Candidate)}

theorem nil : Sifts option [] [] := ⟨rfl, by simp⟩

/-- Stages that sift do so one after the other. -/
theorem append (first : Sifts option loose strict) (second : Sifts option more moreStrict) :
    Sifts option (loose ++ more) (strict ++ moreStrict) := by
  refine ⟨?_, fun candidate mem => ?_⟩
  · rw [Event.items_append, Event.items_append, List.filter_append, first.items, second.items]
  · rw [Event.items_append, List.mem_append] at mem
    exact mem.elim (first.declared candidate) (second.declared candidate)

/-- A stage that is run for some requests only sifts where it is run. -/
theorem ite {wanted : Prop} [Decidable wanted] (sifts : Sifts option loose strict) :
    Sifts option (if wanted then loose else []) (if wanted then strict else []) := by
  split
  · exact sifts
  · exact .nil

/-- A stage that goes over things sifts if it does so for each of them. -/
theorem flatMap {α : Type} {things : List α} {first second : α → List (Event Candidate)}
    (each : ∀ thing ∈ things, Sifts option (first thing) (second thing)) :
    Sifts option (things.flatMap first) (things.flatMap second) := by
  induction things with
  | nil => exact .nil
  | cons thing things ih =>
    rw [List.flatMap_cons, List.flatMap_cons]
    exact (each thing List.mem_cons_self).append
      (ih fun other mem => each other (List.mem_cons_of_mem _ mem))

/-- A change of how candidates are written hides none of them and brings none back. -/
theorem map (sifts : Sifts option loose strict) {change : Candidate → Candidate}
    (same : ∀ candidate, (change candidate).profile = candidate.profile) :
    Sifts option (loose.map (Event.map change)) (strict.map (Event.map change)) := by
  have kinds : ∀ candidate, (change candidate).kind = candidate.kind := fun candidate =>
    congrArg Prod.fst (same candidate)
  refine ⟨?_, fun candidate mem hidden => ?_⟩
  · rw [Event.items_map, Event.items_map, sifts.items, List.filter_map]
    simp [Function.comp_def, hides_congr (same _)]
  · rw [Event.items_map] at mem
    obtain ⟨original, listed, rfl⟩ := List.mem_map.mp mem
    rw [hides_congr (same original)] at hidden
    rw [Candidate.isMember, kinds, ← Candidate.isMember]
    exact sifts.declared original listed hidden

/-- Nothing is lost of a stage of which nothing is hidden. -/
theorem of_shown (shown : ∀ candidate ∈ Event.items loose, option.hides candidate = false) :
    Sifts option loose loose := by
  refine ⟨(List.filter_eq_self.mpr fun candidate mem => ?_).symm, fun candidate mem hidden => ?_⟩
  · rw [shown candidate mem, Bool.not_false]
  · exact absurd ((shown candidate mem).symm.trans hidden) Bool.false_ne_true

/-- A screening that asks in addition whether the candidate is hidden. -/
theorem step {first second : Screened Candidate}
    (passes : ∀ candidate, second = .ok candidate ↔
      first = .ok candidate ∧ option.hides candidate = false)
    (declared : ∀ candidate, first = .ok candidate →
      candidate.isMember = true ∨ candidate.kind = .type) :
    Sifts option first.step second.step := by
  refine ⟨?_, fun candidate mem _ => declared candidate (Screened.mem_items_events.mp mem)⟩
  rw [Screened.items_step, Screened.items_step]
  exact items_events_of_passes passes

end Sifts

/-! ## Members and types -/

/-- A member passes with the option switched on if it passes without it and the option does not hide
it. -/
theorem passes_hidingBy {search : MemberSearch} {visit : Visit} {declaration : Declaration}
    {nameMatch : Matching.NameMatch} (origin : Origin) (chain : List ClassId) :
    (session.hidingBy option).Passes search visit declaration nameMatch ↔
      session.Passes search visit declaration nameMatch ∧
        option.hides (declaration.candidate session.store nameMatch origin chain) = false := by
  have hides : option.hides (declaration.candidate session.store nameMatch origin chain) =
      option.covers (declaration.access.strictest
        (((session.store.class? declaration.owner).map ClassDef.access).getD .accessible))
        declaration.modifiers := by
    cases declaration <;> rfl
  have admits : (session.hidingBy option).admitMember declaration.owner declaration.modifiers
      declaration.access = .ok () ↔
      session.admitMember declaration.owner declaration.modifiers declaration.access = .ok () ∧
        option.hides (declaration.candidate session.store nameMatch origin chain) = false := by
    simp only [admitMember, Screened.bind_eq_ok, Screened.requireOr_eq_ok, checkVisibility_hidingBy,
      exists_and_left, exists_const, hides, and_assoc]
    exact and_congr_right fun _ => admitAccess_hidingBy
  constructor
  · intro passes
    obtain ⟨admitted, shown⟩ := admits.mp passes.admitted
    exact ⟨{ passes with named := match?_hidingBy session option ▸ passes.named, admitted }, shown⟩
  · rintro ⟨passes, shown⟩
    exact { passes with
      named := by rw [match?_hidingBy]; exact passes.named
      admitted := admits.mpr ⟨passes.admitted, shown⟩ }

/-- A screening that lets a declaration through if it passes. -/
theorem sifts_of_passes {search : MemberSearch} {visit : Visit} {declaration : Declaration}
    {first second : Screened Candidate}
    (loose : ∀ candidate, first = .ok candidate ↔ ∃ nameMatch,
      session.Passes search visit declaration nameMatch ∧
        candidate = declaration.candidate session.store nameMatch visit.origin visit.route)
    (strict : ∀ candidate, second = .ok candidate ↔ ∃ nameMatch,
      (session.hidingBy option).Passes search visit declaration nameMatch ∧
        candidate = declaration.candidate session.store nameMatch visit.origin visit.route) :
    Sifts option first.step second.step := by
  refine .step (fun candidate => ?_) fun candidate screened => .inl ?_
  · rw [strict, loose, ← exists_and_right]
    refine exists_congr fun nameMatch => ?_
    rw [and_right_comm, passes_hidingBy visit.origin visit.route]
    exact and_congr_left fun same => by rw [same]
  · obtain ⟨nameMatch, -, rfl⟩ := (loose candidate).mp screened
    cases declaration <;> rfl

/-- The members that a visited class declares are screened one by one, so only hidden ones are
lost. -/
theorem sifts_declaredMembers (session : Session) (option : HidingOption) (search : MemberSearch)
    (visit : Visit) :
    Sifts option (session.declaredMembers search visit)
      ((session.hidingBy option).declaredMembers search visit) := by
  have store : (session.hidingBy option).store = session.store := rfl
  unfold declaredMembers
  rw [store]
  cases stored : session.store.class? visit.owner with
  | none => exact .nil
  | some definition =>
    refine .append ?_ ?_
    · split
      next wanted =>
        refine .flatMap fun (data, index) mem => ?_
        have declared := List.mem_zipIdx_iff_getElem?.mp mem
        exact sifts_of_passes (fun _ => screenField_eq_ok stored declared wanted)
          fun _ => screenField_eq_ok stored declared wanted
      next => exact .nil
    · split
      next wanted =>
        refine .flatMap fun (data, index) mem => ?_
        have declared := List.mem_zipIdx_iff_getElem?.mp mem
        exact sifts_of_passes (fun _ => screenMethod_eq_ok stored declared wanted)
          fun _ => screenMethod_eq_ok stored declared wanted
      next => exact .nil

/-- The visits are the same, because which classes are visited does not depend on the options. -/
theorem sifts_members (session : Session) (option : HidingOption) (search : MemberSearch)
    (root start : ClassId) (origin : Origin) :
    Sifts option (session.members search root start origin)
      ((session.hidingBy option).members search root start origin) :=
  .flatMap fun visit _ => session.sifts_declaredMembers option search visit

theorem sifts_importedMembers (session : Session) (option : HidingOption) (search : MemberSearch)
    (id : ClassId) (origin : Origin) :
    Sifts option (session.importedMembers search id origin)
      ((session.hidingBy option).importedMembers search id origin) :=
  (session.sifts_members option search id id origin).map fun _ => rfl

/-- A type is screened by its access and its modifiers, which is what the option looks at. -/
theorem sifts_screenType (session : Session) (option : HidingOption) (origin : Origin)
    (id : ClassId) :
    Sifts option (session.screenType origin id).step
      ((session.hidingBy option).screenType origin id).step := by
  refine .step (fun candidate => ?_) fun candidate screened => .inr ?_
  · have store : (session.hidingBy option).store = session.store := rfl
    have view : (session.hidingBy option).view = session.view := rfl
    have forbids : (session.hidingBy option).forbids = session.forbids := rfl
    simp only [screenType, Screened.bind_eq_ok, Screened.require_eq_ok, store, view, forbids,
      matchName_hidingBy, checkVisibility_hidingBy]
    cases session.store.class? id with
    | none => simp
    | some definition =>
      simp only [Screened.bind_eq_ok, Screened.requireOr_eq_ok, Screened.pure_eq_ok,
        admitAccess_hidingBy]
      constructor
      · rintro ⟨_, allowed, nameMatch, matched, _, visible, _, ⟨admitted, shown⟩, rfl⟩
        exact ⟨⟨(), allowed, nameMatch, matched, (), visible, (), admitted, rfl⟩, shown⟩
      · rintro ⟨⟨_, allowed, nameMatch, matched, _, visible, _, admitted, rfl⟩, shown⟩
        exact ⟨(), allowed, nameMatch, matched, (), visible, (), ⟨admitted, shown⟩, rfl⟩
  · obtain ⟨definition, stored⟩ := storedType_of_screenType screened
    exact stored.kind

theorem sifts_types (session : Session) (option : HidingOption) (origin : Origin)
    (ids : List ClassId) :
    Sifts option (ids.flatMap fun id => (session.screenType origin id).step)
      (ids.flatMap fun id => ((session.hidingBy option).screenType origin id).step) :=
  .flatMap fun id _ => session.sifts_screenType option origin id

/-- Member types are lost only where they are hidden, inherited ones like declared ones. -/
theorem sifts_memberTypes (session : Session) (option : HidingOption) (id : ClassId) :
    Sifts option (session.memberTypes id) ((session.hidingBy option).memberTypes id) :=
  .append (session.sifts_types option .declared _)
    (.flatMap fun _ _ => session.sifts_types option .inherited _)

/-! ## The file -/

/-- A static import still imports the same members, some of them hidden. -/
theorem sifts_staticImports (session : Session) (option : HidingOption) (imports : Imports)
    (mode : WalkMode) :
    Sifts option (session.staticImports imports mode)
      ((session.hidingBy option).staticImports imports mode) := by
  have store : (session.hidingBy option).store = session.store := rfl
  unfold staticImports
  rw [store]
  refine .append (.flatMap fun (owner, name) _ => ?_) (.flatMap fun owner _ => ?_)
  · dsimp only
    split
    · exact session.sifts_importedMembers option _ _ .staticImport
    · exact .nil
  · dsimp only
    split
    · exact session.sifts_importedMembers option _ _ .staticImport
    · exact .nil

/-- Favorites are looked up as static imports are; a favorite without its class finds nothing in
either run. -/
theorem sifts_favoriteMembers (session : Session) (option : HidingOption) (imports : Imports)
    (favorite : Favorite) :
    Sifts option (session.favoriteMembers imports favorite)
      ((session.hidingBy option).favoriteMembers imports favorite) := by
  have store : (session.hidingBy option).store = session.store := rfl
  have withImport : (session.hidingBy option).withImport = session.withImport := by
    funext owner candidate
    simp only [Session.withImport, suggestStaticImport_hidingBy]
  unfold favoriteMembers
  rw [store, withImport]
  dsimp only
  split
  next =>
    refine (session.sifts_importedMembers option _ _ .favorite).map fun candidate => ?_
    split
    · rfl
    · unfold Session.withImport
      split <;> rfl
  next => exact .nil

/-- What a scope adds apart from its variables. -/
theorem sifts_kindCandidates (session : Session) (option : HidingOption) (mode : WalkMode)
    (staticOnly : Bool) (kind : ScopeKind) :
    Sifts option (session.kindCandidates mode staticOnly kind)
      ((session.hidingBy option).kindCandidates mode staticOnly kind) := by
  cases kind with
  | «class» id =>
    exact .append (.ite (session.sifts_members option _ id id .declared))
      (.ite (session.sifts_memberTypes option id))
  | unit package imports types =>
    have favorites := parsedFavorites_hidingBy session option
    have named : (session.hidingBy option).store = session.store := rfl
    simp only [kindCandidates, unitCandidates, importedTypes, favorites, named]
    exact .append (.append (.ite (.append (session.sifts_types option .declared types)
      (session.sifts_types option .explicitImport _)))
      (.ite (session.sifts_staticImports option imports mode)))
      (.ite (.flatMap fun favorite _ => session.sifts_favoriteMembers option imports favorite))
  | _ => exact .nil

/-! ## Scopes -/

/-- Variables are neither deprecated nor discouraged. -/
theorem shown_of_screenLocal {mode : WalkMode} {binding : Local}
    (screened : session.screenLocal mode binding = .ok candidate) :
    option.hides candidate = false := by
  simp only [screenLocal, Screened.bind_eq_ok, Screened.pure_eq_ok] at screened
  obtain ⟨_, -, nameMatch, -, rfl⟩ := screened
  refine hides_of_undeclared rfl ?_ (by simp)
  cases binding.isFinal <;> simp [undeclaredModifiers]

/-- The walk over the scopes: variables stay, and each scope sifts what else it adds. -/
theorem sifts_walkScopes (session : Session) (option : HidingOption) (mode : WalkMode)
    (staticOnly : Bool) (seen : List String) (scopes : List Scope) :
    Sifts option (session.walkScopes mode staticOnly seen scopes)
      ((session.hidingBy option).walkScopes mode staticOnly seen scopes) := by
  have screenLocal : (session.hidingBy option).screenLocal = session.screenLocal := by
    funext mode binding
    simp only [Session.screenLocal, matchName_hidingBy]
  induction scopes generalizing staticOnly seen with
  | nil => exact .nil
  | cons scope outer ih =>
    rw [walkScopes, walkScopes, screenLocal]
    refine .append (.append (.ite (.of_shown fun candidate mem => ?_))
      (session.sifts_kindCandidates option mode staticOnly scope.kind)) (ih _ _)
    simp only [Event.items_flatMap, Screened.items_step, List.mem_flatMap,
      Screened.mem_items_events] at mem
    obtain ⟨binding, -, screened⟩ := mem
    exact shown_of_screenLocal screened

theorem keyword?_hidingBy (session : Session) (option : HidingOption) :
    (session.hidingBy option).keyword? = session.keyword? := by
  funext word
  simp only [keyword?, match?_hidingBy]

/-- Keywords are not hidden either. -/
theorem shown_of_keyword? {word : String} (found : session.keyword? word = some candidate) :
    option.hides candidate = false := by
  simp only [keyword?, Option.bind_eq_bind, Option.bind_eq_some_iff] at found
  obtain ⟨nameMatch, -, _, -, same⟩ := found
  cases same
  exact hides_of_undeclared rfl (by simp [undeclaredModifiers]) (by simp)

theorem sifts_keywords (session : Session) (option : HidingOption) :
    Sifts option session.keywords (session.hidingBy option).keywords := by
  have context : (session.hidingBy option).inStaticContext = session.inStaticContext :=
    inStaticContext_congr rfl rfl
  have view : (session.hidingBy option).view = session.view := rfl
  have request : (session.hidingBy option).request = session.request := rfl
  have same : (session.hidingBy option).keywords = session.keywords := by
    simp only [keywords, context, view, request, keyword?_hidingBy]
  rw [same]
  refine .of_shown fun candidate mem => ?_
  rw [keywords, Event.items_map_found] at mem
  obtain ⟨word, -, found⟩ := List.mem_filterMap.mp mem
  exact shown_of_keyword? found

/-- Nor are labels. -/
theorem sifts_labelsFrom (session : Session) (option : HidingOption) (seen : List String)
    (scopes : List Scope) :
    Sifts option (session.labelsFrom seen scopes)
      ((session.hidingBy option).labelsFrom seen scopes) := by
  induction scopes generalizing seen with
  | nil => exact .nil
  | cons scope outer ih =>
    rw [labelsFrom, labelsFrom, matchName_hidingBy]
    refine .append (.of_shown fun candidate mem => ?_) ?_
    · simp only [Event.items_flatMap, List.mem_flatMap, Screened.mem_items_events,
        Screened.bind_eq_ok, Screened.pure_eq_ok] at mem
      obtain ⟨label, -, nameMatch, -, rfl⟩ := mem
      exact hides_of_undeclared rfl (by simp [undeclaredModifiers]) (by simp)
    · split
      · exact .nil
      · exact ih _

/-! ## Behind a dot -/

theorem sifts_arrayMembers (session : Session) (option : HidingOption) (array : TypeRef) :
    Sifts option (session.arrayMembers array)
      ((session.hidingBy option).arrayMembers array) := by
  have same : (session.hidingBy option).arrayMembers array = session.arrayMembers array := by
    simp only [arrayMembers, matchName_hidingBy]
  rw [same]
  refine .of_shown fun candidate mem => ?_
  simp only [arrayMembers, List.cons_append, Event.items_tick, Event.items_append,
    List.mem_append, Screened.mem_items_events, Screened.bind_eq_ok, Screened.pure_eq_ok] at mem
  rcases mem with ⟨nameMatch, -, rfl⟩ | ⟨nameMatch, -, rfl⟩
  · exact hides_of_undeclared rfl (by simp [undeclaredModifiers]) (by simp)
  · exact hides_of_undeclared rfl (by simp [undeclaredModifiers]) (by simp)

/-- Behind a dot, the members of a class, of an array or of a guessed class are sifted. -/
theorem sifts_receiverMembers (session : Session) (option : HidingOption) (receiver : TypeRef) :
    Sifts option (session.receiverMembers receiver)
      ((session.hidingBy option).receiverMembers receiver) := by
  have class? : (session.hidingBy option).receiverClass? = session.receiverClass? := rfl
  have guess : (session.hidingBy option).guess = session.guess := rfl
  unfold receiverMembers guessedMembers
  rw [class?, guess]
  split
  next => exact session.sifts_members option {} _ _ .declared
  next =>
    exact .append (session.sifts_arrayMembers option receiver)
      (session.sifts_members option _ _ _ .inherited)
  next =>
    split
    · exact .nil
    · exact (session.sifts_members option {} _ _ .declared).map fun _ => rfl
  next => exact .nil

/-- Behind the name of a class, its static members and its member types are sifted. -/
theorem sifts_staticAccess (session : Session) (option : HidingOption) (id : ClassId) :
    Sifts option (session.staticAccess id) ((session.hidingBy option).staticAccess id) := by
  unfold staticAccess
  rw [keyword?_hidingBy]
  refine .append (.append (session.sifts_members option _ id id .declared)
    (session.sifts_memberTypes option id)) (.of_shown fun candidate mem => ?_)
  rw [Event.items_map_found, Option.mem_toList] at mem
  exact shown_of_keyword? mem

/-- Behind `super`, the members of the superclass of the class around the cursor are sifted. -/
theorem sifts_superAccess (session : Session) (option : HidingOption) :
    Sifts option session.superAccess (session.hidingBy option).superAccess := by
  have context : (session.hidingBy option).inStaticContext = session.inStaticContext :=
    inStaticContext_congr rfl rfl
  have view : (session.hidingBy option).view = session.view := rfl
  have store : (session.hidingBy option).store = session.store := rfl
  unfold superAccess
  rw [context, view, store]
  split
  · exact .nil
  · split
    · exact .nil
    · split
      · exact .nil
      · exact session.sifts_members option _ _ _ .inherited

/-- A test of candidates that asks for what an option does not touch. -/
theorem Sifts.filter {loose strict : List (Event Candidate)} (sifts : Sifts option loose strict)
    {test : Event Candidate → Bool} {asks : Candidate → Bool}
    (found : ∀ candidate, test (.found candidate) = asks candidate) :
    Sifts option (loose.filter test) (strict.filter test) := by
  have items : ∀ events : List (Event Candidate),
      Event.items (events.filter test) = (Event.items events).filter asks := by
    intro events
    induction events with
    | nil => rfl
    | cons event events ih =>
      rw [List.filter_cons]
      cases event with
      | found candidate =>
        rw [found, Event.items_found, List.filter_cons]
        split
        · rw [Event.items_found, ih]
        · exact ih
      | tick => split <;> simpa using ih
      | rejected reason => split <;> simpa using ih
  refine ⟨?_, fun candidate mem hidden => ?_⟩
  · rw [items, items, sifts.items, List.filter_filter, List.filter_filter]
    simp only [Bool.and_comm]
  · rw [items] at mem
    exact sifts.declared candidate (List.mem_filter.mp mem).1 hidden

theorem sifts_enumConstants (session : Session) (option : HidingOption) (id : ClassId) :
    Sifts option (session.enumConstants id) ((session.hidingBy option).enumConstants id) :=
  (session.sifts_declaredMembers option _ _).filter fun _ => rfl

/-! ## Behind a cast -/

/-- One member is at stake in the same way however it was found. -/
theorem stake_of_sameMember (same : session.sameMember candidate other = true) :
    session.stake other = session.stake candidate := by
  simp only [sameMember, Bool.and_eq_true, beq_iff_eq] at same
  obtain ⟨⟨name, kind⟩, signature⟩ := same
  rw [stake, stake, name, kind, signature]

/-! ## The walk -/

/-- A stake for which the option hides nothing that the walk finds. -/
def Untouched (session : Session) (option : HidingOption) (wanted : Stake) : Prop :=
  ∀ candidate ∈ session.walked, option.hides candidate = true → session.stake candidate ≠ wanted

/-- Where nothing that is hidden has a stake, a stage that sifts finds the same candidates for
it. -/
theorem Sifts.vying {loose strict : List (Event Candidate)} {wanted : Stake}
    (sifts : Sifts option loose strict)
    (shown : ∀ candidate ∈ Event.items loose, option.hides candidate = true →
      session.stake candidate ≠ wanted) :
    session.vying wanted (Event.items strict) = session.vying wanted (Event.items loose) := by
  rw [sifts.items, Session.vying, List.filter_filter]
  refine List.filter_congr fun candidate mem => ?_
  cases hidden : option.hides candidate with
  | false => simp
  | true => simp [shown candidate mem hidden]

/-- Except behind a variable that may be cast, the walk is sifted. -/
theorem sifts_walk (session : Session) (option : HidingOption) :
    (∃ receiver name, session.request.site = .memberAccess receiver (some name)) ∨
      Sifts option session.walk (session.hidingBy option).walk := by
  have request : (session.hidingBy option).request = session.request := rfl
  have scopes : (session.hidingBy option).scopes = session.scopes := rfl
  have walkScopes := fun mode => session.sifts_walkScopes option mode false [] session.scopes
  unfold walk
  rw [request, scopes]
  cases session.request.site with
  | name => exact .inr ((walkScopes .expression).append (session.sifts_keywords option))
  | memberAccess receiver name =>
    cases name with
    | none => exact .inr (session.sifts_receiverMembers option receiver)
    | some name => exact .inl ⟨receiver, name, rfl⟩
  | staticAccess id => exact .inr (session.sifts_staticAccess option id)
  | superAccess => exact .inr (session.sifts_superAccess option)
  | caseLabel type =>
    refine .inr ?_
    have enumeration? : (session.hidingBy option).enumeration? = session.enumeration? := rfl
    dsimp only
    rw [enumeration?]
    split
    · exact session.sifts_enumConstants option _
    · exact walkScopes .constants
  | allocation => exact .inr (walkScopes .types)
  | typeReference => exact .inr (walkScopes .types)
  | qualifiedName qualifier => exact .inr .nil
  | label => exact .inr (session.sifts_labelsFrom option [] session.scopes)
  | nothing => exact .inr .nil

/-- What the option hides of a walk are members and types. -/
theorem declared_of_hides (mem : candidate ∈ session.walked)
    (hidden : option.hides candidate = true) :
    candidate.isMember = true ∨ candidate.kind = .type := by
  rcases session.sifts_walk option with ⟨receiver, name, site⟩ | sifts
  · rw [walked, walk, site] at mem
    exact .inl (isMember_of_memberAccess mem)
  · exact sifts.declared candidate mem hidden

/-- Behind a variable that may be cast, the walk is sifted but for the members of the cast. -/
theorem vying_memberAccess_hidingBy {receiver : TypeRef} {name : String} {wanted : Stake}
    (shown : ∀ candidate ∈ Event.items (session.memberAccess receiver (some name)),
      option.hides candidate = true → session.stake candidate ≠ wanted) :
    session.vying wanted
        (Event.items ((session.hidingBy option).memberAccess receiver (some name))) =
      session.vying wanted (Event.items (session.memberAccess receiver (some name))) := by
  have direct := session.sifts_receiverMembers option receiver
  simp only [memberAccess, Event.items_append, List.mem_append] at shown ⊢
  rw [vying_append, vying_append, direct.vying fun candidate mem => shown candidate (.inl mem)]
  refine congrArg _ ?_
  have class? : (session.hidingBy option).receiverClass? = session.receiverClass? := rfl
  have castTo? : (session.hidingBy option).castTo? = session.castTo? := rfl
  have sameMember : (session.hidingBy option).sameMember = session.sameMember := rfl
  rw [items_narrowedMembers, items_narrowedMembers, class?, castTo?, sameMember]
  have narrowed := session.items_narrowedMembers name (session.receiverClass? receiver)
    (Event.items (session.receiverMembers receiver))
  split
  next => rfl
  next id cast found =>
    rw [found] at narrowed
    have subject : ∀ candidate : Candidate,
        candidate.SameSubject (candidate.qualifiedBy (some cast)) :=
      fun _ => ⟨rfl, rfl, rfl, rfl, rfl⟩
    rw [vying_map subject, vying_map subject,
      (session.sifts_members option {} id id .declared).items, Session.vying, Session.vying,
      List.filter_filter, List.filter_filter, List.filter_filter, direct.items]
    refine congrArg _ (List.filter_congr fun candidate mem => ?_)
    by_cases same : session.stake candidate = wanted
    swap
    · simp [same]
    -- a member that is reached without the cast and hidden would have the stake
    have reached : ((Event.items (session.receiverMembers receiver)).filter fun other =>
        !option.hides other).any (session.sameMember candidate) =
        (Event.items (session.receiverMembers receiver)).any (session.sameMember candidate) := by
      rw [List.any_filter, Bool.eq_iff_iff, List.any_eq_true, List.any_eq_true]
      refine exists_congr fun other => and_congr_right fun mem => ?_
      rw [Bool.and_eq_true, and_iff_right_iff_imp]
      intro alike
      refine Bool.not_eq_true' _ |>.mpr (Bool.eq_false_iff.mpr fun hidden => ?_)
      exact shown other (.inl mem) hidden ((stake_of_sameMember alike).trans same)
    rw [reached]
    cases fresh : (Event.items (session.receiverMembers receiver)).any
        (session.sameMember candidate) with
    | true => simp
    | false =>
      have listed : candidate.qualifiedBy (some cast) ∈ Event.items (session.narrowedMembers name
          (session.receiverClass? receiver) (Event.items (session.receiverMembers receiver))) := by
        rw [narrowed]
        exact List.mem_map_of_mem (List.mem_filter.mpr ⟨mem, by simp [fresh]⟩)
      have visible : option.hides candidate = false := Bool.eq_false_iff.mpr fun hidden =>
        shown _ (.inr listed) hidden same
      simp [visible]

/-- For an untouched stake the walk finds the same candidates. -/
theorem vying_walked_hidingBy {wanted : Stake} (untouched : session.Untouched option wanted) :
    session.vying wanted (session.hidingBy option).walked =
      session.vying wanted session.walked := by
  rcases session.sifts_walk option with ⟨receiver, name, site⟩ | sifts
  · have request : (session.hidingBy option).request = session.request := rfl
    unfold Untouched at untouched
    simp only [walked, walk, request, site] at untouched ⊢
    exact vying_memberAccess_hidingBy untouched
  · exact sifts.vying untouched

/-! ## What stays -/

/-- The words of a walk are untouched. -/
theorem untouched_word (kind : CandidateKind) (name : String) :
    session.Untouched option (.word kind name) := by
  intro candidate mem hidden same
  rcases declared_of_hides mem hidden with member | type
  · obtain ⟨signature, own⟩ := stake_of_isMember session member
    rw [own] at same
    cases same
  · rw [stake_of_type type] at same
    cases same

/-- The walk names types by the last segments of their full names. -/
theorem namedSimply_of_walked (mem : candidate ∈ session.walked) :
    session.NamedSimply candidate := by
  intro kind name denotes
  cases session.words_walked.each candidate mem with
  | member member => simp [Candidate.isMember, kind] at member
  | type stored =>
    rw [stored.typeName?, Option.some.injEq] at denotes
    rw [← denotes, stored.name]
    rfl
  | word word => simp [kind, CandidateKind.isWord] at word

/-- Both walks do, which is what the comparison of their resolutions asks. -/
theorem namedSimply_of_walks (session : Session) (option : HidingOption) :
    ∀ candidate ∈ (session.hidingBy option).walked ++ session.walked,
      session.NamedSimply candidate := by
  intro candidate mem
  rcases List.mem_append.mp mem with mem | mem
  · exact @namedSimply_of_walked (session.hidingBy option) candidate mem
  · exact namedSimply_of_walked mem

/-- The resolution asks no option that hides. -/
theorem resolve_hidingBy (session : Session) (option : HidingOption) :
    (session.hidingBy option).resolve = session.resolve := by
  funext candidates
  simp only [resolve, forceQualification_hidingBy]
  rfl

/-- For an untouched stake the same candidates stay. -/
theorem vying_kept_hidingBy {wanted : Stake} (untouched : session.Untouched option wanted) :
    session.vying wanted (session.hidingBy option).kept = session.vying wanted session.kept := by
  rw [kept, kept, resolve_hidingBy]
  exact vying_resolve (session.namedSimply_of_walks option)
    (fun name => vying_walked_hidingBy (untouched_word .local name))
    (vying_walked_hidingBy untouched)

/-- For an untouched simple name the same types are known, and the same one holds the name. -/
theorem known_hidingBy {simple : String}
    (untouched : session.Untouched option (.simpleName simple)) :
    (session.hidingBy option).known.claimant? simple = session.known.claimant? simple ∧
      ∀ name : QualifiedName, name.simple = simple →
        (session.hidingBy option).known.contains name = session.known.contains name := by
  rw [known, known, resolve_hidingBy]
  exact known_resolve (session.namedSimply_of_walks option) (vying_walked_hidingBy untouched)

end Session

end CodeAssist.Completion
