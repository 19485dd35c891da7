import CodeAssist.Proofs.Completion.MembersOnce
import CodeAssist.Proofs.Completion.ScopeWalk
/-!
# The turns of a walk

A walk finds its members turn by turn: all that one search finds through one root stand together
(`Turn`). A root may have a second turn, when a class is imported that is also around the cursor, or
imported twice. By then there is no instance any more, so the second search finds nothing that the
first one passed over, but for other names (`MemberSearch.Covers`). That holds because the classes
around the cursor come before the imports of the file: no class may lie around a file
(`FilesOutermost`).

`orderly_walked` says it of every site: the members of a walk are signed, and roots take turns.
-/

namespace CodeAssist

/-- Whether a scope is that of a source file. -/
def ScopeKind.isFile : ScopeKind → Bool
  | .unit _ _ _ => true
  | _ => false

/-- Whether a scope is that of a class. -/
def ScopeKind.isClass : ScopeKind → Bool
  | .class _ => true
  | _ => false

/-- No class lies around a file. -/
def FilesOutermost (scopes : List Scope) : Prop :=
  scopes.Pairwise fun inner outer => inner.kind.isFile = true → outer.kind.isClass = false

instance (scopes : List Scope) : Decidable (FilesOutermost scopes) :=
  inferInstanceAs (Decidable (List.Pairwise _ scopes))

namespace Completion

/-! ## Searches -/

namespace MemberSearch

/-- What the second search looks for and can reach, the first one does too, whatever names they
ask for. -/
structure Covers (first second : MemberSearch) : Prop where
  wanted : ∀ declaration, second.wants declaration = true → first.wants declaration = true
  callable : ∀ modifiers, second.admitStatic modifiers = .ok () →
    first.admitStatic modifiers = .ok ()

theorem Covers.refl (search : MemberSearch) : search.Covers search :=
  ⟨fun _ => id, fun _ => id⟩

theorem Covers.trans {first second third : MemberSearch} (upper : first.Covers second)
    (lower : second.Covers third) : first.Covers third :=
  ⟨fun declaration wanted => upper.wanted declaration (lower.wanted declaration wanted),
    fun modifiers callable => upper.callable modifiers (lower.callable modifiers callable)⟩

/-- A search that needs static members admits no others. -/
theorem admitStatic_eq_ok {search : MemberSearch} {modifiers : Modifiers} :
    search.admitStatic modifiers = .ok () ↔
      (search.statics ≠ .none → modifiers.isStatic = true) := by
  unfold admitStatic
  cases search.statics <;> simp

/-- Searches that look for the same, of which the second needs static members if the first does. -/
theorem covers_of_statics {first second : MemberSearch}
    (wants : first.wants = second.wants)
    (statics : second.statics = .none → first.statics = .none) : first.Covers second := by
  refine ⟨fun declaration wanted => by rwa [wants], fun modifiers callable => ?_⟩
  rw [admitStatic_eq_ok] at callable ⊢
  exact fun needed => callable fun instances => needed (statics instances)

end MemberSearch

namespace Session

variable {session : Session} {search wider : MemberSearch} {found rest : List Candidate}
  {candidate : Candidate} {root : ClassId}

/-! ## Orderly walks -/

/-- The members of a walk are signed, and roots take turns. -/
structure Orderly (session : Session) (found : List Candidate) : Prop where
  signed : ∀ member ∈ found, member.isMember = true →
    ∃ signature, session.SignedBy member signature
  turns : session.TakesTurns found

/-- Where no members are found there is no order to keep. -/
theorem orderly_of_others (others : ∀ candidate ∈ found, candidate.isMember = false) :
    session.Orderly found := by
  refine ⟨fun member mem isMember => ?_, fun seen candidate tail split isMember => ?_⟩
  · exact absurd (isMember.symm.trans (others member mem)) (by decide)
  · exact absurd (isMember.symm.trans (others candidate (by simp [split]))) (by decide)

/-- An item of two lists in a row lies in the first, or behind all of it. -/
theorem cut_at_item {seen tail : List Candidate}
    (split : found ++ rest = seen ++ candidate :: tail) :
    (candidate ∈ found ∧ ∀ earlier ∈ seen, earlier ∈ found) ∨
      ∃ between, seen = found ++ between ∧ rest = between ++ candidate :: tail := by
  rcases List.append_eq_append_iff.mp split with ⟨between, hseen, hrest⟩ | ⟨between, rfl, htail⟩
  · exact .inr ⟨between, hseen, hrest⟩
  · cases between with
    | nil => exact .inr ⟨[], by simp, by simpa using htail.symm⟩
    | cons first between =>
      rw [List.cons_append, List.cons.injEq] at htail
      exact .inl ⟨by simp [htail.1], fun earlier mem => List.mem_append_left _ mem⟩

/-- The turn of one root comes before an orderly walk, if nothing that the root finds later was
passed over. -/
theorem Orderly.cons (root : Option ClassId)
    (signed : ∀ member ∈ found, member.isMember = true →
      ∃ signature, session.SignedBy member signature)
    (rooted : ∀ member ∈ found, member.isMember = true → member.root? = root)
    (orderly : session.Orderly rest)
    (again : ∀ earlier ∈ found, earlier.isMember = true → ∀ later ∈ rest, later.isMember = true →
      session.store.signature? later = session.store.signature? earlier → later.root? = root →
      ∃ same ∈ found, same.isMember = true ∧ same.symbol = later.symbol ∧
        same.root? = later.root?) :
    session.Orderly (found ++ rest) := by
  refine ⟨fun member mem isMember => ?_, fun seen candidate tail split isMember => ?_⟩
  · rcases List.mem_append.mp mem with mem | mem
    · exact signed member mem isMember
    · exact orderly.signed member mem isMember
  intro earlier hearlier member differ
  rcases cut_at_item split with ⟨inFound, seenInFound⟩ | ⟨between, rfl, restSplit⟩
  · -- the turn goes on, and all in it have one root
    refine absurd ?_ differ
    rw [rooted earlier (seenInFound earlier hearlier) member, rooted candidate inFound isMember]
  -- the turn is over, so what it found has been seen
  intro later mem hlater signature sameRoot
  rcases List.mem_append.mp mem with mem | mem
  · exact ⟨later, List.mem_append_left _ mem, hlater, rfl, rfl⟩
  rcases List.mem_append.mp hearlier with hearlier | hearlier
  · obtain ⟨same, hsame, facts⟩ := again earlier hearlier member later mem hlater signature
      (sameRoot.trans (rooted earlier hearlier member))
    exact ⟨same, List.mem_append_left _ hsame, facts⟩
  · obtain ⟨same, hsame, facts⟩ := orderly.turns between candidate tail restSplit isMember earlier
      hearlier member differ later mem hlater signature sameRoot
    exact ⟨same, List.mem_append_right _ hsame, facts⟩

/-- What is no member makes no difference. -/
theorem Orderly.skip (others : ∀ candidate ∈ found, candidate.isMember = false)
    (orderly : session.Orderly rest) : session.Orderly (found ++ rest) := by
  refine Orderly.cons none (fun member mem isMember => ?_) (fun member mem isMember => ?_)
    orderly fun earlier mem isMember => ?_ <;>
  exact absurd (isMember.symm.trans (others _ mem)) (by decide)

/-! ## Turns -/

/-- The members of a list are those that a search finds through a root. -/
structure Turn (session : Session) (search : MemberSearch) (root : ClassId)
    (found : List Candidate) : Prop where
  sound : ∀ candidate ∈ found, candidate.isMember = true → candidate.root? = some root ∧
    ∃ declaration, candidate.StandsFor session.store declaration ∧
      session.Finds search root declaration
  complete : ∀ declaration, session.Finds search root declaration →
    ∃ candidate ∈ found, candidate.root? = some root ∧
      candidate.StandsFor session.store declaration

/-- The members found through one root are one turn, exactly those that its search finds. -/
theorem turn_members (session : Session) (search : MemberSearch) (root : ClassId)
    (origin : Origin) :
    session.Turn search root (Event.items (session.members search root root origin)) := by
  refine ⟨fun candidate mem _ => ?_, fun declaration finds => ?_⟩
  · obtain ⟨visit, visited, declaration, nameMatch, passes, rfl⟩ := mem_items_members.mp mem
    exact ⟨head?_route visited, declaration, ⟨passes.stored, rfl, rfl, rfl, rfl⟩,
      exists_passes_iff.mp ⟨visit, visited, nameMatch, passes⟩⟩
  · obtain ⟨visit, visited, nameMatch, passes⟩ := exists_passes_iff.mpr finds
    exact ⟨_, mem_items_members.mpr ⟨visit, visited, declaration, nameMatch, passes, rfl⟩,
      head?_route visited, passes.stored, rfl, rfl, rfl, rfl⟩

namespace Turn

/-- How members are written does not matter. -/
theorem map (turn : session.Turn search root found) {change : Candidate → Candidate}
    (same : ∀ candidate : Candidate, candidate.SameSubject (change candidate)) :
    session.Turn search root (found.map change) := by
  refine ⟨fun candidate mem member => ?_, fun declaration finds => ?_⟩
  · obtain ⟨original, horiginal, rfl⟩ := List.mem_map.mp mem
    rw [(same original).isMember] at member
    obtain ⟨rooted, declaration, standsFor, finds⟩ := turn.sound original horiginal member
    exact ⟨(same original).root?.trans rooted, declaration, standsFor.congr (same original), finds⟩
  · obtain ⟨original, horiginal, rooted, standsFor⟩ := turn.complete declaration finds
    exact ⟨change original, List.mem_map_of_mem horiginal, (same original).root?.trans rooted,
      standsFor.congr (same original)⟩

/-- What is no member does not matter. -/
theorem between {before after : List Candidate} (turn : session.Turn search root found)
    (hbefore : ∀ candidate ∈ before, candidate.isMember = false)
    (hafter : ∀ candidate ∈ after, candidate.isMember = false) :
    session.Turn search root (before ++ (found ++ after)) := by
  refine ⟨fun candidate mem member => ?_, fun declaration finds => ?_⟩
  · have others : candidate ∉ before ∧ candidate ∉ after := by
      refine ⟨fun mem => ?_, fun mem => ?_⟩
      · exact absurd (member.symm.trans (hbefore candidate mem)) (by decide)
      · exact absurd (member.symm.trans (hafter candidate mem)) (by decide)
    simp only [List.mem_append, others, or_false, false_or] at mem
    exact turn.sound candidate mem member
  · obtain ⟨candidate, mem, facts⟩ := turn.complete declaration finds
    exact ⟨candidate, by simp [mem], facts⟩

theorem signed (turn : session.Turn search root found) :
    ∀ member ∈ found, member.isMember = true → ∃ signature, session.SignedBy member signature := by
  intro member mem isMember
  obtain ⟨-, declaration, standsFor, -⟩ := turn.sound member mem isMember
  exact ⟨_, signedBy_of_standsFor standsFor⟩

end Turn

/-- A walk in turns, by searches that another one covers. -/
structure InTurns (session : Session) (search : MemberSearch) (found : List Candidate) :
    Prop extends session.Orderly found where
  covered : ∀ candidate ∈ found, candidate.isMember = true →
    ∃ narrower root declaration, search.Covers narrower ∧ candidate.root? = some root ∧
      candidate.StandsFor session.store declaration ∧ session.Finds narrower root declaration

namespace InTurns

/-- A wider search covers what a narrower one covers. -/
theorem mono (walk : session.InTurns search found) (covers : wider.Covers search) :
    session.InTurns wider found := by
  refine ⟨walk.toOrderly, fun candidate mem member => ?_⟩
  obtain ⟨narrower, root, declaration, narrow, facts⟩ := walk.covered candidate mem member
  exact ⟨narrower, root, declaration, covers.trans narrow, facts⟩

/-- What is not a member is no part of any turn. -/
theorem of_others (search : MemberSearch)
    (others : ∀ candidate ∈ found, candidate.isMember = false) : session.InTurns search found :=
  ⟨orderly_of_others others, fun candidate mem member =>
    absurd (member.symm.trans (others candidate mem)) (by decide)⟩

/-- Candidates that are not members may come before the turns. -/
theorem skip (others : ∀ candidate ∈ found, candidate.isMember = false)
    (walk : session.InTurns search rest) : session.InTurns search (found ++ rest) := by
  refine ⟨.skip others walk.toOrderly, fun candidate mem member => ?_⟩
  rcases List.mem_append.mp mem with mem | mem
  · exact absurd (member.symm.trans (others candidate mem)) (by decide)
  · exact walk.covered candidate mem member

/-- A turn comes before a walk that its search covers. Of what the root finds later, nothing has the
signature of a member that was found and was passed over: it has the name, and all else that the
later search asks for, the first one asks for too. -/
theorem cons (turn : session.Turn search root found) (walk : session.InTurns search rest) :
    session.InTurns search (found ++ rest) := by
  refine ⟨.cons (some root) turn.signed
    (fun member mem isMember => (turn.sound member mem isMember).1) walk.toOrderly
    fun earlier hearlier member later hlater member' alike rooted => ?_,
    fun candidate mem member => ?_⟩
  · obtain ⟨-, declaration, standsFor, finds⟩ := turn.sound earlier hearlier member
    obtain ⟨narrower, root', other, covers, rooted', standsFor', finds'⟩ :=
      walk.covered later hlater member'
    obtain rfl := Option.some.inj (rooted.symm.trans rooted')
    have signatures : other.signature = declaration.signature := by
      rwa [standsFor.signature?, standsFor'.signature?, Option.some.injEq] at alike
    have names : other.name = declaration.name := by
      have same := congrArg Signature.name signatures
      cases other <;> cases declaration <;> exact same
    have found : session.Finds search root other :=
      ⟨finds'.stored, finds'.inherited, finds'.home, covers.wanted other finds'.wanted,
        names ▸ finds.accepted, covers.callable _ finds'.callable, finds'.named, finds'.admitted⟩
    obtain ⟨same, hsame, rootedSame, standsForSame⟩ := turn.complete other found
    exact ⟨same, hsame, standsForSame.isMember,
      standsForSame.symbol.trans standsFor'.symbol.symm, rootedSame.trans rooted'.symm⟩
  · rcases List.mem_append.mp mem with mem | mem
    · obtain ⟨rooted, declaration, standsFor, finds⟩ := turn.sound candidate mem member
      exact ⟨search, root, declaration, .refl search, rooted, standsFor, finds⟩
    · exact walk.covered candidate mem member

/-- Turns of searches that cover each other come one after the other. -/
theorem flatMap {α : Type} {things : List α} {turn : α → List Candidate}
    (turns : ∀ thing ∈ things, (∀ candidate ∈ turn thing, candidate.isMember = false) ∨
      ∃ other root, other.Covers search ∧ search.Covers other ∧
        session.Turn other root (turn thing))
    (walk : session.InTurns search rest) :
    session.InTurns search (things.flatMap turn ++ rest) := by
  induction things with
  | nil => exact walk
  | cons thing things ih =>
    rw [List.flatMap_cons, List.append_assoc]
    have later := ih fun other mem => turns other (List.mem_cons_of_mem _ mem)
    rcases turns thing List.mem_cons_self with others | ⟨other, root, covers, covered, turn⟩
    · exact later.skip others
    · exact (cons turn (later.mono covers)).mono covered

end InTurns

/-! ## Scopes -/

/-- The search for the members of a class around the cursor. -/
def scopeSearch (mode : WalkMode) (staticOnly : Bool) : MemberSearch :=
  { statics := if staticOnly then .context else .none, constantsOnly := mode == .constants }

/-- The search for the static members of an imported class. -/
def importSearch (mode : WalkMode) (onlyName : Option String) : MemberSearch :=
  { statics := .construct, onlyName, constantsOnly := mode == .constants }

/-- Imports that ask for one name can reach what imports that ask for another can. -/
theorem importSearch_covers (mode : WalkMode) (first second : Option String) :
    (importSearch mode first).Covers (importSearch mode second) :=
  MemberSearch.covers_of_statics (funext fun declaration => by cases declaration <;> rfl) id

/-- The search of a scope reaches what an import reaches: it asks for static members at most. -/
theorem scopeSearch_covers_import (mode : WalkMode) (staticOnly : Bool) :
    (scopeSearch mode staticOnly).Covers (importSearch mode none) :=
  MemberSearch.covers_of_statics (funext fun declaration => by cases declaration <;> rfl)
    fun instances => by cases instances

/-- Once the instance is lost, less is found. -/
theorem scopeSearch_covers (mode : WalkMode) (staticOnly lost : Bool) :
    (scopeSearch mode staticOnly).Covers (scopeSearch mode (staticOnly || lost)) := by
  refine MemberSearch.covers_of_statics (funext fun declaration => by cases declaration <;> rfl)
    fun instances => ?_
  cases staticOnly with
  | false => rfl
  | true => exact instances

/-- A candidate of another kind than fields and methods is no member. -/
theorem isMember_of_kind {kind : CandidateKind} (same : candidate.kind = kind)
    (field : kind ≠ .field) (method : kind ≠ .method) : candidate.isMember = false := by
  simp [Candidate.isMember, same, field, method]

theorem StoredType.isMember {id : ClassId} {definition : ClassDef}
    (stored : session.StoredType candidate id definition) : candidate.isMember = false :=
  isMember_of_kind stored.kind (by decide) (by decide)

theorem isMember_of_locals {mode : WalkMode} {bindings : List Local}
    (mem : candidate ∈ Event.items (bindings.flatMap fun binding =>
      (session.screenLocal mode binding).step)) : candidate.isMember = false := by
  rw [Screened.items_flatMap_step] at mem
  obtain ⟨binding, -, screened⟩ := List.mem_filterMap.mp mem
  simp only [Screened.toOption_eq_some, screenLocal, Screened.bind_eq_ok,
    Screened.pure_eq_ok] at screened
  obtain ⟨_, -, nameMatch, -, rfl⟩ := screened
  rfl

/-- An import is a turn as well; being rewritten for it changes no member. -/
theorem turn_importedMembers (session : Session) (search : MemberSearch) (id : ClassId)
    (origin : Origin) :
    session.Turn search id (Event.items (session.importedMembers search id origin)) := by
  rw [importedMembers, Event.items_map]
  exact (session.turn_members search id origin).map fun _ => ⟨rfl, rfl, rfl, rfl, rfl⟩

/-- The members that a favorite names are found in one turn. -/
theorem turn_favoriteMembers (session : Session) (imports : Imports) (favorite : Favorite) :
    Event.items (session.favoriteMembers imports favorite) = [] ∨
      ∃ id, session.Turn (importSearch .expression favorite.member) id
        (Event.items (session.favoriteMembers imports favorite)) := by
  unfold favoriteMembers
  dsimp only
  split
  next id _ _ =>
    refine .inr ⟨id, ?_⟩
    rw [Event.items_map]
    refine (session.turn_importedMembers (importSearch .expression favorite.member) id
      .favorite).map fun candidate => ?_
    split
    · exact .refl candidate
    · unfold withImport
      split
      · exact ⟨rfl, rfl, rfl, rfl, rfl⟩
      · exact ⟨rfl, rfl, rfl, rfl, rfl⟩
  next => exact .inl rfl

/-- The imports of a file, and then the favorites, have their turns. -/
theorem inTurns_unit {mode : WalkMode} (imports : Imports) (types : List ClassId)
    (walk : session.InTurns (importSearch mode none) rest) :
    session.InTurns (importSearch mode none)
      (Event.items (session.unitCandidates mode imports types) ++ rest) := by
  have covers := importSearch_covers mode
  rw [unitCandidates, Event.items_append, Event.items_append, List.append_assoc, List.append_assoc]
  refine .skip (fun candidate mem => ?_) ?_
  · rw [Event.items_ite_nil, List.mem_ite_nil_right, Event.items_append, List.mem_append] at mem
    obtain ⟨_, _, stored⟩ := mem.2.elim storedType_of_types storedType_of_types
    exact stored.isMember
  have favorites : session.InTurns (importSearch mode none)
      (Event.items (if mode = .expression then
        session.options.parsedFavorites.flatMap (session.favoriteMembers imports) else []) ++
        rest) := by
    split
    next expression =>
      subst expression
      rw [Event.items_flatMap]
      refine .flatMap (fun favorite _ => ?_) walk
      rcases session.turn_favoriteMembers imports favorite with none | ⟨id, turn⟩
      · exact .inl (by simp [none])
      · exact .inr ⟨_, id, covers _ _, covers _ _, turn⟩
    next => exact walk
  split
  next =>
    rw [staticImports, Event.items_append, Event.items_flatMap, Event.items_flatMap,
      List.append_assoc]
    refine .flatMap (fun entry _ => ?_) (.flatMap (fun owner _ => ?_) favorites)
    -- single imports ask for a name, others do not
    all_goals
      dsimp only
      split
      next id _ =>
        exact .inr ⟨_, id, covers _ _, covers _ _, session.turn_importedMembers _ id _⟩
      next => exact .inl (by simp)
  next => exact favorites

/-- A class around the cursor has its turn. -/
theorem inTurns_class {mode : WalkMode} {staticOnly : Bool} (id : ClassId)
    {before : List Candidate} (others : ∀ candidate ∈ before, candidate.isMember = false)
    (walk : session.InTurns (scopeSearch mode staticOnly) rest) :
    session.InTurns (scopeSearch mode staticOnly)
      (before ++ Event.items (session.classCandidates mode staticOnly id) ++ rest) := by
  have types : ∀ candidate ∈ Event.items (if mode.wantsTypes then session.memberTypes id else []),
      candidate.isMember = false := by
    intro candidate mem
    rw [Event.items_ite_nil, List.mem_ite_nil_right] at mem
    obtain ⟨_, _, stored⟩ := storedType_of_memberTypes mem.2
    exact stored.isMember
  rw [classCandidates, Event.items_append]
  split
  · exact .cons ((session.turn_members (scopeSearch mode staticOnly) id .declared).between others
      types) walk
  · rw [Event.items_nil, List.nil_append, List.append_assoc]
    exact (walk.skip types).skip others

/-- A walk over scopes goes in turns, if no class lies around a file. -/
theorem inTurns_walkScopes {mode : WalkMode} {scopes : List Scope} (files : FilesOutermost scopes)
    (others : ∀ candidate ∈ rest, candidate.isMember = false) (staticOnly : Bool)
    (seen : List String) :
    session.InTurns (scopeSearch mode staticOnly)
        (Event.items (session.walkScopes mode staticOnly seen scopes) ++ rest) ∧
      ((∀ scope ∈ scopes, scope.kind.isClass = false) →
        session.InTurns (importSearch mode none)
          (Event.items (session.walkScopes mode staticOnly seen scopes) ++ rest)) := by
  induction scopes generalizing staticOnly seen with
  | nil => exact ⟨.of_others _ others, fun _ => .of_others _ others⟩
  | cons scope outer ih =>
    obtain ⟨around, files⟩ := List.pairwise_cons.mp files
    obtain ⟨general, imported⟩ := ih files
      (staticOnly || scope.kind.isStaticBoundary session.store)
      (scope.locals.map Local.name ++ seen)
    have walk := general.mono (scopeSearch_covers mode staticOnly _)
    have locals : ∀ candidate ∈ Event.items (if mode.wantsVariables then
        (firstOfEach Local.name seen scope.locals.reverse).flatMap fun binding =>
          (session.screenLocal mode binding).step else []), candidate.isMember = false := by
      intro candidate mem
      rw [Event.items_ite_nil, List.mem_ite_nil_right] at mem
      exact isMember_of_locals mem.2
    rw [walkScopes, Event.items_append, Event.items_append, List.append_assoc]
    cases kind : scope.kind with
    | «class» id =>
      refine ⟨inTurns_class id locals (kind ▸ walk), fun none => ?_⟩
      have other := none scope List.mem_cons_self
      simp [kind, ScopeKind.isClass] at other
    | unit package imports types =>
      have bare := imported fun other mem => around other mem (by simp [kind, ScopeKind.isFile])
      rw [List.append_assoc]
      have unit := (inTurns_unit imports types (kind ▸ bare)).skip locals
      exact ⟨unit.mono (scopeSearch_covers_import mode staticOnly), fun _ => unit⟩
    | _ =>
      simp only [kindCandidates, Event.items_nil, List.append_nil]
      refine ⟨(kind ▸ walk).skip locals, fun none => ?_⟩
      exact (kind ▸ imported fun other mem => none other (List.mem_cons_of_mem _ mem)).skip locals

/-- The walk over all scopes, whatever is found behind it that is not a member. -/
theorem orderly_walkScopes {mode : WalkMode} (files : FilesOutermost session.scopes)
    (others : ∀ candidate ∈ rest, candidate.isMember = false) :
    session.Orderly
      (Event.items (session.walkScopes mode false [] session.scopes) ++ rest) :=
  (inTurns_walkScopes files others false []).1.toOrderly

/-! ## Behind a dot -/

/-- Members of stored classes, found through one root. -/
def OneRoot (session : Session) (root : ClassId) (found : List Candidate) : Prop :=
  ∀ candidate ∈ found, candidate.root? = some root ∧
    ∃ declaration, candidate.StandsFor session.store declaration

/-- Whatever class a search begins at, the root it is told is the one its candidates have. -/
theorem oneRoot_members (session : Session) (search : MemberSearch) (root start : ClassId)
    (origin : Origin) :
    session.OneRoot root (Event.items (session.members search root start origin)) := by
  intro candidate mem
  obtain ⟨visit, visited, declaration, nameMatch, passes, rfl⟩ := mem_items_members.mp mem
  exact ⟨head?_route visited, declaration, passes.stored, rfl, rfl, rfl, rfl⟩

namespace OneRoot

theorem signed (oneRoot : session.OneRoot root found) (mem : candidate ∈ found) :
    ∃ signature, session.SignedBy candidate signature := by
  obtain ⟨-, declaration, standsFor⟩ := oneRoot candidate mem
  exact ⟨_, signedBy_of_standsFor standsFor⟩

theorem isMember (oneRoot : session.OneRoot root found) (mem : candidate ∈ found) :
    candidate.isMember = true := by
  obtain ⟨signature, signed⟩ := oneRoot.signed mem
  exact signed.isMember

/-- Candidates for the same members found over the same roots. -/
theorem congr {more : List Candidate} (oneRoot : session.OneRoot root found)
    (same : ∀ candidate ∈ more, ∃ original ∈ found, original.SameSubject candidate) :
    session.OneRoot root more := by
  intro candidate mem
  obtain ⟨original, horiginal, subject⟩ := same candidate mem
  obtain ⟨rooted, declaration, standsFor⟩ := oneRoot original horiginal
  exact ⟨subject.root?.trans rooted, declaration, standsFor.congr subject⟩

/-- One turn comes before an orderly walk that has no signature in common with it. -/
theorem orderly_append (oneRoot : session.OneRoot root found) (orderly : session.Orderly rest)
    (apart : ∀ earlier ∈ found, earlier.isMember = true → ∀ later ∈ rest,
      later.isMember = true →
      session.store.signature? later ≠ session.store.signature? earlier) :
    session.Orderly (found ++ rest) :=
  .cons (some root) (fun _ mem _ => oneRoot.signed mem) (fun _ mem _ => (oneRoot _ mem).1) orderly
    fun earlier hearlier member later hlater member' alike =>
      absurd alike (apart earlier hearlier member later hlater member')

/-- With one root there is one turn, so nothing can be out of order. -/
theorem orderly (oneRoot : session.OneRoot root found) : session.Orderly found := by
  have alone : session.Orderly (found ++ []) :=
    oneRoot.orderly_append (orderly_of_others (by simp)) (by simp)
  rwa [List.append_nil] at alone

end OneRoot

/-- The members of arrays are signed and were found through no class. -/
theorem signed_of_arrayMembers {array : TypeRef}
    (mem : candidate ∈ Event.items (session.arrayMembers array)) :
    candidate.root? = none ∧ ∃ signature, session.SignedBy candidate signature := by
  simp only [arrayMembers, List.cons_append, Event.items_tick, Event.items_append, List.mem_append,
    Screened.mem_items_events, Screened.bind_eq_ok, Screened.pure_eq_ok] at mem
  rcases mem with ⟨nameMatch, -, rfl⟩ | ⟨nameMatch, -, rfl⟩
  · exact ⟨rfl, { name := "length", parameters := none }, rfl, rfl, rfl, rfl, rfl, fun _ => rfl⟩
  · exact ⟨rfl, { name := "clone", parameters := some [] }, rfl, rfl, rfl, rfl, rfl, fun _ => rfl⟩

/-- Whatever the receiver, its members are signed. -/
theorem signed_of_receiverMembers {receiver : TypeRef}
    (mem : candidate ∈ Event.items (session.receiverMembers receiver)) :
    ∃ signature, session.SignedBy candidate signature := by
  unfold receiverMembers at mem
  split at mem
  next => exact (session.oneRoot_members _ _ _ _).signed mem
  next =>
    rw [Event.items_append, List.mem_append] at mem
    rcases mem with mem | mem
    · exact (signed_of_arrayMembers mem).2
    · exact (session.oneRoot_members _ _ _ _).signed mem
  next =>
    unfold guessedMembers at mem
    split at mem
    next => exact absurd mem List.not_mem_nil
    next id _ =>
      rw [Event.items_map] at mem
      obtain ⟨original, found, rfl⟩ := List.mem_map.mp mem
      obtain ⟨signature, signed⟩ := (session.oneRoot_members {} id id .declared).signed found
      exact ⟨signature, signed.congr ⟨rfl, rfl, rfl, rfl, rfl⟩⟩
  next => exact absurd mem List.not_mem_nil

/-- The members of a receiver come before an orderly walk of stored members that has no signature in
common with them. -/
theorem orderly_receiverMembers {receiver : TypeRef} (orderly : session.Orderly rest)
    (stored : ∀ later ∈ rest, later.root? ≠ none)
    (apart : ∀ earlier ∈ Event.items (session.receiverMembers receiver),
      earlier.isMember = true → ∀ later ∈ rest, later.isMember = true →
      session.store.signature? later ≠ session.store.signature? earlier) :
    session.Orderly (Event.items (session.receiverMembers receiver) ++ rest) := by
  unfold receiverMembers at apart ⊢
  split at apart
  next => exact (session.oneRoot_members _ _ _ _).orderly_append orderly apart
  next =>
    have objects := session.oneRoot_members { skipNames := ["clone"] } .object .object .inherited
    rw [Event.items_append] at apart ⊢
    rw [List.append_assoc]
    refine .cons none (fun member mem _ => (signed_of_arrayMembers mem).2)
      (fun member mem _ => (signed_of_arrayMembers mem).1)
      (objects.orderly_append orderly fun earlier hearlier =>
        apart earlier (List.mem_append_right _ hearlier)) ?_
    -- all that comes later was found through a class
    intro earlier _ _ later hlater _ _ rootless
    rcases List.mem_append.mp hlater with hlater | hlater
    · exact absurd ((objects later hlater).1.symm.trans rootless) (by simp)
    · exact absurd rootless (stored later hlater)
  next =>
    unfold guessedMembers at apart ⊢
    split at apart
    next => exact orderly
    next id _ =>
      rw [Event.items_map] at apart ⊢
      have members := session.oneRoot_members {} id id .declared
      refine (members.congr fun candidate mem => ?_).orderly_append orderly apart
      obtain ⟨original, horiginal, rfl⟩ := List.mem_map.mp mem
      exact ⟨original, horiginal, rfl, rfl, rfl, rfl, rfl⟩
  next => exact orderly

/-- The members behind a dot, where nothing is found after them. -/
theorem orderly_receiver (session : Session) (receiver : TypeRef) :
    session.Orderly (Event.items (session.receiverMembers receiver)) := by
  have alone : session.Orderly (Event.items (session.receiverMembers receiver) ++ []) :=
    orderly_receiverMembers (orderly_of_others (by simp)) (by simp) (by simp)
  rwa [List.append_nil] at alone

/-- The members behind a cast are found through one root. -/
theorem oneRoot_narrowedMembers (session : Session) (name : String) (declared : Option ClassId)
    (reached : List Candidate) :
    ∃ root, session.OneRoot root
      (Event.items (session.narrowedMembers name declared reached)) := by
  obtain ⟨id, members⟩ := session.exists_members_of_narrowedMembers name declared reached
  refine ⟨id, (session.oneRoot_members {} id id .declared).congr fun candidate mem => ?_⟩
  obtain ⟨original, found, -, cast, rfl⟩ := members candidate mem
  exact ⟨original, found, rfl, rfl, rfl, rfl, rfl⟩

/-- What is reached without a cast and what is reached with it have no signature in common. -/
theorem signature?_ne_of_narrowedMembers {receiver : TypeRef} {name : String}
    {declared : Option ClassId} {earlier later : Candidate}
    (hearlier : earlier ∈ Event.items (session.receiverMembers receiver))
    (hlater : later ∈ Event.items (session.narrowedMembers name declared
      (Event.items (session.receiverMembers receiver)))) :
    session.store.signature? later ≠ session.store.signature? earlier := by
  intro alike
  obtain ⟨id, members⟩ := session.exists_members_of_narrowedMembers name declared
    (Event.items (session.receiverMembers receiver))
  obtain ⟨original, found, fresh, cast, rfl⟩ := members later hlater
  -- members with one signature have one name and one kind, so the later one was dropped
  obtain ⟨own, signedLater⟩ := (session.oneRoot_members {} id id .declared).signed found
  obtain ⟨signature, signedEarlier⟩ := signed_of_receiverMembers hearlier
  have signatures : session.store.signature? original = session.store.signature? earlier := alike
  obtain rfl : own = signature := by
    rwa [signedLater.signed, signedEarlier.signed, Option.some.injEq] at signatures
  have same : session.sameMember original earlier = true := by
    simp [sameMember, signedEarlier.name, signedLater.name, signedEarlier.kind, signedLater.kind,
      signatures]
  exact absurd (List.any_eq_true.mpr ⟨earlier, hearlier, same⟩) (by simp [fresh])

/-- What a cast adds stands behind the members that are found without it. -/
theorem orderly_memberAccess (session : Session) (receiver : TypeRef) (name : Option String) :
    session.Orderly (Event.items (session.memberAccess receiver name)) := by
  unfold memberAccess
  dsimp only
  split
  next => exact session.orderly_receiver receiver
  next name =>
    rw [Event.items_append]
    obtain ⟨root, oneRoot⟩ := session.oneRoot_narrowedMembers name
      (session.receiverClass? receiver) (Event.items (session.receiverMembers receiver))
    refine orderly_receiverMembers oneRoot.orderly
      (fun later hlater => by simp [(oneRoot later hlater).1]) ?_
    intro earlier hearlier _ later hlater _
    exact signature?_ne_of_narrowedMembers hearlier hlater

/-! ## All sites -/

theorem isMember_of_keyword? {word : String} (found : session.keyword? word = some candidate) :
    candidate.isMember = false :=
  isMember_of_kind (kind_of_keyword? found) (by decide) (by decide)

/-- Behind the name of a class its static members are the only members. -/
theorem orderly_staticAccess (session : Session) (id : ClassId) :
    session.Orderly (Event.items (session.staticAccess id)) := by
  have members := session.turn_members { statics := .construct } id .declared
  have others : ∀ candidate ∈ Event.items (session.memberTypes id) ++
      Event.items ((session.keyword? "class").toList.map .found), candidate.isMember = false := by
    intro candidate mem
    rw [List.mem_append, Event.items_map_found, Option.mem_toList] at mem
    rcases mem with mem | mem
    · obtain ⟨_, _, stored⟩ := storedType_of_memberTypes mem
      exact stored.isMember
    · exact isMember_of_keyword? mem
  rw [staticAccess, Event.items_append, Event.items_append, List.append_assoc]
  exact (InTurns.cons members (.of_others _ others)).toOrderly

/-- Behind `super` all members are found through the class around the cursor, though the search
begins at its superclass. -/
theorem oneRoot_superAccess (session : Session) :
    ∃ root, session.OneRoot root (Event.items session.superAccess) := by
  have none : ∃ root, session.OneRoot root [] := ⟨.object, by simp [OneRoot]⟩
  unfold superAccess
  split
  · exact none
  · split
    · exact none
    next current _ =>
      split
      · exact none
      · exact ⟨current, session.oneRoot_members _ _ _ _⟩

theorem oneRoot_enumConstants (session : Session) (id : ClassId) :
    session.OneRoot id (Event.items (session.enumConstants id)) := by
  intro candidate mem
  obtain ⟨event, listed, item⟩ := List.mem_filterMap.mp mem
  have declared := List.mem_filterMap.mpr ⟨event, (List.mem_filter.mp listed).1, item⟩
  obtain ⟨declaration, nameMatch, passes, rfl⟩ := mem_items_declaredMembers.mp declared
  exact ⟨rfl, declaration, passes.stored, rfl, rfl, rfl, rfl⟩

/-- Among labels there is nothing but labels. -/
theorem kind_of_labelsFrom {seen : List String} {scopes : List Scope}
    (mem : candidate ∈ Event.items (session.labelsFrom seen scopes)) :
    candidate.kind = .label := by
  induction scopes generalizing seen with
  | nil => exact absurd mem List.not_mem_nil
  | cons scope outer ih =>
    rw [labelsFrom, Event.items_append, List.mem_append] at mem
    rcases mem with mem | mem
    · simp only [Event.items_flatMap, List.mem_flatMap, Screened.mem_items_events,
        Screened.bind_eq_ok, Screened.pure_eq_ok] at mem
      obtain ⟨label, -, nameMatch, -, rfl⟩ := mem
      rfl
    · split at mem
      · exact absurd mem List.not_mem_nil
      · exact ih mem

/-- Whatever the site, the members of the walk are signed, and roots take turns. -/
theorem orderly_walked (files : FilesOutermost session.scopes) :
    session.Orderly session.walked := by
  have scopes : ∀ mode, session.Orderly
      (Event.items (session.walkScopes mode false [] session.scopes)) := by
    intro mode
    have alone : session.Orderly
        (Event.items (session.walkScopes mode false [] session.scopes) ++ []) :=
      orderly_walkScopes files (by simp)
    rwa [List.append_nil] at alone
  unfold walked walk
  cases session.request.site with
  | name =>
    rw [Event.items_append]
    refine orderly_walkScopes files fun candidate mem => ?_
    exact isMember_of_kind (kind_of_mem_keywords mem) (by decide) (by decide)
  | typeReference => exact scopes .types
  | allocation => exact scopes .types
  | memberAccess receiver name => exact session.orderly_memberAccess receiver name
  | staticAccess id => exact session.orderly_staticAccess id
  | superAccess =>
    obtain ⟨root, members⟩ := session.oneRoot_superAccess
    exact members.orderly
  | caseLabel switchType =>
    dsimp only
    split
    next id _ => exact (session.oneRoot_enumConstants id).orderly
    next => exact scopes .constants
  | label =>
    refine orderly_of_others fun candidate mem => ?_
    exact isMember_of_kind (kind_of_labelsFrom mem) (by decide) (by decide)
  | qualifiedName qualifier => exact orderly_of_others (by simp)
  | nothing => exact orderly_of_others (by simp)

end Session

end Completion

end CodeAssist
