import CodeAssist.Proofs.Completion.Filters
import CodeAssist.Proofs.Completion.NameResolution
import Mathlib.Data.Option.Basic
/-!
# What is written for a type means the type

A type is written from one of the types around it on, or from itself on (`Written`), or in full.
Over the index of its own store, a type that is written with its simple name alone is what the name
means (`means_of_kept`, `means_of_settled`): the claims on simple names are made in the order in
which names are looked up.

For a type that is written behind an outer type no claim is made on the name of the outer type, and
it may mean something else.
-/

namespace CodeAssist.Completion

namespace Placed

variable {known : KnownTypes} {all : List Placed} {simple : String} {owner : QualifiedName}

/-- Who holds a simple name that was free comes first among those that claim it. -/
theorem exists_holder (free : known.claimant? simple = none)
    (held : (claimAll known all).claimant? simple = some owner) :
    ∃ holder ∈ all, holder.placement.isBare = true ∧ holder.name = owner ∧
      ∀ other ∈ all, other.placement.isBare = true → other.simpleName = simple →
        holder.placement.precedence ≤ other.placement.precedence := by
  rw [claimAll, claimant?_foldl_claim, free, Option.none_or, Option.map_eq_some_iff] at held
  obtain ⟨holder, found, named⟩ := held
  obtain ⟨-, before, after, split, earlier⟩ := List.find?_eq_some_iff_append.mp found
  have sorted := pairwise_mergeSort_rank (all.filter fun placed => placed.placement.isBare)
    fun placed => placed.placement.precedence
  have listed : ∀ placed, placed ∈ before ++ holder :: after ↔
      placed ∈ all ∧ placed.placement.isBare = true := by
    intro placed
    rw [← split, List.mem_mergeSort, List.mem_filter]
  obtain ⟨mem, bare⟩ := (listed holder).mp (by simp)
  refine ⟨holder, mem, bare, named, fun other hother bareOther same => ?_⟩
  rw [split, List.pairwise_append] at sorted
  rcases List.mem_append.mp ((listed other).mpr ⟨hother, bareOther⟩) with first | later
  · simpa [same] using earlier other first
  · rcases List.mem_cons.mp later with rfl | later
    · exact Nat.le_refl _
    · exact (List.pairwise_cons.mp sorted.2.1).1 other later

/-- Settling leaves a placement as it is, or has the type written in full. -/
theorem placement_settled (known : KnownTypes) (all : List Placed) (placed : Placed) :
    (settled known all placed).placement = placed.placement ∨
      (settled known all placed).placement = .qualified := by
  unfold settled yield
  split <;> split
  · exact .inr rfl
  · exact .inr rfl
  · exact .inr rfl
  · exact .inl rfl

/-- What is written before a type, by its placement. -/
theorem qualifier_written {placed : Placed} (plain : placed.candidate.qualifier = none) :
    placed.written.qualifier =
      match placed.placement with
      | .imported qualifier | .samePackage qualifier => qualifier
      | .unreachable | .qualified => Session.fullQualifier placed.name
      | .belowQualifier | .onDemand => none := by
  unfold written
  cases placement : placed.placement with
  | belowQualifier => exact plain
  | onDemand => exact plain
  | _ => rfl

/-- What is written before a type that is settled: nothing if it stays bare, the types around it if
it is reached through them, or else its whole container. -/
theorem qualifier_settled {placed : Placed} (plain : placed.candidate.qualifier = none)
    (reached : placed.placement ≠ .belowQualifier) :
    ((settled known all placed).placement.isBare = true ∧
      (settled known all placed).written.qualifier = none) ∨
    (∃ outer, (placed.placement = .imported (some outer) ∨
        placed.placement = .samePackage (some outer)) ∧
      (settled known all placed).written.qualifier = some outer) ∨
    (settled known all placed).written.qualifier = Session.fullQualifier placed.name := by
  obtain ⟨sameFact, sameCandidate⟩ := placed.sameType_settled known all
  have written := qualifier_written (sameCandidate ▸ plain)
  rw [Placed.name, sameFact, ← Placed.name] at written
  rcases placement_settled known all placed with same | same
  · rw [same] at written ⊢
    cases placement : placed.placement with
    | belowQualifier => exact absurd placement reached
    | imported outer =>
      rw [placement] at written
      cases outer with
      | none => exact .inl ⟨rfl, written⟩
      | some outer => exact .inr (.inl ⟨outer, .inl rfl, written⟩)
    | samePackage outer =>
      rw [placement] at written
      cases outer with
      | none => exact .inl ⟨rfl, written⟩
      | some outer => exact .inr (.inl ⟨outer, .inr rfl, written⟩)
    | onDemand =>
      rw [placement] at written
      exact .inl ⟨rfl, written⟩
    | unreachable | qualified =>
      rw [placement] at written
      exact .inr (.inr written)
  · rw [same] at written
    exact .inr (.inr written)

/-- What stays bare is not ambiguous. -/
theorem isAmbiguous_of_isBare_settled {placed : Placed}
    (bare : (settled known all placed).placement.isBare = true)
    (onDemand : placed.placement = .onDemand) : isAmbiguous all placed = false := by
  refine Bool.eq_false_iff.mpr fun ambiguous => ?_
  simp [settled, yield, onDemand, ambiguous, Placement.isBare] at bare

end Placed

namespace Placement

variable {package : QualifiedName} {imports : Imports} {fact : TypeFact} {qualifier : String}

/-- Behind an imported type, a type is written from the imported type on. -/
theorem importedQualifier?_eq_some (found : importedQualifier? imports fact = some qualifier) :
    ∃ around after, fact.name = QualifiedName.append around ⟨after ++ [fact.simpleName]⟩ ∧
      fact.package.length < around.length ∧
      qualifier = ".".intercalate (around.simple :: after) ∧
      imports.type? around.simple = some around := by
  obtain ⟨depth, -, found⟩ := List.exists_of_findSome?_eq_some found
  simp only [Option.bind_eq_bind, Option.bind_eq_some_iff, Option.pure_def, Option.some.injEq,
    Option.guard_eq_some', exists_and_left, exists_const] at found
  obtain ⟨outer, listed, path, imported, rfl, rfl⟩ := found
  obtain ⟨inside, rfl⟩ := List.getElem?_eq_some_iff.mp listed
  have simple : (fact.package.append ⟨fact.enclosing.take (depth + 1)⟩).simple =
      fact.enclosing[depth] := by
    rw [List.take_succ_eq_append_getElem inside, QualifiedName.simple, QualifiedName.last?,
      QualifiedName.append, ← List.append_assoc, List.getLast?_concat, Option.getD_some]
  refine ⟨_, fact.enclosing.drop (depth + 1), ?_, ?_, ?_, simple ▸ imported⟩
  · have parts := List.take_append_drop (depth + 1) fact.enclosing
    rw [TypeFact.name, TypeFact.container]
    nth_rewrite 1 [← parts]
    simp only [QualifiedName.append, QualifiedName.child, List.append_assoc]
  · simp only [QualifiedName.append, QualifiedName.length, List.length_append, List.length_take]
    omega
  · rw [simple, ← List.drop_eq_getElem_cons inside]

/-- A type that is written behind an outer one begins with the name of a type around it, which is
imported or stands in the package. -/
theorem ofFact_behind (placement : ofFact package imports fact = .imported (some qualifier) ∨
      ofFact package imports fact = .samePackage (some qualifier)) :
    ∃ around after, fact.name = QualifiedName.append around ⟨after ++ [fact.simpleName]⟩ ∧
      fact.package.length < around.length ∧
      qualifier = ".".intercalate (around.simple :: after) ∧
      (imports.type? around.simple = some around ∨ around = package.child around.simple) := by
  unfold ofFact at placement
  split at placement
  next => split at placement <;> simp at placement
  next =>
    split at placement
    next behind found =>
      obtain rfl : behind = qualifier := by simpa using placement
      obtain ⟨around, after, path, longer, text, imported⟩ := importedQualifier?_eq_some found
      exact ⟨around, after, path, longer, text, .inl imported⟩
    next =>
      split at placement
      next inside =>
        have member : fact.isMember = true ∧ ".".intercalate fact.enclosing = qualifier := by
          simpa using placement
        obtain ⟨outer, after, enclosing⟩ :=
          List.exists_cons_of_ne_nil (by simpa [TypeFact.isMember] using member.1)
        refine ⟨package.child outer, after, ?_, ?_, ?_, .inr ?_⟩
        · simp [TypeFact.name, TypeFact.container, inside, enclosing, QualifiedName.append,
            QualifiedName.child]
        · simp [inside]
        · rw [QualifiedName.simple_child, ← enclosing, member.2]
        · rw [QualifiedName.simple_child]
      next =>
        rcases ofOnDemand_cases imports fact with h | h | h <;> simp [h] at placement

end Placement

namespace Session

open Store

variable {session : Session} {inner : List Scope} {package : QualifiedName} {imports : Imports}
  {types : List ClassId} {candidate : Candidate} {name : QualifiedName}

/-- A type of the class path as it is settled among all that pass. -/
abbrev settled (session : Session) (placed : Placed) : Placed :=
  placed.settled session.known (session.placedTypes session.known)

/-! ## Simple names -/

/-- A type of the walk that is written with its simple name alone is what the name means. -/
theorem means_of_kept (base : session.OverStore)
    (file : session.InFile inner package imports types)
    (site : session.request.site = .typeReference) (unfiltered : session.Unfiltered)
    (mem : candidate ∈ typesOf session.kept)
    (denotes : session.store.typeName? candidate = some name) (long : 2 ≤ name.length)
    (bare : candidate.qualifier = none) (clear : session.Clear inner package imports name) :
    session.Means name.simple name := by
  have types : session.NamesTypes := .inr (.inl site)
  obtain ⟨walked, id, definition, stored, denotesStored⟩ := exists_storedType_of_kept types mem
  obtain rfl : definition.name = name := Option.some.inj (denotesStored.symm.trans denotes)
  obtain ⟨own, denotesOwn, simple, held⟩ := (registered_kept types).names.held candidate mem
  obtain rfl : own = definition.name := Option.some.inj (denotesOwn.symm.trans denotes)
  have claimed : session.known.claimant? candidate.name = some definition.name := held bare long
  rw [simple, ← ClassDef.simpleName, claimant?_known site unfiltered stored.matched,
    Option.bind_eq_some_iff] at claimed
  obtain ⟨first, found, named⟩ := claimed
  exact means_of_walked file base.plain clear found named

/-- Over a store, the search finds each fact that answers. -/
theorem OverStore.foundTypes (base : session.OverStore)
    (site : session.request.site = .typeReference) :
    session.foundTypes = session.index.findTypes session.typeQuery := by
  have names := Index.nodup_names_ofStore base.nested base.limit base.distinct
  have sublist : (session.index.findTypes session.typeQuery).Sublist session.index.types :=
    List.filter_sublist.trans List.filter_sublist
  have nodup : (([] ++ session.index.findTypes session.typeQuery).map TypeFact.name).Nodup :=
    (base.index ▸ names).sublist (sublist.map _)
  rw [Session.foundTypes, foundConstructors, if_neg (by simp [site]), List.map_nil,
    List.append_nil, uniqueNames_eq_foldl, foldl_addName_of_nodup nodup, List.nil_append]

theorem matched_of_placedTypes {known : KnownTypes} {placed : Placed}
    (mem : placed ∈ session.placedTypes known) : (session.match? placed.simpleName).isSome := by
  obtain ⟨fact, -, screened⟩ := mem_placedTypes.mp mem
  obtain ⟨rfl, -⟩ := screenFact_eq_ok screened
  simp only [screenFact, Screened.bind_eq_ok, matchName_eq_ok] at screened
  obtain ⟨_, -, _, -, nameMatch, matched, -⟩ := screened
  exact Option.isSome_of_eq_some matched

/-- In a file, a type is placed by the package and the imports of the file. -/
theorem placement_of_placedTypes (file : session.InFile inner package imports types)
    (site : session.request.site = .typeReference) {known : KnownTypes} {placed : Placed}
    (mem : placed ∈ session.placedTypes known) :
    placed.placement = .ofFact package imports placed.fact := by
  have placement := (places_of_mem mem).placement
  simpa only [site, Site.qualifier?, Option.isSome_none, Bool.false_eq_true, ↓reduceIte,
    file.unit] using placement

/-- Over a store, what passes is a stored class. -/
theorem stored_of_placedTypes (base : session.OverStore)
    (file : session.InFile inner package imports types)
    (site : session.request.site = .typeReference) {known : KnownTypes} {placed : Placed}
    (mem : placed ∈ session.placedTypes known) :
    ∃ id definition, session.store.class? id = some definition ∧ definition.name = placed.name ∧
      definition.package = placed.fact.package ∧
      placed.placement = session.store.placementIn package imports definition := by
  obtain ⟨id, definition, stored, fact⟩ := Index.mem_types_ofStore.mp
    (base.index ▸ mem_types_of_placedTypes (by simp [site]) mem)
  refine ⟨id, definition, stored, ?_, by rw [fact]; rfl, ?_⟩
  · rw [Placed.name, fact, Index.typeFact_name base.nested base.limit stored]
  · rw [placement_of_placedTypes file site mem, fact]

/-- Another type with the simple name of a type that passes passes too, as long as the name is
free. -/
theorem exists_twin {placed : Placed} (base : session.OverStore)
    (site : session.request.site = .typeReference) (unfiltered : session.Unfiltered)
    (mem : placed ∈ session.placedTypes session.known)
    (free : session.known.claimant? placed.simpleName = none) {id : ClassId}
    {definition : ClassDef} (stored : session.store.class? id = some definition)
    (same : definition.simpleName = placed.simpleName) :
    ∃ twin ∈ session.placedTypes session.known,
      twin.fact = Index.typeFact session.store definition := by
  obtain ⟨fact, found, screened⟩ := mem_placedTypes.mp mem
  obtain ⟨rfl, -⟩ := screenFact_eq_ok screened
  have simple : (Index.typeFact session.store definition).simpleName = placed.fact.simpleName :=
    same
  have listed : Index.typeFact session.store definition ∈ session.foundTypes := by
    rw [base.foundTypes site, Index.findTypes, List.mem_filter, List.mem_filter] at found ⊢
    refine ⟨⟨?_, simple ▸ found.1.2⟩, ?_⟩
    · rw [base.index]
      exact Index.mem_types_ofStore.mpr ⟨id, definition, stored, rfl⟩
    · simpa [Index.TypeQuery.accepts, typeQuery, site, Site.qualifier?, simple] using found.2
  have unknown : session.known.contains (Index.typeFact session.store definition).name = false := by
    refine contains_known site ?_
    rw [TypeFact.name, QualifiedName.simple_child, simple]
    exact free
  obtain ⟨nameMatch, matched⟩ := Option.isSome_iff_exists.mp (matched_of_placedTypes mem)
  rw [Placed.simpleName] at matched
  have passes : ∃ twin, session.screenFact session.known
      (Index.typeFact session.store definition) = .ok twin := by
    simp [screenFact, unknown, forbidsName, unfiltered.allowed, simple, matched,
      unfiltered.visibility, unfiltered.admitAccess]
  obtain ⟨twin, passed⟩ := passes
  exact ⟨twin, mem_placedTypes.mpr ⟨_, listed, passed⟩, (screenFact_eq_ok passed).1⟩

/-- A type on demand that stays bare shares its simple name with no other that is bare or on
demand. -/
theorem eq_of_onDemand_settled {placed twin : Placed}
    (mem : placed ∈ session.placedTypes session.known)
    (htwin : twin ∈ session.placedTypes session.known)
    (free : session.known.claimant? placed.simpleName = none)
    (bare : (session.settled placed).placement.isBare = true)
    (onDemand : placed.placement = .onDemand) (same : twin.simpleName = placed.simpleName)
    (rival : twin.placement.contends = true) : twin.name = placed.name := by
  have clear := Placed.isAmbiguous_of_isBare_settled bare onDemand
  by_contra differ
  have plain : twin.placement.namedOnDemand = false := by
    refine Bool.eq_false_iff.mpr fun demanded => Bool.eq_false_iff.mp clear ?_
    exact List.any_eq_true.mpr ⟨twin, htwin, by simp [demanded, same, differ]⟩
  have bareTwin : twin.placement.isBare = true := by simpa [Placement.contends, plain] using rival
  -- the other is not on demand, so it claims the name before
  have separated : twin ∈ Placed.separate (session.placedTypes session.known) := by
    refine List.mem_map.mpr ⟨twin, htwin, if_neg ?_⟩
    intro ambiguous
    simp only [Bool.and_eq_true, decide_eq_true_eq] at ambiguous
    rw [ambiguous.1] at plain
    cases plain
  obtain ⟨holder, hholder, bareHolder, named, first⟩ :=
    Placed.exists_holder free (Placed.holds_of_isBare_settled bare)
  have listed := (Placed.mem_separate_of_isBare hholder bareHolder).1
  obtain rfl : holder = placed :=
    List.inj_on_of_nodup_map (session.nodup_placedTypes session.known) listed mem named
  have later := first twin separated bareTwin same
  rw [onDemand] at later
  rcases Placement.isBare_cases bareTwin with twinPlacement | twinPlacement | twinPlacement <;>
    rw [twinPlacement] at later plain
  · exact absurd later (by decide)
  · exact absurd later (by decide)
  · cases plain

/-- A type of the class path that stays bare is what its simple name means. -/
theorem means_of_settled {placed : Placed} (base : session.OverStore)
    (file : session.InFile inner package imports types)
    (site : session.request.site = .typeReference) (unfiltered : session.Unfiltered)
    (mem : placed ∈ session.placedTypes session.known)
    (bare : (session.settled placed).placement.isBare = true)
    (clear : session.Clear inner package imports placed.name) :
    session.Means placed.name.simple placed.name := by
  have simple : placed.name.simple = placed.simpleName := QualifiedName.simple_child _ _
  have held := Placed.holds_of_isBare_settled bare
  have claimed := claimant?_known site unfiltered (matched_of_placedTypes mem)
  rw [← simple] at held claimed
  cases walked : session.store.firstIn placed.name.simple session.scopes with
  | some first =>
    -- the walk has given the name away, so it can only be to this type
    rw [walked, Option.bind_some] at claimed
    obtain ⟨definition, stored, -⟩ := isNamed_iff.mp (List.find?_some walked)
    have named : session.store.name? first = some definition.name := by simp [Store.name?, stored]
    rw [Placed.claimant?_claimAll (claimed.trans named)] at held
    exact means_of_walked file base.plain clear walked (named.trans held)
  | none =>
    rw [walked, Option.bind_none, simple] at claimed
    obtain ⟨id, definition, stored, named, -, placement⟩ := stored_of_placedTypes base file site mem
    have original := (Placed.placement_settled session.known _ placed).resolve_right fun full => by
      rw [full] at bare
      cases bare
    have bareAlready := bare
    rw [original, placement] at bareAlready
    refine means_of_placed base file clear walked stored named bareAlready
      fun onDemand other another storedOther sameSimple rival => ?_
    obtain ⟨twin, htwin, twinFact⟩ := exists_twin base site unfiltered mem claimed storedOther
      (sameSimple.trans simple)
    have twinPlacement : twin.placement = session.store.placementIn package imports another := by
      rw [placement_of_placedTypes file site htwin, twinFact]
    have twinSimple : twin.simpleName = placed.simpleName := by
      rw [Placed.simpleName, twinFact]
      exact sameSimple.trans simple
    have same := eq_of_onDemand_settled mem htwin claimed bare (placement.trans onDemand)
      twinSimple (twinPlacement ▸ rival)
    rw [← same, Placed.name, twinFact, Index.typeFact_name base.nested base.limit storedOther]

/-! ## The text -/

/-- A type is written with the simple name of a type around it, or its own, and what follows that in
its full name. -/
structure Written (store : Store) (candidate : Candidate) (around : QualifiedName)
    (rest : List String) : Prop where
  denotes : store.typeName? candidate = some (around.append ⟨rest⟩)
  text : Proposal.completionOf candidate = ".".intercalate (around.simple :: rest)

section Text

variable {store : Store}

theorem written_alone (kind : candidate.kind = .type) (simple : candidate.name = name.simple)
    (denotes : store.typeName? candidate = some name) (bare : candidate.qualifier = none) :
    Written store candidate name [] := by
  refine ⟨?_, ?_⟩
  · simpa [QualifiedName.append] using denotes
  · simp [Proposal.completionOf, kind, bare, simple]

theorem written_behind {around : QualifiedName} {after : List String}
    (kind : candidate.kind = .type)
    (denotes : store.typeName? candidate = some (around.append ⟨after ++ [candidate.name]⟩))
    (qualifier : candidate.qualifier = some (".".intercalate (around.simple :: after))) :
    Written store candidate around (after ++ [candidate.name]) := by
  refine ⟨denotes, ?_⟩
  have text := String.intercalate_append_of_ne_nil (s := ".")
    (List.cons_ne_nil around.simple after) (List.cons_ne_nil candidate.name [])
  rw [String.intercalate_singleton] at text
  simp [Proposal.completionOf, kind, qualifier, ← text]

/-- What is written in full begins with its first segment. -/
theorem written_full (kind : candidate.kind = .type) (simple : candidate.name = name.simple)
    (denotes : store.typeName? candidate = some name) (nonempty : name.segments ≠ [])
    (qualifier : candidate.qualifier = fullQualifier name) :
    ∃ around rest, Written store candidate around rest ∧ around.length = 1 := by
  cases container : name.segments.dropLast with
  | nil =>
    refine ⟨name, [], written_alone kind simple denotes ?_, ?_⟩
    · simp [qualifier, fullQualifier, QualifiedName.parent?, container]
    · have short := congrArg List.length container
      rw [List.length_dropLast, List.length_nil] at short
      have some := List.length_pos_of_ne_nil nonempty
      rw [QualifiedName.length]
      omega
  | cons outer after =>
    have path : name = (⟨[outer]⟩ : QualifiedName).append ⟨after ++ [candidate.name]⟩ := by
      refine congrArg QualifiedName.mk ?_
      show name.segments = outer :: after ++ [candidate.name]
      rw [← container, simple, QualifiedName.simple, QualifiedName.last?,
        List.getLast?_eq_some_getLast nonempty, Option.getD_some,
        List.dropLast_append_getLast nonempty]
    refine ⟨⟨[outer]⟩, after ++ [candidate.name], written_behind kind ?_ ?_, rfl⟩
    · rw [denotes, ← path]
    · rw [qualifier, fullQualifier, QualifiedName.parent?, container]
      rfl

end Text

/-! ## All types -/

/-- Nothing that completion does not look at takes the first name that is written. Of a simple name
it looks at most of what could, of the name of an outer type at nothing. -/
def Undisputed (session : Session) (inner : List Scope) (package : QualifiedName)
    (imports : Imports) (types : List ClassId) (around : QualifiedName) : List String → Prop
  | [] => session.Clear inner package imports around
  | _ :: _ => session.Unshadowed inner imports types around

/-- The candidate is written from a type on that its text begins with the name of, and the name
means that type if it is undisputed. -/
def Resolves (session : Session) (inner : List Scope) (package : QualifiedName)
    (imports : Imports) (types : List ClassId) (candidate : Candidate) : Prop :=
  ∃ around rest, Written session.store candidate around rest ∧
    (2 ≤ around.length → session.Undisputed inner package imports types around rest →
      session.Means around.simple around)

theorem resolves_of_full (kind : candidate.kind = .type) (simple : candidate.name = name.simple)
    (denotes : session.store.typeName? candidate = some name) (nonempty : name.segments ≠ [])
    (qualifier : candidate.qualifier = fullQualifier name) :
    session.Resolves inner package imports types candidate := by
  obtain ⟨around, rest, written, short⟩ := written_full kind simple denotes nonempty qualifier
  exact ⟨around, rest, written, fun long => absurd long (by omega)⟩

theorem resolves_of_kept (base : session.OverStore)
    (file : session.InFile inner package imports types)
    (site : session.request.site = .typeReference) (unfiltered : session.Unfiltered)
    (mem : candidate ∈ typesOf session.kept) :
    session.Resolves inner package imports types candidate := by
  have kind : candidate.kind = .type := beq_iff_eq.mp (List.mem_filter.mp mem).2
  obtain ⟨name, denotes, simple, -⟩ := (registered_kept (.inr (.inl site))).names.held candidate mem
  rcases qualifier_of_kept site mem denotes with bare | full
  · refine ⟨name, [], written_alone kind simple denotes bare, fun long clear => ?_⟩
    exact means_of_kept base file site unfiltered mem denotes long bare clear
  · obtain ⟨_, id, definition, stored, same⟩ := exists_storedType_of_kept (.inr (.inl site)) mem
    obtain rfl : definition.name = name := Option.some.inj (same.symm.trans denotes)
    have nonempty := (base.plain definition (mem_classes.mpr ⟨id, stored.stored⟩)).1
    exact resolves_of_full kind simple denotes nonempty full

/-- What is offered for a type of the class path denotes the type. -/
theorem settled_written {placed : Placed}
    (mem : placed ∈ session.placedTypes session.known) :
    (session.settled placed).written.kind = .type ∧
      (session.settled placed).written.name = placed.name.simple ∧
      session.store.typeName? (session.settled placed).written =
        some placed.name := by
  have places := places_of_mem mem
  have same := (placed.sameType_settled session.known (session.placedTypes session.known)).2
  refine ⟨?_, ?_, ?_⟩
  · rw [Placed.kind_written, same, places.kind]
  · rw [Placed.name_written, same, places.name, Placed.name, TypeFact.name,
      QualifiedName.simple_child, Placed.simpleName]
  · rw [typeName?, Placed.symbol_written, same, places.symbol]
    rfl

theorem resolves_of_behind {placed : Placed} (base : session.OverStore)
    (file : session.InFile inner package imports types)
    (site : session.request.site = .typeReference)
    (mem : placed ∈ session.placedTypes session.known) {qualifier : String}
    (placement : placed.placement = .imported (some qualifier) ∨
      placed.placement = .samePackage (some qualifier))
    (written : (session.settled placed).written.qualifier = some qualifier) :
    session.Resolves inner package imports types
      (session.settled placed).written := by
  obtain ⟨kind, simple, denotes⟩ := settled_written mem
  rw [placement_of_placedTypes file site mem] at placement
  obtain ⟨around, after, path, longer, rfl, reached⟩ := Placement.ofFact_behind placement
  rw [← Placed.name, ← (simple.trans (QualifiedName.simple_child _ _))] at path
  refine ⟨around, _, written_behind kind (path ▸ denotes) written, fun _ undisputed => ?_⟩
  have unshadowed : session.Unshadowed inner imports types around := by
    cases after <;> exact undisputed
  -- the type around it is stored as well
  obtain ⟨id, definition, stored, named, inPackage, -⟩ := stored_of_placedTypes base file site mem
  rw [← inPackage] at longer
  obtain ⟨outer, holder, held, holderName⟩ := base.nested.exists_around stored
    (congrArg QualifiedName.segments (named.trans path)) longer
  have known : session.store.name? outer = some around := by
    simp [Store.name?, held, holderName]
  exact means_of_outer base file unshadowed known reached

theorem resolves_of_settled {placed : Placed} (base : session.OverStore)
    (file : session.InFile inner package imports types)
    (site : session.request.site = .typeReference) (unfiltered : session.Unfiltered)
    (mem : placed ∈ session.placedTypes session.known) :
    session.Resolves inner package imports types
      (session.settled placed).written := by
  obtain ⟨kind, simple, denotes⟩ := settled_written mem
  have reached : placed.placement ≠ .belowQualifier :=
    placement_of_placedTypes file site mem ▸ Placement.ofFact_ne_belowQualifier _ _ _
  rcases Placed.qualifier_settled (places_of_mem mem).qualifier reached with
    ⟨bare, alone⟩ | ⟨outer, placement, behind⟩ | full
  · exact ⟨placed.name, [], written_alone kind simple denotes alone, fun _ clear =>
      means_of_settled base file site unfiltered mem bare clear⟩
  · exact resolves_of_behind base file site mem placement behind
  · exact resolves_of_full kind simple denotes
      (by simp [Placed.name, TypeFact.name, QualifiedName.child]) full

/-- Where a type has to stand, what is written for a type means the type, or is written in full: the
first name that is written means the class that it stands for, unless something that completion does
not look at takes the name. -/
theorem written_type_resolves (base : session.OverStore)
    (file : session.InFile inner package imports types)
    (site : session.request.site = .typeReference) (unfiltered : session.Unfiltered)
    (ignores : ProposalKind → Bool) (signal : Signal) :
    ∀ proposal ∈ (session.run ignores signal).proposals, proposal.kind = .type →
      ∃ candidate ∈ session.shown ignores, proposal = session.proposal candidate ∧
        ∃ around rest, session.store.typeName? candidate = some (around.append ⟨rest⟩) ∧
          proposal.completion = ".".intercalate (around.simple :: rest) ∧
          (2 ≤ around.length → session.Undisputed inner package imports types around rest →
            ∃ id, session.store.resolveType session.graph session.request.scope around.simple =
              .found id ∧ session.store.name? id = some around) := by
  intro proposal mem kind
  obtain ⟨candidate, shown, rfl⟩ :=
    List.mem_map.mp ((session.proposals_run_initial ignores signal).mem mem)
  refine ⟨candidate, shown, rfl, ?_⟩
  have offered : candidate ∈ typesOf session.offered :=
    List.mem_filter.mpr ⟨(List.mem_filter.mp shown).1, by simpa using kind_of_ofCandidate kind⟩
  have resolves : session.Resolves inner package imports types candidate := by
    rw [typesOf_offered (.inr (.inl site)), List.mem_append, List.mem_ite_nil_right] at offered
    rcases offered with walked | ⟨-, searched⟩
    · exact resolves_of_kept base file site unfiltered walked
    · rw [Placed.settle_eq_map, List.map_map] at searched
      obtain ⟨placed, hplaced, rfl⟩ := List.mem_map.mp searched
      exact resolves_of_settled base file site unfiltered hplaced
  obtain ⟨around, rest, written, means⟩ := resolves
  exact ⟨around, rest, written.denotes, written.text, means⟩

/-- Options under which nothing is filtered. -/
def unfilteredOptions : Options := { checkVisibility := false, checkForbidden := false }

/-- A store with one class, in the package that every file imports. -/
def withString : Store := (({} : Store).add (.topLevel ⟨["java", "lang", "String"]⟩)).1

/-- A request for a type at the top of a file that imports nothing. -/
def inPlainFile : Session :=
  { overCore "String" .typeReference ⟨#[{ parent := none, kind := .unit ⟨["app"]⟩ {} [] }]⟩ with
    store := withString, index := .ofStore withString, options := unfilteredOptions }

/-- `String` is written alone, and nothing else takes the name. -/
theorem string_resolves :
    (∀ proposal ∈ (inPlainFile.run (fun _ => false) fun _ _ => false).proposals,
      proposal.kind = .type → ∃ around rest,
        proposal.completion = ".".intercalate (around.simple :: rest) ∧
        (2 ≤ around.length → inPlainFile.Undisputed [] ⟨["app"]⟩ {} [] around rest →
          ∃ id, withString.resolveType inPlainFile.graph 0 around.simple = .found id ∧
            withString.name? id = some around)) ∧
    inPlainFile.Undisputed [] ⟨["app"]⟩ {} [] ⟨["java", "lang", "String"]⟩ [] := by
  have base : inPlainFile.OverStore :=
    ⟨rfl, by decide +kernel, by decide +kernel, by decide +kernel, by decide +kernel⟩
  have file : inPlainFile.InFile [] ⟨["app"]⟩ {} [] :=
    ⟨⟨_, rfl, rfl⟩, by simp, by decide, ⟨by simp, by simp⟩⟩
  have unfiltered : inPlainFile.Unfiltered := ⟨rfl, rfl, rfl, rfl, rfl⟩
  refine ⟨fun proposal mem kind => ?_, ?_⟩
  · obtain ⟨candidate, -, -, around, rest, -, text, means⟩ :=
      written_type_resolves base file rfl unfiltered _ _ proposal mem kind
    exact ⟨around, rest, text, means⟩
  · refine ⟨by simp, by simp, by simp [Imports.type?], fun id definition stored _ => ?_⟩
    -- there is one class only
    have only : ∀ definition ∈ withString.classes.toList,
        (withString.placementIn ⟨["app"]⟩ {} definition).contends = true := by decide +kernel
    exact only definition (mem_classes.mpr ⟨id, stored⟩)

/-- Two classes with one simple name, the first with a class inside it. -/
def withTwoOuters : Store :=
  let inPackage := CoreLibrary.store.add (.topLevel ⟨["app", "Outer"]⟩)
  let member := inPackage.1.addMember inPackage.2 (.topLevel ⟨["Gadget"]⟩)
  (member.1.add (.topLevel ⟨["lib", "Outer"]⟩)).1

/-- A request in a file of the package of the first that imports the second. -/
def besideTwoOuters : Session :=
  { overCore "Gadg" .typeReference
      ⟨#[{ parent := none, kind := .unit ⟨["app"]⟩ { types := [⟨["lib", "Outer"]⟩] } [] }]⟩ with
    store := withTwoOuters, index := .ofStore withTwoOuters, options := unfilteredOptions }

/-- A nested type of the package is written behind its outer type, the name of which means the class
that is imported. -/
theorem outer_name_means_other :
    (besideTwoOuters.run (fun _ => false) fun _ _ => false).proposals.map (fun proposal =>
        (proposal.completion, proposal.declaring)) =
      [("Outer.Gadget", some "app.Outer.Gadget")] ∧
    withTwoOuters.resolveType besideTwoOuters.graph 0 "Outer" =
      .found (CoreLibrary.store.size + 2) ∧
    withTwoOuters.name? (CoreLibrary.store.size + 2) = some ⟨["lib", "Outer"]⟩ := by
  refine ⟨?_, ?_, ?_⟩ <;> decide +kernel

end Session

end CodeAssist.Completion
