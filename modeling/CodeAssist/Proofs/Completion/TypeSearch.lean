import CodeAssist.Completion.Search
import CodeAssist.Proofs.Class.Names
import CodeAssist.Proofs.Completion.Screening
/-!
# What a search of the class path finds

The types that pass are *placed* (`Session.placedTypes`), no two of them with one name, and then
settled together. Settling goes type by type, with an eye on all the others (`settle_eq_map`), and
changes nothing but placements (`sameType_settled`). A type that is bare in the end holds its simple
name (`holds_of_isBare_settled`).
-/

namespace CodeAssist

/-- A name with more than one segment has a parent. -/
theorem QualifiedName.parent?_isSome {name : QualifiedName} (nested : 2 ≤ name.length) :
    name.parent?.isSome := by
  unfold parent?
  split
  next empty =>
    have short := congrArg List.length empty
    simp only [List.length_dropLast, List.length_nil, length] at short nested
    omega
  next => rfl

/-- A name below another tells both apart. -/
theorem QualifiedName.child_inj {first second : QualifiedName} {segment other : String} :
    first.child segment = second.child other ↔ first = second ∧ segment = other := by
  obtain ⟨first⟩ := first
  obtain ⟨second⟩ := second
  simp [child, List.append_singleton_inj]

namespace Completion

/-! ## Repeated names -/

/-- Adds a fact unless an earlier one has its name. -/
def addName (kept : List TypeFact) (fact : TypeFact) : List TypeFact :=
  if kept.any fun earlier => earlier.name == fact.name then kept else kept ++ [fact]

/-- Facts of one name are dropped one by one, so that what holds of one step holds of all. -/
theorem uniqueNames_eq_foldl (facts : List TypeFact) : uniqueNames facts = facts.foldl addName [] :=
  rfl

/-- A fact whose name is known is dropped. -/
theorem addName_of_mem {kept : List TypeFact} {fact : TypeFact}
    (known : fact.name ∈ kept.map TypeFact.name) : addName kept fact = kept := by
  obtain ⟨earlier, mem, same⟩ := List.mem_map.mp known
  exact if_pos (List.any_eq_true.mpr ⟨earlier, mem, by simp [same]⟩)

/-- Any other fact is kept behind those before it. -/
theorem addName_of_not_mem {kept : List TypeFact} {fact : TypeFact}
    (fresh : fact.name ∉ kept.map TypeFact.name) : addName kept fact = kept ++ [fact] := by
  refine if_neg fun known => fresh ?_
  obtain ⟨earlier, mem, same⟩ := List.any_eq_true.mp known
  exact List.mem_map.mpr ⟨earlier, mem, by simpa using same⟩

theorem nodup_addName {kept : List TypeFact} (nodup : (kept.map TypeFact.name).Nodup)
    (fact : TypeFact) : ((addName kept fact).map TypeFact.name).Nodup := by
  by_cases known : fact.name ∈ kept.map TypeFact.name
  · rwa [addName_of_mem known]
  · rw [addName_of_not_mem known, List.map_append, List.nodup_append]
    refine ⟨nodup, by simp, ?_⟩
    rintro name mem _ (_ | ⟨_, ⟨⟩⟩) rfl
    exact known mem

/-- The run: names stay distinct. -/
theorem nodup_foldl_addName {kept : List TypeFact} (nodup : (kept.map TypeFact.name).Nodup)
    (facts : List TypeFact) : ((facts.foldl addName kept).map TypeFact.name).Nodup := by
  induction facts generalizing kept with
  | nil => exact nodup
  | cons fact facts ih => exact ih (nodup_addName nodup fact)

/-- Nothing is kept that was not there. -/
theorem mem_foldl_addName {kept facts : List TypeFact} {fact : TypeFact}
    (mem : fact ∈ facts.foldl addName kept) : fact ∈ kept ∨ fact ∈ facts := by
  induction facts generalizing kept with
  | nil => exact .inl mem
  | cons first facts ih =>
    rcases ih mem with mem | mem
    · by_cases known : first.name ∈ kept.map TypeFact.name
      · rw [addName_of_mem known] at mem
        exact .inl mem
      · rw [addName_of_not_mem known] at mem
        exact (List.mem_append.mp mem).imp id fun last => by simp_all
    · exact .inr (List.mem_cons_of_mem _ mem)

/-- The types that a search finds have different names. -/
theorem nodup_uniqueNames (facts : List TypeFact) :
    ((uniqueNames facts).map TypeFact.name).Nodup :=
  nodup_foldl_addName (by simp) facts

/-- The name of a fact is kept, be it through an earlier fact. -/
theorem mem_names_addName {kept : List TypeFact} {fact : TypeFact} {name : QualifiedName} :
    name ∈ (addName kept fact).map TypeFact.name ↔
      name ∈ kept.map TypeFact.name ∨ name = fact.name := by
  by_cases known : fact.name ∈ kept.map TypeFact.name
  · rw [addName_of_mem known]
    exact ⟨.inl, fun mem => mem.elim id fun same => same ▸ known⟩
  · simp [addName_of_not_mem known]

/-- No name is lost. -/
theorem mem_names_uniqueNames {facts : List TypeFact} {name : QualifiedName} :
    name ∈ (uniqueNames facts).map TypeFact.name ↔ name ∈ facts.map TypeFact.name := by
  have run : ∀ kept, name ∈ (facts.foldl addName kept).map TypeFact.name ↔
      name ∈ kept.map TypeFact.name ∨ name ∈ facts.map TypeFact.name := by
    induction facts with
    | nil => simp
    | cons fact facts ih =>
      intro kept
      rw [List.foldl_cons, ih, mem_names_addName, List.map_cons, List.mem_cons, or_assoc]
  exact (run []).trans (or_iff_right List.not_mem_nil)

/-- Facts whose names have been found add nothing. -/
theorem uniqueNames_append_of_mem {facts others : List TypeFact}
    (known : ∀ fact ∈ others, fact.name ∈ facts.map TypeFact.name) :
    uniqueNames (facts ++ others) = uniqueNames facts := by
  rw [uniqueNames_eq_foldl, List.foldl_append, ← uniqueNames_eq_foldl]
  induction others with
  | nil => rfl
  | cons fact others ih =>
    rw [List.foldl_cons, addName_of_mem (mem_names_uniqueNames.mpr (known fact List.mem_cons_self))]
    exact ih fun other mem => known other (List.mem_cons_of_mem _ mem)

/-- Only facts that were found are left. -/
theorem mem_of_mem_uniqueNames {facts : List TypeFact} {fact : TypeFact}
    (mem : fact ∈ uniqueNames facts) : fact ∈ facts :=
  (mem_foldl_addName mem).resolve_left List.not_mem_nil

/-! ## Settling -/

/-- A fact is placed below a qualifier only if the request has one. -/
theorem Placement.ofFact_ne_belowQualifier (package : QualifiedName) (imports : Imports)
    (fact : TypeFact) : ofFact package imports fact ≠ .belowQualifier := by
  unfold ofFact ofOnDemand
  dsimp only
  repeat' split
  all_goals simp

namespace Placed

/-- The same type, placed in another way or in the same. -/
def SameType (placed other : Placed) : Prop :=
  other.fact = placed.fact ∧ other.candidate = placed.candidate

/-- Giving way to another type changes the placement and nothing else. -/
theorem sameType_yield (known : KnownTypes) (placed : Placed) :
    placed.SameType (yield known placed) := by
  unfold yield
  split <;> exact ⟨rfl, rfl⟩

/-- Who holds a simple name after claims: who held it before, or else the first to claim it. -/
theorem claimant?_foldl_claim (known : KnownTypes) (claims : List Placed) (simple : String) :
    (claims.foldl (fun known placed => known.claim placed.simpleName placed.name) known).claimant?
        simple =
      (known.claimant? simple).or
        ((claims.find? fun placed => placed.simpleName == simple).map Placed.name) := by
  induction claims generalizing known with
  | nil => simp
  | cons placed claims ih =>
    rw [List.foldl_cons, ih, KnownTypes.claimant?_claim, List.find?_cons]
    by_cases same : simple = placed.simpleName
    · subst same
      cases known.claimant? placed.simpleName <;> simp
    · have differ : (placed.simpleName == simple) = false := beq_eq_false_iff_ne.mpr (Ne.symm same)
      cases known.claimant? simple <;> simp [same, differ]

/-- A simple name that is held stays with its holder. -/
theorem claimant?_claimAll {known : KnownTypes} {simple : String} {owner : QualifiedName}
    (held : known.claimant? simple = some owner) (all : List Placed) :
    (claimAll known all).claimant? simple = some owner := by
  rw [claimAll, claimant?_foldl_claim, held, Option.some_or]

/-- What stays bare holds its simple name. -/
theorem holds_of_isBare_yield {known : KnownTypes} {placed : Placed}
    (bare : (yield known placed).placement.isBare = true) :
    known.claimant? placed.simpleName = some placed.name := by
  unfold yield at bare
  split at bare
  · exact absurd bare Bool.false_ne_true
  next held =>
    rw [bare, Bool.true_and] at held
    simpa [KnownTypes.holds] using held

/-- How a placed type is settled among others. -/
def settled (known : KnownTypes) (all : List Placed) (placed : Placed) : Placed :=
  yield (claimAll known (separate all))
    (if placed.placement = .onDemand && isAmbiguous all placed then
      { placed with placement := .qualified }
    else placed)

/-- Settling treats each type on its own, given the claims of all. -/
theorem settle_eq_map (known : KnownTypes) (all : List Placed) :
    settle known all = all.map (settled known all) := by
  simp [settle, separate, settled, Function.comp_def]

/-- So a settled type stands for the same fact. -/
theorem sameType_settled (known : KnownTypes) (all : List Placed) (placed : Placed) :
    placed.SameType (settled known all placed) := by
  unfold settled
  split
  · exact sameType_yield _ { placed with placement := .qualified }
  · exact sameType_yield _ placed

/-- Nothing is settled behind a qualifier that did not stand there. -/
theorem placement_of_settled_below {known : KnownTypes} {all : List Placed} {placed : Placed}
    (below : (settled known all placed).placement = .belowQualifier) :
    placed.placement = .belowQualifier := by
  unfold settled yield at below
  split at below
  · exact absurd below (by simp)
  · split at below
    · exact absurd below (by simp)
    · exact below

/-- A type that may be written alone once the names are settled holds its simple name. -/
theorem holds_of_isBare_settled {known : KnownTypes} {all : List Placed} {placed : Placed}
    (bare : (settled known all placed).placement.isBare = true) :
    (claimAll known (separate all)).claimant? placed.simpleName = some placed.name := by
  have held := holds_of_isBare_yield bare
  split at held
  · exact held
  · exact held

/-- A type that is written without a qualifier is bare or stands behind one already, unless it has
no container. -/
theorem isBare_of_qualifier_written {placed : Placed}
    (elsewhere : placed.placement ≠ .belowQualifier) (nested : 2 ≤ placed.name.length)
    (unqualified : placed.written.qualifier = none) : placed.placement.isBare = true := by
  have container : placed.name.parent? ≠ none :=
    Option.isSome_iff_ne_none.mp (QualifiedName.parent?_isSome nested)
  unfold written at unqualified
  cases placement : placed.placement with
  | belowQualifier => exact absurd placement elsewhere
  | imported qualifier =>
    simp only [placement] at unqualified
    rw [unqualified]
    rfl
  | samePackage qualifier =>
    simp only [placement] at unqualified
    rw [unqualified]
    rfl
  | onDemand => rfl
  | unreachable => simp [placement, Candidate.qualifiedBy, container] at unqualified
  | qualified => simp [placement, Candidate.qualifiedBy, container] at unqualified

@[simp] theorem kind_written (placed : Placed) : placed.written.kind = placed.candidate.kind := by
  unfold written
  split <;> rfl

@[simp] theorem symbol_written (placed : Placed) :
    placed.written.symbol = placed.candidate.symbol := by
  unfold written
  split <;> rfl

@[simp] theorem name_written (placed : Placed) : placed.written.name = placed.candidate.name := by
  unfold written
  split <;> rfl

end Placed

namespace Session

variable {session : Session} {known : KnownTypes}

/-- The types of the class path that pass. -/
def placedTypes (session : Session) (known : KnownTypes) : List Placed :=
  Event.items (session.foundTypes.flatMap fun fact => (session.screenFact known fact).step)

theorem placedTypes_eq (session : Session) (known : KnownTypes) :
    session.placedTypes known =
      session.foundTypes.filterMap fun fact => (session.screenFact known fact).toOption :=
  Screened.items_flatMap_step _ _

/-- The types with a place are the facts that pass their screening. -/
theorem mem_placedTypes {placed : Placed} :
    placed ∈ session.placedTypes known ↔
      ∃ fact ∈ session.foundTypes, session.screenFact known fact = .ok placed := by
  simp only [placedTypes_eq, List.mem_filterMap, Screened.toOption_eq_some]

/-- What is known of a type that passes. -/
structure Places (session : Session) (known : KnownTypes) (placed : Placed) : Prop where
  fresh : known.contains placed.name = false
  kind : placed.candidate.kind = .type
  symbol : placed.candidate.symbol = .indexedType placed.fact
  name : placed.candidate.name = placed.simpleName
  qualifier : placed.candidate.qualifier = none
  placement : placed.placement =
    if session.request.site.qualifier?.isSome then .belowQualifier
    else .ofFact session.unit.1 session.unit.2 placed.fact

/-- What passed tells of its fact and of the place that it was given. -/
theorem screenFact_eq_ok {fact : TypeFact} {placed : Placed}
    (screened : session.screenFact known fact = .ok placed) :
    placed.fact = fact ∧ session.Places known placed := by
  simp only [screenFact, Screened.bind_eq_ok, Screened.requireOr_eq_ok, Screened.require_eq_ok,
    Screened.pure_eq_ok] at screened
  obtain ⟨_, fresh, _, -, nameMatch, -, _, -, _, -, rfl⟩ := screened
  exact ⟨rfl, by simpa [Placed.name] using fresh, rfl, rfl, rfl, rfl, rfl⟩

theorem places_of_mem {placed : Placed} (mem : placed ∈ session.placedTypes known) :
    session.Places known placed := by
  obtain ⟨fact, -, screened⟩ := mem_placedTypes.mp mem
  exact (screenFact_eq_ok screened).2

/-- Except behind `new`, a type that passes is listed in the index. -/
theorem mem_types_of_placedTypes (site : session.request.site ≠ .allocation) {placed : Placed}
    (mem : placed ∈ session.placedTypes known) : placed.fact ∈ session.index.types := by
  obtain ⟨fact, found, screened⟩ := mem_placedTypes.mp mem
  obtain ⟨rfl, -⟩ := screenFact_eq_ok screened
  have listed := mem_of_mem_uniqueNames found
  rw [foundConstructors, if_neg site, List.map_nil, List.append_nil] at listed
  exact (List.mem_filter.mp (List.mem_filter.mp listed).1).1

/-- The types of the class path that pass have different names. -/
theorem nodup_placedTypes (session : Session) (known : KnownTypes) :
    ((session.placedTypes known).map Placed.name).Nodup := by
  have found := nodup_uniqueNames (session.index.findTypes session.typeQuery
    ++ session.foundConstructors.map ConstructorFact.declaring)
  rw [List.Nodup, List.pairwise_map] at found ⊢
  rw [placedTypes_eq, List.pairwise_filterMap]
  refine found.imp fun differ a ha b hb => ?_
  rw [Placed.name, Placed.name, (screenFact_eq_ok (Screened.toOption_eq_some.mp ha)).1,
    (screenFact_eq_ok (Screened.toOption_eq_some.mp hb)).1]
  exact differ

/-- What the class path offers, type by type. -/
theorem items_searchTypes (session : Session) (known : KnownTypes) :
    Event.items (session.searchTypes known) =
      (Placed.settle known (session.placedTypes known)).flatMap fun placed =>
        Event.items (session.placedCandidates placed) := by
  simp only [searchTypes, placedTypes, Event.items_append, Event.items_map_tick, Event.items_notes,
    Event.items_flatMap, List.nil_append]

/-- Except behind `new`, each settled type is offered once. -/
theorem items_searchTypes_of_ne (site : session.request.site ≠ .allocation) (known : KnownTypes) :
    Event.items (session.searchTypes known) =
      (Placed.settle known (session.placedTypes known)).map Placed.written := by
  rw [items_searchTypes]
  simp only [placedCandidates, if_neg site, Event.items_found, Event.items_nil]
  exact List.map_eq_flatMap.symm

/-- Except where an instance is created, the search gives types only. -/
theorem kind_of_mem_searchTypes (site : session.request.site ≠ .allocation)
    {candidate : Candidate} (mem : candidate ∈ Event.items (session.searchTypes known)) :
    candidate.kind = .type := by
  rw [items_searchTypes_of_ne site, Placed.settle_eq_map, List.map_map] at mem
  obtain ⟨placed, hplaced, rfl⟩ := List.mem_map.mp mem
  rw [Function.comp_apply, Placed.kind_written, (Placed.sameType_settled _ _ placed).2]
  exact (places_of_mem hplaced).kind

/-- The search for packages gives packages only. -/
theorem kind_of_mem_searchPackages {candidate : Candidate}
    (mem : candidate ∈ Event.items session.searchPackages) : candidate.kind = .package := by
  simp only [searchPackages, Event.items_flatMap, Screened.items_step, List.mem_flatMap,
    Screened.mem_items_events] at mem
  obtain ⟨package, -, screened⟩ := mem
  unfold screenPackage at screened
  split at screened
  next => exact absurd screened Screened.throw_ne_ok
  next =>
    simp only [Screened.bind_eq_ok, Screened.pure_eq_ok] at screened
    obtain ⟨nameMatch, -, rfl⟩ := screened
    rfl

end Session

end Completion

end CodeAssist
