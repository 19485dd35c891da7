import CodeAssist.Proofs.Completion.Allocations
import CodeAssist.Proofs.Completion.WrittenTypes
import CodeAssist.Proofs.Scope.Imports
/-!
# Types that every file imports

Types of the package that every file imports are written alone, and without an import of their own.
Other types can take a simple name from them, as from all types that are imported on demand. If none
does (`Session.Uncontested`), only the declarations of the file matter: an import of the static
members of that package, which has none, takes the place of the import of its types.
-/

namespace CodeAssist

namespace TypeFact

variable {fact : TypeFact}

/-- Around a top-level type there is no other. -/
theorem enclosing_of_top (top : fact.isMember = false) : fact.enclosing = [] := by
  simpa [isMember] using top

/-- A top-level type stands right in its package. -/
theorem container_of_top (top : fact.isMember = false) : fact.container = fact.package := by
  simp [container, enclosing_of_top top, QualifiedName.append]

end TypeFact

namespace Completion

/-! ## The placement -/

namespace Placement

variable {package : QualifiedName} {imports : Imports} {fact : TypeFact} {texts : List String}

/-- An import on demand reaches the types of its container, a static one those that are static. -/
theorem ofOnDemand_eq_onDemand_iff :
    ofOnDemand imports fact = .onDemand ↔
      ∃ source, (fact.container, source) ∈ imports.onDemand ∧
        (source = .static → fact.isStatic = true) := by
  have reached : ((imports.onDemand.filter fun entry => entry.1 == fact.container).any
      fun entry => entry.2 != .static || fact.isStatic) = true ↔
      ∃ source, (fact.container, source) ∈ imports.onDemand ∧
        (source = .static → fact.isStatic = true) := by
    simp [List.any_filter, or_iff_not_imp_left]
  rw [← reached]
  unfold ofOnDemand
  dsimp only
  split
  next found => simpa using found
  next missed => split <;> simpa using missed

/-- A type is not written in full if what it stands behind is imported on demand. -/
theorem ofOnDemand_ne_qualified {source : OnDemandSource}
    (named : (fact.container, source) ∈ imports.onDemand) :
    ofOnDemand imports fact ≠ .qualified := by
  have some : (imports.onDemand.filter fun entry => entry.1 == fact.container).isEmpty = false := by
    rw [List.isEmpty_eq_false_iff_exists_mem]
    exact ⟨_, List.mem_filter.mpr ⟨named, by simp⟩⟩
  unfold ofOnDemand
  dsimp only
  rw [some]
  split <;> simp

section Implicit

variable (read : Imports.ofTexts texts = .ok imports) (outside : package ≠ Imports.implicitPackage)
  (inside : fact.package = Imports.implicitPackage) (top : fact.isMember = false)
  (free : ∀ text ∈ texts, ∀ path, Import.parse text = .ok (.type path) →
    path.simple ≠ fact.simpleName)

include read outside inside top free

/-- Outside the package itself, its types are only reached on demand. -/
theorem ofFact_eq_ofOnDemand : ofFact package imports fact = ofOnDemand imports fact := by
  have unimported : imports.type? fact.simpleName = none := by
    refine Imports.type?_eq_none_iff.mpr fun path declared => ?_
    obtain ⟨text, mem, parsed⟩ := (Imports.declares_ofTexts read).mp declared
    exact free text mem path parsed
  have unbehind : importedQualifier? imports fact = none := by
    simp [importedQualifier?, TypeFact.enclosing_of_top top]
  rw [ofFact, unimported, unbehind]
  exact if_neg fun same => outside (same.symm.trans inside)

/-- They are reached if the file imports them, and otherwise named in vain. -/
theorem ofFact_implicit :
    (fact.isStatic = true ∨ Imports.ImplicitIn texts →
      ofFact package imports fact = .onDemand) ∧
    (¬ (fact.isStatic = true ∨ Imports.ImplicitIn texts) →
      ofFact package imports fact = .unreachable) := by
  rw [ofFact_eq_ofOnDemand read outside inside top free]
  have container : fact.container = Imports.implicitPackage :=
    (TypeFact.container_of_top top).trans inside
  obtain ⟨source, named⟩ := imports.exists_implicit_mem_onDemand
  have reached : ofOnDemand imports fact = .onDemand ↔
      fact.isStatic = true ∨ Imports.ImplicitIn texts := by
    rw [ofOnDemand_eq_onDemand_iff, container, Imports.implicitIn_iff read]
    by_cases static : fact.isStatic = true
    · exact iff_of_true ⟨source, named, fun _ => static⟩ (.inl static)
    · simp only [static, imp_false, ne_eq, false_or, Bool.false_eq_true]
  refine ⟨reached.mpr, fun unreached => ?_⟩
  rcases ofOnDemand_cases imports fact with found | full | unreachable
  · exact absurd (reached.mp found) unreached
  · exact absurd full (ofOnDemand_ne_qualified (container ▸ named))
  · exact unreachable

end Implicit

end Placement

/-! ## Settling -/

/-- A type that is to be written alone is, if no other contends for its simple name. -/
theorem Placed.settled_of_alone {known : KnownTypes} {all : List Placed} {placed : Placed}
    (mem : placed ∈ all) (bare : placed.placement.isBare = true)
    (unclaimed : known.claimant? placed.simpleName = none)
    (alone : ∀ other ∈ all, other.simpleName = placed.simpleName →
      other.placement.contends = true → other.name = placed.name) :
    settled known all placed = placed := by
  have clear : isAmbiguous all placed = false := by
    refine List.any_eq_false.mpr fun other hother rival => ?_
    simp only [Bool.and_eq_true, beq_iff_eq, bne_iff_ne] at rival
    obtain ⟨⟨demanded, same⟩, differ⟩ := rival
    exact differ (alone other hother same (by simp [Placement.contends, demanded]))
  have separated : placed ∈ separate all :=
    List.mem_map.mpr ⟨placed, mem, if_neg (by simp [clear])⟩
  have held : (claimAll known (separate all)).claimant? placed.simpleName = some placed.name := by
    rw [claimAll, claimant?_foldl_claim, unclaimed, Option.none_or]
    have claims : placed ∈ ((separate all).filter fun other => other.placement.isBare).mergeSort
        fun a b => a.placement.precedence ≤ b.placement.precedence := by
      rw [List.mem_mergeSort, List.mem_filter]
      exact ⟨separated, bare⟩
    obtain ⟨holder, found⟩ := Option.isSome_iff_exists.mp
      (List.find?_isSome (p := fun other : Placed => other.simpleName == placed.simpleName) |>.mpr
        ⟨placed, claims, beq_self_eq_true _⟩)
    have listed := List.mem_of_find?_eq_some found
    rw [List.mem_mergeSort, List.mem_filter] at listed
    have same := alone holder (mem_separate_of_isBare listed.1 listed.2).1
      (by simpa using List.find?_some found) (by simp [Placement.contends, listed.2])
    rw [found, Option.map_some, same]
  have holds : (claimAll known (separate all)).holds placed.simpleName placed.name = true := by
    simp [KnownTypes.holds, held]
  simp [settled, yield, clear, holds]

namespace Session

variable {session : Session} {type candidate : Candidate} {placed : Placed}

/-- No other type takes the simple name of a type of the class path: none of the walk holds it, and
no other one of the class path contends for it. -/
structure Uncontested (session : Session) (placed : Placed) : Prop where
  unclaimed : session.known.claimant? placed.simpleName = none
  alone : ∀ other ∈ session.placedTypes session.known, other.simpleName = placed.simpleName →
    other.placement.contends = true → other.name = placed.name

/-! ## What is offered -/

/-- What is offered for a type of the class path. -/
def offeredFor (session : Session) (placed : Placed) : List Candidate :=
  Event.items (session.placedCandidates (session.settled placed))

/-- Behind `new`, constructors are written as their type is. -/
theorem spelling_of_indexedAllocations {fact : TypeFact} {constructors : List ConstructorFact}
    (mem : candidate ∈ Event.items (session.indexedAllocations type fact constructors)) :
    candidate.qualifier = type.qualifier ∧ candidate.requiredImport = type.requiredImport := by
  unfold indexedAllocations at mem
  split at mem
  next => exact absurd mem List.not_mem_nil
  next =>
    obtain rfl : candidate = type := List.mem_singleton.mp mem
    exact ⟨rfl, rfl⟩
  next style _ =>
    dsimp only at mem
    split at mem
    next =>
      obtain rfl : candidate = type.constructedAs (.indexedType fact) style :=
        List.mem_singleton.mp mem
      exact ⟨rfl, rfl⟩
    next =>
      rw [items_withFallback] at mem
      split at mem
      next =>
        obtain rfl := List.mem_singleton.mp mem
        split <;> exact ⟨rfl, rfl⟩
      next =>
        simp only [Event.items_flatMap, List.mem_flatMap, Screened.mem_items_events,
          screenIndexedConstructor, Screened.bind_eq_ok, Screened.pure_eq_ok] at mem
        obtain ⟨constructor, -, _, -, _, -, rfl⟩ := mem
        exact ⟨rfl, rfl⟩

theorem spelling_of_offeredFor (mem : candidate ∈ session.offeredFor placed) :
    candidate.qualifier = (session.settled placed).written.qualifier ∧
      candidate.requiredImport = (session.settled placed).written.requiredImport := by
  unfold offeredFor placedCandidates at mem
  split at mem
  next => exact spelling_of_indexedAllocations mem
  next =>
    obtain rfl : candidate = (session.settled placed).written := List.mem_singleton.mp mem
    exact ⟨rfl, rfl⟩

/-- A type that passes is offered, behind `new` unless it is an annotation. -/
theorem offeredFor_eq_nil_iff (mem : placed ∈ session.placedTypes session.known) :
    session.offeredFor placed = [] ↔
      session.request.site = .allocation ∧ placed.fact.kind = .annotationType := by
  obtain ⟨sameFact, sameCandidate⟩ :=
    placed.sameType_settled session.known (session.placedTypes session.known)
  have symbol : (session.settled placed).written.symbol = .indexedType placed.fact := by
    rw [Placed.symbol_written, sameCandidate, (places_of_mem mem).symbol]
  have settled : session.settled placed ∈
      Placed.settle session.known (session.placedTypes session.known) := by
    rw [Placed.settle_eq_map]
    exact List.mem_map_of_mem mem
  have replaces := session.replaces_indexedReplacements session.known _ settled
  unfold offeredFor placedCandidates
  split
  next site =>
    rw [← indexedReplacements, replaces.empty, isAnnotationType, symbol]
    simp [site]
  next site => simp [site]

theorem mem_offered_of_offeredFor (searches : session.searchesTypes = true)
    (mem : placed ∈ session.placedTypes session.known)
    (listed : candidate ∈ session.offeredFor placed) : candidate ∈ session.offered := by
  have site : session.request.site ≠ .nothing := by
    intro site
    simp [searchesTypes, site, Site.wantsTypes] at searches
  have found : candidate ∈ Event.items (session.searchTypes session.known) := by
    rw [items_searchTypes, Placed.settle_eq_map, List.mem_flatMap]
    exact ⟨session.settled placed, List.mem_map_of_mem mem, listed⟩
  rw [offered, if_neg site, if_pos searches]
  exact List.mem_append_left _ (List.mem_append_right _ found)

/-- A request in a file finds a type on the class path, and the type passes. -/
structure FindsType (session : Session) (package : QualifiedName) (imports : Imports)
    (fact : TypeFact) (placed : Placed) : Prop where
  unit : session.unit = (package, imports)
  site : session.request.site.qualifier? = none
  searches : session.searchesTypes = true
  mem : placed ∈ session.placedTypes session.known
  fact : placed.fact = fact

/-- How all that is offered for a type of the class path is proposed. -/
structure OffersAs (session : Session) (placed : Placed)
    (qualification requiredImport : Option String) : Prop where
  offered : ∀ candidate ∈ session.offeredFor placed, candidate ∈ session.offered
  empty : session.offeredFor placed = [] ↔
    session.request.site = .allocation ∧ placed.fact.kind = .annotationType
  qualification : ∀ candidate ∈ session.offeredFor placed,
    (session.proposal candidate).qualification = qualification
  requiredImport : ∀ candidate ∈ session.offeredFor placed,
    (session.proposal candidate).requiredImport = requiredImport

theorem FindsType.placement {package : QualifiedName} {imports : Imports} {fact : TypeFact}
    (finds : session.FindsType package imports fact placed) :
    placed.placement = .ofFact package imports fact := by
  have placement := (places_of_mem finds.mem).placement
  rw [finds.site, finds.unit, finds.fact] at placement
  simpa using placement

/-- What is offered for a type is proposed as the settled type is written. -/
theorem FindsType.offersAs {package : QualifiedName} {imports : Imports} {fact : TypeFact}
    {qualifier requiredImport : Option String}
    (finds : session.FindsType package imports fact placed)
    (written : (session.settled placed).written.qualifier = qualifier ∧
      (session.settled placed).written.requiredImport = requiredImport) :
    session.OffersAs placed qualifier requiredImport where
  offered _ mem := mem_offered_of_offeredFor finds.searches finds.mem mem
  empty := offeredFor_eq_nil_iff finds.mem
  qualification _ mem := (spelling_of_offeredFor mem).1.trans written.1
  requiredImport _ mem := (spelling_of_offeredFor mem).2.trans written.2

theorem requiredImport_of_placedTypes {known : KnownTypes}
    (mem : placed ∈ session.placedTypes known) : placed.candidate.requiredImport = none := by
  obtain ⟨fact, -, screened⟩ := mem_placedTypes.mp mem
  simp only [screenFact, Screened.bind_eq_ok, Screened.pure_eq_ok] at screened
  obtain ⟨_, -, _, -, nameMatch, -, _, -, _, -, rfl⟩ := screened
  rfl

/-- A type on demand is written alone if its simple name is uncontested. -/
theorem written_of_uncontested (mem : placed ∈ session.placedTypes session.known)
    (onDemand : placed.placement = .onDemand) (uncontested : session.Uncontested placed) :
    (session.settled placed).written.qualifier = none ∧
      (session.settled placed).written.requiredImport = none := by
  have settled : session.settled placed = placed :=
    Placed.settled_of_alone mem (by rw [onDemand]; rfl) uncontested.unclaimed uncontested.alone
  have written : placed.written = { placed.candidate with origin := .onDemandImport } := by
    rw [Placed.written, onDemand]
  rw [settled, written]
  exact ⟨(places_of_mem mem).qualifier, requiredImport_of_placedTypes mem⟩

/-- A type that is only named on demand is written in full, and is to be imported. -/
theorem written_of_unreachable (session : Session) (unreachable : placed.placement = .unreachable) :
    (session.settled placed).written.qualifier = fullQualifier placed.name ∧
      (session.settled placed).written.requiredImport =
        (fullQualifier placed.name).map fun _ => placed.name.dotted := by
  have sameFact := (placed.sameType_settled session.known (session.placedTypes session.known)).1
  have name : (session.settled placed).name = placed.name := congrArg TypeFact.name sameFact
  unfold Placed.written
  rcases placed.placement_settled session.known (session.placedTypes session.known) with
    same | same
  · rw [same, unreachable]
    exact ⟨congrArg fullQualifier name, by rw [name]; rfl⟩
  · rw [same]
    exact ⟨congrArg fullQualifier name, by rw [name]; rfl⟩

/-- Types of the package that every file imports are written alone and need no import in files
outside that package, whatever these import, as long as no other type takes the simple name. There
is one exception: a file that imports the static members of the package, as if it were a type, and
not its types, reaches only those that are static. The others are written in full there. -/
theorem implicit_types_need_no_import {texts : List String} {imports : Imports}
    {package : QualifiedName} {fact : TypeFact} (read : Imports.ofTexts texts = .ok imports)
    (outside : package ≠ Imports.implicitPackage)
    (inside : fact.package = Imports.implicitPackage) (top : fact.isMember = false)
    (free : ∀ text ∈ texts, ∀ path, Import.parse text = .ok (.type path) →
      path.simple ≠ fact.simpleName) :
    (fact.isStatic = true ∨ Imports.ImplicitIn texts →
      Placement.ofFact package imports fact = .onDemand ∧
      ∀ (session : Session) (placed : Placed), session.FindsType package imports fact placed →
        session.Uncontested placed → session.OffersAs placed none none) ∧
    (¬ (fact.isStatic = true ∨ Imports.ImplicitIn texts) →
      Placement.ofFact package imports fact = .unreachable ∧
      ∀ (session : Session) (placed : Placed), session.FindsType package imports fact placed →
        session.OffersAs placed (some Imports.implicitPackage.dotted) (some fact.name.dotted)) := by
  obtain ⟨reached, missed⟩ := Placement.ofFact_implicit read outside inside top free
  refine ⟨fun reaches => ⟨reached reaches, ?_⟩, fun misses => ⟨missed misses, ?_⟩⟩
  · intro session placed finds uncontested
    have onDemand := finds.placement.trans (reached reaches)
    exact finds.offersAs (written_of_uncontested finds.mem onDemand uncontested)
  · intro session placed finds
    have unreachable := finds.placement.trans (missed misses)
    have full : fullQualifier placed.name = some Imports.implicitPackage.dotted := by
      rw [Placed.name, finds.fact, TypeFact.name, TypeFact.container_of_top top, inside]
      rfl
    have written := session.written_of_unreachable unreachable
    rw [full, Option.map_some, Placed.name, finds.fact] at written
    exact finds.offersAs written

/-- A request for a type at the top of a file with the given imports. -/
def typingString (imports : Imports) : Session :=
  overCore "Stri" .typeReference ⟨#[{ parent := none, kind := .unit ⟨["app"]⟩ imports [] }]⟩
    (.build { types := [.topLevel ⟨["java", "lang", "String"]⟩] })

/-- An import of another type makes no difference. -/
theorem string_needs_no_import :
    ∃ imports, Imports.ofTexts ["java.util.List"] = .ok imports ∧
      ∃ placed, placed.name = ⟨["java", "lang", "String"]⟩ ∧
        (typingString imports).Uncontested placed ∧
        (typingString imports).OffersAs placed none none := by
  have parsed : Import.parse "java.util.List" = .ok (.type ⟨["java", "util", "List"]⟩) := by
    decide +kernel
  have read : Imports.ofTexts ["java.util.List"] =
      .ok { types := [⟨["java", "util", "List"]⟩] } := by
    decide +kernel
  have free : ∀ text ∈ ["java.util.List"], ∀ path, Import.parse text = .ok (.type path) →
      path.simple ≠ "String" := by
    intro text mem path same
    obtain rfl := List.mem_singleton.mp mem
    obtain rfl : (⟨["java", "util", "List"]⟩ : QualifiedName) = path := by
      simpa using parsed.symm.trans same
    decide
  have given : Imports.ImplicitIn ["java.util.List"] := .inr (by simp [parsed])
  set session := typingString { types := [⟨["java", "util", "List"]⟩] }
  obtain ⟨placed, mem, fact, sole⟩ : ∃ placed ∈ session.placedTypes session.known,
      placed.fact = .topLevel ⟨["java", "lang", "String"]⟩ ∧
        ∀ other ∈ session.placedTypes session.known, other.name = placed.name := by
    decide +kernel
  have unclaimed : session.known.claimant? "String" = none := by decide +kernel
  have simple : placed.simpleName = "String" := congrArg TypeFact.simpleName fact
  have finds : session.FindsType ⟨["app"]⟩ { types := [⟨["java", "util", "List"]⟩] }
      (.topLevel ⟨["java", "lang", "String"]⟩) placed :=
    ⟨by decide +kernel, rfl, by decide +kernel, mem, fact⟩
  have uncontested : session.Uncontested placed :=
    ⟨simple ▸ unclaimed, fun other hother _ _ => sole other hother⟩
  refine ⟨_, read, placed, (congrArg TypeFact.name fact).trans rfl, uncontested, ?_⟩
  exact ((implicit_types_need_no_import read (by decide) rfl rfl free).1 (.inr given)).2 session
    placed finds uncontested

/-- An import of the static members of the package does: the type is written in full. -/
theorem static_import_hides_string :
    Imports.ofTexts ["static java.lang.*"] =
        .ok { memberOwners := [Imports.implicitPackage] } ∧
      Placement.ofFact ⟨["app"]⟩ { memberOwners := [Imports.implicitPackage] }
        (.topLevel ⟨["java", "lang", "String"]⟩) = .unreachable ∧
      ((typingString { memberOwners := [Imports.implicitPackage] }).run (fun _ => false)
          fun _ _ => false).proposals.map (fun proposal =>
            (proposal.completion, proposal.requiredImport)) =
        [("java.lang.String", some "java.lang.String")] := by
  refine ⟨?_, ?_, ?_⟩ <;> decide +kernel

end Session

end Completion

end CodeAssist
