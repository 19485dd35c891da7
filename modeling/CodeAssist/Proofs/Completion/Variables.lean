import CodeAssist.Proofs.Completion.BareMembers
import CodeAssist.Proofs.Completion.Words
import Mathlib.Data.List.Forall2
/-!
# Variables

The walk enumerates the variables of all scopes and passes over names that it has seen; the lookup
of a name goes through the scopes for that name alone. Both go through the same list,
`ScopeGraph.bindings`, and of each name both come to the first in it (`mem_firstOfEach`). How the
scopes are linked plays no part: a circle of scopes repeats variables further out, where they are
hidden by themselves.

In the labels of a switch only constants are of use. A variable that is none still hides those
further out, because names are passed over before finality is asked for.

No later stage touches a variable (`words_kept_eq`), so the walk settles what is proposed.
-/

namespace CodeAssist

open Completion Matching

/-! ## The variables around a scope -/

/-- The variables around a scope, the nearest first; in one scope the latest is the nearest. -/
def ScopeGraph.bindings (graph : ScopeGraph) (id : ScopeId) : List Local :=
  (graph.ancestors id).flatMap fun entry => entry.2.locals.reverse

/-- A local is looked up among the bindings that the scope sees, the nearest first. -/
theorem ScopeGraph.local?_eq_find? (graph : ScopeGraph) (id : ScopeId) (name : String) :
    graph.local? id name = (graph.bindings id).find? fun binding => binding.name == name := by
  rw [local?, bindings, List.find?_flatMap]

/-- The candidate for a variable. -/
def Local.candidate (binding : Local) (nameMatch : NameMatch) : Candidate :=
  { kind := .local, symbol := .local binding.type binding.isFinal, name := binding.name, nameMatch
    type := binding.type, origin := .localScope
    modifiers := if binding.isFinal then .final else .none }

theorem ScopeGraph.name_of_local? {graph : ScopeGraph} {id : ScopeId} {name : String}
    {binding : Local} (found : graph.local? id name = some binding) : binding.name = name := by
  rw [local?_eq_find?] at found
  have named : (binding.name == name) = true := by
    simpa using List.find?_some found
  exact beq_iff_eq.mp named

namespace Completion

section FirstOfEach

variable {α : Type} {name : α → String} {seen other : List String} {items : List α} {item : α}

/-- What is taken first depends on which names have been seen, not on their order. -/
theorem firstOfEach_congr (same : ∀ text, text ∈ seen ↔ text ∈ other) :
    firstOfEach name seen items = firstOfEach name other items := by
  induction items generalizing seen other with
  | nil => rfl
  | cons first items ih =>
    have later : firstOfEach name (name first :: seen) items =
        firstOfEach name (name first :: other) items := by
      apply ih
      intro text
      simp only [List.mem_cons, same]
    simp only [firstOfEach, List.contains_iff_mem, same, ih same, later]

/-- The second part of a list goes on with what the first one has made known. -/
theorem firstOfEach_append (seen : List String) (first second : List α) :
    firstOfEach name seen (first ++ second) =
      firstOfEach name seen first ++ firstOfEach name (first.map name ++ seen) second := by
  induction first generalizing seen with
  | nil => rfl
  | cons item first ih =>
    rw [List.cons_append, firstOfEach, firstOfEach]
    split
    next known =>
      rw [ih]
      congr 1
      apply firstOfEach_congr
      intro text
      have listed : name item ∈ seen := List.contains_iff_mem.mp known
      simp only [List.map_cons, List.cons_append, List.mem_cons, List.mem_append]
      constructor
      · exact .inr
      · rintro (rfl | mem)
        · exact .inr listed
        · exact mem
    next =>
      rw [ih, List.cons_append]
      congr 2
      apply firstOfEach_congr
      intro text
      simp only [List.map_cons, List.cons_append, List.mem_cons, List.mem_append]
      exact or_left_comm

/-- What is left of a list are the first items with names that were not seen. -/
theorem mem_firstOfEach :
    item ∈ firstOfEach name seen items ↔
      name item ∉ seen ∧ items.find? (fun other => name other == name item) = some item := by
  induction items generalizing seen with
  | nil => simp [firstOfEach]
  | cons first items ih =>
    rw [firstOfEach, List.find?_cons]
    by_cases same : name first = name item
    · rw [beq_iff_eq.mpr same]
      split
      next known =>
        rw [same, List.contains_iff_mem] at known
        simp [ih, known]
      next fresh =>
        rw [same, List.contains_iff_mem] at fresh
        have passed : item ∉ firstOfEach name (name first :: seen) items := by
          intro mem
          exact (ih.mp mem).1 (same ▸ List.mem_cons_self)
        simp [passed, fresh, eq_comm]
    · rw [beq_false_of_ne same]
      have differs : item ≠ first := by
        rintro rfl
        exact same rfl
      split
      next => exact ih
      next => simp [ih, differs, Ne.symm same]

end FirstOfEach

namespace Session

variable {session : Session} {mode : WalkMode} {candidate : Candidate}

/-! ## Sites of bare names -/

/-- The sites where names stand alone in an expression, and what is looked for there. The labels of
a switch over an enumeration name its constants only. -/
inductive Bare (session : Session) : WalkMode → Prop
  | name (site : session.request.site = .name) : Bare session .expression
  | caseLabel {type : TypeRef} (site : session.request.site = .caseLabel type)
      (other : session.enumeration? type = none) : Bare session .constants

namespace Bare

theorem wantsVariables (bare : session.Bare mode) : mode.wantsVariables = true := by
  cases bare <;> rfl

/-- The walk goes over the scopes, and finds some keywords besides. -/
theorem exists_walked (bare : session.Bare mode) :
    ∃ keywords : List Candidate, (∀ candidate ∈ keywords, candidate.kind = .keyword) ∧
      session.walked =
        Event.items (session.walkScopes mode false [] session.scopes) ++ keywords := by
  cases bare with
  | name site =>
    refine ⟨Event.items session.keywords, fun candidate => kind_of_mem_keywords, ?_⟩
    simp [walked, walk, site]
  | caseLabel site other =>
    refine ⟨[], by simp, ?_⟩
    simp [walked, walk, site, other]

/-- The candidates of the walk that stay come first, then types and packages of the class path. -/
theorem exists_offered (bare : session.Bare mode) :
    ∃ found, session.offered = session.kept ++ found ∧
      ∀ candidate ∈ found, candidate.kind = .type ∨ candidate.kind = .package := by
  cases bare with
  | name site => exact session.exists_offered (by simp [site]) (by simp [site])
  | caseLabel site _ => exact session.exists_offered (by simp [site]) (by simp [site])

end Bare

/-! ## The variables of a walk -/

/-- A local is let through if its name matches and, where constants are wanted, if it is final. -/
theorem screenLocal_eq_ok {binding : Local} :
    session.screenLocal mode binding = .ok candidate ↔
      (mode = .constants → binding.isFinal = true) ∧
      ∃ nameMatch, session.match? binding.name = some nameMatch ∧
        candidate = binding.candidate nameMatch := by
  have final : (mode != .constants || binding.isFinal) = true ↔
      (mode = .constants → binding.isFinal = true) := by
    simp [imp_iff_not_or]
  simp only [screenLocal, Screened.bind_eq_ok, Screened.require_eq_ok, Screened.pure_eq_ok,
    matchName_eq_ok, final, Local.candidate, exists_and_left, exists_const,
    eq_comm (b := candidate)]

/-- The variables among candidates. -/
def variablesOf (candidates : List Candidate) : List Candidate :=
  candidates.filter fun candidate => candidate.kind == .local

theorem variablesOf_append (first second : List Candidate) :
    variablesOf (first ++ second) = variablesOf first ++ variablesOf second :=
  List.filter_append ..

theorem variablesOf_eq_nil {candidates : List Candidate}
    (others : ∀ candidate ∈ candidates, candidate.kind ≠ .local) :
    variablesOf candidates = [] :=
  List.filter_eq_nil_iff.mpr fun candidate mem => by simpa using others candidate mem

/-- Of each name, a walk over scopes finds the first variable, if it passes. -/
theorem variablesOf_walkScopes (wants : mode.wantsVariables = true) (staticOnly : Bool)
    (seen : List String) {scopes : List Scope}
    (inside : ∀ scope ∈ scopes, scope ∈ session.scopes) :
    variablesOf (Event.items (session.walkScopes mode staticOnly seen scopes)) =
      (firstOfEach Local.name seen (scopes.flatMap fun scope => scope.locals.reverse)).filterMap
        fun binding => (session.screenLocal mode binding).toOption := by
  induction scopes generalizing staticOnly seen with
  | nil => rfl
  | cons scope outer ih =>
    have own : variablesOf ((firstOfEach Local.name seen scope.locals.reverse).filterMap
        fun binding => (session.screenLocal mode binding).toOption) =
        (firstOfEach Local.name seen scope.locals.reverse).filterMap
          fun binding => (session.screenLocal mode binding).toOption := by
      apply List.filter_eq_self.mpr
      intro candidate mem
      obtain ⟨binding, -, screened⟩ := List.mem_filterMap.mp mem
      obtain ⟨-, nameMatch, -, rfl⟩ := screenLocal_eq_ok.mp (Screened.toOption_eq_some.mp screened)
      rfl
    have given : variablesOf
        (Event.items (session.kindCandidates mode staticOnly scope.kind)) = [] := by
      apply variablesOf_eq_nil
      intro candidate mem kind
      have word := (given_of_kindCandidates (inside scope List.mem_cons_self) mem).walks.2
      rw [kind] at word
      exact absurd word (by decide)
    have names : firstOfEach Local.name (scope.locals.reverse.map Local.name ++ seen)
        (outer.flatMap fun scope => scope.locals.reverse) =
        firstOfEach Local.name (scope.locals.map Local.name ++ seen)
          (outer.flatMap fun scope => scope.locals.reverse) := by
      apply firstOfEach_congr
      intro text
      simp
    rw [walkScopes, if_pos wants, Event.items_append, Event.items_append, variablesOf_append,
      variablesOf_append, Screened.items_flatMap_step, own, given, List.append_nil,
      ih _ _ fun other mem => inside other (List.mem_cons_of_mem _ mem), List.flatMap_cons,
      firstOfEach_append, names, List.filterMap_append]

/-- The variables around the cursor, of each name the nearest. -/
def nearestBindings (session : Session) : List Local :=
  firstOfEach Local.name [] (session.graph.bindings session.request.scope)

/-- A variable is the nearest of its name if the lookup of the name finds it. -/
theorem mem_nearestBindings {binding : Local} :
    binding ∈ session.nearestBindings ↔
      session.graph.local? session.request.scope binding.name = some binding := by
  rw [nearestBindings, mem_firstOfEach, ScopeGraph.local?_eq_find?]
  exact and_iff_right List.not_mem_nil

/-- The variables that stay are those of the walk over scopes. -/
theorem variablesOf_kept (bare : session.Bare mode) :
    variablesOf session.kept = session.nearestBindings.filterMap
      fun binding => (session.screenLocal mode binding).toOption := by
  have words (candidates : List Candidate) : variablesOf candidates =
      variablesOf (candidates.filter fun candidate => candidate.kind.isWord) := by
    rw [variablesOf, variablesOf, List.filter_filter]
    apply List.filter_congr
    intro candidate _
    cases candidate.kind <;> rfl
  obtain ⟨keywords, kinds, walked⟩ := bare.exists_walked
  have none : variablesOf keywords = [] := by
    apply variablesOf_eq_nil
    intro candidate mem
    simp [kinds candidate mem]
  rw [words, words_kept_eq, ← words, walked, variablesOf_append, none, List.append_nil,
    variablesOf_walkScopes bare.wantsVariables false [] fun _ mem => mem, nearestBindings,
    ScopeGraph.bindings, scopes, List.flatMap_map]

/-! ## What is proposed -/

end Session

end Completion

end CodeAssist
