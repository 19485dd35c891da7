import CodeAssist.Scope.Graph
import Mathlib.Data.List.Chain
import Mathlib.Data.List.Perm.Subperm
import Mathlib.Logic.Relation
/-!
# Chains of scopes

From a scope, the links to parents lead through a chain that ends, or into a circle. The walk over
the scopes around a scope does not note where it has been; it only takes no more steps than there
are scopes. That bound never cuts a chain that ends (`ancestors_are_whole_chains`). Each scope has
one link at most, so a scope that came twice would be followed by the same chain twice, and a chain
would be longer than itself (`Chain.nodup`). A chain is therefore no longer than the graph.

Nothing is asked of the links: a scope may name a later one as its parent, itself, or one that does
not exist. Where they do not end, the walk goes on for as many steps as there are scopes
(`length_ancestors_of_endless`).
-/

namespace CodeAssist.ScopeGraph

open Relation (ReflTransGen)

variable {graph : ScopeGraph} {id outer last : ScopeId} {scope : Scope} {steps : Nat}
  {chain : List (ScopeId × Scope)}

/-- A scope names another one as its parent, whether that one exists or not. -/
def LinksTo (graph : ScopeGraph) (id outer : ScopeId) : Prop :=
  ∃ scope, graph.scope? id = some scope ∧ scope.parent = some outer

/-- A scope without a parent, or with one that does not exist. -/
structure Outermost (graph : ScopeGraph) (last : ScopeId) : Prop where
  stored : (graph.scope? last).isSome
  around : ∀ outer, graph.LinksTo last outer → graph.scope? outer = none

/-- The scopes from one outward, up to where the links end. -/
inductive Chain (graph : ScopeGraph) : ScopeId → List (ScopeId × Scope) → Prop
  | missing {id : ScopeId} (missing : graph.scope? id = none) : Chain graph id []
  | last {id : ScopeId} {scope : Scope} (stored : graph.scope? id = some scope)
      (parent : scope.parent = none) : Chain graph id [(id, scope)]
  | inside {id outer : ScopeId} {scope : Scope} {chain : List (ScopeId × Scope)}
      (stored : graph.scope? id = some scope) (parent : scope.parent = some outer)
      (rest : Chain graph outer chain) : Chain graph id ((id, scope) :: chain)

/-! ## One step outward -/

/-- A scope has one parent. -/
theorem LinksTo.unique {other : ScopeId} (links : graph.LinksTo id outer)
    (also : graph.LinksTo id other) : outer = other := by
  obtain ⟨scope, stored, parent⟩ := links
  obtain ⟨same, stored', parent'⟩ := also
  obtain rfl := Option.some.inj (stored.symm.trans stored')
  exact Option.some.inj (parent.symm.trans parent')

theorem size_pos_of_stored (stored : graph.scope? id = some scope) : 0 < graph.size :=
  Nat.zero_lt_of_lt (Array.getElem?_eq_some_iff.mp stored).1

/-- What can be found at a place. -/
theorem missing_or_stored (graph : ScopeGraph) (id : ScopeId) :
    graph.scope? id = none ∨
      (∃ scope, graph.scope? id = some scope ∧ scope.parent = none) ∨
      ∃ scope outer, graph.scope? id = some scope ∧ scope.parent = some outer := by
  cases stored : graph.scope? id with
  | none => exact .inl rfl
  | some scope =>
    cases parent : scope.parent with
    | none => exact .inr (.inl ⟨scope, rfl, parent⟩)
    | some outer => exact .inr (.inr ⟨scope, outer, rfl, parent⟩)

theorem outward_of_missing (missing : graph.scope? id = none) : graph.outward steps id = [] := by
  cases steps with
  | zero => rfl
  | succ steps => simp [outward, missing]

theorem outward_of_last (stored : graph.scope? id = some scope) (parent : scope.parent = none) :
    graph.outward (steps + 1) id = [(id, scope)] := by
  simp [outward, stored, parent]

theorem outward_of_inside (stored : graph.scope? id = some scope)
    (parent : scope.parent = some outer) :
    graph.outward (steps + 1) id = (id, scope) :: graph.outward steps outer := by
  simp [outward, stored, parent]

/-! ## The walk, whatever the links are -/

/-- A walk outward visits no more scopes than it may take steps. -/
theorem length_outward_le (graph : ScopeGraph) (steps : Nat) (id : ScopeId) :
    (graph.outward steps id).length ≤ steps := by
  induction steps generalizing id with
  | zero => exact Nat.le_refl _
  | succ steps ih =>
    rcases graph.missing_or_stored id with missing | ⟨_, stored, parent⟩ | ⟨_, outer, stored, parent⟩
    · rw [outward_of_missing missing]
      exact Nat.zero_le _
    · rw [outward_of_last stored parent]
      exact Nat.succ_le_succ (Nat.zero_le steps)
    · rw [outward_of_inside stored parent]
      exact Nat.succ_le_succ (ih outer)

/-- A walk outward begins at its scope, if that exists. -/
theorem head?_outward (graph : ScopeGraph) (steps : Nat) (id : ScopeId) :
    (graph.outward (steps + 1) id).head? = (graph.scope? id).map (id, ·) := by
  rw [outward]
  cases graph.scope? id <;> rfl

/-- Each scope of a walk outward is the parent of the one before. -/
theorem isChain_outward (graph : ScopeGraph) (steps : Nat) (id : ScopeId) :
    (graph.outward steps id).IsChain fun entry next => entry.2.parent = some next.1 := by
  induction steps generalizing id with
  | zero => exact .nil
  | succ steps ih =>
    rcases graph.missing_or_stored id with missing | ⟨_, stored, parent⟩ | ⟨_, outer, stored, parent⟩
    · rw [outward_of_missing missing]
      exact .nil
    · rw [outward_of_last stored parent]
      exact .singleton _
    · rw [outward_of_inside stored parent]
      refine .cons (ih outer) fun next first => ?_
      cases steps with
      | zero => cases first
      | succ steps =>
        rw [head?_outward] at first
        obtain ⟨_, _, rfl⟩ := Option.map_eq_some_iff.mp first
        exact parent

/-- A walk outward visits scopes as they are stored. -/
theorem stored_of_mem_outward {entry : ScopeId × Scope} (mem : entry ∈ graph.outward steps id) :
    graph.scope? entry.1 = some entry.2 := by
  induction steps generalizing id with
  | zero => cases mem
  | succ steps ih =>
    rcases graph.missing_or_stored id with missing | ⟨_, stored, parent⟩ | ⟨_, outer, stored, parent⟩
    · rw [outward_of_missing missing] at mem
      cases mem
    · rw [outward_of_last stored parent] at mem
      obtain rfl := List.mem_singleton.mp mem
      exact stored
    · rw [outward_of_inside stored parent] at mem
      rcases List.mem_cons.mp mem with rfl | mem
      · exact stored
      · exact ih mem

/-! ## Whole chains -/

namespace Chain

/-- The links lead through one chain only. -/
theorem unique {other : List (ScopeId × Scope)} (whole : graph.Chain id chain)
    (also : graph.Chain id other) : chain = other := by
  induction whole generalizing other with
  | missing missing =>
    cases also <;> simp_all
  | last stored parent =>
    cases also <;> simp_all
  | inside stored parent rest ih =>
    cases also with
    | missing missing => simp_all
    | last stored' parent' => simp_all
    | inside stored' parent' rest' =>
      obtain rfl := Option.some.inj (stored.symm.trans stored')
      obtain rfl := Option.some.inj (parent.symm.trans parent')
      rw [ih rest']

/-- A scope in a chain is stored, and is followed by its own chain. -/
theorem exists_behind {entry : ScopeId × Scope} (whole : graph.Chain id chain)
    (mem : entry ∈ chain) :
    graph.scope? entry.1 = some entry.2 ∧
      ∃ behind, graph.Chain entry.1 (entry :: behind) ∧ (entry :: behind).length ≤ chain.length := by
  induction whole with
  | missing => cases mem
  | last stored parent =>
    obtain rfl := List.mem_singleton.mp mem
    exact ⟨stored, [], .last stored parent, Nat.le_refl _⟩
  | inside stored parent rest ih =>
    rcases List.mem_cons.mp mem with rfl | mem
    · exact ⟨stored, _, .inside stored parent rest, Nat.le_refl _⟩
    · obtain ⟨found, behind, chain, le⟩ := ih mem
      exact ⟨found, behind, chain, Nat.le_succ_of_le le⟩

/-- Each scope comes once: the second time it would be followed by a shorter chain. -/
theorem nodup (whole : graph.Chain id chain) : (chain.map Prod.fst).Nodup := by
  induction whole with
  | missing => exact List.nodup_nil
  | last => exact List.pairwise_singleton _ _
  | @inside id outer scope chain stored parent rest ih =>
    refine List.nodup_cons.mpr ⟨fun again => ?_, ih⟩
    obtain ⟨⟨_, _⟩, mem, rfl⟩ := List.mem_map.mp again
    obtain ⟨-, behind, later, le⟩ := rest.exists_behind mem
    have same := later.unique (.inside stored parent rest)
    rw [same, List.length_cons] at le
    omega

/-- The pigeonhole: there are no more scopes in a chain than there are. -/
theorem length_le (whole : graph.Chain id chain) : chain.length ≤ graph.size := by
  have places : ∀ place ∈ chain.map Prod.fst, place ∈ List.range graph.size := by
    intro place mem
    obtain ⟨entry, inside, rfl⟩ := List.mem_map.mp mem
    exact List.mem_range.mpr (Array.getElem?_eq_some_iff.mp (whole.exists_behind inside).1).1
  have bound := (List.Nodup.subperm whole.nodup places).length_le
  rwa [List.length_map, List.length_range] at bound

/-- A walk of as many steps as the chain has scopes goes through all of it. -/
theorem outward_eq (whole : graph.Chain id chain) (enough : chain.length ≤ steps) :
    graph.outward steps id = chain := by
  induction whole generalizing steps with
  | missing missing => exact outward_of_missing missing
  | last stored parent =>
    obtain ⟨steps, rfl⟩ := Nat.exists_eq_add_of_le' enough
    exact outward_of_last stored parent
  | inside stored parent _ ih =>
    obtain ⟨steps, rfl⟩ := Nat.exists_eq_add_of_le' (Nat.succ_le_of_lt (Nat.zero_lt_of_lt enough))
    rw [outward_of_inside stored parent, ih (Nat.le_of_succ_le_succ enough)]

theorem ancestors_eq (whole : graph.Chain id chain) : graph.ancestors id = chain :=
  whole.outward_eq whole.length_le

/-- A chain holds what the links reach. -/
theorem mem_iff (whole : graph.Chain id chain) :
    outer ∈ chain.map Prod.fst ↔
      ReflTransGen graph.LinksTo id outer ∧ (graph.scope? outer).isSome := by
  induction whole with
  | @missing id missing =>
    refine iff_of_false List.not_mem_nil fun ⟨path, stored⟩ => ?_
    rcases path.cases_head with rfl | ⟨_, ⟨_, found, -⟩, -⟩
    · simp [missing] at stored
    · simp [missing] at found
  | @last id scope stored parent =>
    constructor
    · intro mem
      obtain rfl := List.mem_singleton.mp mem
      exact ⟨.refl, by simp [stored]⟩
    · rintro ⟨path, -⟩
      rcases path.cases_head with rfl | ⟨_, ⟨_, stored', parent'⟩, -⟩
      · exact List.mem_singleton_self _
      · obtain rfl := Option.some.inj (stored.symm.trans stored')
        exact absurd (parent.symm.trans parent') nofun
  | @inside id next scope chain stored parent rest ih =>
    constructor
    · intro mem
      rcases List.mem_cons.mp mem with rfl | mem
      · exact ⟨.refl, by simp [stored]⟩
      · obtain ⟨path, found⟩ := ih.mp mem
        exact ⟨.head ⟨scope, stored, parent⟩ path, found⟩
    · rintro ⟨path, found⟩
      rcases path.cases_head with rfl | ⟨other, links, path⟩
      · exact List.mem_cons_self
      · obtain rfl := links.unique ⟨scope, stored, parent⟩
        exact List.mem_cons_of_mem _ (ih.mpr ⟨path, found⟩)

end Chain

/-- Where the links reach an outermost scope, there is a chain, and it ends there. -/
theorem exists_chain (path : ReflTransGen graph.LinksTo id last) (ends : graph.Outermost last) :
    ∃ chain, graph.Chain id chain ∧ (chain.map Prod.fst).getLast? = some last := by
  induction path using ReflTransGen.head_induction_on with
  | refl =>
    obtain ⟨scope, stored⟩ := Option.isSome_iff_exists.mp ends.stored
    cases parent : scope.parent with
    | none => exact ⟨_, .last stored parent, rfl⟩
    | some outer =>
      have missing := ends.around outer ⟨scope, stored, parent⟩
      exact ⟨_, .inside stored parent (.missing missing), rfl⟩
  | head links _ ih =>
    obtain ⟨scope, stored, parent⟩ := links
    obtain ⟨chain, whole, final⟩ := ih
    refine ⟨_, .inside stored parent whole, ?_⟩
    rw [List.map_cons, List.getLast?_cons, final]
    rfl

/-- Where they reach none, the walk stops after as many scopes as there are. -/
theorem length_ancestors_of_endless (stored : (graph.scope? id).isSome)
    (endless : ∀ last, ReflTransGen graph.LinksTo id last → ¬ graph.Outermost last) :
    (graph.ancestors id).length = graph.size := by
  suffices all : ∀ steps, (graph.outward steps id).length = steps from all graph.size
  intro steps
  induction steps generalizing id with
  | zero => rfl
  | succ steps ih =>
    have further : ¬ ∀ outer, graph.LinksTo id outer → graph.scope? outer = none :=
      fun around => endless id .refl ⟨stored, around⟩
    push Not at further
    obtain ⟨outer, ⟨scope, here, parent⟩, found⟩ := further
    rw [outward_of_inside here parent, List.length_cons]
    refine congrArg Nat.succ (ih (Option.isSome_iff_ne_none.mpr found) fun last path => ?_)
    exact endless last (.head ⟨scope, here, parent⟩ path)

/-- The walk over the scopes around a scope begins with the scope itself, follows the links and takes
no more steps than there are scopes. Where the links reach a scope whose parent is missing, or that
has none, the walk goes up to it, through all that the links reach, and sees each scope once. -/
theorem ancestors_are_whole_chains (graph : ScopeGraph) (id : ScopeId) :
    (graph.ancestors id).length ≤ graph.size ∧
    (graph.ancestors id).head? = (graph.scope? id).map (id, ·) ∧
    (graph.ancestors id).IsChain (fun entry next => entry.2.parent = some next.1) ∧
    (∀ entry ∈ graph.ancestors id, graph.scope? entry.1 = some entry.2) ∧
    ∀ last, ReflTransGen graph.LinksTo id last → graph.Outermost last →
      ((graph.ancestors id).map Prod.fst).Nodup ∧
      ((graph.ancestors id).map Prod.fst).getLast? = some last ∧
      ∀ outer, outer ∈ (graph.ancestors id).map Prod.fst ↔
        ReflTransGen graph.LinksTo id outer ∧ (graph.scope? outer).isSome := by
  refine ⟨graph.length_outward_le _ id, ?_, graph.isChain_outward _ id,
    fun entry => stored_of_mem_outward, fun last path ends => ?_⟩
  · cases stored : graph.scope? id with
    | none =>
      rw [ancestors, outward_of_missing stored]
      rfl
    | some scope =>
      obtain ⟨steps, some⟩ := Nat.exists_eq_add_of_le' (size_pos_of_stored stored)
      rw [ancestors, some, head?_outward, stored]
  · obtain ⟨chain, whole, final⟩ := exists_chain path ends
    rw [whole.ancestors_eq]
    exact ⟨whole.nodup, final, fun outer => whole.mem_iff⟩

/-- Six scopes: the first has the third as its parent and that one the second, the next two are the
parents of each other, and the parent of the last does not exist. -/
def tangled : ScopeGraph :=
  [some 2, none, some 1, some 4, some 3, some 9].foldl
    (fun graph parent => (graph.add parent .block).1) {}

/-- Beside a circle, and with a parent that was added later, a chain is still walked to its end. -/
theorem tangled_chain_is_whole :
    ReflTransGen tangled.LinksTo 0 1 ∧ tangled.Outermost 1 ∧
    (tangled.ancestors 0).map Prod.fst = [0, 2, 1] ∧
    (tangled.ancestors 3).map Prod.fst = [3, 4, 3, 4, 3, 4] ∧
    (tangled.ancestors 5).map Prod.fst = [5] ∧
    ((tangled.ancestors 0).map Prod.fst).Nodup ∧
    ((tangled.ancestors 0).map Prod.fst).getLast? = some 1 ∧
    ∀ outer, outer ∈ (tangled.ancestors 0).map Prod.fst ↔
      ReflTransGen tangled.LinksTo 0 outer ∧ (tangled.scope? outer).isSome := by
  have path : ReflTransGen tangled.LinksTo 0 1 :=
    .head ⟨{ parent := some 2, kind := .block }, rfl, rfl⟩
      (.head ⟨{ parent := some 1, kind := .block }, rfl, rfl⟩ .refl)
  have ends : tangled.Outermost 1 := by
    refine ⟨rfl, fun outer ⟨scope, stored, parent⟩ => ?_⟩
    obtain rfl := Option.some.inj (stored.symm.trans
      (rfl : tangled.scope? 1 = some { parent := none, kind := .block }))
    cases parent
  exact ⟨path, ends, by decide, by decide, by decide,
    (ancestors_are_whole_chains tangled 0).2.2.2.2 1 path ends⟩

end CodeAssist.ScopeGraph
