import CodeAssist.Proofs.Completion.InstanceMembers
/-!
# Fields that variables hide

A field with the name of a variable has to be qualified where names stand alone. Whether there is
such a variable is asked late, of the candidates that stayed. That comes to the lookup of the name,
because a field that was found has a name that the token matches, so the variable that the lookup
finds was found too (`mem_names_of_local?`).

It does not come to the lookup where the walk passes over a variable: in the labels of a switch a
variable that is not final hides those further out from the walk, but is no candidate itself, and
nothing is left to hide a field. The field is then written alone, although its name means the
variable (`hidden_constant_written_alone`).

A field can also be found through a scope of a class that is not stored. There is no receiver to
write before it. What is found so is a field of the root class.
-/

namespace CodeAssist.Completion.Session

variable {session : Session} {mode : WalkMode} {candidate : Candidate}

/-! ## How a field is written -/

/-- The last changes take no qualifier away. -/
theorem qualifier_of_finish (unqualified : (session.finish candidate).qualifier = none) :
    candidate.qualifier = none := by
  have attributed : (session.attributeRecordMethod candidate).qualifier = candidate.qualifier := by
    rw [attributeRecordMethod_eq]
  by_contra qualified
  have stays : (session.finish candidate).qualifier = candidate.qualifier := by
    unfold finish forceQualifier
    split
    · simp [attributed, Option.isNone_iff_eq_none, qualified]
    · exact attributed
  exact qualified (stays.symm.trans unqualified)

/-- A field that was found is written alone only if no variable that stays has its name, or if there
is no receiver to write before it. -/
theorem not_hidden_of_unqualified {root : ClassId} {original : Candidate} {kept : List Candidate}
    (rooted : original.root? = some root) (field : original.kind = .field)
    (qualified : original.mustQualify = true → original.qualifier.isSome = true)
    (respells : session.Respells original candidate)
    (unqualified : (session.rewritten kept candidate).qualifier = none) :
    original.name ∉ (variablesOf kept).map Candidate.name ∨ session.store.class? root = none := by
  have absent : ∀ other, other.root? = some root → session.receiverQualifier other = none →
      session.store.class? root = none := by
    intro other hother receiver
    by_contra stored
    have found := receiverQualifier_isSome hother (Option.isSome_iff_ne_none.mpr stored)
    rw [receiver] at found
    exact absurd found (by decide)
  have written := qualifier_of_finish unqualified
  split at written
  next hidden =>
    -- it is hidden, and was to be written behind its receiver
    exact .inr (absent candidate (by cases respells <;> exact rooted) written)
  next free =>
    cases respells with
    | asFound =>
      left
      intro named
      apply free
      have unbound : candidate.mustQualify = false := by
        by_contra bound
        have found := qualified (by simpa using bound)
        rw [written] at found
        exact absurd found (by decide)
      simpa [isHiddenField, field, unbound, variablesOf] using named
    | behindReceiver => exact .inr (absent original rooted written)
    | inFull kind qualifier => exact absurd (field.symm.trans kind) (by decide)

/-! ## Which variables stay -/

/-- The variables that stay keep their names to the end. -/
theorem map_name_variablesOf_kept (session : Session) :
    (variablesOf session.kept).map Candidate.name =
      (variablesOf (session.walked.foldl session.addCandidate ({}, [])).2).map Candidate.name := by
  rw [Session.kept, resolve_eq_map, variablesOf, List.filter_map, List.map_map]
  simp only [Function.comp_def, ((rewrites_rewritten session _).same _).kind,
    ((rewrites_rewritten session _).same _).name]
  rfl

/-- A variable that the lookup of a name finds stays, if it passes. -/
theorem mem_names_of_local? (bare : session.Bare mode) {name : String} {binding : Local}
    (found : session.graph.local? session.request.scope name = some binding)
    (matched : (session.match? name).isSome = true)
    (final : mode = .constants → binding.isFinal = true) :
    name ∈ (variablesOf session.kept).map Candidate.name := by
  obtain ⟨nameMatch, matched⟩ := Option.isSome_iff_exists.mp matched
  have named : binding.name = name := ScopeGraph.name_of_local? found
  rw [variablesOf_kept bare]
  refine List.mem_map.mpr ⟨binding.candidate nameMatch, List.mem_filterMap.mpr ⟨binding, ?_, ?_⟩,
    named⟩
  · rwa [mem_nearestBindings, named]
  · rw [Screened.toOption_eq_some, screenLocal_eq_ok, named]
    exact ⟨final, nameMatch, matched, rfl⟩

/-! ## What is proposed -/

/-- Where a name can stand alone, a field is proposed alone only if the lookup of its name finds no
variable, but for two cases: among the labels of a switch the variable may be one that is not final,
and a field of the root class may have been found through a class that is not stored. -/
theorem unqualified_fields_are_not_hidden (bare : session.Bare mode)
    (ignores : ProposalKind → Bool) (signal : Signal) :
    (session.run ignores signal).proposals <+: (session.shown ignores).map session.proposal ∧
    ∀ candidate ∈ session.shown ignores, candidate.kind = .field →
      (session.proposal candidate).isQualified = false →
      ∀ binding, session.graph.local? session.request.scope candidate.name = some binding →
        (mode = .constants ∧ binding.isFinal = false) ∨
        (candidate.declaring = some .object ∧
          ∃ root, candidate.root? = some root ∧ session.store.class? root = none) := by
  refine ⟨session.proposals_run_initial ignores signal, ?_⟩
  intro candidate mem field unqualified binding found
  have isMember : candidate.isMember = true := by simp [Candidate.isMember, field]
  have kept := mem_kept_of_shown bare mem isMember
  obtain ⟨original, walked, written, respells, rewrite⟩ := exists_respelled_of_mem_resolve kept
  have same : stripped candidate = stripped original := by
    rw [rewrite, stripped_rewritten, respells.stripped_eq]
  have alike : ∀ {α : Type} (read : Candidate → α),
      (∀ candidate, read (stripped candidate) = read candidate) → read candidate = read original :=
    fun read blind => congr_of_stripped read blind same
  obtain ⟨search, root, foundBy⟩ :=
    foundBy_of_walked bare walked ((alike Candidate.isMember fun _ => rfl) ▸ isMember)
  have alone : (session.rewritten
      (session.walked.foldl session.addCandidate ({}, [])).2 written).qualifier = none := by
    rw [← rewrite]
    simpa [Proposal.isQualified, proposal, Proposal.ofCandidate] using unqualified
  rw [alike Candidate.name fun _ => rfl] at found
  rcases not_hidden_of_unqualified foundBy.rooted ((alike Candidate.kind fun _ => rfl) ▸ field)
    foundBy.qualified respells alone with unnamed | absent
  · left
    by_contra passes
    rw [← map_name_variablesOf_kept] at unnamed
    apply unnamed
    apply mem_names_of_local? bare found foundBy.matched
    intro constants
    by_contra notFinal
    exact passes ⟨constants, by simpa using notFinal⟩
  · right
    refine ⟨?_, root, ?_, absent⟩
    · rw [alike Candidate.declaring fun _ => rfl]
      exact foundBy.declaring_of_absent absent
    · rw [alike Candidate.root? fun _ => rfl]
      exact foundBy.rooted

/-! ## A label of a switch -/

/-- A library with a class that declares a constant. -/
def withConstant : Store :=
  let constant : Field :=
    { name := "MAX", type := .int, modifiers := .public ||| .static ||| .final }
  (CoreLibrary.store.add { ClassDef.topLevel ⟨["app", "Main"]⟩ with fields := [constant] }).1

/-- The class with the constant. -/
def constantClass : ClassId := CoreLibrary.store.size

/-- A label of a switch over numbers, in a method of the class that has a variable with the name of
the constant. -/
def onLabel (isFinal : Bool) : Session :=
  let graph : ScopeGraph := ⟨#[{ parent := none, kind := .unit ⟨["app"]⟩ {} [] },
    { parent := some 0, kind := .class constantClass },
    { parent := some 1, kind := .method none false false
      locals := [{ name := "MAX", type := .int, isFinal }] }]⟩
  { overCore "MA" (.caseLabel .int) graph with
    store := withConstant
    request := { Request.ofToken "MA" 0 (.caseLabel .int) with scope := 2 } }

/-- Only the class and the root class have members for the request. -/
theorem visits_onLabel (isFinal : Bool) :
    (onLabel isFinal).visits constantClass constantClass .declared =
      [{ owner := constantClass, route := [constantClass], isStart := true, origin := .declared },
        { owner := .object, route := [constantClass, .object], isStart := false
          origin := .inherited }] := by
  have store : (onLabel isFinal).store = withConstant := rfl
  have chain : withConstant.chainRoutes constantClass constantClass =
      [(constantClass, [constantClass]), (.object, [constantClass, .object])] := by decide +kernel
  have interfaces : withConstant.interfaceRoutes constantClass constantClass = [] :=
    Store.interfaceRoutes_eq_nil (by decide +kernel)
  simp only [visits, Store.objectRoute, store, chain, interfaces]
  decide +kernel

theorem scopes_onLabel (isFinal : Bool) : (onLabel isFinal).scopes = [
    { parent := some 1, kind := .method none false false
      locals := [{ name := "MAX", type := .int, isFinal }] },
    { parent := some 0, kind := .class constantClass },
    { parent := none, kind := .unit ⟨["app"]⟩ {} [] }] := by
  cases isFinal <;> decide +kernel

theorem walk_onLabel (isFinal : Bool) : (onLabel isFinal).walk =
    (onLabel isFinal).walkScopes .constants false [] (onLabel isFinal).scopes := rfl

/-- A final variable hides the constant, which is proposed with its class. -/
theorem final_variable_hides_constant :
    ∃ candidate ∈ (onLabel true).shown (fun _ => false),
      candidate.kind = .field ∧ candidate.name = "MAX" ∧
        ((onLabel true).proposal candidate).isQualified = true := by
  have found : ((onLabel true).shown fun _ => false).any (fun candidate =>
      candidate.kind == .field && candidate.name == "MAX" &&
        candidate.declaring == some constantClass) = true := by
    simp only [shown, offered, known, kept, walked, walk_onLabel, scopes_onLabel, walkScopes,
      kindCandidates, classCandidates, members, visits_onLabel]
    decide +kernel
  obtain ⟨candidate, mem, facts⟩ := List.any_eq_true.mp found
  simp only [Bool.and_eq_true, beq_iff_eq] at facts
  obtain ⟨⟨field, named⟩, declared⟩ := facts
  refine ⟨candidate, mem, field, named, ?_⟩
  by_contra alone
  have looked : (onLabel true).graph.local? (onLabel true).request.scope candidate.name =
      some { name := "MAX", type := .int, isFinal := true } := by
    rw [named]
    decide +kernel
  rcases (unqualified_fields_are_not_hidden (.caseLabel rfl rfl : (onLabel true).Bare .constants)
    (fun _ => false) fun _ _ => false).2 candidate mem field (by simpa using alone) _ looked with
    ⟨-, notFinal⟩ | ⟨object, -⟩
  · exact absurd notFinal (by decide)
  · exact absurd (declared.symm.trans object) (by decide +kernel)

/-- A variable that is not final leaves the constant proposed alone. -/
theorem hidden_constant_written_alone :
    (onLabel false).Bare .constants ∧
      ∃ proposal ∈ ((onLabel false).run (fun _ => false) fun _ _ => false).proposals,
        proposal.kind = .field ∧ proposal.isQualified = false ∧
          ((onLabel false).graph.local? (onLabel false).request.scope proposal.name).isSome := by
  have found : ((onLabel false).run (fun _ => false) fun _ _ => false).proposals.any
      (fun proposal => proposal.kind == .field && !proposal.isQualified &&
        ((onLabel false).graph.local? (onLabel false).request.scope proposal.name).isSome) =
          true := by
    rw [proposals_run (run_outcome_of_silent (onLabel false) _ fun _ _ => rfl)]
    simp only [shown, offered, known, kept, walked, walk_onLabel, scopes_onLabel, walkScopes,
      kindCandidates, classCandidates, members, visits_onLabel]
    decide +kernel
  obtain ⟨proposal, mem, facts⟩ := List.any_eq_true.mp found
  simp only [Bool.and_eq_true, beq_iff_eq, Bool.not_eq_true'] at facts
  exact ⟨.caseLabel rfl rfl, proposal, mem, facts.1.1, facts.1.2, facts.2⟩

end CodeAssist.Completion.Session
