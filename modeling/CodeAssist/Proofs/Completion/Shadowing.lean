import CodeAssist.Completion.Shadowing
import CodeAssist.Proofs.Completion.MemberSearch
/-!
# One step of the resolution of candidates

The candidates that stay are built up one candidate at a time. `addMember_first` says all that a
member can do to them: the first of them that leaves it no place of its own is merged with it where
it stands, or, if there is none, the member goes to the end. `addCandidate_cases` says the same of
any candidate.

For candidates that stand for declarations, what the step asks is asked of the declarations: they
clash if they have one signature (`clash_iff`), and one overrides the other if its class is a proper
subclass of the other's (`overrides_iff`).

What stays was found, and is at most written and scored in another way
(`exists_original_of_mem_resolve`).
-/

namespace CodeAssist.Completion.Session

variable {session : Session}

/-! ## What a step does -/

/-- A member that gets a place of its own, qualified if another has its name already. -/
def ownPlace (session : Session) (kept : List Candidate) (candidate : Candidate) : Candidate :=
  if kept.any (session.clash · candidate) && candidate.qualifier.isNone then
    session.qualify candidate
  else candidate

/-- A member is merged into the first place that it is displaced from. -/
theorem addMember_of_displaces {before after : List Candidate} {earlier candidate : Candidate}
    (clear : ∀ other ∈ before, session.displaces other candidate = false)
    (displaced : session.displaces earlier candidate = true) :
    session.addMember (before ++ earlier :: after) candidate =
      before ++ session.merge candidate earlier :: after := by
  have found : (before ++ earlier :: after).findIdx? (session.displaces · candidate) =
      some before.length := by
    rw [List.findIdx?_append, List.findIdx?_eq_none_iff.mpr clear, List.findIdx?_cons, displaced]
    simp
  simp [addMember, found, List.modify_eq_take_cons_drop]

/-- A member that is displaced from no place is appended. -/
theorem addMember_of_alone {kept : List Candidate} {candidate : Candidate}
    (alone : ∀ earlier ∈ kept, session.displaces earlier candidate = false) :
    session.addMember kept candidate = kept ++ [session.ownPlace kept candidate] := by
  rw [addMember, List.findIdx?_eq_none_iff.mpr alone]
  dsimp only [ownPlace]
  split <;> rfl

/-- Adding a member merges it into the first place that it is displaced from, or appends it. -/
theorem addMember_first (session : Session) (kept : List Candidate) (candidate : Candidate) :
    (∃ before earlier after, kept = before ++ earlier :: after ∧
      (∀ other ∈ before, session.displaces other candidate = false) ∧
      session.displaces earlier candidate = true ∧
      session.addMember kept candidate = before ++ session.merge candidate earlier :: after) ∨
    ((∀ earlier ∈ kept, session.displaces earlier candidate = false) ∧
      session.addMember kept candidate = kept ++ [session.ownPlace kept candidate]) := by
  cases found : kept.find? (session.displaces · candidate) with
  | some earlier =>
    obtain ⟨displaced, before, after, rfl, clear⟩ := List.find?_eq_some_iff_append.mp found
    have clear : ∀ other ∈ before, session.displaces other candidate = false :=
      fun other mem => by simpa using clear other mem
    exact .inl ⟨before, earlier, after, rfl, clear, displaced,
      addMember_of_displaces clear displaced⟩
  | none =>
    have alone : ∀ earlier ∈ kept, session.displaces earlier candidate = false :=
      fun earlier mem => Bool.eq_false_iff.mpr (List.find?_eq_none.mp found earlier mem)
    exact .inr ⟨alone, addMember_of_alone alone⟩

/-- Adding a member merges it into a place that it is displaced from, or appends it. -/
theorem addMember_cases (session : Session) (kept : List Candidate) (candidate : Candidate) :
    (∃ before earlier after, kept = before ++ earlier :: after ∧
      session.displaces earlier candidate = true ∧
      session.addMember kept candidate = before ++ session.merge candidate earlier :: after) ∨
    ((∀ earlier ∈ kept, session.displaces earlier candidate = false) ∧
      session.addMember kept candidate = kept ++ [session.ownPlace kept candidate]) := by
  rcases session.addMember_first kept candidate with
    ⟨before, earlier, after, split, -, displaced, result⟩ | alone
  · exact .inl ⟨before, earlier, after, split, displaced, result⟩
  · exact .inr alone

/-- A place stays with its kind. -/
theorem kind_merge {earlier candidate : Candidate}
    (displaced : session.displaces earlier candidate = true) :
    earlier.kind = candidate.kind ∧ (session.merge candidate earlier).kind = candidate.kind := by
  have same : earlier.kind = candidate.kind := by
    simp only [displaces, clash, Bool.and_eq_true, beq_iff_eq] at displaced
    exact displaced.1.1.1
  refine ⟨same, ?_⟩
  unfold merge
  split
  · split <;> rfl
  · exact same

/-- A member changes nothing for candidates of other kinds. -/
theorem filter_kind_addMember (test : CandidateKind → Bool) {candidate : Candidate}
    (skipped : test candidate.kind = false) (kept : List Candidate) :
    (session.addMember kept candidate).filter (fun other => test other.kind) =
      kept.filter fun other => test other.kind := by
  rcases session.addMember_cases kept candidate with
    ⟨before, earlier, after, rfl, displaced, result⟩ | ⟨-, result⟩
  · obtain ⟨kind, merged⟩ := kind_merge displaced
    rw [result]
    simp [kind, merged, skipped]
  · have kind : (session.ownPlace kept candidate).kind = candidate.kind := by
      unfold ownPlace
      split <;> rfl
    rw [result]
    simp [kind, skipped]

/-- Adding a candidate adds a member, or leaves all as it is but for a candidate of another kind at
the end. -/
theorem addCandidate_cases (session : Session) (state : KnownTypes × List Candidate)
    (candidate : Candidate) :
    (candidate.isMember = true ∧
      session.addCandidate state candidate = (state.1, session.addMember state.2 candidate)) ∨
    (candidate.isMember = false ∧ ∃ rest : List Candidate,
      (session.addCandidate state candidate).2 = state.2 ++ rest ∧
      ∀ other ∈ rest, other.kind = candidate.kind) := by
  unfold addCandidate
  split
  next kind =>
    refine .inr ⟨by simp [Candidate.isMember, kind], ?_⟩
    unfold addType
    split
    next => exact ⟨[candidate], rfl, by simp⟩
    next =>
      split
      next => exact ⟨[], (List.append_nil _).symm, by simp⟩
      next =>
        dsimp only
        split
        · exact ⟨[candidate], rfl, by simp⟩
        · exact ⟨[candidate.qualifiedBy _], rfl, by simp [Candidate.qualifiedBy]⟩
  next kind => exact .inl ⟨by simp [Candidate.isMember, kind], rfl⟩
  next kind => exact .inl ⟨by simp [Candidate.isMember, kind], rfl⟩
  next notType notField notMethod =>
    refine .inr ⟨?_, [candidate], rfl, by simp⟩
    simpa [Candidate.isMember] using And.intro notField notMethod

/-! ## What a step asks -/

section StandsFor

variable {first second : Candidate} {a b : Declaration}

/-- Candidates clash if what they stand for has one signature. -/
theorem clash_iff (ha : first.StandsFor session.store a) (hb : second.StandsFor session.store b) :
    session.clash first second = true ↔ a.signature = b.signature := by
  have storedA := ha.stored
  have storedB := hb.stored
  simp only [clash, signaturesClash, ha.kind, hb.kind, ha.name, hb.name, ha.symbol, hb.symbol]
  cases a with
  | field refA dataA =>
    cases b with
    | field refB dataB => simp [Declaration.signature]
    | method refB dataB => simp [Declaration.signature, Method.signature]
  | method refA dataA =>
    cases b with
    | field refB dataB => simp [Declaration.signature, Method.signature]
    | method refB dataB =>
      have methodA : session.store.methodAt? refA = some dataA := storedA
      have methodB : session.store.methodAt? refB = some dataB := storedB
      simp only [Declaration.kind, Declaration.symbol, Declaration.name, Declaration.signature,
        methodA, methodB, Method.isSubsignature, BEq.rfl, Bool.true_and, Bool.and_eq_true,
        Bool.or_eq_true, beq_iff_eq, eq_comm (a := dataB.signature), or_self]
      exact and_iff_right_of_imp fun same => congrArg Signature.name same

/-- A candidate overrides another if it is declared by a proper subclass. -/
theorem overrides_iff (ha : first.StandsFor session.store a)
    (hb : second.StandsFor session.store b) :
    session.overrides first second = true ↔ session.store.ProperSubclass a.owner b.owner := by
  simp only [overrides, ha.declaring, hb.declaring, Store.ProperSubclass, Bool.and_eq_true,
    bne_iff_ne, Bool.not_eq_true']
  constructor
  · rintro ⟨⟨-, sub⟩, notSup⟩
    exact ⟨sub, notSup⟩
  · intro proper
    exact ⟨⟨Store.ProperSubclass.ne proper, proper.1⟩, proper.2⟩

end StandsFor

/-! ## Later changes -/

/-- The candidate is qualified, and has to be. -/
def Hidden (candidate : Candidate) : Prop :=
  candidate.mustQualify = true ∧ candidate.qualifier.isSome

/-- A change of how members are written and scored that takes no qualifier away. -/
structure Rewrites (change : Candidate → Candidate) : Prop where
  same (candidate : Candidate) : candidate.SameSubject (change candidate)
  hidden (candidate : Candidate) : Hidden candidate → Hidden (change candidate)
  other (candidate : Candidate) : candidate.isMember = false →
    (change candidate).qualifier = candidate.qualifier

theorem Rewrites.comp {first second : Candidate → Candidate} (hsecond : Rewrites second)
    (hfirst : Rewrites first) : Rewrites (second ∘ first) where
  same candidate := (hfirst.same candidate).trans (hsecond.same (first candidate))
  hidden candidate hidden := hsecond.hidden _ (hfirst.hidden candidate hidden)
  other candidate other :=
    (hsecond.other _ ((hfirst.same candidate).isMember.trans other)).trans
      (hfirst.other candidate other)

theorem sameSubject_qualify (session : Session) (candidate : Candidate) :
    candidate.SameSubject (session.qualify candidate) := ⟨rfl, rfl, rfl, rfl, rfl⟩

/-- The attribution of a record's methods changes nothing but what they are scored as. -/
theorem attributeRecordMethod_eq (candidate : Candidate) :
    session.attributeRecordMethod candidate =
      { candidate with scoredAs := (session.attributeRecordMethod candidate).scoredAs } := by
  unfold attributeRecordMethod
  dsimp only
  split
  · split
    · split <;> rfl
    · rfl
  · rfl

/-- Attributing a method to the root class changes its relevance only. -/
theorem rewrites_attributeRecordMethod (session : Session) :
    Rewrites session.attributeRecordMethod where
  same candidate := by
    rw [attributeRecordMethod_eq]
    exact ⟨rfl, rfl, rfl, rfl, rfl⟩
  hidden candidate hidden := by
    rw [attributeRecordMethod_eq]
    exact hidden
  other candidate _ := by rw [attributeRecordMethod_eq]

/-- The option that forces qualifiers adds one where there is none, and changes nothing else. -/
theorem rewrites_forceQualifier (session : Session) : Rewrites session.forceQualifier where
  same candidate := by
    unfold forceQualifier
    dsimp only
    split <;> exact ⟨rfl, rfl, rfl, rfl, rfl⟩
  hidden candidate hidden := by
    have qualified : candidate.qualifier.isNone = false := by
      simpa [Option.isSome_iff_ne_none] using hidden.2
    simpa [forceQualifier, qualified] using hidden
  other candidate other := by simp [forceQualifier, other]

/-- The types made known are those of the first stage. -/
theorem resolve_known (session : Session) (candidates : List Candidate) :
    (session.resolve candidates).1 = (candidates.foldl session.addCandidate ({}, [])).1 := by
  simp only [resolve]
  split <;> rfl

/-- Whether a field gives way to a variable. -/
def isHiddenField (kept : List Candidate) (candidate : Candidate) : Bool :=
  candidate.kind = .field && !candidate.mustQualify &&
    ((kept.filter fun other => other.kind == .local).map Candidate.name).contains candidate.name

theorem isHiddenField_of_other {kept : List Candidate} {candidate : Candidate}
    (other : candidate.isMember = false) : isHiddenField kept candidate = false := by
  have notField : candidate.kind ≠ .field := by
    rintro kind
    simp [Candidate.isMember, kind] at other
  simp [isHiddenField, notField]

/-- Hidden fields are qualified one by one. -/
theorem qualifyHiddenFields_eq (session : Session) (kept : List Candidate) :
    session.qualifyHiddenFields kept = kept.map fun candidate =>
      if isHiddenField kept candidate then session.qualify candidate else candidate := rfl

/-- What is done to each candidate that stays, whatever else stays. -/
def finish (session : Session) (candidate : Candidate) : Candidate :=
  if session.options.forceQualification && session.request.site = .name then
    session.forceQualifier (session.attributeRecordMethod candidate)
  else session.attributeRecordMethod candidate

theorem resolve_eq (session : Session) (candidates : List Candidate) :
    (session.resolve candidates).2 = (session.qualifyHiddenFields
      (candidates.foldl session.addCandidate ({}, [])).2).map session.finish := by
  simp only [resolve]
  split
  next forced => simp [finish, forced]
  next free => simp [finish, free]

theorem rewrites_finish (session : Session) : Rewrites session.finish := by
  have attributed := rewrites_attributeRecordMethod session
  by_cases forced : (session.options.forceQualification && session.request.site = .name) = true
  · have done : session.finish = session.forceQualifier ∘ session.attributeRecordMethod :=
      funext fun candidate => if_pos forced
    rw [done]
    exact (rewrites_forceQualifier session).comp attributed
  · have done : session.finish = session.attributeRecordMethod :=
      funext fun candidate => if_neg forced
    rw [done]
    exact attributed

/-- What becomes of a candidate that stays beside others. -/
def rewritten (session : Session) (kept : List Candidate) (candidate : Candidate) : Candidate :=
  session.finish (if isHiddenField kept candidate then session.qualify candidate else candidate)

/-- After the candidates were added, each of them is rewritten on its own. -/
theorem resolve_eq_map (session : Session) (candidates : List Candidate) :
    (session.resolve candidates).2 =
      (candidates.foldl session.addCandidate ({}, [])).2.map
        (session.rewritten (candidates.foldl session.addCandidate ({}, [])).2) := by
  rw [resolve_eq, qualifyHiddenFields_eq, List.map_map]
  rfl

theorem rewrites_rewritten (session : Session) (kept : List Candidate) :
    Rewrites (session.rewritten kept) := by
  refine (rewrites_finish session).comp ⟨fun candidate => ?_, fun candidate hidden => ?_,
    fun candidate other => ?_⟩
  · split
    · exact sameSubject_qualify session candidate
    · exact ⟨rfl, rfl, rfl, rfl, rfl⟩
  · simpa [isHiddenField, hidden.1] using hidden
  · rw [isHiddenField_of_other other]
    rfl

/-- What is no member and stands for no method is not rewritten. -/
theorem rewritten_of_other {candidate : Candidate} (kept : List Candidate)
    (other : candidate.isMember = false) (noMethod : ∀ method, candidate.symbol ≠ .method method) :
    session.rewritten kept candidate = candidate := by
  have attributed : session.attributeRecordMethod candidate = candidate := by
    unfold attributeRecordMethod
    split
    next method symbol => exact absurd symbol (noMethod method)
    next => rfl
  rw [rewritten, isHiddenField_of_other other, finish]
  simp [attributed, forceQualifier, other]

/-- The candidates that stay are those of the fold, rewritten. -/
theorem exists_rewrites (session : Session) (candidates : List Candidate) :
    ∃ change, Rewrites change ∧ (session.resolve candidates).2 =
      (candidates.foldl session.addCandidate ({}, [])).2.map change :=
  ⟨_, rewrites_rewritten session _, session.resolve_eq_map candidates⟩

/-- A member that was found through a stored root has a receiver to be written behind. -/
theorem receiverQualifier_isSome {candidate : Candidate} {root : ClassId}
    (rooted : candidate.root? = some root) (stored : (session.store.class? root).isSome) :
    (session.receiverQualifier candidate).isSome = true := by
  obtain ⟨definition, stored⟩ := Option.isSome_iff_exists.mp stored
  have reach : (candidate.root? <|> candidate.declaring) = some root := by
    rw [rooted]
    rfl
  simp only [receiverQualifier, reach, stored, Option.bind_eq_bind, Option.bind_some]
  split
  · rfl
  · split
    · rfl
    · split <;> rfl

/-! ## Where candidates come from -/

/-- How a candidate is written that stays: as it was found, behind the receiver that reaches it, or,
if it is a type, in full. -/
inductive Respells (session : Session) (original : Candidate) : Candidate → Prop
  | asFound : Respells session original original
  | behindReceiver : Respells session original (session.qualify original)
  | inFull (kind : original.kind = .type) (qualifier : Option String) :
      Respells session original (original.qualifiedBy qualifier)

/-- Adding a member leaves what was kept, or puts the member somewhere. -/
theorem respells_of_mem_addMember {kept : List Candidate} {candidate other : Candidate}
    (mem : other ∈ session.addMember kept candidate) :
    other ∈ kept ∨ session.Respells candidate other := by
  rcases session.addMember_cases kept candidate with
    ⟨before, earlier, after, rfl, -, added⟩ | ⟨-, added⟩
  · rw [added, List.mem_append, List.mem_cons] at mem
    rcases mem with mem | rfl | mem
    · exact .inl (List.mem_append_left _ mem)
    · unfold merge
      split
      · split
        · exact .inr .behindReceiver
        · exact .inr .asFound
      · exact .inl (List.mem_append_right _ List.mem_cons_self)
    · exact .inl (List.mem_append_right _ (List.mem_cons_of_mem _ mem))
  · rw [added, List.mem_append, List.mem_singleton] at mem
    rcases mem with mem | rfl
    · exact .inl mem
    · unfold ownPlace
      split
      · exact .inr .behindReceiver
      · exact .inr .asFound

/-- The step: what stays after a candidate stayed before, or is the candidate respelled. -/
theorem respells_of_mem_addCandidate {state : KnownTypes × List Candidate}
    {candidate other : Candidate} (mem : other ∈ (session.addCandidate state candidate).2) :
    other ∈ state.2 ∨ session.Respells candidate other := by
  have appended : ∀ {own : Candidate}, session.Respells candidate own →
      other ∈ state.2 ++ [own] → other ∈ state.2 ∨ session.Respells candidate other := by
    intro own respells mem
    rcases List.mem_append.mp mem with mem | mem
    · exact .inl mem
    · exact .inr (List.mem_singleton.mp mem ▸ respells)
  unfold addCandidate at mem
  split at mem
  next kind =>
    unfold addType at mem
    split at mem
    next => exact appended .asFound mem
    next =>
      split at mem
      next => exact .inl mem
      next =>
        dsimp only at mem
        split at mem
        · exact appended .asFound mem
        · exact appended (.inFull kind _) mem
  next => exact respells_of_mem_addMember mem
  next => exact respells_of_mem_addMember mem
  next => exact appended .asFound mem

/-- The run: what stays is a candidate that was found, respelled. -/
theorem respells_of_mem_foldl {candidates : List Candidate} {state : KnownTypes × List Candidate}
    {other : Candidate} (mem : other ∈ (candidates.foldl session.addCandidate state).2) :
    other ∈ state.2 ∨ ∃ original ∈ candidates, session.Respells original other := by
  induction candidates generalizing state with
  | nil => exact .inl mem
  | cons candidate candidates ih =>
    rcases ih mem with mem | ⟨original, listed, respells⟩
    · rcases respells_of_mem_addCandidate mem with mem | respells
      · exact .inl mem
      · exact .inr ⟨candidate, List.mem_cons_self, respells⟩
    · exact .inr ⟨original, List.mem_cons_of_mem _ listed, respells⟩

/-- The candidate without what the resolution may change: how it is qualified, and what it is scored
as. -/
def stripped (candidate : Candidate) : Candidate :=
  { candidate with mustQualify := false, qualifier := none, scoredAs := none }

/-- What does not depend on the qualifier and the scoring is read off alike. -/
theorem congr_of_stripped {α : Type} {first second : Candidate} (read : Candidate → α)
    (blind : ∀ candidate, read (stripped candidate) = read candidate)
    (same : stripped first = stripped second) : read first = read second := by
  rw [← blind first, same, blind]

/-- A candidate that is respelled stays the same but for how it is written. -/
theorem Respells.stripped_eq {original other : Candidate}
    (respells : session.Respells original other) : stripped other = stripped original := by
  cases respells <;> rfl

/-- Candidates that differ in the qualifier and the scoring alone have one subject. -/
theorem sameSubject_of_stripped {first second : Candidate}
    (same : stripped first = stripped second) : second.SameSubject first :=
  ⟨congr_of_stripped Candidate.kind (fun _ => rfl) same,
    congr_of_stripped Candidate.symbol (fun _ => rfl) same,
    congr_of_stripped Candidate.name (fun _ => rfl) same,
    congr_of_stripped Candidate.declaring (fun _ => rfl) same,
    congr_of_stripped Candidate.chain (fun _ => rfl) same⟩

theorem stripped_finish (session : Session) (candidate : Candidate) :
    stripped (session.finish candidate) = stripped candidate := by
  have attributed : stripped (session.attributeRecordMethod candidate) = stripped candidate := by
    rw [attributeRecordMethod_eq]
    rfl
  unfold finish forceQualifier
  dsimp only
  split
  · split
    · exact attributed
    · exact attributed
  · exact attributed

theorem stripped_rewritten (session : Session) (kept : List Candidate) (candidate : Candidate) :
    stripped (session.rewritten kept candidate) = stripped candidate := by
  rw [rewritten, stripped_finish]
  split <;> rfl

/-- What stays was found, is respelled in its turn, and rewritten at the end. -/
theorem exists_respelled_of_mem_resolve {candidates : List Candidate} {candidate : Candidate}
    (mem : candidate ∈ (session.resolve candidates).2) :
    ∃ original ∈ candidates, ∃ written, session.Respells original written ∧
      candidate =
        session.rewritten (candidates.foldl session.addCandidate ({}, [])).2 written := by
  rw [resolve_eq_map] at mem
  obtain ⟨written, gathered, rfl⟩ := List.mem_map.mp mem
  obtain ⟨original, listed, respells⟩ :=
    (respells_of_mem_foldl gathered).resolve_left List.not_mem_nil
  exact ⟨original, listed, written, respells, rfl⟩

/-- What stays was found, but for how it is qualified and scored. -/
theorem exists_original_of_mem_resolve {candidates : List Candidate} {candidate : Candidate}
    (mem : candidate ∈ (session.resolve candidates).2) :
    ∃ original ∈ candidates, stripped candidate = stripped original := by
  obtain ⟨original, listed, written, respells, rfl⟩ := exists_respelled_of_mem_resolve mem
  exact ⟨original, listed, (stripped_rewritten session _ written).trans respells.stripped_eq⟩

end CodeAssist.Completion.Session
