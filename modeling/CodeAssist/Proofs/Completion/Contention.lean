import CodeAssist.Proofs.Completion.Shadowing
import CodeAssist.Proofs.Completion.TypeNames
/-!
# What candidates contend for

Candidates are in each other's way only where they contend for one thing, their *stake*: members for
a signature, types for a simple name. So what becomes of the candidates with one stake depends on
these candidates alone (`vying_resolve`), but for fields, which also give way to variables of their
name. Nothing is said here of how the candidates were found.

Two states of the resolution agree on a stake if they keep the same candidates for it and know the
same types of the simple name. A candidate with another stake changes nothing that they agree on
(`Agree.addCandidate_of_ne`), and one with this stake changes both in the same way
(`Agree.addCandidate`).

Which types stay does not even depend on all types of their simple name: of those with one full name
the first stays, however it is to be written (`called_resolve`).
-/

namespace CodeAssist.Completion

/-- What a candidate contends for. -/
inductive Stake where
  /-- The place of a member; fields are told apart by their names alone. -/
  | member (kind : CandidateKind) (name : String) (signature : Option Signature)
  /-- The simple name of a type. -/
  | simpleName (simple : String)
  /-- Nothing that another candidate could take. -/
  | word (kind : CandidateKind) (name : String)
deriving DecidableEq, Repr

/-- The candidate without the way it was reached and is written. -/
def Candidate.unspelled (candidate : Candidate) : Candidate :=
  { candidate with
    origin := .synthetic, mustQualify := false, qualifier := none, requiredImport := none }

namespace Session

variable {session : Session} {candidate other : Candidate} {wanted : Stake}

/-- What a candidate contends for in the resolution. -/
def stake (session : Session) (candidate : Candidate) : Stake :=
  match candidate.kind with
  | .field => .member .field candidate.name none
  | .method => .member .method candidate.name (session.store.signature? candidate)
  | .type => .simpleName candidate.name
  | kind => .word kind candidate.name

/-- The candidates with a stake. -/
def vying (session : Session) (wanted : Stake) (candidates : List Candidate) : List Candidate :=
  candidates.filter fun candidate => session.stake candidate = wanted

theorem mem_vying {candidates : List Candidate} :
    candidate ∈ session.vying wanted candidates ↔
      candidate ∈ candidates ∧ session.stake candidate = wanted := by
  simp [vying]

/-- The candidates with a stake are chosen one by one. -/
theorem vying_append (first second : List Candidate) :
    session.vying wanted (first ++ second) =
      session.vying wanted first ++ session.vying wanted second :=
  List.filter_append ..

/-- What a candidate contends for is decided by what it stands for. -/
theorem stake_congr (same : candidate.SameSubject other) :
    session.stake other = session.stake candidate := by
  unfold stake
  rw [same.kind, same.name, same.signature?]

/-- Types contend for their simple names. -/
theorem stake_of_type (kind : candidate.kind = .type) :
    session.stake candidate = .simpleName candidate.name := by
  simp [stake, kind]

/-- Members contend with those of one kind, name and signature. -/
theorem stake_of_isMember (session : Session) (member : candidate.isMember = true) :
    ∃ signature, session.stake candidate = .member candidate.kind candidate.name signature := by
  simp only [Candidate.isMember, Bool.or_eq_true, beq_iff_eq] at member
  rcases member with kind | kind
  · exact ⟨none, by simp [stake, kind]⟩
  · exact ⟨session.store.signature? candidate, by simp [stake, kind]⟩

/-- Candidates that clash have one stake. -/
theorem stake_of_clash (clash : session.clash candidate other = true) :
    session.stake candidate = session.stake other := by
  simp only [Session.clash, Bool.and_eq_true, beq_iff_eq] at clash
  obtain ⟨⟨kind, name⟩, clash⟩ := clash
  unfold stake
  rw [← kind, ← name]
  cases own : candidate.kind
  case method =>
    have signatures : session.store.signature? candidate = session.store.signature? other := by
      unfold signaturesClash at clash
      split at clash
      next first second symbol symbol' =>
        split at clash
        next a b method method' =>
          have same : a.signature = b.signature := by
            simpa [Method.isSubsignature, eq_comm (a := b.signature)] using clash
          simp [Store.signature?, symbol, symbol', method, method', same]
        next => exact absurd clash Bool.false_ne_true
      next => simpa [own] using clash
    simp only [signatures]
  all_goals rfl

/-- A place that changes hands stays with the stake. -/
theorem stake_merge (displaced : session.displaces other candidate = true) :
    session.stake (session.merge candidate other) = session.stake candidate ∧
      session.stake other = session.stake candidate := by
  have same : session.stake other = session.stake candidate :=
    stake_of_clash (Bool.and_eq_true_iff.mp displaced).1
  refine ⟨?_, same⟩
  unfold merge
  split
  · split <;> rfl
  · exact same

/-- A qualifier does not change the stake. -/
theorem stake_ownPlace (kept : List Candidate) :
    session.stake (session.ownPlace kept candidate) = session.stake candidate := by
  unfold ownPlace
  split <;> rfl

/-! ## Members -/

/-- A member changes nothing for candidates with other stakes. -/
theorem vying_addMember_of_ne (differs : session.stake candidate ≠ wanted)
    (kept : List Candidate) :
    session.vying wanted (session.addMember kept candidate) = session.vying wanted kept := by
  rcases session.addMember_cases kept candidate with
    ⟨before, earlier, after, rfl, displaced, result⟩ | ⟨-, result⟩
  · obtain ⟨merged, same⟩ := stake_merge displaced
    rw [result]
    simp [vying, merged, same, differs]
  · rw [result]
    simp [vying, stake_ownPlace, differs]

/-- A member clashes only with members that have its stake. -/
theorem any_clash_vying (kept : List Candidate) :
    (session.vying (session.stake candidate) kept).any (session.clash · candidate) =
      kept.any (session.clash · candidate) := by
  rw [vying, List.any_filter]
  refine congrArg kept.any (funext fun earlier => ?_)
  cases clash : session.clash earlier candidate with
  | false => simp
  | true => simp [stake_of_clash clash]

/-- What a member does to those with its stake depends on these alone. -/
theorem vying_addMember (session : Session) (kept : List Candidate) (candidate : Candidate) :
    session.vying (session.stake candidate) (session.addMember kept candidate) =
      session.addMember (session.vying (session.stake candidate) kept) candidate := by
  rcases session.addMember_first kept candidate with
    ⟨before, earlier, after, rfl, clear, displaced, result⟩ | ⟨alone, result⟩
  · obtain ⟨merged, same⟩ := stake_merge displaced
    have split : session.vying (session.stake candidate) (before ++ earlier :: after) =
        session.vying (session.stake candidate) before ++
          earlier :: session.vying (session.stake candidate) after := by
      simp [vying, same]
    rw [result, split, addMember_of_displaces (fun other mem => clear other (mem_vying.mp mem).1)
      displaced]
    simp [vying, merged]
  · have alone' : ∀ earlier ∈ session.vying (session.stake candidate) kept,
        session.displaces earlier candidate = false :=
      fun earlier mem => alone earlier (mem_vying.mp mem).1
    have own : session.ownPlace (session.vying (session.stake candidate) kept) candidate =
        session.ownPlace kept candidate := by
      rw [ownPlace, ownPlace, any_clash_vying]
    rw [result, addMember_of_alone alone', own, vying_append]
    simp [vying, stake_ownPlace]

/-! ## The step -/

/-- Types are named by the last segments of their full names. -/
def NamedSimply (session : Session) (candidate : Candidate) : Prop :=
  candidate.kind = .type →
    ∀ name, session.store.typeName? candidate = some name → name.simple = candidate.name

/-- The states agree on all that a stake is about. -/
structure Agree (session : Session) (wanted : Stake) (first second : KnownTypes × List Candidate) :
    Prop where
  kept : session.vying wanted first.2 = session.vying wanted second.2
  claimant : ∀ simple, wanted = .simpleName simple →
    first.1.claimant? simple = second.1.claimant? simple
  known : ∀ name, wanted = .simpleName name.simple → first.1.contains name = second.1.contains name

namespace Agree

variable {first second third : KnownTypes × List Candidate}

theorem refl (session : Session) (wanted : Stake) (state : KnownTypes × List Candidate) :
    session.Agree wanted state state := ⟨rfl, fun _ _ => rfl, fun _ _ => rfl⟩

theorem symm (agree : session.Agree wanted first second) : session.Agree wanted second first :=
  ⟨agree.kept.symm, fun simple same => (agree.claimant simple same).symm,
    fun name same => (agree.known name same).symm⟩

theorem trans (upper : session.Agree wanted first second)
    (lower : session.Agree wanted second third) : session.Agree wanted first third :=
  ⟨upper.kept.trans lower.kept,
    fun simple same => (upper.claimant simple same).trans (lower.claimant simple same),
    fun name same => (upper.known name same).trans (lower.known name same)⟩

/-- A candidate with another stake changes nothing. -/
theorem addCandidate_of_ne (named : session.NamedSimply candidate)
    (differs : session.stake candidate ≠ wanted) (state : KnownTypes × List Candidate) :
    session.Agree wanted (session.addCandidate state candidate) state := by
  have appended : ∀ own : Candidate, candidate.SameSubject own →
      session.vying wanted (state.2 ++ [own]) = session.vying wanted state.2 := by
    intro own same
    simp [vying, stake_congr same, differs]
  unfold addCandidate
  split
  next kind =>
    rw [stake_of_type kind] at differs
    unfold addType
    split
    next => exact ⟨appended candidate (.refl candidate), fun _ _ => rfl, fun _ _ => rfl⟩
    next name denotes =>
      split
      · exact .refl ..
      · have simple := named kind name denotes
        have claimant : ∀ other, wanted = .simpleName other →
            ((state.1.insert name).claim candidate.name name).claimant? other =
              state.1.claimant? other := by
          rintro other rfl
          have fresh : other ≠ candidate.name := fun same => differs (same ▸ rfl)
          simp [KnownTypes.claimant?_claim, fresh]
        have known : ∀ other : QualifiedName, wanted = .simpleName other.simple →
            ((state.1.insert name).claim candidate.name name).contains other =
              state.1.contains other := by
          rintro other rfl
          have fresh : other ≠ name := by
            rintro rfl
            exact differs (simple ▸ rfl)
          simp [KnownTypes.contains_insert, fresh]
        dsimp only
        split
        · exact ⟨appended candidate (.refl candidate), claimant, known⟩
        · exact ⟨appended _ ⟨rfl, rfl, rfl, rfl, rfl⟩, claimant, known⟩
  next => exact ⟨vying_addMember_of_ne differs state.2, fun _ _ => rfl, fun _ _ => rfl⟩
  next => exact ⟨vying_addMember_of_ne differs state.2, fun _ _ => rfl, fun _ _ => rfl⟩
  next => exact ⟨appended candidate (.refl candidate), fun _ _ => rfl, fun _ _ => rfl⟩

/-- A candidate with the stake changes both states in the same way. -/
theorem addCandidate (named : session.NamedSimply candidate)
    (agree : session.Agree (session.stake candidate) first second) :
    session.Agree (session.stake candidate) (session.addCandidate first candidate)
      (session.addCandidate second candidate) := by
  have appended : ∀ own : Candidate,
      session.vying (session.stake candidate) (first.2 ++ [own]) =
        session.vying (session.stake candidate) (second.2 ++ [own]) := by
    intro own
    rw [vying_append, vying_append, agree.kept]
  have member : session.vying (session.stake candidate) (session.addMember first.2 candidate) =
      session.vying (session.stake candidate) (session.addMember second.2 candidate) := by
    rw [vying_addMember, vying_addMember, agree.kept]
  unfold Session.addCandidate
  split
  next kind =>
    unfold addType
    split
    next => exact ⟨appended candidate, agree.claimant, agree.known⟩
    next name denotes =>
      have simple := named kind name denotes
      have contains : first.1.contains name = second.1.contains name :=
        agree.known name (by rw [stake_of_type kind, simple])
      rw [contains]
      split
      · exact agree
      · have claimant : ∀ other, session.stake candidate = .simpleName other →
            ((first.1.insert name).claim candidate.name name).claimant? other =
              ((second.1.insert name).claim candidate.name name).claimant? other := by
          intro other same
          simp [KnownTypes.claimant?_claim, agree.claimant other same]
        have known : ∀ other : QualifiedName, session.stake candidate = .simpleName other.simple →
            ((first.1.insert name).claim candidate.name name).contains other =
              ((second.1.insert name).claim candidate.name name).contains other := by
          intro other same
          simp [KnownTypes.contains_insert, agree.known other same]
        have holds : ((first.1.insert name).claim candidate.name name).holds candidate.name name =
            ((second.1.insert name).claim candidate.name name).holds candidate.name name := by
          rw [KnownTypes.holds, KnownTypes.holds, claimant _ (stake_of_type kind)]
        dsimp only
        rw [holds]
        split
        · exact ⟨appended candidate, claimant, known⟩
        · exact ⟨appended _, claimant, known⟩
  next => exact ⟨member, agree.claimant, agree.known⟩
  next => exact ⟨member, agree.claimant, agree.known⟩
  next => exact ⟨appended candidate, agree.claimant, agree.known⟩

/-- Only the candidates with the stake matter. -/
theorem foldl_vying (candidates : List Candidate)
    (named : ∀ candidate ∈ candidates, session.NamedSimply candidate)
    (agree : session.Agree wanted first second) :
    session.Agree wanted (candidates.foldl session.addCandidate first)
      ((session.vying wanted candidates).foldl session.addCandidate second) := by
  induction candidates generalizing first second with
  | nil => exact agree
  | cons candidate candidates ih =>
    have head := named candidate List.mem_cons_self
    have tail := fun other mem => named other (List.mem_cons_of_mem candidate mem)
    by_cases same : session.stake candidate = wanted
    · subst same
      rw [vying, List.filter_cons_of_pos (by simp)]
      exact ih tail (agree.addCandidate head)
    · rw [vying, List.filter_cons_of_neg (by simp [same])]
      exact ih tail ((addCandidate_of_ne head same first).trans agree)

end Agree

/-- Lists with the same candidates for a stake lead to states that agree on it. -/
theorem agree_of_vying {first second : List Candidate}
    (named : ∀ candidate ∈ first ++ second, session.NamedSimply candidate)
    (same : session.vying wanted first = session.vying wanted second) :
    session.Agree wanted (first.foldl session.addCandidate ({}, []))
      (second.foldl session.addCandidate ({}, [])) := by
  have start : session.Agree wanted ({}, []) ({}, []) := .refl ..
  have left := start.foldl_vying first fun candidate mem =>
    named candidate (List.mem_append_left _ mem)
  have right := start.foldl_vying second fun candidate mem =>
    named candidate (List.mem_append_right _ mem)
  rw [same] at left
  exact left.trans right.symm

/-! ## Later changes -/

/-- A change of how candidates are written leaves their stakes alone. -/
theorem vying_map {change : Candidate → Candidate}
    (same : ∀ candidate : Candidate, candidate.SameSubject (change candidate))
    (candidates : List Candidate) :
    session.vying wanted (candidates.map change) =
      (session.vying wanted candidates).map change := by
  rw [vying, List.filter_map, vying]
  simp only [Function.comp_def, stake_congr (same _)]

/-- Whether a variable hides a field is told by the variables of its name. -/
theorem isHiddenField_congr {first second : List Candidate}
    (same : ∀ name, session.vying (.word .local name) first =
      session.vying (.word .local name) second) :
    isHiddenField first = isHiddenField second := by
  have locals : ∀ (kept : List Candidate) (name : String),
      ((kept.filter fun other => other.kind == .local).map Candidate.name).contains name =
        !(session.vying (.word .local name) kept).isEmpty := by
    intro kept name
    rw [Bool.eq_iff_iff]
    simp only [List.contains_iff_mem, List.mem_map, List.mem_filter, beq_iff_eq,
      Bool.not_eq_true', List.isEmpty_eq_false_iff_exists_mem, mem_vying]
    refine exists_congr fun candidate => ?_
    rw [and_assoc]
    refine and_congr_right fun _ => ?_
    unfold stake
    cases candidate.kind <;> simp
  funext candidate
  rw [isHiddenField, isHiddenField, locals, locals, same]

/-- What becomes of the candidates with a stake depends on these and on the variables alone. -/
theorem vying_resolve {first second : List Candidate}
    (named : ∀ candidate ∈ first ++ second, session.NamedSimply candidate)
    (locals : ∀ name, session.vying (.word .local name) first =
      session.vying (.word .local name) second)
    (same : session.vying wanted first = session.vying wanted second) :
    session.vying wanted (session.resolve first).2 =
      session.vying wanted (session.resolve second).2 := by
  have hidden := isHiddenField_congr fun name => (agree_of_vying named (locals name)).kept
  have alike : session.rewritten (first.foldl session.addCandidate ({}, [])).2 =
      session.rewritten (second.foldl session.addCandidate ({}, [])).2 := by
    funext candidate
    rw [rewritten, rewritten, hidden]
  rw [resolve_eq_map, resolve_eq_map, vying_map (rewrites_rewritten session _).same,
    vying_map (rewrites_rewritten session _).same, (agree_of_vying named same).kept, alike]

/-- What is known of the types of a simple name depends on the candidates that contend for it
alone. -/
theorem known_resolve {first second : List Candidate} {simple : String}
    (named : ∀ candidate ∈ first ++ second, session.NamedSimply candidate)
    (same : session.vying (.simpleName simple) first = session.vying (.simpleName simple) second) :
    (session.resolve first).1.claimant? simple = (session.resolve second).1.claimant? simple ∧
      ∀ name : QualifiedName, name.simple = simple →
        (session.resolve first).1.contains name = (session.resolve second).1.contains name := by
  have agree := agree_of_vying named same
  rw [resolve_known, resolve_known]
  exact ⟨agree.claimant simple rfl, fun name own => agree.known name (own ▸ rfl)⟩

/-! ## Full names -/

/-- The types of a full name. -/
def called (session : Session) (name : QualifiedName) (candidates : List Candidate) :
    List Candidate :=
  (typesOf candidates).filter fun candidate => session.store.typeName? candidate = some name

variable {name : QualifiedName}

theorem mem_called {candidates : List Candidate} :
    candidate ∈ session.called name candidates ↔
      candidate ∈ candidates ∧ candidate.kind = .type ∧
        session.store.typeName? candidate = some name := by
  simp [called, typesOf, and_comm]

/-- The types with a full name are chosen one by one too. -/
theorem called_append (first second : List Candidate) :
    session.called name (first ++ second) =
      session.called name first ++ session.called name second := by
  rw [called, typesOf_append, List.filter_append, called, called]

theorem called_singleton (kind : candidate.kind = .type)
    (denotes : session.store.typeName? candidate = some name) :
    session.called name [candidate] = [candidate] := by
  simp [called, typesOf, kind, denotes]

theorem called_singleton_of_ne
    (other : ¬ (candidate.kind = .type ∧ session.store.typeName? candidate = some name)) :
    session.called name [candidate] = [] := by
  refine List.eq_nil_iff_forall_not_mem.mpr fun listed mem => other ?_
  obtain ⟨mem, own⟩ := mem_called.mp mem
  rwa [List.mem_singleton.mp mem] at own

/-- A candidate that is not called by the name changes nothing for those that are. -/
theorem called_addCandidate_of_ne
    (other : ¬ (candidate.kind = .type ∧ session.store.typeName? candidate = some name))
    (state : KnownTypes × List Candidate) :
    (session.addCandidate state candidate).1.contains name = state.1.contains name ∧
      session.called name (session.addCandidate state candidate).2 =
        session.called name state.2 := by
  by_cases kind : candidate.kind = .type
  · have appended : ∀ own : Candidate, candidate.SameSubject own →
        session.called name (state.2 ++ [own]) = session.called name state.2 := by
      intro own same
      have denotes : session.store.typeName? own = session.store.typeName? candidate := by
        simp only [Store.typeName?, same.symbol]
      rw [called_append, called_singleton_of_ne (by rwa [same.kind, denotes]), List.append_nil]
    simp only [addCandidate, kind]
    unfold addType
    split
    next => exact ⟨rfl, appended candidate (.refl candidate)⟩
    next own denotes =>
      split
      · exact ⟨rfl, rfl⟩
      · have differs : name ≠ own := fun same => other ⟨kind, same ▸ denotes⟩
        have known : ((state.1.insert own).claim candidate.name own).contains name =
            state.1.contains name := by
          simp [KnownTypes.contains_insert, differs]
        dsimp only
        split
        · exact ⟨known, appended candidate (.refl candidate)⟩
        · exact ⟨known, appended _ ⟨rfl, rfl, rfl, rfl, rfl⟩⟩
  · obtain ⟨known, types⟩ := session.addCandidate_of_ne_type state kind
    rw [called, known, types]
    exact ⟨rfl, rfl⟩

/-- A type is known from its first occurrence on, which stays. -/
theorem addCandidate_of_called (kind : candidate.kind = .type)
    (denotes : session.store.typeName? candidate = some name)
    (state : KnownTypes × List Candidate) :
    (session.addCandidate state candidate).1.contains name = true ∧
      (session.called name (session.addCandidate state candidate).2).map Candidate.unspelled =
        (session.called name state.2).map Candidate.unspelled ++
          if state.1.contains name then [] else [candidate.unspelled] := by
  simp only [addCandidate, kind, addType, denotes]
  split
  next known => exact ⟨known, (List.append_nil _).symm⟩
  next fresh =>
    have known : ((state.1.insert name).claim candidate.name name).contains name = true := by
      simp [KnownTypes.contains_insert]
    have qualified : session.called name [candidate.qualifiedBy (fullQualifier name)] =
        [candidate.qualifiedBy (fullQualifier name)] := called_singleton kind denotes
    split
    · refine ⟨known, ?_⟩
      rw [called_append, called_singleton kind denotes, List.map_append]
      rfl
    · refine ⟨known, ?_⟩
      rw [called_append, qualified, List.map_append]
      rfl

/-- A full name is known if a candidate is called by it, and the first one stays. -/
theorem called_foldl (session : Session) (name : QualifiedName) (candidates : List Candidate)
    (state : KnownTypes × List Candidate) :
    (candidates.foldl session.addCandidate state).1.contains name =
        (state.1.contains name || !(session.called name candidates).isEmpty) ∧
      (session.called name (candidates.foldl session.addCandidate state).2).map
          Candidate.unspelled =
        (session.called name state.2).map Candidate.unspelled ++
          if state.1.contains name then []
          else ((session.called name candidates).take 1).map Candidate.unspelled := by
  induction candidates generalizing state with
  | nil => simp [called, typesOf]
  | cons candidate candidates ih =>
    obtain ⟨known, kept⟩ := ih (session.addCandidate state candidate)
    rw [List.foldl_cons, known, kept, ← List.singleton_append, called_append]
    by_cases own : candidate.kind = .type ∧ session.store.typeName? candidate = some name
    · obtain ⟨knownFrom, first⟩ := addCandidate_of_called own.1 own.2 state
      rw [called_singleton own.1 own.2, knownFrom, first]
      simp
    · obtain ⟨same, unchanged⟩ := called_addCandidate_of_ne own state
      rw [called_singleton_of_ne own, same, unchanged]
      simp

/-- A change that fixes the types of a full name leaves them where they are. -/
theorem called_map {change : Candidate → Candidate}
    (same : ∀ candidate : Candidate, candidate.SameSubject (change candidate))
    (fixes : ∀ candidate : Candidate, candidate.kind = .type →
      session.store.typeName? candidate = some name → change candidate = candidate)
    (candidates : List Candidate) :
    session.called name (candidates.map change) = session.called name candidates := by
  have denotes : ∀ candidate, session.store.typeName? (change candidate) =
      session.store.typeName? candidate := fun candidate => by
    simp only [Store.typeName?, (same candidate).symbol]
  have mapped : session.called name (candidates.map change) =
      (session.called name candidates).map change := by
    simp [called, typesOf, List.filter_map, Function.comp_def, (same _).kind, denotes]
  have fixed : ∀ candidate ∈ session.called name candidates, change candidate = id candidate := by
    intro candidate mem
    obtain ⟨-, kind, own⟩ := mem_called.mp mem
    exact fixes candidate kind own
  rw [mapped, List.map_congr_left fixed, List.map_id]

/-- What happens after all candidates were added does not touch types. -/
theorem called_resolve_eq (session : Session) (name : QualifiedName) (candidates : List Candidate) :
    session.called name (session.resolve candidates).2 =
      session.called name (candidates.foldl session.addCandidate ({}, [])).2 := by
  rw [resolve_eq_map]
  refine called_map (rewrites_rewritten session _).same (fun candidate kind denotes => ?_) _
  have other : candidate.isMember = false := by simp [Candidate.isMember, kind]
  refine rewritten_of_other _ other fun method symbol => ?_
  simp [Store.typeName?, symbol] at denotes

/-- Of the types of a full name the first one stays. -/
theorem called_resolve (session : Session) (name : QualifiedName) (candidates : List Candidate) :
    (session.called name (session.resolve candidates).2).map Candidate.unspelled =
      ((session.called name candidates).take 1).map Candidate.unspelled := by
  rw [called_resolve_eq, (session.called_foldl name candidates _).2]
  rfl

/-- The types that are known are those that were found. -/
theorem contains_resolve (session : Session) (name : QualifiedName) (candidates : List Candidate) :
    (session.resolve candidates).1.contains name =
      !(session.called name candidates).isEmpty := by
  rw [resolve_known, (session.called_foldl name candidates _).1]
  rfl

end Session

end CodeAssist.Completion
