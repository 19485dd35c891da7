import CodeAssist.Class.CoreLibrary
import CodeAssist.Completion.Run
import CodeAssist.Proofs.Completion.Screening
/-!
# What a completed request delivers

A request is *completed* if no poll found it cancelled. Then its proposals are those of the
candidates that its stages come to (`Session.offered`), one each and in order, but for the kinds
that the client does not show. A request that is cancelled proposes a first part of these.
Statements about what is proposed are therefore statements about `Session.shown`, and no other
module looks into the run itself, but for the one about cancellation.
-/

namespace CodeAssist.Completion

/-! ## Following a trace -/

/-- A trace that is followed to its end delivers all that it holds. -/
theorem proposals_follow {signal : Signal} {checkpoint : Checkpoint} {polls delivered : Nat}
    {events : List (Event Proposal)}
    (completed : (follow signal checkpoint polls delivered events).outcome = .completed) :
    (follow signal checkpoint polls delivered events).proposals = Event.items events := by
  induction events generalizing checkpoint polls delivered with
  | nil => rfl
  | cons event events ih =>
    cases event with
    | rejected reason => exact ih completed
    | found proposal => exact congrArg (proposal :: ·) (ih completed)
    | tick =>
      simp only [follow, Event.items_tick] at completed ⊢
      split at completed
      next polled =>
        rw [if_pos polled]
        split at completed
        next => exact absurd completed (by simp)
        next quiet =>
          rw [if_neg quiet]
          exact ih completed
      next unpolled =>
        rw [if_neg unpolled]
        exact ih completed

/-- However far a trace is followed, what is delivered is a first part of what it holds. -/
theorem proposals_follow_initial (signal : Signal) (checkpoint : Checkpoint) (polls delivered : Nat)
    (events : List (Event Proposal)) :
    (follow signal checkpoint polls delivered events).proposals <+: Event.items events := by
  induction events generalizing checkpoint polls delivered with
  | nil => exact List.prefix_rfl
  | cons event events ih =>
    cases event with
    | rejected reason => exact ih checkpoint polls delivered
    | found proposal =>
      exact List.cons_prefix_cons.mpr ⟨rfl, ih checkpoint polls (delivered + 1)⟩
    | tick =>
      simp only [follow, Event.items_tick]
      split
      · split
        · exact List.nil_prefix
        · exact ih _ (polls + 1) delivered
      · exact ih _ polls delivered

/-- Without a cancellation a trace is followed to its end. -/
theorem follow_outcome_of_silent {signal : Signal}
    (silent : ∀ polls delivered, signal polls delivered = false) (checkpoint : Checkpoint)
    (polls delivered : Nat) (events : List (Event Proposal)) :
    (follow signal checkpoint polls delivered events).outcome = .completed := by
  induction events generalizing checkpoint polls delivered with
  | nil => rfl
  | cons event events ih =>
    cases event with
    | rejected reason => exact ih checkpoint polls delivered
    | found proposal => exact ih checkpoint polls (delivered + 1)
    | tick =>
      simp only [follow, silent polls delivered]
      split
      · exact ih _ (polls + 1) delivered
      · exact ih _ polls delivered

namespace Session

/-- A request over the core library, with the default options. -/
def overCore (token : String) (site : Site) (graph : ScopeGraph := {}) (index : Index := {}) :
    Session :=
  { store := CoreLibrary.store, graph, index, options := {}, guess := fun _ => none
    request := .ofToken token 0 site }

/-! ## The candidates of a request -/

/-- The candidates of the walk. -/
def walked (session : Session) : List Candidate := Event.items session.walk

/-- The types that the walk has made known. -/
def known (session : Session) : KnownTypes := (session.resolve session.walked).1

/-- The candidates of the walk that stay. -/
def kept (session : Session) : List Candidate := (session.resolve session.walked).2

/-- The candidates that a request comes to, in the order of their delivery. -/
def offered (session : Session) : List Candidate :=
  if session.request.site = .nothing then []
  else
    Event.items (session.reached session.walked session.kept)
      ++ (if session.searchesTypes then Event.items (session.searchTypes session.known) else [])
      ++ (if session.searchesPackages then Event.items session.searchPackages else [])

/-- The candidates that a client is shown. -/
def shown (session : Session) (ignores : ProposalKind → Bool) : List Candidate :=
  session.offered.filter fun candidate => !ignores (.ofCandidate candidate)

theorem items_deliver (session : Session) (ignores : ProposalKind → Bool)
    (candidates : List Candidate) :
    Event.items (session.deliver ignores candidates) =
      (candidates.filter fun candidate => !ignores (.ofCandidate candidate)).map
        session.proposal := by
  induction candidates with
  | nil => rfl
  | cons candidate candidates ih =>
    have split : session.deliver ignores (candidate :: candidates) =
        [.tick, if ignores (.ofCandidate candidate) then .rejected .ignoredKind
          else .found (session.proposal candidate)] ++ session.deliver ignores candidates := rfl
    rw [split, Event.items_append, ih]
    cases hidden : ignores (.ofCandidate candidate) <;> simp [hidden]

@[simp] theorem items_stage (session : Session) (ignores : ProposalKind → Bool)
    (events : List (Event Candidate)) :
    Event.items (session.stage ignores events) =
      ((Event.items events).filter fun candidate => !ignores (.ofCandidate candidate)).map
        session.proposal := by
  simp [stage, items_deliver]

/-- The trace of a request holds a proposal for each candidate that is shown. -/
theorem items_trace (session : Session) (ignores : ProposalKind → Bool) :
    Event.items (session.trace ignores) = (session.shown ignores).map session.proposal := by
  simp only [trace, shown, offered]
  split
  next => rfl
  next =>
    simp only [Event.items_append, Event.items_notes, List.nil_append, items_stage,
      List.filter_append, List.map_append]
    congr 1
    · congr 1
      split <;> simp [known, walked]
    · split <;> simp

/-- A request proposes what it delivers. -/
theorem proposals_run_eq_delivery (session : Session) (ignores : ProposalKind → Bool)
    (signal : Signal) :
    (session.run ignores signal).proposals = (session.delivery ignores signal).proposals := by
  have told (proposals : List Proposal) :
      (proposals.map Notice.proposed).filterMap Notice.proposal? = proposals := by
    induction proposals with
    | nil => rfl
    | cons proposal _ ih => exact congrArg (proposal :: ·) ih
  have silent (fails : Prop) [Decidable fails] (failure : Failure) :
      (if fails then [Notice.nothingFound failure] else []).filterMap Notice.proposal? = [] := by
    split <;> rfl
  simp only [run, Answer.proposals, List.cons_append, List.filterMap_cons, Notice.proposal?,
    List.filterMap_append, told, silent, List.filterMap_nil, List.append_nil]

/-- A completed request proposes the candidates that are shown. -/
theorem proposals_run {session : Session} {ignores : ProposalKind → Bool} {signal : Signal}
    (completed : (session.run ignores signal).outcome = .completed) :
    (session.run ignores signal).proposals = (session.shown ignores).map session.proposal := by
  have outcome : (session.delivery ignores signal).outcome = .completed := completed
  rw [proposals_run_eq_delivery]
  unfold delivery at outcome ⊢
  split at outcome
  next => exact absurd outcome (by simp)
  next quiet => rw [if_neg quiet, proposals_follow outcome, items_trace]

/-- Any request, cancelled or not, proposes a first part of the candidates that are shown. -/
theorem proposals_run_initial (session : Session) (ignores : ProposalKind → Bool)
    (signal : Signal) :
    (session.run ignores signal).proposals <+: (session.shown ignores).map session.proposal := by
  rw [proposals_run_eq_delivery, delivery]
  split
  · exact List.nil_prefix
  · rw [← items_trace]
    exact proposals_follow_initial signal _ _ _ _

/-- A request that is not cancelled is completed. -/
theorem run_outcome_of_silent (session : Session) (ignores : ProposalKind → Bool)
    {signal : Signal} (silent : ∀ polls delivered, signal polls delivered = false) :
    (session.run ignores signal).outcome = .completed := by
  simp only [run, delivery, silent 0 0]
  exact follow_outcome_of_silent silent _ _ _ _

/-- Except behind `new`, the candidates of the walk are delivered as they are. -/
theorem items_reached {session : Session} (site : session.request.site ≠ .allocation)
    (walked kept : List Candidate) : Event.items (session.reached walked kept) = kept := by
  simp only [reached, if_neg site, Event.items_append, Event.items_map_tick,
    Event.items_replicate_rejected, Event.items_map_found, List.nil_append]

end Session

end CodeAssist.Completion
