import CodeAssist.Checkpoint
import CodeAssist.Completion.Proposal
import CodeAssist.Completion.Relevance
import CodeAssist.Completion.Search
/-!
# Running a request

What a request would do is a list of events, its *trace*: the steps and rejections of every stage,
and each proposal at the point where it is delivered. Running a request follows the trace until a
poll finds the request cancelled. So a cancelled request delivers a first part of what it would have
delivered.

The client is told of the beginning and the end of every request, of each proposal, and, if a
request runs to its end without any, of the reasons for which candidates were dropped.
-/

namespace CodeAssist.Completion

/-- Whether a request has been cancelled, by the number of earlier polls and the number of proposals
delivered. -/
abbrev Signal := (polls : Nat) → (delivered : Nat) → Bool

/-- Why a request came to nothing. -/
structure Failure where
  token : String
  site : Site
  rejections : Tally
deriving DecidableEq, Repr

/-- What a client is told. -/
inductive Notice where
  | began
  | proposed (proposal : Proposal)
  | nothingFound (failure : Failure)
  | ended
deriving DecidableEq, Repr

/-- The proposal of a notice. -/
def Notice.proposal? : Notice → Option Proposal
  | .proposed proposal => some proposal
  | _ => none

/-- How a request ended. -/
inductive Outcome where
  | completed
  | cancelled
deriving DecidableEq, Repr, Inhabited

/-- How far a trace was followed: what was delivered, the count of it that was kept on the way, and
how it ended. -/
structure Delivery where
  proposals : List Proposal
  emitted : Nat
  outcome : Outcome
deriving DecidableEq, Repr

/-- A finished request. -/
structure Answer where
  notices : List Notice
  emitted : Nat
  outcome : Outcome
deriving DecidableEq, Repr

/-- Follows a trace under a signal. The counter decides which steps poll; the numbers are those of
earlier polls and deliveries. -/
def follow (signal : Signal) (checkpoint : Checkpoint) (polls delivered : Nat) :
    List (Event Proposal) → Delivery
  | [] => { proposals := [], emitted := delivered, outcome := .completed }
  | .rejected _ :: events => follow signal checkpoint polls delivered events
  | .found proposal :: events =>
    let rest := follow signal checkpoint polls (delivered + 1) events
    { rest with proposals := proposal :: rest.proposals }
  | .tick :: events =>
    let next := checkpoint.advance
    if next.polls then
      if signal polls delivered then
        { proposals := [], emitted := delivered, outcome := .cancelled }
      else follow signal next (polls + 1) delivered events
    else follow signal next polls delivered events

namespace Session

/-- The proposal for a candidate. -/
def proposal (session : Session) (candidate : Candidate) : Proposal :=
  .ofCandidate session.store session.request.range
    (relevance session.store session.graph session.request candidate) candidate

/-- Delivers candidates, but for the kinds that the client does not show. -/
def deliver (session : Session) (ignores : ProposalKind → Bool) (candidates : List Candidate) :
    List (Event Proposal) :=
  candidates.flatMap fun candidate =>
    [.tick,
     if ignores (.ofCandidate candidate) then .rejected .ignoredKind
     else .found (session.proposal candidate)]

/-- The events of a stage, followed by the delivery of what it found. -/
def stage (session : Session) (ignores : ProposalKind → Bool) (events : List (Event Candidate)) :
    List (Event Proposal) :=
  Event.notes events ++ session.deliver ignores (Event.items events)

/-- The candidates of the walk that stay, behind `new` with constructors in their place. Every
candidate of the walk counts as a step, and those that do not stay are duplicates. -/
def reached (session : Session) (walked kept : List Candidate) : List (Event Candidate) :=
  walked.map (fun _ => .tick)
    ++ List.replicate (walked.length - kept.length) (.rejected .duplicate)
    ++ (if session.request.site = .allocation then session.expandAllocations kept
        else kept.map .found)

/-- All that a request would do. -/
def trace (session : Session) (ignores : ProposalKind → Bool) : List (Event Proposal) :=
  let walk := session.walk
  let walked := Event.items walk
  let (known, kept) := session.resolve walked
  if session.request.site = .nothing then []
  else
    Event.notes walk
      ++ session.stage ignores (session.reached walked kept)
      ++ (if session.searchesTypes then session.stage ignores (session.searchTypes known) else [])
      ++ (if session.searchesPackages then session.stage ignores session.searchPackages else [])

/-- Follows the trace of a request, which polls once before it begins. -/
def delivery (session : Session) (ignores : ProposalKind → Bool) (signal : Signal) : Delivery :=
  if signal 0 0 then { proposals := [], emitted := 0, outcome := .cancelled }
  else follow signal .fresh 1 0 (session.trace ignores)

/-- Runs a request. -/
def run (session : Session) (ignores : ProposalKind → Bool) (signal : Signal) : Answer :=
  let delivery := session.delivery ignores signal
  let failure : Failure :=
    { token := session.request.token, site := session.request.site
      rejections := .ofEvents (session.trace ignores) }
  let report :=
    if delivery.outcome = .completed ∧ delivery.emitted = 0 then [.nothingFound failure] else []
  { notices := .began :: delivery.proposals.map .proposed ++ report ++ [.ended]
    emitted := delivery.emitted
    outcome := delivery.outcome }

end Session

namespace Answer

/-- The proposals in the order of their delivery. -/
def proposals (answer : Answer) : List Proposal := answer.notices.filterMap Notice.proposal?

/-- Why nothing was found, if that was told. -/
def failure? (answer : Answer) : Option Failure :=
  answer.notices.findSome? fun
    | .nothingFound failure => some failure
    | _ => none

/-- Whether the client was told of the beginning first and of the end last. -/
def isBracketed (answer : Answer) : Bool :=
  answer.notices.head? = some .began && answer.notices.getLast? = some .ended

/-- The proposals by falling relevance, equal ones in the order of their delivery. -/
def ranked (answer : Answer) : List Proposal :=
  answer.proposals.mergeSort fun a b => b.relevance ≤ a.relevance

end Answer

end CodeAssist.Completion
