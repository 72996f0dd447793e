import Bluesafe.Api.Evidence

/-!
# Votes of the verifiers

`POST /v1/disputes/:disputeId/verifier-votes` of `index.ts`. The handler lists the votes of
the dispute, looks for one of the same verifier, and appends the new vote; between the two
calls other requests may run. A request whose body its schema rejects makes no call and is
left out.

`votesStep` interleaves any number of these requests at their calls.
-/

namespace Bluesafe.Api

open Bluesafe.Ops (DisputeDecisionChoice writeAudit emitEvent)

/-- `disputeVerifierVoteSchema`. -/
structure DisputeVerifierVoteBody where
  verifierId : String
  recommendation : DisputeDecisionChoice
  verifierId_min : verifierId ≠ ""

/-- Store the vote and announce it. -/
def storeVote (disputeId : String) (body : DisputeVerifierVoteBody) : ApiM Response := do
  let id ← ofOps (Ops.randomId "dvv")
  let createdAt ← ofOps Ops.nowIso
  invoke (.appendDisputeVerifierVote
    ⟨id, disputeId, body.verifierId, body.recommendation, createdAt⟩)
  ofOps (emitEvent "dispute.verifier_vote" "dispute" disputeId
    [("verifierId", .str body.verifierId), ("recommendation", .str body.recommendation.text)])
  ofOps (writeAudit "dispute" disputeId "dispute.verifier_vote" body.verifierId none none
    (some [("recommendation", .str body.recommendation.text)]))
  return .json 201 (.obj [("disputeId", .str disputeId), ("recorded", .bool true)])

/-- `POST /v1/disputes/:disputeId/verifier-votes`. -/
def postVerifierVote (config : Config) (caller : Caller) (disputeId : String)
    (body : DisputeVerifierVoteBody) : ApiM Response :=
  writeRoute config [.operator, .verifier, .auditor] caller do
    match ← ofOps (Ops.getDispute disputeId) with
    | none => return notFound "Dispute not found"
    | some dispute =>
      if ← contractAccessible config caller.auth dispute.contractId then
        if dispute.status = .filed ∨ dispute.status = .underReview then
          let priorVotes ← invoke (.listDisputeVerifierVotes disputeId)
          if priorVotes.any fun v => decide (v.verifierId = body.verifierId) then
            return .error 409 "B2_CONFLICT"
              "This verifier has already submitted a recommendation for this dispute"
          else storeVote disputeId body
        else
          return .error 409 "B2_VALIDATION_ERROR"
            "Verifier votes are only accepted while dispute is filed or under_review"
      else return forbidden "Not allowed to vote on this dispute"

/-- A request of a verifier. -/
structure VoteRequest where
  caller : Caller
  disputeId : String
  body : DisputeVerifierVoteBody

/-- The requests in progress. -/
abbrev VotesPool : Type := Async.Pool calls String Store VoteRequest Response

/-- Any number of votes at the same time; any repository call may be rejected. -/
def votesStep (config : Config) : VotesPool → Async.Act VoteRequest Choice → Option VotesPool :=
  Async.poolStep (world config.runtime) fun req =>
    postVerifierVote config req.caller req.disputeId req.body

end Bluesafe.Api
