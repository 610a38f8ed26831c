import Mathlib.Logic.Function.Basic
import Scam2Market.Api.Requests
import Scam2Market.Library.CheckThenAct
import Scam2Market.Python.Values

/-!
# Reviews

`adjudicate_feedback` of `api/routes/evidence.py` and `decide_policy_proposal` of
`api/routes/operations.py`.  Both read a row without a lock, refuse unless its status is `PENDING`, and
write it: each is a `Library.checkThenAct`.

A row is decided once as long as no request commits on a row that was decided after the request had read
it, and no longer (`decidedOnce_iff_never_overwritten`).

The columns that neither handler reads or writes, and the responses, are left out.
-/

namespace Scam2Market
namespace Api
namespace Reviews

open Library (Transaction Database Move Always Throughout checkThenAct Decides)

/-! ## Feedback -/

abbrev FeedbackId := ℕ

inductive FeedbackStatus where
  | pending
  | accepted
  | rejected
  deriving DecidableEq, Repr

/-- A row of `analyst_feedback`. -/
structure AnalystFeedbackModel where
  status : FeedbackStatus := .pending
  adjudicatedBy : Option String := none
  adjudicatedAt : Option Datetime := none
  adjudicationNote : Option String := none
  deriving DecidableEq, Repr

/-- The table `analyst_feedback`. -/
abbrev FeedbackTable : Type := FeedbackId → Option AnalystFeedbackModel

namespace FeedbackTable

def row (id : FeedbackId) (table : FeedbackTable) : Option AnalystFeedbackModel :=
  table id

end FeedbackTable

namespace AnalystFeedbackModel

/-- `not (feedback.status != "PENDING")`. -/
def pending (feedback : AnalystFeedbackModel) : Bool :=
  feedback.status = .pending

/-- The status, the reviewer and the note. -/
def verdict (feedback : AnalystFeedbackModel) : FeedbackStatus × Option String × Option String :=
  (feedback.status, feedback.adjudicatedBy, feedback.adjudicationNote)

end AnalystFeedbackModel

structure FeedbackAdjudication where
  accepted : Bool
  note : String
  note_length : 3 ≤ note.length ∧ note.length ≤ 4000 := by decide

/-- An adjudication of one feedback item, by an actor, at an instant. -/
structure AdjudicationRequest where
  feedbackId : FeedbackId
  body : FeedbackAdjudication
  actorId : String
  now : Datetime

namespace AdjudicationRequest

/-- `"ACCEPTED" if body.accepted else "REJECTED"`. -/
def status (request : AdjudicationRequest) : FeedbackStatus :=
  if request.body.accepted then .accepted else .rejected

/-- What the request writes into the row. -/
def apply (request : AdjudicationRequest) (feedback : AnalystFeedbackModel) :
    AnalystFeedbackModel :=
  { feedback with
    status := request.status
    adjudicatedBy := some request.actorId
    adjudicatedAt := some request.now
    adjudicationNote := some request.body.note }

/-- The `UPDATE` of the row: the reviewer is a column of 128 characters. -/
def write (request : AdjudicationRequest) (_ : AnalystFeedbackModel) (table : FeedbackTable) :
    Except RequestError FeedbackTable :=
  if 128 < request.actorId.length then .error (.dataError "adjudicated_by")
  else .ok (Function.update table request.feedbackId
    ((table request.feedbackId).map request.apply))

/-- The verdict that the request writes. -/
def written (request : AdjudicationRequest) : FeedbackStatus × Option String × Option String :=
  (request.status, some request.actorId, some request.body.note)

end AdjudicationRequest

/-- `adjudicate_feedback(feedback_id, body, actor_id)`. -/
def adjudicateFeedback (request : AdjudicationRequest) :
    Transaction FeedbackId FeedbackTable RequestError Unit :=
  checkThenAct FeedbackTable.row AnalystFeedbackModel.pending
    (.httpException 404 "feedback not found")
    (.httpException 409 "feedback has already been adjudicated")
    request.feedbackId request.write

theorem decides_adjudication (request : AdjudicationRequest) :
    Decides FeedbackTable.row AnalystFeedbackModel.pending AnalystFeedbackModel.verdict
      request.feedbackId request.write request.written where
  own := by
    intro found table table' feedback hwrite hrow
    rw [AdjudicationRequest.write] at hwrite
    split_ifs at hwrite
    rw [← Except.ok.inj hwrite]
    refine ⟨request.apply feedback, ?_, ?_, rfl⟩
    · rw [FeedbackTable.row] at hrow
      rw [FeedbackTable.row, Function.update_self, hrow, Option.map_some]
    · rw [AnalystFeedbackModel.pending, AdjudicationRequest.apply, AdjudicationRequest.status]
      split_ifs <;> rfl
  other := by
    intro found table table' hwrite id hid
    rw [AdjudicationRequest.write] at hwrite
    split_ifs at hwrite
    rw [← Except.ok.inj hwrite]
    exact Function.update_of_ne hid ..

/-! ## Policy proposals -/

abbrev ProposalId := ℕ

inductive ProposalStatus where
  | pending
  | approved
  | rejected
  deriving DecidableEq, Repr

/-- A row of `policy_proposals`. -/
structure PolicyProposalModel where
  tenantId : String := "default"
  status : ProposalStatus := .pending
  reviewedBy : Option String := none
  reviewReason : Option String := none
  reviewedAt : Option Datetime := none
  deriving DecidableEq, Repr

/-- A row of `audit_logs` about a proposal. -/
structure AuditLogModel where
  tenantId : String
  actorId : String
  action : String
  targetType : String
  targetId : ProposalId
  reason : String
  deriving DecidableEq, Repr

structure ProposalTables where
  proposals : ProposalId → Option PolicyProposalModel
  auditLogs : List AuditLogModel := []

def ProposalTables.row (id : ProposalId) (tables : ProposalTables) : Option PolicyProposalModel :=
  tables.proposals id

namespace PolicyProposalModel

/-- `not (proposal.status != "PENDING")`. -/
def pending (proposal : PolicyProposalModel) : Bool :=
  proposal.status = .pending

/-- The status, the reviewer and the reason. -/
def verdict (proposal : PolicyProposalModel) : ProposalStatus × Option String × Option String :=
  (proposal.status, proposal.reviewedBy, proposal.reviewReason)

end PolicyProposalModel

/-- `Literal["APPROVED", "REJECTED"]`. -/
inductive ReviewDecision where
  | approved
  | rejected
  deriving DecidableEq, Repr

namespace ReviewDecision

def value : ReviewDecision → String
  | approved => "APPROVED"
  | rejected => "REJECTED"

def status : ReviewDecision → ProposalStatus
  | approved => .approved
  | rejected => .rejected

end ReviewDecision

structure PolicyDecision where
  status : ReviewDecision
  reason : String
  reason_length : 5 ≤ reason.length ∧ reason.length ≤ 2000 := by decide

/-- A decision about one proposal, by an actor, at an instant. -/
structure DecisionRequest where
  proposalId : ProposalId
  body : PolicyDecision
  actorId : String
  now : Datetime

namespace DecisionRequest

/-- What the request writes into the row. -/
def apply (request : DecisionRequest) (proposal : PolicyProposalModel) : PolicyProposalModel :=
  { proposal with
    status := request.body.status.status
    reviewedBy := some request.actorId
    reviewReason := some request.body.reason
    reviewedAt := some request.now }

/-- The row that the request adds to the audit log, for the tenant of the proposal it has read. -/
def auditLog (request : DecisionRequest) (proposal : PolicyProposalModel) : AuditLogModel where
  tenantId := proposal.tenantId
  actorId := request.actorId
  action := request.body.status.value ++ "_POLICY_PROPOSAL"
  targetType := "POLICY_PROPOSAL"
  targetId := request.proposalId
  reason := request.body.reason

/-- The `UPDATE` of the row and the `INSERT` of the audit log: the actor is a column of 128 characters. -/
def write (request : DecisionRequest) (proposal : PolicyProposalModel) (tables : ProposalTables) :
    Except RequestError ProposalTables :=
  if 128 < request.actorId.length then .error (.dataError "reviewed_by")
  else .ok
    { proposals := Function.update tables.proposals request.proposalId
        ((tables.proposals request.proposalId).map request.apply)
      auditLogs := tables.auditLogs ++ [request.auditLog proposal] }

/-- The verdict that the request writes. -/
def written (request : DecisionRequest) : ProposalStatus × Option String × Option String :=
  (request.body.status.status, some request.actorId, some request.body.reason)

end DecisionRequest

/-- `decide_policy_proposal(proposal_id, body, actor_id)`. -/
def decidePolicyProposal (request : DecisionRequest) :
    Transaction ProposalId ProposalTables RequestError Unit :=
  checkThenAct ProposalTables.row PolicyProposalModel.pending
    (.httpException 404 "policy proposal not found")
    (.httpException 409 "policy proposal already reviewed")
    request.proposalId request.write

theorem decides_decision (request : DecisionRequest) :
    Decides ProposalTables.row PolicyProposalModel.pending PolicyProposalModel.verdict
      request.proposalId request.write request.written where
  own := by
    intro found tables tables' proposal hwrite hrow
    rw [DecisionRequest.write] at hwrite
    split_ifs at hwrite
    rw [← Except.ok.inj hwrite]
    refine ⟨request.apply proposal, ?_, ?_, rfl⟩
    · rw [ProposalTables.row] at hrow
      simp only [ProposalTables.row, Function.update_self, hrow, Option.map_some]
    · rw [PolicyProposalModel.pending, DecisionRequest.apply]
      cases request.body.status <;> rfl
  other := by
    intro found tables tables' hwrite id hid
    rw [DecisionRequest.write] at hwrite
    split_ifs at hwrite
    rw [← Except.ok.inj hwrite]
    exact Function.update_of_ne hid ..

/-! ## Every interleaving -/

section Runs

variable {ι : Type} [DecidableEq ι]

/-- Adjudications that have not begun. -/
def adjudications (requests : ι → AdjudicationRequest) (table : FeedbackTable) :
    Database ι FeedbackId FeedbackTable RequestError Unit :=
  .initial (fun i => adjudicateFeedback (requests i)) table

/-- Decisions that have not begun. -/
def decisions (requests : ι → DecisionRequest) (tables : ProposalTables) :
    Database ι ProposalId ProposalTables RequestError Unit :=
  .initial (fun i => decidePolicyProposal (requests i)) tables

/-- At most one adjudication of an item succeeds, and the item keeps its status, reviewer and note. -/
def AdjudicatedOnce (requests : ι → AdjudicationRequest)
    (db : Database ι FeedbackId FeedbackTable RequestError Unit) : Prop :=
  db.DecidedOnce FeedbackTable.row AnalystFeedbackModel.verdict (fun i => (requests i).feedbackId)
    fun i => (requests i).written

/-- At most one decision about a proposal succeeds, and the proposal keeps its status, reviewer and
reason. -/
def ReviewedOnce (requests : ι → DecisionRequest)
    (db : Database ι ProposalId ProposalTables RequestError Unit) : Prop :=
  db.DecidedOnce ProposalTables.row PolicyProposalModel.verdict (fun i => (requests i).proposalId)
    fun i => (requests i).written

/-- The step commits an adjudication of an item that is not pending any more. -/
def OverwritesAdjudication (requests : ι → AdjudicationRequest)
    (db : Database ι FeedbackId FeedbackTable RequestError Unit) (move : Move ι) : Prop :=
  db.Overwrites FeedbackTable.row AnalystFeedbackModel.pending (fun i => (requests i).feedbackId)
    (fun i => (requests i).write) move

/-- The step commits a decision about a proposal that is not pending any more. -/
def OverwritesDecision (requests : ι → DecisionRequest)
    (db : Database ι ProposalId ProposalTables RequestError Unit) (move : Move ι) : Prop :=
  db.Overwrites ProposalTables.row PolicyProposalModel.pending (fun i => (requests i).proposalId)
    (fun i => (requests i).write) move

/-- **A review is decided once as long as no decision is overwritten.**  In every interleaving of
adjudications, and in every interleaving of decisions about proposals, at most one request for a row
succeeds and the row keeps what it wrote, if and only if no step commits on a row that is not pending any
more. -/
theorem decidedOnce_iff_never_overwritten (moves : List (Move ι)) :
    (∀ (requests : ι → AdjudicationRequest) (table : FeedbackTable),
      Always (Database.step FeedbackTable.row) (AdjudicatedOnce requests)
          (adjudications requests table) moves ↔
        Throughout (Database.step FeedbackTable.row)
          (fun db move => ¬ OverwritesAdjudication requests db move)
          (adjudications requests table) moves) ∧
      ∀ (requests : ι → DecisionRequest) (tables : ProposalTables),
        Always (Database.step ProposalTables.row) (ReviewedOnce requests)
            (decisions requests tables) moves ↔
          Throughout (Database.step ProposalTables.row)
            (fun db move => ¬ OverwritesDecision requests db move)
            (decisions requests tables) moves :=
  ⟨fun requests table =>
    Database.decidedOnce_iff (fun i => decides_adjudication (requests i)) _ _ table moves,
   fun requests tables =>
    Database.decidedOnce_iff (fun i => decides_decision (requests i)) _ _ tables moves⟩

end Runs

/-- One feedback item that waits for its review. -/
def waitingFeedback : FeedbackTable :=
  fun id => if id = 0 then some {} else none

/-- One analyst accepts the item and another one rejects it. -/
def opposed (i : Fin 2) : AdjudicationRequest where
  feedbackId := 0
  body := { accepted := i = 0, note := "reviewed" }
  actorId := if i = 0 then "first" else "second"
  now := 1

/-- Both find the item pending: both succeed, and the second verdict replaces the first. -/
theorem both_adjudicate :
    let db := Library.run (Database.step FeedbackTable.row) (adjudications opposed waitingFeedback)
      [.advance 0, .advance 1, .advance 0, .advance 0, .advance 1, .advance 1]
    (db.session 0).value? = some () ∧ (db.session 1).value? = some () ∧
      (db.state 0).map AnalystFeedbackModel.verdict =
        some (.rejected, some "second", some "reviewed") ∧
      ¬ AdjudicatedOnce opposed db := by
  have hfirst : (Library.run (Database.step FeedbackTable.row)
      (adjudications opposed waitingFeedback)
      [.advance 0, .advance 1, .advance 0, .advance 0, .advance 1, .advance 1]).session 0 =
        .succeeded () := rfl
  have hsecond : (Library.run (Database.step FeedbackTable.row)
      (adjudications opposed waitingFeedback)
      [.advance 0, .advance 1, .advance 0, .advance 0, .advance 1, .advance 1]).session 1 =
        .succeeded () := rfl
  refine ⟨?_, ?_, ?_, fun honce => ?_⟩
  · rw [hfirst]; rfl
  · rw [hsecond]; rfl
  · decide +kernel
  · exact absurd (honce.once 0 1 hfirst hsecond rfl) (by decide)

end Reviews
end Api
end Scam2Market
