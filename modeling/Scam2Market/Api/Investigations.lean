import Mathlib.Data.List.Dedup
import Mathlib.Data.List.Sort
import Mathlib.Logic.Function.Basic
import Scam2Market.Api.Requests
import Scam2Market.Library.Transactions
import Scam2Market.Python.Values

/-!
# Investigations

`update_investigation` of `api/routes/evidence.py` and the data of `evidence/schemas.py` that it uses, on
the rows of `investigations` and `investigation_events`.

* An update locks the row of its investigation, compares the version with the one it expects, and
  commits the changed row with an event in one transaction.
* The columns of an investigation that the handler does not read, and the response that is rendered from
  the row after the commit, are left out.
-/

namespace Scam2Market
namespace Api

open Library (Transaction)

inductive InvestigationStatus where
  | «open»
  | triage
  | investigating
  | awaitingReview
  | closed
  deriving DecidableEq, Repr

/-- `status.value`. -/
def InvestigationStatus.value : InvestigationStatus → String
  | .open => "OPEN"
  | .triage => "TRIAGE"
  | .investigating => "INVESTIGATING"
  | .awaitingReview => "AWAITING_REVIEW"
  | .closed => "CLOSED"

inductive InvestigationPriority where
  | low
  | medium
  | high
  | urgent
  deriving DecidableEq, Repr

/-- `priority.value`. -/
def InvestigationPriority.value : InvestigationPriority → String
  | .low => "LOW"
  | .medium => "MEDIUM"
  | .high => "HIGH"
  | .urgent => "URGENT"

/-- `sorted(set(values))`. -/
def sortedSet (values : List String) : List String :=
  values.dedup.insertionSort (· ≤ ·)

/-! ## Rows -/

abbrev InvestigationId := ℕ

/-- A row of `investigations`. -/
structure InvestigationModel where
  status : InvestigationStatus := .open
  priority : InvestigationPriority := .medium
  assignedTo : Option String := none
  tagsJson : List String := []
  disposition : Option String := none
  version : ℕ := 1
  closedAt : Option Datetime := none
  deriving DecidableEq, Repr

/-- A row of `investigation_events`. -/
structure InvestigationEventModel where
  investigationId : InvestigationId
  eventType : String
  actorId : String
  detailsJson : JsonObject

structure InvestigationTables where
  investigations : InvestigationId → Option InvestigationModel
  events : List InvestigationEventModel := []

/-- The row that a lock on an investigation locks. -/
def InvestigationTables.row (id : InvestigationId) (tables : InvestigationTables) :
    Option InvestigationModel :=
  tables.investigations id

/-! ## The request -/

/-- The body of an update.  A field that is absent or null is `none`. -/
structure InvestigationUpdate where
  status : Option InvestigationStatus := none
  priority : Option InvestigationPriority := none
  assignedTo : Option String := none
  tags : Option (List String) := none
  disposition : Option String := none
  expectedVersion : ℕ
  assignedTo_length : ∀ value ∈ assignedTo, value.length ≤ 128 := by simp
  tags_length : ∀ value ∈ tags, value.length ≤ 20 := by simp
  disposition_length : ∀ value ∈ disposition, value.length ≤ 64 := by simp
  one_le_expectedVersion : 1 ≤ expectedVersion := by decide

namespace InvestigationUpdate

/-- `body.model_dump(exclude_none=True, exclude={"expected_version"})`. -/
def changes (body : InvestigationUpdate) : JsonObject :=
  .ofFields ((body.assignedTo.map fun value => ("assigned_to", Json.str value)).toList ++
    (body.disposition.map fun value => ("disposition", Json.str value)).toList ++
    (body.priority.map fun value => ("priority", Json.str value.value)).toList ++
    (body.status.map fun value => ("status", Json.str value.value)).toList ++
    (body.tags.map fun value => ("tags", Json.list (value.map Json.str))).toList)

/-- The row with the fields of the body, and its version raised by one. -/
def apply (body : InvestigationUpdate) (now : Datetime) (investigation : InvestigationModel) :
    InvestigationModel :=
  { status := body.status.getD investigation.status
    closedAt := if body.status = some .closed then some now else investigation.closedAt
    priority := body.priority.getD investigation.priority
    assignedTo := body.assignedTo <|> investigation.assignedTo
    tagsJson := (body.tags.map sortedSet).getD investigation.tagsJson
    disposition := body.disposition <|> investigation.disposition
    version := investigation.version + 1 }

end InvestigationUpdate

/-- An update of one investigation, by an actor, at an instant. -/
structure UpdateRequest where
  investigationId : InvestigationId
  body : InvestigationUpdate
  actorId : String
  now : Datetime

/-- The tables once the row is written and the event is added. -/
def InvestigationTables.updated (tables : InvestigationTables) (request : UpdateRequest)
    (investigation : InvestigationModel) : InvestigationTables where
  investigations := Function.update tables.investigations request.investigationId
    (some (request.body.apply request.now investigation))
  events := tables.events ++
    [{ investigationId := request.investigationId
       eventType := "UPDATED"
       actorId := request.actorId
       detailsJson := request.body.changes }]

/-- The writes of the update: the version is a 32-bit column and the actor one of 128 characters. -/
def InvestigationTables.flush (tables : InvestigationTables) (request : UpdateRequest)
    (investigation : InvestigationModel) : Except RequestError InvestigationTables :=
  if 2147483647 < investigation.version + 1 then .error (.dataError "version")
  else if 128 < request.actorId.length then .error (.dataError "actor_id")
  else .ok (tables.updated request investigation)

/-- The rest of `update_investigation`, with what was found and locked. -/
def updateFound (request : UpdateRequest) :
    Option InvestigationModel → Transaction InvestigationId InvestigationTables RequestError Unit
  | none => .raise (.httpException 404 "investigation not found")
  | some investigation =>
    if investigation.version ≠ request.body.expectedVersion then
      .raise (.httpException 409 "investigation version conflict")
    else .commit (fun tables => tables.flush request investigation) ()

/-- `update_investigation(investigation_id, body, actor_id)`. -/
def updateInvestigation (request : UpdateRequest) :
    Transaction InvestigationId InvestigationTables RequestError Unit :=
  .lock request.investigationId fun tables =>
    updateFound request (InvestigationTables.row request.investigationId tables)

end Api
end Scam2Market
