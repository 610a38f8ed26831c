import Scam2Market.Python.Values

/-!
# Canonical events

`schemas/events.py`: the envelope in which the services publish what they have computed.  The text of
a source event id is kept as the parts it is formatted from (`ν`), and the payload as the value it is
a dump of (`π`).

An event carries what its validators check, so an event without a partition key, or a replay event
without a session, cannot be built.  The correlation id of the trace is a random one unless the
publisher passes its own.
-/

namespace Scam2Market
namespace Streaming

inductive EventType where
  | featureWindowUpdated
  | featureWindowFinalized
  | featureWindowCorrected
  | modelFusionScored
  | campaignCreated
  | campaignStageChanged
  | campaignClosed
  | alertCreated
  | alertSeverityChanged
  | alertRefreshed
  deriving DecidableEq, Repr

/-- Whether an event belongs to a replay, and to which session. -/
structure ReplayMetadata where
  isReplay : Bool := false
  replaySessionId : Option String := none
  session_required : isReplay = true → ∃ session ∈ replaySessionId, session ≠ "" := by simp

/-- `ReplayMetadata(is_replay=..., replay_session_id=...)`. -/
def ReplayMetadata.validate (isReplay : Bool) (replaySessionId : Option String) :
    Except PyError ReplayMetadata :=
  if h : isReplay = true → ∃ session ∈ replaySessionId, session ≠ "" then
    .ok ⟨isReplay, replaySessionId, h⟩
  else .error (.ofValidator "replay_session_id is required when is_replay is true")

/-- The metadata of a scope: every scope but LIVE is a replay session. -/
def ReplayMetadata.ofScope (scopeId : String) : Except PyError ReplayMetadata :=
  ReplayMetadata.validate (decide (scopeId ≠ "LIVE"))
    (if scopeId ≠ "LIVE" then some scopeId else none)

/-- Only the scope without a name has no metadata. -/
theorem ReplayMetadata.ofScope_succeeds {scopeId : String} (h : scopeId ≠ "") :
    ∃ replay, ReplayMetadata.ofScope scopeId = .ok replay := by
  have hsession : decide (scopeId ≠ "LIVE") = true →
      ∃ session ∈ (if scopeId ≠ "LIVE" then some scopeId else none), session ≠ "" := by
    intro hlive
    rw [if_pos (of_decide_eq_true hlive)]
    exact ⟨scopeId, rfl, h⟩
  rw [ofScope, validate, dif_pos hsession]
  exact ⟨_, rfl⟩

/-- The fields of an event, before they are validated. -/
structure EventFields (ν π : Type) where
  eventId : Uuid (String × ν)
  eventType : EventType
  schemaVersion : ℕ := 1
  source : String
  sourceEventId : ν
  assetId : String
  eventTime : Datetime
  ingestedAt : Datetime
  processedAt : Datetime
  partitionKey : String
  replay : ReplayMetadata
  correlationId : Option String := none
  causationId : Option String := none
  payload : π

/-- A validated event. -/
structure CanonicalEvent (ν π : Type) extends EventFields ν π where
  schemaVersion_pos : 1 ≤ schemaVersion
  source_nonblank : isBlank source = false
  partitionKey_nonblank : isBlank partitionKey = false

variable {ν π : Type}

/-- `origin_event_id`: the source and the id there. -/
def CanonicalEvent.originEventId (event : CanonicalEvent ν π) : String × ν :=
  (event.source, event.sourceEventId)

/-- `delivery_event_id`. -/
def CanonicalEvent.deliveryEventId (event : CanonicalEvent ν π) : Uuid (String × ν) :=
  event.eventId

/-- The fields that are refused.  A source event id is formatted with separators and never blank. -/
def EventFields.refused (fields : EventFields ν π) : List (String × String) :=
  (if 1 ≤ fields.schemaVersion then []
    else [("schema_version", "Input should be greater than or equal to 1")]) ++
  (if isBlank fields.source = false then []
    else [("source", "Value error, value cannot be blank")]) ++
  (if isBlank fields.partitionKey = false then []
    else [("partition_key", "Value error, partition_key cannot be blank")])

/-- `CanonicalEvent(...)`. -/
def EventFields.validate (fields : EventFields ν π) : Except PyError (CanonicalEvent ν π) :=
  if h : 1 ≤ fields.schemaVersion ∧ isBlank fields.source = false ∧
      isBlank fields.partitionKey = false then
    .ok ⟨fields, h.1, h.2.1, h.2.2⟩
  else .error (.validationError fields.refused)

/-- The validator changes nothing. -/
theorem EventFields.validate_eq_ok {fields : EventFields ν π} {event : CanonicalEvent ν π}
    (h : fields.validate = .ok event) : event.toEventFields = fields := by
  rw [validate] at h
  split_ifs at h
  rw [← Except.ok.inj h]

theorem EventFields.validate_succeeds {fields : EventFields ν π} (hversion : 1 ≤ fields.schemaVersion)
    (hsource : isBlank fields.source = false) (hpartition : isBlank fields.partitionKey = false) :
    ∃ event, fields.validate = .ok event := by
  rw [validate, dif_pos ⟨hversion, hsource, hpartition⟩]
  exact ⟨_, rfl⟩

end Streaming
end Scam2Market
