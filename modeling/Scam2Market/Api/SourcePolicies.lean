import Scam2Market.Library.Periods
import Scam2Market.Library.Rows
import Scam2Market.Library.Runs
import Scam2Market.Intelligence.Schemas
import Scam2Market.Api.Requests

/-!
# Source policies

`create_source_policy` and `patch_source_policy` of `api/routes/verification.py`, on the rows of
`source_policies` and the audit log.  A policy is in force during the half-open period from
`effective_from` to `effective_to`.  A patch does not change a policy: it ends its period and adds a
replacement.

* The bodies carry the constraints of their fields, and `PolicyTables` the unique keys of the table.
* A request is what it commits, or the error it raises; a refused request commits nothing (`step`).
* The timestamps of the database and the response that is rendered from a row are left out.
-/

namespace Scam2Market
namespace Api

open Intelligence (InUnit)
open Library (Period updateWhere)

/-! ## Rows -/

inductive ConnectorType where
  | rssAtom
  | githubReleases
  | secEdgar
  deriving DecidableEq, Repr

/-- A row of `source_policies`.  The JSON columns can hold a JSON `null`. -/
structure SourcePolicyModel where
  sourcePolicyId : String
  name : String
  sourceClass : String
  sourceType : String
  connectorType : ConnectorType
  connectorConfigJson : Option JsonObject
  enabled : Bool
  trustScore : ℚ
  trustTier : String
  trustRationale : Option String
  licenseAllowedUsagesJson : Option (List String)
  licenseRetentionDays : Option ℕ
  licenseAttribution : Option String
  licenseDisplayAllowed : Bool
  policyVersion : String
  canonicalDomainsJson : List String
  effectiveFrom : Datetime
  effectiveTo : Option Datetime
  createdBy : String
  updatedBy : String

/-- When the policy is in force. -/
def SourcePolicyModel.period (row : SourcePolicyModel) : Period Datetime :=
  ⟨row.effectiveFrom, row.effectiveTo⟩

/-- The row once its period has been ended. -/
def SourcePolicyModel.expiredAt (row : SourcePolicyModel) (effectiveTo : Datetime) :
    SourcePolicyModel :=
  { row with effectiveTo := some effectiveTo }

/-- `metadata_json` of the audit log, by the action it belongs to. -/
inductive AuditMetadata where
  | created (name policyVersion : String)
  | expired (effectiveTo : Datetime) (replacementSourcePolicyId : String)
  | replaced (replacesSourcePolicyId previousPolicyVersion newPolicyVersion : String)
      (changedFields : List String)
  deriving DecidableEq, Repr

/-- A row of `audit_logs`. -/
structure AuditLogModel where
  tenantId : String
  actorId : String
  action : String
  targetType : String := "source_policy"
  targetId : String
  metadataJson : AuditMetadata
  deriving DecidableEq, Repr

/-- The tables; the primary key and the key of a name and a version are unique. -/
structure PolicyTables where
  policies : List SourcePolicyModel := []
  auditLogs : List AuditLogModel := []
  ids_nodup : (policies.map SourcePolicyModel.sourcePolicyId).Nodup := by simp
  versions_nodup : (policies.map fun row => (row.name, row.policyVersion)).Nodup := by simp

/-! ## Requests -/

/-- Who makes the request. -/
structure Principal where
  subject : String
  tenantId : String

/-- `SourcePolicyInput`. -/
structure SourcePolicyInput where
  name : String
  sourceClass : String
  sourceType : String
  connectorType : ConnectorType
  connectorConfig : JsonObject
  enabled : Bool := true
  trustScore : ℚ
  trustTier : String
  trustRationale : Option String := none
  licenseAllowedUsages : List String
  licenseRetentionDays : Option ℕ := none
  licenseAttribution : Option String := none
  licenseDisplayAllowed : Bool := false
  policyVersion : String
  canonicalDomains : List String
  effectiveFrom : Datetime
  effectiveTo : Option Datetime := none
  name_length : 1 ≤ name.length ∧ name.length ≤ 255 := by decide
  sourceClass_length : 1 ≤ sourceClass.length ∧ sourceClass.length ≤ 64 := by decide
  sourceType_length : 1 ≤ sourceType.length ∧ sourceType.length ≤ 64 := by decide
  trustScore_mem : InUnit trustScore := by norm_num [Intelligence.InUnit]
  trustTier_length : 1 ≤ trustTier.length ∧ trustTier.length ≤ 32 := by decide
  policyVersion_length : 1 ≤ policyVersion.length ∧ policyVersion.length ≤ 64 := by decide

/-- `SourcePolicyModel(**_policy_columns(body.model_dump()), ...)`. -/
def SourcePolicyInput.row (body : SourcePolicyInput) (principal : Principal) (fresh : String) :
    SourcePolicyModel :=
  { sourcePolicyId := fresh
    name := body.name
    sourceClass := body.sourceClass
    sourceType := body.sourceType
    connectorType := body.connectorType
    connectorConfigJson := some body.connectorConfig
    enabled := body.enabled
    trustScore := body.trustScore
    trustTier := body.trustTier
    trustRationale := body.trustRationale
    licenseAllowedUsagesJson := some body.licenseAllowedUsages
    licenseRetentionDays := body.licenseRetentionDays
    licenseAttribution := body.licenseAttribution
    licenseDisplayAllowed := body.licenseDisplayAllowed
    policyVersion := body.policyVersion
    canonicalDomainsJson := body.canonicalDomains
    effectiveFrom := body.effectiveFrom
    effectiveTo := body.effectiveTo
    createdBy := principal.subject
    updatedBy := principal.subject }

/-- `SourcePolicyPatch`.  A field that is not set is `none`; one that is set may be null. -/
structure SourcePolicyPatch where
  policyVersion : String
  enabled : Option (Option Bool) := none
  connectorConfig : Option (Option JsonObject) := none
  trustScore : Option (Option ℚ) := none
  trustTier : Option (Option String) := none
  trustRationale : Option (Option String) := none
  licenseAllowedUsages : Option (Option (List String)) := none
  licenseRetentionDays : Option (Option ℕ) := none
  licenseAttribution : Option (Option String) := none
  licenseDisplayAllowed : Option (Option Bool) := none
  effectiveTo : Option (Option Datetime) := none
  policyVersion_length : 1 ≤ policyVersion.length ∧ policyVersion.length ≤ 64 := by decide
  trustScore_mem : ∀ value ∈ trustScore, ∀ q ∈ value, InUnit q := by simp

/-- `sorted(body.model_fields_set)`. -/
def SourcePolicyPatch.modelFieldsSet (body : SourcePolicyPatch) : List String :=
  [("connector_config", body.connectorConfig.isSome), ("effective_to", body.effectiveTo.isSome),
    ("enabled", body.enabled.isSome),
    ("license_allowed_usages", body.licenseAllowedUsages.isSome),
    ("license_attribution", body.licenseAttribution.isSome),
    ("license_display_allowed", body.licenseDisplayAllowed.isSome),
    ("license_retention_days", body.licenseRetentionDays.isSome), ("policy_version", true),
    ("trust_rationale", body.trustRationale.isSome), ("trust_score", body.trustScore.isSome),
    ("trust_tier", body.trustTier.isSome)].filterMap fun item =>
      if item.2 then some item.1 else none

/-- `_validate_policy_domains(connector_type, canonical_domains)`. -/
def validatePolicyDomains (connectorType : ConnectorType) (canonicalDomains : List String) :
    Except RequestError Unit :=
  raiseIf (connectorType = .rssAtom ∧ canonicalDomains = [])
    (.httpException 422 "RSS_ATOM policies require canonical_domains")

/-- `_validate_policy_window(effective_from, effective_to, now)`. -/
def validatePolicyWindow (effectiveFrom : Datetime) (effectiveTo : Option Datetime)
    (now : Datetime) : Except RequestError Unit := do
  raiseIf (effectiveFrom < now) (.httpException 422 "effective_from cannot be backdated")
  raiseIf (∃ stop ∈ effectiveTo, stop ≤ effectiveFrom)
    (.httpException 422 "effective_to must be after effective_from")

namespace PolicyTables

variable (t : PolicyTables)

/-- Insert a row; the unique keys of the table are checked. -/
def insert (row : SourcePolicyModel) : Except RequestError PolicyTables :=
  if hid : row.sourcePolicyId ∈ t.policies.map SourcePolicyModel.sourcePolicyId then
    .error (.integrityError "source_policies_pkey")
  else if hversion : (row.name, row.policyVersion) ∈
      t.policies.map fun row => (row.name, row.policyVersion) then
    .error (.integrityError "uq_source_policy_version")
  else .ok
    { t with
      policies := t.policies ++ [row]
      ids_nodup := by
        rw [List.map_append]
        exact t.ids_nodup.append (List.nodup_singleton _) (by simpa using hid)
      versions_nodup := by
        rw [List.map_append]
        exact t.versions_nodup.append (List.nodup_singleton _) (by simpa using hversion) }

/-- End the period of the policy: the only change to a policy. -/
def expire (sourcePolicyId : String) (effectiveTo : Datetime) : PolicyTables :=
  { t with
    policies := updateWhere (fun row => row.sourcePolicyId = sourcePolicyId)
      (fun row => row.expiredAt effectiveTo) t.policies
    ids_nodup := by
      have hkeys : (updateWhere (fun row => row.sourcePolicyId = sourcePolicyId)
          (fun row => row.expiredAt effectiveTo) t.policies).map
            SourcePolicyModel.sourcePolicyId =
          t.policies.map SourcePolicyModel.sourcePolicyId :=
        Library.map_updateWhere fun _ => rfl
      exact hkeys ▸ t.ids_nodup
    versions_nodup := by
      have hkeys : (updateWhere (fun row => row.sourcePolicyId = sourcePolicyId)
          (fun row => row.expiredAt effectiveTo) t.policies).map
            (fun row => (row.name, row.policyVersion)) =
          t.policies.map fun row => (row.name, row.policyVersion) :=
        Library.map_updateWhere fun _ => rfl
      exact hkeys ▸ t.versions_nodup }

/-- `session.add(AuditLogModel(...))`. -/
def audit (logs : List AuditLogModel) : PolicyTables :=
  { t with auditLogs := t.auditLogs ++ logs }

/-- `overlap_query`. -/
def overlapping (body : SourcePolicyInput) : List SourcePolicyModel :=
  t.policies.filter fun row =>
    row.name = body.name ∧ (∀ stop ∈ row.effectiveTo, body.effectiveFrom < stop) ∧
      ∀ stop ∈ body.effectiveTo, row.effectiveFrom < stop

/-- `create_source_policy(body, principal)` at the instant `now`; `fresh` is the new id. -/
def createSourcePolicy (principal : Principal) (now : Datetime) (fresh : String)
    (body : SourcePolicyInput) : Except RequestError PolicyTables := do
  validatePolicyDomains body.connectorType body.canonicalDomains
  validatePolicyWindow body.effectiveFrom body.effectiveTo now
  raiseIf (t.overlapping body ≠ []) (.httpException 409
    "an overlapping policy exists for this source; create a replacement with PATCH")
  let tables ← t.insert (body.row principal fresh)
  return tables.audit
    [{ tenantId := principal.tenantId
       actorId := principal.subject
       action := "source_policy.created"
       targetId := fresh
       metadataJson := .created body.name body.policyVersion }]

/-- `dict(value)` and `list(value)`: the copy of a JSON column, unless it is null. -/
def copied {α : Type} (operation : String) (value : Option α) : Except RequestError α :=
  match value with
  | some content => .ok content
  | none => .error (.typeError operation)

/-- The replacement of a policy: its values, with the changes.  A flag that is set to null falls back
to the default of its column. -/
def replacement (principal : Principal) (now : Datetime) (fresh : String)
    (body : SourcePolicyPatch) (row : SourcePolicyModel) (config : JsonObject)
    (usages : List String) (trustScore : ℚ) (trustTier : String) : SourcePolicyModel :=
  { sourcePolicyId := fresh
    name := row.name
    sourceClass := row.sourceClass
    sourceType := row.sourceType
    connectorType := row.connectorType
    connectorConfigJson := body.connectorConfig.getD (some config)
    enabled := (body.enabled.getD (some row.enabled)).getD true
    trustScore := trustScore
    trustTier := trustTier
    trustRationale := body.trustRationale.getD row.trustRationale
    licenseAllowedUsagesJson := body.licenseAllowedUsages.getD (some usages)
    licenseRetentionDays := body.licenseRetentionDays.getD row.licenseRetentionDays
    licenseAttribution := body.licenseAttribution.getD row.licenseAttribution
    licenseDisplayAllowed :=
      (body.licenseDisplayAllowed.getD (some row.licenseDisplayAllowed)).getD false
    policyVersion := body.policyVersion
    canonicalDomainsJson := row.canonicalDomainsJson
    effectiveFrom := now
    effectiveTo := body.effectiveTo.getD none
    createdBy := principal.subject
    updatedBy := principal.subject }

/-- A column that must not be null. -/
def required {α : Type} (column : String) (value : Option α) : Except RequestError α :=
  match value with
  | some content => .ok content
  | none => .error (.integrityError column)

/-- `patch_source_policy(source_policy_id, body, principal)` at the instant `now`; `fresh` is the id of
the replacement. -/
def patchSourcePolicy (principal : Principal) (now : Datetime) (fresh sourcePolicyId : String)
    (body : SourcePolicyPatch) : Except RequestError PolicyTables :=
  match t.policies.find? fun row => row.sourcePolicyId = sourcePolicyId with
  | none => .error (.httpException 404 "source policy not found")
  | some row => do
    raiseIf (∃ stop ∈ row.effectiveTo, stop ≤ now)
      (.httpException 409 "historical source policy cannot be patched")
    raiseIf (body.policyVersion = row.policyVersion)
      (.httpException 409 "replacement policy_version must be new")
    raiseIf (∃ other ∈ t.policies, other.name = row.name ∧ other.policyVersion = body.policyVersion)
      (.httpException 409 "policy_version already exists for source")
    let config ← copied "dict" row.connectorConfigJson
    let usages ← copied "list" row.licenseAllowedUsagesJson
    validatePolicyDomains row.connectorType row.canonicalDomainsJson
    raiseIf (∃ stop ∈ body.effectiveTo.getD none, stop ≤ now)
      (.httpException 422 "effective_to must be after replacement time")
    -- the insertion of the replacement, once the policy has expired
    let trustScore ← required "trust_score" (body.trustScore.getD (some row.trustScore))
    let trustTier ← required "trust_tier" (body.trustTier.getD (some row.trustTier))
    raiseIf (32 < trustTier.length) (.dataError "trust_tier")
    let tables ← (t.expire sourcePolicyId now).insert
      (replacement principal now fresh body row config usages trustScore trustTier)
    return tables.audit
      [{ tenantId := principal.tenantId
         actorId := principal.subject
         action := "source_policy.expired"
         targetId := sourcePolicyId
         metadataJson := .expired now fresh },
        { tenantId := principal.tenantId
          actorId := principal.subject
          action := "source_policy.replaced"
          targetId := fresh
          metadataJson :=
            .replaced sourcePolicyId row.policyVersion body.policyVersion body.modelFieldsSet }]

end PolicyTables

/-- A request, at the instant `now` and with the id that `uuid4` makes for it. -/
inductive PolicyRequest where
  | create (principal : Principal) (now : Datetime) (fresh : String) (body : SourcePolicyInput)
  | patch (principal : Principal) (now : Datetime) (fresh sourcePolicyId : String)
      (body : SourcePolicyPatch)

namespace PolicyTables

/-- What a request commits, or what it raises. -/
def handle (t : PolicyTables) : PolicyRequest → Except RequestError PolicyTables
  | .create principal now fresh body => t.createSourcePolicy principal now fresh body
  | .patch principal now fresh sourcePolicyId body =>
    t.patchSourcePolicy principal now fresh sourcePolicyId body

/-- The tables after a request; one that is refused leaves them as they are. -/
def step (t : PolicyTables) (request : PolicyRequest) : PolicyTables :=
  match t.handle request with
  | .ok tables => tables
  | .error _ => t

end PolicyTables
end Api
end Scam2Market
