import Mathlib.Data.List.Dedup
import Mathlib.Data.List.Sort
import Mathlib.Logic.Function.Basic
import Scam2Market.Api.Requests
import Scam2Market.Library.TwoPhaseLocking
import Scam2Market.Python.Values

/-!
# Service accounts and their keys

`create_service_account`, `rotate_service_key` and `revoke_service_key` of `api/routes/auth.py`, and
`parse_service_key` and `_authenticate_service_key` of `security/auth.py`, as transactions on
`service_accounts`, `service_account_keys` and `auth_events`.

* A `SELECT ... FOR UPDATE` looks for its rows, locks them and looks at them again.
* What `_new_key` draws, the id and the secret, and the clock are given with a request (`FreshKey`); that
  an id is new is checked by the primary key.
* `hash_service_secret` is a digest of the pepper and the text of the key.
* The permission of the caller is checked before a handler is called, and is left out.
-/

namespace Scam2Market
namespace Security
namespace ServiceKeys

open Api (RequestError)
open Library (Transaction)

inductive Role where
  | platformAdmin
  | tenantAdmin
  | analyst
  | reviewer
  | viewer
  | service
  deriving DecidableEq, Repr

/-- `role.value`. -/
def Role.value : Role → String
  | .platformAdmin => "PLATFORM_ADMIN"
  | .tenantAdmin => "TENANT_ADMIN"
  | .analyst => "ANALYST"
  | .reviewer => "REVIEWER"
  | .viewer => "VIEWER"
  | .service => "SERVICE"

/-- The settings that the handlers read. -/
structure Settings where
  serviceKeyPepper : String := "development-only-service-key-pepper"
  serviceKeyDefaultTtlDays : ℕ := 90

/-! ## Raw keys -/

abbrev KeyId := String

/-- `hash_service_secret(key_id, secret, pepper)`, as the pepper and the message. -/
def hashServiceSecret (keyId secret pepper : String) : Digest (String × String) :=
  ⟨(pepper, keyId ++ "." ++ secret)⟩

/-- `parse_service_key(raw_key)`. -/
def parseServiceKey (rawKey : String) : Option (KeyId × String) :=
  if ¬ "s2m_".toList <+: rawKey.toList ∨ '.' ∉ rawKey.toList then none
  else
    let parts := (rawKey.toList.drop 4).span (· ≠ '.')
    let secret := parts.2.drop 1
    if parts.1.length ≠ 16 ∨ secret = [] then none
    else some (String.ofList parts.1, String.ofList secret)

/-- What `generate_service_key()` draws, and the instant of `_new_key`. -/
structure FreshKey where
  keyId : KeyId
  secret : String
  now : Datetime
  keyId_length : keyId.toList.length = 16 := by decide
  keyId_chars : '.' ∉ keyId.toList := by decide

/-- The raw key. -/
def FreshKey.rawKey (fresh : FreshKey) : String :=
  "s2m_" ++ fresh.keyId ++ "." ++ fresh.secret

/-! ## Rows -/

abbrev AccountId := ℕ

/-- A row of `service_accounts`. -/
structure ServiceAccountModel where
  tenantId : String
  name : String
  rolesJson : List Role
  status : String := "ACTIVE"
  createdBy : String
  deriving DecidableEq, Repr

/-- A row of `service_account_keys`. -/
structure ServiceAccountKeyModel where
  serviceAccountId : AccountId
  secretHash : Digest (String × String)
  keyPrefix : String
  createdBy : String
  expiresAt : Datetime
  lastUsedAt : Option Datetime := none
  revokedAt : Option Datetime := none
  rotatedFromKeyId : Option KeyId := none
  deriving DecidableEq, Repr

/-- A row of `auth_events`. -/
structure AuthEventModel where
  tenantId : String
  subject : String
  eventType : String
  authMethod : String
  success : Bool
  keyId : KeyId
  deriving DecidableEq, Repr

structure KeyTables where
  tenants : List String := []
  accounts : AccountId → Option ServiceAccountModel := fun _ => none
  keys : KeyId → Option ServiceAccountKeyModel := fun _ => none
  authEvents : List AuthEventModel := []

/-- The rows that can be locked. -/
inductive RowKey where
  | account (id : AccountId)
  | key (id : KeyId)
  deriving DecidableEq, Repr

namespace KeyTables

/-- The row that a lock locks. -/
def row : RowKey → KeyTables → Option (ServiceAccountModel ⊕ ServiceAccountKeyModel)
  | .account id, tables => (tables.accounts id).map Sum.inl
  | .key id, tables => (tables.keys id).map Sum.inr

/-- The account of the id, in the tenant. -/
def account? (accountId : AccountId) (tenantId : String) (tables : KeyTables) :
    Option ServiceAccountModel :=
  (tables.accounts accountId).filter (·.tenantId = tenantId)

/-- The key of the id, of the account. -/
def key? (keyId : KeyId) (accountId : AccountId) (tables : KeyTables) :
    Option ServiceAccountKeyModel :=
  (tables.keys keyId).filter (·.serviceAccountId = accountId)

/-- The key of the id, of the account, in the tenant. -/
def keyOfTenant? (keyId : KeyId) (accountId : AccountId) (tenantId : String) (tables : KeyTables) :
    Option ServiceAccountKeyModel :=
  if (tables.account? accountId tenantId).isSome then tables.key? keyId accountId else none

/-- The key of the id, with its account. -/
def joined? (keyId : KeyId) (tables : KeyTables) :
    Option (ServiceAccountKeyModel × ServiceAccountModel) :=
  (tables.keys keyId).bind fun key =>
    (tables.accounts key.serviceAccountId).map fun account => (key, account)

end KeyTables

/-! ## Requests -/

structure Principal where
  subject : String
  tenantId : String

structure ServiceAccountCreate where
  name : String
  roles : List Role := [.service]
  ttlDays : Option ℕ := none
  name_length : 2 ≤ name.length ∧ name.length ≤ 128 := by decide
  ttlDays_range : ∀ days ∈ ttlDays, 1 ≤ days ∧ days ≤ 365 := by simp

/-- The response with the new key. -/
structure AccountResponse where
  serviceAccountId : AccountId
  tenantId : String
  name : String
  roles : List Role
  status : String
  keyId : KeyId
  secret : String
  expiresAt : Datetime
  displayedOnce : Bool := true
  deriving DecidableEq, Repr

/-- The identity of a request that was authenticated with a service key. -/
structure ServicePrincipal where
  subject : String
  tenantId : String
  roles : List Role
  authMethod : String := "service_key"
  serviceAccountId : AccountId
  deriving DecidableEq, Repr

/-- What a request returns. -/
inductive Answer where
  | account (response : AccountResponse)
  | noContent
  | principal (principal : ServicePrincipal)
  deriving DecidableEq, Repr

section Handlers

variable (settings : Settings)

abbrev KeyTransaction : Type :=
  Transaction RowKey KeyTables RequestError Answer

/-- `_new_key(account_id, actor, ttl_days, rotated_from)`. -/
def newKey (accountId : AccountId) (actor : String) (fresh : FreshKey) (ttlDays : Option ℕ)
    (rotatedFrom : Option KeyId) : ServiceAccountKeyModel where
  serviceAccountId := accountId
  secretHash := hashServiceSecret fresh.keyId fresh.secret settings.serviceKeyPepper
  keyPrefix := "s2m_" ++ fresh.keyId
  createdBy := actor
  expiresAt := fresh.now + 86400000000 * (ttlDays.getD settings.serviceKeyDefaultTtlDays : ℕ)
  rotatedFromKeyId := rotatedFrom

/-- `_account_response(account, raw_key, key)`. -/
def accountResponse (accountId : AccountId) (account : ServiceAccountModel) (fresh : FreshKey)
    (key : ServiceAccountKeyModel) : AccountResponse where
  serviceAccountId := accountId
  tenantId := account.tenantId
  name := account.name
  roles := account.rolesJson
  status := account.status
  keyId := fresh.keyId
  secret := fresh.rawKey
  expiresAt := key.expiresAt

/-- The row of a new account; the roles stand in the order of their values. -/
def newAccount (body : ServiceAccountCreate) (principal : Principal) : ServiceAccountModel where
  tenantId := principal.tenantId
  name := body.name
  rolesJson := body.roles.insertionSort fun role other => role.value ≤ other.value
  createdBy := principal.subject

/-- The `INSERT` of an account and its first key. -/
def insertAccount (accountId : AccountId) (account : ServiceAccountModel) (keyId : KeyId)
    (key : ServiceAccountKeyModel) (tables : KeyTables) : Except RequestError KeyTables :=
  if 255 < account.createdBy.length then .error (.dataError "created_by")
  else if account.tenantId ∉ tables.tenants then
    .error (.integrityError "service_accounts_tenant_id_fkey")
  else if (tables.accounts accountId).isSome then .error (.integrityError "service_accounts_pkey")
  else if (tables.keys keyId).isSome then .error (.integrityError "service_account_keys_pkey")
  else .ok { tables with
    accounts := Function.update tables.accounts accountId (some account)
    keys := Function.update tables.keys keyId (some key) }

/-- `create_service_account(body, principal)`. -/
def createServiceAccount (body : ServiceAccountCreate) (principal : Principal) (accountId : AccountId)
    (fresh : FreshKey) : KeyTransaction :=
  if ¬ body.roles ⊆ [.service, .viewer] then
    .raise (.httpException 422 "service accounts may only receive SERVICE and VIEWER roles")
  else
    let account := newAccount body principal
    let key := newKey settings accountId principal.subject fresh body.ttlDays none
    .commit (insertAccount accountId account fresh.keyId key)
      (.account (accountResponse accountId account fresh key))

/-- The `UPDATE` of the old key and the `INSERT` of the new one. -/
def replaceKey (keyId : KeyId) (now : Datetime) (newKeyId : KeyId) (key : ServiceAccountKeyModel)
    (tables : KeyTables) : Except RequestError KeyTables :=
  if 255 < key.createdBy.length then .error (.dataError "created_by")
  else if (tables.keys newKeyId).isSome then .error (.integrityError "service_account_keys_pkey")
  else .ok { tables with
    keys := Function.update
      (Function.update tables.keys keyId
        ((tables.keys keyId).map fun old => { old with revokedAt := some now }))
      newKeyId (some key) }

/-- The rest of `rotate_service_key`, with the account and the key. -/
def rotateFound (accountId : AccountId) (keyId : KeyId) (principal : Principal) (now : Datetime)
    (fresh : FreshKey) :
    Option ServiceAccountModel → Option ServiceAccountKeyModel → KeyTransaction
  | some account, some oldKey =>
    if oldKey.revokedAt.isSome then
      .raise (.httpException 409 "service account key is already revoked")
    else
      let key := newKey settings accountId principal.subject fresh none (some keyId)
      .commit (replaceKey keyId now fresh.keyId key)
        (.account (accountResponse accountId account fresh key))
  | _, _ => .raise (.httpException 404 "service account key not found")

/-- `rotate_service_key(account_id, key_id, principal)`. -/
def rotateServiceKey (accountId : AccountId) (keyId : KeyId) (principal : Principal) (now : Datetime)
    (fresh : FreshKey) : KeyTransaction :=
  .selectForUpdate (KeyTables.account? accountId principal.tenantId) [.account accountId] fun account =>
    .selectForUpdate (KeyTables.key? keyId accountId) [.key keyId] fun oldKey =>
      rotateFound settings accountId keyId principal now fresh account oldKey

/-- The rest of `revoke_service_key`, with the key: an instant that is set is kept. -/
def revokeFound (keyId : KeyId) (now : Datetime) : Option ServiceAccountKeyModel → KeyTransaction
  | none => .raise (.httpException 404 "service account key not found")
  | some key =>
    .commit (fun tables => .ok { tables with
      keys := Function.update tables.keys keyId
        ((tables.keys keyId).map fun row => { row with revokedAt := key.revokedAt <|> some now }) })
      .noContent

/-- `revoke_service_key(account_id, key_id, principal)`: the rows of the join are locked. -/
def revokeServiceKey (accountId : AccountId) (keyId : KeyId) (principal : Principal)
    (now : Datetime) : KeyTransaction :=
  .selectForUpdate (KeyTables.keyOfTenant? keyId accountId principal.tenantId)
    [.key keyId, .account accountId] (revokeFound keyId now)

/-! ## Authentication -/

/-- `valid`. -/
def valid (keyId : KeyId) (secret : String) (now : Datetime) (key : ServiceAccountKeyModel)
    (account : ServiceAccountModel) : Bool :=
  hashServiceSecret keyId secret settings.serviceKeyPepper = key.secretHash ∧
    key.revokedAt = none ∧ now < key.expiresAt ∧ account.status = "ACTIVE"

/-- The `UPDATE` of the time the key was last used, and the event. -/
def touchKey (keyId : KeyId) (now : Datetime) (event : AuthEventModel) (tables : KeyTables) :
    Except RequestError KeyTables :=
  .ok { tables with
    keys := Function.update tables.keys keyId
      ((tables.keys keyId).map fun key => { key with lastUsedAt := some now })
    authEvents := tables.authEvents ++ [event] }

def serviceSubject (accountId : AccountId) : String :=
  "service-account:" ++ toString accountId

/-- The rest of `_authenticate_service_key`, with the row of the join. -/
def authenticateFound (keyId : KeyId) (secret : String) (now : Datetime) :
    Option (ServiceAccountKeyModel × ServiceAccountModel) → KeyTransaction
  | none => .raise (.httpException 401 "invalid service account key")
  | some (key, account) =>
    if valid settings keyId secret now key account then
      .lock (.key keyId) fun tables =>
        if (tables.keys keyId).isNone then .raise (.staleDataError "service_account_keys")
        else .commit (touchKey keyId now
            { tenantId := account.tenantId
              subject := serviceSubject key.serviceAccountId
              eventType := "SERVICE_KEY_AUTHENTICATED"
              authMethod := "service_key"
              success := true
              keyId := keyId })
          (.principal
            { subject := serviceSubject key.serviceAccountId
              tenantId := account.tenantId
              roles := account.rolesJson.dedup
              serviceAccountId := key.serviceAccountId })
    else .raise (.httpException 401 "invalid or expired service account key")

/-- `_authenticate_service_key(raw_key)`. -/
def authenticateServiceKey (rawKey : String) (now : Datetime) : KeyTransaction :=
  match parseServiceKey rawKey with
  | none => .raise (.httpException 401 "invalid service account key")
  | some (keyId, secret) =>
    .select fun tables => authenticateFound settings keyId secret now (tables.joined? keyId)

/-- The requests about service keys. -/
inductive Request where
  | create (body : ServiceAccountCreate) (principal : Principal) (accountId : AccountId)
      (fresh : FreshKey)
  | rotate (accountId : AccountId) (keyId : KeyId) (principal : Principal) (now : Datetime)
      (fresh : FreshKey)
  | revoke (accountId : AccountId) (keyId : KeyId) (principal : Principal) (now : Datetime)
  | authenticate (rawKey : String) (now : Datetime)

/-- The handler of a request. -/
def Request.handler : Request → KeyTransaction
  | create body principal accountId fresh =>
    createServiceAccount settings body principal accountId fresh
  | rotate accountId keyId principal now fresh =>
    rotateServiceKey settings accountId keyId principal now fresh
  | revoke accountId keyId principal now => revokeServiceKey accountId keyId principal now
  | authenticate rawKey now => authenticateServiceKey settings rawKey now

end Handlers

end ServiceKeys
end Security
end Scam2Market
