import Mathlib.Data.List.Infix
import Scam2Market.Security.KeyRotation

/-!
# What a service key may do

`ROLE_PERMISSIONS`, `Principal.has_permission`, `require_permission` and `authorize_api_request` of
`security/auth.py`, over the runs of the requests about service keys.

* `hasPermission_limited`: with the two roles that a service account can receive come three permissions.
* `Permitted`: what a request can commit.  It keeps the accounts that stand, and what a tenant other than
  its caller's has.
* `service_keys_confined`: so it is in every interleaving, and what a service key lets its bearer do
  follows from the row of its account.
-/

namespace Scam2Market
namespace Security
namespace ServiceKeys

open Api (RequestError)
open KeyTables (row)
open Library (Transaction Database Move Commit Session run)

/-! ## Permissions -/

/-- `ROLE_PERMISSIONS`. -/
def rolePermissions : Role → List String
  | .platformAdmin => ["*"]
  | .tenantAdmin =>
    ["tenant:manage", "service-account:manage", "notification:manage", "investigation:write",
      "alert:write", "read"]
  | .analyst => ["investigation:write", "alert:write", "feedback:write", "read"]
  | .reviewer => ["feedback:adjudicate", "policy:approve", "read"]
  | .viewer => ["read"]
  | .service => ["ingestion:write", "checkpoint:write", "read"]

/-- `principal.has_permission(permission)`, of the roles of the principal. -/
def hasPermission (roles : List Role) (permission : String) : Bool :=
  roles.any fun role => "*" ∈ rolePermissions role ∨ permission ∈ rolePermissions role

/-- The dependency of `require_permission(permission)`. -/
def requirePermission (permission : String) (roles : List Role) : Except RequestError Unit :=
  Api.raiseIf (hasPermission roles permission = false)
    (.httpException 403 ("permission required: " ++ permission))

/-- `part in path`. -/
def isPartOf (part path : String) : Bool :=
  part.toList <:+: path.toList

/-- `required`: one of these permissions is enough. -/
def requiredPermissions (method path : String) : List String :=
  if method ∈ ["GET", "HEAD", "OPTIONS"] then ["read"]
  else if isPartOf "/source-policies" path then ["source-policy:manage"]
  else if "/decision".toList <:+ path.toList ∨ isPartOf "/models/" path then ["policy:approve"]
  else if isPartOf "/operations/model-drift" path ∨ isPartOf "/surveillance" path then
    ["ingestion:write"]
  else ["investigation:write", "alert:write", "feedback:write"]

/-- `authorize_api_request(request, principal)`. -/
def authorizeApiRequest (method path : String) (roles : List Role) : Except RequestError Unit :=
  Api.raiseIf ((requiredPermissions method path).any (hasPermission roles) = false)
    (.httpException 403
      ("one permission required: " ++ ", ".intercalate (requiredPermissions method path)))

/-- A route about service keys, with `Depends(require_permission("service-account:manage"))`. -/
def administer (settings : Settings) (roles : List Role) (request : Request) : KeyTransaction :=
  match requirePermission "service-account:manage" roles with
  | .error error => .raise error
  | .ok () => request.handler settings

/-- The roles that a service account can receive. -/
def IsLimited (roles : List Role) : Prop :=
  ∀ role ∈ roles, role = .service ∨ role = .viewer

variable {roles : List Role}

theorem hasPermission_limited (h : IsLimited roles) (permission : String) :
    hasPermission roles permission = true ↔ (permission = "read" ∧ roles ≠ []) ∨
      (permission = "ingestion:write" ∨ permission = "checkpoint:write") ∧ .service ∈ roles := by
  rw [hasPermission, List.any_eq_true]
  constructor
  · rintro ⟨role, hrole, hheld⟩
    have hne : roles ≠ [] := List.ne_nil_of_mem hrole
    obtain rfl | rfl := h role hrole
    · have hcases : permission = "ingestion:write" ∨ permission = "checkpoint:write" ∨
          permission = "read" := by
        simpa [rolePermissions] using hheld
      obtain hwrite | hcheckpoint | hread := hcases
      · exact Or.inr ⟨Or.inl hwrite, hrole⟩
      · exact Or.inr ⟨Or.inr hcheckpoint, hrole⟩
      · exact Or.inl ⟨hread, hne⟩
    · exact Or.inl ⟨by simpa [rolePermissions] using hheld, hne⟩
  · rintro (⟨rfl, hne⟩ | ⟨hpermission, hservice⟩)
    · obtain ⟨role, hrole⟩ := List.exists_mem_of_ne_nil roles hne
      refine ⟨role, hrole, ?_⟩
      obtain rfl | rfl := h role hrole <;> simp [rolePermissions]
    · refine ⟨.service, hservice, ?_⟩
      obtain rfl | rfl := hpermission <;> simp [rolePermissions]

/-- What the holder of a service key is let through to. -/
structure Confined (roles : List Role) : Prop where
  /-- Reads, and with the role of a service the writes that ask for `ingestion:write`. -/
  api : ∀ method path, authorizeApiRequest method path roles = .ok () ↔
    requiredPermissions method path = ["read"] ∧ roles ≠ [] ∨
      requiredPermissions method path = ["ingestion:write"] ∧ .service ∈ roles
  /-- No route about service keys. -/
  administration : ∀ settings request, administer settings roles request =
    .raise (.httpException 403 "permission required: service-account:manage")

theorem IsLimited.confined (h : IsLimited roles) : Confined roles where
  api method path := by
    rw [authorizeApiRequest, Api.raiseIf_eq_ok, Bool.not_eq_false]
    simp only [List.any_eq_true, hasPermission_limited h]
    rw [requiredPermissions]
    split_ifs <;> simp
  administration settings request := by
    have hnot : hasPermission roles "service-account:manage" = false := by
      rw [Bool.eq_false_iff, ne_eq, hasPermission_limited h]
      simp
    rw [administer, requirePermission, Api.raiseIf, if_pos hnot]
    rfl

/-! ## Tenants -/

/-- The tenant of the caller of a request that administers keys. -/
def Request.tenantId? : Request → Option String
  | create _ principal _ _ => some principal.tenantId
  | rotate _ _ principal _ _ => some principal.tenantId
  | revoke _ _ principal _ => some principal.tenantId
  | authenticate _ _ => none

/-- What a tenant has. -/
@[ext]
structure TenantView where
  accounts : AccountId → Option ServiceAccountModel
  keys : KeyId → Option ServiceAccountKeyModel

/-- The key as the tenant sees it: if it is of one of its accounts, and without the time of its last use. -/
def KeyTables.seen (tenantId : String) (tables : KeyTables) (key : ServiceAccountKeyModel) :
    Option ServiceAccountKeyModel :=
  (tables.account? key.serviceAccountId tenantId).map fun _ => { key with lastUsedAt := none }

/-- The accounts of a tenant and their keys. -/
def KeyTables.viewOf (tenantId : String) (tables : KeyTables) : TenantView where
  accounts accountId := tables.account? accountId tenantId
  keys keyId := (tables.keys keyId).bind (tables.seen tenantId)

/-- The service accounts have the roles that they can receive. -/
def KeyTables.Limited (tables : KeyTables) : Prop :=
  ∀ accountId account, tables.accounts accountId = some account → IsLimited account.rolesJson

/-- What a request can commit. -/
structure Permitted (request : Request) (before after : KeyTables) : Prop where
  /-- An account that stands is not changed. -/
  kept : ∀ accountId account, before.accounts accountId = some account →
    after.accounts accountId = some account
  limited : before.Limited → after.Limited
  /-- What another tenant has is not touched. -/
  isolated : ∀ tenantId, request.tenantId? ≠ some tenantId → after.viewOf tenantId = before.viewOf tenantId

variable {before after : KeyTables} {accountId : AccountId} {keyId : KeyId} {tenantId : String}
  {account : ServiceAccountModel} {key : ServiceAccountKeyModel}

theorem account?_of_other (h : before.accounts accountId = some account)
    (hother : account.tenantId ≠ tenantId) : before.account? accountId tenantId = none := by
  rw [KeyTables.account?, h]
  simp [hother]

theorem seen_of_none (h : before.account? key.serviceAccountId tenantId = none) :
    before.seen tenantId key = none := by
  rw [KeyTables.seen, h]
  rfl

/-- Where the accounts are the same, the views differ at most in the keys the tenant sees. -/
theorem viewOf_congr (haccounts : ∀ id, after.account? id tenantId = before.account? id tenantId)
    (hkeys : ∀ id, (after.keys id).bind (before.seen tenantId) =
      (before.keys id).bind (before.seen tenantId)) :
    after.viewOf tenantId = before.viewOf tenantId := by
  have hseen : after.seen tenantId = before.seen tenantId :=
    funext fun key => by rw [KeyTables.seen, KeyTables.seen, haccounts]
  refine TenantView.ext (funext haccounts) (funext fun id => ?_)
  show (after.keys id).bind (after.seen tenantId) = _
  rw [hseen]
  exact hkeys id

/-- A commit that leaves the accounts. -/
theorem permitted_of_keys {request : Request} {keys : KeyId → Option ServiceAccountKeyModel}
    {authEvents : List AuthEventModel}
    (hkeys : ∀ tenantId, request.tenantId? ≠ some tenantId → ∀ id,
      (keys id).bind (before.seen tenantId) = (before.keys id).bind (before.seen tenantId)) :
    Permitted request before { before with keys := keys, authEvents := authEvents } where
  kept _ _ h := h
  limited h := h
  isolated tenantId htenant := viewOf_congr (fun _ => rfl) (hkeys tenantId htenant)

/-! ## What a request can commit -/

variable {settings : Settings}

theorem permitted_create {body : ServiceAccountCreate} {principal : Principal} {fresh : FreshKey}
    {answer : Answer}
    (h : (createServiceAccount settings body principal accountId fresh).alone before =
      .ok (answer, after)) : Permitted (.create body principal accountId fresh) before after := by
  rw [createServiceAccount] at h
  split_ifs at h with hroles
  · have hwrite := Transaction.alone_commit_eq_ok h
    rw [insertAccount] at hwrite
    split_ifs at hwrite with _ _ haccount hkey
    rw [← Except.ok.inj hwrite]
    rw [Option.not_isSome_iff_eq_none] at haccount hkey
    refine ⟨fun id account hstands => ?_, fun hlimited id account hstands => ?_, fun tenantId htenant => ?_⟩
    · have hne : id ≠ accountId := by
        rintro rfl
        exact Option.some_ne_none _ (hstands.symm.trans haccount)
      exact (Function.update_of_ne hne _ _).trans hstands
    · by_cases hid : id = accountId
      · subst hid
        have hnew := Option.some.inj ((Function.update_self id _ before.accounts).symm.trans hstands)
        intro role hrole
        rw [← hnew] at hrole
        simpa using hroles ((List.perm_insertionSort _ _).mem_iff.mp hrole)
      · exact hlimited id account ((Function.update_of_ne hid _ _).symm.trans hstands)
    · have hother : principal.tenantId ≠ tenantId := fun heq => htenant (congrArg some heq)
      have hbefore : before.account? accountId tenantId = none := by
        rw [KeyTables.account?, haccount]
        rfl
      refine viewOf_congr (fun id => ?_) fun id => ?_
      · by_cases hid : id = accountId
        · subst hid
          rw [hbefore]
          exact account?_of_other (Function.update_self id _ before.accounts) hother
        · rw [KeyTables.account?, KeyTables.account?]
          dsimp only
          rw [Function.update_of_ne hid]
      · dsimp only
        by_cases hid : id = fresh.keyId
        · subst hid
          rw [Function.update_self, hkey]
          exact seen_of_none hbefore
        · rw [Function.update_of_ne hid]
  · cases h

theorem tenantId_of_account? (h : before.account? accountId tenantId = some account) :
    account.tenantId = tenantId := by
  simpa using (Option.filter_eq_some_iff.mp h).2

/-- An account of the caller is not one of another tenant. -/
theorem account?_of_caller {principal : Principal}
    (h : before.account? accountId principal.tenantId = some account)
    (hother : some principal.tenantId ≠ some tenantId) : before.account? accountId tenantId = none :=
  account?_of_other (account?_eq_some h) fun heq =>
    hother (congrArg some ((tenantId_of_account? h).symm.trans heq))

theorem permitted_rotate {principal : Principal} {now : Datetime} {fresh : FreshKey} {answer : Answer}
    (h : (rotateServiceKey settings accountId keyId principal now fresh).alone before =
      .ok (answer, after)) : Permitted (.rotate accountId keyId principal now fresh) before after := by
  rw [rotateServiceKey, Transaction.alone_selectForUpdate,
    Transaction.alone_selectForUpdate] at h
  cases haccount : before.account? accountId principal.tenantId with
  | none =>
    rw [haccount] at h
    cases h
  | some account =>
    cases hfound : before.key? keyId accountId with
    | none =>
      rw [haccount, hfound] at h
      cases h
    | some old =>
      obtain ⟨hold, howner⟩ := key?_eq_some hfound
      rw [haccount, hfound, rotateFound] at h
      split_ifs at h with hrevoked
      · cases h
      · have hwrite := Transaction.alone_commit_eq_ok h
        rw [replaceKey, hold, Option.map_some] at hwrite
        split_ifs at hwrite with _ hnew
        rw [← Except.ok.inj hwrite]
        rw [Option.not_isSome_iff_eq_none] at hnew
        refine permitted_of_keys fun tenantId htenant id => ?_
        have hother := account?_of_caller haccount htenant
        by_cases hid : id = fresh.keyId
        · subst hid
          rw [Function.update_self, hnew]
          exact seen_of_none hother
        · rw [Function.update_of_ne hid]
          by_cases hid' : id = keyId
          · subst hid'
            rw [Function.update_self, hold, Option.bind_some, Option.bind_some,
              seen_of_none (howner ▸ hother), seen_of_none (howner ▸ hother)]
          · rw [Function.update_of_ne hid']

theorem permitted_revoke {principal : Principal} {now : Datetime} {answer : Answer}
    (h : (revokeServiceKey accountId keyId principal now).alone before = .ok (answer, after)) :
    Permitted (.revoke accountId keyId principal now) before after := by
  rw [revokeServiceKey, Transaction.alone_selectForUpdate, KeyTables.keyOfTenant?] at h
  split_ifs at h with hsome
  · obtain ⟨account, haccount⟩ := Option.isSome_iff_exists.mp hsome
    cases hfound : before.key? keyId accountId with
    | none =>
      rw [hfound] at h
      cases h
    | some key =>
      obtain ⟨hkey, howner⟩ := key?_eq_some hfound
      rw [hfound, revokeFound] at h
      have hwrite := Transaction.alone_commit_eq_ok h
      rw [hkey, Option.map_some] at hwrite
      rw [← Except.ok.inj hwrite]
      refine permitted_of_keys fun tenantId htenant id => ?_
      have hother := account?_of_caller haccount htenant
      by_cases hid : id = keyId
      · subst hid
        rw [Function.update_self, hkey, Option.bind_some, Option.bind_some,
          seen_of_none (howner ▸ hother), seen_of_none (howner ▸ hother)]
      · rw [Function.update_of_ne hid]
  · cases h

theorem permitted_touch {request : Request} {now : Datetime} {event : AuthEventModel}
    (h : touchKey keyId now event before = .ok after) : Permitted request before after := by
  rw [touchKey] at h
  rw [← Except.ok.inj h]
  refine permitted_of_keys fun tenantId _ id => ?_
  by_cases hid : id = keyId
  · subst hid
    rw [Function.update_self]
    cases before.keys id with
    | none => rfl
    | some key => rfl
  · rw [Function.update_of_ne hid]

theorem permitted_of_alone {request : Request} (hrequest : ¬ request.Authenticates) {answer : Answer}
    (h : (request.handler settings).alone before = .ok (answer, after)) :
    Permitted request before after := by
  cases request with
  | create body principal accountId fresh => exact permitted_create h
  | rotate accountId keyId principal now fresh => exact permitted_rotate h
  | revoke accountId keyId principal now => exact permitted_revoke h
  | authenticate rawKey now => exact absurd trivial hrequest

theorem writes_permitted (settings : Settings) (request : Request) : (request.handler settings).Writes
    fun before after => request.Authenticates → Permitted request before after := by
  cases request with
  | authenticate rawKey now =>
    show (authenticateServiceKey settings rawKey now).Writes _
    rw [authenticateServiceKey]
    split
    · trivial
    · intro tables
      dsimp only
      cases tables.joined? _ with
      | none => trivial
      | some found =>
        rw [authenticateFound]
        split_ifs
        · intro tables'
          dsimp only
          split_ifs
          · trivial
          · exact fun _ _ hwrite _ => permitted_touch hwrite
        · trivial
  | _ => exact Transaction.writes_of_forall (fun _ _ h => h.elim) _

/-! ## Every interleaving -/

/-- What the requests can have made of the tables. -/
structure Evolved {ι : Type} (requests : ι → Request) (before after : KeyTables) : Prop where
  kept : ∀ accountId account, before.accounts accountId = some account →
    after.accounts accountId = some account
  limited : before.Limited → after.Limited
  isolated : ∀ tenantId, (∀ i, (requests i).tenantId? ≠ some tenantId) →
    after.viewOf tenantId = before.viewOf tenantId

section Runs

variable {ι : Type} {requests : ι → Request}

theorem Evolved.refl (tables : KeyTables) : Evolved requests tables tables where
  kept _ _ h := h
  limited h := h
  isolated _ _ := rfl

theorem Evolved.permitted {tables : KeyTables} (h : Evolved requests tables before) {i : ι}
    (hpermitted : Permitted (requests i) before after) : Evolved requests tables after where
  kept id account hstands := hpermitted.kept id account (h.kept id account hstands)
  limited hlimited := hpermitted.limited (h.limited hlimited)
  isolated tenantId hothers :=
    (hpermitted.isolated tenantId (hothers i)).trans (h.isolated tenantId hothers)

variable [DecidableEq ι] {db : KeyDatabase ι}

/-- The requests are sound, and what an authentication writes is permitted. -/
structure Scoped (settings : Settings) (requests : ι → Request) (db : KeyDatabase ι) : Prop where
  sound : Sound settings requests db
  written : Database.Written
    (fun i before after => (requests i).Authenticates → Permitted (requests i) before after) db

theorem scoped_keyRequests (requests : ι → Request) (tables : KeyTables) :
    Scoped settings requests (keyRequests settings requests tables) where
  sound := sound_keyRequests requests tables
  written := Database.written_run row (fun i => writes_permitted settings (requests i)) tables []

theorem Scoped.step (h : Scoped settings requests db) (move : Move ι) :
    Scoped settings requests (db.step row move) where
  sound := h.sound.step move
  written := h.written.effect (Database.effect_step row db move)

omit [DecidableEq ι] in
theorem Scoped.permitted (h : Scoped settings requests db) {commit : Commit ι KeyTables}
    (hcommit : commit ∈ db.log) : Permitted (requests commit.request) commit.before commit.after := by
  by_cases hauthenticates : (requests commit.request).Authenticates
  · exact h.written.logged commit hcommit hauthenticates
  · obtain ⟨value, -, halone⟩ := (h.sound.faithful _ hauthenticates).logged commit hcommit rfl
    exact permitted_of_alone hauthenticates halone

/-- A step leaves the tables, or makes a commit that is permitted to its request. -/
theorem Scoped.step_state (h : Scoped settings requests db) (move : Move ι) :
    (db.step row move).state = db.state ∨
      ∃ i, Permitted (requests i) db.state (db.step row move).state := by
  have heffect := Database.effect_step row db move
  have hnext := h.step move
  generalize db.step row move = next at heffect hnext
  cases heffect with
  | idle => exact Or.inl rfl
  | select _ => exact Or.inl rfl
  | pass _ _ => exact Or.inl rfl
  | acquire _ _ _ => exact Or.inl rfl
  | stop _ _ => exact Or.inl rfl
  | succeed _ _ =>
    exact Or.inr ⟨_, hnext.permitted (List.mem_append_right _ (List.mem_singleton_self _))⟩

theorem scoped_run (hscoped : Scoped settings requests db) (moves : List (Move ι)) :
    Scoped settings requests (run (Database.step row) db moves) ∧
      Evolved requests db.state (run (Database.step row) db moves).state := by
  refine Library.run_invariant (I := fun db' => Scoped settings requests db' ∧
    Evolved requests db.state db'.state) (fun db' move h => ⟨h.1.step move, ?_⟩)
    ⟨hscoped, .refl db.state⟩ moves
  rcases h.1.step_state move with heq | ⟨i, hpermitted⟩
  · rw [heq]
    exact h.2
  · exact h.2.permitted hpermitted

/-- **Tenants are isolated and service keys are confined.**  In every interleaving of creations, rotations,
revocations and authentications: a tenant none of whose members makes a request keeps its accounts and its
keys as they were, but for the times of their last use; no account that stands is changed; and a raw key
that is accepted gives its bearer the tenant and the roles in the row of its account, which let it read and,
with the role of a service, call the routes that ask for `ingestion:write`, and never administer a service
key. -/
theorem service_keys_confined (settings : Settings) (requests : ι → Request) (tables : KeyTables)
    (hlimited : tables.Limited) (moves : List (Move ι)) :
    Evolved requests tables (run (Database.step row) (keyRequests settings requests tables) moves).state ∧
    ∀ i rawKey now principal, requests i = .authenticate rawKey now →
      (run (Database.step row) (keyRequests settings requests tables) moves).session i =
        .succeeded (.principal principal) →
      ∃ account,
        (run (Database.step row) (keyRequests settings requests tables) moves).state.accounts
          principal.serviceAccountId = some account ∧
        principal.tenantId = account.tenantId ∧ principal.roles = account.rolesJson.dedup ∧
        Confined principal.roles := by
  have hscoped : Scoped settings requests (keyRequests settings requests tables) :=
    scoped_keyRequests requests tables
  have hrun := scoped_run hscoped
  refine ⟨(hrun moves).2, fun i rawKey now principal hrequest hanswer => ?_⟩
  obtain ⟨before, ⟨later, hmoves⟩, keyId, secret, key, account, hlive, hprincipal⟩ :=
    accepted_run requests tables hrequest moves hanswer
  have hroles : IsLimited account.rolesJson := (hrun before).2.limited hlimited _ _ hlive.owner
  have hkept := (scoped_run (hrun before).1 later).2.kept _ _ hlive.owner
  rw [← Library.run_append, hmoves] at hkept
  obtain rfl := Answer.principal.inj hprincipal
  exact ⟨account, hkept, rfl, rfl,
    IsLimited.confined fun role hrole => hroles role (List.mem_dedup.mp hrole)⟩

end Runs

/-- The bearer of the rotated key is confined. -/
theorem service_keys_confined_twoRotations :
    (run (Database.step row) (keyRequests {} twoRotations tenantTables) twoRotationsMoves).session 3 =
        .succeeded (.principal
          { subject := serviceSubject 0
            tenantId := "default"
            roles := [.service]
            serviceAccountId := 0 }) ∧
      Confined [.service] := by
  have hsession : (run (Database.step row) (keyRequests {} twoRotations tenantTables)
      twoRotationsMoves).session 3 = .succeeded (.principal
        { subject := serviceSubject 0
          tenantId := "default"
          roles := [.service]
          serviceAccountId := 0 }) := rfl
  obtain ⟨_, _, _, _, hconfined⟩ := (service_keys_confined {} twoRotations tenantTables
    (fun _ _ h => absurd h.symm (Option.some_ne_none _)) twoRotationsMoves).2 3 secondKey.rawKey 3 _ rfl hsession
  exact ⟨hsession, hconfined⟩

end ServiceKeys
end Security
end Scam2Market
