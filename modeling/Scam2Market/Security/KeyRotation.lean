import Scam2Market.Library.Runs
import Scam2Market.Security.KeyChains

/-!
# Rotation leaves one live key

Any number of requests about service keys run beside each other.  A rotation and a revocation lock the
rows they depend on, so what they commit is what they do alone (`keyCommit_of_alone`); a creation only
adds rows, and an authentication writes nothing that the others read.  Every commit is thus a `KeyCommit`
(`Sound.keyCommit`), and the chains follow.
-/

namespace Scam2Market
namespace Security
namespace ServiceKeys

open Api (RequestError)
open KeyTables (row)
open Library (Transaction Database Move Commit Session Agree run)

/-! ## Rows -/

variable {tables tables' before after : KeyTables} {accountId : AccountId} {keyId : KeyId}
  {tenantId : String} {account : ServiceAccountModel} {key : ServiceAccountKeyModel}

theorem account?_eq_some (h : tables.account? accountId tenantId = some account) :
    tables.accounts accountId = some account :=
  (Option.filter_eq_some_iff.mp h).1

theorem key?_eq_some (h : tables.key? keyId accountId = some key) :
    tables.keys keyId = some key ∧ key.serviceAccountId = accountId := by
  obtain ⟨hkey, howner⟩ := Option.filter_eq_some_iff.mp h
  exact ⟨hkey, by simpa using howner⟩

theorem keyOfTenant?_eq_some (h : tables.keyOfTenant? keyId accountId tenantId = some key) :
    tables.keys keyId = some key ∧ (tables.account? accountId tenantId).isSome := by
  rw [KeyTables.keyOfTenant?] at h
  split_ifs at h with haccount
  exact ⟨(key?_eq_some h).1, haccount⟩

theorem row_account_ne_none (h : tables.accounts accountId = some account) :
    row (.account accountId) tables ≠ none := by
  rw [row, h]
  exact Option.some_ne_none _

theorem row_key_ne_none (h : tables.keys keyId = some key) : row (.key keyId) tables ≠ none := by
  rw [row, h]
  exact Option.some_ne_none _

theorem accounts_of_agree {keys : Set RowKey} (h : Agree row keys tables tables')
    (hmem : .account accountId ∈ keys) : tables.accounts accountId = tables'.accounts accountId :=
  Option.map_injective Sum.inl_injective (h _ hmem)

theorem keys_of_agree {keys : Set RowKey} (h : Agree row keys tables tables')
    (hmem : .key keyId ∈ keys) : tables.keys keyId = tables'.keys keyId :=
  Option.map_injective Sum.inr_injective (h _ hmem)

/-! ## Locks -/

variable (settings : Settings) {held : Set RowKey}

theorem respects_createServiceAccount (body : ServiceAccountCreate) (principal : Principal)
    (accountId : AccountId) (fresh : FreshKey) :
    (createServiceAccount settings body principal accountId fresh).Respects row held := by
  rw [createServiceAccount]
  split_ifs with hroles
  · intro s s' hwrite rowKey _ hrow
    rw [insertAccount] at hwrite
    split_ifs at hwrite with _ _ haccount hkey
    rw [← Except.ok.inj hwrite]
    cases rowKey with
    | account id =>
      simp only [row]
      rw [Function.update_of_ne]
      rintro rfl
      rw [Option.not_isSome_iff_eq_none] at haccount
      exact hrow (by rw [row, haccount]; rfl)
    | key id =>
      simp only [row]
      rw [Function.update_of_ne]
      rintro rfl
      rw [Option.not_isSome_iff_eq_none] at hkey
      exact hrow (by rw [row, hkey]; rfl)
  · trivial

theorem respects_rotateFound (principal : Principal) (now : Datetime) (fresh : FreshKey)
    (found : Option ServiceAccountModel) (oldKey : Option ServiceAccountKeyModel)
    (hheld : found ≠ none → oldKey ≠ none → .key keyId ∈ held) :
    (rotateFound settings accountId keyId principal now fresh found oldKey).Respects row held := by
  cases found with
  | none => trivial
  | some account =>
    cases oldKey with
    | none => trivial
    | some oldKey =>
      have hmem := hheld (Option.some_ne_none _) (Option.some_ne_none _)
      rw [rotateFound]
      split_ifs with hrevoked
      · trivial
      · intro s s' hwrite rowKey hother hrow
        rw [replaceKey] at hwrite
        split_ifs at hwrite with _ hnew
        rw [← Except.ok.inj hwrite]
        cases rowKey with
        | account id => rfl
        | key id =>
          simp only [row]
          rw [Function.update_of_ne, Function.update_of_ne]
          · rintro rfl
            exact hother hmem
          · rintro rfl
            rw [Option.not_isSome_iff_eq_none] at hnew
            exact hrow (by rw [row, hnew]; rfl)

theorem respects_rotateServiceKey (accountId : AccountId) (keyId : KeyId) (principal : Principal)
    (now : Datetime) (fresh : FreshKey) :
    (rotateServiceKey settings accountId keyId principal now fresh).Respects row ∅ := by
  have hkey : ∀ held found, (Transaction.selectForUpdate (KeyTables.key? keyId accountId)
      [RowKey.key keyId] fun oldKey =>
        rotateFound settings accountId keyId principal now fresh found oldKey).Respects row held := by
    intro held found
    refine Transaction.respects_selectForUpdate (fun held => ?_) (fun oldKey => ?_)
      fun s key hfound other hother => ?_
    · exact respects_rotateFound settings principal now fresh found none fun _ h => absurd rfl h
    · refine respects_rotateFound settings principal now fresh found (some oldKey) fun _ _ => ?_
      exact Or.inl (List.mem_singleton_self _)
    · rw [List.mem_singleton.mp hother]
      exact row_key_ne_none (key?_eq_some hfound).1
  refine Transaction.respects_selectForUpdate (fun held => hkey held none)
    (fun account => hkey _ (some account)) fun s account hfound other hother => ?_
  rw [List.mem_singleton.mp hother]
  exact row_account_ne_none (account?_eq_some hfound)

theorem twoPhase_rotateServiceKey (accountId : AccountId) (keyId : KeyId) (principal : Principal)
    (now : Datetime) (fresh : FreshKey) :
    (rotateServiceKey settings accountId keyId principal now fresh).TwoPhase row ∅ := by
  refine Transaction.twoPhase_selectForUpdate ?_ (fun account => ?_)
    (fun s account hfound other hother => ?_) fun s s' hagree => ?_
  · -- without an account the request fails, whatever key it finds
    exact Transaction.doomed_selectForUpdate fun oldKey => by cases oldKey <;> trivial
  · refine Transaction.twoPhase_selectForUpdate trivial (fun oldKey => ?_)
      (fun s key hfound other hother => ?_) fun s s' hagree => ?_
    · rw [rotateFound]
      split_ifs <;> trivial
    · rw [List.mem_singleton.mp hother]
      exact row_key_ne_none (key?_eq_some hfound).1
    · rw [KeyTables.key?, KeyTables.key?,
        keys_of_agree hagree (Or.inl (List.mem_singleton_self _))]
  · rw [List.mem_singleton.mp hother]
    exact row_account_ne_none (account?_eq_some hfound)
  · rw [KeyTables.account?, KeyTables.account?,
      accounts_of_agree hagree (Or.inl (List.mem_singleton_self _))]

/-- The rows of the join are there. -/
theorem rows_of_keyOfTenant? (h : tables.keyOfTenant? keyId accountId tenantId = some key) :
    ∀ other ∈ [RowKey.key keyId, .account accountId], row other tables ≠ none := by
  obtain ⟨hkey, haccount⟩ := keyOfTenant?_eq_some h
  intro other hother
  rcases List.mem_cons.mp hother with rfl | hother
  · exact row_key_ne_none hkey
  · obtain ⟨account, haccount⟩ := Option.isSome_iff_exists.mp haccount
    rw [List.mem_singleton.mp hother]
    exact row_account_ne_none (account?_eq_some haccount)

theorem respects_revokeServiceKey (accountId : AccountId) (keyId : KeyId) (principal : Principal)
    (now : Datetime) : (revokeServiceKey accountId keyId principal now).Respects row ∅ := by
  refine Transaction.respects_selectForUpdate (fun _ => trivial) (fun key => ?_)
    fun s key hfound => rows_of_keyOfTenant? hfound
  intro s s' hwrite rowKey hother hrow
  rw [← Except.ok.inj hwrite]
  cases rowKey with
  | account id => rfl
  | key id =>
    simp only [row]
    rw [Function.update_of_ne]
    rintro rfl
    exact hother (Or.inl List.mem_cons_self)

theorem twoPhase_revokeServiceKey (accountId : AccountId) (keyId : KeyId) (principal : Principal)
    (now : Datetime) : (revokeServiceKey accountId keyId principal now).TwoPhase row ∅ := by
  refine Transaction.twoPhase_selectForUpdate trivial (fun _ => trivial)
    (fun s key hfound => rows_of_keyOfTenant? hfound) fun s s' hagree => ?_
  have hkey := keys_of_agree hagree (Or.inl List.mem_cons_self)
  have haccount := accounts_of_agree hagree
    (Or.inl (List.mem_cons_of_mem _ (List.mem_singleton_self _)))
  rw [KeyTables.keyOfTenant?, KeyTables.keyOfTenant?, KeyTables.account?, KeyTables.account?,
    KeyTables.key?, KeyTables.key?, hkey, haccount]

theorem respects_authenticateFound (keyId : KeyId) (secret : String) (now : Datetime)
    (found : Option (ServiceAccountKeyModel × ServiceAccountModel)) :
    (authenticateFound settings keyId secret now found).Respects row ∅ := by
  cases found with
  | none => trivial
  | some found =>
    rw [authenticateFound]
    split_ifs with hvalid
    · intro tables
      refine ⟨fun hrow => ?_, fun hrow => ?_⟩
      · rw [row, Option.map_eq_none_iff] at hrow
        simp only [hrow, Option.isNone_none, if_true]
        trivial
      · dsimp only
        split_ifs
        · trivial
        · intro s s' hwrite rowKey hother _
          rw [← Except.ok.inj hwrite]
          cases rowKey with
          | account id => rfl
          | key id =>
            simp only [row]
            rw [Function.update_of_ne]
            rintro rfl
            exact hother (Set.mem_insert _ _)
    · trivial

theorem respects_authenticateServiceKey (rawKey : String) (now : Datetime) :
    (authenticateServiceKey settings rawKey now).Respects row ∅ := by
  rw [authenticateServiceKey]
  split
  · trivial
  · exact fun tables => respects_authenticateFound settings _ _ now _

theorem respects_handler (request : Request) : (request.handler settings).Respects row ∅ := by
  cases request with
  | create body principal accountId fresh =>
    exact respects_createServiceAccount settings body principal accountId fresh
  | rotate accountId keyId principal now fresh =>
    exact respects_rotateServiceKey settings accountId keyId principal now fresh
  | revoke accountId keyId principal now => exact respects_revokeServiceKey accountId keyId principal now
  | authenticate rawKey now => exact respects_authenticateServiceKey settings rawKey now

/-! ## Commits -/

theorem keyCommit_create {body : ServiceAccountCreate} {principal : Principal} {fresh : FreshKey}
    {answer : Answer}
    (h : (createServiceAccount settings body principal accountId fresh).alone before =
      .ok (answer, after)) : KeyCommit before after := by
  rw [createServiceAccount] at h
  split_ifs at h with hroles
  · have hwrite := Transaction.alone_commit_eq_ok h
    rw [insertAccount] at hwrite
    split_ifs at hwrite with _ _ haccount hkey
    rw [← Except.ok.inj hwrite]
    rw [Option.not_isSome_iff_eq_none] at haccount hkey
    exact .created haccount hkey rfl rfl
  · exact nomatch h

theorem keyCommit_rotate {principal : Principal} {now : Datetime} {fresh : FreshKey} {answer : Answer}
    (h : (rotateServiceKey settings accountId keyId principal now fresh).alone before =
      .ok (answer, after)) : KeyCommit before after := by
  rw [rotateServiceKey, Transaction.alone_selectForUpdate,
    Transaction.alone_selectForUpdate] at h
  cases haccount : before.account? accountId principal.tenantId with
  | none =>
    rw [haccount] at h
    exact nomatch h
  | some account =>
    cases hfound : before.key? keyId accountId with
    | none =>
      rw [haccount, hfound] at h
      exact nomatch h
    | some old =>
      obtain ⟨hold, howner⟩ := key?_eq_some hfound
      rw [haccount, hfound, rotateFound] at h
      split_ifs at h with hrevoked
      · exact nomatch h
      · have hwrite := Transaction.alone_commit_eq_ok h
        rw [replaceKey, hold, Option.map_some] at hwrite
        split_ifs at hwrite with _ hnew
        rw [← Except.ok.inj hwrite]
        rw [Option.not_isSome_iff_eq_none] at hrevoked hnew
        exact .rotated hold hrevoked hnew howner.symm rfl

theorem keyCommit_revoke {principal : Principal} {now : Datetime} {answer : Answer}
    (h : (revokeServiceKey accountId keyId principal now).alone before = .ok (answer, after)) :
    KeyCommit before after := by
  rw [revokeServiceKey, Transaction.alone_selectForUpdate] at h
  cases hfound : before.keyOfTenant? keyId accountId principal.tenantId with
  | none =>
    rw [hfound] at h
    exact nomatch h
  | some key =>
    have hkey := (keyOfTenant?_eq_some hfound).1
    rw [hfound, revokeFound] at h
    have hwrite := Transaction.alone_commit_eq_ok h
    rw [hkey, Option.map_some] at hwrite
    rw [← Except.ok.inj hwrite]
    exact .revoked hkey

/-- The request authenticates a raw key. -/
def Request.Authenticates : Request → Prop
  | authenticate _ _ => True
  | _ => False

theorem keyCommit_of_alone {request : Request} (hrequest : ¬ request.Authenticates) {answer : Answer}
    (h : (request.handler settings).alone before = .ok (answer, after)) : KeyCommit before after := by
  cases request with
  | create body principal accountId fresh => exact keyCommit_create settings h
  | rotate accountId keyId principal now fresh => exact keyCommit_rotate settings h
  | revoke accountId keyId principal now => exact keyCommit_revoke h
  | authenticate rawKey now => exact absurd trivial hrequest

theorem twoPhase_handler {request : Request} (hrequest : ¬ request.Authenticates) :
    (request.handler settings).TwoPhase row ∅ := by
  cases request with
  | create body principal accountId fresh =>
    show (createServiceAccount settings body principal accountId fresh).TwoPhase row ∅
    rw [createServiceAccount]
    split_ifs <;> trivial
  | rotate accountId keyId principal now fresh =>
    exact twoPhase_rotateServiceKey settings accountId keyId principal now fresh
  | revoke accountId keyId principal now => exact twoPhase_revokeServiceKey accountId keyId principal now
  | authenticate rawKey now => exact absurd trivial hrequest

/-- What an authentication writes, in whatever state. -/
theorem writes_authenticateFound (keyId : KeyId) (secret : String) (now : Datetime)
    (found : Option (ServiceAccountKeyModel × ServiceAccountModel)) :
    (authenticateFound settings keyId secret now found).Writes KeyCommit := by
  cases found with
  | none => trivial
  | some found =>
    rw [authenticateFound]
    split_ifs with hvalid
    · intro tables
      dsimp only
      split_ifs
      · trivial
      · intro s s' hwrite
        rw [← Except.ok.inj hwrite]
        exact .touched
    · trivial

theorem writes_handler (request : Request) : (request.handler settings).Writes
    fun before after => request.Authenticates → KeyCommit before after := by
  cases request with
  | authenticate rawKey now =>
    show (authenticateServiceKey settings rawKey now).Writes _
    rw [authenticateServiceKey]
    split
    · trivial
    · exact fun tables => (writes_authenticateFound settings _ _ now _).mono fun _ _ h _ => h
  | _ => exact Transaction.writes_of_forall (fun _ _ h => h.elim) _

/-! ## What is accepted -/

/-- The raw key stands for a key that is live in the tables. -/
structure Live (settings : Settings) (rawKey : String) (now : Datetime) (tables : KeyTables)
    (keyId : KeyId) (secret : String) (key : ServiceAccountKeyModel) (account : ServiceAccountModel) :
    Prop where
  parsed : parseServiceKey rawKey = some (keyId, secret)
  stored : tables.keys keyId = some key
  owner : tables.accounts key.serviceAccountId = some account
  notRevoked : key.revokedAt = none
  unexpired : now < key.expiresAt
  secretMatches : hashServiceSecret keyId secret settings.serviceKeyPepper = key.secretHash
  active : account.status = "ACTIVE"

/-- The answer is the principal of the account. -/
def IsPrincipal (accountId : AccountId) (account : ServiceAccountModel) (answer : Answer) : Prop :=
  answer = .principal
    { subject := serviceSubject accountId
      tenantId := account.tenantId
      roles := account.rolesJson.dedup
      serviceAccountId := accountId }

theorem returns_authenticateFound {rawKey : String} {now : Datetime} {secret : String}
    (hparsed : parseServiceKey rawKey = some (keyId, secret)) (tables : KeyTables) :
    (authenticateFound settings keyId secret now (tables.joined? keyId)).Returns fun answer =>
      ∃ keyId secret key account, Live settings rawKey now tables keyId secret key account ∧
        IsPrincipal key.serviceAccountId account answer := by
  cases hjoined : tables.joined? keyId with
  | none => trivial
  | some found =>
    obtain ⟨key, account⟩ := found
    obtain ⟨stored, hstored, hmap⟩ := Option.bind_eq_some_iff.mp hjoined
    obtain ⟨owner, howner, hpair⟩ := Option.map_eq_some_iff.mp hmap
    obtain ⟨rfl, rfl⟩ := Prod.mk.inj hpair
    rw [authenticateFound]
    split_ifs with hvalid
    · intro tables'
      dsimp only
      split_ifs
      · trivial
      · rw [valid, decide_eq_true_eq] at hvalid
        obtain ⟨hsecret, hrevoked, hexpires, hstatus⟩ := hvalid
        exact ⟨keyId, secret, stored, owner,
          ⟨hparsed, hstored, howner, hrevoked, hexpires, hsecret, hstatus⟩, rfl⟩
    · trivial

/-! ## Every interleaving -/

section Runs

variable {ι : Type} [DecidableEq ι] {requests : ι → Request}

/-- The database that the requests run on. -/
abbrev KeyDatabase (ι : Type) : Type :=
  Database ι RowKey KeyTables RequestError Answer

/-- Requests that have not begun. -/
def keyRequests (requests : ι → Request) (tables : KeyTables) : KeyDatabase ι :=
  .initial (fun i => (requests i).handler settings) tables

variable {db : KeyDatabase ι} {settings}

/-- What locking gives in every state. -/
structure Sound (settings : Settings) (requests : ι → Request) (db : KeyDatabase ι) : Prop where
  guarded : Database.Guarded row db
  faithful : ∀ i, ¬ (requests i).Authenticates →
    Database.Faithful row ((requests i).handler settings) i db
  written : Database.Written
    (fun i before after => (requests i).Authenticates → KeyCommit before after) db

theorem sound_keyRequests (requests : ι → Request) (tables : KeyTables) :
    Sound settings requests (keyRequests settings requests tables) where
  guarded := Database.guarded_run (fun i => respects_handler settings (requests i)) tables []
  faithful := fun _ hi => Database.serialisable (fun i => respects_handler settings (requests i))
    tables [] (twoPhase_handler settings hi)
  written := Database.written_run row (fun i => writes_handler settings (requests i)) tables []

theorem Sound.step (h : Sound settings requests db) (move : Move ι) :
    Sound settings requests (db.step row move) where
  guarded := h.guarded.effect (Database.effect_step row db move)
  faithful := fun i hi => (h.faithful i hi).effect h.guarded (Database.effect_step row db move)
  written := h.written.effect (Database.effect_step row db move)

omit [DecidableEq ι] in
/-- Every entry of the log is a commit of one of the kinds. -/
theorem Sound.keyCommit (h : Sound settings requests db) {commit : Commit ι KeyTables}
    (hcommit : commit ∈ db.log) : KeyCommit commit.before commit.after := by
  by_cases hauthenticates : (requests commit.request).Authenticates
  · exact h.written.logged commit hcommit hauthenticates
  · obtain ⟨value, -, halone⟩ := (h.faithful _ hauthenticates).logged commit hcommit rfl
    exact keyCommit_of_alone settings hauthenticates halone

/-- A step leaves the tables, or makes a commit of one of the kinds. -/
theorem Sound.step_state (h : Sound settings requests db) (move : Move ι) :
    (db.step row move).state = db.state ∨ KeyCommit db.state (db.step row move).state := by
  have heffect := Database.effect_step row db move
  have hnext := h.step move
  generalize db.step row move = next at heffect hnext
  cases heffect with
  | idle => exact Or.inl rfl
  | select _ => exact Or.inl rfl
  | pass _ _ => exact Or.inl rfl
  | acquire _ _ _ => exact Or.inl rfl
  | stop _ _ => exact Or.inl rfl
  | succeed _ _ =>
    exact Or.inr (hnext.keyCommit (List.mem_append_right _ (List.mem_singleton_self _)))

/-- In every state the requests are sound and the chains are kept; the keys that were there stay. -/
theorem chained_run (hsound : Sound settings requests db) (hchained : Chained db.state)
    (moves : List (Move ι)) :
    Sound settings requests (run (Database.step row) db moves) ∧
      Chained (run (Database.step row) db moves).state ∧
      Keeps db.state (run (Database.step row) db moves).state := by
  refine Library.run_invariant (I := fun db' => Sound settings requests db' ∧ Chained db'.state ∧
    Keeps db.state db'.state) (fun db' move h => ⟨h.1.step move, ?_⟩)
    ⟨hsound, hchained, .refl db.state⟩ moves
  rcases h.1.step_state move with heq | hcommit
  · rw [heq]
    exact h.2
  · exact ⟨h.2.1.commit hcommit, h.2.2.trans (keeps_of_commit hcommit)⟩

/-- The keys of an account: one chain, which does not branch, and only its last key is not revoked. -/
structure OneLive (tables : KeyTables) (accountId : AccountId) (chain : List KeyId) : Prop where
  isChain : IsChain tables accountId chain
  unbranched : ∀ keyId ∈ chain, ∀ keyId' ∈ chain, ∀ key key', tables.keys keyId = some key →
    tables.keys keyId' = some key' → key.rotatedFromKeyId = key'.rotatedFromKeyId → keyId = keyId'
  last : ∀ keyId ∈ chain, ∀ key, tables.keys keyId = some key → key.revokedAt = none →
    chain.getLast? = some keyId

omit [DecidableEq ι] in
theorem IsChain.oneLive {chain : List KeyId} (h : IsChain tables accountId chain) :
    OneLive tables accountId chain where
  isChain := h
  unbranched := fun _ hmem _ hmem' _ _ hkey hkey' hsame =>
    h.rotated.unbranched h.nodup (fun _ _ => nofun) hmem hmem' hkey hkey' hsame
  last := fun keyId hmem key hkey hlive => by
    obtain ⟨front, rfl⟩ := h.rotated.live hmem hkey hlive
    exact List.getLast?_concat

/-- A raw key that is accepted stood for a live key when it was checked. -/
theorem accepted_run (requests : ι → Request) (tables : KeyTables) {i : ι} {rawKey : String}
    {now : Datetime} (hrequest : requests i = .authenticate rawKey now) (moves : List (Move ι))
    {answer : Answer}
    (hanswer : (run (Database.step row) (keyRequests settings requests tables) moves).session i =
      .succeeded answer) :
    ∃ before, before <+: moves ∧ ∃ keyId secret key account,
      Live settings rawKey now
        (run (Database.step row) (keyRequests settings requests tables) before).state
        keyId secret key account ∧ IsPrincipal key.serviceAccountId account answer := by
  have hhandler : (fun j => (requests j).handler settings) i =
      authenticateServiceKey settings rawKey now := by
    simp only [hrequest]
    rfl
  rw [authenticateServiceKey] at hhandler
  cases hparsed : parseServiceKey rawKey with
  | none =>
    rw [hparsed] at hhandler
    have hreturned : Database.Returned (fun _ => False) i
        (run (Database.step row) (keyRequests settings requests tables) moves) := by
      refine Library.run_invariant (fun db move h => h.effect (Database.effect_step row db move))
        ⟨fun transaction hrunning => ?_, fun answer hsucceeded => nomatch hsucceeded⟩ moves
      rw [← Session.running.inj hrunning]
      exact hhandler ▸ trivial
    exact (hreturned.succeeded answer hanswer).elim
  | some parsed =>
    rw [hparsed] at hhandler
    exact Database.returned_run (fun j => (requests j).handler settings) hhandler
      (fun s => returns_authenticateFound settings hparsed s) tables moves hanswer

/-- **Rotation leaves one live key.**  In every interleaving of creations, rotations, revocations and
authentications, from tables whose keys form chains: the keys of every account form one chain of rotations
that does not branch, whose last key alone may be live; no key is lost or comes back from a revocation
later on; and a raw key that is accepted was, when it was checked, the live and unexpired last key of the
chain of an active account, with its secret. -/
theorem one_live_key (settings : Settings) (requests : ι → Request) (tables : KeyTables)
    (hchained : Chained tables) (moves later : List (Move ι)) :
    (∀ accountId,
      ((run (Database.step row) (keyRequests settings requests tables) moves).state.accounts
        accountId).isSome →
      ∃ chain, OneLive (run (Database.step row) (keyRequests settings requests tables) moves).state
        accountId chain) ∧
    Keeps (run (Database.step row) (keyRequests settings requests tables) moves).state
      (run (Database.step row) (keyRequests settings requests tables) (moves ++ later)).state ∧
    ∀ i rawKey now answer, requests i = .authenticate rawKey now →
      (run (Database.step row) (keyRequests settings requests tables) moves).session i =
        .succeeded answer →
      ∃ before, before <+: moves ∧ ∃ keyId secret key account chain,
        Live settings rawKey now
          (run (Database.step row) (keyRequests settings requests tables) before).state
          keyId secret key account ∧
        IsPrincipal key.serviceAccountId account answer ∧
        OneLive (run (Database.step row) (keyRequests settings requests tables) before).state
          key.serviceAccountId chain ∧
        chain.getLast? = some keyId := by
  have hsound : Sound settings requests (keyRequests settings requests tables) :=
    sound_keyRequests requests tables
  have hrun := chained_run hsound hchained
  refine ⟨fun accountId haccount => ?_, ?_, fun i rawKey now answer hrequest hanswer => ?_⟩
  · obtain ⟨chain, hchain⟩ := (hrun moves).2.1.chain accountId haccount
    exact ⟨chain, hchain.oneLive⟩
  · rw [Library.run_append]
    exact (chained_run (hrun moves).1 (hrun moves).2.1 later).2.2
  · obtain ⟨before, hpre, keyId, secret, key, account, hlive, hprincipal⟩ :=
      accepted_run requests tables hrequest moves hanswer
    obtain ⟨chain, hchain⟩ := (hrun before).2.1.chain key.serviceAccountId
      (by rw [hlive.owner]; rfl)
    have honeLive := hchain.oneLive
    have hmem := (hchain.mem_iff keyId).mpr ⟨key, hlive.stored, rfl⟩
    exact ⟨before, hpre, keyId, secret, key, account, chain, hlive, hprincipal, honeLive,
      honeLive.last keyId hmem key hlive.stored hlive.notRevoked⟩

end Runs

/-! ## Two rotations of one key -/

/-- A tenant without service accounts. -/
def tenantTables : KeyTables := { tenants := ["default"] }

theorem chained_tenantTables : Chained tenantTables where
  owned := fun _ _ h => nomatch h
  chain := fun _ h => nomatch h

def firstKey : FreshKey := { keyId := "00000000000000aa", secret := "first", now := 0 }

def secondKey : FreshKey := { keyId := "00000000000000bb", secret := "second", now := 1 }

def thirdKey : FreshKey := { keyId := "00000000000000cc", secret := "third", now := 2 }

/-- An account is created, its key is rotated twice at the same time, and the new key is used. -/
def twoRotations (i : Fin 4) : Request :=
  let principal : Principal := { subject := "admin", tenantId := "default" }
  match i with
  | 0 => .create { name := "collector" } principal 0 firstKey
  | 1 => .rotate 0 firstKey.keyId principal 1 secondKey
  | 2 => .rotate 0 firstKey.keyId principal 2 thirdKey
  | 3 => .authenticate secondKey.rawKey 3

/-- The second rotation waits for the account and then finds the key revoked. -/
def twoRotationsMoves : List (Move (Fin 4)) :=
  [.advance 0, .advance 1, .advance 2, .advance 1, .advance 2, .advance 1, .advance 1, .advance 1,
    .advance 2, .advance 2, .advance 2, .advance 2, .advance 3, .advance 3, .advance 3]

/-- One rotation succeeds, and the account has one live key. -/
theorem one_live_key_twoRotations :
    (run (Database.step row) (keyRequests {} twoRotations tenantTables) twoRotationsMoves).session 2 =
        .failed (.httpException 409 "service account key is already revoked") ∧
      ((run (Database.step row) (keyRequests {} twoRotations tenantTables)
        twoRotationsMoves).session 3).value?.isSome ∧
      ∃ chain, OneLive (run (Database.step row) (keyRequests {} twoRotations tenantTables)
        twoRotationsMoves).state 0 chain := by
  refine ⟨rfl, by decide +kernel, ?_⟩
  exact (one_live_key {} twoRotations tenantTables chained_tenantTables twoRotationsMoves []).1 0
    (by decide +kernel)

end ServiceKeys
end Security
end Scam2Market
