import Mathlib.Data.List.Nodup
import Scam2Market.Security.ServiceKeys

/-!
# The keys of a service account form one chain

A rotation revokes a key and adds the one that replaces it; both rows, and the row of the account, are
locked until it ends.

* `KeyCommit`: all that a request can commit.
* `Chained`: every key belongs to an account, and the keys of an account form a chain in which each was
  rotated from the one before it and all but the last are revoked.
* `Chained.commit`, `keeps_of_commit`: a commit keeps the chains, and a key that was revoked.
* `one_live_key`: so it is in every interleaving, and a raw key that is accepted is, in the state it was
  checked in, the last key of its chain.
-/

namespace Scam2Market
namespace Security
namespace ServiceKeys

open Api (RequestError)
open Library (Transaction Database Move Commit Session run)

/-! ## Commits -/

/-- What a request can commit. -/
inductive KeyCommit (before : KeyTables) : KeyTables → Prop where
  | created {accountId : AccountId} {account : ServiceAccountModel} {keyId : KeyId}
      {key : ServiceAccountKeyModel} (haccount : before.accounts accountId = none)
      (hkey : before.keys keyId = none) (howner : key.serviceAccountId = accountId)
      (hfirst : key.rotatedFromKeyId = none) :
      KeyCommit before { before with
        accounts := Function.update before.accounts accountId (some account)
        keys := Function.update before.keys keyId (some key) }
  | rotated {keyId newKeyId : KeyId} {now : Datetime} {old key : ServiceAccountKeyModel}
      (hold : before.keys keyId = some old) (hlive : old.revokedAt = none)
      (hnew : before.keys newKeyId = none) (howner : key.serviceAccountId = old.serviceAccountId)
      (hfrom : key.rotatedFromKeyId = some keyId) :
      KeyCommit before { before with
        keys := Function.update
          (Function.update before.keys keyId (some { old with revokedAt := some now }))
          newKeyId (some key) }
  | revoked {keyId : KeyId} {now : Datetime} {key : ServiceAccountKeyModel}
      (hkey : before.keys keyId = some key) :
      KeyCommit before { before with
        keys := Function.update before.keys keyId
          (some { key with revokedAt := key.revokedAt <|> some now }) }
  | touched {keyId : KeyId} {now : Datetime} {event : AuthEventModel} :
      KeyCommit before { before with
        keys := Function.update before.keys keyId
          ((before.keys keyId).map fun key => { key with lastUsedAt := some now })
        authEvents := before.authEvents ++ [event] }

/-! ## What a commit keeps -/

/-- The row of a key later on: it has the same owner and origin, and stays revoked. -/
structure Follows (key key' : ServiceAccountKeyModel) : Prop where
  owner : key'.serviceAccountId = key.serviceAccountId
  origin : key'.rotatedFromKeyId = key.rotatedFromKeyId
  revoked : ∀ t, key.revokedAt = some t → key'.revokedAt = some t

theorem Follows.refl (key : ServiceAccountKeyModel) : Follows key key :=
  ⟨rfl, rfl, fun _ h => h⟩

theorem Follows.trans {a b c : ServiceAccountKeyModel} (h : Follows a b) (h' : Follows b c) :
    Follows a c :=
  ⟨h'.owner.trans h.owner, h'.origin.trans h.origin, fun t ht => h'.revoked t (h.revoked t ht)⟩

/-- The keys are still there, with the same owners and origins, and stay revoked. -/
def Keeps (before after : KeyTables) : Prop :=
  ∀ keyId key, before.keys keyId = some key → ∃ key', after.keys keyId = some key' ∧ Follows key key'

theorem Keeps.refl (tables : KeyTables) : Keeps tables tables :=
  fun _ key h => ⟨key, h, .refl key⟩

theorem Keeps.trans {a b c : KeyTables} (h : Keeps a b) (h' : Keeps b c) : Keeps a c := by
  intro keyId key hkey
  obtain ⟨second, hsecond, hfollows⟩ := h keyId key hkey
  obtain ⟨third, hthird, hfollows'⟩ := h' keyId second hsecond
  exact ⟨third, hthird, hfollows.trans hfollows'⟩

variable {before after tables : KeyTables} {accountId : AccountId} {keyId keyId' : KeyId}
  {key key' : ServiceAccountKeyModel}

/-- A row is replaced by one that follows it. -/
theorem keeps_update {f : KeyId → Option ServiceAccountKeyModel} (hkey : f keyId = some key)
    (hfollows : Follows key key') {keyId' : KeyId} {row : ServiceAccountKeyModel}
    (hrow : f keyId' = some row) :
    ∃ row', Function.update f keyId (some key') keyId' = some row' ∧ Follows row row' := by
  by_cases hid : keyId' = keyId
  · subst hid
    refine ⟨key', Function.update_self .., ?_⟩
    rwa [← Option.some.inj (hkey.symm.trans hrow)]
  · exact ⟨row, (Function.update_of_ne hid ..).trans hrow, .refl row⟩

/-- A row is added under a new id. -/
theorem keeps_insert {f : KeyId → Option ServiceAccountKeyModel} (hnew : f keyId = none)
    {keyId' : KeyId} {row : ServiceAccountKeyModel} (hrow : f keyId' = some row) :
    Function.update f keyId (some key) keyId' = some row := by
  rw [Function.update_of_ne, hrow]
  rintro rfl
  rw [hnew] at hrow
  exact nomatch hrow

theorem keeps_of_commit (h : KeyCommit before after) : Keeps before after := by
  intro id row hrow
  cases h with
  | created haccount hkey howner hfirst => exact ⟨row, keeps_insert hkey hrow, .refl row⟩
  | @rotated keyId newKeyId now old key hold hlive hnew howner hfrom =>
    have hfollows : Follows old { old with revokedAt := some now } :=
      ⟨rfl, rfl, fun t ht => absurd (hlive.symm.trans ht) nofun⟩
    obtain ⟨row', hrow', hfollows'⟩ := keeps_update hold hfollows hrow
    refine ⟨row', keeps_insert ?_ hrow', hfollows'⟩
    rw [Function.update_of_ne, hnew]
    rintro rfl
    rw [hnew] at hold
    exact nomatch hold
  | @revoked keyId now key hkey =>
    have hfollows : Follows key { key with revokedAt := key.revokedAt <|> some now } :=
      ⟨rfl, rfl, fun t ht => by rw [ht]; rfl⟩
    exact keeps_update hkey hfollows hrow
  | @touched keyId now event =>
    cases hkey : before.keys keyId with
    | none =>
      refine ⟨row, ?_, .refl row⟩
      simp only [Option.map_none]
      rw [← hkey, Function.update_eq_self, hrow]
    | some key =>
      have hfollows : Follows key { key with lastUsedAt := some now } := ⟨rfl, rfl, fun _ ht => ht⟩
      simp only [Option.map_some]
      exact keeps_update hkey hfollows hrow

/-! ## Chains -/

/-- Each key of the list was rotated from the one before it, and all but the last are revoked. -/
def Rotated (tables : KeyTables) (accountId : AccountId) : Option KeyId → List KeyId → Prop
  | _, [] => True
  | previous, keyId :: rest =>
    (∃ key, tables.keys keyId = some key ∧ key.serviceAccountId = accountId ∧
      key.rotatedFromKeyId = previous ∧ (rest ≠ [] → key.revokedAt.isSome)) ∧
    Rotated tables accountId (some keyId) rest

variable {previous : Option KeyId} {chain front : List KeyId}

theorem Rotated.keeps (hkeeps : Keeps before after) (h : Rotated before accountId previous chain) :
    Rotated after accountId previous chain := by
  induction chain generalizing previous with
  | nil => trivial
  | cons keyId rest ih =>
    obtain ⟨⟨key, hkey, howner, horigin, hrevoked⟩, hrest⟩ := h
    obtain ⟨key', hkey', hfollows⟩ := hkeeps keyId key hkey
    refine ⟨⟨key', hkey', hfollows.owner.trans howner, hfollows.origin.trans horigin, fun hne => ?_⟩,
      ih hrest⟩
    obtain ⟨t, ht⟩ := Option.isSome_iff_exists.mp (hrevoked hne)
    rw [hfollows.revoked t ht]
    rfl

/-- The last key is revoked and replaced. -/
theorem Rotated.concat (h : Rotated tables accountId previous (front ++ [keyId]))
    (hkey : tables.keys keyId = some key) (hrevoked : key.revokedAt.isSome)
    (hkey' : tables.keys keyId' = some key') (howner : key'.serviceAccountId = accountId)
    (hfrom : key'.rotatedFromKeyId = some keyId) :
    Rotated tables accountId previous (front ++ [keyId] ++ [keyId']) := by
  induction front generalizing previous with
  | nil =>
    obtain ⟨⟨row, hrow, hrowOwner, hrowFrom, -⟩, -⟩ := h
    have hsame : key = row := Option.some.inj (hkey.symm.trans hrow)
    exact ⟨⟨row, hrow, hrowOwner, hrowFrom, fun _ => hsame ▸ hrevoked⟩,
      ⟨key', hkey', howner, hfrom, fun hne => absurd rfl hne⟩, trivial⟩
  | cons first front ih =>
    obtain ⟨⟨row, hrow, hrowOwner, hrowFrom, hrowRevoked⟩, hrest⟩ := h
    exact ⟨⟨row, hrow, hrowOwner, hrowFrom, fun _ => hrowRevoked (by simp)⟩, ih hrest⟩

/-- A key that is not revoked is the last one. -/
theorem Rotated.live (h : Rotated tables accountId previous chain) (hmem : keyId ∈ chain)
    (hkey : tables.keys keyId = some key) (hlive : key.revokedAt = none) :
    ∃ front, chain = front ++ [keyId] := by
  induction chain generalizing previous with
  | nil => exact absurd hmem List.not_mem_nil
  | cons first rest ih =>
    obtain ⟨⟨row, hrow, -, -, hrevoked⟩, hrest⟩ := h
    rcases List.mem_cons.mp hmem with rfl | hmem
    · have hend : rest = [] := by
        by_contra hne
        have hset := hrevoked hne
        rw [← Option.some.inj (hkey.symm.trans hrow), hlive] at hset
        exact nomatch hset
      exact ⟨[], by rw [hend, List.nil_append]⟩
    · obtain ⟨front, hfront⟩ := ih hrest hmem
      exact ⟨first :: front, by rw [hfront, List.cons_append]⟩

/-- Where a key of the chain was rotated from. -/
theorem Rotated.origin (h : Rotated tables accountId previous chain) (hmem : keyId ∈ chain)
    (hkey : tables.keys keyId = some key) :
    key.rotatedFromKeyId = previous ∨ ∃ other ∈ chain, key.rotatedFromKeyId = some other := by
  induction chain generalizing previous with
  | nil => exact absurd hmem List.not_mem_nil
  | cons first rest ih =>
    obtain ⟨⟨row, hrow, -, hfrom, -⟩, hrest⟩ := h
    rcases List.mem_cons.mp hmem with rfl | hmem
    · rw [Option.some.inj (hkey.symm.trans hrow)]
      exact Or.inl hfrom
    · refine Or.inr ?_
      rcases ih hrest hmem with hfirst | ⟨other, hother, horigin⟩
      · exact ⟨first, List.mem_cons_self, hfirst⟩
      · exact ⟨other, List.mem_cons_of_mem first hother, horigin⟩

/-- A chain does not branch. -/
theorem Rotated.unbranched (h : Rotated tables accountId previous chain) (hnodup : chain.Nodup)
    (hprevious : ∀ other ∈ chain, previous ≠ some other) (hmem : keyId ∈ chain)
    (hmem' : keyId' ∈ chain) (hkey : tables.keys keyId = some key)
    (hkey' : tables.keys keyId' = some key')
    (hsame : key.rotatedFromKeyId = key'.rotatedFromKeyId) : keyId = keyId' := by
  induction chain generalizing previous with
  | nil => exact absurd hmem List.not_mem_nil
  | cons first rest ih =>
    obtain ⟨⟨row, hrow, -, hfrom, -⟩, hrest⟩ := h
    obtain ⟨hfirst, hnodup⟩ := List.nodup_cons.mp hnodup
    -- a later key was rotated from a key of the chain, and the first one was not
    have hlater : ∀ {id : KeyId} {later : ServiceAccountKeyModel}, id ∈ rest →
        tables.keys id = some later → later.rotatedFromKeyId ≠ row.rotatedFromKeyId := by
      intro id later hid hlater heq
      rw [hfrom] at heq
      rcases hrest.origin hid hlater with hnext | ⟨other, hother, horigin⟩
      · exact hprevious first List.mem_cons_self (heq.symm.trans hnext)
      · exact hprevious other (List.mem_cons_of_mem first hother) (heq.symm.trans horigin)
    rcases List.mem_cons.mp hmem with rfl | hin
    · rcases List.mem_cons.mp hmem' with rfl | hin'
      · rfl
      · rw [Option.some.inj (hkey.symm.trans hrow)] at hsame
        exact absurd hsame.symm (hlater hin' hkey')
    · rcases List.mem_cons.mp hmem' with rfl | hin'
      · rw [Option.some.inj (hkey'.symm.trans hrow)] at hsame
        exact absurd hsame (hlater hin hkey)
      · refine ih hrest hnodup (fun other hother heq => hfirst ?_) hin hin'
        rw [Option.some.inj heq]
        exact hother

/-- The keys of an account, in the order of their rotation. -/
structure IsChain (tables : KeyTables) (accountId : AccountId) (chain : List KeyId) : Prop where
  ne_nil : chain ≠ []
  nodup : chain.Nodup
  mem_iff : ∀ keyId, keyId ∈ chain ↔
    ∃ key, tables.keys keyId = some key ∧ key.serviceAccountId = accountId
  rotated : Rotated tables accountId none chain

/-- Every key belongs to an account, and the keys of an account form a chain. -/
structure Chained (tables : KeyTables) : Prop where
  owned : ∀ keyId key, tables.keys keyId = some key →
    (tables.accounts key.serviceAccountId).isSome
  chain : ∀ accountId, (tables.accounts accountId).isSome → ∃ chain, IsChain tables accountId chain

/-- A commit that adds no key. -/
theorem Chained.of_keeps (h : Chained before) (hkeeps : Keeps before after)
    (haccounts : after.accounts = before.accounts)
    (hback : ∀ keyId key', after.keys keyId = some key' →
      ∃ key, before.keys keyId = some key ∧ key.serviceAccountId = key'.serviceAccountId) :
    Chained after where
  owned := fun keyId key' hkey' => by
    obtain ⟨key, hkey, howner⟩ := hback keyId key' hkey'
    rw [haccounts, ← howner]
    exact h.owned keyId key hkey
  chain := fun accountId haccount => by
    rw [haccounts] at haccount
    obtain ⟨chain, hchain⟩ := h.chain accountId haccount
    refine ⟨chain, hchain.ne_nil, hchain.nodup, fun keyId => ?_, hchain.rotated.keeps hkeeps⟩
    rw [hchain.mem_iff]
    constructor
    · rintro ⟨key, hkey, howner⟩
      obtain ⟨key', hkey', hfollows⟩ := hkeeps keyId key hkey
      exact ⟨key', hkey', hfollows.owner.trans howner⟩
    · rintro ⟨key', hkey', howner⟩
      obtain ⟨key, hkey, hsame⟩ := hback keyId key' hkey'
      exact ⟨key, hkey, hsame.trans howner⟩

/-- The other accounts keep their chains when a key is added. -/
theorem IsChain.of_insert {newKeyId : KeyId} (h : IsChain before accountId chain)
    (hkeeps : Keeps before after) (hkey : after.keys newKeyId = some key)
    (howner : key.serviceAccountId ≠ accountId)
    (hback : ∀ keyId key', after.keys keyId = some key' → keyId = newKeyId ∨
      ∃ key, before.keys keyId = some key ∧ key.serviceAccountId = key'.serviceAccountId) :
    IsChain after accountId chain where
  ne_nil := h.ne_nil
  nodup := h.nodup
  mem_iff := fun keyId => by
    rw [h.mem_iff]
    constructor
    · rintro ⟨row, hrow, hrowOwner⟩
      obtain ⟨row', hrow', hfollows⟩ := hkeeps keyId row hrow
      exact ⟨row', hrow', hfollows.owner.trans hrowOwner⟩
    · rintro ⟨row', hrow', hrowOwner⟩
      rcases hback keyId row' hrow' with rfl | ⟨row, hrow, hsame⟩
      · rw [Option.some.inj (hkey.symm.trans hrow')] at howner
        exact absurd hrowOwner howner
      · exact ⟨row, hrow, hsame.trans hrowOwner⟩
  rotated := h.rotated.keeps hkeeps

/-- Where the rows of a table come from in which one was replaced. -/
theorem back_update {f : KeyId → Option ServiceAccountKeyModel} {row' : ServiceAccountKeyModel}
    (hkey : f keyId = some key) (hrow' : Function.update f keyId (some key') keyId' = some row')
    (howner : key'.serviceAccountId = key.serviceAccountId) :
    ∃ row, f keyId' = some row ∧ row.serviceAccountId = row'.serviceAccountId := by
  by_cases hid : keyId' = keyId
  · subst hid
    rw [Function.update_self] at hrow'
    rw [← Option.some.inj hrow']
    exact ⟨key, hkey, howner.symm⟩
  · exact ⟨row', (Function.update_of_ne hid ..).symm.trans hrow', rfl⟩

/-- A new account has a chain of one key. -/
theorem Chained.created {account : ServiceAccountModel} (h : Chained before)
    (haccount : before.accounts accountId = none) (hkey : before.keys keyId = none)
    (howner : key.serviceAccountId = accountId) (hfirst : key.rotatedFromKeyId = none) :
    Chained { before with
      accounts := Function.update before.accounts accountId (some account)
      keys := Function.update before.keys keyId (some key) } := by
  have hcommit : KeyCommit before { before with
      accounts := Function.update before.accounts accountId (some account)
      keys := Function.update before.keys keyId (some key) } :=
    .created haccount hkey howner hfirst
  have hkeeps := keeps_of_commit hcommit
  have hnew : Function.update before.keys keyId (some key) keyId = some key :=
    Function.update_self ..
  have hold : ∀ id row, Function.update before.keys keyId (some key) id = some row →
      id ≠ keyId → before.keys id = some row :=
    fun id row hrow hid => (Function.update_of_ne hid ..).symm.trans hrow
  constructor
  · intro id row hrow
    show (Function.update before.accounts accountId (some account) _).isSome
    by_cases hid : id = keyId
    · subst hid
      rw [← Option.some.inj (hnew.symm.trans hrow), howner, Function.update_self]
      rfl
    · have hsome := h.owned id row (hold id row hrow hid)
      rwa [Function.update_of_ne]
      rintro heq
      rw [heq, haccount] at hsome
      exact nomatch hsome
  · intro other hother
    by_cases hid : other = accountId
    · subst hid
      refine ⟨[keyId], List.cons_ne_nil keyId [], List.nodup_singleton keyId, fun id => ?_,
        ⟨key, hnew, howner, hfirst, fun hne => absurd rfl hne⟩, trivial⟩
      rw [List.mem_singleton]
      constructor
      · rintro rfl
        exact ⟨key, hnew, howner⟩
      · rintro ⟨row, hrow, hrowOwner⟩
        by_contra hne
        have hsome := h.owned id row (hold id row hrow hne)
        rw [hrowOwner, haccount] at hsome
        exact nomatch hsome
    · have hbefore : (before.accounts other).isSome := by
        rwa [← Function.update_of_ne hid (some account) before.accounts]
      obtain ⟨chain, hchain⟩ := h.chain other hbefore
      refine ⟨chain, hchain.of_insert hkeeps hnew (fun heq => hid (heq.symm.trans howner))
        fun id row hrow => ?_⟩
      by_cases hne : id = keyId
      · exact Or.inl hne
      · exact Or.inr ⟨row, hold id row hrow hne, rfl⟩

/-- The chain of the account grows by the new key. -/
theorem Chained.rotated {newKeyId : KeyId} {now : Datetime} {old : ServiceAccountKeyModel}
    (h : Chained before) (hold : before.keys keyId = some old) (hlive : old.revokedAt = none)
    (hnew : before.keys newKeyId = none) (howner : key.serviceAccountId = old.serviceAccountId)
    (hfrom : key.rotatedFromKeyId = some keyId) :
    Chained { before with
      keys := Function.update
        (Function.update before.keys keyId (some { old with revokedAt := some now }))
        newKeyId (some key) } := by
  have hcommit : KeyCommit before { before with
      keys := Function.update
        (Function.update before.keys keyId (some { old with revokedAt := some now }))
        newKeyId (some key) } :=
    .rotated hold hlive hnew howner hfrom
  have hkeeps := keeps_of_commit hcommit
  have hne : keyId ≠ newKeyId := by
    rintro rfl
    rw [hnew] at hold
    exact nomatch hold
  set after : KeyTables := { before with
    keys := Function.update
      (Function.update before.keys keyId (some { old with revokedAt := some now }))
      newKeyId (some key) } with hafter
  have hkey : after.keys newKeyId = some key := Function.update_self ..
  have hrevoked : after.keys keyId = some { old with revokedAt := some now } :=
    (Function.update_of_ne hne ..).trans (Function.update_self ..)
  have hback : ∀ id row', after.keys id = some row' → id = newKeyId ∨
      ∃ row, before.keys id = some row ∧ row.serviceAccountId = row'.serviceAccountId := by
    intro id row' hrow'
    by_cases hid : id = newKeyId
    · exact Or.inl hid
    · exact Or.inr (back_update hold ((Function.update_of_ne hid ..).symm.trans hrow') rfl)
  constructor
  · intro id row' hrow'
    rcases hback id row' hrow' with rfl | ⟨row, hrow, hsame⟩
    · rw [← Option.some.inj (hkey.symm.trans hrow'), howner]
      exact h.owned keyId old hold
    · rw [← hsame]
      exact h.owned id row hrow
  · intro other hother
    obtain ⟨chain, hchain⟩ := h.chain other hother
    by_cases hid : old.serviceAccountId = other
    · obtain ⟨front, rfl⟩ := hchain.rotated.live ((hchain.mem_iff keyId).mpr ⟨old, hold, hid⟩)
        hold hlive
      refine ⟨front ++ [keyId] ++ [newKeyId], by simp, ?_, fun id => ?_,
        (hchain.rotated.keeps hkeeps).concat hrevoked rfl hkey (howner.trans hid) hfrom⟩
      · refine List.nodup_append.mpr ⟨hchain.nodup, List.nodup_singleton _, fun a ha b hb hab => ?_⟩
        obtain ⟨row, hrow, -⟩ := (hchain.mem_iff a).mp ha
        rw [hab, List.mem_singleton.mp hb, hnew] at hrow
        exact nomatch hrow
      · rw [List.mem_append, hchain.mem_iff, List.mem_singleton]
        constructor
        · rintro (⟨row, hrow, hrowOwner⟩ | rfl)
          · obtain ⟨row', hrow', hfollows⟩ := hkeeps id row hrow
            exact ⟨row', hrow', hfollows.owner.trans hrowOwner⟩
          · exact ⟨key, hkey, howner.trans hid⟩
        · rintro ⟨row', hrow', hrowOwner⟩
          rcases hback id row' hrow' with hlast | ⟨row, hrow, hsame⟩
          · exact Or.inr hlast
          · exact Or.inl ⟨row, hrow, hsame.trans hrowOwner⟩
    · exact ⟨chain, hchain.of_insert hkeeps hkey (fun heq => hid (howner.symm.trans heq)) hback⟩

/-- **A commit keeps the chains.** -/
theorem Chained.commit (h : Chained before) (hcommit : KeyCommit before after) : Chained after := by
  have hkeeps := keeps_of_commit hcommit
  cases hcommit with
  | created haccount hkey howner hfirst => exact h.created haccount hkey howner hfirst
  | rotated hold hlive hnew howner hfrom => exact h.rotated hold hlive hnew howner hfrom
  | revoked hkey => exact h.of_keeps hkeeps rfl fun id row' hrow' => back_update hkey hrow' rfl
  | @touched keyId now event =>
    refine h.of_keeps hkeeps rfl fun id row' hrow' => ?_
    cases hkey : before.keys keyId with
    | none =>
      simp only [hkey, Option.map_none] at hrow'
      rw [← hkey, Function.update_eq_self] at hrow'
      exact ⟨row', hrow', rfl⟩
    | some key =>
      simp only [hkey, Option.map_some] at hrow'
      exact back_update hkey hrow' rfl

end ServiceKeys
end Security
end Scam2Market
