import Scam2Market.Library.Fallible
import Scam2Market.Api.SourcePolicies

/-!
# The periods of the policies of a source

* `createSourcePolicy_ok`, `patchSourcePolicy_ok`: what a request that is accepted commits.
* `Separate`: no period stops before it starts, and the periods of one name are apart.
* `separate_iff`: the periods stay separate exactly in the runs in which every policy that is replaced is
  in force and the period of its replacement meets no other period of the name.  Creating a policy
  checks all periods of its name; replacing one checks none.
-/

namespace Scam2Market
namespace Api

open Library (Period updateWhere Always Throughout)
open Library.Fallible (bind_eq_ok)

namespace PolicyTables

/-! ## What the requests do -/

variable {t t' : PolicyTables}

theorem insert_ok {row : SourcePolicyModel} (h : t.insert row = .ok t') :
    t'.policies = t.policies ++ [row] ∧
      ∀ other ∈ t.policies, other.sourcePolicyId ≠ row.sourcePolicyId := by
  rw [insert] at h
  split_ifs at h with hid hversion
  rw [← Except.ok.inj h]
  exact ⟨rfl, fun other hother heq => hid (heq ▸ List.mem_map_of_mem hother)⟩

/-- What creating a policy commits: a row whose period is proper and apart from the periods of its
name. -/
theorem createSourcePolicy_ok {principal : Principal} {now : Datetime} {fresh : String}
    {body : SourcePolicyInput} (h : t.createSourcePolicy principal now fresh body = .ok t') :
    ∃ row : SourcePolicyModel, t'.policies = t.policies ++ [row] ∧
      row.sourcePolicyId = fresh ∧ (∀ other ∈ t.policies, other.sourcePolicyId ≠ fresh) ∧
      row.period.Proper ∧
      ∀ other ∈ t.policies, other.name = row.name → other.period.Apart row.period := by
  rw [createSourcePolicy] at h
  obtain ⟨-, -, h⟩ := bind_eq_ok.mp h
  obtain ⟨_, hwindow, h⟩ := bind_eq_ok.mp h
  obtain ⟨_, hoverlap, h⟩ := bind_eq_ok.mp h
  obtain ⟨tables, hinsert, h⟩ := bind_eq_ok.mp h
  rw [validatePolicyWindow] at hwindow
  obtain ⟨_, -, hwindow⟩ := bind_eq_ok.mp hwindow
  obtain ⟨hpolicies, hfresh⟩ := insert_ok hinsert
  refine ⟨body.row principal fresh, ?_, rfl, hfresh, ?_, fun other hother hname => ?_⟩
  · rw [← Except.ok.inj h]
    exact hpolicies
  · intro stop hstop
    exact le_of_not_ge fun hle => raiseIf_eq_ok.mp hwindow ⟨stop, hstop, hle⟩
  · -- a row that would still be open at the later start is one the query finds
    rw [Period.apart_iff]
    by_contra hopen
    simp only [not_or, not_exists, not_and, not_le] at hopen
    refine raiseIf_eq_ok.mp hoverlap (List.ne_nil_of_mem (List.mem_filter.mpr ⟨hother, ?_⟩))
    refine decide_eq_true ⟨hname, fun stop hstop => ?_, fun stop hstop => ?_⟩
    · exact (le_max_right _ _).trans_lt (hopen.1 stop hstop)
    · exact (le_max_left _ _).trans_lt (hopen.2 stop hstop)

/-- What a patch commits: the policy is in the table and has not ended; its period ends now, and the
period of the replacement starts now. -/
theorem patchSourcePolicy_ok {principal : Principal} {now : Datetime} {fresh id : String}
    {body : SourcePolicyPatch} (h : t.patchSourcePolicy principal now fresh id body = .ok t') :
    ∃ row ∈ t.policies, row.sourcePolicyId = id ∧ (∀ stop ∈ row.effectiveTo, now < stop) ∧
      ∃ next : SourcePolicyModel, t'.policies = (t.expire id now).policies ++ [next] ∧
        next.sourcePolicyId = fresh ∧ (∀ other ∈ t.policies, other.sourcePolicyId ≠ fresh) ∧
        next.name = row.name ∧ next.period = ⟨now, body.effectiveTo.getD none⟩ ∧
        ∀ stop ∈ body.effectiveTo.getD none, now < stop := by
  rw [patchSourcePolicy] at h
  cases hfind : t.policies.find? fun row => row.sourcePolicyId = id with
  | none =>
    rw [hfind] at h
    cases h
  | some row =>
    rw [hfind] at h
    obtain ⟨_, hopen, h⟩ := bind_eq_ok.mp h
    obtain ⟨-, -, h⟩ := bind_eq_ok.mp h
    obtain ⟨-, -, h⟩ := bind_eq_ok.mp h
    obtain ⟨config, -, h⟩ := bind_eq_ok.mp h
    obtain ⟨usages, -, h⟩ := bind_eq_ok.mp h
    obtain ⟨-, -, h⟩ := bind_eq_ok.mp h
    obtain ⟨_, hstop, h⟩ := bind_eq_ok.mp h
    obtain ⟨trustScore, -, h⟩ := bind_eq_ok.mp h
    obtain ⟨trustTier, -, h⟩ := bind_eq_ok.mp h
    obtain ⟨-, -, h⟩ := bind_eq_ok.mp h
    obtain ⟨tables, hinsert, h⟩ := bind_eq_ok.mp h
    obtain ⟨hpolicies, hfresh⟩ := insert_ok hinsert
    have hid : row.sourcePolicyId = id := by simpa using List.find?_some hfind
    refine ⟨row, List.mem_of_find?_eq_some hfind, hid,
      fun stop hmem => not_le.mp fun hle => raiseIf_eq_ok.mp hopen ⟨stop, hmem, hle⟩,
      replacement principal now fresh body row config usages trustScore trustTier, ?_, rfl,
      fun other hother heq => ?_, rfl, rfl,
      fun stop hmem => not_le.mp fun hle => raiseIf_eq_ok.mp hstop ⟨stop, hmem, hle⟩⟩
    · rw [← Except.ok.inj h]
      exact hpolicies
    · -- expiring a policy leaves the ids as they are
      have hids : (t.expire id now).policies.map SourcePolicyModel.sourcePolicyId =
          t.policies.map SourcePolicyModel.sourcePolicyId := Library.map_updateWhere fun _ => rfl
      have hmem : fresh ∈ (t.expire id now).policies.map SourcePolicyModel.sourcePolicyId := by
        rw [hids, ← heq]
        exact List.mem_map_of_mem hother
      obtain ⟨expired, hexpired, hsame⟩ := List.mem_map.mp hmem
      exact hfresh expired hexpired hsame

/-! ## Separate periods -/

/-- No period stops before it starts, and no instant is in the periods of two policies of a name. -/
structure Separate (t : PolicyTables) : Prop where
  proper : ∀ row ∈ t.policies, row.period.Proper
  apart : ∀ row ∈ t.policies, ∀ other ∈ t.policies, row.name = other.name →
    row.sourcePolicyId ≠ other.sourcePolicyId → row.period.Apart other.period

/-- At most one policy of a source is in force at any instant. -/
theorem Separate.unique (h : t.Separate) {row other : SourcePolicyModel} (hrow : row ∈ t.policies)
    (hother : other ∈ t.policies) (hname : row.name = other.name) {instant : Datetime}
    (hin : row.period.Contains instant) (hin' : other.period.Contains instant) : row = other := by
  by_contra hne
  have hids : row.sourcePolicyId ≠ other.sourcePolicyId :=
    fun heq => hne (Library.eq_of_key_eq t.ids_nodup hrow hother heq)
  exact h.apart row hrow other hother hname hids instant hin hin'

theorem separate_empty : ({} : PolicyTables).Separate :=
  ⟨fun _ h => absurd h List.not_mem_nil, fun _ h => absurd h List.not_mem_nil⟩

/-- A row with a new id and a proper period, apart from the others of its name, can be added. -/
theorem Separate.concat (h : t.Separate) {row : SourcePolicyModel}
    (hpolicies : t'.policies = t.policies ++ [row]) (hproper : row.period.Proper)
    (hapart : ∀ other ∈ t.policies, other.name = row.name → other.period.Apart row.period) :
    t'.Separate := by
  have hmem : ∀ {other}, other ∈ t'.policies → other ∈ t.policies ∨ other = row := by
    intro other hother
    rw [hpolicies] at hother
    exact (List.mem_append.mp hother).imp_right List.mem_singleton.mp
  refine ⟨fun other hother => ?_, fun one hone other hother hname hne => ?_⟩
  · rcases hmem hother with hold | rfl
    · exact h.proper other hold
    · exact hproper
  · rcases hmem hone with hold | rfl
    · rcases hmem hother with hold' | rfl
      · exact h.apart one hold other hold' hname hne
      · exact hapart one hold hname
    · rcases hmem hother with hold' | rfl
      · exact (hapart other hold' hname.symm).symm
      · exact absurd rfl hne

/-- A row of the table once a policy has expired. -/
theorem mem_expire {id : String} {now : Datetime} {row : SourcePolicyModel}
    (h : row ∈ (t.expire id now).policies) :
    (∃ old ∈ t.policies, old.sourcePolicyId = id ∧ row = old.expiredAt now) ∨
      row ∈ t.policies ∧ row.sourcePolicyId ≠ id := by
  obtain ⟨old, hold, heq⟩ := Library.mem_updateWhere.mp h
  by_cases hid : old.sourcePolicyId = id
  · rw [if_pos (decide_eq_true hid)] at heq
    exact Or.inl ⟨old, hold, hid, heq.symm⟩
  · rw [if_neg (by simpa using hid)] at heq
    exact Or.inr (heq ▸ ⟨hold, hid⟩)

theorem mem_expire_of_ne {id : String} {now : Datetime} {row : SourcePolicyModel}
    (h : row ∈ t.policies) (hid : row.sourcePolicyId ≠ id) : row ∈ (t.expire id now).policies :=
  Library.mem_updateWhere_of_neg h (decide_eq_false hid)

/-- Ending a policy that is in force keeps the periods separate. -/
theorem Separate.expire (h : t.Separate) {id : String} {now : Datetime}
    (hforce : ∀ row ∈ t.policies, row.sourcePolicyId = id → row.period.Contains now) :
    (t.expire id now).Separate := by
  refine ⟨fun row hrow => ?_, fun row hrow other hother hname hne => ?_⟩
  · rcases mem_expire hrow with ⟨old, hold, hid, rfl⟩ | ⟨hold, -⟩
    · intro stop hstop
      exact (Option.some.inj hstop) ▸ (hforce old hold hid).1
    · exact h.proper row hold
  · rcases mem_expire hrow with ⟨old, hold, hid, rfl⟩ | ⟨hold, hid⟩
    · rcases mem_expire hother with ⟨old', -, hid', rfl⟩ | ⟨hold', hid'⟩
      · exact absurd (hid.trans hid'.symm) hne
      · have hapart := h.apart old hold other hold' hname hne
        exact hapart.cut (hforce old hold hid).2
    · rcases mem_expire hother with ⟨old', hold', hid', rfl⟩ | ⟨hold', -⟩
      · have hapart := h.apart old' hold' row hold hname.symm hne.symm
        exact (hapart.cut (hforce old' hold' hid').2).symm
      · exact h.apart row hold other hold' hname hne

/-! ## Runs of requests -/

/-- The policy is in force, and the period of its replacement meets no other period of the name. -/
def Replaceable (t : PolicyTables) (id : String) (now : Datetime) (effectiveTo : Option Datetime) :
    Prop :=
  ∀ row ∈ t.policies, row.sourcePolicyId = id →
    row.effectiveFrom ≤ now ∧
      ∀ other ∈ t.policies, other.name = row.name → other.sourcePolicyId ≠ id →
        other.period.Apart ⟨now, effectiveTo⟩

/-- The condition on a request that is accepted: a policy is only replaced where it can be. -/
def Careful (t : PolicyTables) (request : PolicyRequest) : Prop :=
  ∀ tables, t.handle request = .ok tables →
    match request with
    | .create .. => True
    | .patch _ now _ id body => t.Replaceable id now (body.effectiveTo.getD none)

theorem step_of_ok {request : PolicyRequest} (h : t.handle request = .ok t') :
    t.step request = t' := by
  rw [step, h]

/-- What a patch leaves is separate exactly when the policy could be replaced. -/
theorem separate_patch_iff (ht : t.Separate) {principal : Principal} {now : Datetime}
    {fresh id : String} {body : SourcePolicyPatch}
    (h : t.patchSourcePolicy principal now fresh id body = .ok t') :
    t'.Separate ↔ t.Replaceable id now (body.effectiveTo.getD none) := by
  obtain ⟨row, hrow, hid, hopen, next, hpolicies, hnext, hfresh, hname, hperiod, hstop⟩ :=
    patchSourcePolicy_ok h
  have hold : ∀ {other}, other ∈ (t.expire id now).policies → other ∈ t'.policies := by
    intro other hother
    rw [hpolicies]
    exact List.mem_append_left _ hother
  have hnew : next ∈ t'.policies := by
    rw [hpolicies]
    exact List.mem_append_right _ (List.mem_singleton_self next)
  constructor
  · -- the expired row must not stop before it starts, and the rows left alone must be apart
    intro hsep old hold' hid'
    have heq : old = row := Library.eq_of_key_eq t.ids_nodup hold' hrow (hid'.trans hid.symm)
    have hexpired : row.expiredAt now ∈ t'.policies :=
      hold (Library.mem_updateWhere_of_pos hrow (decide_eq_true hid))
    rw [heq]
    refine ⟨hsep.proper _ hexpired now rfl, fun other hother hother' hne => ?_⟩
    have hapart := hsep.apart other (hold (mem_expire_of_ne hother hne)) next hnew
      (hother'.trans hname.symm) (hnext ▸ hfresh other hother)
    rwa [hperiod] at hapart
  · intro hrep
    obtain ⟨hfrom, hothers⟩ := hrep row hrow hid
    have hforce : ∀ old ∈ t.policies, old.sourcePolicyId = id → old.period.Contains now := by
      intro old hold' hid'
      rw [Library.eq_of_key_eq t.ids_nodup hold' hrow (hid'.trans hid.symm)]
      exact ⟨hfrom, hopen⟩
    refine (ht.expire hforce).concat hpolicies ?_ fun other hother hother' => ?_
    · rw [hperiod]
      exact fun stop hmem => (hstop stop hmem).le
    · rw [hperiod]
      rcases mem_expire hother with ⟨old, -, -, rfl⟩ | ⟨hmem, hne⟩
      · exact Period.cut_apart old.period now _
      · exact hothers other hmem (hother'.trans hname) hne

/-- **When the periods of a source stay separate.**  In every run of create and patch requests on an
empty table, no period stops before it starts and no two periods of a name meet, in every state,
exactly when every policy that is replaced is in force and the period of its replacement meets no
other period of its name. -/
theorem separate_iff (requests : List PolicyRequest) :
    Always step Separate {} requests ↔ Throughout step Careful {} requests := by
  refine Library.always_iff_throughout (I := Separate) ?_ (fun _ h => h) ?_ separate_empty requests
  · intro t request ht hcareful
    cases hhandle : t.handle request with
    | error e => rwa [step, hhandle]
    | ok tables =>
      rw [step_of_ok hhandle]
      have hrep := hcareful tables hhandle
      cases request with
      | create principal now fresh body =>
        obtain ⟨row, hpolicies, -, -, hproper, hapart⟩ := createSourcePolicy_ok hhandle
        exact ht.concat hpolicies hproper hapart
      | patch principal now fresh id body => exact (separate_patch_iff ht hhandle).mpr hrep
  · intro t request ht hcareless hsep
    refine hcareless fun tables hhandle => ?_
    rw [step_of_ok hhandle] at hsep
    cases request with
    | create principal now fresh body => trivial
    | patch principal now fresh id body => exact (separate_patch_iff ht hhandle).mp hsep

/-! ## Two policies in force -/

/-- A policy of a source, in force from an instant on. -/
def sourceInput (version : String) (effectiveFrom : Datetime) (effectiveTo : Option Datetime)
    (h : 1 ≤ version.length ∧ version.length ≤ 64) : SourcePolicyInput where
  name := "regulator"
  sourceClass := "OFFICIAL"
  sourceType := "FILING"
  connectorType := .secEdgar
  connectorConfig := .empty
  trustScore := 1
  trustTier := "TIER_1"
  licenseAllowedUsages := []
  policyVersion := version
  canonicalDomains := []
  effectiveFrom := effectiveFrom
  effectiveTo := effectiveTo
  policyVersion_length := h

/-- A policy until 100 and its successor from 100 on; the first one is replaced at 50. -/
def replacedBeforeSuccessor : List PolicyRequest :=
  let principal : Principal := { subject := "admin", tenantId := "default" }
  [.create principal 0 "p1" (sourceInput "v1" 0 (some 100) (by decide)),
    .create principal 0 "p2" (sourceInput "v2" 100 none (by decide)),
    .patch principal 50 "p3" "p1" { policyVersion := "v3" }]

/-- A policy from 100 on, replaced at 50. -/
def replacedBeforeStart : List PolicyRequest :=
  let principal : Principal := { subject := "admin", tenantId := "default" }
  [.create principal 0 "p1" (sourceInput "v1" 100 none (by decide)),
    .patch principal 50 "p2" "p1" { policyVersion := "v2" }]

/-- The first run is accepted and leaves two policies of the source in force from 100 on; the second is
accepted and leaves a policy that stops before it starts. -/
theorem replaced_periods_meet :
    (Throughout step (fun t request => (t.handle request).isOk = true) {} replacedBeforeSuccessor ∧
      ¬ Always step Separate {} replacedBeforeSuccessor) ∧
    (Throughout step (fun t request => (t.handle request).isOk = true) {} replacedBeforeStart ∧
      ¬ Always step Separate {} replacedBeforeStart) := by
  have hmeet : ∃ row ∈ (Library.run step {} replacedBeforeSuccessor).policies,
      ∃ other ∈ (Library.run step {} replacedBeforeSuccessor).policies,
        row.name = other.name ∧ row.sourcePolicyId ≠ other.sourcePolicyId ∧
          row.period.Contains 150 ∧ other.period.Contains 150 := by decide +kernel
  have hinverted : ∃ row ∈ (Library.run step {} replacedBeforeStart).policies,
      ¬ row.period.Proper := by decide +kernel
  refine ⟨⟨⟨by decide +kernel, by decide +kernel, by decide +kernel, trivial⟩, fun halways => ?_⟩,
    ⟨by decide +kernel, by decide +kernel, trivial⟩, fun halways => ?_⟩
  · obtain ⟨row, hrow, other, hother, hname, hne, hin, hin'⟩ := hmeet
    exact halways.final.apart row hrow other hother hname hne 150 hin hin'
  · obtain ⟨row, hrow, hproper⟩ := hinverted
    exact hproper (halways.final.proper row hrow)

end PolicyTables
end Api
end Scam2Market
