import Scam2Market.Governance.RegistrySafety

/-!
# The history of the aliases

The audit log says which artifact every assignment and every promotion gave to which alias.

* `replayed_iff`: the aliases are what the log says, entry by entry, exactly as long as no request assigns
  the artifact that it has found, when the alias has been given another one since.
* `replayed_assign` and `replayed_promote`: what one commit does to the agreement.
-/

namespace Scam2Market
namespace Governance

open Api Library Library.Database

variable {service : GovernanceService} {s s' : GovernanceTables} {key : AliasKey}

/-! ## The audit log -/

/-- The family of an artifact. -/
def GovernanceTables.familyOf (tables : GovernanceTables) (artifactId : ArtifactId) : Option String :=
  (tables.artifact? artifactId).map ModelArtifact.modelFamily

/-- What an entry of the audit log says about the aliases. -/
def AuditLog.replay (familyOf : ArtifactId → Option String) (aliases : AliasKey → Option ArtifactId) :
    AuditLog → AliasKey → Option ArtifactId
  | registerModelArtifact .. => aliases
  | assignModelAlias _ target _ _ newArtifactId => Function.update aliases target (some newArtifactId)
  | modelPromotionDecision _ _ targetId _ status _ =>
    match familyOf targetId with
    | some family =>
      if status = "PROMOTED" then Function.update aliases (family, "CHAMPION") (some targetId)
      else aliases
    | none => aliases

/-- The aliases that the audit log leads to. -/
def GovernanceTables.replayed (tables : GovernanceTables) : AliasKey → Option ArtifactId :=
  tables.audit.foldl (AuditLog.replay tables.familyOf) fun _ => none

/-- The artifacts of the aliases. -/
def GovernanceTables.aliasIds (tables : GovernanceTables) : AliasKey → Option ArtifactId := fun key =>
  (tables.aliases key).map ModelAlias.modelArtifactId

/-- The aliases are what the audit log says. -/
def Replayed (s : GovernanceTables) : Prop :=
  s.aliasIds = s.replayed

/-- An entry that assigns no alias. -/
def AuditLog.Quiet : AuditLog → Prop
  | registerModelArtifact .. => True
  | assignModelAlias .. => False
  | modelPromotionDecision _ _ _ _ status _ => status ≠ "PROMOTED"

/-- What the handlers commit: writes that assign no alias, assignments and promotions. -/
inductive Kind : (GovernanceTables → Except RequestError GovernanceTables) → Prop
  | quiet {write : GovernanceTables → Except RequestError GovernanceTables}
      (h : ∀ s s', write s = .ok s' → s'.aliases = s.aliases ∧
        ∃ entries, s'.audit = s.audit ++ entries ∧ ∀ entry ∈ entries, entry.Quiet) : Kind write
  | assign (key : AliasKey) (loaded : Option ModelAlias) (body : AliasAssignment) (caller : Caller) :
      Kind (assignWrite key loaded body caller)
  | promote (loaded : Option ModelAlias) (caller : Caller) {decision : ModelPromotionDecision}
      (h : decision.status = "PROMOTED") : Kind (promotionWrite loaded caller decision)

/-- The alias had the artifact when it was loaded, and has another one now. -/
def Moved (s : GovernanceTables) (key : AliasKey) (loaded : ModelAlias) (artifactId : ArtifactId) : Prop :=
  loaded.modelArtifactId = artifactId ∧
    ∃ current, s.aliases key = some current ∧ current.modelArtifactId ≠ artifactId

/-- A write that assigns the artifact it has found, to an alias that has been given another one since. -/
inductive StaleAssignment : (GovernanceTables → Except RequestError GovernanceTables) →
    GovernanceTables → Prop
  | assign {s : GovernanceTables} {key : AliasKey} {loaded : ModelAlias} {body : AliasAssignment}
      (caller : Caller)
      (h : Moved s key loaded body.modelArtifactId) :
      StaleAssignment (assignWrite key (some loaded) body caller) s
  | promote {s : GovernanceTables} {loaded : ModelAlias} (caller : Caller)
      {decision : ModelPromotionDecision} (hpromoted : decision.status = "PROMOTED")
      (h : Moved s (decision.modelFamily, "CHAMPION") loaded decision.candidateArtifactId) :
      StaleAssignment (promotionWrite (some loaded) caller decision) s

/-! ## The families of artifacts -/

theorem RegistrySound.familyOf (h : RegistrySound service s) {artifactId : ArtifactId} {family : String}
    (hartifact : IsArtifact s artifactId family) : s.familyOf artifactId = some family := by
  obtain ⟨artifact, hmem, hid, hfamily⟩ := hartifact
  cases hfound : s.artifact? artifactId with
  | none =>
    have hnone := List.find?_eq_none.mp hfound artifact hmem
    exact absurd (decide_eq_true hid) hnone
  | some found =>
    obtain ⟨hfoundMem, hfoundId⟩ := artifact?_mem hfound
    have hsame : found = artifact :=
      List.inj_on_of_nodup_map h.artifactIds hfoundMem hmem (hfoundId.trans hid.symm)
    rw [GovernanceTables.familyOf, hfound, hsame]
    exact congrArg some hfamily

/-- The target of a decision is an artifact. -/
theorem RegistrySound.target (h : RegistrySound service s) {tenantId actorId reason status : String}
    {targetId : ArtifactId} {checks : List (String × Bool)}
    (hentry : AuditLog.modelPromotionDecision tenantId actorId targetId reason status checks ∈ s.audit) :
    ∃ family, IsArtifact s targetId family := by
  have hfiltered : AuditLog.modelPromotionDecision tenantId actorId targetId reason status checks ∈
      s.audit.filter AuditLog.isDecision := List.mem_filter.mpr ⟨hentry, rfl⟩
  rw [h.audited] at hfiltered
  obtain ⟨decision, hdecision, heq⟩ := List.mem_map.mp hfiltered
  obtain ⟨-, -, rfl, -⟩ := AuditLog.modelPromotionDecision.inj heq
  exact ⟨_, (h.decided decision hdecision).candidate⟩

/-- What was in the log is replayed as before. -/
theorem RegistrySound.replayed_append (h : RegistrySound service s) (h' : RegistrySound service s')
    (hgrows : Grows s s') {entries : List AuditLog} (haudit : s'.audit = s.audit ++ entries) :
    s'.replayed = entries.foldl (AuditLog.replay s'.familyOf) s.replayed := by
  rw [GovernanceTables.replayed, haudit, List.foldl_append]
  congr 1
  refine List.foldl_ext _ _ _ fun aliases entry hentry => ?_
  cases entry with
  | registerModelArtifact => rfl
  | assignModelAlias => rfl
  | modelPromotionDecision tenantId actorId targetId reason status checks =>
    obtain ⟨family, hartifact⟩ := h.target hentry
    simp only [AuditLog.replay, h.familyOf hartifact, h'.familyOf (hartifact.of_grows hgrows)]

theorem replay_quiet (familyOf : ArtifactId → Option String) (aliases : AliasKey → Option ArtifactId)
    {entry : AuditLog} (h : entry.Quiet) : entry.replay familyOf aliases = aliases := by
  cases entry with
  | registerModelArtifact => rfl
  | assignModelAlias => exact h.elim
  | modelPromotionDecision tenantId actorId targetId reason status checks =>
    simp only [AuditLog.replay]
    split
    · rw [if_neg h]
    · rfl

theorem foldl_replay_quiet (familyOf : ArtifactId → Option String)
    (aliases : AliasKey → Option ArtifactId) {entries : List AuditLog}
    (h : ∀ entry ∈ entries, entry.Quiet) : entries.foldl (AuditLog.replay familyOf) aliases = aliases := by
  induction entries with
  | nil => rfl
  | cons entry entries ih =>
    obtain ⟨hentry, hrest⟩ := List.forall_mem_cons.mp h
    rw [List.foldl_cons, replay_quiet familyOf aliases hentry, ih hrest]

/-! ## Commits -/

/-- Two assignments of an alias agree exactly when they give it the same artifact. -/
theorem update_eq_update_iff {aliases : AliasKey → Option ArtifactId} {artifactId artifactId' : ArtifactId} :
    Function.update aliases key (some artifactId) = Function.update aliases key (some artifactId') ↔
      artifactId = artifactId' := by
  constructor
  · intro h
    have hkey := congrFun h key
    rw [Function.update_self, Function.update_self] at hkey
    exact Option.some.inj hkey
  · rintro rfl
    rfl

/-- The artifacts of the aliases, when one row is written. -/
theorem aliasIds_update {written : ModelAlias} (haliases : s'.aliases =
    Function.update s.aliases key (some written)) :
    s'.aliasIds = Function.update s.aliasIds key (some written.modelArtifactId) := by
  funext key'
  rw [GovernanceTables.aliasIds, haliases]
  by_cases hkey : key' = key
  · subst hkey
    rw [Function.update_self, Function.update_self]
    rfl
  · rw [Function.update_of_ne hkey, Function.update_of_ne hkey]
    rfl

/-- When the row that is written has the artifact that is assigned. -/
theorem putAlias_eq_iff {loaded : Option ModelAlias} {row : ModelAlias}
    (h : s.putAlias key loaded row = .ok s') :
    ∃ written, s'.aliases = Function.update s.aliases key (some written) ∧ s'.audit = s.audit ∧
      (written.modelArtifactId = row.modelArtifactId ↔
        ¬∃ old, loaded = some old ∧ Moved s key old row.modelArtifactId) := by
  unfold GovernanceTables.putAlias at h
  split at h
  · refine ⟨row, by rw [← Except.ok.inj h], by rw [← Except.ok.inj h], iff_of_true rfl ?_⟩
    rintro ⟨old, hold, -⟩
    cases hold
  · cases h
  · rename_i old current hcurrent
    refine ⟨old.update row current, by rw [← Except.ok.inj h], by rw [← Except.ok.inj h], ?_⟩
    show changed _ _ _ = _ ↔ _
    rw [changed]
    split_ifs with hsame
    · constructor
      · rintro heq ⟨old', hold, -, other, hother, hne⟩
        rw [hcurrent] at hother
        obtain rfl := Option.some.inj hother
        exact hne heq
      · intro hnot
        by_contra hne
        exact hnot ⟨old, rfl, hsame.symm, current, hcurrent, hne⟩
    · refine iff_of_true rfl ?_
      rintro ⟨old', hold, hloaded, -⟩
      obtain rfl := Option.some.inj hold
      exact hsame hloaded.symm
  · cases h

/-- What an assignment does to the agreement with the log. -/
theorem replayed_assign (h : RegistrySound service s) (h' : RegistrySound service s') (hgrows : Grows s s')
    (hreplayed : Replayed s) {loaded : Option ModelAlias} {body : AliasAssignment} {caller : Caller}
    (hwrite : assignWrite key loaded body caller s = .ok s') :
    Replayed s' ↔ ¬∃ old, loaded = some old ∧ Moved s key old body.modelArtifactId := by
  obtain ⟨tables, hput, haudit⟩ := Fallible.bind_eq_ok.mp hwrite
  obtain ⟨written, haliases, hsame, hiff⟩ := putAlias_eq_iff hput
  have hs' := addAudit_eq_ok haudit
  have hlog : s'.audit = s.audit ++ [.assignModelAlias caller.actorId key body.reason
      (loaded.map ModelAlias.modelArtifactId) body.modelArtifactId] := by
    rw [hs', ← hsame]
  have hwritten : s'.aliases = Function.update s.aliases key (some written) := by
    rw [hs', ← haliases]
  rw [Replayed, h.replayed_append h' hgrows hlog, aliasIds_update hwritten, hreplayed]
  exact update_eq_update_iff.trans hiff

/-- What a promotion does to the agreement with the log. -/
theorem replayed_promote (h : RegistrySound service s) (h' : RegistrySound service s')
    (hgrows : Grows s s') (hreplayed : Replayed s) {loaded : Option ModelAlias} {caller : Caller}
    {decision : ModelPromotionDecision} (hpromoted : decision.status = "PROMOTED")
    (hwrite : promotionWrite loaded caller decision s = .ok s') :
    Replayed s' ↔ ¬∃ old, loaded = some old ∧
      Moved s (decision.modelFamily, "CHAMPION") old decision.candidateArtifactId := by
  obtain ⟨tables, hput, hdecision⟩ := Fallible.bind_eq_ok.mp hwrite
  obtain ⟨written, haliases, hsame, hiff⟩ := putAlias_eq_iff hput
  have hs' := decisionWrite_eq_ok hdecision
  have hlog : s'.audit = s.audit ++ [decision.auditLog] := by
    rw [hs', ← hsame]
  have hwritten : s'.aliases =
      Function.update s.aliases (decision.modelFamily, "CHAMPION") (some written) := by
    rw [hs', ← haliases]
  have hthere : decision ∈ s'.decisions := by
    rw [hs']
    exact List.mem_append_right _ List.mem_cons_self
  have hfamily := h'.familyOf (h'.decided decision hthere).candidate
  have hentry : decision.auditLog.replay s'.familyOf s.replayed = Function.update s.replayed
      (decision.modelFamily, "CHAMPION") (some decision.candidateArtifactId) := by
    simp only [ModelPromotionDecision.auditLog, AuditLog.replay, hfamily, if_pos hpromoted]
  rw [Replayed, h.replayed_append h' hgrows hlog, aliasIds_update hwritten, hreplayed]
  show _ = decision.auditLog.replay s'.familyOf s.replayed ↔ _
  rw [hentry]
  exact update_eq_update_iff.trans hiff

/-- **Only a stale assignment takes the aliases away from the log.** -/
theorem replayed_commit (write : GovernanceTables → Except RequestError GovernanceTables)
    (s s' : GovernanceTables) (hkind : Kind write) (hgrows : Grows s s') (h : RegistrySound service s)
    (h' : RegistrySound service s') (hreplayed : Replayed s) (hwrite : write s = .ok s') :
    Replayed s' ↔ ¬StaleAssignment write s := by
  have hstale : StaleAssignment write s → ¬Replayed s' := by
    intro hstale
    cases hstale with
    | assign caller hmoved =>
      rw [replayed_assign h h' hgrows hreplayed hwrite]
      exact not_not.mpr ⟨_, rfl, hmoved⟩
    | promote caller hpromoted hmoved =>
      rw [replayed_promote h h' hgrows hreplayed hpromoted hwrite]
      exact not_not.mpr ⟨_, rfl, hmoved⟩
  refine ⟨fun hstill h => hstale h hstill, fun hfresh => ?_⟩
  cases hkind with
  | quiet hquiet =>
    obtain ⟨haliases, entries, haudit, hentries⟩ := hquiet s s' hwrite
    rw [Replayed, h.replayed_append h' hgrows haudit, foldl_replay_quiet _ _ hentries, ← hreplayed]
    funext key
    rw [GovernanceTables.aliasIds, GovernanceTables.aliasIds, haliases]
  | assign key loaded body caller =>
    rw [replayed_assign h h' hgrows hreplayed hwrite]
    rintro ⟨old, rfl, hmoved⟩
    exact hfresh (.assign caller hmoved)
  | promote loaded caller hpromoted =>
    rw [replayed_promote h h' hgrows hreplayed hpromoted hwrite]
    rintro ⟨old, rfl, hmoved⟩
    exact hfresh (.promote caller hpromoted hmoved)

/-! ## What the handlers commit -/

theorem commits_select {next : GovernanceTables → Handler} (h : ∀ s, (next s).Commits Kind) :
    (Transaction.select next : Handler).Commits Kind :=
  h

theorem kind_insert {change : GovernanceTables → GovernanceTables}
    (hchange : ∀ s, (change s).aliases = s.aliases ∧ (change s).audit = s.audit) :
    Kind fun s => .ok (change s) := by
  refine .quiet fun s s' hwrite => ?_
  rw [← Except.ok.inj hwrite, (hchange s).1, (hchange s).2]
  exact ⟨rfl, [], (List.append_nil _).symm, fun _ h => absurd h List.not_mem_nil⟩

theorem commits_decidePromotion {settings : GovernanceSettings} {body : PromotionRequest} {caller : Caller}
    {evidence : PromotionEvidence} :
    (decidePromotion settings body caller evidence).Commits Kind := by
  simp only [decidePromotion]
  split_ifs with hpromoted
  · split
    · exact Kind.promote _ caller hpromoted
    · exact commits_select fun s => Kind.promote _ caller hpromoted
  · refine Kind.quiet fun s s' hwrite => ?_
    rw [decisionWrite_eq_ok hwrite]
    refine ⟨rfl, _, rfl, fun entry hentry => ?_⟩
    rw [List.mem_singleton.mp hentry]
    exact hpromoted

theorem commits_handler (caller : Caller) (request : GovernanceRequest) :
    (service.handler caller request).Commits Kind := by
  cases request with
  | createCalibrationLabel body => exact kind_insert fun _ => ⟨rfl, rfl⟩
  | reportModelDrift body => exact kind_insert fun _ => ⟨rfl, rfl⟩
  | createFalsePositiveReport body => exact kind_insert fun _ => ⟨rfl, rfl⟩
  | registerModelArtifact body =>
    refine commits_select fun s => ?_
    split
    · exact kind_insert fun _ => ⟨rfl, rfl⟩
    · refine Kind.quiet fun t t' hwrite => ?_
      obtain ⟨tables, hadd, haudit⟩ := Fallible.bind_eq_ok.mp hwrite
      rw [GovernanceTables.addArtifact] at hadd
      split_ifs at hadd
      rw [addAudit_eq_ok haudit, ← Except.ok.inj hadd]
      refine ⟨rfl, _, rfl, fun entry hentry => ?_⟩
      rw [List.mem_singleton.mp hentry]
      trivial
  | assignModelAlias modelFamily aliasName body =>
    show (assignModelAlias service.upper modelFamily aliasName body caller).Commits Kind
    rw [assignModelAlias]
    split
    · trivial
    · refine commits_select fun s => ?_
      split
      · trivial
      · exact commits_select fun t => Kind.assign _ _ body caller
  | fitCalibration body =>
    refine commits_select fun s => ?_
    split
    · trivial
    · refine commits_select fun t => ?_
      split
      · trivial
      · exact commits_select fun u => kind_insert fun _ => ⟨rfl, rfl⟩
  | evaluatePromotion body =>
    have hrest : ∀ candidate calibration championAlias championBrier,
        (evaluateRest service.settings body caller candidate calibration championAlias
          championBrier).Commits Kind := fun _ _ _ _ =>
      commits_select fun _ => commits_select fun _ => commits_decidePromotion
    refine commits_select fun s => ?_
    split
    · trivial
    · refine commits_select fun t => ?_
      split
      · trivial
      · refine commits_select fun u => ?_
        simp only
        split
        · exact hrest _ _ _ _
        · split_ifs
          · exact hrest _ _ _ _
          · exact commits_select fun v => hrest _ _ _ _

/-- **The aliases are what the audit log says**, exactly as long as no request assigns an alias the artifact
that it has found there, when the alias has been given another one since: the `UPDATE` then leaves the
artifact out. -/
theorem replayed_iff {ι : Type} [DecidableEq ι] (service : GovernanceService)
    (requests : ι → Caller × GovernanceRequest) (moves : List (Move ι)) :
    Always (step noRow) (fun db => Replayed db.state) (registry service requests) moves ↔
      Throughout (step noRow) (fun db move => ¬CommitsStale StaleAssignment db move)
        (registry service requests) moves := by
  have hempty : Replayed {} := rfl
  exact always_iff_never_stale (lasting_answered service) noRow (registrySound_empty service)
    (fun i => guarantees_handler (requests i).2)
    (fun i => commits_handler (requests i).1 (requests i).2) hempty replayed_commit moves

/-! ### A run that leaves the log -/

/-- A hash of sixty-four equal digits. -/
def sampleHash : String :=
  String.ofList (List.replicate 64 'a')

theorem isHash_ofList {digits : List Char} (hlength : digits.length = 64)
    (hdigits : ∀ c ∈ digits, c = 'a') : IsHash (String.ofList digits) := by
  refine ⟨String.length_ofList.trans hlength, fun c hc => ?_⟩
  rw [String.toList_ofList] at hc
  rw [hdigits c hc]
  decide

theorem isHash_sampleHash : IsHash sampleHash :=
  isHash_ofList List.length_replicate fun _ hc => List.eq_of_mem_replicate hc

theorem noRun_length : ∀ id ∈ (none : Option String), id.length ≤ 128 :=
  fun _ h => by cases h

/-- A version of a model. -/
def sampleVersion (name : String) (h : 1 ≤ name.length ∧ name.length ≤ 64 := by decide) :
    ModelArtifactCreate where
  modelFamily := "pump"
  modelVersion := name
  artifactUri := "s3://"
  artifactHash := sampleHash
  inputSchemaHash := sampleHash
  modelFamily_length := by decide
  modelVersion_length := h
  artifactUri_length := by decide
  artifactHash_pattern := isHash_sampleHash
  inputSchemaHash_pattern := isHash_sampleHash
  trainingDataHash_pattern := by simp
  mlflowRunId_length := noRun_length

/-- Two versions, and three assignments: of the first one, of the first one again, and of the second. -/
def sampleRequests (i : Fin 5) : Caller × GovernanceRequest :=
  let assign (body : ModelArtifactCreate) : GovernanceRequest :=
    .assignModelAlias "pump" "CHAMPION" ⟨body.artifactId, "manual", by decide⟩
  (⟨"default", "analyst", i, i⟩,
    [.registerModelArtifact (sampleVersion "1"), .registerModelArtifact (sampleVersion "2"),
      assign (sampleVersion "1"), assign (sampleVersion "1"), assign (sampleVersion "2")].get i)

-- the second assignment of the first version reads before that of the second one, and commits after it
example :
    ¬Replayed (run (step noRow)
      (registry ⟨{}, fun _ => 1, id, fun _ => "", id, fun _ => zero_le_one⟩ sampleRequests)
      ([0, 0, 1, 1, 2, 2, 2, 3, 3, 4, 4, 4, 3].map Move.advance)).state := by
  intro hreplayed
  have halias := congrFun hreplayed ("pump", "CHAMPION")
  revert halias
  decide +kernel

end Governance
end Scam2Market
