import Scam2Market.Governance.Registry
import Scam2Market.Library.Fallible
import Scam2Market.Library.Guarantees

/-!
# What the registry of models guarantees

Any number of requests to the handlers of `Governance/Registry`, interleaved in any way.

* `registry_run`: artifacts have one row for an id and one for a version; an alias names an artifact of its
  family that an assignment or a promotion gave it; a calibration was fitted to enough labels of both
  outcomes; and what was approved or promoted had a calibration of its own that passed the gate.
* `guarantees_handler`: the guarantee of each handler, from which the run follows by the library's rule.
-/

namespace Scam2Market
namespace Governance

open Api Library Library.Database

variable {service : GovernanceService} {s s' s'' : GovernanceTables} {key : AliasKey}

/-! ## What only grows -/

/-- No row of these tables is ever removed or changed. -/
structure Grows (s s' : GovernanceTables) : Prop where
  artifacts : s.artifacts ⊆ s'.artifacts
  calibrations : s.calibrations ⊆ s'.calibrations
  decisions : s.decisions ⊆ s'.decisions
  audit : s.audit ⊆ s'.audit

theorem grows_refl (s : GovernanceTables) : Grows s s :=
  ⟨List.Subset.refl _, List.Subset.refl _, List.Subset.refl _, List.Subset.refl _⟩

theorem grows_trans (s s' s'' : GovernanceTables) (h : Grows s s') (h' : Grows s' s'') : Grows s s'' :=
  ⟨List.Subset.trans h.artifacts h'.artifacts, List.Subset.trans h.calibrations h'.calibrations,
    List.Subset.trans h.decisions h'.decisions, List.Subset.trans h.audit h'.audit⟩

/-! ## The invariant -/

/-- An assignment or a promotion has given the alias the artifact. -/
def Assigned (s : GovernanceTables) (key : AliasKey) (artifactId : ArtifactId) : Prop :=
  (∃ actorId reason old, AuditLog.assignModelAlias actorId key reason old artifactId ∈ s.audit) ∨
    key.2 = "CHAMPION" ∧ ∃ decision ∈ s.decisions, decision.status = "PROMOTED" ∧
      decision.modelFamily = key.1 ∧ decision.candidateArtifactId = artifactId

/-- There is an artifact of the id and the family. -/
def IsArtifact (s : GovernanceTables) (artifactId : ArtifactId) (family : String) : Prop :=
  ∃ artifact ∈ s.artifacts, artifact.modelArtifactId = artifactId ∧ artifact.modelFamily = family

/-- The calibration was fitted to enough labels of both outcomes, and the measures that a promotion reads
are those of probabilities. -/
structure Calibrated (settings : GovernanceSettings) (calibration : ModelCalibration) : Prop where
  samples : settings.calibrationMinSamples ≤ calibration.sampleCount
  positives : 0 < calibration.fit.positiveCount
  negatives : calibration.fit.positiveCount < calibration.sampleCount
  reported : Reported calibration.metrics

/-- The calibration passes the checks that only look at it. -/
structure Passed (settings : GovernanceSettings) (calibration : ModelCalibration) : Prop where
  samples : settings.calibrationMinSamples ≤ calibration.sampleCount
  error : calibration.metrics.expectedCalibrationError ≤ settings.calibrationMaxEce
  area : settings.calibrationMinAuc ≤ calibration.metrics.auc

/-- What a decision was made on. -/
structure Decided (settings : GovernanceSettings) (s : GovernanceTables)
    (decision : ModelPromotionDecision) : Prop where
  candidate : IsArtifact s decision.candidateArtifactId decision.modelFamily
  calibration : ∃ calibration ∈ s.calibrations, calibration.calibrationId = decision.calibrationId ∧
    calibration.tenantId = decision.tenantId ∧
    calibration.modelArtifactId = decision.candidateArtifactId ∧ calibration.status = "ACTIVE" ∧
    (decision.status ≠ "REJECTED" → Passed settings calibration)
  rejected : decision.status = "REJECTED" ↔ ∃ check ∈ decision.checksJson, check.2 = false

/-- The entry of a decision. -/
def AuditLog.isDecision : AuditLog → Bool
  | modelPromotionDecision .. => true
  | _ => false

structure RegistrySound (service : GovernanceService) (s : GovernanceTables) : Prop where
  artifactIds : (s.artifacts.map ModelArtifact.modelArtifactId).Nodup
  versions : (s.artifacts.map fun artifact => (artifact.modelFamily, artifact.modelVersion)).Nodup
  aliasNames : ∀ key row, s.aliases key = some row → key.2 ∈ ["CHAMPION", "CANDIDATE", "SHADOW"]
  aliasArtifacts : ∀ key row, s.aliases key = some row → IsArtifact s row.modelArtifactId key.1
  assigned : ∀ key row, s.aliases key = some row → Assigned s key row.modelArtifactId
  calibrated : ∀ calibration ∈ s.calibrations, Calibrated service.settings calibration
  decided : ∀ decision ∈ s.decisions, Decided service.settings s decision
  audited : s.audit.filter AuditLog.isDecision = s.decisions.map ModelPromotionDecision.auditLog

theorem registrySound_empty (service : GovernanceService) : RegistrySound service {} where
  artifactIds := List.nodup_nil
  versions := List.nodup_nil
  aliasNames _ _ h := by cases h
  aliasArtifacts _ _ h := by cases h
  assigned _ _ h := by cases h
  calibrated _ h := absurd h List.not_mem_nil
  decided _ h := absurd h List.not_mem_nil
  audited := rfl

theorem IsArtifact.of_grows {artifactId : ArtifactId} {family : String} (h : IsArtifact s artifactId family)
    (hgrows : Grows s s') : IsArtifact s' artifactId family :=
  h.imp fun _ hartifact => ⟨hgrows.artifacts hartifact.1, hartifact.2⟩

theorem Assigned.of_grows {artifactId : ArtifactId} (h : Assigned s key artifactId) (hgrows : Grows s s') :
    Assigned s' key artifactId := by
  rcases h with ⟨actorId, reason, old, hentry⟩ | ⟨hkey, decision, hdecision, hrest⟩
  · exact Or.inl ⟨actorId, reason, old, hgrows.audit hentry⟩
  · exact Or.inr ⟨hkey, decision, hgrows.decisions hdecision, hrest⟩

theorem Decided.of_grows {settings : GovernanceSettings} {decision : ModelPromotionDecision}
    (h : Decided settings s decision) (hgrows : Grows s s') : Decided settings s' decision where
  candidate := h.candidate.of_grows hgrows
  calibration := h.calibration.imp fun _ hrow => ⟨hgrows.calibrations hrow.1, hrow.2⟩
  rejected := h.rejected

/-! ## What is written -/

theorem addAudit_eq_ok {entry : AuditLog} (h : s.addAudit entry = .ok s') :
    s' = { s with audit := s.audit ++ [entry] } := by
  rw [GovernanceTables.addAudit] at h
  split_ifs at h
  exact (Except.ok.inj h).symm

/-- What is written to an alias: the row, but for the artifact when the row that was loaded had it. -/
theorem putAlias_eq_ok {loaded : Option ModelAlias} {row : ModelAlias}
    (h : s.putAlias key loaded row = .ok s') :
    ∃ written, s' = { s with aliases := Function.update s.aliases key (some written) } ∧
      (written.modelArtifactId = row.modelArtifactId ∨
        ∃ current, s.aliases key = some current ∧
          written.modelArtifactId = current.modelArtifactId) := by
  unfold GovernanceTables.putAlias at h
  split at h
  · exact ⟨row, (Except.ok.inj h).symm, Or.inl rfl⟩
  · cases h
  · rename_i old current hcurrent
    refine ⟨old.update row current, (Except.ok.inj h).symm, ?_⟩
    show changed _ _ _ = _ ∨ _
    rw [changed]
    split_ifs with hsame
    · refine Or.inr ⟨current, hcurrent, ?_⟩
      show changed _ _ _ = _
      rw [changed, if_pos hsame]
    · exact Or.inl rfl
  · cases h

/-- The aliases after a write: a property of every alias that the new row has. -/
theorem forall_aliases_put {P : AliasKey → ModelAlias → Prop} {written : ModelAlias}
    (hold : ∀ key row, s.aliases key = some row → P key row) (hnew : P key written) :
    ∀ key' row, Function.update s.aliases key (some written) key' = some row → P key' row := by
  intro key' row hrow
  by_cases hkey : key' = key
  · subst hkey
    rw [Function.update_self] at hrow
    rw [← Option.some.inj hrow]
    exact hnew
  · rw [Function.update_of_ne hkey] at hrow
    exact hold key' row hrow

/-- What an assignment commits. -/
theorem assignWrite_eq_ok {loaded : Option ModelAlias} {body : AliasAssignment} {caller : Caller}
    (h : assignWrite key loaded body caller s = .ok s') :
    ∃ written, s' = { s with
        aliases := Function.update s.aliases key (some written)
        audit := s.audit ++ [.assignModelAlias caller.actorId key body.reason
          (loaded.map ModelAlias.modelArtifactId) body.modelArtifactId] } ∧
      (written.modelArtifactId = body.modelArtifactId ∨
        ∃ current, s.aliases key = some current ∧
          written.modelArtifactId = current.modelArtifactId) := by
  obtain ⟨tables, hput, haudit⟩ := Fallible.bind_eq_ok.mp h
  obtain ⟨written, rfl, hwritten⟩ := putAlias_eq_ok hput
  exact ⟨written, addAudit_eq_ok haudit, hwritten⟩

/-- What a decision that assigns no alias commits. -/
theorem decisionWrite_eq_ok {decision : ModelPromotionDecision} (h : decisionWrite decision s = .ok s') :
    s' = { s with
      decisions := s.decisions ++ [decision]
      audit := s.audit ++ [decision.auditLog] } :=
  addAudit_eq_ok h

/-- What a promotion commits. -/
theorem promotionWrite_eq_ok {loaded : Option ModelAlias} {caller : Caller}
    {decision : ModelPromotionDecision} (h : promotionWrite loaded caller decision s = .ok s') :
    ∃ written, s' = { s with
        aliases := Function.update s.aliases (decision.modelFamily, "CHAMPION") (some written)
        decisions := s.decisions ++ [decision]
        audit := s.audit ++ [decision.auditLog] } ∧
      (written.modelArtifactId = decision.candidateArtifactId ∨
        ∃ current, s.aliases (decision.modelFamily, "CHAMPION") = some current ∧
          written.modelArtifactId = current.modelArtifactId) := by
  obtain ⟨tables, hput, hdecision⟩ := Fallible.bind_eq_ok.mp h
  obtain ⟨written, rfl, hwritten⟩ := putAlias_eq_ok hput
  exact ⟨written, decisionWrite_eq_ok hdecision, hwritten⟩

/-! ### Assignments -/

theorem RegistrySound.assign (h : RegistrySound service s) {loaded : Option ModelAlias}
    {body : AliasAssignment} {caller : Caller}
    (hname : key.2 ∈ ["CHAMPION", "CANDIDATE", "SHADOW"])
    (hartifact : IsArtifact s body.modelArtifactId key.1)
    (hwrite : assignWrite key loaded body caller s = .ok s') :
    Grows s s' ∧ RegistrySound service s' := by
  obtain ⟨written, hs', hwritten⟩ := assignWrite_eq_ok hwrite
  have hgrows : Grows s s' := by
    rw [hs']
    exact ⟨List.Subset.refl _, List.Subset.refl _, List.Subset.refl _, List.subset_append_left _ _⟩
  subst hs'
  refine ⟨hgrows, h.artifactIds, h.versions, ?_, ?_, ?_, h.calibrated,
    fun decision hdecision => (h.decided decision hdecision).of_grows hgrows, ?_⟩
  · exact forall_aliases_put h.aliasNames hname
  · refine forall_aliases_put h.aliasArtifacts ?_
    rcases hwritten with hnew | ⟨current, hcurrent, hsame⟩
    · rw [hnew]
      exact hartifact
    · rw [hsame]
      exact h.aliasArtifacts key current hcurrent
  · refine forall_aliases_put (fun key row hrow => (h.assigned key row hrow).of_grows hgrows) ?_
    rcases hwritten with hnew | ⟨current, hcurrent, hsame⟩
    · rw [hnew]
      exact Or.inl ⟨_, _, _, List.mem_append_right _ List.mem_cons_self⟩
    · rw [hsame]
      exact (h.assigned key current hcurrent).of_grows hgrows
  · rw [List.filter_append, h.audited]
    exact List.append_nil _

/-! ### Decisions -/

/-- The artifact and the calibration of a decision stand in the tables. -/
structure EvidenceFor (s : GovernanceTables) (tenantId : String) (evidence : PromotionEvidence) : Prop where
  candidate : evidence.candidate ∈ s.artifacts
  calibration : evidence.calibration ∈ s.calibrations
  tenant : evidence.calibration.tenantId = tenantId
  artifact : evidence.calibration.modelArtifactId = evidence.candidate.modelArtifactId
  active : evidence.calibration.status = "ACTIVE"

theorem EvidenceFor.of_grows {tenantId : String} {evidence : PromotionEvidence}
    (h : EvidenceFor s tenantId evidence) (hgrows : Grows s s') : EvidenceFor s' tenantId evidence :=
  { h with
    candidate := hgrows.artifacts h.candidate
    calibration := hgrows.calibrations h.calibration }

theorem decisionStatus_eq_rejected_iff {checks : List (String × Bool)} {applyAlias : Bool} :
    decisionStatus checks applyAlias = "REJECTED" ↔ ∃ check ∈ checks, check.2 = false := by
  rw [decisionStatus]
  cases hpassed : checks.all Prod.snd with
  | true =>
    have hall : ¬∃ check ∈ checks, check.2 = false := by
      rintro ⟨check, hcheck, hfalse⟩
      have htrue := List.all_eq_true.mp hpassed check hcheck
      rw [hfalse] at htrue
      cases htrue
    refine iff_of_false ?_ hall
    cases applyAlias <;> decide
  | false =>
    refine iff_of_true (by simp) ?_
    obtain ⟨check, hcheck, hfalse⟩ := List.all_eq_false.mp hpassed
    exact ⟨check, hcheck, Bool.not_eq_true _ ▸ hfalse⟩

/-- A candidate whose checks all pass has a calibration that passes. -/
theorem passed_of_checks {settings : GovernanceSettings} {evidence : PromotionEvidence}
    (h : ¬∃ check ∈ evidence.checks settings, check.2 = false) :
    Passed settings evidence.calibration := by
  have hcheck : ∀ name (passed : Bool), (name, passed) ∈ evidence.checks settings → passed = true :=
    fun name passed hmem => Bool.eq_true_of_not_eq_false fun hfalse => h ⟨_, hmem, hfalse⟩
  exact
    { samples := of_decide_eq_true (hcheck "minimum_samples" _ (.head _))
      error := of_decide_eq_true (hcheck "maximum_ece" _ (.tail _ (.head _)))
      area := of_decide_eq_true (hcheck "minimum_auc" _ (.tail _ (.tail _ (.head _)))) }

theorem EvidenceFor.decided {body : PromotionRequest} {caller : Caller} {evidence : PromotionEvidence}
    (h : EvidenceFor s caller.tenantId evidence) :
    Decided service.settings s (evidence.decision service.settings body caller) where
  candidate := ⟨evidence.candidate, h.candidate, rfl, rfl⟩
  calibration := by
    refine ⟨evidence.calibration, h.calibration, rfl, h.tenant, h.artifact, h.active, fun hstatus => ?_⟩
    exact passed_of_checks fun hfailed => hstatus (decisionStatus_eq_rejected_iff.mpr hfailed)
  rejected := decisionStatus_eq_rejected_iff

/-- A sound registry with a decision and its entry added. -/
theorem RegistrySound.withDecision (h : RegistrySound service s) {decision : ModelPromotionDecision}
    (hdecided : Decided service.settings s decision) :
    let s' := { s with
      decisions := s.decisions ++ [decision]
      audit := s.audit ++ [decision.auditLog] }
    Grows s s' ∧ RegistrySound service s' := by
  intro s'
  have hgrows : Grows s s' := ⟨List.Subset.refl _, List.Subset.refl _, List.subset_append_left _ _,
    List.subset_append_left _ _⟩
  refine ⟨hgrows, h.artifactIds, h.versions, h.aliasNames, h.aliasArtifacts,
    fun key row hrow => (h.assigned key row hrow).of_grows hgrows, h.calibrated,
    fun other hother => ?_, ?_⟩
  · rcases List.mem_append.mp hother with hold | hnew
    · exact (h.decided other hold).of_grows hgrows
    · rw [List.mem_singleton.mp hnew]
      exact hdecided.of_grows hgrows
  · show (s.audit ++ [decision.auditLog]).filter _ = (s.decisions ++ [decision]).map _
    rw [List.filter_append, h.audited, List.map_append]
    rfl

/-- A promotion: the decision, and the alias with it. -/
theorem RegistrySound.promote (h : RegistrySound service s) {loaded : Option ModelAlias} {caller : Caller}
    {decision : ModelPromotionDecision} (hdecided : Decided service.settings s decision)
    (hpromoted : decision.status = "PROMOTED")
    (hwrite : promotionWrite loaded caller decision s = .ok s') :
    Grows s s' ∧ RegistrySound service s' := by
  obtain ⟨written, hs', hwritten⟩ := promotionWrite_eq_ok hwrite
  obtain ⟨hgrows, hsound⟩ := h.withDecision hdecided
  subst hs'
  refine ⟨⟨hgrows.artifacts, hgrows.calibrations, hgrows.decisions, hgrows.audit⟩, hsound.artifactIds,
    hsound.versions, forall_aliases_put h.aliasNames List.mem_cons_self,
    forall_aliases_put h.aliasArtifacts ?_,
    forall_aliases_put hsound.assigned ?_, hsound.calibrated,
    fun other hother => { hsound.decided other hother with }, hsound.audited⟩
  · rcases hwritten with hnew | ⟨current, hcurrent, hsame⟩
    · rw [hnew]
      exact hdecided.candidate
    · rw [hsame]
      exact h.aliasArtifacts _ current hcurrent
  · rcases hwritten with hnew | ⟨current, hcurrent, hsame⟩
    · rw [hnew]
      exact Or.inr ⟨rfl, decision, List.mem_append_right _ List.mem_cons_self, hpromoted, rfl, rfl⟩
    · rw [hsame]
      exact hsound.assigned _ current hcurrent

/-! ### Calibrations -/

section Fitted

variable {settings : GovernanceSettings} {exp log : ℚ → ℚ} {sha256 : List (Forecast ℚ) → String}
  {labels holdout : List (Forecast ℚ)} {fitted : PlattCalibration ℚ}

theorem probability_mem (hexp : ∀ value, 0 ≤ exp value) (line : ℚ × ℚ) {scores : List (Forecast ℚ)} :
    ∀ value ∈ scores.map fun item => probability (.ofFunctions exp log) line item.1,
      0 ≤ value ∧ value ≤ 1 := by
  intro value hvalue
  obtain ⟨item, -, rfl⟩ := List.mem_map.mp hvalue
  exact sigmoid_mem hexp _

/-- The measures on the holdout are those of probabilities. -/
theorem reported_holdout (hexp : ∀ value, 0 ≤ exp value) {metrics : CalibrationMetrics ℚ}
    (h : holdoutMetrics (.ofFunctions exp log) fitted holdout = some metrics) : Reported metrics := by
  rw [holdoutMetrics] at h
  split_ifs at h
  cases hreport : calibrationMetrics (.ofFunctions exp log)
      (holdout.map fun item => fitted.predict (.ofFunctions exp log) item.1) (holdout.map Prod.snd) with
  | error detail =>
    rw [hreport] at h
    cases h
  | ok metrics' =>
    rw [hreport] at h
    rw [← Option.some.inj h]
    exact reported (by decide) (probability_mem hexp _) hreport

/-- What is stored of a fit. -/
theorem calibrated_fit (hexp : ∀ value, 0 ≤ exp value) {body : CalibrationFitRequest} {caller : Caller}
    {artifactId : ArtifactId}
    (h : fitPlattCalibration (.ofFunctions exp log) sha256 labels settings.calibrationMinSamples =
      .ok fitted) :
    Calibrated settings
      (calibrationRow (.ofFunctions exp log) body caller artifactId fitted holdout) := by
  obtain ⟨⟨hmany, hpositives, hnegatives⟩, hmetrics⟩ := fitPlattCalibration_eq_ok h
  have hreported := reported (by decide) (probability_mem hexp _) hmetrics
  obtain ⟨-, -, hreport⟩ := calibrationMetrics_eq_ok hmetrics
  have hsamples : fitted.metrics.sampleCount = labels.length := by
    rw [hreport, List.length_map, length_sortedObservations]
  have hcount : fitted.metrics.positiveCount = labels.countP Prod.snd := by
    have hperm : (sortedObservations labels).Perm labels := List.perm_insertionSort _ _
    rw [hreport, ← hperm.countP_eq Prod.snd]
    show ((sortedObservations labels).map Prod.snd).count true = _
    rw [List.count, List.countP_map]
    exact List.countP_congr fun item _ => by simp
  refine ⟨hmany.trans hsamples.ge, ?_, ?_, ?_⟩
  · show 0 < fitted.metrics.positiveCount
    rw [hcount]
    exact Nat.pos_of_ne_zero hpositives
  · show fitted.metrics.positiveCount < fitted.metrics.sampleCount
    rw [hcount, hsamples]
    exact lt_of_le_of_ne List.countP_le_length hnegatives
  · show Reported ((holdoutMetrics _ fitted holdout).getD fitted.metrics)
    cases hholdout : holdoutMetrics (.ofFunctions exp log) fitted holdout with
    | none => exact hreported
    | some metrics => exact reported_holdout hexp hholdout

end Fitted

/-- A sound registry with a calibration added. -/
theorem RegistrySound.withCalibration (h : RegistrySound service s) {row : ModelCalibration}
    (hrow : Calibrated service.settings row) (hwrite : calibrationWrite row s = .ok s') :
    Grows s s' ∧ RegistrySound service s' := by
  obtain rfl := Except.ok.inj hwrite
  have hgrows : Grows s { s with calibrations := s.calibrations ++ [row] } :=
    ⟨List.Subset.refl _, List.subset_append_left _ _, List.Subset.refl _, List.Subset.refl _⟩
  refine ⟨hgrows, h.artifactIds, h.versions, h.aliasNames, h.aliasArtifacts, h.assigned, ?_,
    fun decision hdecision => (h.decided decision hdecision).of_grows hgrows, h.audited⟩
  intro calibration hcalibration
  rcases List.mem_append.mp hcalibration with hold | hnew
  · exact h.calibrated calibration hold
  · rw [List.mem_singleton.mp hnew]
    exact hrow

/-! ### Artifacts -/

/-- A sound registry with an artifact and its entry added. -/
theorem RegistrySound.withArtifact (h : RegistrySound service s) {artifact : ModelArtifact}
    {entry : AuditLog} (hentry : entry.isDecision = false) {tables : GovernanceTables}
    (hadd : s.addArtifact artifact = .ok tables) (haudit : tables.addAudit entry = .ok s') :
    Grows s s' ∧ RegistrySound service s' := by
  rw [GovernanceTables.addArtifact] at hadd
  split_ifs at hadd with hid hversion
  have hs' := addAudit_eq_ok haudit
  rw [← Except.ok.inj hadd] at hs'
  have hgrows : Grows s s' := by
    rw [hs']
    exact ⟨List.subset_append_left _ _, List.Subset.refl _, List.Subset.refl _,
      List.subset_append_left _ _⟩
  subst hs'
  have hnodup : ∀ {β : Type} {f : ModelArtifact → β}, (s.artifacts.map f).Nodup →
      (∀ row ∈ s.artifacts, f row ≠ f artifact) → ((s.artifacts ++ [artifact]).map f).Nodup := by
    intro β f hold hnew
    rw [List.map_append, List.nodup_append]
    refine ⟨hold, List.nodup_singleton _, fun a ha b hb => ?_⟩
    obtain ⟨row, hrow, rfl⟩ := List.mem_map.mp ha
    rw [List.mem_singleton.mp hb]
    exact hnew row hrow
  refine ⟨hgrows, hnodup h.artifactIds fun row hrow heq => ?_, hnodup h.versions fun row hrow heq => ?_,
    h.aliasNames, fun key row hrow => (h.aliasArtifacts key row hrow).of_grows hgrows,
    fun key row hrow => (h.assigned key row hrow).of_grows hgrows, h.calibrated,
    fun decision hdecision => (h.decided decision hdecision).of_grows hgrows, ?_⟩
  · exact hid (List.any_eq_true.mpr ⟨row, hrow, decide_eq_true heq⟩)
  · exact hversion (List.any_eq_true.mpr ⟨row, hrow, decide_eq_true (Prod.ext_iff.mp heq)⟩)
  · rw [List.filter_append, h.audited, List.filter_cons_of_neg (by rw [hentry]; decide)]
    exact List.append_nil _

theorem mem_addArtifact {artifact : ModelArtifact} {entry : AuditLog} {tables : GovernanceTables}
    (hadd : s.addArtifact artifact = .ok tables) (haudit : tables.addAudit entry = .ok s') :
    artifact ∈ s'.artifacts := by
  rw [GovernanceTables.addArtifact] at hadd
  split_ifs at hadd
  rw [addAudit_eq_ok haudit, ← Except.ok.inj hadd]
  exact List.mem_append_right _ List.mem_cons_self

/-! ## The handlers -/

section Handlers

variable {caller : Caller}

/-- A row that was answered stands in its table. -/
def Answered : GovernanceResponse → GovernanceTables → Prop
  | .artifact row, s => row ∈ s.artifacts
  | .calibration row, s => row ∈ s.calibrations
  | .decision row, s => row ∈ s.decisions
  | .assignment _ _, _ => True
  | .created, _ => True

theorem lasting_answered {ι : Type} (service : GovernanceService) :
    Lasting Grows (RegistrySound service) fun _ : ι => Answered where
  refl := grows_refl
  trans := grows_trans
  kept _ response _ _ h hgrows _ := by
    cases response with
    | artifact row => exact hgrows.artifacts h
    | calibration row => exact hgrows.calibrations h
    | decision row => exact hgrows.decisions h
    | assignment key row => trivial
    | created => trivial

/-- What a handler relies on and guarantees. -/
abbrev Guarantees (service : GovernanceService) (s : GovernanceTables) (handler : Handler) : Prop :=
  handler.Keeps Grows (RegistrySound service) Answered s

theorem artifact?_mem {artifactId : ArtifactId} {artifact : ModelArtifact}
    (h : s.artifact? artifactId = some artifact) :
    artifact ∈ s.artifacts ∧ artifact.modelArtifactId = artifactId := by
  rw [GovernanceTables.artifact?, List.find?_eq_some_iff_append] at h
  obtain ⟨hid, before, after, hrows, -⟩ := h
  refine ⟨?_, of_decide_eq_true hid⟩
  rw [hrows]
  exact List.mem_append_right _ List.mem_cons_self

theorem newest_mem {α : Type} {time : α → Datetime} {rows : List α} {row : α}
    (h : GovernanceTables.newest time rows = some row) : row ∈ rows :=
  (List.mem_insertionSort _).mp (List.mem_of_mem_head? h)

theorem activeCalibration_mem {tenantId : String} {artifactId : ArtifactId} {calibration : ModelCalibration}
    (h : s.activeCalibration tenantId artifactId = some calibration) :
    calibration ∈ s.calibrations ∧ calibration.tenantId = tenantId ∧
      calibration.modelArtifactId = artifactId ∧ calibration.status = "ACTIVE" := by
  obtain ⟨hmem, hwhere⟩ := List.mem_filter.mp (newest_mem h)
  exact ⟨hmem, of_decide_eq_true hwhere⟩

/-- A write to the tables that only the calibrations and the checks read. -/
theorem guarantees_insert {change : GovernanceTables → GovernanceTables} {response : GovernanceResponse}
    (hresponse : ∀ s', Grows s s' → Answered response (change s'))
    (hchange : ∀ s, (change s).artifacts = s.artifacts ∧ (change s).aliases = s.aliases ∧
      (change s).calibrations = s.calibrations ∧ (change s).decisions = s.decisions ∧
      (change s).audit = s.audit) :
    Guarantees service s (.commit (fun s => .ok (change s)) response) := by
  rintro s s' hrelated hsound hwrite
  obtain rfl := Except.ok.inj hwrite
  obtain ⟨hartifacts, haliases, hcalibrations, hdecisions, haudit⟩ := hchange s
  have hgrows : Grows s (change s) := by
    constructor <;> simp only [hartifacts, hcalibrations, hdecisions, haudit, List.Subset.refl]
  refine ⟨hgrows, ⟨?_, ?_, ?_, ?_, ?_, ?_, ?_, ?_⟩, hresponse s hrelated⟩
  · rw [hartifacts]
    exact hsound.artifactIds
  · rw [hartifacts]
    exact hsound.versions
  · rw [haliases]
    exact hsound.aliasNames
  · rw [haliases]
    exact fun key row hrow => (hsound.aliasArtifacts key row hrow).of_grows hgrows
  · rw [haliases]
    exact fun key row hrow => (hsound.assigned key row hrow).of_grows hgrows
  · rw [hcalibrations]
    exact hsound.calibrated
  · rw [hdecisions]
    exact fun decision hdecision => (hsound.decided decision hdecision).of_grows hgrows
  · rw [haudit, hdecisions]
    exact hsound.audited

theorem guarantees_registerModelArtifact (body : ModelArtifactCreate) :
    Guarantees service s (registerModelArtifact body caller) := by
  refine Transaction.keeps_select fun s' _ _ => ?_
  split
  · rename_i existing hexisting
    refine guarantees_insert (fun t hgrows => ?_) fun _ => ⟨rfl, rfl, rfl, rfl, rfl⟩
    exact hgrows.artifacts (artifact?_mem hexisting).1
  · intro t t' _ hsound hwrite
    obtain ⟨tables, hadd, haudit⟩ := Fallible.bind_eq_ok.mp hwrite
    obtain ⟨hgrows, hsound'⟩ := hsound.withArtifact rfl hadd haudit
    exact ⟨hgrows, hsound', mem_addArtifact hadd haudit⟩

theorem guarantees_assignModelAlias (upper : String → String) (modelFamily aliasName : String)
    (body : AliasAssignment) :
    Guarantees service s (assignModelAlias upper modelFamily aliasName body caller) := by
  rw [assignModelAlias]
  split
  · trivial
  · rename_i hname
    refine Transaction.keeps_select fun s' _ _ => ?_
    split
    · trivial
    · rename_i hfamily
      refine Transaction.keeps_select fun t hgrows _ => ?_
      intro t' t'' hgrows' hsound hwrite
      obtain ⟨artifact, hartifact, hsame⟩ := by simpa using hfamily
      obtain ⟨hmem, hid⟩ := artifact?_mem hartifact
      have hthere : IsArtifact s' body.modelArtifactId modelFamily := ⟨artifact, hmem, hid, hsame⟩
      obtain ⟨hgrows'', hsound'⟩ := hsound.assign (not_not.mp hname)
        ((hthere.of_grows hgrows).of_grows hgrows') hwrite
      exact ⟨hgrows'', hsound', trivial⟩

theorem guarantees_fitCalibration (body : CalibrationFitRequest) :
    Guarantees service s (fitCalibration service.settings (.ofFunctions service.exp service.log)
      service.sha256 body caller) := by
  refine Transaction.keeps_select fun s' _ _ => ?_
  split
  · trivial
  · refine Transaction.keeps_select fun t _ _ => ?_
    split
    · trivial
    · rename_i fitted hfitted
      refine Transaction.keeps_select fun u _ _ => ?_
      intro u' u'' _ hsound hwrite
      obtain ⟨hgrows, hsound'⟩ :=
        hsound.withCalibration (calibrated_fit service.exp_nonneg hfitted) hwrite
      refine ⟨hgrows, hsound', ?_⟩
      rw [← Except.ok.inj hwrite]
      exact List.mem_append_right _ List.mem_cons_self

theorem guarantees_decidePromotion {evidence : PromotionEvidence} (body : PromotionRequest)
    (h : EvidenceFor s caller.tenantId evidence) :
    Guarantees service s (decidePromotion service.settings body caller evidence) := by
  have hpromotion : ∀ {loaded : Option ModelAlias} {s' : GovernanceTables}, Grows s s' →
      (evidence.decision service.settings body caller).status = "PROMOTED" →
      Guarantees service s' (.commit
        (promotionWrite loaded caller (evidence.decision service.settings body caller))
        (.decision (evidence.decision service.settings body caller))) := by
    intro loaded s' hgrows hpromoted t t' hgrows' hsound hwrite
    obtain ⟨hgrows'', hsound'⟩ :=
      hsound.promote ((h.of_grows hgrows).of_grows hgrows').decided hpromoted hwrite
    refine ⟨hgrows'', hsound', ?_⟩
    obtain ⟨written, rfl, -⟩ := promotionWrite_eq_ok hwrite
    exact List.mem_append_right _ List.mem_cons_self
  simp only [decidePromotion]
  split_ifs with hpromoted
  · split
    · exact hpromotion (grows_refl s) hpromoted
    · exact Transaction.keeps_select fun s' hgrows _ => hpromotion hgrows hpromoted
  · intro t t' hgrows hsound hwrite
    rw [decisionWrite_eq_ok hwrite]
    obtain ⟨hgrows', hsound'⟩ := hsound.withDecision (h.of_grows hgrows).decided
    exact ⟨hgrows', hsound', List.mem_append_right _ List.mem_cons_self⟩

theorem guarantees_evaluateRest {candidate : ModelArtifact} {calibration : ModelCalibration}
    (body : PromotionRequest) (championAlias : Option ModelAlias) (championBrier : Option ℚ)
    (hcandidate : candidate ∈ s.artifacts) (hcalibration : calibration ∈ s.calibrations)
    (htenant : calibration.tenantId = caller.tenantId)
    (hartifact : calibration.modelArtifactId = candidate.modelArtifactId)
    (hactive : calibration.status = "ACTIVE") :
    Guarantees service s (evaluateRest service.settings body caller candidate calibration championAlias
      championBrier) := by
  refine Transaction.keeps_select fun s' hgrows _ => Transaction.keeps_select fun t hgrows' _ => ?_
  exact guarantees_decidePromotion body
    { candidate := hgrows'.artifacts (hgrows.artifacts hcandidate)
      calibration := hgrows'.calibrations (hgrows.calibrations hcalibration)
      tenant := htenant
      artifact := hartifact
      active := hactive }

theorem guarantees_evaluatePromotion (body : PromotionRequest) :
    Guarantees service s (evaluatePromotion service.settings body caller) := by
  refine Transaction.keeps_select fun s' _ _ => ?_
  split
  · trivial
  · rename_i candidate hcandidate
    refine Transaction.keeps_select fun t hgrows _ => ?_
    split
    · trivial
    · rename_i calibration hcalibration
      obtain ⟨hmem, htenant, hartifact, hactive⟩ := activeCalibration_mem hcalibration
      have hthere := hgrows.artifacts (artifact?_mem hcandidate).1
      refine Transaction.keeps_select fun u hgrows' _ => ?_
      simp only
      -- the champion's calibration is read in one more statement, when there is another champion
      split
      · exact guarantees_evaluateRest body _ _ (hgrows'.artifacts hthere) (hgrows'.calibrations hmem)
          htenant hartifact hactive
      · split_ifs
        · exact guarantees_evaluateRest body _ _ (hgrows'.artifacts hthere) (hgrows'.calibrations hmem)
            htenant hartifact hactive
        · refine Transaction.keeps_select fun v hgrows'' _ => ?_
          exact guarantees_evaluateRest body _ _ (hgrows''.artifacts (hgrows'.artifacts hthere))
            (hgrows''.calibrations (hgrows'.calibrations hmem)) htenant hartifact hactive

/-- **Every handler keeps the registry sound**, whatever other requests commit between its statements. -/
theorem guarantees_handler (request : GovernanceRequest) :
    Guarantees service s (service.handler caller request) := by
  cases request with
  | registerModelArtifact body => exact guarantees_registerModelArtifact body
  | assignModelAlias modelFamily aliasName body => exact guarantees_assignModelAlias _ _ _ body
  | createCalibrationLabel body =>
    exact guarantees_insert (fun _ _ => trivial) fun _ => ⟨rfl, rfl, rfl, rfl, rfl⟩
  | fitCalibration body => exact guarantees_fitCalibration body
  | evaluatePromotion body => exact guarantees_evaluatePromotion body
  | reportModelDrift body =>
    exact guarantees_insert (fun _ _ => trivial) fun _ => ⟨rfl, rfl, rfl, rfl, rfl⟩
  | createFalsePositiveReport body =>
    exact guarantees_insert (fun _ _ => trivial) fun _ => ⟨rfl, rfl, rfl, rfl, rfl⟩

end Handlers

/-! ## Runs -/

/-- No key is locked. -/
def noRow (key : Empty) (_ : GovernanceTables) : Option Unit :=
  key.elim

/-- The registry, empty, with a transaction for each request. -/
def registry {ι : Type} (service : GovernanceService) (requests : ι → Caller × GovernanceRequest) :
    Database ι Empty GovernanceTables RequestError GovernanceResponse :=
  initial (fun i => service.handler (requests i).1 (requests i).2) {}

/-- **The registry of models is sound in every run**, and what was answered stands in it. -/
theorem registry_run {ι : Type} [DecidableEq ι] (service : GovernanceService)
    (requests : ι → Caller × GovernanceRequest) (moves : List (Move ι)) :
    let db := run (step noRow) (registry service requests) moves
    RegistrySound service db.state ∧
      ∀ i response, db.session i = .succeeded response → Answered response db.state := by
  intro db
  have hhandlers : ∀ i, Guarantees service {} (service.handler (requests i).1 (requests i).2) :=
    fun i => guarantees_handler (requests i).2
  have hguaranteed : Guaranteed Grows (RegistrySound service) (fun _ => Answered) {} db :=
    guaranteed_run (lasting_answered service) noRow (registrySound_empty service) hhandlers moves
  exact ⟨hguaranteed.holds, hguaranteed.returned⟩

end Governance
end Scam2Market
