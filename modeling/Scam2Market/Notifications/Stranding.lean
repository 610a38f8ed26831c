import Scam2Market.Library.Runs
import Scam2Market.Notifications.Service

/-!
# Stranded deliveries

* `Service.Invariant`: what holds in every run.  A worker's batch is its own, its deliveries are being
  processed or are delivered already, and every send was paid for by an attempt.
* `Service.Owned`: what is being processed has an owner; a worker that stops breaks it.
* `notStranded_iff`: no delivery is stranded exactly when no worker stops before its batch is finalized.
* `crash_strands`: a worker that stops between the claim and the send.
-/

namespace Scam2Market
namespace Notifications

open Library

variable {ε : Type}

/-! ## Tables -/

namespace NotificationTables

variable {t : NotificationTables ε}

theorem map_fst_joined (t : NotificationTables ε) :
    t.joined.map Prod.fst = t.deliveries.filter fun delivery =>
      (t.channel? delivery.channelId).isSome := by
  rw [joined, List.map_filterMap, ← List.filterMap_eq_filter]
  refine List.filterMap_congr fun delivery _ => ?_
  cases hchannel : t.channel? delivery.channelId with
  | none => simp [Option.guard, hchannel]
  | some channel => simp [Option.guard, hchannel]

theorem mem_joined {row : NotificationDelivery ε × NotificationChannel} :
    row ∈ t.joined ↔ row.1 ∈ t.deliveries ∧ t.channel? row.1.channelId = some row.2 := by
  obtain ⟨delivery, channel⟩ := row
  simp only [joined, List.mem_filterMap, Option.map_eq_some_iff, Prod.mk.injEq]
  constructor
  · rintro ⟨delivery', hdelivery, channel', hchannel, rfl, rfl⟩
    exact ⟨hdelivery, hchannel⟩
  · rintro ⟨hdelivery, hchannel⟩
    exact ⟨delivery, hdelivery, channel, hchannel, rfl, rfl⟩

end NotificationTables

section Claims

variable {t : NotificationTables ε} {now : Datetime} {limit : ℕ} {locked : ℕ → Bool}

/-- The deliveries that are claimed. -/
theorem claimDue_ids (now : Datetime) (limit : ℕ) (locked : ℕ → Bool) (t : NotificationTables ε) :
    (claimDue now limit locked t).1.map Claim.deliveryId =
      (claimedRows now limit locked t).map fun row => row.1.deliveryId := by
  rw [claimDue, List.map_map]
  rfl

/-- A delivery that is claimed was due. -/
theorem of_mem_claimDue {deliveryId : ℕ}
    (h : deliveryId ∈ (claimDue now limit locked t).1.map Claim.deliveryId) :
    ∃ delivery ∈ t.deliveries, delivery.deliveryId = deliveryId ∧
      (delivery.status = .pending ∨ delivery.status = .retry) := by
  rw [claimDue_ids] at h
  obtain ⟨row, hrow, rfl⟩ := List.mem_map.mp h
  obtain ⟨hjoined, hdue⟩ := of_mem_firstWhere hrow
  refine ⟨row.1, (NotificationTables.mem_joined.mp hjoined).1, rfl, ?_⟩
  simp only [due, Bool.and_eq_true, Bool.or_eq_true, decide_eq_true_eq] at hdue
  exact hdue.1.1

theorem nodup_claimDue (h : (t.deliveries.map NotificationDelivery.deliveryId).Nodup) :
    ((claimDue now limit locked t).1.map Claim.deliveryId).Nodup := by
  rw [claimDue_ids]
  refine nodup_map_firstWhere ?_
  have hfst : (t.joined.map fun row => row.1.deliveryId) =
      (t.joined.map Prod.fst).map NotificationDelivery.deliveryId := by
    rw [List.map_map]
    rfl
  rw [hfst, NotificationTables.map_fst_joined]
  exact h.sublist (List.filter_sublist.map _)

instance totalNextAttempt : Std.Total
    fun row row' : NotificationDelivery ε × NotificationChannel =>
      row.1.nextAttemptAt ≤ row'.1.nextAttemptAt :=
  ⟨fun _ _ => le_total _ _⟩

instance transNextAttempt : IsTrans (NotificationDelivery ε × NotificationChannel)
    fun row row' => row.1.nextAttemptAt ≤ row'.1.nextAttemptAt :=
  ⟨fun _ _ _ => le_trans⟩

/-- A delivery that waits for its next attempt will be claimed. -/
theorem willBeClaimed {delivery : NotificationDelivery ε} (hdelivery : delivery ∈ t.deliveries)
    (hchannel : (t.channel? delivery.channelId).isSome)
    (hstatus : delivery.status = .pending ∨ delivery.status = .retry) :
    Service.WillBeClaimed t delivery := by
  intro now limit hnow hlimit
  obtain ⟨channel, hchannel⟩ := Option.isSome_iff_exists.mp hchannel
  have hdue : due now delivery = true := by
    simp [due, hstatus, hnow]
  rw [claimDue_ids]
  refine List.mem_map.mpr ⟨(delivery, channel), mem_firstWhere ?_ ?_ ?_, rfl⟩
  · exact NotificationTables.mem_joined.mpr ⟨hdelivery, hchannel⟩
  · simpa using hdue
  · simpa using hlimit

end Claims

/-- The deliveries of a batch that are not sent yet. -/
def Worker.unsent (worker : Worker ε) : List (Claim ε) :=
  match worker.phase with
  | .ready => worker.todo
  | _ => worker.todo.tail

theorem Worker.unsent_sublist (worker : Worker ε) : worker.unsent.Sublist worker.todo := by
  unfold Worker.unsent
  split
  · exact List.Sublist.refl _
  · exact List.tail_sublist _

namespace Service

variable {s s' : Service ε}

/-! ## What holds in every run -/

structure Invariant (s : Service ε) : Prop where
  numbered : s.deliveries.map NotificationDelivery.deliveryId = List.range s.deliveries.length
  channels : ∀ delivery ∈ s.deliveries, (s.channel? delivery.channelId).isSome
  attempts : ∀ delivery ∈ s.deliveries, delivery.attempts ≤ 5 ∧
    (delivery.status = .pending ∨ delivery.status = .retry → delivery.attempts < 5)
  once : ∀ index, ((s.workers index).todo.map Claim.deliveryId).Nodup
  exclusive : ∀ {index index' deliveryId}, s.Owns index deliveryId → s.Owns index' deliveryId →
    index = index'
  held : ∀ {index deliveryId}, s.Owns index deliveryId → ∃ delivery ∈ s.deliveries,
    delivery.deliveryId = deliveryId ∧
      (delivery.status = .processing ∨ delivery.status = .delivered)
  paid : ∀ delivery ∈ s.deliveries, s.sends.count delivery.deliveryId ≤ delivery.attempts
  unsent : ∀ {index}, ∀ claim ∈ (s.workers index).unsent, ∀ delivery ∈ s.deliveries,
    delivery.deliveryId = claim.deliveryId →
      s.sends.count delivery.deliveryId < delivery.attempts
  known : ∀ deliveryId ∈ s.sends, deliveryId < s.deliveries.length

/-- What is being processed has an owner. -/
def Owned (s : Service ε) : Prop :=
  ∀ delivery ∈ s.deliveries, delivery.status = .processing →
    ∃ index, s.Owns index delivery.deliveryId

theorem invariant_initial : Invariant ({} : Service ε) where
  numbered := rfl
  channels _ h := (List.not_mem_nil h).elim
  attempts _ h := (List.not_mem_nil h).elim
  once _ := List.nodup_nil
  exclusive h _ := (List.not_mem_nil h).elim
  held h := (List.not_mem_nil h).elim
  paid _ h := (List.not_mem_nil h).elim
  unsent _ h := (List.not_mem_nil h).elim
  known _ h := (List.not_mem_nil h).elim

theorem owned_initial : Owned ({} : Service ε) :=
  fun _ h => (List.not_mem_nil h).elim

theorem Invariant.distinct (h : Invariant s) :
    (s.deliveries.map NotificationDelivery.deliveryId).Nodup :=
  h.numbered ▸ List.nodup_range

theorem Invariant.lt_length (h : Invariant s) {delivery : NotificationDelivery ε}
    (hdelivery : delivery ∈ s.deliveries) : delivery.deliveryId < s.deliveries.length :=
  List.mem_range.mp (h.numbered ▸ List.mem_map_of_mem hdelivery)

/-- What a worker owns does not wait for its next attempt. -/
theorem Invariant.not_waiting (h : Invariant s) {index : ℕ} {delivery : NotificationDelivery ε}
    (hdelivery : delivery ∈ s.deliveries) (howns : s.Owns index delivery.deliveryId) :
    ¬ (delivery.status = .pending ∨ delivery.status = .retry) := by
  obtain ⟨delivery', hdelivery', hid, hheld⟩ := h.held howns
  obtain rfl := eq_of_key_eq h.distinct hdelivery' hdelivery hid
  rcases hheld with hstatus | hstatus <;> simp [hstatus]

/-- Nothing is sent more than five times. -/
theorem Invariant.count_le (h : Invariant s) (deliveryId : ℕ) : s.sends.count deliveryId ≤ 5 := by
  by_cases hsent : deliveryId ∈ s.sends
  · have hmem : deliveryId ∈ s.deliveries.map NotificationDelivery.deliveryId :=
      h.numbered ▸ List.mem_range.mpr (h.known deliveryId hsent)
    obtain ⟨delivery, hdelivery, rfl⟩ := List.mem_map.mp hmem
    exact (h.paid delivery hdelivery).trans (h.attempts delivery hdelivery).1
  · rw [List.count_eq_zero_of_not_mem hsent]
    exact Nat.zero_le _

/-- When what is being processed has an owner, nothing is stranded. -/
theorem Invariant.notStranded (h : Invariant s) (howned : s.Owned) : s.NotStranded where
  owned delivery hdelivery hdelivered hfailed := by
    cases hstatus : delivery.status with
    | processing => exact Or.inl (howned delivery hdelivery hstatus)
    | pending => exact Or.inr (willBeClaimed hdelivery (h.channels delivery hdelivery) (.inl hstatus))
    | retry => exact Or.inr (willBeClaimed hdelivery (h.channels delivery hdelivery) (.inr hstatus))
    | delivered => exact absurd hstatus hdelivered
    | failed => exact absurd hstatus hfailed
  attempts delivery hdelivery := (h.attempts delivery hdelivery).1
  sends := h.count_le

/-! ## Workers -/

theorem workers_setWorker (index : ℕ) (worker : Worker ε) (index' : ℕ) :
    (s.setWorker index worker).workers index' =
      if index' = index then worker else s.workers index' :=
  Function.update_apply s.workers index worker index'

theorem owns_setWorker {index : ℕ} {worker : Worker ε} {index' deliveryId : ℕ} :
    (s.setWorker index worker).Owns index' deliveryId ↔
      if index' = index then deliveryId ∈ worker.todo.map Claim.deliveryId
      else s.Owns index' deliveryId := by
  rw [Owns, workers_setWorker]
  split_ifs <;> rfl

/-- A worker goes on with a part of its batch. -/
theorem Owns.of_setWorker {index : ℕ} {worker : Worker ε}
    (hsub : worker.todo.Sublist (s.workers index).todo) {index' deliveryId : ℕ}
    (h : (s.setWorker index worker).Owns index' deliveryId) : s.Owns index' deliveryId := by
  rw [owns_setWorker] at h
  split_ifs at h with heq
  · exact heq ▸ (hsub.map _).subset h
  · exact h

theorem Invariant.setWorker (h : Invariant s) {index : ℕ} {worker : Worker ε}
    (hsub : worker.todo.Sublist (s.workers index).todo)
    (hunsent : worker.unsent ⊆ (s.workers index).unsent) :
    Invariant (s.setWorker index worker) where
  numbered := h.numbered
  channels := h.channels
  attempts := h.attempts
  once index' := by
    rw [workers_setWorker]
    split_ifs
    · exact (h.once index).sublist (hsub.map _)
    · exact h.once index'
  exclusive howns howns' := h.exclusive (howns.of_setWorker hsub) (howns'.of_setWorker hsub)
  held howns := h.held (howns.of_setWorker hsub)
  paid := h.paid
  unsent {index'} claim hclaim := by
    rw [workers_setWorker] at hclaim
    split_ifs at hclaim
    · exact h.unsent claim (hunsent hclaim)
    · exact h.unsent claim hclaim
  known := h.known

/-! ## Transactions -/

theorem settle_deliveryId (now : Datetime) (result : Except String ℤ)
    (delivery : NotificationDelivery ε) :
    (settle now result delivery).deliveryId = delivery.deliveryId := by
  cases result <;> rfl

theorem settle_channelId (now : Datetime) (result : Except String ℤ)
    (delivery : NotificationDelivery ε) :
    (settle now result delivery).channelId = delivery.channelId := by
  cases result <;> rfl

theorem settle_attempts (now : Datetime) (result : Except String ℤ)
    (delivery : NotificationDelivery ε) :
    (settle now result delivery).attempts = delivery.attempts := by
  cases result <;> rfl

/-- What is finalized is processed no more; it waits only when attempts are left. -/
theorem settle_status (now : Datetime) (result : Except String ℤ)
    (delivery : NotificationDelivery ε) :
    (settle now result delivery).status ≠ .processing ∧
      ((settle now result delivery).status = .pending ∨
        (settle now result delivery).status = .retry → delivery.attempts < 5) := by
  cases result with
  | ok responseCode => exact ⟨nofun, by rintro (h | h) <;> cases h⟩
  | error error =>
    simp only [settle]
    split_ifs with hattempts
    · exact ⟨nofun, by rintro (h | h) <;> cases h⟩
    · exact ⟨nofun, fun _ => not_le.mp hattempts⟩

/-- The row of a delivery after its transaction. -/
theorem mem_finalizeDelivery {t : NotificationTables ε} {now : Datetime} {deliveryId : ℕ}
    {result : Except String ℤ} {delivery : NotificationDelivery ε}
    (h : delivery ∈ (finalizeDelivery now deliveryId result t).deliveries) :
    (∃ before ∈ t.deliveries, before.deliveryId = deliveryId ∧ before.status = .processing ∧
        settle now result before = delivery) ∨
      delivery ∈ t.deliveries ∧
        (delivery.deliveryId = deliveryId → delivery.status ≠ .processing) := by
  obtain ⟨before, hbefore, rfl⟩ := mem_updateWhere.mp h
  split_ifs with hfound
  · simp only [Bool.and_eq_true, decide_eq_true_eq] at hfound
    exact Or.inl ⟨before, hbefore, hfound.1, hfound.2, rfl⟩
  · simp only [Bool.and_eq_true, decide_eq_true_eq, not_and] at hfound
    exact Or.inr ⟨hbefore, hfound⟩

theorem mem_finalizeDelivery_of_ne {t : NotificationTables ε} {now : Datetime} {deliveryId : ℕ}
    {result : Except String ℤ} {delivery : NotificationDelivery ε}
    (h : delivery ∈ t.deliveries) (hne : delivery.deliveryId ≠ deliveryId) :
    delivery ∈ (finalizeDelivery now deliveryId result t).deliveries :=
  mem_updateWhere_of_neg h (by simp [hne])

theorem map_finalizeDelivery (now : Datetime) (deliveryId : ℕ) (result : Except String ℤ)
    (t : NotificationTables ε) :
    (finalizeDelivery now deliveryId result t).deliveries.map NotificationDelivery.deliveryId =
      t.deliveries.map NotificationDelivery.deliveryId :=
  map_updateWhere (settle_deliveryId now result)

/-- A delivery is finalized that is delivered, or that nobody owns any more. -/
theorem Invariant.finalizeDelivery (h : Invariant s) (now : Datetime) (deliveryId : ℕ)
    (result : Except String ℤ)
    (howner : (∃ code, result = .ok code) ∨ ∀ index, ¬ s.Owns index deliveryId) :
    Invariant (s.withTables
      (Notifications.finalizeDelivery now deliveryId result s.toNotificationTables)) := by
  have hlength : (Notifications.finalizeDelivery now deliveryId result
      s.toNotificationTables).deliveries.length = s.deliveries.length :=
    List.length_map _
  -- a row after the transaction, with what its row before the transaction shares with it
  have hbefore : ∀ delivery ∈ (Notifications.finalizeDelivery now deliveryId result
      s.toNotificationTables).deliveries, ∃ before ∈ s.deliveries,
        before.deliveryId = delivery.deliveryId ∧ before.channelId = delivery.channelId ∧
          before.attempts = delivery.attempts := by
    intro delivery hdelivery
    rcases mem_finalizeDelivery hdelivery with ⟨before, hmem, -, -, rfl⟩ | ⟨hmem, -⟩
    · exact ⟨before, hmem, (settle_deliveryId ..).symm, (settle_channelId ..).symm,
        (settle_attempts ..).symm⟩
    · exact ⟨delivery, hmem, rfl, rfl, rfl⟩
  constructor
  · exact (map_finalizeDelivery ..).trans (hlength ▸ h.numbered)
  · intro delivery hdelivery
    obtain ⟨before, hmem, -, hchannel, -⟩ := hbefore delivery hdelivery
    exact hchannel ▸ h.channels before hmem
  · intro delivery hdelivery
    rcases mem_finalizeDelivery hdelivery with ⟨before, hmem, -, -, rfl⟩ | ⟨hmem, -⟩
    · rw [settle_attempts]
      exact ⟨(h.attempts before hmem).1, (settle_status now result before).2⟩
    · exact h.attempts delivery hmem
  · exact h.once
  · exact h.exclusive
  · intro index id howns
    have howns' : s.Owns index id := howns
    obtain ⟨delivery, hdelivery, rfl, hstatus⟩ := h.held howns'
    rcases hstatus with hprocessing | hdelivered
    · by_cases hid : delivery.deliveryId = deliveryId
      · rcases howner with ⟨code, rfl⟩ | hfree
        · exact ⟨settle now (.ok code) delivery,
            mem_updateWhere_of_pos hdelivery (by simp [hid, hprocessing]), rfl, .inr rfl⟩
        · exact absurd (hid ▸ howns') (hfree index)
      · exact ⟨delivery, mem_finalizeDelivery_of_ne hdelivery hid, rfl, .inl hprocessing⟩
    · exact ⟨delivery, mem_updateWhere_of_neg hdelivery (by simp [hdelivered]), rfl,
        .inr hdelivered⟩
  · intro delivery hdelivery
    obtain ⟨before, hmem, hid, -, hattempts⟩ := hbefore delivery hdelivery
    exact hid ▸ hattempts ▸ h.paid before hmem
  · intro index claim hclaim delivery hdelivery hid
    obtain ⟨before, hmem, hid', -, hattempts⟩ := hbefore delivery hdelivery
    exact hid' ▸ hattempts ▸ h.unsent claim hclaim before hmem (hid'.trans hid)
  · intro id hid
    exact hlength ▸ h.known id hid

/-- The tables get a new channel, or keep theirs, and the deliveries stay. -/
theorem Invariant.of_channels (h : Invariant s) {t : NotificationTables ε}
    (hdeliveries : t.deliveries = s.deliveries)
    (hchannels : ∀ channelId, (s.channel? channelId).isSome → (t.channel? channelId).isSome) :
    Invariant (s.withTables t) := by
  obtain ⟨channels, subscriptions, deliveries⟩ := t
  obtain rfl : deliveries = s.deliveries := hdeliveries
  exact ⟨h.numbered, fun delivery hdelivery => hchannels _ (h.channels delivery hdelivery),
    h.attempts, h.once, h.exclusive, h.held, h.paid, h.unsent, h.known⟩

/-- A delivery is added, or there is one. -/
theorem addDelivery_cases (t : NotificationTables ε) (now : Datetime) (tenantId : String)
    (event : NotificationEvent ε) (channel : NotificationChannel) :
    t.addDelivery now tenantId event channel = t ∨
      ∃ delivery : NotificationDelivery ε, delivery.deliveryId = t.deliveries.length ∧
        delivery.channelId = channel.channelId ∧ delivery.status = .pending ∧
        delivery.attempts = 0 ∧
        t.addDelivery now tenantId event channel =
          { t with deliveries := t.deliveries ++ [delivery] } := by
  unfold NotificationTables.addDelivery
  split_ifs
  · exact Or.inl rfl
  · exact Or.inr ⟨_, rfl, rfl, rfl, rfl, rfl⟩

theorem Invariant.addDelivery (h : Invariant s) (now : Datetime) (tenantId : String)
    (event : NotificationEvent ε) {channel : NotificationChannel}
    (hchannel : (s.channel? channel.channelId).isSome) :
    Invariant (s.withTables (s.toNotificationTables.addDelivery now tenantId event channel)) := by
  rcases addDelivery_cases s.toNotificationTables now tenantId event channel with
    heq | ⟨delivery, hid, hchannelId, hstatus, hattempts, heq⟩
  · rw [heq]
    exact h
  rw [heq]
  have hunknown : s.sends.count delivery.deliveryId = 0 :=
    List.count_eq_zero_of_not_mem fun hsent => (h.known _ hsent).ne hid
  have hmem : ∀ {row}, row ∈ s.deliveries ++ [delivery] → row ∈ s.deliveries ∨ row = delivery :=
    fun hrow => by simpa using hrow
  constructor
  · show (s.deliveries ++ [delivery]).map _ = List.range (s.deliveries ++ [delivery]).length
    rw [List.map_append, h.numbered, List.length_append, List.length_singleton, List.range_succ,
      List.map_singleton, hid]
  · intro row hrow
    rcases hmem hrow with hold | rfl
    · exact h.channels row hold
    · exact hchannelId ▸ hchannel
  · intro row hrow
    rcases hmem hrow with hold | rfl
    · exact h.attempts row hold
    · rw [hattempts]
      exact ⟨Nat.zero_le 5, fun _ => Nat.succ_pos 4⟩
  · exact h.once
  · exact h.exclusive
  · intro index deliveryId howns
    obtain ⟨row, hrow, hheld⟩ := h.held howns
    exact ⟨row, List.mem_append_left _ hrow, hheld⟩
  · intro row hrow
    rcases hmem hrow with hold | rfl
    · exact h.paid row hold
    · show s.sends.count row.deliveryId ≤ _
      rw [hunknown]
      exact Nat.zero_le _
  · intro index claim hclaim row hrow hrowId
    rcases hmem hrow with hold | rfl
    · exact h.unsent claim hclaim row hold hrowId
    · -- nobody claimed a row that was not there
      have howns : s.Owns index row.deliveryId := by
        rw [hrowId]
        exact List.mem_map_of_mem ((s.workers index).unsent_sublist.subset hclaim)
      obtain ⟨before, hbefore, hbeforeId, -⟩ := h.held howns
      exact absurd (hbeforeId.trans hid) (h.lt_length hbefore).ne
  · intro deliveryId hsent
    show deliveryId < (s.deliveries ++ [delivery]).length
    rw [List.length_append]
    exact (h.known deliveryId hsent).trans_le (Nat.le_add_right _ _)

/-- The channels that `enqueue` finds are there. -/
theorem channel_of_mem_subscribed {t : NotificationTables ε} {tenantId : String}
    {row : NotificationSubscription × NotificationChannel} (h : row ∈ t.subscribed tenantId) :
    t.channel? row.2.channelId = some row.2 := by
  obtain ⟨subscription, -, hrow⟩ := List.mem_filterMap.mp h
  split at hrow
  · rename_i channel hchannel
    split_ifs at hrow with henabled
    obtain rfl := Option.some.inj hrow
    have hid : channel.channelId = subscription.channelId := by
      simpa using List.find?_some hchannel
    rw [hid]
    exact hchannel
  · cases hrow

theorem addDelivery_channels (t : NotificationTables ε) (now : Datetime) (tenantId : String)
    (event : NotificationEvent ε) (channel : NotificationChannel) :
    (t.addDelivery now tenantId event channel).channels = t.channels := by
  unfold NotificationTables.addDelivery
  split_ifs <;> rfl

theorem Invariant.enqueue (h : Invariant s) (now : Datetime) (event : NotificationEvent ε)
    (tenantId : String) :
    Invariant (s.withTables (s.toNotificationTables.enqueue now event tenantId)) := by
  have hfold : ∀ (rows : List (NotificationSubscription × NotificationChannel)) (s : Service ε),
      Invariant s → (∀ row ∈ rows, (s.channel? row.2.channelId).isSome) →
        Invariant (s.withTables (rows.foldl
          (fun t row => t.addDelivery now tenantId event row.2) s.toNotificationTables)) := by
    intro rows
    induction rows with
    | nil => exact fun s h _ => h
    | cons row rows ih =>
      intro s h hrows
      refine ih (s.withTables (s.toNotificationTables.addDelivery now tenantId event row.2))
        (h.addDelivery now tenantId event (hrows row List.mem_cons_self)) fun row' hrow' => ?_
      show ((s.toNotificationTables.addDelivery now tenantId event row.2).channel? _).isSome
      rw [NotificationTables.channel?, addDelivery_channels]
      exact hrows row' (List.mem_cons_of_mem _ hrow')
  refine hfold _ s h fun row hrow => ?_
  exact Option.isSome_of_eq_some (channel_of_mem_subscribed (List.mem_filter.mp hrow).1)

/-! ## Steps of a worker -/

/-- A batch begins: its deliveries were waiting, so nobody owned them. -/
theorem Invariant.deliverDue (h : Invariant s) (index : ℕ) (now : Datetime) (limit : ℕ)
    (locked : ℕ → Bool) : Invariant (s.deliverDue index now limit locked) := by
  unfold Service.deliverDue
  split
  case h_2 => exact h
  case h_1 hidle =>
  set claims := (claimDue now limit locked s.toNotificationTables).1 with hclaims
  have hfree : ∀ deliveryId ∈ claims.map Claim.deliveryId, ∀ index, ¬ s.Owns index deliveryId := by
    intro deliveryId hid index howns
    obtain ⟨delivery, hdelivery, rfl, hwaits⟩ := of_mem_claimDue hid
    exact h.not_waiting hdelivery howns hwaits
  -- the rows after the step
  have hids : (claimedRows now limit locked s.toNotificationTables).map
      (fun row => row.1.deliveryId) = claims.map Claim.deliveryId :=
    (claimDue_ids now limit locked s.toNotificationTables).symm
  have hbefore : ∀ delivery ∈ (claimDue now limit locked s.toNotificationTables).2.deliveries,
      (∃ before ∈ s.deliveries, before.deliveryId ∈ claims.map Claim.deliveryId ∧
        claim before = delivery) ∨
      (delivery ∈ s.deliveries ∧ delivery.deliveryId ∉ claims.map Claim.deliveryId) := by
    intro delivery hdelivery
    obtain ⟨before, hmem, rfl⟩ := mem_updateWhere.mp hdelivery
    rw [hids]
    split_ifs with hfound
    · exact Or.inl ⟨before, hmem, of_decide_eq_true hfound, rfl⟩
    · exact Or.inr ⟨hmem, fun hid => hfound (decide_eq_true hid)⟩
  have hwaits : ∀ before ∈ s.deliveries, before.deliveryId ∈ claims.map Claim.deliveryId →
      before.attempts < 5 := by
    intro before hmem hid
    obtain ⟨delivery, hdelivery, heq, hwaits⟩ := of_mem_claimDue hid
    obtain rfl := eq_of_key_eq h.distinct hdelivery hmem heq
    exact (h.attempts delivery hdelivery).2 hwaits
  have hlength : (claimDue now limit locked s.toNotificationTables).2.deliveries.length =
      s.deliveries.length := List.length_map _
  constructor
  · show (updateWhere _ claim s.deliveries).map _ =
      List.range (claimDue now limit locked s.toNotificationTables).2.deliveries.length
    have hkey : ∀ row : NotificationDelivery ε, (claim row).deliveryId = row.deliveryId :=
      fun _ => rfl
    rw [map_updateWhere hkey, hlength]
    exact h.numbered
  · intro delivery hdelivery
    rcases hbefore delivery hdelivery with ⟨before, hmem, -, rfl⟩ | ⟨hmem, -⟩
    · exact h.channels before hmem
    · exact h.channels delivery hmem
  · intro delivery hdelivery
    rcases hbefore delivery hdelivery with ⟨before, hmem, hid, rfl⟩ | ⟨hmem, -⟩
    · exact ⟨hwaits before hmem hid, by rintro (hstatus | hstatus) <;> cases hstatus⟩
    · exact h.attempts delivery hmem
  · intro index'
    rw [workers_setWorker]
    split_ifs
    · exact nodup_claimDue h.distinct
    · exact h.once index'
  · intro index₁ index₂ deliveryId h₁ h₂
    rw [owns_setWorker] at h₁ h₂
    split_ifs at h₁ h₂ with heq₁ heq₂ heq₂
    · exact heq₁.trans heq₂.symm
    · exact absurd h₂ (hfree deliveryId h₁ index₂)
    · exact absurd h₁ (hfree deliveryId h₂ index₁)
    · exact h.exclusive h₁ h₂
  · intro index' deliveryId howns
    rw [owns_setWorker] at howns
    split_ifs at howns
    · obtain ⟨delivery, hdelivery, rfl, -⟩ := of_mem_claimDue howns
      refine ⟨claim delivery, mem_updateWhere_of_pos hdelivery ?_, rfl, .inl rfl⟩
      rw [hids]
      exact decide_eq_true howns
    · obtain ⟨delivery, hdelivery, rfl, hheld⟩ := h.held howns
      refine ⟨delivery, mem_updateWhere_of_neg hdelivery ?_, rfl, hheld⟩
      rw [hids]
      exact decide_eq_false fun hid => hfree _ hid index' howns
  · intro delivery hdelivery
    rcases hbefore delivery hdelivery with ⟨before, hmem, -, rfl⟩ | ⟨hmem, -⟩
    · exact (h.paid before hmem).trans (Nat.le_succ _)
    · exact h.paid delivery hmem
  · intro index' claim' hclaim' delivery hdelivery hid
    rw [workers_setWorker] at hclaim'
    split_ifs at hclaim'
    · rcases hbefore delivery hdelivery with ⟨before, hmem, -, rfl⟩ | ⟨hmem, hnot⟩
      · exact Nat.lt_succ_of_le (h.paid before hmem)
      · exact absurd (hid ▸ List.mem_map_of_mem hclaim') hnot
    · rcases hbefore delivery hdelivery with ⟨before, hmem, hfound, rfl⟩ | ⟨hmem, hnot⟩
      · exact Nat.lt_succ_of_le (h.paid before hmem)
      · exact h.unsent claim' hclaim' delivery hmem hid
  · intro deliveryId hsent
    exact hlength ▸ h.known deliveryId hsent

/-- A delivery is sent that was not sent since it was claimed. -/
theorem Invariant.send (h : Invariant s) (index : ℕ) : Invariant (s.send index) := by
  unfold Service.send
  split
  case h_2 => exact h
  case h_1 claim rest claimed hworker =>
  have hunsent : claim ∈ (s.workers index).unsent := by
    rw [hworker]
    exact List.mem_cons_self
  have hhead : s.Owns index claim.deliveryId := by
    rw [Owns, hworker]
    exact List.mem_cons_self
  obtain ⟨row, hrow, hrowId, -⟩ := h.held hhead
  let worker : Worker ε := { todo := claim :: rest, phase := .sending, claimed }
  have hsub : worker.todo.Sublist (s.workers index).todo := by
    rw [hworker]
  have hunsent' : worker.unsent ⊆ (s.workers index).unsent := by
    rw [hworker]
    exact List.subset_cons_self claim rest
  have hgoes := h.setWorker hsub hunsent'
  have honce : claim.deliveryId ∉ rest.map Claim.deliveryId := by
    have hnodup := h.once index
    rw [hworker, List.map_cons] at hnodup
    exact (List.nodup_cons.mp hnodup).1
  have hcount : ∀ deliveryId, (s.sends ++ [claim.deliveryId]).count deliveryId =
      s.sends.count deliveryId + if claim.deliveryId = deliveryId then 1 else 0 := by
    intro deliveryId
    rw [List.count_append, List.count_singleton]
    simp only [beq_iff_eq]
  refine ⟨h.numbered, h.channels, h.attempts, hgoes.once, hgoes.exclusive, hgoes.held, ?_, ?_, ?_⟩
  · intro delivery hdelivery
    show (s.sends ++ [claim.deliveryId]).count delivery.deliveryId ≤ _
    rw [hcount]
    split_ifs with hid
    · exact h.unsent claim hunsent delivery hdelivery hid.symm
    · exact h.paid delivery hdelivery
  · intro index' claim' hclaim' delivery hdelivery hid
    show (s.sends ++ [claim.deliveryId]).count delivery.deliveryId < _
    have hother : claim.deliveryId ≠ delivery.deliveryId := by
      intro hsame
      have hclaim : claim'.deliveryId = claim.deliveryId := hid.symm.trans hsame.symm
      rw [workers_setWorker] at hclaim'
      split_ifs at hclaim' with heq
      · exact honce (hclaim ▸ List.mem_map_of_mem hclaim')
      · have howns : s.Owns index' claim'.deliveryId :=
          List.mem_map_of_mem ((s.workers index').unsent_sublist.subset hclaim')
        exact heq (h.exclusive howns (hclaim ▸ hhead))
    rw [hcount, if_neg hother]
    exact hgoes.unsent claim' hclaim' delivery hdelivery hid
  · intro deliveryId hsent
    rcases List.mem_append.mp hsent with hold | hnew
    · exact h.known deliveryId hold
    · rw [List.mem_singleton.mp hnew, ← hrowId]
      exact h.lt_length hrow

theorem Invariant.finish (h : Invariant s) (index : ℕ) (result : Except String ℤ) :
    Invariant (s.finish index result) := by
  unfold Service.finish
  split
  case h_1 todo claimed hworker =>
    refine h.setWorker (by rw [hworker]) ?_
    rw [hworker]
    cases result <;> exact List.Subset.refl _
  case h_2 => exact h

theorem applied_setWorker (t : NotificationTables ε) (commit : Commit) (index : ℕ)
    (worker : Worker ε) :
    (s.applied t commit).setWorker index worker = (s.setWorker index worker).applied t commit := by
  cases commit with
  | returned => rfl
  | raised applied error => cases applied <;> rfl

/-- A transaction that may have been applied. -/
theorem Invariant.applied (h : Invariant s) (now : Datetime) (deliveryId : ℕ)
    (result : Except String ℤ)
    (howner : (∃ code, result = .ok code) ∨ ∀ index, ¬ s.Owns index deliveryId) (commit : Commit) :
    Invariant (s.applied
      (Notifications.finalizeDelivery now deliveryId result s.toNotificationTables) commit) := by
  cases commit with
  | returned => exact h.finalizeDelivery now deliveryId result howner
  | raised applied error =>
    cases applied with
    | false => exact h
    | true => exact h.finalizeDelivery now deliveryId result howner

/-- Once it is out of the batch of its worker, nobody owns a delivery. -/
theorem Invariant.not_owns (h : Invariant s) {index : ℕ} {claim : Claim ε} {rest : List (Claim ε)}
    (htodo : (s.workers index).todo = claim :: rest) {worker : Worker ε}
    (hworker : worker.todo.Sublist rest) (index' : ℕ) :
    ¬ (s.setWorker index worker).Owns index' claim.deliveryId := by
  rw [owns_setWorker]
  split_ifs with heq
  · intro hmem
    have hnodup := h.once index
    rw [htodo, List.map_cons] at hnodup
    exact (List.nodup_cons.mp hnodup).1 ((hworker.map _).subset hmem)
  · intro howns
    have hhead : s.Owns index claim.deliveryId := by
      rw [Owns, htodo]
      exact List.mem_cons_self
    exact heq (h.exclusive howns hhead)

theorem Invariant.finalize (h : Invariant s) (index : ℕ) (now : Datetime) (commit : Commit) :
    Invariant (s.finalize index now commit) := by
  unfold Service.finalize
  split
  case h_1 claim rest code claimed hworker =>
    rw [applied_setWorker]
    refine (h.setWorker ?_ ?_).applied now claim.deliveryId (.ok code) (.inl ⟨code, rfl⟩) commit
    · rw [hworker]
      cases commit with
      | returned => exact List.sublist_cons_self claim rest
      | raised applied error => exact List.Sublist.refl _
    · rw [hworker]
      cases commit <;> exact List.Subset.refl _
  case h_2 claim rest error claimed hworker =>
    rw [applied_setWorker]
    cases commit with
    | returned =>
      refine (h.setWorker ?_ ?_).applied now claim.deliveryId (.error error)
        (.inr (h.not_owns (by rw [hworker]) (List.Sublist.refl rest))) .returned
      · rw [hworker]
        exact List.sublist_cons_self claim rest
      · rw [hworker]
        exact List.Subset.refl _
    | raised applied failure =>
      refine (h.setWorker ?_ ?_).applied now claim.deliveryId (.error error)
        (.inr (h.not_owns (by rw [hworker]) (List.nil_sublist rest))) (.raised applied failure)
      · rw [hworker]
        exact List.nil_sublist _
      · rw [hworker]
        exact List.nil_subset _
  case h_3 => exact h

/-- Every step keeps the invariant. -/
theorem Invariant.step (h : Invariant s) (move : ServiceMove ε) : Invariant (s.step move) := by
  cases move with
  | addChannel channel =>
    refine h.of_channels rfl fun channelId hchannel => ?_
    rw [NotificationTables.channel?, List.find?_append]
    rw [Option.isSome_or, Bool.or_eq_true]
    exact Or.inl hchannel
  | subscribe subscription => exact h.of_channels rfl fun _ hchannel => hchannel
  | enqueue now event tenantId => exact h.enqueue now event tenantId
  | deliverDue index now limit locked => exact h.deliverDue index now limit locked
  | send index => exact h.send index
  | finish index result => exact h.finish index result
  | finalize index now commit => exact h.finalize index now commit
  | crash index => exact h.setWorker (List.nil_sublist _) (List.nil_subset _)

/-! ## Owners -/

/-- What is being processed after an enqueue was there before. -/
theorem mem_enqueue {t : NotificationTables ε} {now : Datetime} {event : NotificationEvent ε}
    {tenantId : String} {delivery : NotificationDelivery ε}
    (h : delivery ∈ (t.enqueue now event tenantId).deliveries)
    (hstatus : delivery.status = .processing) : delivery ∈ t.deliveries := by
  rw [NotificationTables.enqueue] at h
  generalize (t.subscribed tenantId).filter _ = rows at h
  induction rows generalizing t with
  | nil => exact h
  | cons row rows ih =>
    have hadded : delivery ∈ (t.addDelivery now tenantId event row.2).deliveries := ih h
    rcases addDelivery_cases t now tenantId event row.2 with
      heq | ⟨added, -, -, hpending, -, heq⟩
    · exact heq ▸ hadded
    · rw [heq] at hadded
      rcases List.mem_append.mp hadded with hold | hnew
      · exact hold
      · rw [List.mem_singleton.mp hnew, hpending] at hstatus
        cases hstatus

/-- A worker goes on with its batch. -/
theorem Owned.setWorker (h : s.Owned) {index : ℕ} {worker : Worker ε}
    (htodo : worker.todo = (s.workers index).todo) : (s.setWorker index worker).Owned := by
  intro delivery hdelivery hstatus
  obtain ⟨index', howns⟩ := h delivery hdelivery hstatus
  refine ⟨index', owns_setWorker.mpr ?_⟩
  split_ifs with heq
  · rw [htodo]
    exact heq ▸ howns
  · exact howns

theorem Owned.deliverDue (h : s.Owned) (index : ℕ) (now : Datetime) (limit : ℕ)
    (locked : ℕ → Bool) : (s.deliverDue index now limit locked).Owned := by
  unfold Service.deliverDue
  split
  case h_2 => exact h
  case h_1 hidle =>
  intro delivery hdelivery hstatus
  obtain ⟨before, hmem, rfl⟩ := mem_updateWhere.mp hdelivery
  split_ifs at hstatus ⊢ with hfound
  · refine ⟨index, owns_setWorker.mpr ?_⟩
    rw [if_pos rfl]
    show before.deliveryId ∈ (claimDue now limit locked s.toNotificationTables).1.map _
    rw [claimDue_ids]
    exact of_decide_eq_true hfound
  · obtain ⟨index', howns⟩ := h before hmem hstatus
    refine ⟨index', owns_setWorker.mpr ?_⟩
    rw [if_neg]
    · exact howns
    · rintro rfl
      rw [Owns, hidle] at howns
      exact List.not_mem_nil howns

/-- The deliveries after a transaction that may have been applied. -/
theorem of_mem_applied {now : Datetime} {deliveryId : ℕ} {result : Except String ℤ}
    {commit : Commit} {delivery : NotificationDelivery ε}
    (h : delivery ∈ (s.applied
      (Notifications.finalizeDelivery now deliveryId result s.toNotificationTables)
      commit).deliveries)
    (hstatus : delivery.status = .processing) :
    delivery ∈ s.deliveries ∧
      (delivery.deliveryId = deliveryId → ∃ error, commit = .raised false error) := by
  have hfinalized : delivery ∈
      (Notifications.finalizeDelivery now deliveryId result s.toNotificationTables).deliveries →
      delivery ∈ s.deliveries ∧ delivery.deliveryId ≠ deliveryId := by
    intro hmem
    rcases mem_finalizeDelivery hmem with ⟨before, -, -, -, rfl⟩ | ⟨hold, hother⟩
    · exact absurd hstatus (settle_status now result before).1
    · exact ⟨hold, fun hid => hother hid hstatus⟩
  cases commit with
  | returned => exact ⟨(hfinalized h).1, fun hid => absurd hid (hfinalized h).2⟩
  | raised applied error =>
    cases applied with
    | false => exact ⟨h, fun _ => ⟨error, rfl⟩⟩
    | true => exact ⟨(hfinalized h).1, fun hid => absurd hid (hfinalized h).2⟩

theorem owns_applied {t : NotificationTables ε} {commit : Commit} {index deliveryId : ℕ} :
    (s.applied t commit).Owns index deliveryId ↔ s.Owns index deliveryId := by
  cases commit with
  | returned => exact Iff.rfl
  | raised applied error => cases applied <;> exact Iff.rfl

/-- A delivery is finalized: the worker keeps what is still being processed, unless it stops. -/
theorem Owned.finalize (h : s.Owned) (index : ℕ) (now : Datetime) (commit : Commit)
    (hcareful : s.Careful (.finalize index now commit)) : (s.finalize index now commit).Owned := by
  intro delivery hdelivery hstatus
  unfold Service.finalize at hdelivery ⊢
  split at hdelivery
  case h_1 claim rest code claimed hworker =>
    obtain ⟨hmem, hclaim⟩ := of_mem_applied (s := s) hdelivery hstatus
    obtain ⟨index', howns⟩ := h delivery hmem hstatus
    refine ⟨index', owns_setWorker.mpr ?_⟩
    split_ifs with heq
    · rw [heq, Owns, hworker] at howns
      cases commit with
      | raised applied error => exact howns
      | returned =>
        rcases List.mem_cons.mp howns with hid | hrest
        · obtain ⟨error, hcommit⟩ := hclaim hid
          cases hcommit
        · exact hrest
    · exact owns_applied.mpr howns
  case h_2 claim rest error claimed hworker =>
    obtain ⟨hmem, hclaim⟩ := of_mem_applied (s := s) hdelivery hstatus
    obtain ⟨index', howns⟩ := h delivery hmem hstatus
    refine ⟨index', owns_setWorker.mpr ?_⟩
    split_ifs with heq
    · rw [heq, Owns, hworker] at howns
      cases commit with
      | returned =>
        rcases List.mem_cons.mp howns with hid | hrest
        · obtain ⟨error, hcommit⟩ := hclaim hid
          cases hcommit
        · exact hrest
      | raised applied error =>
        refine absurd ?_ (hcareful delivery hmem hstatus)
        simp only [leftBehind, hworker]
        cases applied with
        | false => exact howns
        | true =>
          rcases List.mem_cons.mp howns with hid | hrest
          · obtain ⟨error, hcommit⟩ := hclaim hid
            cases hcommit
          · exact hrest
    · exact owns_applied.mpr howns
  case h_3 => exact h delivery hdelivery hstatus

/-- A careful step leaves an owner to whatever is being processed. -/
theorem Owned.step (h : s.Owned) (move : ServiceMove ε) (hcareful : s.Careful move) :
    (s.step move).Owned := by
  cases move with
  | addChannel channel => exact h
  | subscribe subscription => exact h
  | enqueue now event tenantId =>
    exact fun delivery hdelivery hstatus => h delivery (mem_enqueue hdelivery hstatus) hstatus
  | deliverDue index now limit locked => exact h.deliverDue index now limit locked
  | send index =>
    show (s.send index).Owned
    unfold Service.send
    split
    case h_1 claim rest claimed hworker =>
      exact Owned.setWorker (s := { s with sends := s.sends ++ [claim.deliveryId] }) h
        (by rw [hworker])
    case h_2 => exact h
  | finish index result =>
    show (s.finish index result).Owned
    unfold Service.finish
    split
    case h_1 todo claimed hworker => exact h.setWorker (by rw [hworker])
    case h_2 => exact h
  | finalize index now commit => exact h.finalize index now commit hcareful
  | crash index =>
    intro delivery hdelivery hstatus
    obtain ⟨index', howns⟩ := h delivery hdelivery hstatus
    refine ⟨index', owns_setWorker.mpr ?_⟩
    rw [if_neg]
    · exact howns
    · rintro rfl
      exact hcareful delivery hdelivery hstatus howns

/-! ## What is stranded -/

/-- What is being processed and has no owner is stranded. -/
theorem Invariant.stranded (h : Invariant s) {delivery : NotificationDelivery ε}
    (hdelivery : delivery ∈ s.deliveries) (hstatus : delivery.status = .processing)
    (hfree : ∀ index, ¬ s.Owns index delivery.deliveryId) : ¬ s.NotStranded := by
  intro hnot
  rcases hnot.owned delivery hdelivery (by simp [hstatus]) (by simp [hstatus]) with
    ⟨index, howns⟩ | hclaimed
  · exact hfree index howns
  · obtain ⟨delivery', hdelivery', hid, hwaits⟩ :=
      of_mem_claimDue (hclaimed _ _ (le_refl _) (le_refl _))
    obtain rfl := eq_of_key_eq h.distinct hdelivery' hdelivery hid
    simp [hstatus] at hwaits

/-- What a worker leaves behind in processing has no owner any more. -/
theorem Invariant.left_behind (h : Invariant s) {move : ServiceMove ε}
    {delivery : NotificationDelivery ε} (hdelivery : delivery ∈ s.deliveries)
    (hleft : delivery.deliveryId ∈ s.leftBehind move) :
    delivery ∈ (s.step move).deliveries ∧
      ∀ index, ¬ (s.step move).Owns index delivery.deliveryId := by
  -- nobody else owns what the worker owned
  have hgone : ∀ index, s.Owns index delivery.deliveryId → ∀ index',
      ¬ (s.setWorker index {}).Owns index' delivery.deliveryId := by
    intro index howns index'
    rw [owns_setWorker]
    split_ifs with heq
    · exact List.not_mem_nil
    · exact fun howns' => heq (h.exclusive howns' howns)
  cases move with
  | crash index => exact ⟨hdelivery, hgone index hleft⟩
  | finalize index now commit =>
    cases commit with
    | returned => exact (List.not_mem_nil hleft).elim
    | raised applied error =>
      simp only [leftBehind] at hleft
      split at hleft
      case h_2 => exact (List.not_mem_nil hleft).elim
      case h_1 claim rest raised claimed hworker =>
      have howns : s.Owns index delivery.deliveryId := by
        rw [Owns, hworker]
        cases applied with
        | false => exact hleft
        | true => exact List.mem_cons_of_mem _ hleft
      have hstep : s.step (.finalize index now (.raised applied error)) =
          (s.applied (Notifications.finalizeDelivery now claim.deliveryId (.error raised)
            s.toNotificationTables) (.raised applied error)).setWorker index {} := by
        simp only [Service.step, Service.finalize, hworker]
      rw [hstep]
      refine ⟨?_, fun index' => ?_⟩
      · cases applied with
        | false => exact hdelivery
        | true =>
          refine mem_finalizeDelivery_of_ne hdelivery fun hid => ?_
          have hnodup := h.once index
          rw [hworker, List.map_cons] at hnodup
          exact (List.nodup_cons.mp hnodup).1 (hid ▸ hleft)
      · rw [applied_setWorker, owns_applied]
        exact hgone index howns index'
  | addChannel channel => exact (List.not_mem_nil hleft).elim
  | subscribe subscription => exact (List.not_mem_nil hleft).elim
  | enqueue now event tenantId => exact (List.not_mem_nil hleft).elim
  | deliverDue index now limit locked => exact (List.not_mem_nil hleft).elim
  | send index => exact (List.not_mem_nil hleft).elim
  | finish index result => exact (List.not_mem_nil hleft).elim

/-- **The exact condition.**  In a run no delivery is ever stranded, and none is attempted more than five
times, exactly when no worker stops before every delivery of its batch is finalized. -/
theorem notStranded_iff (moves : List (ServiceMove ε)) :
    Always step NotStranded ({} : Service ε) moves ↔
      Throughout step Careful ({} : Service ε) moves := by
  refine always_iff_throughout (I := fun s => Invariant s ∧ Owned s)
    (fun s move h hcareful => ⟨h.1.step move, h.2.step move hcareful⟩)
    (fun s h => h.1.notStranded h.2) (fun s move h hcareless => ?_)
    ⟨invariant_initial, owned_initial⟩ moves
  simp only [Careful, not_forall, not_not] at hcareless
  obtain ⟨delivery, hdelivery, hstatus, hleft⟩ := hcareless
  obtain ⟨hstays, hfree⟩ := h.1.left_behind hdelivery hleft
  exact (h.1.step move).stranded hstays hstatus hfree

/-- A worker stops between the claim and the send. -/
def crashAfterClaim : List (ServiceMove Unit) :=
  [.addChannel {
      channelId := "soc", tenantId := "default", channelType := "WEBHOOK"
      endpoint := "https://soc.example/hook" },
    .subscribe { tenantId := "default", channelId := "soc" },
    .enqueue 0 {
      eventId := "event-1", severity := "CRITICAL", assetId := "S2MUSDT"
      alertType := "CROSS_DOMAIN_MANIPULATION_RISK", envelope := () } "default",
    .deliverDue 0 0 50 fun _ => false,
    .crash 0]

/-- Its delivery is claimed by nobody after it. -/
theorem crash_strands :
    ¬ ∀ moves : List (ServiceMove Unit), Always step NotStranded {} moves := by
  intro halways
  have hinvariant : Invariant (run step ({} : Service Unit) crashAfterClaim) :=
    run_invariant (fun s move h => h.step move) invariant_initial crashAfterClaim
  have hdelivery : ({
      deliveryId := 0, tenantId := "default", channelId := "soc", eventId := "event-1"
      payload := (), status := .processing, attempts := 1, nextAttemptAt := 0 } :
        NotificationDelivery Unit) ∈ (run step ({} : Service Unit) crashAfterClaim).deliveries := by
    decide +kernel
  refine hinvariant.stranded hdelivery rfl (fun index => ?_) (halways crashAfterClaim).final
  show ¬ (setWorker _ 0 {}).Owns index 0
  rw [owns_setWorker]
  split_ifs with heq
  · exact List.not_mem_nil
  · show 0 ∉ ((setWorker _ 0 _).workers index).todo.map _
    rw [workers_setWorker, if_neg heq]
    exact List.not_mem_nil

end Service

end Notifications
end Scam2Market
