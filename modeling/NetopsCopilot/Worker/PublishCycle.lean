import NetopsCopilot.Worker.OutboxPublisher

/-!
# One cycle of a publisher (`publish_once` in `netops_worker/outbox_publisher.py`)

`publish_once` leases a batch, hands each event to the transport and settles it, and returns how many events
it leased, published, scheduled again and lost. What happens outside the publisher is a parameter
(`PublishCycle`): the order in which the rows come back, how the transport answers for each event, and the
clock and the database at each settlement, where other publishers may have taken the lease over.

A lost lease is counted when the acknowledgement finds it gone, and not when the retry does. So the result
accounts for every event exactly in the cycles in which no retry finds its lease gone
(`publishOnce_accounts_iff`).
-/

namespace NetopsCopilot

open Raising

/-! ### The cycle -/

/-- `RetryablePublishError`, with what its `__init__` checks. -/
structure RetryablePublishError where
  errorCode : PyStr
  errorCodeOk : deliveryErrorCode errorCode = true

/-- How `OutboxTransport.publish` ends; `raised` is any other `Exception`. -/
inductive TransportOutcome where
  | returned
  | retryable (error : RetryablePublishError)
  | raised

/-- The settlement that an outcome asks for. -/
def TransportOutcome.handoff : TransportOutcome → Handoff
  | .returned => .accepted
  | .retryable error => .failed error.errorCode
  | .raised => .failed (py "transport.failed")

/-- How the transport answers for an event, and the clock and the database at its settlement. -/
structure Delivery where
  outcome : TransportOutcome
  now : Instant
  db : Db

/-- What surrounds a cycle: the time, the `uuid4()` and the database of its lease, and what happens to the
leased events, in the order in which `RETURNING` gives them. -/
structure PublishCycle where
  leasedAt : Instant
  uuid : Uuid
  db : Db
  deliveries : List LeasedOutboxEvent → List (LeasedOutboxEvent × Delivery)
  deliveries_perm : ∀ events, ((deliveries events).map Prod.fst).Perm events

section

variable (organizationId : Uuid) (settings : OutboxPublisherSettings)

/-- One turn of the loop of `publish_once`. -/
def publishEvent (result : PublishCycleResult) (turn : LeasedOutboxEvent × Delivery) :
    Except OutboxError PublishCycleResult :=
  let handoff := turn.2.outcome.handoff
  match settleEvent organizationId settings turn.1 turn.2.now handoff turn.2.db with
  | .ok _ => .ok (result.settled handoff)
  -- both helpers catch `OutboxLeaseLostError` only
  | .error (.leaseLost _) => .ok (result.lost handoff)
  | .error e => .error e

/-- `OutboxPublisher.publish_once`. -/
def publishOnce (cycle : PublishCycle) : Except OutboxError PublishCycleResult := do
  let (events, _) ← leaseAvailable organizationId settings.workerId cycle.leasedAt settings.batchSize
    settings.leaseFor cycle.uuid cycle.db
  (cycle.deliveries events).foldlM (publishEvent organizationId settings) { leased := events.length }

/-! ### What the result should say -/

/-- The lease of an event is still there: one row of the organization is unpublished and has its token. -/
def LeaseKept (event : LeasedOutboxEvent) (db : Db) : Prop :=
  (db.outbox.filter fun r => r.organizationId == organizationId && r.id == event.outboxId &&
    r.publishedAt.isNone && r.lockedBy == some event.lockedBy).length = 1

instance (event : LeasedOutboxEvent) (db : Db) : Decidable (LeaseKept organizationId event db) :=
  inferInstanceAs (Decidable (_ = _))

/-- An event whose transport call returned, or raised. -/
def TransportOutcome.failed : TransportOutcome → Bool
  | .returned => false
  | _ => true

/-- The number of events whose lease was kept or lost, after a call that returned or raised. -/
def turns (failed kept : Bool) (deliveries : List (LeasedOutboxEvent × Delivery)) : Nat :=
  deliveries.countP fun turn =>
    turn.2.outcome.failed == failed && decide (LeaseKept organizationId turn.1 turn.2.db) == kept

/-- Every leased event is counted once: as published or scheduled again if its row was settled, and as lost
if its lease was gone. -/
structure PublishCycleResult.Accounts (deliveries : List (LeasedOutboxEvent × Delivery))
    (result : PublishCycleResult) : Prop where
  leased : result.leased = deliveries.length
  sum : result.leased = result.published + result.retriesScheduled + result.settlementsLost
  published : result.published = turns organizationId false true deliveries
  retriesScheduled : result.retriesScheduled = turns organizationId true true deliveries
  settlementsLost : result.settlementsLost =
    deliveries.countP fun turn => !decide (LeaseKept organizationId turn.1 turn.2.db)

end

/-! ### One settlement -/

section

variable {organizationId : Uuid} {settings : OutboxPublisherSettings} {event : LeasedOutboxEvent}
  {lease : OutboxLease} {now : Instant} {db : Db}

theorem TransportOutcome.handoff_code {outcome : TransportOutcome} {errorCode : PyStr}
    (h : outcome.handoff = .failed errorCode) : deliveryErrorCode errorCode = true := by
  cases outcome with
  | returned => cases h
  | retryable error =>
    cases h
    exact error.errorCodeOk
  | raised =>
    cases h
    decide

theorem leaseKept_iff (hlease : event.lease = .ok lease) :
    LeaseKept organizationId event db ↔
      (db.outbox.filter (OutboxRow.heldBy organizationId lease)).length = 1 := by
  obtain ⟨hid, htoken⟩ := OutboxLease.make_ok hlease
  unfold LeaseKept OutboxRow.heldBy
  rw [hid, htoken]

/-- A settlement of a valid lease succeeds if the lease is there. -/
theorem settleEvent_eq (outcome : TransportOutcome) (hlease : event.lease = .ok lease) :
    ∃ f, Settles f ∧ settleEvent organizationId settings event now outcome.handoff db =
      if LeaseKept organizationId event db then
        .ok { db with outbox := settledOutbox organizationId lease f db }
      else .error (.leaseLost lease.outboxId) := by
  have hsettle : ∀ f, Settles f → settle organizationId lease f db =
      if LeaseKept organizationId event db then
        .ok { db with outbox := settledOutbox organizationId lease f db }
      else .error (.leaseLost lease.outboxId) := by
    intro f hf
    rw [settle_eq hf]
    by_cases hkept : LeaseKept organizationId event db
    · rw [if_pos hkept, if_neg (not_not.mpr ((leaseKept_iff hlease).mp hkept))]
    · rw [if_neg hkept, if_pos fun h => hkept ((leaseKept_iff hlease).mpr h)]
  unfold settleEvent
  rw [hlease]
  rcases hhandoff : outcome.handoff with _ | errorCode
  · exact ⟨_, settles_published now, hsettle _ (settles_published now)⟩
  · have hretried := settles_retried (now + settings.retryAfter) errorCode
    refine ⟨_, hretried, ?_⟩
    show scheduleRetry organizationId lease (now + settings.retryAfter) errorCode db = _
    unfold scheduleRetry
    rw [if_pos (TransportOutcome.handoff_code hhandoff)]
    exact hsettle _ hretried

/-- A turn of the loop counts what its settlement found. -/
theorem publishEvent_ok {result result' : PublishCycleResult} {turn : LeasedOutboxEvent × Delivery}
    (h : publishEvent organizationId settings result turn = .ok result') :
    result' = if LeaseKept organizationId turn.1 turn.2.db then result.settled turn.2.outcome.handoff
      else result.lost turn.2.outcome.handoff := by
  obtain ⟨event, delivery⟩ := turn
  unfold publishEvent at h
  cases hlease : event.lease with
  | error e =>
    have hvalue : e = .valueError (py "lease_token must contain 1 to 255 non-blank characters.") := by
      unfold LeasedOutboxEvent.lease OutboxLease.make at hlease
      split_ifs at hlease
      cases hlease
      rfl
    have hraise : settleEvent organizationId settings event delivery.now delivery.outcome.handoff delivery.db =
        .error e := by
      unfold settleEvent
      rw [hlease]
      rfl
    dsimp only at h
    rw [hraise, hvalue] at h
    cases h
  | ok lease =>
    obtain ⟨f, -, heq⟩ := @settleEvent_eq organizationId settings event lease delivery.now delivery.db
      delivery.outcome hlease
    dsimp only at h ⊢
    rw [heq] at h
    split_ifs at h ⊢ with hkept
    · cases h
      rfl
    · cases h
      rfl

end

/-! ### The loop -/

section

variable {organizationId : Uuid} {settings : OutboxPublisherSettings}
  {deliveries : List (LeasedOutboxEvent × Delivery)}

theorem turns_cons (failed kept : Bool) (turn : LeasedOutboxEvent × Delivery) :
    turns organizationId failed kept (turn :: deliveries) = turns organizationId failed kept deliveries +
      if turn.2.outcome.failed = failed ∧ decide (LeaseKept organizationId turn.1 turn.2.db) = kept then 1
      else 0 := by
  unfold turns
  rw [List.countP_cons]
  simp only [Bool.and_eq_true, beq_iff_eq]

/-- Every event is of one of the four kinds. -/
theorem length_eq_turns : deliveries.length =
    turns organizationId false true deliveries + turns organizationId true true deliveries +
      (turns organizationId false false deliveries + turns organizationId true false deliveries) := by
  induction deliveries with
  | nil => rfl
  | cons turn rest ih =>
    simp only [turns_cons, List.length_cons, ih]
    cases turn.2.outcome.failed <;> cases decide (LeaseKept organizationId turn.1 turn.2.db) <;> simp
    all_goals omega

theorem countP_lost : (deliveries.countP fun turn => !decide (LeaseKept organizationId turn.1 turn.2.db)) =
    turns organizationId false false deliveries + turns organizationId true false deliveries := by
  induction deliveries with
  | nil => rfl
  | cons turn rest ih =>
    rw [List.countP_cons, ih, turns_cons, turns_cons]
    cases turn.2.outcome.failed <;> cases decide (LeaseKept organizationId turn.1 turn.2.db) <;> simp
    all_goals omega

/-- A lost lease is counted after a call that returned, and only then. -/
theorem publishEvents_ok {result result' : PublishCycleResult}
    (h : deliveries.foldlM (publishEvent organizationId settings) result = .ok result') :
    result'.leased = result.leased ∧
      result'.published = result.published + turns organizationId false true deliveries ∧
      result'.retriesScheduled = result.retriesScheduled + turns organizationId true true deliveries ∧
      result'.settlementsLost = result.settlementsLost + turns organizationId false false deliveries := by
  induction deliveries generalizing result with
  | nil =>
    cases h
    exact ⟨rfl, rfl, rfl, rfl⟩
  | cons turn rest ih =>
    rw [List.foldlM_cons] at h
    obtain ⟨result₁, hturn, hrest⟩ := bind_ok h
    obtain ⟨hleased, hpublished, hretries, hlost⟩ := ih hrest
    have hcount := publishEvent_ok hturn
    simp only [turns_cons]
    rw [hleased, hpublished, hretries, hlost, hcount]
    by_cases hkept : LeaseKept organizationId turn.1 turn.2.db
    · cases turn.2.outcome <;>
        simp [hkept, TransportOutcome.handoff, TransportOutcome.failed, PublishCycleResult.settled]
      all_goals omega
    · cases turn.2.outcome <;>
        simp [hkept, TransportOutcome.handoff, TransportOutcome.failed, PublishCycleResult.lost]
      all_goals omega

/-- No call that raised is followed by a retry whose lease is gone. -/
theorem turns_eq_zero : turns organizationId true false deliveries = 0 ↔
    ∀ turn ∈ deliveries, turn.2.outcome.failed = true → LeaseKept organizationId turn.1 turn.2.db := by
  unfold turns
  rw [List.countP_eq_zero]
  simp only [Bool.and_eq_true, beq_iff_eq, decide_eq_false_iff_not, not_and, not_not]

/-- **The accounts of a cycle.** When `publish_once` returns, its result accounts for every leased event
exactly once if and only if each event whose transport call raised still has its lease at its settlement. -/
theorem publishOnce_accounts_iff {cycle : PublishCycle} {result : PublishCycleResult}
    (h : publishOnce organizationId settings cycle = .ok result) :
    ∃ events db', leaseAvailable organizationId settings.workerId cycle.leasedAt settings.batchSize
        settings.leaseFor cycle.uuid cycle.db = .ok (events, db') ∧
      (result.Accounts organizationId (cycle.deliveries events) ↔
        ∀ turn ∈ cycle.deliveries events, turn.2.outcome.failed = true →
          LeaseKept organizationId turn.1 turn.2.db) := by
  obtain ⟨⟨events, db'⟩, hlease, hloop⟩ := bind_ok h
  refine ⟨events, db', hlease, ?_⟩
  obtain ⟨hleased, hpublished, hretries, hlost⟩ := publishEvents_ok hloop
  dsimp only at hleased
  have hlength : events.length = (cycle.deliveries events).length := by
    have hperm := (cycle.deliveries_perm events).length_eq
    rw [List.length_map] at hperm
    exact hperm.symm
  have hkinds := @length_eq_turns organizationId (cycle.deliveries events)
  simp only [Nat.zero_add] at hpublished hretries hlost
  rw [← turns_eq_zero]
  constructor
  · intro haccounts
    have hgone := haccounts.settlementsLost
    rw [countP_lost] at hgone
    omega
  · intro hzero
    refine ⟨hleased.trans hlength, ?_, hpublished, hretries, ?_⟩
    · rw [hleased, hpublished, hretries, hlost]
      omega
    · rw [countP_lost]
      omega

end

/-! ### Samples -/

/-- One event, leased at time 110 by worker `w`, for which the transport raises; its row is `row` when it is
settled, after its lease of one minute has expired. -/
def sampleCycle (row : OutboxRow) : PublishCycle where
  leasedAt := 110
  uuid := 1
  db := { outbox := [sampleOutboxRow] }
  deliveries events := events.map fun event =>
    (event, { outcome := .raised, now := 60000120, db := { outbox := [row] } })
  deliveries_perm events := by
    rw [List.map_map]
    exact List.Perm.of_eq (List.map_id events)

/-- The accounts hold when the row is still leased by `w`. -/
theorem publishOnce_accounts_sample : ∃ result events,
    publishOnce 7 sampleSettings (sampleCycle (sampleOutboxRow.leased 110 sampleToken)) = .ok result ∧
      result.Accounts 7
        ((sampleCycle (sampleOutboxRow.leased 110 sampleToken)).deliveries events) := by
  have hrun : publishOnce 7 sampleSettings (sampleCycle (sampleOutboxRow.leased 110 sampleToken)) =
      .ok { leased := 1, retriesScheduled := 1 } := by
    rfl
  obtain ⟨events, db', hlease, haccounts⟩ := publishOnce_accounts_iff hrun
  cases hlease
  exact ⟨_, _, hrun, haccounts.mpr (by decide)⟩

/-- The sample row after worker `v` has leased it again at time 60000110. -/
def retakenRow : OutboxRow :=
  (sampleOutboxRow.leased 110 sampleToken).leased 60000110 (leaseTokenOf (py "v") 2)

/-- The result counts one leased event and no other when another worker has leased the row again. -/
theorem publishOnce_accounts_retaken :
    leaseAvailable 7 sampleSettings.workerId 110 sampleSettings.batchSize sampleSettings.leaseFor 1
        (sampleCycle retakenRow).db =
      .ok ([sampleLeasedEvent], { outbox := [sampleOutboxRow.leased 110 sampleToken] }) ∧
    publishOnce 7 sampleSettings (sampleCycle retakenRow) = .ok { leased := 1 } ∧
    ¬({ leased := 1 } : PublishCycleResult).Accounts 7
      ((sampleCycle retakenRow).deliveries [sampleLeasedEvent]) := by
  refine ⟨rfl, rfl, fun h => ?_⟩
  have hsum := h.sum
  simp at hsum

end NetopsCopilot
