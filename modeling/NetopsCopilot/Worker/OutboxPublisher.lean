import NetopsCopilot.Application.OutboxRuns
import NetopsCopilot.Python.Hashlib

/-!
# Outbox publishers (`netops_worker/outbox_publisher.py`, `netops_worker/outbox_transport.py`)

Any number of publishers of one organization run `publish_once` with the durable receipt transport. Each
event passes through three transactions: a lease, a receipt, and a settlement. The steps of different
publishers interleave in any way, clocks read anything, a handoff may fail before or after its receipt is
committed, and a publisher may crash between any two transactions.

A publisher knows its events only by what it leased (`KnownEvent`), and it acknowledges one only after its
receipt is committed: so a published row has its receipt (`outbox_delivery`).
-/

namespace NetopsCopilot

open Raising

/-! ### The publisher -/

/-- `OutboxPublisherSettings`, with what its `__post_init__` checks; `poll_interval` is left out. -/
structure OutboxPublisherSettings where
  workerId : PyStr
  batchSize : Int := 50
  leaseFor : Int := 60000000
  retryAfter : Int := 30000000
  workerIdOk : validateWorkerId workerId = .ok ()
  batchOk : validateLease batchSize leaseFor = .ok ()
  retryAfterOk : 0 < retryAfter

/-- `PublishCycleResult`. -/
structure PublishCycleResult where
  leased : Nat := 0
  published : Nat := 0
  retriesScheduled : Nat := 0
  settlementsLost : Nat := 0
deriving DecidableEq

/-- How the transport answered. -/
inductive Handoff where
  | accepted
  | failed (errorCode : PyStr)
deriving DecidableEq

/-- After a settlement. -/
def PublishCycleResult.settled (result : PublishCycleResult) : Handoff → PublishCycleResult
  | .accepted => { result with published := result.published + 1 }
  | .failed _ => { result with retriesScheduled := result.retriesScheduled + 1 }

/-- After a settlement that found its lease lost. -/
def PublishCycleResult.lost (result : PublishCycleResult) : Handoff → PublishCycleResult
  | .accepted => { result with settlementsLost := result.settlementsLost + 1 }
  | .failed _ => result

/-- Where `publish_once` is: before its lease, before the handoff of the first event, or before its
settlement. -/
inductive Stage where
  | idle
  | delivering (result : PublishCycleResult) (events : List LeasedOutboxEvent)
  | settling (result : PublishCycleResult) (event : LeasedOutboxEvent) (handoff : Handoff)
      (rest : List LeasedOutboxEvent)

section

variable (sha256 : PyStr → Sha256Hex) (organizationId : Uuid) (consumerName : PyStr)

/-- `DurableInboxReceiptTransport.publish`; its consumer name is stripped when it is built. -/
def publishReceipt (event : LeasedOutboxEvent) (processedAt : Instant) (inboxId : Uuid) (db : Db) :
    Except OutboxError Db :=
  if event.organizationId ≠ organizationId then
    .error (.valueError (py "Outbox event organization does not match this publisher scope."))
  else do
    let (_, db') ← recordOnce sha256 organizationId (strip consumerName) event.caseEventId
      (.obj event.payload) processedAt inboxId db
    return db'

/-- `_mark_published` or `_schedule_retry` of an event's lease. -/
def settleEvent (settings : OutboxPublisherSettings) (event : LeasedOutboxEvent) (now : Instant)
    (handoff : Handoff) (db : Db) : Except OutboxError Db := do
  let lease ← event.lease
  match handoff with
  | .accepted => markPublished organizationId lease now db
  | .failed errorCode => scheduleRetry organizationId lease (now + settings.retryAfter) errorCode db

/-! ### Runs -/

/-- The outbox with its log, and where each publisher is. -/
structure PublisherState where
  run : OutboxRun
  publisher : ℕ → Stage := fun _ => .idle

/-- The database of a state. -/
abbrev PublisherState.db (s : PublisherState) : Db := s.run.db

def PublisherState.at (s : PublisherState) (i : ℕ) (stage : Stage) : ℕ → Stage :=
  Function.update s.publisher i stage

/-- One transaction, one failed handoff, or one crash. -/
inductive PublisherStep (settings : ℕ → OutboxPublisherSettings) :
    PublisherState → PublisherState → Prop where
  /-- A producer adds a row, whose payload is an object. -/
  | enqueue {s} (row : OutboxRow) (hfresh : row.Fresh) (hpayload : ∃ payload, row.payload = .obj payload)
      (hid : row.id ∉ s.db.outbox.map (·.id)) :
      PublisherStep settings s
        { s with run := { s.run with db := { s.db with outbox := s.db.outbox ++ [row] } } }
  /-- Any other consumer's receipt; the table has one for each consumer and event. -/
  | receive {s} (row : InboxRow)
      (hunique : s.db.inbox.find? (InboxRow.receipt row.organizationId row.consumerName row.eventId) = none) :
      PublisherStep settings s
        { s with run := { s.run with db := { s.db with inbox := s.db.inbox ++ [row] } } }
  /-- The rows come back in any order. -/
  | lease {s} (i : ℕ) (now : Instant) (uuid : Uuid) (events order : List LeasedOutboxEvent) (db' : Db)
      (hidle : s.publisher i = .idle)
      (hlease : leaseAvailable organizationId (settings i).workerId now (settings i).batchSize
        (settings i).leaseFor uuid s.db = .ok (events, db')) (horder : order.Perm events) :
      PublisherStep settings s
        { run := { db := db', log := s.run.log ++ events.map fun event =>
            .granted event.outboxId event.lockedBy }
          publisher := s.at i (.delivering { leased := events.length } order) }
  | finish {s} (i : ℕ) (result : PublishCycleResult) (hstage : s.publisher i = .delivering result []) :
      PublisherStep settings s { s with publisher := s.at i .idle }
  | accepted {s} (i : ℕ) (result : PublishCycleResult) (event : LeasedOutboxEvent)
      (rest : List LeasedOutboxEvent) (processedAt : Instant) (inboxId : Uuid) (db' : Db)
      (hstage : s.publisher i = .delivering result (event :: rest))
      (hpublish : publishReceipt sha256 organizationId consumerName event processedAt inboxId s.db =
        .ok db') :
      PublisherStep settings s
        { run := { s.run with db := db' }, publisher := s.at i (.settling result event .accepted rest) }
  /-- The receipt is committed, and the transport raises all the same. -/
  | unacknowledged {s} (i : ℕ) (result : PublishCycleResult) (event : LeasedOutboxEvent)
      (rest : List LeasedOutboxEvent) (processedAt : Instant) (inboxId : Uuid) (db' : Db)
      (errorCode : PyStr) (hstage : s.publisher i = .delivering result (event :: rest))
      (hpublish : publishReceipt sha256 organizationId consumerName event processedAt inboxId s.db =
        .ok db') :
      PublisherStep settings s
        { run := { s.run with db := db' }
          publisher := s.at i (.settling result event (.failed errorCode) rest) }
  /-- The transport raises, and nothing is committed. -/
  | refused {s} (i : ℕ) (result : PublishCycleResult) (event : LeasedOutboxEvent)
      (rest : List LeasedOutboxEvent) (errorCode : PyStr)
      (hstage : s.publisher i = .delivering result (event :: rest)) :
      PublisherStep settings s { s with publisher := s.at i (.settling result event (.failed errorCode) rest) }
  | settle {s} (i : ℕ) (result : PublishCycleResult) (event : LeasedOutboxEvent) (handoff : Handoff)
      (rest : List LeasedOutboxEvent) (now : Instant) (db' : Db)
      (hstage : s.publisher i = .settling result event handoff rest)
      (hsettle : settleEvent organizationId (settings i) event now handoff s.db = .ok db') :
      PublisherStep settings s
        { run := { db := db', log := s.run.log ++ [.settled event.outboxId event.lockedBy] }
          publisher := s.at i (.delivering (result.settled handoff) rest) }
  | leaseLost {s} (i : ℕ) (result : PublishCycleResult) (event : LeasedOutboxEvent) (handoff : Handoff)
      (rest : List LeasedOutboxEvent) (now : Instant) (outboxId : Uuid)
      (hstage : s.publisher i = .settling result event handoff rest)
      (hsettle : settleEvent organizationId (settings i) event now handoff s.db =
        .error (.leaseLost outboxId)) :
      PublisherStep settings s { s with publisher := s.at i (.delivering (result.lost handoff) rest) }
  /-- The process ends, by a crash or by any other exception. -/
  | crash {s} (i : ℕ) : PublisherStep settings s { s with publisher := s.at i .idle }

/-- The states that are reached from an empty outbox and inbox, with all publishers idle. -/
def PublisherReachable (settings : ℕ → OutboxPublisherSettings) (s : PublisherState) : Prop :=
  ∃ db : Db, db.outbox = [] ∧ db.inbox = [] ∧
    Relation.ReflTransGen (PublisherStep sha256 organizationId consumerName settings)
      { run := { db := db } } s

/-! ### The invariant -/

/-- The receipt of an event, with the fingerprint of its payload, is committed. -/
def Received (db : Db) (eventId : Uuid) (payload : Json) : Prop :=
  ∃ x ∈ db.inbox, x.receipt organizationId (strip (strip consumerName)) eventId = true ∧
    x.payloadSha256 = payloadSha256 sha256 payload

/-- The outbox has the row of a leased event. -/
def KnownEvent (db : Db) (event : LeasedOutboxEvent) : Prop :=
  ∃ r ∈ db.outbox, r.id = event.outboxId ∧ r.caseEventId = event.caseEventId ∧
    r.payload = .obj event.payload

/-- What a publisher relies on. -/
def StageOk (db : Db) : Stage → Prop
  | .idle => True
  | .delivering _ events => ∀ event ∈ events, KnownEvent db event
  | .settling _ event handoff rest => KnownEvent db event ∧ (∀ e ∈ rest, KnownEvent db e) ∧
      (handoff = .accepted →
        Received sha256 organizationId consumerName db event.caseEventId (.obj event.payload))

structure PublisherState.Inv (s : PublisherState) : Prop where
  run : s.run.Inv organizationId
  payloads : ∀ r ∈ s.db.outbox, ∃ payload, r.payload = .obj payload
  receipts : ∀ r ∈ s.db.outbox, r.publishedAt.isSome = true →
    Received sha256 organizationId consumerName s.db r.caseEventId r.payload
  unique : ∀ organizationId consumerName eventId,
    (s.db.inbox.filter (InboxRow.receipt organizationId consumerName eventId)).length ≤ 1
  stages : ∀ i, StageOk sha256 organizationId consumerName s.db (s.publisher i)

end

/-! ### What a transaction does -/

section

variable {sha256 : PyStr → Sha256Hex} {organizationId : Uuid} {consumerName : PyStr} {db db' : Db}

theorem OutboxRow.SameBusiness.trans {a b c : OutboxRow} (hab : a.SameBusiness b) (hbc : b.SameBusiness c) :
    a.SameBusiness c := by
  have h := congrArg (fun r : OutboxRow => { r with
    availableAt := a.availableAt, publishedAt := a.publishedAt, attemptCount := a.attemptCount,
    lastError := a.lastError, lockedAt := a.lockedAt, lockedBy := a.lockedBy }) hbc
  exact Eq.trans h hab

/-- Rows keep their business fields, published rows stay as they are, and receipts stay. -/
structure Extends (db db' : Db) : Prop where
  rows : ∀ r ∈ db.outbox, ∃ r' ∈ db'.outbox, r.SameBusiness r' ∧ (r.publishedAt.isSome = true → r' = r)
  inbox : db.inbox ⊆ db'.inbox

theorem extends_of_outbox (houtbox : db'.outbox = db.outbox) (hinbox : db.inbox ⊆ db'.inbox) :
    Extends db db' :=
  ⟨fun r hr => ⟨r, by rwa [houtbox], rfl, fun _ => rfl⟩, hinbox⟩

theorem Extends.trans {db'' : Db} (h : Extends db db') (h' : Extends db' db'') : Extends db db'' := by
  refine ⟨fun r hr => ?_, List.Subset.trans h.inbox h'.inbox⟩
  obtain ⟨r', hr', hbusiness, hsame⟩ := h.rows r hr
  obtain ⟨r'', hr'', hbusiness', hsame'⟩ := h'.rows r' hr'
  refine ⟨r'', hr'', hbusiness.trans hbusiness', fun hpublished => ?_⟩
  rw [hsame hpublished] at hsame'
  exact hsame' hpublished

theorem OutboxRow.SameBusiness.event {old new : OutboxRow} (h : old.SameBusiness new) :
    new.caseEventId = old.caseEventId ∧ new.payload = old.payload := by
  have hevent := congrArg OutboxRow.caseEventId h
  have hpayload := congrArg OutboxRow.payload h
  exact ⟨hevent, hpayload⟩

theorem Received.mono {eventId : Uuid} {payload : Json} (h : Extends db db')
    (hr : Received sha256 organizationId consumerName db eventId payload) :
    Received sha256 organizationId consumerName db' eventId payload := by
  obtain ⟨x, hx, hboth⟩ := hr
  exact ⟨x, h.inbox hx, hboth⟩

theorem KnownEvent.mono {event : LeasedOutboxEvent} (h : Extends db db') (hk : KnownEvent db event) :
    KnownEvent db' event := by
  obtain ⟨r, hr, hid, hevent, hpayload⟩ := hk
  obtain ⟨r', hr', hbusiness, -⟩ := h.rows r hr
  obtain ⟨hevent', hpayload'⟩ := hbusiness.event
  exact ⟨r', hr', hbusiness.id.trans hid, hevent'.trans hevent, hpayload'.trans hpayload⟩

theorem StageOk.mono {stage : Stage} (h : Extends db db')
    (hs : StageOk sha256 organizationId consumerName db stage) :
    StageOk sha256 organizationId consumerName db' stage := by
  cases stage with
  | idle => trivial
  | delivering result events => exact fun event hevent => (hs event hevent).mono h
  | settling result event handoff rest =>
    exact ⟨hs.1.mono h, fun e he => (hs.2.1 e he).mono h, fun haccepted => (hs.2.2 haccepted).mono h⟩

/-- At most one receipt for each consumer and event. -/
def OneReceipt (inbox : List InboxRow) : Prop :=
  ∀ organizationId consumerName eventId,
    (inbox.filter (InboxRow.receipt organizationId consumerName eventId)).length ≤ 1

theorem oneReceipt_snoc {inbox : List InboxRow} {row : InboxRow} (h : OneReceipt inbox)
    (hnone : inbox.find? (InboxRow.receipt row.organizationId row.consumerName row.eventId) = none) :
    OneReceipt (inbox ++ [row]) := by
  intro o c e
  rw [List.filter_append, List.length_append]
  by_cases hrow : row.receipt o c e = true
  · have hkey := hrow
    simp only [InboxRow.receipt, Bool.and_eq_true, beq_iff_eq] at hkey
    obtain ⟨⟨rfl, rfl⟩, rfl⟩ := hkey
    have hempty : inbox.filter (InboxRow.receipt row.organizationId row.consumerName row.eventId) = [] :=
      List.filter_eq_nil_iff.mpr (List.find?_eq_none.mp hnone)
    rw [hempty]
    exact Nat.le_of_eq (by simp [hrow])
  · have hone := h o c e
    simpa [hrow] using hone

/-- What a committed receipt says. -/
theorem publishReceipt_ok {event : LeasedOutboxEvent} {processedAt : Instant} {inboxId : Uuid}
    (h : publishReceipt sha256 organizationId consumerName event processedAt inboxId db = .ok db') :
    db'.outbox = db.outbox ∧ db.inbox ⊆ db'.inbox ∧ (OneReceipt db.inbox → OneReceipt db'.inbox) ∧
      Received sha256 organizationId consumerName db' event.caseEventId (.obj event.payload) := by
  unfold publishReceipt at h
  split_ifs at h with horganization
  obtain ⟨⟨new, db''⟩, hrecord, hret⟩ := bind_ok h
  cases hret
  unfold recordOnce at hrecord
  split_ifs at hrecord with hname hstorable
  dsimp only at hrecord
  split at hrecord
  next existing hfind =>
    split_ifs at hrecord with hsame
    cases hrecord
    exact ⟨rfl, List.Subset.refl _, id, existing, List.mem_of_find?_eq_some hfind, List.find?_some hfind,
      hsame⟩
  next hfind =>
    split_ifs at hrecord with hchecks
    cases hrecord
    refine ⟨rfl, List.subset_append_left _ _, fun hone => oneReceipt_snoc hone hfind, _,
      List.mem_append_right _ (List.mem_singleton_self _), ?_, rfl⟩
    simp [InboxRow.receipt]

theorem OutboxLease.make_ok {outboxId : Uuid} {leaseToken : PyStr} {lease : OutboxLease}
    (h : OutboxLease.make outboxId leaseToken = .ok lease) :
    lease.outboxId = outboxId ∧ lease.leaseToken = leaseToken := by
  unfold OutboxLease.make at h
  split_ifs at h
  cases h
  exact ⟨rfl, rfl⟩

/-- A settlement is a call on the outbox; it publishes only what was accepted. -/
theorem settleEvent_ok {settings : OutboxPublisherSettings} {event : LeasedOutboxEvent} {now : Instant}
    {handoff : Handoff} (h : settleEvent organizationId settings event now handoff db = .ok db') :
    (∃ c : OutboxCall, c.run organizationId db = .ok ([.settled event.outboxId event.lockedBy], db')) ∧
      db'.inbox = db.inbox ∧
      ∀ r' ∈ db'.outbox, ∃ r ∈ db.outbox, r.SameBusiness r' ∧ (r'.publishedAt.isSome = true →
        r.publishedAt.isSome = true ∨ handoff = .accepted ∧ r.id = event.outboxId) := by
  obtain ⟨lease, hmake, h⟩ := bind_ok h
  obtain ⟨hid, htoken⟩ := OutboxLease.make_ok hmake
  have hsettled : ∀ f : OutboxRow → OutboxRow, Settles f →
      NetopsCopilot.settle organizationId lease f db = .ok db' → db'.inbox = db.inbox ∧
      ∀ r' ∈ db'.outbox, ∃ r ∈ db.outbox, r' = r ∨ r' = f r ∧ r.id = event.outboxId ∧
        r.publishedAt = none := by
    intro f hf hsettle
    rw [settle_eq hf] at hsettle
    split_ifs at hsettle
    cases hsettle
    refine ⟨rfl, fun r' hr' => ?_⟩
    obtain ⟨r, hr, rfl⟩ := List.mem_map.mp hr'
    refine ⟨r, hr, ?_⟩
    split_ifs with hheld
    · obtain ⟨-, hrow, hnone, -⟩ := heldBy_iff.mp hheld
      exact Or.inr ⟨rfl, hrow.trans hid, hnone⟩
    · exact Or.inl rfl
  cases handoff with
  | accepted =>
    obtain ⟨hinbox, horigin⟩ := hsettled _ (settles_published now) h
    refine ⟨⟨.markPublished lease now, ?_⟩, hinbox, fun r' hr' => ?_⟩
    · have h' : NetopsCopilot.markPublished organizationId lease now db = .ok db' := h
      simp only [OutboxCall.run, h', ← hid, ← htoken]
      rfl
    · obtain ⟨r, hr, rfl | ⟨rfl, hrow, -⟩⟩ := horigin r' hr'
      · exact ⟨r', hr, rfl, Or.inl⟩
      · exact ⟨r, hr, rfl, fun _ => Or.inr ⟨rfl, hrow⟩⟩
  | failed errorCode =>
    have h' : NetopsCopilot.scheduleRetry organizationId lease (now + settings.retryAfter) errorCode db =
      .ok db' := h
    obtain ⟨hinbox, horigin⟩ := hsettled _ (settles_retried (now + settings.retryAfter) errorCode)
      (scheduleRetry_ok h')
    refine ⟨⟨.scheduleRetry lease (now + settings.retryAfter) errorCode, ?_⟩, hinbox, fun r' hr' => ?_⟩
    · simp only [OutboxCall.run, h', ← hid, ← htoken]
      rfl
    · obtain ⟨r, hr, rfl | ⟨rfl, -, hnone⟩⟩ := horigin r' hr'
      · exact ⟨r', hr, rfl, Or.inl⟩
      · refine ⟨r, hr, rfl, fun hsome => ?_⟩
        have hsome' : r.publishedAt.isSome = true := hsome
        rw [hnone] at hsome'
        cases hsome'

end

/-! ### Every run -/

section

variable {sha256 : PyStr → Sha256Hex} {organizationId : Uuid} {consumerName : PyStr}
  {settings : ℕ → OutboxPublisherSettings} {s s' : PublisherState}

theorem PublisherState.at_self_or_ok {db : Db} {i : ℕ} {stage : Stage}
    (hstage : StageOk sha256 organizationId consumerName db stage) (j : ℕ) :
    s.at i stage j = s.publisher j ∨ StageOk sha256 organizationId consumerName db (s.at i stage j) := by
  unfold PublisherState.at
  by_cases hj : j = i
  · rw [hj, Function.update_self]
    exact Or.inr hstage
  · exact Or.inl (Function.update_of_ne hj _ _)

theorem OutboxRun.Inv.of_outbox {run : OutboxRun} {db : Db} (h : run.Inv organizationId)
    (houtbox : db.outbox = run.db.outbox) : OutboxRun.Inv organizationId { run with db := db } := by
  obtain ⟨hids, hrows, hknown, hsettles⟩ := h
  rw [← houtbox] at hids hrows hknown
  exact ⟨hids, hrows, hknown, hsettles⟩

/-- A call on the outbox extends the database, if it keeps the inbox. -/
theorem OutboxRun.Inv.call {run : OutboxRun} {db : Db} {c : OutboxCall} {entries : List LeaseEntry}
    (h : run.Inv organizationId) (hrun : c.run organizationId run.db = .ok (entries, db))
    (hinbox : db.inbox = run.db.inbox) :
    OutboxRun.Inv organizationId ⟨db, run.log ++ entries⟩ ∧ Extends run.db db := by
  have hstep : OutboxStep organizationId run ⟨db, run.log ++ entries⟩ := .call c entries db hrun
  refine ⟨h.step hstep, fun r hr => ?_, hinbox ▸ List.Subset.refl _⟩
  obtain ⟨r', hr', hbusiness, -, hsame⟩ := h.row hstep hr
  exact ⟨r', hr', hbusiness, hsame⟩

/-- A lease publishes nothing, and its events are known. -/
theorem leaseAvailable_known {workerId : PyStr} {now : Instant} {limit leaseFor : Int} {uuid : Uuid}
    {db db' : Db} {events : List LeasedOutboxEvent}
    (h : leaseAvailable organizationId workerId now limit leaseFor uuid db = .ok (events, db')) :
    db'.inbox = db.inbox ∧
      (∀ r' ∈ db'.outbox, ∃ r ∈ db.outbox, r.SameBusiness r' ∧ r'.publishedAt = r.publishedAt) ∧
      ∀ event ∈ events, KnownEvent db' event := by
  obtain ⟨rfl, hevents⟩ := leaseAvailable_ok h
  refine ⟨rfl, fun r' hr' => ?_, fun event hevent => ?_⟩
  · obtain ⟨r, hr, rfl⟩ := List.mem_map.mp hr'
    refine ⟨r, hr, ?_⟩
    split_ifs
    · exact ⟨rfl, rfl⟩
    · exact ⟨rfl, rfl⟩
  · obtain ⟨r', hr', hleased⟩ := mem_of_mapM hevents hevent
    obtain ⟨hid, hcaseEvent, -, hpayload, -⟩ := leasedEvent_ok hleased
    obtain ⟨r, hr, rfl⟩ := List.mem_map.mp hr'
    obtain ⟨hr, htaken⟩ := List.mem_filter.mp hr
    refine ⟨_, List.mem_map.mpr ⟨r, hr, ?_⟩, hid.symm, hcaseEvent.symm, hpayload⟩
    exact if_pos htaken

/-- What one step does: it extends the database, publishes only what was received before, and moves
publishers to stages that are justified. -/
structure PublisherState.Onward (sha256 : PyStr → Sha256Hex) (organizationId : Uuid) (consumerName : PyStr)
    (s s' : PublisherState) : Prop where
  run : s'.run.Inv organizationId
  grows : Extends s.db s'.db
  payloads : ∀ r' ∈ s'.db.outbox, ∃ payload, r'.payload = .obj payload
  received : ∀ r' ∈ s'.db.outbox, r'.publishedAt.isSome = true →
    Received sha256 organizationId consumerName s.db r'.caseEventId r'.payload
  unique : OneReceipt s'.db.inbox
  stages : ∀ i, s'.publisher i = s.publisher i ∨
    StageOk sha256 organizationId consumerName s'.db (s'.publisher i)

theorem PublisherState.Inv.onward (h : s.Inv sha256 organizationId consumerName)
    (ho : s.Onward sha256 organizationId consumerName s') : s'.Inv sha256 organizationId consumerName := by
  refine ⟨ho.run, ho.payloads, fun r hr hpublished => (ho.received r hr hpublished).mono ho.grows,
    ho.unique, fun i => ?_⟩
  rcases ho.stages i with hsame | hok
  · rw [hsame]
    exact (h.stages i).mono ho.grows
  · exact hok

/-- A step that keeps the outbox. -/
theorem PublisherState.Inv.onward_of_outbox (h : s.Inv sha256 organizationId consumerName) {db : Db}
    {publisher : ℕ → Stage} (houtbox : db.outbox = s.db.outbox) (hinbox : s.db.inbox ⊆ db.inbox)
    (hunique : OneReceipt db.inbox)
    (hstages : ∀ i, publisher i = s.publisher i ∨
      StageOk sha256 organizationId consumerName db (publisher i)) :
    s.Onward sha256 organizationId consumerName { run := { s.run with db := db }, publisher := publisher } := by
  refine ⟨h.run.of_outbox houtbox, extends_of_outbox houtbox hinbox, ?_, ?_, hunique, hstages⟩
  · show ∀ r' ∈ db.outbox, ∃ payload, r'.payload = .obj payload
    rw [houtbox]
    exact h.payloads
  · show ∀ r' ∈ db.outbox, r'.publishedAt.isSome = true → Received _ _ _ s.db r'.caseEventId r'.payload
    rw [houtbox]
    exact h.receipts

theorem PublisherState.Inv.step (h : s.Inv sha256 organizationId consumerName)
    (hstep : PublisherStep sha256 organizationId consumerName settings s s') :
    s.Onward sha256 organizationId consumerName s' := by
  have hkeep : ∀ i stage, StageOk sha256 organizationId consumerName s.db stage →
      s.Onward sha256 organizationId consumerName { s with publisher := s.at i stage } :=
    fun i stage hstage => h.onward_of_outbox rfl (List.Subset.refl _) h.unique (s.at_self_or_ok hstage)
  cases hstep with
  | enqueue row hfresh hpayload hid =>
    refine ⟨h.run.enqueue hfresh hid, ⟨fun r hr => ⟨r, List.mem_append_left _ hr, rfl, fun _ => rfl⟩,
      List.Subset.refl _⟩, fun r hr => ?_, fun r hr hpublished => ?_, h.unique, fun i => Or.inl rfl⟩
    · rcases List.mem_append.mp hr with hr | hr
      · exact h.payloads r hr
      · rw [List.mem_singleton.mp hr]
        exact hpayload
    · rcases List.mem_append.mp hr with hr | hr
      · exact h.receipts r hr hpublished
      · rw [List.mem_singleton.mp hr, hfresh.publishedAt] at hpublished
        cases hpublished
  | receive row hunique =>
    exact h.onward_of_outbox rfl (List.subset_append_left _ _) (oneReceipt_snoc h.unique hunique)
      fun i => Or.inl rfl
  | lease i now uuid events order db' hidle hlease horder =>
    obtain ⟨hinbox, horigin, hknown⟩ := leaseAvailable_known hlease
    have hcall : (OutboxCall.leaseAvailable (settings i).workerId now (settings i).batchSize
        (settings i).leaseFor uuid).run organizationId s.run.db =
          .ok (events.map fun event => .granted event.outboxId event.lockedBy, db') := by
      simp only [OutboxCall.run, hlease]
      rfl
    obtain ⟨hrun, hgrows⟩ := h.run.call hcall hinbox
    refine ⟨hrun, hgrows, fun r' hr' => ?_, fun r' hr' hpublished => ?_, ?_,
      s.at_self_or_ok fun event hevent => hknown event (horder.mem_iff.mp hevent)⟩
    · obtain ⟨r, hr, hbusiness, -⟩ := horigin r' hr'
      rw [hbusiness.event.2]
      exact h.payloads r hr
    · obtain ⟨r, hr, hbusiness, hsame⟩ := horigin r' hr'
      rw [hbusiness.event.1, hbusiness.event.2]
      exact h.receipts r hr (hsame ▸ hpublished)
    · show OneReceipt db'.inbox
      rw [hinbox]
      exact h.unique
  | finish i result hstage => exact hkeep i .idle trivial
  | accepted i result event rest processedAt inboxId db' hstage hpublish =>
    obtain ⟨houtbox, hinbox, hunique, hreceived⟩ := publishReceipt_ok hpublish
    have hok := (hstage ▸ h.stages i).mono (extends_of_outbox houtbox hinbox)
    exact h.onward_of_outbox houtbox hinbox (hunique h.unique) (s.at_self_or_ok
      ⟨hok event List.mem_cons_self, fun e he => hok e (List.mem_cons_of_mem _ he), fun _ => hreceived⟩)
  | unacknowledged i result event rest processedAt inboxId db' errorCode hstage hpublish =>
    obtain ⟨houtbox, hinbox, hunique, -⟩ := publishReceipt_ok hpublish
    have hok := (hstage ▸ h.stages i).mono (extends_of_outbox houtbox hinbox)
    exact h.onward_of_outbox houtbox hinbox (hunique h.unique) (s.at_self_or_ok
      ⟨hok event List.mem_cons_self, fun e he => hok e (List.mem_cons_of_mem _ he), nofun⟩)
  | refused i result event rest errorCode hstage =>
    have hok := hstage ▸ h.stages i
    exact hkeep i _ ⟨hok event List.mem_cons_self, fun e he => hok e (List.mem_cons_of_mem _ he), nofun⟩
  | settle i result event handoff rest now db' hstage hsettle =>
    obtain ⟨⟨c, hcall⟩, hinbox, horigin⟩ := settleEvent_ok hsettle
    obtain ⟨hrun, hgrows⟩ := h.run.call hcall hinbox
    obtain ⟨⟨known, hmem, hid, hevent, hpayload⟩, hrest, hreceived⟩ := hstage ▸ h.stages i
    refine ⟨hrun, hgrows, fun r' hr' => ?_, fun r' hr' hpublished => ?_, ?_,
      s.at_self_or_ok fun e he => (hrest e he).mono hgrows⟩
    · obtain ⟨r, hr, hbusiness, -⟩ := horigin r' hr'
      rw [hbusiness.event.2]
      exact h.payloads r hr
    · obtain ⟨r, hr, hbusiness, hcause⟩ := horigin r' hr'
      rw [hbusiness.event.1, hbusiness.event.2]
      rcases hcause hpublished with hbefore | ⟨haccepted, hrow⟩
      · exact h.receipts r hr hbefore
      · have hsame : r = known := List.inj_on_of_nodup_map h.run.ids hr hmem (hrow.trans hid.symm)
        rw [hsame, hevent, hpayload]
        exact hreceived haccepted
    · show OneReceipt db'.inbox
      rw [hinbox]
      exact h.unique
  | leaseLost i result event handoff rest now outboxId hstage hsettle =>
    obtain ⟨-, hrest, -⟩ := hstage ▸ h.stages i
    exact hkeep i _ hrest
  | crash i => exact hkeep i .idle trivial

theorem PublisherState.Inv.steps (h : s.Inv sha256 organizationId consumerName)
    (hsteps : Relation.ReflTransGen (PublisherStep sha256 organizationId consumerName settings) s s') :
    s'.Inv sha256 organizationId consumerName ∧ Extends s.db s'.db := by
  induction hsteps with
  | refl => exact ⟨h, extends_of_outbox rfl (List.Subset.refl _)⟩
  | tail _ hstep ih =>
    obtain ⟨hinv, hgrows⟩ := ih
    have ho := hinv.step hstep
    exact ⟨hinv.onward ho, hgrows.trans ho.grows⟩

theorem inv_of_publisherReachable (hs : PublisherReachable sha256 organizationId consumerName settings s) :
    s.Inv sha256 organizationId consumerName := by
  obtain ⟨db, houtbox, hinbox, hsteps⟩ := hs
  have hrun : OutboxRun.Inv organizationId { db := db } := inv_of_outboxReachable ⟨db, houtbox, .refl⟩
  have hinit : PublisherState.Inv sha256 organizationId consumerName { run := { db := db } } := by
    refine ⟨hrun, ?_, ?_, ?_, fun i => trivial⟩
    · intro r hr
      rw [show PublisherState.db _ = db from rfl, houtbox] at hr
      cases hr
    · intro r hr
      rw [show PublisherState.db _ = db from rfl, houtbox] at hr
      cases hr
    · intro o c e
      rw [show PublisherState.db _ = db from rfl, hinbox]
      exact Nat.zero_le _
  exact (hinit.steps hsteps).1

end

/-! ### No event is lost -/

section

variable {organizationId : Uuid} {now leaseExpiredAt : Instant} {rows : List OutboxRow} {r : OutboxRow}

/-- A due row with fewer than `limit` due rows before it is a candidate. -/
theorem mem_leaseCandidates {limit : Nat} (hids : (rows.map (·.id)).Nodup) (hr : r ∈ rows)
    (hdue : r.due organizationId now leaseExpiredAt = true)
    (hroom : (rows.filter fun b => b.due organizationId now leaseExpiredAt &&
      decide (b.deliveryKey < r.deliveryKey)).length < limit) :
    r.id ∈ leaseCandidates organizationId now leaseExpiredAt limit rows := by
  have hperm := List.perm_insertionSort (fun a b : OutboxRow => a.deliveryKey ≤ b.deliveryKey)
    (rows.filter (OutboxRow.due organizationId now leaseExpiredAt))
  have hsorted := List.pairwise_insertionSort (fun a b : OutboxRow => a.deliveryKey ≤ b.deliveryKey)
    (rows.filter (OutboxRow.due organizationId now leaseExpiredAt))
  refine List.mem_map_of_mem (Rows.mem_take_sorted hsorted
    (hperm.mem_iff.mpr (List.mem_filter.mpr ⟨hr, hdue⟩)) ?_ ?_)
  · intro b hb hkey
    have hid := congrArg (fun k : Instant ×ₗ Instant ×ₗ Uuid => (ofLex (ofLex k).2).2) hkey
    have hmem := (List.mem_filter.mp (hperm.mem_iff.mp hb)).1
    exact List.inj_on_of_nodup_map hids hmem hr hid
  · rw [(hperm.filter _).length_eq, List.filter_filter]
    simpa only [Bool.and_comm] using hroom

theorem leasedEvent_of_payload {leaseToken : PyStr} (h : ∃ payload, r.payload = .obj payload) :
    ∃ event, leasedEvent (r.leased now leaseToken) = .ok event := by
  obtain ⟨payload, hpayload⟩ := h
  unfold leasedEvent
  have hpayload' : (r.leased now leaseToken).payload = .obj payload := hpayload
  rw [hpayload']
  exact ⟨_, rfl⟩

/-- A lease returns every due row, given room in the limit. -/
theorem leaseAvailable_returns {db : Db} {workerId : PyStr} {limit leaseFor : Int} {uuid : Uuid}
    (hworker : validateWorkerId workerId = .ok ()) (hlimits : validateLease limit leaseFor = .ok ())
    (hids : (db.outbox.map (·.id)).Nodup)
    (hpayloads : ∀ r ∈ db.outbox, ∃ payload, r.payload = .obj payload) (hr : r ∈ db.outbox)
    (hdue : r.due organizationId now (now - leaseFor) = true)
    (hroom : (db.outbox.filter fun b => b.due organizationId now (now - leaseFor) &&
      decide (b.deliveryKey < r.deliveryKey)).length < limit.toNat) :
    ∃ events db', leaseAvailable organizationId workerId now limit leaseFor uuid db = .ok (events, db') ∧
      ∃ event ∈ events, event.outboxId = r.id := by
  have htaken : takes organizationId now limit leaseFor db r = true := by
    have horganization : r.organizationId = organizationId := by
      simp only [OutboxRow.due, Bool.and_eq_true, beq_iff_eq] at hdue
      exact hdue.1.1.1
    have hcandidate := mem_leaseCandidates hids hr hdue hroom
    simp [takes, taken, hcandidate, horganization]
  have hall : ∀ r' ∈ (db.outbox.filter (takes organizationId now limit leaseFor db)).map
      (OutboxRow.leased now (leaseTokenOf workerId uuid)), ∃ event, leasedEvent r' = .ok event := by
    intro r' hr'
    obtain ⟨r, hr, rfl⟩ := List.mem_map.mp hr'
    exact leasedEvent_of_payload (hpayloads r (List.mem_filter.mp hr).1)
  obtain ⟨events, hevents⟩ := exists_mapM hall
  refine ⟨events, { db with outbox := leasedOutbox organizationId workerId now limit leaseFor uuid db }, ?_, ?_⟩
  · unfold leaseAvailable
    rw [hworker, hlimits]
    show ((updateOutbox (takes organizationId now limit leaseFor db)
      (OutboxRow.leased now (leaseTokenOf workerId uuid)) db.outbox).mapError OutboxError.db >>= _) = _
    rw [update_leased]
    show (List.mapM leasedEvent _ >>= _) = _
    rw [hevents]
    rfl
  · have hmap : events.map (·.outboxId) = ((db.outbox.filter (takes organizationId now limit leaseFor db)).map
        (OutboxRow.leased now (leaseTokenOf workerId uuid))).map (·.id) :=
      map_of_mapM (fun _ _ hevent => (leasedEvent_ok hevent).1) hevents
    have hmem : r.id ∈ events.map (·.outboxId) := by
      rw [hmap, List.map_map]
      exact List.mem_map.mpr ⟨r, List.mem_filter.mpr ⟨hr, htaken⟩, rfl⟩
    obtain ⟨event, hevent, hid⟩ := List.mem_map.mp hmem
    exact ⟨event, hevent, hid⟩

end

/-! ### Main result -/

/-- **Outbox delivery.** In every run of any number of publishers of one organization, with transport
failures and crashes between any two transactions: (a) a published row has its receipt, which was committed
before the row was published; (b) a consumer has at most one receipt of an event; (c) no row is deleted or
changes its business fields, and a published row does not change; (d) an unpublished row that is available
and not leased is returned by every valid `lease_available`, given room in the limit. -/
theorem outbox_delivery {sha256 : PyStr → Sha256Hex} {organizationId : Uuid} {consumerName : PyStr}
    {settings : ℕ → OutboxPublisherSettings} {s : PublisherState}
    (hs : PublisherReachable sha256 organizationId consumerName settings s) :
    ((∀ r ∈ s.db.outbox, r.publishedAt.isSome = true →
        Received sha256 organizationId consumerName s.db r.caseEventId r.payload) ∧
      ∀ s', PublisherStep sha256 organizationId consumerName settings s s' →
        ∀ r ∈ s'.db.outbox, r.publishedAt.isSome = true →
          Received sha256 organizationId consumerName s.db r.caseEventId r.payload) ∧
    OneReceipt s.db.inbox ∧
    (∀ s', Relation.ReflTransGen (PublisherStep sha256 organizationId consumerName settings) s s' →
      ∀ r ∈ s.db.outbox, ∃ r' ∈ s'.db.outbox, r.SameBusiness r' ∧
        (r.publishedAt.isSome = true → r' = r)) ∧
    ∀ r ∈ s.db.outbox, r.organizationId = organizationId → r.publishedAt = none →
      ∀ workerId now limit leaseFor uuid, validateWorkerId workerId = .ok () →
        validateLease limit leaseFor = .ok () → r.availableAt ≤ now →
        (∀ lockedAt, r.lockedAt = some lockedAt → lockedAt ≤ now - leaseFor) →
        (s.db.outbox.filter fun b => b.due organizationId now (now - leaseFor) &&
          decide (b.deliveryKey < r.deliveryKey)).length < limit.toNat →
        ∃ events db', leaseAvailable organizationId workerId now limit leaseFor uuid s.db =
          .ok (events, db') ∧ ∃ event ∈ events, event.outboxId = r.id := by
  have hinv := inv_of_publisherReachable hs
  refine ⟨⟨hinv.receipts, fun s' hstep => (hinv.step hstep).received⟩, hinv.unique,
    fun s' hsteps => (hinv.steps hsteps).2.rows, ?_⟩
  intro r hr horganization hnone workerId now limit leaseFor uuid hworker hlimits havailable hunlocked hroom
  have hdue : r.due organizationId now (now - leaseFor) = true := by
    simp only [OutboxRow.due, horganization, hnone, havailable, BEq.rfl, Option.isNone_none, decide_true,
      Bool.and_self, Bool.true_and, Option.all_eq_true, decide_eq_true_eq]
    exact hunlocked
  exact leaseAvailable_returns hworker hlimits hinv.run.ids hinv.payloads hr hdue hroom

/-- The settings of worker `w`. -/
def sampleSettings : OutboxPublisherSettings where
  workerId := py "w"
  workerIdOk := by decide
  batchOk := by decide
  retryAfterOk := by decide

/-- The event of a lease of the sample row at time 110. -/
def sampleLeasedEvent : LeasedOutboxEvent where
  outboxId := 20
  organizationId := 7
  caseId := 10
  caseEventId := 11
  eventType := py "case.created.v1"
  aggregateVersion := 0
  correlationId := 12
  payload := [(py "case_id", .int 10)]
  availableAt := 100
  createdAt := 100
  attemptCount := 1
  lockedAt := 110
  lockedBy := sampleToken

/-- The receipt of that event. -/
def sampleReceipt : InboxRow where
  id := 30
  organizationId := 7
  consumerName := py "c"
  eventId := 11
  payloadSha256 := payloadSha256 Hashlib.sha256 (.obj sampleLeasedEvent.payload)
  processedAt := 115

/-- On a row that was leased at time 110, received at time 115 and published at time 120. -/
theorem outbox_delivery_sample : ∃ s, PublisherReachable Hashlib.sha256 7 (py "c") (fun _ => sampleSettings) s ∧
    s.db.outbox = [(sampleOutboxRow.leased 110 sampleToken).published 120] ∧
    Received Hashlib.sha256 7 (py "c") s.db 11 (.obj [(py "case_id", .int 10)]) ∧ OneReceipt s.db.inbox := by
  have hlease : leaseAvailable 7 (py "w") 110 50 60000000 1 { outbox := [sampleOutboxRow] } =
      .ok ([sampleLeasedEvent], { outbox := [sampleOutboxRow.leased 110 sampleToken] }) := by
    rfl
  have hpublish : publishReceipt Hashlib.sha256 7 (py "c") sampleLeasedEvent 115 30
      { outbox := [sampleOutboxRow.leased 110 sampleToken] } =
      .ok { outbox := [sampleOutboxRow.leased 110 sampleToken], inbox := [sampleReceipt] } := by
    rfl
  have hsettle : settleEvent 7 sampleSettings sampleLeasedEvent 120 .accepted
      { outbox := [sampleOutboxRow.leased 110 sampleToken], inbox := [sampleReceipt] } =
      .ok { outbox := [(sampleOutboxRow.leased 110 sampleToken).published 120], inbox := [sampleReceipt] } := by
    rfl
  have hreach : PublisherReachable Hashlib.sha256 7 (py "c") (fun _ => sampleSettings) _ :=
    ⟨{}, rfl, rfl, .tail (.tail (.tail (.single
      (.enqueue sampleOutboxRow ⟨rfl, rfl, rfl, rfl, rfl⟩ ⟨_, rfl⟩ (by decide)))
      (.lease 0 110 1 [sampleLeasedEvent] [sampleLeasedEvent] _ rfl hlease (.refl _)))
      (.accepted 0 _ sampleLeasedEvent [] 115 30 _ rfl hpublish))
      (.settle 0 _ sampleLeasedEvent .accepted [] 120 _ rfl hsettle)⟩
  obtain ⟨⟨hreceived, -⟩, hone, -⟩ := outbox_delivery hreach
  exact ⟨_, hreach, rfl, hreceived _ (List.mem_singleton_self _) rfl, hone⟩

end NetopsCopilot
