import Mathlib.Data.Prod.Lex
import NetopsCopilot.Lib.Except
import NetopsCopilot.Postgres.Schema

/-!
# Outbox delivery and the consumer inbox (`netops_api/application/outbox.py`)

The calls of `TenantOutboxRepository` and `TenantConsumerInbox`, each in a transaction of its own: a call
returns a result and the database it commits, or raises, which rolls everything back. An `UPDATE` of an
outbox row runs the trigger of migration `20260715_02` on its old and new value (`updateOutbox`).
-/

namespace NetopsCopilot

/-! ### Errors and records -/

/-- What the module raises. -/
inductive OutboxError where
  | leaseLost (outboxId : Uuid)
  | payloadMismatch (eventId : Uuid) (consumerName : PyStr)
  | valueError (message : PyStr)
  | runtimeError (message : PyStr)
  | db (e : DbError)
deriving DecidableEq

/-- `OutboxLease`, with what its `__post_init__` checks. -/
structure OutboxLease where
  outboxId : Uuid
  leaseToken : PyStr
  leaseTokenOk : isBlank leaseToken = false ∧ leaseToken.length ≤ 255
deriving DecidableEq

/-- `OutboxLease(...)`. -/
def OutboxLease.make (outboxId : Uuid) (leaseToken : PyStr) : Except OutboxError OutboxLease :=
  if h : isBlank leaseToken = false ∧ leaseToken.length ≤ 255 then .ok ⟨outboxId, leaseToken, h⟩
  else .error (.valueError (py "lease_token must contain 1 to 255 non-blank characters."))

/-- `LeasedOutboxEvent`; its payload is a dictionary. -/
structure LeasedOutboxEvent where
  outboxId : Uuid
  organizationId : Uuid
  caseId : Uuid
  caseEventId : Uuid
  eventType : PyStr
  aggregateVersion : Nat
  correlationId : Uuid
  payload : List (PyStr × Json)
  availableAt : Instant
  createdAt : Instant
  attemptCount : Nat
  lockedAt : Instant
  lockedBy : PyStr

/-- `LeasedOutboxEvent.lease`. -/
def LeasedOutboxEvent.lease (event : LeasedOutboxEvent) : Except OutboxError OutboxLease :=
  OutboxLease.make event.outboxId event.lockedBy

/-! ### The table -/

/-- `IS DISTINCT FROM` on two `jsonb` values. -/
def jsonbDistinct (a b : Json) : Bool := a.dumps != b.dumps

/-- `netops_guard_outbox_event_mutation` on an `UPDATE`. -/
def guardOutboxEventMutation (old new : OutboxRow) : Except DbError OutboxRow :=
  if new.id ≠ old.id ∨ new.organizationId ≠ old.organizationId ∨ new.caseId ≠ old.caseId ∨
      new.caseEventId ≠ old.caseEventId ∨ new.eventType ≠ old.eventType ∨
      new.aggregateVersion ≠ old.aggregateVersion ∨ new.correlationId ≠ old.correlationId ∨
      jsonbDistinct new.payload old.payload = true ∨ new.createdAt ≠ old.createdAt then
    .error (.trigger (py "outbox business fields are immutable"))
  else if new.attemptCount < old.attemptCount then
    .error (.trigger (py "outbox attempt count cannot decrease"))
  else if old.publishedAt.isSome = true ∧ new.publishedAt ≠ old.publishedAt then
    .error (.trigger (py "published outbox event cannot be unpublished or republished"))
  else .ok new

/-- The `UPDATE` of the rows satisfying `p`: the table, and the rows that were updated. -/
def updateOutbox (p : OutboxRow → Bool) (f : OutboxRow → OutboxRow) (rows : List OutboxRow) :
    Except DbError (List OutboxRow × List OutboxRow) := do
  let rows' ← rows.mapM fun r => if p r then guardOutboxEventMutation r (f r) else .ok r
  return (rows', (rows.filter p).map f)

/-! ### Leasing -/

/-- `_validate_worker_id`. -/
def validateWorkerId (workerId : PyStr) : Except OutboxError Unit :=
  if isBlank workerId = true ∨ 200 < workerId.length then
    .error (.valueError (py "worker_id must contain 1 to 200 non-blank characters."))
  else .ok ()

/-- What `lease_available` asks of the limit and of the duration of a lease. -/
def validateLease (limit leaseFor : Int) : Except OutboxError Unit :=
  if ¬(1 ≤ limit ∧ limit ≤ 100) then .error (.valueError (py "limit must be between 1 and 100."))
  else if leaseFor ≤ 0 then .error (.valueError (py "lease_for must be positive."))
  else .ok ()

/-- `f"{worker_id}:{uuid4()}"`. -/
def leaseTokenOf (workerId : PyStr) (uuid : Uuid) : PyStr := workerId ++ py ":" ++ uuid.str

/-- The rows `_LEASE_AVAILABLE` may take. -/
def OutboxRow.due (organizationId : Uuid) (now leaseExpiredAt : Instant) (r : OutboxRow) : Bool :=
  r.organizationId == organizationId && r.publishedAt.isNone && decide (r.availableAt ≤ now) &&
    r.lockedAt.all fun lockedAt => decide (lockedAt ≤ leaseExpiredAt)

/-- `ORDER BY available_at ASC, created_at ASC, id ASC`. -/
def OutboxRow.deliveryKey (r : OutboxRow) : Instant ×ₗ Instant ×ₗ Uuid :=
  toLex (r.availableAt, toLex (r.createdAt, r.id))

/-- The ids of `candidates`. -/
def leaseCandidates (organizationId : Uuid) (now leaseExpiredAt : Instant) (limit : Nat)
    (rows : List OutboxRow) : List Uuid :=
  (((rows.filter (OutboxRow.due organizationId now leaseExpiredAt)).insertionSort fun a b =>
    a.deliveryKey ≤ b.deliveryKey).take limit).map (·.id)

/-- The columns `_LEASE_AVAILABLE` sets. -/
def OutboxRow.leased (now : Instant) (leaseToken : PyStr) (r : OutboxRow) : OutboxRow :=
  { r with lockedAt := some now, lockedBy := some leaseToken, attemptCount := r.attemptCount + 1 }

/-- `_leased_event`. -/
def leasedEvent (r : OutboxRow) : Except OutboxError LeasedOutboxEvent :=
  match r.payload with
  | .obj payload =>
    match r.lockedAt, r.lockedBy with
    | some lockedAt, some lockedBy => .ok
      { outboxId := r.id, organizationId := r.organizationId, caseId := r.caseId,
        caseEventId := r.caseEventId, eventType := r.eventType, aggregateVersion := r.aggregateVersion,
        correlationId := r.correlationId, payload := payload, availableAt := r.availableAt,
        createdAt := r.createdAt, attemptCount := r.attemptCount, lockedAt := lockedAt,
        lockedBy := lockedBy }
    | _, _ => .error (.runtimeError (py "Leased outbox event did not retain its delivery lease."))
  | _ => .error (.valueError (py "outbox payload must be a JSON object."))

/-- `TenantOutboxRepository.lease_available`; the last argument but one is its `uuid4()`. -/
def leaseAvailable (organizationId : Uuid) (workerId : PyStr) (now : Instant) (limit leaseFor : Int)
    (uuid : Uuid) (db : Db) : Except OutboxError (List LeasedOutboxEvent × Db) := do
  validateWorkerId workerId
  validateLease limit leaseFor
  let candidates := leaseCandidates organizationId now (now - leaseFor) limit.toNat db.outbox
  let (outbox, returned) ← (updateOutbox
    (fun r => decide (r.id ∈ candidates) && r.organizationId == organizationId)
    (OutboxRow.leased now (leaseTokenOf workerId uuid)) db.outbox).mapError .db
  let events ← returned.mapM leasedEvent
  return (events, { db with outbox := outbox })

/-! ### Settling -/

/-- The row a settlement updates. -/
def OutboxRow.heldBy (organizationId : Uuid) (lease : OutboxLease) (r : OutboxRow) : Bool :=
  r.organizationId == organizationId && r.id == lease.outboxId && r.publishedAt.isNone &&
    r.lockedBy == some lease.leaseToken

/-- An `UPDATE` that has to change one row. -/
def settle (organizationId : Uuid) (lease : OutboxLease) (f : OutboxRow → OutboxRow) (db : Db) :
    Except OutboxError Db := do
  let (outbox, returned) ← (updateOutbox (OutboxRow.heldBy organizationId lease) f db.outbox).mapError .db
  if returned.length ≠ 1 then .error (.leaseLost lease.outboxId) else .ok { db with outbox := outbox }

/-- The columns `_MARK_PUBLISHED` sets. -/
def OutboxRow.published (publishedAt : Instant) (r : OutboxRow) : OutboxRow :=
  { r with publishedAt := some publishedAt, lockedAt := none, lockedBy := none, lastError := none }

/-- The columns `_SCHEDULE_RETRY` sets. -/
def OutboxRow.retried (retryAt : Instant) (errorCode : PyStr) (r : OutboxRow) : OutboxRow :=
  { r with availableAt := retryAt, lockedAt := none, lockedBy := none, lastError := some errorCode }

/-- `TenantOutboxRepository.mark_published`. -/
def markPublished (organizationId : Uuid) (lease : OutboxLease) (publishedAt : Instant) (db : Db) :
    Except OutboxError Db :=
  settle organizationId lease (OutboxRow.published publishedAt) db

/-- `[a-z0-9]`. -/
def isCodeHead (c : PyChar) : Bool := (97 ≤ c.val && c.val ≤ 122) || (48 ≤ c.val && c.val ≤ 57)

/-- `[a-z0-9._:-]`. -/
def isCodeChar (c : PyChar) : Bool :=
  isCodeHead c || c.val == 46 || c.val == 95 || c.val == 58 || c.val == 45

/-- `_DELIVERY_ERROR_CODE.fullmatch`. -/
def deliveryErrorCode : PyStr → Bool
  | [] => false
  | c :: rest => isCodeHead c && rest.all isCodeChar && decide (rest.length ≤ 127)

/-- `TenantOutboxRepository.schedule_retry`. -/
def scheduleRetry (organizationId : Uuid) (lease : OutboxLease) (retryAt : Instant) (errorCode : PyStr)
    (db : Db) : Except OutboxError Db :=
  if deliveryErrorCode errorCode then
    settle organizationId lease (OutboxRow.retried retryAt errorCode) db
  else .error (.valueError (py "error_code must be a 1 to 128 character safe delivery code."))

/-! ### The consumer inbox -/

/-- The receipt of an event. -/
def InboxRow.receipt (organizationId : Uuid) (consumerName : PyStr) (eventId : Uuid) (r : InboxRow) : Bool :=
  r.organizationId == organizationId && r.consumerName == consumerName && r.eventId == eventId

/-- `sha256(canonical_payload.encode("utf-8")).hexdigest()`. -/
def payloadSha256 (sha256 : PyStr → Sha256Hex) (payload : Json) : Sha256Hex := sha256 payload.dumps

/-- `TenantConsumerInbox.record_once`; the last argument but one is its `uuid4()`. -/
def recordOnce (sha256 : PyStr → Sha256Hex) (organizationId : Uuid) (consumerName : PyStr) (eventId : Uuid)
    (payload : Json) (processedAt : Instant) (inboxId : Uuid) (db : Db) :
    Except OutboxError (Bool × Db) :=
  if isBlank consumerName = true ∨ 255 < consumerName.length then
    .error (.valueError (py "consumer_name must contain 1 to 255 non-blank characters."))
  else if storable (strip consumerName) = false then .error (.db .notStorable)
  else
    let fingerprint := payloadSha256 sha256 payload
    match db.inbox.find? (InboxRow.receipt organizationId (strip consumerName) eventId) with
    -- `ON CONFLICT DO NOTHING` returned no row
    | some existing =>
      if existing.payloadSha256 = fingerprint then .ok (false, db)
      else .error (.payloadMismatch eventId consumerName)
    | none =>
      let row : InboxRow :=
        { id := inboxId, organizationId := organizationId, consumerName := strip consumerName,
          eventId := eventId, payloadSha256 := fingerprint, processedAt := processedAt }
      if row.checks then .ok (true, { db with inbox := db.inbox ++ [row] })
      else .error (.db (.check (py "consumer_inbox")))

/-! ### Updates pass the trigger -/

/-- A row with the business fields of another. -/
def OutboxRow.SameBusiness (old new : OutboxRow) : Prop :=
  { new with availableAt := old.availableAt, publishedAt := old.publishedAt,
             attemptCount := old.attemptCount, lastError := old.lastError, lockedAt := old.lockedAt,
             lockedBy := old.lockedBy } = old

theorem OutboxRow.SameBusiness.id {old new : OutboxRow} (h : old.SameBusiness new) : new.id = old.id := by
  have hid := congrArg OutboxRow.id h
  exact hid

theorem OutboxRow.SameBusiness.organizationId {old new : OutboxRow} (h : old.SameBusiness new) :
    new.organizationId = old.organizationId := by
  have horganization := congrArg OutboxRow.organizationId h
  exact horganization

theorem guard_ok {old new : OutboxRow} (hbusiness : old.SameBusiness new)
    (hattempts : old.attemptCount ≤ new.attemptCount)
    (hpublished : old.publishedAt.isSome = true → new.publishedAt = old.publishedAt) :
    guardOutboxEventMutation old new = .ok new := by
  have hid := congrArg OutboxRow.id hbusiness
  have horganization := congrArg OutboxRow.organizationId hbusiness
  have hcase := congrArg OutboxRow.caseId hbusiness
  have hevent := congrArg OutboxRow.caseEventId hbusiness
  have htype := congrArg OutboxRow.eventType hbusiness
  have hversion := congrArg OutboxRow.aggregateVersion hbusiness
  have hcorrelation := congrArg OutboxRow.correlationId hbusiness
  have hpayload := congrArg OutboxRow.payload hbusiness
  have hcreated := congrArg OutboxRow.createdAt hbusiness
  dsimp only at hid horganization hcase hevent htype hversion hcorrelation hpayload hcreated
  unfold guardOutboxEventMutation
  rw [if_neg, if_neg (by omega), if_neg (fun h => h.2 (hpublished h.1))]
  simp [hid, horganization, hcase, hevent, htype, hversion, hcorrelation, hpayload, hcreated, jsonbDistinct]

/-- An update that passes the trigger on every row it changes. -/
theorem updateOutbox_ok {p : OutboxRow → Bool} {f : OutboxRow → OutboxRow} {rows : List OutboxRow}
    (h : ∀ r ∈ rows, p r = true → guardOutboxEventMutation r (f r) = .ok (f r)) :
    updateOutbox p f rows =
      .ok (rows.map fun r => if p r then f r else r, (rows.filter p).map f) := by
  have hmap : rows.mapM (fun r => if p r then guardOutboxEventMutation r (f r) else .ok r) =
      .ok (rows.map fun r => if p r then f r else r) := by
    refine Raising.mapM_ok fun r hr => ?_
    split_ifs with hp
    · exact h r hr hp
    · rfl
  unfold updateOutbox
  rw [hmap]
  rfl

theorem guard_leased (now : Instant) (leaseToken : PyStr) (r : OutboxRow) :
    guardOutboxEventMutation r (r.leased now leaseToken) = .ok (r.leased now leaseToken) :=
  guard_ok rfl (Nat.le_succ _) fun _ => rfl

theorem guard_published (publishedAt : Instant) {r : OutboxRow} (h : r.publishedAt.isNone = true) :
    guardOutboxEventMutation r (r.published publishedAt) = .ok (r.published publishedAt) := by
  refine guard_ok rfl (Nat.le_refl _) fun hsome => ?_
  rw [Option.isNone_iff_eq_none] at h
  rw [h] at hsome
  cases hsome

theorem guard_retried (retryAt : Instant) (errorCode : PyStr) (r : OutboxRow) :
    guardOutboxEventMutation r (r.retried retryAt errorCode) = .ok (r.retried retryAt errorCode) :=
  guard_ok rfl (Nat.le_refl _) fun _ => rfl

end NetopsCopilot
