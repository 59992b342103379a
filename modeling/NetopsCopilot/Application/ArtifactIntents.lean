import NetopsCopilot.Application.Cases
import NetopsCopilot.Application.ArtifactStore
import NetopsCopilot.Python.Codecs
import NetopsCopilot.Postgres.ProcessingLedger

/-!
# Upload intents (`netops_api/application/artifact_intents.py`)

The commands of the module, its SQL statements with what PostgreSQL answers (`IntentStmt.exec`), and
`create` and `complete` as programs over them. The object store is a parameter of `complete`.

A statement is sent with its text and the names of its parameters: `text()` reads the names a statement
needs off its text, and refuses to execute it without one of them. How it reads them is a parameter too
(`binds`); `bindNames` is what its documentation says.
-/

namespace NetopsCopilot

open Txn

/-! ### The names in a statement's text -/

/-- `\w`, on the ASCII texts of the module. -/
def wordChar (c : PyChar) : Bool :=
  (48 ≤ c.val && c.val ≤ 57) || (65 ≤ c.val && c.val ≤ 90) || (97 ≤ c.val && c.val ≤ 122) || c.val == 95

/-- The matches of `(?<![:\w\\]):(\w+)(?!:)` after `prev`. -/
def bindNamesAfter (prev : Option PyChar) : PyStr → List PyStr
  | [] => []
  | c :: s =>
    let rest := bindNamesAfter (some c) s
    if c.val = 58 ∧ prev.all (fun p => !(wordChar p || p.val == 58 || p.val == 92)) = true then
      let name := s.takeWhile wordChar
      -- a colon after the name makes the engine give its last character back
      match if (s.dropWhile wordChar).head?.any (·.val == 58) then name.dropLast else name with
      | [] => rest
      | name => name :: rest
    else rest

/-- The parameters of a `text()`. -/
def bindNames (sql : PyStr) : List PyStr := bindNamesAfter none sql

/-! ### Commands and records -/

/-- `CreateArtifactUploadIntent`. -/
structure CreateArtifactUploadIntent where
  intentId : Uuid
  artifactId : Uuid
  caseId : Uuid
  artifactKind : ArtifactKind
  classification : PyStr
  contentType : PyStr
  byteSize : Nat
  sha256Hex : Sha256Hex
  originalFilename : Option PyStr
  actorId : Uuid
  correlationId : Uuid
  createdAt : Instant
  expiresAt : Instant

/-- `CompletedArtifactUpload`. -/
structure CompletedArtifactUpload where
  artifactId : Uuid
  completedAt : Instant
  alreadyCompleted : Bool
deriving DecidableEq

/-- What the module's methods raise. -/
inductive IntentError where
  | notFound (intentId : Uuid)
  | expired (message : PyStr)
  | verification (message : PyStr)
  | store (e : StoreError)
  /-- A name of the statement's text has no parameter. -/
  | unbound (name : PyStr)
  | noResultFound
  | multipleResults
  | assertion
  /-- The driver encodes a text in UTF-8. -/
  | unicodeEncodeError
  | db (e : DbError)
deriving DecidableEq

/-! ### Statements -/

/-- The columns of `_INSERT_ARTIFACT_COMPLETION_EVENT`; it inserts `NULL` for `actor_id`. -/
structure CompletionEvent where
  id : Uuid
  organizationId : Uuid
  caseId : Uuid
  eventType : PyStr
  aggregateVersion : Nat
  transitionId : Option Uuid
  actorId : Option Uuid
  correlationId : Uuid
  occurredAt : Instant
  payload : Json

/-- The row of `case_events`, whose `actor_id` is `NOT NULL`. -/
def CompletionEvent.row (e : CompletionEvent) : Except DbError EventRow :=
  match e.actorId with
  | none => .error (.notNull (py "actor_id"))
  | some actorId => .ok
    { id := e.id, organizationId := e.organizationId, caseId := e.caseId,
      transitionId := e.transitionId, eventType := e.eventType, aggregateVersion := e.aggregateVersion,
      actorId := actorId, correlationId := e.correlationId, payload := e.payload,
      occurredAt := e.occurredAt }

/-- One row changed, or locked by `FOR UPDATE`. -/
inductive IntentWrite where
  | lockIntent (row : IntentRow)
  | insertIntent (row : IntentRow)
  | completeIntent (old : IntentRow) (completedAt : Instant)
  | insertArtifact (row : ArtifactRow)
  | insertProcessing (row : ProcessingRow)
  | spine (w : CaseWrite)

/-- The SQL statements of the module, an `INSERT` with the row it inserts, and any statement of another
module that changes one row. -/
inductive IntentStmt where
  | insertUploadIntent (row : IntentRow) (classification : PyStr)
  | selectIntentForCompletion (organizationId caseId intentId : Uuid)
  | selectIntentCompletedAt (intentId : Uuid)
  | insertArtifact (row : ArtifactRow)
  | insertQuarantinedProcessingEvent (row : ProcessingRow)
  | selectCaseVersion (organizationId caseId : Uuid)
  | insertArtifactCompletionEvent (event : CompletionEvent)
  | insertArtifactCompletionOutbox (row : OutboxRow)
  | markIntentCompleted (intentId : Uuid) (completedAt : Instant)
  | insertAuditEvent (row : AuditRow)
  | other (w : IntentWrite)

/-- What a statement returns. -/
@[reducible] def IntentStmt.Reply : IntentStmt → Type
  | .selectIntentForCompletion _ _ _ => List IntentRow
  | .selectIntentCompletedAt _ => List (Option Instant)
  | .selectCaseVersion _ _ => List Nat
  | _ => Unit

/-- The columns `_MARK_INTENT_COMPLETED` sets. -/
def IntentRow.complete (r : IntentRow) (completedAt : Instant) : IntentRow :=
  { r with status := .completed, completedAt := some completedAt }

/-- The database after one row change. -/
def IntentWrite.apply : IntentWrite → Db → Db
  | .lockIntent _, db => db
  | .insertIntent r, db => { db with intents := db.intents ++ [r] }
  | .completeIntent old completedAt, db =>
    -- the row `old`, by its two unique keys
    { db with intents := db.intents.map fun r =>
        if r.id = old.id ∧ r.artifactId = old.artifactId ∧ r.status = .pending then
          r.complete completedAt
        else r }
  | .insertArtifact r, db => { db with artifacts := db.artifacts ++ [r] }
  | .insertProcessing r, db => { db with processing := db.processing ++ [r] }
  | .spine w, db => w.apply db

namespace IntentStmt

/-- A statement of the case repository. -/
def execSpine (s : CaseStmt) (db : Db) : Except DbError (Unit × List IntentWrite) :=
  (s.exec db).map fun (_, ws) => ((), ws.map .spine)

/-- PostgreSQL's answer: constraints, then the reply and the rows written. -/
def exec : (s : IntentStmt) → Db → Except DbError (s.Reply × List IntentWrite)
  | .insertUploadIntent r classification, db => do
    need .notStorable (storable classification && storable r.storageKey && storable r.contentType &&
      r.originalFilename.all storable)
    need (.check (py "artifact_upload_intents")) (r.checks && decide (classification = py "raw"))
    need (.unique (py "artifact_upload_intents_pkey")) (!db.intents.any fun i => i.id == r.id)
    need (.unique (py "artifact_upload_intents_artifact_id_key"))
      (!db.intents.any fun i => i.artifactId == r.artifactId)
    need (.unique (py "uq_artifact_upload_intents_storage_key")) (!db.intents.any fun i =>
      i.organizationId == r.organizationId && i.storageKey == r.storageKey)
    need (.foreignKey (py "organizations")) (decide (r.organizationId ∈ db.organizations))
    need (.foreignKey (py "cases")) (hasCase db r.organizationId r.caseId)
    return ((), [.insertIntent r])
  | .selectIntentForCompletion organizationId caseId intentId, db =>
    let rows := db.intents.filter fun i =>
      i.organizationId == organizationId && i.caseId == caseId && i.id == intentId
    return (rows, rows.map .lockIntent)
  | .selectIntentCompletedAt intentId, db =>
    return ((db.intents.filter (·.id == intentId)).map (·.completedAt), [])
  | .insertArtifact r, db => do
    need .notStorable (storable r.artifactKind && storable r.classification && storable r.storageKey &&
      storable r.contentType && r.originalFilename.all storable && storable r.encryptionKeyReference)
    need (.check (py "artifacts")) r.checks
    need (.unique (py "artifacts_pkey")) (!db.artifacts.any fun a => a.id == r.id)
    need (.unique (py "uq_artifacts_organization_storage_key")) (!db.artifacts.any fun a =>
      a.organizationId == r.organizationId && a.storageKey == r.storageKey)
    need (.foreignKey (py "organizations")) (decide (r.organizationId ∈ db.organizations))
    need (.foreignKey (py "cases")) (hasCase db r.organizationId r.caseId)
    return ((), [.insertArtifact r])
  | .insertQuarantinedProcessingEvent r, db => do
    acceptProcessingEvent db.processing r
    need (.foreignKey (py "organizations")) (decide (r.organizationId ∈ db.organizations))
    need (.foreignKey (py "artifacts")) (db.artifacts.any fun a =>
      a.organizationId == r.organizationId && a.id == r.artifactId)
    return ((), [.insertProcessing r])
  | .selectCaseVersion organizationId caseId, db =>
    return ((db.cases.filter fun c => c.organizationId == organizationId && c.id == caseId).map
      (·.version), [])
  | .insertArtifactCompletionEvent e, db => do
    let row ← e.row
    execSpine (.insertEvent row) db
  | .insertArtifactCompletionOutbox r, db => execSpine (.insertOutbox r) db
  | .markIntentCompleted intentId completedAt, db =>
    return ((), (db.intents.filter fun i => i.id == intentId && i.status == .pending).map
      (.completeIntent · completedAt))
  | .insertAuditEvent r, db => execSpine (.insertAuditEvent r) db
  | .other w, _ => return ((), [w])

end IntentStmt

/-! ### Statement texts -/

/-- An ASCII text, given by its lines. -/
def sqlText (lines : List String) : PyStr :=
  lines.flatMap fun line =>
    (line.toByteArray.data.toList.map fun b => Fin.castLE (by decide) b.toFin) ++ [10]

def insertUploadIntentText : PyStr := sqlText [
  "    INSERT INTO artifact_upload_intents (",
  "      id, artifact_id, organization_id, case_id, artifact_kind, classification,",
  "      storage_key, sha256, byte_size, content_type, original_filename,",
  "      created_by_actor_id, correlation_id, expires_at, created_at",
  "    ) VALUES (",
  "      :intent_id, :artifact_id, :organization_id, :case_id, :artifact_kind, :classification,",
  "      :storage_key, :sha256, :byte_size, :content_type, :original_filename,",
  "      :created_by_actor_id, :correlation_id, :expires_at, :created_at",
  "    )"]

def selectIntentForCompletionText : PyStr := sqlText [
  "    SELECT id, artifact_id, case_id, artifact_kind, classification, storage_key,",
  "           sha256, byte_size, content_type, original_filename, created_by_actor_id,",
  "           correlation_id, expires_at, status",
  "      FROM artifact_upload_intents",
  "     WHERE organization_id = :organization_id",
  "       AND case_id = :case_id",
  "       AND id = :intent_id",
  "     FOR UPDATE"]

def selectIntentCompletedAtText : PyStr :=
  sqlText ["SELECT completed_at FROM artifact_upload_intents WHERE id = :intent_id"]

def insertArtifactText : PyStr := sqlText [
  "    INSERT INTO artifacts (",
  "      id, organization_id, case_id, artifact_kind, classification, storage_key,",
  "      sha256, byte_size, content_type, original_filename, encryption_key_reference,",
  "      created_by_actor_id, retention_until, created_at",
  "    ) VALUES (",
  "      :artifact_id, :organization_id, :case_id, :artifact_kind, :classification, :storage_key,",
  "      :sha256, :byte_size, :content_type, :original_filename, :encryption_key_reference,",
  "      :created_by_actor_id, :retention_until, :created_at",
  "    )"]

def markIntentCompletedText : PyStr := sqlText [
  "    UPDATE artifact_upload_intents",
  "       SET status = 'completed', completed_at = :completed_at",
  "     WHERE id = :intent_id AND status = 'pending'"]

def insertQuarantinedProcessingEventText : PyStr := sqlText [
  "    INSERT INTO artifact_processing_events (",
  "      organization_id, artifact_id, attempt, state, processor, processor_version,",
  "      result_summary, correlation_id, created_by_actor_id, occurred_at",
  "    ) VALUES (",
  "      :organization_id, :artifact_id, 1, 'quarantined', 'artifact-upload-verifier', 'v1',",
  "      '\x7b\"metadata_verified\":true\x7d'::jsonb, :correlation_id, :created_by_actor_id, :occurred_at",
  "    )"]

-- the JSON constant reads as a parameter `true`
example : bindNames insertQuarantinedProcessingEventText =
    [py "organization_id", py "artifact_id", py "true", py "correlation_id", py "created_by_actor_id",
      py "occurred_at"] := by
  decide +kernel

def selectCaseVersionText : PyStr :=
  sqlText ["SELECT version FROM cases WHERE organization_id = :organization_id AND id = :case_id"]

def insertArtifactCompletionEventText : PyStr := sqlText [
  "    INSERT INTO case_events (",
  "      id, organization_id, case_id, event_type, aggregate_version, transition_id,",
  "      actor_id, correlation_id, occurred_at, payload",
  "    ) VALUES (",
  "      :event_id, :organization_id, :case_id, :event_type, :aggregate_version, NULL,",
  "      NULL, :correlation_id, :occurred_at, CAST(:payload AS jsonb)",
  "    )"]

def insertArtifactCompletionOutboxText : PyStr := sqlText [
  "    INSERT INTO outbox_events (",
  "      id, organization_id, case_id, case_event_id, event_type, aggregate_version,",
  "      correlation_id, payload, available_at, created_at",
  "    ) VALUES (",
  "      :outbox_id, :organization_id, :case_id, :case_event_id, :event_type, :aggregate_version,",
  "      :correlation_id, CAST(:payload AS jsonb), :available_at, :created_at",
  "    )"]

def insertAuditEventText : PyStr := sqlText [
  "    INSERT INTO audit_events (",
  "      id, organization_id, actor_subject, action, correlation_id, details, occurred_at",
  "    ) VALUES (",
  "      :audit_event_id, :organization_id, :actor_subject, :action, :correlation_id,",
  "      CAST(:details AS json), :occurred_at",
  "    )"]

/-! ### Programs -/

/-- A program of the repository. -/
abbrev IntentProg (A : Type) := Prog IntentStmt IntentStmt.Reply DbError Uuid IntentError A

/-- The object key of an upload, as `_storage_key` builds it. -/
def storageKey (organizationId caseId artifactId : Uuid) : PyStr :=
  py "organizations/" ++ organizationId.str ++ py "/cases/" ++ caseId.str ++ py "/artifacts/" ++
    artifactId.str

/-- `_verify_metadata`. -/
def verifyMetadata (intent : IntentRow) (observed : ArtifactObjectMetadata) :
    Except IntentError Unit :=
  if observed.contentType ≠ intent.contentType ∨ observed.contentLength ≠ intent.byteSize ∨
      observed.sha256Hex ≠ intent.sha256 then
    .error (.verification (py "Uploaded object metadata does not match its signed declaration."))
  else .ok ()

/-- `_retention_until`: 30 days for audio, 90 days otherwise. -/
def retentionUntil (intent : IntentRow) (completedAt : Instant) : Instant :=
  completedAt + (if intent.artifactKind = .incidentAudio then 30 else 90) * (24 * 60 * 60 * 1000000)

/-- The audit details of both methods. -/
def intentDetails (artifactId caseId intentId : Uuid) : Json :=
  .obj [(py "artifact_id", .str artifactId.str), (py "case_id", .str caseId.str),
    (py "intent_id", .str intentId.str)]

/-- The payload of `_insert_completion_outbox`; the classification of an intent is `raw`. -/
def completionPayload (intent : IntentRow) : Json :=
  .obj [(py "artifact_id", .str intent.artifactId.str), (py "artifact_kind", .str intent.artifactKind.value),
    (py "case_id", .str intent.caseId.str), (py "classification", .str (py "raw")),
    (py "sha256", .str intent.sha256.text)]

/-- The parameters of `_INSERT_UPLOAD_INTENT`; the status takes its default. -/
def intentRow (organizationId : Uuid) (c : CreateArtifactUploadIntent) : IntentRow where
  id := c.intentId
  artifactId := c.artifactId
  organizationId := organizationId
  caseId := c.caseId
  artifactKind := c.artifactKind
  storageKey := storageKey organizationId c.caseId c.artifactId
  sha256 := c.sha256Hex
  byteSize := c.byteSize
  contentType := c.contentType
  originalFilename := c.originalFilename
  createdByActorId := some c.actorId
  correlationId := c.correlationId
  expiresAt := c.expiresAt
  status := .pending
  completedAt := none
  createdAt := c.createdAt

/-- The parameters of `_INSERT_ARTIFACT`. -/
def artifactRow (organizationId : Uuid) (intent : IntentRow) (metadata : ArtifactObjectMetadata)
    (completedAt : Instant) : ArtifactRow where
  id := intent.artifactId
  organizationId := organizationId
  caseId := intent.caseId
  artifactKind := intent.artifactKind.value
  classification := py "raw"
  storageKey := intent.storageKey
  sha256 := intent.sha256
  byteSize := intent.byteSize
  contentType := intent.contentType
  originalFilename := intent.originalFilename
  encryptionKeyReference := metadata.encryptionKeyReference
  createdByActorId := intent.createdByActorId
  retentionUntil := retentionUntil intent completedAt
  createdAt := completedAt

/-- The row of `_INSERT_QUARANTINED_PROCESSING_EVENT`; its id is drawn by the database. -/
def quarantinedRow (organizationId : Uuid) (intent : IntentRow) (completedAt : Instant) (id : Uuid) :
    ProcessingRow where
  id := id
  organizationId := organizationId
  artifactId := intent.artifactId
  attempt := 1
  state := .quarantined
  processor := py "artifact-upload-verifier"
  processorVersion := py "v1"
  failureCode := none
  resultSummary := .obj [(py "metadata_verified", .bool true)]
  correlationId := intent.correlationId
  createdByActorId := intent.createdByActorId
  occurredAt := completedAt

/-- The parameters of `_INSERT_ARTIFACT_COMPLETION_EVENT`. -/
def completionEvent (organizationId : Uuid) (intent : IntentRow) (aggregateVersion : Nat)
    (completedAt : Instant) (eventId : Uuid) : CompletionEvent where
  id := eventId
  organizationId := organizationId
  caseId := intent.caseId
  eventType := py "artifact.completed.v1"
  aggregateVersion := aggregateVersion
  transitionId := none
  actorId := none
  correlationId := intent.correlationId
  occurredAt := completedAt
  payload := completionPayload intent

/-- The parameters of `_INSERT_ARTIFACT_COMPLETION_OUTBOX`. -/
def completionOutbox (organizationId : Uuid) (intent : IntentRow) (aggregateVersion : Nat)
    (completedAt : Instant) (eventId outboxId : Uuid) : OutboxRow where
  id := outboxId
  organizationId := organizationId
  caseId := intent.caseId
  caseEventId := eventId
  eventType := py "artifact.completed.v1"
  aggregateVersion := aggregateVersion
  correlationId := intent.correlationId
  payload := completionPayload intent
  availableAt := completedAt
  publishedAt := none
  attemptCount := 0
  lastError := none
  lockedAt := none
  lockedBy := none
  createdAt := completedAt

/-- `result.scalar_one()`. -/
def scalarOne {α : Type} : List α → Except IntentError α
  | [] => .error .noResultFound
  | [a] => .ok a
  | _ => .error .multipleResults

/-- A text parameter as the driver sends it. -/
def sentText (s : PyStr) : Except IntentError (List Utf8.Byte) :=
  match encodeUtf8 s with
  | some bytes => .ok bytes
  | none => .error .unicodeEncodeError

section

variable (binds : PyStr → List PyStr)

/-- `self._connection.execute(text(sql), parameters)`. -/
def executeText (sql : PyStr) (parameters : List PyStr) (s : IntentStmt) : IntentProg s.Reply :=
  match (binds sql).find? fun name => decide (name ∉ parameters) with
  | some name => .raise (.unbound name)
  | none => Prog.execute .db s

/-- `_INSERT_AUDIT_EVENT` with its parameters. -/
def insertIntentAudit (row : AuditRow) : IntentProg Unit :=
  executeText binds insertAuditEventText
    [py "audit_event_id", py "organization_id", py "actor_subject", py "action", py "correlation_id",
      py "details", py "occurred_at"] (.insertAuditEvent row)

/-- `TenantArtifactIntentRepository.create`. -/
def createIntent (organizationId : Uuid) (c : CreateArtifactUploadIntent) : IntentProg Unit :=
  Prog.atomic do
    executeText binds insertUploadIntentText
      [py "intent_id", py "artifact_id", py "organization_id", py "case_id", py "artifact_kind",
        py "classification", py "storage_key", py "sha256", py "byte_size", py "content_type",
        py "original_filename", py "created_by_actor_id", py "correlation_id", py "expires_at",
        py "created_at"] (.insertUploadIntent (intentRow organizationId c) c.classification)
    let auditEventId ← Prog.draw
    insertIntentAudit binds
      { id := auditEventId, organizationId := organizationId,
        actorSubject := py "human:" ++ c.actorId.str,
        action := py "artifact.upload_intent_created", correlationId := some c.correlationId,
        details := intentDetails c.artifactId c.caseId c.intentId, occurredAt := c.createdAt }

/-- `_load_for_completion`. -/
def loadForCompletion (organizationId caseId intentId : Uuid) : IntentProg IntentRow := do
  let rows ← executeText binds selectIntentForCompletionText
    [py "organization_id", py "case_id", py "intent_id"]
    (.selectIntentForCompletion organizationId caseId intentId)
  match rows with
  | [] => .raise (.notFound intentId)
  | [row] => return row
  | _ => .raise .multipleResults

/-- `_completed_at`. -/
def loadCompletedAt (intentId : Uuid) : IntentProg Instant := do
  let rows ← executeText binds selectIntentCompletedAtText [py "intent_id"]
    (.selectIntentCompletedAt intentId)
  match ← Prog.lift (scalarOne rows) with
  | some value => return value
  | none => .raise .assertion

/-- `_insert_completion_outbox`. -/
def insertCompletionOutbox (organizationId : Uuid) (intent : IntentRow) (completedAt : Instant) :
    IntentProg Unit := do
  let versions ← executeText binds selectCaseVersionText [py "organization_id", py "case_id"]
    (.selectCaseVersion organizationId intent.caseId)
  let aggregateVersion ← Prog.lift (scalarOne versions)
  let eventId ← Prog.draw
  let parameters := [py "event_id", py "organization_id", py "case_id", py "event_type",
    py "aggregate_version", py "correlation_id", py "occurred_at", py "payload"]
  executeText binds insertArtifactCompletionEventText parameters (.insertArtifactCompletionEvent
    (completionEvent organizationId intent aggregateVersion completedAt eventId))
  let outboxId ← Prog.draw
  executeText binds insertArtifactCompletionOutboxText
    (parameters ++ [py "outbox_id", py "case_event_id", py "available_at", py "created_at"])
    (.insertArtifactCompletionOutbox
      (completionOutbox organizationId intent aggregateVersion completedAt eventId outboxId))

/-- The writes of `complete` once the object is verified. -/
def recordCompletion (organizationId : Uuid) (intent : IntentRow) (metadata : ArtifactObjectMetadata)
    (completedAt : Instant) : IntentProg CompletedArtifactUpload := do
  -- of the texts of the row, only the reference was not in the database before
  let _ ← Prog.lift (sentText metadata.encryptionKeyReference)
  executeText binds insertArtifactText
    [py "artifact_id", py "organization_id", py "case_id", py "artifact_kind", py "classification",
      py "storage_key", py "sha256", py "byte_size", py "content_type", py "original_filename",
      py "encryption_key_reference", py "created_by_actor_id", py "retention_until", py "created_at"]
    (.insertArtifact (artifactRow organizationId intent metadata completedAt))
  let processingId ← Prog.draw
  executeText binds insertQuarantinedProcessingEventText
    [py "organization_id", py "artifact_id", py "correlation_id", py "created_by_actor_id",
      py "occurred_at"]
    (.insertQuarantinedProcessingEvent (quarantinedRow organizationId intent completedAt processingId))
  insertCompletionOutbox binds organizationId intent completedAt
  executeText binds markIntentCompletedText [py "intent_id", py "completed_at"]
    (.markIntentCompleted intent.id completedAt)
  let auditEventId ← Prog.draw
  insertIntentAudit binds
    { id := auditEventId, organizationId := organizationId,
      actorSubject := py "human:" ++ intent.createdByActorId.elim (py "None") Uuid.str,
      action := py "artifact.upload_completed", correlationId := some intent.correlationId,
      details := intentDetails intent.artifactId intent.caseId intent.id, occurredAt := completedAt }
  return { artifactId := intent.artifactId, completedAt := completedAt, alreadyCompleted := false }

/-- `complete` on a locked intent. -/
def completeLoaded (organizationId : Uuid) (store : ArtifactStore) (now : Instant) (intent : IntentRow) :
    IntentProg CompletedArtifactUpload :=
  if intent.status = .completed then do
    let completedAt ← loadCompletedAt binds intent.id
    return { artifactId := intent.artifactId, completedAt := completedAt, alreadyCompleted := true }
  else if intent.status ≠ .pending then
    .raise (.verification (py "Upload intent is not completable."))
  else if intent.expiresAt ≤ now then .raise (.expired (py "Upload intent has expired."))
  else do
    let request ← Prog.lift ((ArtifactUploadRequest.make organizationId intent.artifactId
      intent.contentType intent.byteSize intent.sha256 (some intent.caseId)).mapError .store)
    let metadata ← Prog.lift ((store request).mapError .store)
    Prog.lift (verifyMetadata intent metadata)
    recordCompletion binds organizationId intent metadata now

/-- `TenantArtifactIntentRepository.complete`. -/
def complete (organizationId caseId intentId : Uuid) (store : ArtifactStore) (now : Instant) :
    IntentProg CompletedArtifactUpload := Prog.atomic do
  let intent ← loadForCompletion binds organizationId caseId intentId
  completeLoaded binds organizationId store now intent

end

end NetopsCopilot
