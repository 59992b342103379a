import NetopsCopilot.Lib.Prog
import NetopsCopilot.Postgres.Schema

/-!
# The case repository (`netops_api/application/cases.py`)

The commands and records of the module, its SQL statements with what PostgreSQL answers on a given
database (`CaseStmt.exec`: constraint violations in the order they are checked, `RETURNING` rows, and
the rows written), and the repository's methods as programs over these statements: `createCase`,
`getSnapshot`, `persistTransition`, `getDetail` and `CaseService.transition`.

`sha256` stands for `hashlib.sha256(text.encode("utf-8")).hexdigest()`.
-/

namespace NetopsCopilot

open Txn

/-! ### Commands and records -/

/-- `CaseInputCommand`, with what its `__post_init__` checks; its content is a `dict`. -/
structure CaseInputCommand where
  inputId : Uuid
  inputKind : PyStr
  contentSha256 : Sha256Hex
  content : List (PyStr × Json)
  inputKindOk : isBlank inputKind = false ∧ inputKind.length ≤ 100
  contentDict : (Json.obj content).Dict

/-- `CaseInputCommand(...)` with its `__post_init__`; the digest is one by its type. -/
def CaseInputCommand.make (inputId : Uuid) (inputKind : PyStr) (contentSha256 : Sha256Hex)
    (content : List (PyStr × Json)) (contentDict : (Json.obj content).Dict) : Except DomainError CaseInputCommand :=
  if h : isBlank inputKind = false ∧ inputKind.length ≤ 100 then
    .ok { inputId := inputId, inputKind := inputKind, contentSha256 := contentSha256, content := content,
          inputKindOk := h, contentDict := contentDict }
  else .error (.valueError (py "input_kind must contain 1 to 100 non-blank characters."))

theorem CaseInputCommand.make_ok {inputId : Uuid} {inputKind : PyStr} {contentSha256 : Sha256Hex}
    {content : List (PyStr × Json)} {contentDict : (Json.obj content).Dict} {i : CaseInputCommand}
    (h : CaseInputCommand.make inputId inputKind contentSha256 content contentDict = .ok i) :
    i.contentSha256 = contentSha256 ∧ i.content = content := by
  unfold CaseInputCommand.make at h
  split_ifs at h
  cases h
  exact ⟨rfl, rfl⟩

/-- `CreateCaseCommand`, with what its `__post_init__` checks as fields. -/
structure CreateCaseCommand where
  caseId : Uuid
  eventId : Uuid
  idempotencyKey : PyStr
  title : PyStr
  category : Option PyStr
  severity : Severity
  assetId : Option Uuid
  actor : Actor
  correlationId : Uuid
  occurredAt : Instant
  caseInput : Option CaseInputCommand
  idempotencyKeyOk : isBlank idempotencyKey = false ∧ idempotencyKey.length ≤ 255
  titleOk : isBlank title = false ∧ title.length ≤ 500
  categoryOk : ∀ s ∈ category, isBlank s = false ∧ s.length ≤ 100

/-- The arguments of `CreateCaseCommand(...)` before its `__post_init__`. -/
structure CreateCaseArgs where
  caseId : Uuid
  eventId : Uuid
  idempotencyKey : PyStr
  title : PyStr
  category : Option PyStr
  severity : Severity
  assetId : Option Uuid
  actor : Actor
  correlationId : Uuid
  occurredAt : Instant
  caseInput : Option CaseInputCommand

/-- `CreateCaseCommand(...)` with its `__post_init__`. -/
def CreateCaseCommand.make (a : CreateCaseArgs) : Except DomainError CreateCaseCommand :=
  if hk : isBlank a.idempotencyKey = false ∧ a.idempotencyKey.length ≤ 255 then
    if ht : isBlank a.title = false ∧ a.title.length ≤ 500 then
      if hc : ∀ s ∈ a.category, isBlank s = false ∧ s.length ≤ 100 then
        .ok { caseId := a.caseId, eventId := a.eventId, idempotencyKey := a.idempotencyKey,
              title := a.title, category := a.category, severity := a.severity,
              assetId := a.assetId, actor := a.actor, correlationId := a.correlationId,
              occurredAt := a.occurredAt, caseInput := a.caseInput, idempotencyKeyOk := hk,
              titleOk := ht, categoryOk := hc }
      else .error (.valueError
        (py "category must be non-blank and at most 100 characters when supplied."))
    else .error (.valueError (py "title must contain 1 to 500 non-blank characters."))
  else .error (.valueError (py "idempotency_key must contain 1 to 255 non-blank characters."))

theorem CreateCaseCommand.make_ok {a : CreateCaseArgs} {c : CreateCaseCommand}
    (h : CreateCaseCommand.make a = .ok c) : c.caseInput = a.caseInput ∧
      c.idempotencyKey = a.idempotencyKey ∧ c.actor = a.actor := by
  unfold CreateCaseCommand.make at h
  split_ifs at h
  cases h
  exact ⟨rfl, rfl, rfl⟩

/-- A text or JSON `null`. -/
def Json.optStr : Option PyStr → Json
  | some s => .str s
  | none => .null

/-- The member `"input"` of the request fingerprint. -/
def CaseInputCommand.payload : Option CaseInputCommand → Json
  | some i => .obj [(py "content", .obj i.content), (py "content_sha256", .str i.contentSha256.text),
      (py "input_kind", .str i.inputKind)]
  | none => .null

namespace CreateCaseCommand

/-- The payload whose canonical text `request_sha256` hashes. -/
def payload (c : CreateCaseCommand) : Json :=
  .obj [(py "asset_id", Json.optStr (c.assetId.map Uuid.str)), (py "category", Json.optStr c.category),
    (py "input", CaseInputCommand.payload c.caseInput), (py "severity", .str c.severity.value),
    (py "title", .str c.title)]

/-- `CreateCaseCommand.request_sha256`. -/
def requestSha256 (sha256 : PyStr → Sha256Hex) (c : CreateCaseCommand) : Sha256Hex :=
  sha256 c.payload.dumps

end CreateCaseCommand

/-- `CaseRecord`. -/
structure CaseRecord where
  caseId : Uuid
  state : CaseState
  version : Nat
  title : PyStr
  category : Option PyStr
  severity : Severity
  assetId : Option Uuid
  createdByActorId : Option Uuid
  createdAt : Instant
  updatedAt : Instant

/-- `_case_record`. -/
def caseRecord (r : CaseRow) : CaseRecord where
  caseId := r.id
  state := r.state
  version := r.version
  title := r.title
  category := r.category
  severity := r.severity
  assetId := r.assetId
  createdByActorId := r.createdByActorId
  createdAt := r.createdAt
  updatedAt := r.updatedAt

/-- `CreateCaseResult`. -/
structure CreateCaseResult where
  case : CaseRecord
  created : Bool

/-- `CaseTimelineEntry`. -/
structure CaseTimelineEntry where
  eventId : Uuid
  eventType : PyStr
  aggregateVersion : Nat
  transitionId : Option Uuid
  actorId : Uuid
  correlationId : Uuid
  occurredAt : Instant
  fromState : Option CaseState
  toState : Option CaseState
  approvalId : Option Uuid
  verificationNote : Option PyStr
  knowledgeItemId : Option Uuid
  note : Option PyStr

/-- `_timeline_entry` on a row of `_SELECT_TIMELINE`: an event and its transition, if it has one. -/
def timelineEntry (row : EventRow × Option TransitionRow) : CaseTimelineEntry where
  eventId := row.1.id
  eventType := row.1.eventType
  aggregateVersion := row.1.aggregateVersion
  transitionId := row.1.transitionId
  actorId := row.1.actorId
  correlationId := row.1.correlationId
  occurredAt := row.1.occurredAt
  fromState := row.2.map (·.fromState)
  toState := row.2.map (·.toState)
  approvalId := row.2.bind (·.approvalId)
  verificationNote := row.2.bind (·.verificationNote)
  knowledgeItemId := row.2.bind (·.knowledgeItemId)
  note := row.2.bind (·.note)

/-- `CaseDetail`. -/
structure CaseDetail where
  case : CaseRecord
  timeline : List CaseTimelineEntry

/-- What the case commands raise. -/
inductive CaseError where
  | domain (e : DomainError)
  | caseNotFound (caseId : Uuid)
  | idempotencyConflict (idempotencyKey : PyStr) (existingCaseId requestedCaseId : Uuid)
  | runtimeError (message : PyStr)
  | multipleResults
  | api (statusCode : Nat) (code message : PyStr)
  | db (e : DbError)
deriving DecidableEq

/-! ### Statements -/

/-- The SQL statements of the module; an `INSERT` carries the row it inserts. -/
inductive CaseStmt where
  | insertCase (row : CaseRow)
  | selectCaseByIdempotency (organizationId : Uuid) (idempotencyKey : PyStr)
  | selectSnapshot (organizationId caseId : Uuid)
  | updateCaseVersion (organizationId caseId : Uuid) (expectedVersion : Nat) (state : CaseState)
      (version : Nat) (updatedAt : Instant)
  | insertCaseInput (row : CaseInputRow)
  | insertTransition (row : TransitionRow)
  | insertEvent (row : EventRow)
  | insertOutbox (row : OutboxRow)
  | insertAuditEvent (row : AuditRow)
  | selectCase (organizationId caseId : Uuid)
  | selectTimeline (organizationId caseId : Uuid)

/-- What a statement returns. -/
@[reducible] def CaseStmt.Reply : CaseStmt → Type
  | .insertCase _ | .selectCaseByIdempotency _ _ | .selectSnapshot _ _
  | .updateCaseVersion _ _ _ _ _ _ | .selectCase _ _ => List CaseRow
  | .selectTimeline _ _ => List (EventRow × Option TransitionRow)
  | .insertCaseInput _ | .insertTransition _ | .insertEvent _ | .insertOutbox _
  | .insertAuditEvent _ => Unit

/-- One row changed by a statement of the module. -/
inductive CaseWrite where
  | insertCase (row : CaseRow)
  | updateCase (old : CaseRow) (state : CaseState) (version : Nat) (updatedAt : Instant)
  | insertCaseInput (row : CaseInputRow)
  | insertTransition (row : TransitionRow)
  | insertEvent (row : EventRow)
  | insertOutbox (row : OutboxRow)
  | insertAudit (row : AuditRow)

/-- The columns `_UPDATE_CASE_VERSION` sets. -/
def CaseRow.advance (r : CaseRow) (state : CaseState) (version : Nat) (updatedAt : Instant) : CaseRow :=
  { r with state := state, version := version, updatedAt := updatedAt }

/-- The database after one row change. -/
def CaseWrite.apply : CaseWrite → Db → Db
  | .insertCase r, db => { db with cases := db.cases ++ [r] }
  | .updateCase old state version updatedAt, db =>
    { db with cases := db.cases.map fun r => if r = old then r.advance state version updatedAt else r }
  | .insertCaseInput r, db => { db with caseInputs := db.caseInputs ++ [r] }
  | .insertTransition r, db => { db with transitions := db.transitions ++ [r] }
  | .insertEvent r, db => { db with events := db.events ++ [r] }
  | .insertOutbox r, db => { db with outbox := db.outbox ++ [r] }
  | .insertAudit r, db => { db with audit := db.audit ++ [r] }

/-- The foreign key `(organization_id, case_id) → cases`. -/
def hasCase (db : Db) (organizationId caseId : Uuid) : Bool :=
  db.cases.any fun c => c.organizationId == organizationId && c.id == caseId

mutual
/-- `CAST(text AS jsonb)` accepts the text of this value: no infinity or NaN, no NUL, and surrogates
only in pairs. -/
def Json.jsonb : Json → Bool
  | .float f => f.text.all fun c => decide (c ∉ py "NI")
  | .str s => jsonbString s
  | .arr items => jsonbItems items
  | .obj members => jsonbMembers members
  | _ => true
def jsonbItems : List Json → Bool
  | [] => true
  | v :: items => v.jsonb && jsonbItems items
def jsonbMembers : List (PyStr × Json) → Bool
  | [] => true
  | (k, v) :: members => jsonbString k && v.jsonb && jsonbMembers members
def jsonbString : PyStr → Bool
  | [] => true
  | c :: s =>
    if 0xDC00 ≤ c.val ∧ c.val ≤ 0xDFFF then false
    else if 0xD800 ≤ c.val ∧ c.val ≤ 0xDBFF then
      match s with
      | d :: s => decide (0xDC00 ≤ d.val ∧ d.val ≤ 0xDFFF) && jsonbString s
      | [] => false
    else c.val != 0 && jsonbString s
end

namespace CaseStmt

/-- PostgreSQL's answer: constraints, then the reply and the rows written. -/
def exec : (s : CaseStmt) → Db → Except DbError (s.Reply × List CaseWrite)
  | .insertCase r, db => do
    need .notStorable (storable r.title && r.category.all storable && storable r.idempotencyKey)
    need (.check (py "cases")) r.checks
    -- ON CONFLICT (organization_id, idempotency_key) DO NOTHING
    if db.cases.any fun c =>
        c.organizationId == r.organizationId && c.idempotencyKey == r.idempotencyKey then
      return ([], [])
    need (.unique (py "cases_pkey")) (!db.cases.any fun c => c.id == r.id)
    need (.foreignKey (py "organizations")) (decide (r.organizationId ∈ db.organizations))
    need (.foreignKey (py "assets"))
      (r.assetId.all fun a => decide ((r.organizationId, a) ∈ db.assets))
    return ([r], [.insertCase r])
  | .selectCaseByIdempotency organizationId idempotencyKey, db =>
    return (db.cases.filter fun c =>
      c.organizationId == organizationId && c.idempotencyKey == idempotencyKey, [])
  | .selectSnapshot organizationId caseId, db
  | .selectCase organizationId caseId, db =>
    return (db.cases.filter fun c => c.organizationId == organizationId && c.id == caseId, [])
  | .updateCaseVersion organizationId caseId expectedVersion state version updatedAt, db => do
    need .outOfRange (decide (version ≤ int4Max))
    let rows := db.cases.filter fun c =>
      c.organizationId == organizationId && c.id == caseId && c.version == expectedVersion
    return (rows.map (·.advance state version updatedAt),
      rows.map (.updateCase · state version updatedAt))
  | .insertCaseInput r, db => do
    need .notStorable (storable r.inputKind && r.content.jsonb)
    need (.check (py "case_inputs")) r.checks
    need (.unique (py "case_inputs_pkey")) (!db.caseInputs.any fun i => i.id == r.id)
    need (.foreignKey (py "cases")) (hasCase db r.organizationId r.caseId)
    return ((), [.insertCaseInput r])
  | .insertTransition r, db => do
    need .notStorable (r.verificationNote.all storable && r.note.all storable)
    need .outOfRange (decide (r.version ≤ int4Max))
    need (.check (py "case_transitions")) r.checks
    need (.unique (py "case_transitions_pkey")) (!db.transitions.any fun t => t.id == r.id)
    need (.unique (py "uq_case_transitions_case_version"))
      (!db.transitions.any fun t => t.caseId == r.caseId && t.version == r.version)
    need (.foreignKey (py "cases")) (hasCase db r.organizationId r.caseId)
    return ((), [.insertTransition r])
  | .insertEvent r, db => do
    need .notStorable (storable r.eventType && r.payload.jsonb)
    need .outOfRange (decide (r.aggregateVersion ≤ int4Max))
    need (.check (py "case_events")) r.checks
    need (.unique (py "case_events_pkey")) (!db.events.any fun e => e.id == r.id)
    need (.unique (py "uq_case_events_transition_id")) (r.transitionId.all fun t =>
      !db.events.any fun e => e.organizationId == r.organizationId && e.transitionId == some t)
    need (.foreignKey (py "cases")) (hasCase db r.organizationId r.caseId)
    need (.foreignKey (py "case_transitions")) (r.transitionId.all fun t =>
      db.transitions.any fun u => u.organizationId == r.organizationId && u.id == t)
    return ((), [.insertEvent r])
  | .insertOutbox r, db => do
    need .notStorable (storable r.eventType && r.payload.jsonb)
    need .outOfRange (decide (r.aggregateVersion ≤ int4Max))
    need (.check (py "outbox_events")) r.checks
    need (.unique (py "outbox_events_pkey")) (!db.outbox.any fun o => o.id == r.id)
    need (.unique (py "uq_outbox_events_case_event"))
      (!db.outbox.any fun o => o.caseEventId == r.caseEventId)
    need (.foreignKey (py "cases")) (hasCase db r.organizationId r.caseId)
    need (.foreignKey (py "case_events"))
      (db.events.any fun e => e.organizationId == r.organizationId && e.id == r.caseEventId)
    return ((), [.insertOutbox r])
  | .insertAuditEvent r, db => do
    need .notStorable (storable r.actorSubject && storable r.action)
    need (.unique (py "audit_events_pkey")) (!db.audit.any fun a => a.id == r.id)
    need (.foreignKey (py "organizations")) (decide (r.organizationId ∈ db.organizations))
    return ((), [.insertAudit r])
  | .selectTimeline organizationId caseId, db =>
    return ((db.events.filter fun e => e.organizationId == organizationId && e.caseId == caseId)
      |>.map (fun e => (e, e.transitionId.bind fun t =>
        db.transitions.find? fun u => u.organizationId == e.organizationId && u.id == t))
      |>.insertionSort (fun a b => a.1.aggregateVersion < b.1.aggregateVersion ∨
        (a.1.aggregateVersion = b.1.aggregateVersion ∧ (a.1.occurredAt < b.1.occurredAt ∨
          (a.1.occurredAt = b.1.occurredAt ∧ a.1.id ≤ b.1.id)))), [])

end CaseStmt

/-! ### Programs -/

/-- A program of the case repository. -/
abbrev CaseProg (A : Type) := Prog CaseStmt CaseStmt.Reply DbError Uuid CaseError A

/-- `self._connection.execute(statement, parameters)`. -/
def execute (s : CaseStmt) : CaseProg s.Reply := Prog.execute .db s

/-- `uuid4()`. -/
def uuid4 : CaseProg Uuid := Prog.draw

/-- `result.mappings().one_or_none()`. -/
def oneOrNone {α : Type} : List α → Except CaseError (Option α)
  | [] => .ok none
  | [a] => .ok (some a)
  | _ => .error .multipleResults

/-- `_audit_subject`. -/
def auditSubject (actor : Actor) : PyStr := actor.kind.value ++ py ":" ++ actor.actorId.str

/-- The parameters of `_INSERT_CASE`, with the statement's constants. -/
def insertCaseRow (sha256 : PyStr → Sha256Hex) (organizationId : Uuid) (c : CreateCaseCommand) :
    CaseRow where
  id := c.caseId
  organizationId := organizationId
  assetId := c.assetId
  title := c.title
  category := c.category
  severity := c.severity
  state := .new
  version := 0
  idempotencyKey := c.idempotencyKey
  requestSha256 := c.requestSha256 sha256
  createdByActorId := some c.actor.actorId
  correlationId := c.correlationId
  createdAt := c.occurredAt
  updatedAt := c.occurredAt

/-- The parameters of `_INSERT_CASE_INPUT`. -/
def caseInputRow (organizationId caseId : Uuid) (c : CreateCaseCommand) (i : CaseInputCommand) :
    CaseInputRow where
  id := i.inputId
  organizationId := organizationId
  caseId := caseId
  inputKind := i.inputKind
  contentSha256 := i.contentSha256
  content := .obj i.content
  createdByActorId := some c.actor.actorId
  correlationId := c.correlationId
  createdAt := c.occurredAt

/-- The parameters of `_INSERT_TRANSITION`. -/
def transitionRow (organizationId : Uuid) (t : CaseStateTransition) (actor : Actor) :
    TransitionRow where
  id := t.transitionId
  organizationId := organizationId
  caseId := t.caseId
  fromState := t.fromState
  toState := t.toState
  version := t.version
  actorId := t.actorId
  actorKind := actor.kind
  correlationId := t.correlationId
  approvalId := t.approvalId
  verificationNote := t.verificationNote
  knowledgeItemId := t.knowledgeItemId
  note := t.note
  occurredAt := t.occurredAt

/-- The payload `_insert_event_and_outbox` serializes. -/
def eventPayload (event : CaseEventCommand) (transitionId : Option Uuid)
    (requestSha256 : Option Sha256Hex) : Json :=
  .obj ([(py "case_id", .str event.caseId.str),
    (py "aggregate_version", .int event.aggregateVersion),
    (py "transition_id", Json.optStr (transitionId.map Uuid.str)),
    (py "actor_id", .str event.actorId.str),
    (py "correlation_id", .str event.correlationId.str)] ++
    (match requestSha256 with
      | some h => [(py "request_sha256", .str h.text)]
      | none => []))

/-- The parameters of `_INSERT_EVENT`. -/
def eventRow (organizationId : Uuid) (event : CaseEventCommand) (transitionId : Option Uuid)
    (requestSha256 : Option Sha256Hex) : EventRow where
  id := event.eventId
  organizationId := organizationId
  caseId := event.caseId
  transitionId := transitionId
  eventType := event.eventType
  aggregateVersion := event.aggregateVersion
  actorId := event.actorId
  correlationId := event.correlationId
  payload := eventPayload event transitionId requestSha256
  occurredAt := event.occurredAt

/-- The parameters of `_INSERT_OUTBOX`; the delivery columns take their defaults. -/
def outboxRow (organizationId : Uuid) (event : CaseEventCommand) (transitionId : Option Uuid)
    (requestSha256 : Option Sha256Hex) (outboxId : Uuid) : OutboxRow where
  id := outboxId
  organizationId := organizationId
  caseId := event.caseId
  caseEventId := event.eventId
  eventType := event.eventType
  aggregateVersion := event.aggregateVersion
  correlationId := event.correlationId
  payload := eventPayload event transitionId requestSha256
  availableAt := event.occurredAt
  publishedAt := none
  attemptCount := 0
  lastError := none
  lockedAt := none
  lockedBy := none
  createdAt := event.occurredAt

/-- `_insert_event_and_outbox`. -/
def insertEventAndOutbox (organizationId : Uuid) (event : CaseEventCommand)
    (transitionId : Option Uuid) (requestSha256 : Option Sha256Hex) : CaseProg Unit := do
  execute (.insertEvent (eventRow organizationId event transitionId requestSha256))
  let outboxId ← uuid4
  execute (.insertOutbox (outboxRow organizationId event transitionId requestSha256 outboxId))

/-- `_insert_audit_event`. -/
def insertAuditEvent (organizationId : Uuid) (actor : Actor) (action : PyStr) (correlationId : Uuid)
    (occurredAt : Instant) (details : Json) : CaseProg Unit := do
  let auditEventId ← uuid4
  execute (.insertAuditEvent
    { id := auditEventId, organizationId := organizationId, actorSubject := auditSubject actor,
      action := action, correlationId := some correlationId, details := details,
      occurredAt := occurredAt })

/-- The event of a created case. -/
def createdEvent (c : CreateCaseCommand) (case : CaseRecord) : CaseEventCommand where
  eventId := c.eventId
  eventType := py "case.created.v1"
  caseId := case.caseId
  aggregateVersion := case.version
  transitionId := c.eventId
  actorId := c.actor.actorId
  correlationId := c.correlationId
  occurredAt := c.occurredAt

/-- The audit details of a created case. -/
def createdDetails (case : CaseRecord) (event : CaseEventCommand) : Json :=
  .obj [(py "case_id", .str case.caseId.str), (py "event_id", .str event.eventId.str),
    (py "event_type", .str event.eventType), (py "aggregate_version", .int event.aggregateVersion)]

/-- `TenantCaseRepository.create_case` after `_INSERT_CASE` returned no row. -/
def replayCase (sha256 : PyStr → Sha256Hex) (organizationId : Uuid) (c : CreateCaseCommand) :
    CaseProg CreateCaseResult := do
  let rows ← execute (.selectCaseByIdempotency organizationId c.idempotencyKey)
  match ← Prog.lift (oneOrNone rows) with
  | none =>
    .raise (.runtimeError (py "Case insert did not return a row and no idempotent record exists."))
  | some existing =>
    if existing.requestSha256 ≠ c.requestSha256 sha256 then
      .raise (.idempotencyConflict c.idempotencyKey existing.id c.caseId)
    else
      return { case := caseRecord existing, created := false }

/-- `_insert_case_input`, when the command has an input. -/
def insertCaseInput (organizationId caseId : Uuid) (c : CreateCaseCommand) : CaseProg Unit :=
  match c.caseInput with
  | some i => execute (.insertCaseInput (caseInputRow organizationId caseId c i))
  | none => return ()

/-- `TenantCaseRepository.create_case`. -/
def createCase (sha256 : PyStr → Sha256Hex) (organizationId : Uuid) (c : CreateCaseCommand) :
    CaseProg CreateCaseResult := Prog.atomic do
  let rows ← execute (.insertCase (insertCaseRow sha256 organizationId c))
  match ← Prog.lift (oneOrNone rows) with
  | none => replayCase sha256 organizationId c
  | some inserted =>
    let case := caseRecord inserted
    let event := createdEvent c case
    insertCaseInput organizationId case.caseId c
    insertEventAndOutbox organizationId event none (some (c.requestSha256 sha256))
    insertAuditEvent organizationId c.actor (py "case.created") c.correlationId c.occurredAt
      (createdDetails case event)
    return { case := case, created := true }

/-- `TenantCaseRepository.get_snapshot`. -/
def getSnapshot (organizationId caseId : Uuid) : CaseProg CaseSnapshot := do
  let rows ← execute (.selectSnapshot organizationId caseId)
  match ← Prog.lift (oneOrNone rows) with
  | none => .raise (.caseNotFound caseId)
  | some row => return { caseId := row.id, state := row.state, version := row.version }

/-- `_raise_write_conflict`. -/
def raiseWriteConflict {A : Type} (organizationId : Uuid) (snapshot : CaseSnapshot) : CaseProg A := do
  let current ← getSnapshot organizationId snapshot.caseId
  .raise (.domain (.versionConflict snapshot.caseId (snapshot.version - 1) current.version))

/-- The audit details of a transition. -/
def transitionedDetails (o : TransitionOutcome) : Json :=
  .obj [(py "case_id", .str o.snapshot.caseId.str), (py "event_id", .str o.event.eventId.str),
    (py "transition_id", .str o.transition.transitionId.str),
    (py "event_type", .str o.event.eventType),
    (py "aggregate_version", .int o.event.aggregateVersion),
    (py "from_state", .str o.transition.fromState.value),
    (py "to_state", .str o.transition.toState.value)]

/-- `TenantCaseRepository.persist_transition`. -/
def persistTransition (organizationId : Uuid) (outcome : TransitionOutcome) (actor : Actor) :
    CaseProg CaseRecord := Prog.atomic do
  let rows ← execute (.updateCaseVersion organizationId outcome.snapshot.caseId
    (outcome.snapshot.version - 1) outcome.snapshot.state outcome.snapshot.version
    outcome.transition.occurredAt)
  match ← Prog.lift (oneOrNone rows) with
  | none => raiseWriteConflict organizationId outcome.snapshot
  | some updated =>
    execute (.insertTransition (transitionRow organizationId outcome.transition actor))
    insertEventAndOutbox organizationId outcome.event (some outcome.event.transitionId) none
    insertAuditEvent organizationId actor (py "case.transitioned") outcome.event.correlationId
      outcome.event.occurredAt (transitionedDetails outcome)
    return caseRecord updated

/-- `CaseService.transition`. -/
def transition (organizationId : Uuid) (command : TransitionCommand) : CaseProg CaseRecord := do
  let snapshot ← getSnapshot organizationId command.caseId
  let outcome ← Prog.lift ((applyTransition snapshot command).mapError .domain)
  persistTransition organizationId outcome command.actor

/-- `TenantCaseRepository.get_detail`. -/
def getDetail (organizationId caseId : Uuid) : CaseProg CaseDetail := do
  let rows ← execute (.selectCase organizationId caseId)
  match ← Prog.lift (oneOrNone rows) with
  | none => .raise (.caseNotFound caseId)
  | some row =>
    let timeline ← execute (.selectTimeline organizationId caseId)
    return { case := caseRecord row, timeline := timeline.map timelineEntry }

end NetopsCopilot
