import Mathlib.Data.Prod.Lex
import NetopsCopilot.Python.Json

/-!
# The tables (migrations `20260715_01` to `20260716_06`)

One structure per table with the columns of the migration, and the table's CHECK constraints as
decidable predicates on a row. Enumerated text columns have the enumeration as their type, a column
with a `NOT NULL` constraint is not an `Option`, and a digest column holds a `Sha256Hex`. `Db` is the
database: each table is the list of its rows in insertion order.

The policies of row-level security are in `Postgres/RowSecurity`: every statement of the case, outbox and
feed repositories also names the tenant's `organization_id` itself.
-/

namespace NetopsCopilot

/-- The order of the sort keys by the computable order of `Int`. -/
instance linearOrderSortKey : LinearOrder (Instant ×ₗ Uuid) :=
  @Prod.Lex.instLinearOrder Instant Uuid Int.instLinearOrder Fin.instLinearOrder

instance preorderSortKey : Preorder (Instant ×ₗ Uuid) :=
  linearOrderSortKey.toPartialOrder.toPreorder

/-- The largest value of a PostgreSQL `integer`. -/
def int4Max : Nat := 2147483647

/-- Text that a PostgreSQL `text` column can hold: no NUL and no surrogate. -/
def storable (s : PyStr) : Bool := s.all fun c => c.val != 0 && !(0xD800 ≤ c.val && c.val ≤ 0xDFFF)

/-- `length(btrim(s)) > 0`. -/
def notBlankSql (s : PyStr) : Bool := 0 < (btrim s).length

/-- A lower-case SHA-256 hex digest. -/
structure Sha256Hex where
  text : PyStr
  length : text.length = 64
  hex : text.all (fun c => decide (c ∈ py "0123456789abcdef")) = true
deriving DecidableEq, Repr

/-- A digest to evaluate the model with. -/
def zeroSha256 : Sha256Hex := ⟨List.replicate 64 48, by decide, by decide⟩

/-- The severities `ck_cases_severity` admits. -/
inductive Severity where
  | low | medium | high | critical
deriving DecidableEq, Repr

def Severity.value : Severity → PyStr
  | .low => py "low"
  | .medium => py "medium"
  | .high => py "high"
  | .critical => py "critical"

/-! ### Migration 02: the case spine -/

/-- `cases`. -/
structure CaseRow where
  id : Uuid
  organizationId : Uuid
  assetId : Option Uuid
  title : PyStr
  category : Option PyStr
  severity : Severity
  state : CaseState
  version : Nat
  idempotencyKey : PyStr
  requestSha256 : Sha256Hex
  createdByActorId : Option Uuid
  correlationId : Uuid
  createdAt : Instant
  updatedAt : Instant
deriving DecidableEq

/-- The CHECK constraints of `cases` that its column types do not already state. -/
def CaseRow.checks (r : CaseRow) : Bool :=
  notBlankSql r.title && notBlankSql r.idempotencyKey && decide ((btrim r.idempotencyKey).length ≤ 255)

/-- `case_inputs`. -/
structure CaseInputRow where
  id : Uuid
  organizationId : Uuid
  caseId : Uuid
  inputKind : PyStr
  contentSha256 : Sha256Hex
  content : Json
  createdByActorId : Option Uuid
  correlationId : Uuid
  createdAt : Instant

/-- `ck_case_inputs_kind_not_blank`. -/
def CaseInputRow.checks (r : CaseInputRow) : Bool := notBlankSql r.inputKind

/-- `case_transitions`. -/
structure TransitionRow where
  id : Uuid
  organizationId : Uuid
  caseId : Uuid
  fromState : CaseState
  toState : CaseState
  version : Nat
  actorId : Uuid
  actorKind : ActorKind
  correlationId : Uuid
  approvalId : Option Uuid
  verificationNote : Option PyStr
  knowledgeItemId : Option Uuid
  note : Option PyStr
  occurredAt : Instant
deriving DecidableEq

namespace TransitionRow

/-- `ck_case_transitions_version_positive`. -/
def versionPositive (r : TransitionRow) : Bool := 0 < r.version

/-- `ck_case_transitions_actor_kind`. -/
def actorKindKnown (r : TransitionRow) : Bool := r.actorKind == .human || r.actorKind == .service

/-- `ck_case_transitions_allowed_edge`. -/
def allowedEdge (r : TransitionRow) : Bool :=
  (r.fromState == .new && r.toState == .investigating) ||
  (r.fromState == .investigating && (r.toState == .diagnosed || r.toState == .needsInformation)) ||
  (r.fromState == .needsInformation && r.toState == .investigating) ||
  (r.fromState == .diagnosed && r.toState == .fixProposed) ||
  (r.fromState == .fixProposed && r.toState == .confirmed) ||
  (r.fromState == .confirmed && r.toState == .resolved) ||
  (r.fromState == .resolved && r.toState == .learned)

/-- `ck_case_transitions_confirmation`. -/
def confirmation (r : TransitionRow) : Bool :=
  r.toState != .confirmed || (r.actorKind == .human && r.approvalId.isSome)

/-- `ck_case_transitions_resolution`. -/
def resolution (r : TransitionRow) : Bool :=
  r.toState != .resolved || (r.actorKind == .human && r.verificationNote.any notBlankSql)

/-- `ck_case_transitions_learning`. -/
def learning (r : TransitionRow) : Bool :=
  r.toState != .learned || (r.actorKind == .service && r.knowledgeItemId.isSome)

/-- `ck_case_transitions_needs_information`. -/
def needsInformation (r : TransitionRow) : Bool :=
  r.toState != .needsInformation || r.note.any notBlankSql

/-- The CHECK constraints of `case_transitions`. -/
def checks (r : TransitionRow) : Bool :=
  r.versionPositive && r.actorKindKnown && r.allowedEdge && r.confirmation && r.resolution &&
    r.learning && r.needsInformation

end TransitionRow

/-- `case_events`. -/
structure EventRow where
  id : Uuid
  organizationId : Uuid
  caseId : Uuid
  transitionId : Option Uuid
  eventType : PyStr
  aggregateVersion : Nat
  actorId : Uuid
  correlationId : Uuid
  payload : Json
  occurredAt : Instant

/-- The CHECK constraints of `case_events`. -/
def EventRow.checks (r : EventRow) : Bool := notBlankSql r.eventType && decide (0 ≤ r.aggregateVersion)

/-- `outbox_events`. -/
structure OutboxRow where
  id : Uuid
  organizationId : Uuid
  caseId : Uuid
  caseEventId : Uuid
  eventType : PyStr
  aggregateVersion : Nat
  correlationId : Uuid
  payload : Json
  availableAt : Instant
  publishedAt : Option Instant
  attemptCount : Nat
  lastError : Option PyStr
  lockedAt : Option Instant
  lockedBy : Option PyStr
  createdAt : Instant

/-- The CHECK constraints of `outbox_events`. -/
def OutboxRow.checks (r : OutboxRow) : Bool :=
  notBlankSql r.eventType && decide (0 ≤ r.aggregateVersion) && decide (0 ≤ r.attemptCount)

/-- `consumer_inbox`. -/
structure InboxRow where
  id : Uuid
  organizationId : Uuid
  consumerName : PyStr
  eventId : Uuid
  payloadSha256 : Sha256Hex
  processedAt : Instant
deriving DecidableEq

/-- `ck_consumer_inbox_consumer_not_blank`. -/
def InboxRow.checks (r : InboxRow) : Bool := notBlankSql r.consumerName

/-! ### Migration 01: audit events; migrations 03 to 05: artifacts -/

/-- `audit_events`. -/
structure AuditRow where
  id : Uuid
  organizationId : Uuid
  actorSubject : PyStr
  action : PyStr
  correlationId : Option Uuid
  details : Json
  occurredAt : Instant

/-- `artifact_kind` of an upload intent. -/
inductive ArtifactKind where
  | networkConfiguration | incidentAudio
deriving DecidableEq, Repr

def ArtifactKind.value : ArtifactKind → PyStr
  | .networkConfiguration => py "network-configuration"
  | .incidentAudio => py "incident-audio"

/-- `status` of an upload intent. -/
inductive IntentStatus where
  | pending | completed
deriving DecidableEq, Repr

/-- `state` of a processing event. -/
inductive ProcessingState where
  | quarantined | verified | redacted | failed
deriving DecidableEq, Repr

def ProcessingState.value : ProcessingState → PyStr
  | .quarantined => py "quarantined"
  | .verified => py "verified"
  | .redacted => py "redacted"
  | .failed => py "failed"

/-- `artifacts`. -/
structure ArtifactRow where
  id : Uuid
  organizationId : Uuid
  caseId : Uuid
  artifactKind : PyStr
  classification : PyStr
  storageKey : PyStr
  sha256 : Sha256Hex
  byteSize : Nat
  contentType : PyStr
  originalFilename : Option PyStr
  encryptionKeyReference : PyStr
  createdByActorId : Option Uuid
  retentionUntil : Instant
  createdAt : Instant

/-- The CHECK constraints of `artifacts`. -/
def ArtifactRow.checks (r : ArtifactRow) : Bool :=
  notBlankSql r.artifactKind && decide (r.classification ∈ [py "raw", py "redacted", py "derived"]) &&
    notBlankSql r.storageKey && decide (0 ≤ r.byteSize) && notBlankSql r.contentType &&
    notBlankSql r.encryptionKeyReference && decide (r.createdAt ≤ r.retentionUntil)

/-- `artifact_upload_intents`; its `classification` is `raw`. -/
structure IntentRow where
  id : Uuid
  artifactId : Uuid
  organizationId : Uuid
  caseId : Uuid
  artifactKind : ArtifactKind
  storageKey : PyStr
  sha256 : Sha256Hex
  byteSize : Nat
  contentType : PyStr
  originalFilename : Option PyStr
  createdByActorId : Option Uuid
  correlationId : Uuid
  expiresAt : Instant
  status : IntentStatus
  completedAt : Option Instant
  createdAt : Instant

/-- The CHECK constraints of `artifact_upload_intents`. -/
def IntentRow.checks (r : IntentRow) : Bool :=
  decide (0 < r.byteSize) && decide (r.byteSize ≤ 104857600) && decide (r.createdAt ≤ r.expiresAt) &&
    ((r.status == .pending && r.completedAt.isNone) || (r.status == .completed && r.completedAt.isSome))

/-- `artifact_processing_events`. -/
structure ProcessingRow where
  id : Uuid
  organizationId : Uuid
  artifactId : Uuid
  attempt : Nat
  state : ProcessingState
  processor : PyStr
  processorVersion : PyStr
  failureCode : Option PyStr
  resultSummary : Json
  correlationId : Uuid
  createdByActorId : Option Uuid
  occurredAt : Instant

/-! ### The database -/

/-- The database. `organizations` and `assets` are only referred to. -/
structure Db where
  organizations : List Uuid := []
  assets : List (Uuid × Uuid) := []
  cases : List CaseRow := []
  caseInputs : List CaseInputRow := []
  transitions : List TransitionRow := []
  events : List EventRow := []
  outbox : List OutboxRow := []
  inbox : List InboxRow := []
  audit : List AuditRow := []
  artifacts : List ArtifactRow := []
  intents : List IntentRow := []
  processing : List ProcessingRow := []

/-- What the store answers instead of a reply. -/
inductive DbError where
  | notNull (column : PyStr)
  | check (table : PyStr)
  | foreignKey (table : PyStr)
  | unique (index : PyStr)
  | trigger (message : PyStr)
  | outOfRange
  | notStorable
  | connection
deriving DecidableEq, Repr

/-- A constraint: `e` unless `b`. -/
def need (e : DbError) (b : Bool) : Except DbError Unit := if b then .ok () else .error e

theorem need_ok {e : DbError} {b : Bool} {u : Unit} (h : need e b = .ok u) : b = true := by
  unfold need at h
  split_ifs at h with hb
  exact hb

theorem need_bind {α : Type} {e : DbError} {b : Bool} {f : Unit → Except DbError α} {a : α} :
    (need e b >>= f) = .ok a ↔ b = true ∧ f () = .ok a := by
  cases b <;> simp [need, bind, Except.bind]

end NetopsCopilot
