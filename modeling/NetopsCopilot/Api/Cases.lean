import Mathlib.Data.Finset.Sort
import NetopsCopilot.Application.Cases
import NetopsCopilot.Python.Codecs

/-!
# The HTTP routes of the case spine (`netops_api/api/cases.py`)

The routes that write: `create_case`, and `transition_case`, `resolve_case` and `request_case_feedback`,
which share `_apply_transition`. The organization and the actor come from the verified principal, never
from the request; an actor built by `_actor_from_principal` is a human with the principal's roles.

`uuid5` stands for `uuid5(NAMESPACE_URL, ·)`. What the request's environment supplies (`_correlation_id`,
`_utc_now`) is a `RequestContext`. A route returns the command it built together with the repository's
answer, so that a run of requests can be related to the history; `createCaseRoute` and
`applyTransitionRoute` are the responses.
-/

namespace NetopsCopilot

open Txn

/-! ### Principals -/

/-- `AuthenticatedPrincipal`, of a signature-verified token. -/
structure AuthenticatedPrincipal where
  subject : PyStr
  organizationId : Uuid
  roles : Finset CaseRole
  assetIds : Finset Uuid
  issuer : PyStr

/-- `AuthenticatedPrincipal.require_any_role`: platform administrators satisfy role gates. -/
def AuthenticatedPrincipal.requireAnyRole (p : AuthenticatedPrincipal) (roles : Finset CaseRole) :
    Bool := decide (p.roles ∩ (roles ∪ {.platformAdmin}) ≠ ∅)

/-- `sorted(principal.asset_ids, key=str)`: UUIDs in the order of their texts. -/
def AuthenticatedPrincipal.assetList (p : AuthenticatedPrincipal) : List Uuid := p.assetIds.sort (· ≤ ·)

/-- What a request finds in its environment. -/
structure RequestContext where
  correlationId : Uuid
  now : Instant

/-- `_CASE_CREATE_ROLES`. -/
def caseCreateRoles : Finset CaseRole := {.orgAdmin, .operator, .approver, .platformAdmin}

/-- `_CASE_READ_ROLES`. -/
def caseReadRoles : Finset CaseRole :=
  {.orgAdmin, .operator, .approver, .auditor, .integrationAdmin, .platformAdmin}

/-- `_require_case_read_access`. -/
def requireCaseReadAccess (p : AuthenticatedPrincipal) : Except CaseError Unit :=
  if p.requireAnyRole caseReadRoles then .ok ()
  else .error (.api 403 (py "case_read_forbidden") (py "The signed-in user lacks a case-read role."))

/-- `_require_case_create_access`. -/
def requireCaseCreateAccess (p : AuthenticatedPrincipal) : Except CaseError Unit :=
  if p.requireAnyRole caseCreateRoles then .ok ()
  else .error (.api 403 (py "case_write_forbidden") (py "The signed-in user lacks a case-write role."))

/-- `_require_create_asset_scope`. -/
def requireCreateAssetScope (p : AuthenticatedPrincipal) (assetId : Option Uuid) :
    Except CaseError Unit :=
  if ∀ a ∈ assetId, a ∈ p.assetIds then .ok ()
  else .error (.api 403 (py "asset_scope_denied")
    (py "The signed-in user cannot create a case for this asset."))

/-- `_actor_from_principal`. -/
def actorFromPrincipal (uuid5 : PyStr → Uuid) (p : AuthenticatedPrincipal) : Except CaseError Actor :=
  let name := p.issuer ++ [0x1f] ++ p.subject
  -- `uuid5` raises the `UnicodeEncodeError` of a surrogate, which is a `ValueError`
  match encodeUtf8 name, Actor.make (uuid5 name) .human p.roles with
  | some _, .ok actor => .ok actor
  | _, _ => .error (.api 403 (py "case_write_forbidden") (py "The signed-in user lacks a case-write role."))

/-- An actor of a principal is a human with the principal's roles. -/
theorem actorFromPrincipal_ok {uuid5 : PyStr → Uuid} {p : AuthenticatedPrincipal} {a : Actor}
    (h : actorFromPrincipal uuid5 p = .ok a) : a.kind = .human ∧ a.roles = p.roles := by
  unfold actorFromPrincipal at h
  dsimp only at h
  split at h
  next actor _ hmake =>
    cases h
    exact ⟨(Actor.make_ok hmake).2.1, (Actor.make_ok hmake).2.2⟩
  next => cases h

/-- `_case_not_found`. -/
def caseNotFound : CaseError := .api 404 (py "case_not_found") (py "The requested case was not found.")

/-- `_is_visible_to_principal`. -/
def isVisibleToPrincipal (case : CaseRecord) (p : AuthenticatedPrincipal) : Bool :=
  decide (∀ a ∈ case.assetId, a ∈ p.assetIds)

/-- `_visible_case_or_not_found`. -/
def visibleCaseOrNotFound (case : CaseRecord) (p : AuthenticatedPrincipal) :
    Except CaseError CaseRecord :=
  if isVisibleToPrincipal case p then .ok case else .error caseNotFound

/-- `_map_case_error`; what it does not know is raised again. -/
def mapCaseError : CaseError → CaseError
  | .caseNotFound _ => caseNotFound
  | .idempotencyConflict _ _ _ => .api 409 (py "idempotency_conflict")
      (py "The idempotency key was already used for a different request.")
  | .domain (.versionConflict _ _ _) => .api 409 (py "case_version_conflict")
      (py "The case changed before this transition could be applied.")
  | .domain (.transitionAuthorization _) => .api 403 (py "case_transition_forbidden")
      (py "The signed-in user cannot perform this case transition.")
  | .domain (.invalidTransition _ _) | .domain (.transitionConstraint _) | .domain (.valueError _) =>
    .api 422 (py "invalid_case_transition") (py "The requested case operation is invalid.")
  | e => e

/-- `try: … except Exception as exc: raise _map_case_error(exc)`. -/
def mapErrors {A : Type} (p : CaseProg A) : CaseProg A := p.elim .ret fun e => .raise (mapCaseError e)

/-! ### Requests -/

/-- `CaseInputRequest`, with the bounds of its fields. -/
structure CaseInputRequest where
  inputKind : PyStr
  content : List (PyStr × Json)
  inputKindOk : 1 ≤ inputKind.length ∧ inputKind.length ≤ 100
  contentDict : (Json.obj content).Dict

/-- `CreateCaseRequest`. -/
structure CreateCaseRequest where
  title : PyStr
  category : Option PyStr
  severity : Severity
  assetId : Option Uuid
  input : Option CaseInputRequest
  titleOk : 1 ≤ title.length ∧ title.length ≤ 500
  categoryOk : ∀ s ∈ category, 1 ≤ s.length ∧ s.length ≤ 100

/-- `TransitionCaseRequest`. -/
structure TransitionCaseRequest where
  expectedVersion : Nat
  toState : CaseState
  approvalId : Option Uuid
  verificationNote : Option PyStr
  knowledgeItemId : Option Uuid
  note : Option PyStr
  verificationNoteOk : ∀ s ∈ verificationNote, 1 ≤ s.length ∧ s.length ≤ 10000
  noteOk : ∀ s ∈ note, 1 ≤ s.length ∧ s.length ≤ 10000

/-- `ResolveCaseRequest`. -/
structure ResolveCaseRequest where
  expectedVersion : Nat
  verificationNote : PyStr
  verificationNoteOk : 1 ≤ verificationNote.length ∧ verificationNote.length ≤ 10000

/-- `CaseFeedbackRequest`. -/
structure CaseFeedbackRequest where
  expectedVersion : Nat
  note : PyStr
  noteOk : 1 ≤ note.length ∧ note.length ≤ 10000

/-- `CaseResponse`. -/
structure CaseResponse where
  id : Uuid
  state : CaseState
  version : Nat
  title : PyStr
  category : Option PyStr
  severity : Severity
  assetId : Option Uuid
  createdByActorId : Option Uuid
  createdAt : Instant
  updatedAt : Instant

/-- `_case_response`. -/
def caseResponse (case : CaseRecord) : CaseResponse where
  id := case.caseId
  state := case.state
  version := case.version
  title := case.title
  category := case.category
  severity := case.severity
  assetId := case.assetId
  createdByActorId := case.createdByActorId
  createdAt := case.createdAt
  updatedAt := case.updatedAt

/-! ### Routes -/

section

variable (sha256 : PyStr → Sha256Hex) (uuid5 : PyStr → Uuid)

/-- The input command of `create_case`: its digest is the one of the canonical content. -/
def caseInputCommand (inputId : Uuid) (input : CaseInputRequest) : Except DomainError CaseInputCommand :=
  CaseInputCommand.make inputId input.inputKind (sha256 (Json.obj input.content).dumps) input.content
    input.contentDict

/-- The `case_input` of `create_case`. -/
def requestInput : Option CaseInputRequest → CaseProg (Option CaseInputCommand)
  | none => return none
  | some input => do
    let inputId ← uuid4
    let caseInput ← Prog.lift ((caseInputCommand sha256 inputId input).mapError .domain)
    return some caseInput

/-- The command of `create_case`. -/
def createCaseCommand (p : AuthenticatedPrincipal) (context : RequestContext)
    (idempotencyKey : PyStr) (body : CreateCaseRequest) : CaseProg CreateCaseCommand := do
  if isBlank idempotencyKey then
    .raise (mapCaseError (.domain (.valueError (py "idempotency key cannot be blank"))))
  else
    let _ ← Prog.lift (requireCaseCreateAccess p)
    let _ ← Prog.lift (requireCreateAssetScope p body.assetId)
    let actor ← Prog.lift (actorFromPrincipal uuid5 p)
    let caseInput ← requestInput sha256 body.input
    let caseId ← uuid4
    let eventId ← uuid4
    Prog.lift ((CreateCaseCommand.make
      { caseId := caseId, eventId := eventId, idempotencyKey := idempotencyKey, title := body.title,
        category := body.category, severity := body.severity, assetId := body.assetId,
        actor := actor, correlationId := context.correlationId, occurredAt := context.now,
        caseInput := caseInput }).mapError .domain)

/-- `create_case` with the command it built. -/
def createCaseRequest (p : AuthenticatedPrincipal) (context : RequestContext)
    (idempotencyKey : PyStr) (body : CreateCaseRequest) :
    CaseProg (CreateCaseCommand × CreateCaseResult) := do
  let command ← createCaseCommand sha256 uuid5 p context idempotencyKey body
  let result ← mapErrors (createCase sha256 p.organizationId command)
  return (command, result)

/-- `create_case`: the response, and whether it is an idempotent replay. -/
def createCaseRoute (p : AuthenticatedPrincipal) (context : RequestContext)
    (idempotencyKey : PyStr) (body : CreateCaseRequest) : CaseProg (CaseResponse × Bool) := do
  let (_, result) ← createCaseRequest sha256 uuid5 p context idempotencyKey body
  return (caseResponse result.case, !result.created)

/-- The parameters of `_apply_transition`. -/
structure TransitionParameters where
  caseId : Uuid
  expectedVersion : Nat
  toState : CaseState
  approvalId : Option Uuid := none
  verificationNote : Option PyStr := none
  knowledgeItemId : Option Uuid := none
  note : Option PyStr := none

/-- The command of `_apply_transition`. -/
def transitionCommand (p : AuthenticatedPrincipal) (context : RequestContext)
    (t : TransitionParameters) : CaseProg TransitionCommand := do
  let detail ← getDetail p.organizationId t.caseId
  let _ ← Prog.lift (visibleCaseOrNotFound detail.case p)
  let actor ← Prog.lift (actorFromPrincipal uuid5 p)
  let transitionId ← uuid4
  let eventId ← uuid4
  Prog.lift ((TransitionCommand.make
    { transitionId := transitionId, eventId := eventId, caseId := t.caseId,
      expectedVersion := t.expectedVersion, toState := t.toState, actor := actor,
      correlationId := context.correlationId, occurredAt := context.now, approvalId := t.approvalId,
      verificationNote := t.verificationNote, knowledgeItemId := t.knowledgeItemId,
      note := t.note }).mapError .domain)

/-- `_apply_transition` with the command it built. -/
def applyTransitionRequest (p : AuthenticatedPrincipal) (context : RequestContext)
    (t : TransitionParameters) : CaseProg (TransitionCommand × CaseRecord) := do
  let _ ← Prog.lift (requireCaseReadAccess p)
  let _ ← Prog.lift (requireCaseCreateAccess p)
  mapErrors do
    let command ← transitionCommand uuid5 p context t
    let updated ← transition p.organizationId command
    return (command, updated)

/-- `_apply_transition`. -/
def applyTransitionRoute (p : AuthenticatedPrincipal) (context : RequestContext)
    (t : TransitionParameters) : CaseProg CaseResponse := do
  let (_, updated) ← applyTransitionRequest uuid5 p context t
  return caseResponse updated

/-- A request to one of the routes that move a case. -/
inductive TransitionRequest where
  | transitionCase (caseId : Uuid) (body : TransitionCaseRequest)
  | resolveCase (caseId : Uuid) (body : ResolveCaseRequest)
  | requestCaseFeedback (caseId : Uuid) (body : CaseFeedbackRequest)

/-- What `transition_case`, `resolve_case` and `request_case_feedback` pass to `_apply_transition`. -/
def TransitionRequest.parameters : TransitionRequest → TransitionParameters
  | .transitionCase caseId body =>
    { caseId := caseId, expectedVersion := body.expectedVersion, toState := body.toState,
      approvalId := body.approvalId, verificationNote := body.verificationNote,
      knowledgeItemId := body.knowledgeItemId, note := body.note }
  | .resolveCase caseId body =>
    { caseId := caseId, expectedVersion := body.expectedVersion, toState := .resolved,
      verificationNote := some body.verificationNote }
  | .requestCaseFeedback caseId body =>
    { caseId := caseId, expectedVersion := body.expectedVersion, toState := .needsInformation,
      note := some body.note }

end

/-! ### The commands the routes build -/

/-- The digest of a command's input is the one of its content. -/
def Routed (sha256 : PyStr → Sha256Hex) (c : CreateCaseCommand) : Prop :=
  ∀ i ∈ c.caseInput, i.contentSha256 = sha256 (Json.obj i.content).dumps

end NetopsCopilot
