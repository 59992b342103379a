import NetopsCopilot.Api.ArtifactUploads
import NetopsCopilot.Api.CaseReads
import NetopsCopilot.Api.ConfigPreview
import NetopsCopilot.Api.Events
import NetopsCopilot.Application.ArtifactStatus
import NetopsCopilot.Application.ScopedStatements

/-!
# Requests about cases (`netops_api/api`)

Every route but the creation of a case, each in the transaction of its request: `get_tenant_connection` commits
when the route returns, and rolls back when it raises or a deferred trigger refuses the commit.
-/

namespace NetopsCopilot

open Txn

/-! ### Routes in a transaction -/

/-- A route: it reads and changes the database of its transaction, and may raise. -/
abbrev Route (α : Type) := ExceptT RouteError (StateM Work) α

namespace Route

variable {α β : Type}

/-- The calls of the case repository. -/
def ofCase (draws : Nat → Uuid) (p : CaseProg α) : Route α := fun w =>
  let q := p.eval CaseStmt.onWork draws w []
  (q.1.mapError .case, q.2)

/-- The calls of the upload-intent repository, with the exceptions that the route makes of theirs. -/
def ofIntent (draws : Nat → Uuid) (mapped : IntentError → RouteError) (p : IntentProg α) : Route α := fun w =>
  let q := p.eval IntentStmt.onWork draws w []
  (q.1.mapError mapped, q.2)

/-- A read. -/
def ofQuery (f : Db → Except RouteError α) : Route α := fun w => (f w.db, w)

/-- A check that reads nothing. -/
def check (x : Except CaseError Unit) : Route Unit := fun w => (x.mapError .case, w)

end Route

/-! ### Uploads -/

/-- What the object store is wired to. -/
structure StoreClients where
  settings : ArtifactStoreSettings
  sign : PutObject → Except StoreError PyStr
  headObject : PyStr → Except HeadError HeadResponse

/-- The write role of the upload routes. -/
def requireWriteRole (p : AuthenticatedPrincipal) : Except CaseError Unit :=
  if p.requireAnyRole writeRoles then .ok () else .error caseWriteForbidden

/-- `get_artifact_store`. -/
def getArtifactStore : Option StoreClients → Except RouteError StoreClients
  | some store => .ok store
  | none => .error (.case (.api 503 (py "artifact_storage_unavailable")
      (py "Artifact upload storage is not configured for this API instance.")))

/-- The content types of a kind in `create_upload_intent`. -/
def ArtifactUploadIntentRequest.checkContentType (body : ArtifactUploadIntentRequest) : Except CaseError Unit :=
  if body.artifactKind = .networkConfiguration ∧
      body.contentType ∉ [py "text/plain", py "application/json"] then
    .error (.api 422 (py "invalid_artifact_metadata")
      (py "Config artifacts require text/plain or application/json."))
  else if body.artifactKind = .incidentAudio ∧ (py "audio/").isPrefixOf body.contentType = false then
    .error (.api 422 (py "invalid_artifact_metadata") (py "Audio artifacts require an audio content type."))
  else .ok ()

/-- `artifact_storage_unavailable`. -/
def artifactStorageUnavailable : RouteError :=
  .case (.api 503 (py "artifact_storage_unavailable") (py "Artifact upload storage is unavailable."))

/-- The exceptions in `create_upload_intent`. -/
def mapCreateIntentError : IntentError → RouteError
  | .store (.runtimeError _) => artifactStorageUnavailable
  | e => .intent e

/-- The exceptions in `complete_upload_intent`. -/
def mapCompletionError : IntentError → RouteError
  | .notFound _ => .case caseNotFound
  | .expired _ =>
    .case (.api 409 (py "artifact_upload_intent_expired") (py "The upload intent has expired."))
  | .store (.objectMissing _) => .case (.api 409 (py "artifact_upload_not_found")
      (py "No uploaded object is available for this intent yet."))
  | .verification _ => .case (.api 409 (py "artifact_upload_verification_failed")
      (py "Uploaded object metadata did not match the signed declaration."))
  | .store (.runtimeError _) => artifactStorageUnavailable
  | e => .intent e

/-! ### Requests -/

/-- What the application is wired to. -/
structure ApiEnvironment where
  cursors : CursorLibrary
  times : Timestamps
  ilike : PyStr → PyStr → Bool
  sha256 : PyStr → Sha256Hex
  uuid5 : PyStr → Uuid
  unicode : UnicodeData
  binds : PyStr → List PyStr
  store : Option StoreClients

/-- A request about cases. -/
inductive CaseRequest where
  | listCases (query : CaseListQuery)
  | getCase (caseId : Uuid)
  | getCaseTimeline (caseId : Uuid)
  | replayCaseEvents (lastEventId : Option PyStr) (limit : Int)
  | listCaseArtifactStatuses (caseId : Uuid)
  | previewCaseConfig (caseId : Uuid) (config : PyStr)
  | applyTransition (request : TransitionRequest)
  | createUploadIntent (caseId : Uuid) (body : ArtifactUploadIntentRequest)
  | completeUploadIntent (caseId intentId : Uuid)

/-- The body of the answer. -/
inductive RouteReply where
  | cases (page : CaseListResponse)
  | detail (detail : CaseDetailResponse)
  | timeline (entries : List CaseTimelineEntry)
  | events (stream : PyStr)
  | statuses (items : List ArtifactStatus)
  | preview (preview : ConfigPreview)
  | case (case : CaseResponse)
  | capability (capability : ArtifactUploadCapabilityResponse)
  | completed (upload : CompletedArtifactUpload)

section

variable (env : ApiEnvironment) (p : AuthenticatedPrincipal) (context : RequestContext) (draws : Nat → Uuid)

/-- The text of `config_preview_limit_exceeded`. -/
def configPreviewLimitText : PyStr :=
  py "The config preview exceeds the maximum of " ++ natText configPreviewMaxBytes ++ py " bytes or " ++
    natText configPreviewMaxLines ++ py " lines."

/-- The exceptions in `preview_case_config`. -/
def mapPreviewError : ConfigPreviewError → RouteError
  | .limit _ => .case (.api 413 (py "config_preview_limit_exceeded") configPreviewLimitText)
  | .unicodeEncodeError => .unicodeEncodeError

/-- `create_upload_intent`; `get_artifact_store` is resolved before. -/
def createUploadIntentRoute (caseId : Uuid) (body : ArtifactUploadIntentRequest) :
    Route ArtifactUploadCapabilityResponse := do
  let store ← Route.ofQuery fun _ => getArtifactStore env.store
  Route.check (requireWriteRole p)
  Route.ofCase draws (requireVisibleCase p caseId)
  Route.check body.checkContentType
  Route.ofIntent draws mapCreateIntentError (createUploadIntent env.binds
    { organizationId := p.organizationId, caseId := caseId, body := body,
      actorId := env.uuid5 (p.issuer ++ [0x1f] ++ p.subject), correlationId := context.correlationId,
      settings := store.settings, sign := store.sign, now := context.now })

/-- `complete_upload_intent`; `get_artifact_store` is resolved before. -/
def completeUploadIntentRoute (caseId intentId : Uuid) : Route CompletedArtifactUpload := do
  let store ← Route.ofQuery fun _ => getArtifactStore env.store
  Route.check (requireWriteRole p)
  Route.ofCase draws (requireVisibleCase p caseId)
  Route.ofIntent draws mapCompletionError (completeUpload env.binds
    { organizationId := p.organizationId, caseId := caseId, intentId := intentId, settings := store.settings,
      headObject := store.headObject, now := context.now })

/-- `list_case_artifact_statuses`. -/
def listCaseArtifactStatusesRoute (caseId : Uuid) : Route (List ArtifactStatus) := do
  Route.check (requireCaseReadAccess p)
  Route.ofCase draws (requireVisibleCase p caseId)
  Route.ofQuery fun db => .ok (listForCase p.organizationId caseId db)

/-- `preview_case_config`. -/
def previewCaseConfigRoute (caseId : Uuid) (config : PyStr) : Route ConfigPreview := do
  Route.check (requirePreviewAccess p)
  Route.ofCase draws (requireVisibleCase p caseId)
  Route.ofQuery fun _ => (previewCiscoConfig env.unicode env.sha256 config).mapError mapPreviewError

/-- The route of a request. -/
def CaseRequest.route : CaseRequest → Route RouteReply
  | .listCases query => .cases <$> Route.ofQuery (listCasesRoute env.cursors env.times env.ilike p query)
  | .getCase caseId => .detail <$> Route.ofCase draws (getCaseRoute p caseId)
  | .getCaseTimeline caseId => .timeline <$> Route.ofCase draws (getCaseTimelineRoute p caseId)
  | .replayCaseEvents lastEventId limit => .events <$> Route.ofQuery fun db =>
    (replayCaseEventsRoute env.cursors.uuid (fun t => (env.times.utc t).isoformat) p lastEventId limit db).mapError
      .case
  | .listCaseArtifactStatuses caseId => .statuses <$> listCaseArtifactStatusesRoute p draws caseId
  | .previewCaseConfig caseId config => .preview <$> previewCaseConfigRoute env p draws caseId config
  | .applyTransition request =>
    .case <$> Route.ofCase draws (applyTransitionRoute env.uuid5 p context request.parameters)
  | .createUploadIntent caseId body =>
    .capability <$> createUploadIntentRoute env p context draws caseId body
  | .completeUploadIntent caseId intentId =>
    .completed <$> completeUploadIntentRoute env p context draws caseId intentId

/-- The answer to a request, and the database that its transaction leaves. -/
def CaseRequest.serve (request : CaseRequest) (db : Db) : Except ErrorAnswer RouteReply × Db :=
  match request.route env p context draws { db := db } with
  | (.error e, _) => (.error e.answer, db)
  | (.ok reply, w) =>
    if w.changes.all fun change => change.passes w.db then (.ok reply, w.db)
    else (.error tenantContextUnavailable, db)

end

end NetopsCopilot
