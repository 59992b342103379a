import NetopsCopilot.Application.ArtifactIntents

/-!
# Declaring and completing an upload (`netops_api/api/artifact_uploads.py`)

The two routes from the point on where the caller may write to the case: an upload URL is signed for a new
artifact and the intent is recorded (`createUploadIntent`), and an intent is completed with the metadata the
S3 client answers. What the routes are called with is kept in a record, since the history of a run refers
to it.
-/

namespace NetopsCopilot

open Txn

/-- `ArtifactUploadIntentRequest`. -/
structure ArtifactUploadIntentRequest where
  artifactKind : ArtifactKind
  contentType : PyStr
  contentLength : Nat
  sha256 : Sha256Hex
  originalFilename : Option PyStr

/-- `ArtifactUploadCapabilityResponse`. -/
structure ArtifactUploadCapabilityResponse where
  artifactId : Uuid
  intentId : Uuid
  uploadUrl : PyStr
  requiredHeaders : List (PyStr × PyStr)
  expiresAt : Instant

/-- A call of `create_upload_intent`: its caller, the request, the store it is wired to, and its clock. -/
structure UploadCall where
  organizationId : Uuid
  caseId : Uuid
  body : ArtifactUploadIntentRequest
  actorId : Uuid
  correlationId : Uuid
  settings : ArtifactStoreSettings
  sign : PutObject → Except StoreError PyStr
  now : Instant

/-- A call of `complete`, with what `head_object` answers for each key. -/
structure CompletionCall where
  organizationId : Uuid
  caseId : Uuid
  intentId : Uuid
  settings : ArtifactStoreSettings
  headObject : PyStr → Except HeadError HeadResponse
  now : Instant

namespace UploadCall

/-- The request that is signed. -/
def request (call : UploadCall) (artifactId : Uuid) : Except StoreError ArtifactUploadRequest :=
  ArtifactUploadRequest.make call.organizationId artifactId call.body.contentType
    call.body.contentLength call.body.sha256 (some call.caseId)

/-- The intent that is recorded. -/
def intent (call : UploadCall) (artifactId intentId : Uuid) (expiresAt : Instant) :
    CreateArtifactUploadIntent where
  intentId := intentId
  artifactId := artifactId
  caseId := call.caseId
  artifactKind := call.body.artifactKind
  classification := py "raw"
  contentType := call.body.contentType
  byteSize := call.body.contentLength
  sha256Hex := call.body.sha256
  originalFilename := call.body.originalFilename
  actorId := call.actorId
  correlationId := call.correlationId
  createdAt := call.now
  expiresAt := expiresAt

end UploadCall

section

variable (binds : PyStr → List PyStr)

/-- `create_upload_intent`, from its `uuid4()` calls on. -/
def createUploadIntent (call : UploadCall) : IntentProg ArtifactUploadCapabilityResponse := do
  let artifactId ← Prog.draw
  let intentId ← Prog.draw
  let uploadRequest ← Prog.lift ((call.request artifactId).mapError .store)
  let capability ← Prog.lift
    ((presignUpload call.settings call.sign uploadRequest call.now).mapError .store)
  createIntent binds call.organizationId (call.intent artifactId intentId capability.expiresAt)
  return { artifactId := artifactId, intentId := intentId, uploadUrl := capability.uploadUrl,
           requiredHeaders := capability.requiredHeaders, expiresAt := capability.expiresAt }

/-- `complete` with the adapter's `head_uploaded_object`. -/
def completeUpload (call : CompletionCall) : IntentProg CompletedArtifactUpload :=
  complete binds call.organizationId call.caseId call.intentId
    (headUploadedObject call.settings call.headObject) call.now

end

/-! ### The two object keys -/

theorem ArtifactUploadRequest.make_ok {organizationId artifactId : Uuid} {contentType : PyStr}
    {contentLength : Nat} {sha256Hex : Sha256Hex} {caseId : Option Uuid}
    {request : ArtifactUploadRequest}
    (h : ArtifactUploadRequest.make organizationId artifactId contentType contentLength sha256Hex caseId =
      .ok request) :
    request.organizationId = organizationId ∧ request.artifactId = artifactId ∧
      request.caseId = caseId := by
  unfold ArtifactUploadRequest.make at h
  split_ifs at h
  cases h
  exact ⟨rfl, rfl, rfl⟩

/-- The adapter and the repository build the same key. -/
theorem objectKey_make {organizationId artifactId caseId : Uuid} {contentType : PyStr}
    {contentLength : Nat} {sha256Hex : Sha256Hex} {request : ArtifactUploadRequest}
    (h : ArtifactUploadRequest.make organizationId artifactId contentType contentLength sha256Hex
      (some caseId) = .ok request) :
    objectKey request = storageKey organizationId caseId artifactId := by
  obtain ⟨horganization, hartifact, hcase⟩ := ArtifactUploadRequest.make_ok h
  simp only [objectKey, storageKey, horganization, hartifact, hcase, Option.elim]

/-- A granted upload was signed for the request's key. -/
theorem presignUpload_ok {settings : ArtifactStoreSettings} {sign : PutObject → Except StoreError PyStr}
    {request : ArtifactUploadRequest} {now : Instant} {capability : PresignedArtifactUpload}
    (h : presignUpload settings sign request now = .ok capability) :
    sign (putObject settings request) = .ok capability.uploadUrl := by
  unfold presignUpload at h
  split_ifs at h
  cases hsign : sign (putObject settings request) with
  | error e =>
    rw [hsign] at h
    cases h
  | ok uploadUrl =>
    rw [hsign] at h
    have h' : PresignedArtifactUpload.make uploadUrl _ _ = .ok capability := h
    unfold PresignedArtifactUpload.make at h'
    split_ifs at h'
    cases h'
    rfl

end NetopsCopilot
