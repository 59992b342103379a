import NetopsCopilot.Python.Convert
import NetopsCopilot.Postgres.Schema

/-!
# The artifact store (`netops_api/application/artifacts.py`)

An upload request and the metadata read back for it, and the S3 adapter: `presignUpload` grants an upload
of one object, `headUploadedObject` reads the metadata of the same object. The S3 client is a parameter: a
function from the object key to what it answers. A response is a dictionary whose members may be anything.
-/

namespace NetopsCopilot

/-- 100 MiB. -/
def maxContentLength : Nat := 100 * 1024 * 1024

/-- What `content_type` and `content_length` have to satisfy. -/
def contentTypeOk (s : PyStr) : Bool := !isBlank s && decide (s.length ≤ 255)

def contentLengthOk (n : Int) : Bool := decide (1 ≤ n) && decide (n ≤ maxContentLength)

/-- `ArtifactUploadRequest`, with what its `__post_init__` checks as fields. -/
structure ArtifactUploadRequest where
  organizationId : Uuid
  artifactId : Uuid
  contentType : PyStr
  contentLength : Nat
  sha256Hex : Sha256Hex
  caseId : Option Uuid
  contentTypeOk : NetopsCopilot.contentTypeOk contentType = true
  contentLengthOk : NetopsCopilot.contentLengthOk contentLength = true

/-- `ArtifactObjectMetadata`. -/
structure ArtifactObjectMetadata where
  contentType : PyStr
  contentLength : Nat
  sha256Hex : Sha256Hex
  encryptionKeyReference : PyStr
  contentTypeOk : NetopsCopilot.contentTypeOk contentType = true
  contentLengthOk : NetopsCopilot.contentLengthOk contentLength = true
  encryptionKeyReferenceOk : isBlank encryptionKeyReference = false ∧ encryptionKeyReference.length ≤ 500
deriving DecidableEq

/-- What the store raises. -/
inductive StoreError where
  | objectMissing (artifactId : Uuid)
  | runtimeError (message : PyStr)
  | valueError (message : PyStr)
  | attributeError
deriving DecidableEq

/-- `ArtifactStore.head_uploaded_object`. -/
abbrev ArtifactStore := ArtifactUploadRequest → Except StoreError ArtifactObjectMetadata

/-- `ArtifactUploadRequest(...)`. -/
def ArtifactUploadRequest.make (organizationId artifactId : Uuid) (contentType : PyStr)
    (contentLength : Nat) (sha256Hex : Sha256Hex) (caseId : Option Uuid) :
    Except StoreError ArtifactUploadRequest :=
  if hc : NetopsCopilot.contentTypeOk contentType = true then
    if hl : NetopsCopilot.contentLengthOk contentLength = true then
      .ok { organizationId := organizationId, artifactId := artifactId, contentType := contentType,
            contentLength := contentLength, sha256Hex := sha256Hex, caseId := caseId,
            contentTypeOk := hc, contentLengthOk := hl }
    else .error (.valueError (py "content_length must be between 1 byte and 100 MiB."))
  else .error (.valueError (py "content_type must contain 1 to 255 non-blank characters."))

/-- `_object_key`. -/
def objectKey (request : ArtifactUploadRequest) : PyStr :=
  py "organizations/" ++ request.organizationId.str ++ py "/cases/" ++
    request.caseId.elim (py "unassigned") Uuid.str ++ py "/artifacts/" ++ request.artifactId.str

/-- The members of `ArtifactStoreSettings` the adapter uses. -/
structure ArtifactStoreSettings where
  enabled : Bool
  bucket : PyStr
  presignTtlSeconds : Nat

/-! ### Granting an upload -/

/-- `PresignedArtifactUpload`. -/
structure PresignedArtifactUpload where
  uploadUrl : PyStr
  requiredHeaders : List (PyStr × PyStr)
  expiresAt : Instant

/-- `PresignedArtifactUpload(...)`; the time is in UTC. -/
def PresignedArtifactUpload.make (uploadUrl : PyStr) (requiredHeaders : List (PyStr × PyStr))
    (expiresAt : Instant) : Except StoreError PresignedArtifactUpload :=
  if (py "http://").isPrefixOf uploadUrl || (py "https://").isPrefixOf uploadUrl then
    if requiredHeaders.any fun (name, value) => isBlank name || isBlank value then
      .error (.valueError (py "required headers must have non-blank names and values."))
    else .ok ⟨uploadUrl, requiredHeaders, expiresAt⟩
  else .error (.valueError (py "upload_url must be an absolute HTTP(S) URL."))

/-- The parameters of `generate_presigned_url` for `put_object`. -/
structure PutObject where
  bucket : PyStr
  key : PyStr
  contentType : PyStr
  contentLength : Nat
  sha256 : PyStr
  expiresIn : Nat

/-- The upload that is signed for a request. -/
def putObject (settings : ArtifactStoreSettings) (request : ArtifactUploadRequest) : PutObject where
  bucket := settings.bucket
  key := objectKey request
  contentType := strip request.contentType
  contentLength := request.contentLength
  sha256 := request.sha256Hex.text
  expiresIn := settings.presignTtlSeconds

/-- `MinioArtifactStore.presign_upload`. -/
def presignUpload (settings : ArtifactStoreSettings) (sign : PutObject → Except StoreError PyStr)
    (request : ArtifactUploadRequest) (now : Instant) : Except StoreError PresignedArtifactUpload :=
  if settings.enabled then do
    let uploadUrl ← sign (putObject settings request)
    PresignedArtifactUpload.make uploadUrl
      [(py "content-type", strip request.contentType),
        (py "x-amz-meta-sha256", request.sha256Hex.text)]
      (now + settings.presignTtlSeconds * 1000000)
  else .error (.runtimeError (py "Artifact storage is disabled."))

/-! ### Reading the metadata back -/

/-- A response of `head_object`. -/
abbrev HeadResponse := List (PyStr × Json)

/-- What `head_object` raises: an exception with its `response` attribute, if it has one. -/
structure HeadError where
  response : Option Json

/-- `response.get(name)`. -/
def HeadResponse.get (response : HeadResponse) (name : String) : Option Json :=
  (response.find? fun m => m.1 == py name).map (·.2)

/-- `isinstance(value, str)`. -/
def Json.asStr : Json → Option PyStr
  | .str s => some s
  | _ => none

/-- `isinstance(value, int)`; a `bool` is an `int`. -/
def Json.asInt : Json → Option Int
  | .int n => some n
  | .bool b => some b.toNat
  | _ => none

mutual
/-- `str` of the value meets an integer of too many digits. -/
def Json.exceedsDigits : Json → Bool
  | .int n => decide (10 ^ maxStrDigits ≤ n.natAbs)
  | .arr items => itemsExceedDigits items
  | .obj members => membersExceedDigits members
  | _ => false

def itemsExceedDigits : List Json → Bool
  | [] => false
  | j :: items => j.exceedsDigits || itemsExceedDigits items

def membersExceedDigits : List (PyStr × Json) → Bool
  | [] => false
  | (_, j) :: members => j.exceedsDigits || membersExceedDigits members
end

/-- `str(code) in {"404", "NoSuchKey", "NotFound"}`. -/
def isNotFoundCode : Json → Except StoreError Bool
  | .str code => .ok (decide (code ∈ [py "404", py "NoSuchKey", py "NotFound"]))
  | .int n => if (Json.int n).exceedsDigits then .error digitsExceeded else .ok (decide (n = 404))
  -- the text of any other value is no code
  | code => if code.exceedsDigits then .error digitsExceeded else .ok false
where
  digitsExceeded : StoreError := .valueError (py "Exceeds the limit (4300 digits) for integer string conversion; " ++
    py "use sys.set_int_max_str_digits() to increase the limit")

/-- `_is_not_found`. -/
def isNotFound (error : HeadError) : Except StoreError Bool :=
  match error.response with
  | some (.obj response) =>
    match (HeadResponse.get response "Error").getD (.obj []) with
    | .obj details => isNotFoundCode ((HeadResponse.get details "Code").getD .null)
    -- no `get`
    | _ => .error .attributeError
  | _ => isNotFoundCode .null

/-- `_encryption_key_reference`. -/
def encryptionKeyReference (response : HeadResponse) : Option PyStr :=
  match (response.get "SSEKMSKeyId").bind Json.asStr with
  | some keyId => if isBlank keyId then algorithm else some keyId
  | none => algorithm
where
  algorithm : Option PyStr :=
    match (response.get "ServerSideEncryption").bind Json.asStr with
    | some algorithm => if isBlank algorithm then none else some (py "s3:" ++ algorithm)
    | none => none

/-- A lower-case digest. -/
def Sha256Hex.parse (s : PyStr) : Option Sha256Hex :=
  if hl : s.length = 64 then
    if hh : s.all (fun c => decide (c ∈ py "0123456789abcdef")) = true then some ⟨s, hl, hh⟩ else none
  else none

/-- `ArtifactObjectMetadata(...)`. -/
def ArtifactObjectMetadata.make (contentType : PyStr) (contentLength : Int) (sha256Hex : PyStr)
    (encryptionKeyReference : PyStr) : Except StoreError ArtifactObjectMetadata :=
  if hc : NetopsCopilot.contentTypeOk contentType = true then
    if hl : NetopsCopilot.contentLengthOk contentLength.toNat = true ∧ 0 ≤ contentLength then
      match Sha256Hex.parse sha256Hex with
      | some digest =>
        if hk : isBlank encryptionKeyReference = false ∧ encryptionKeyReference.length ≤ 500 then
          .ok { contentType := contentType, contentLength := contentLength.toNat, sha256Hex := digest,
                encryptionKeyReference := encryptionKeyReference, contentTypeOk := hc,
                contentLengthOk := hl.1, encryptionKeyReferenceOk := hk }
        else .error (.valueError
          (py "encryption_key_reference must contain 1 to 500 non-blank characters."))
      | none => .error (.valueError (py "sha256_hex must be a lowercase SHA-256 digest."))
    else .error (.valueError (py "content_length must be between 1 byte and 100 MiB."))
  else .error (.valueError (py "content_type must contain 1 to 255 non-blank characters."))

/-- `MinioArtifactStore.head_uploaded_object`. -/
def headUploadedObject (settings : ArtifactStoreSettings)
    (headObject : PyStr → Except HeadError HeadResponse) : ArtifactStore := fun request =>
  if settings.enabled then
    match headObject (objectKey request) with
    | .error error => do
      if ← isNotFound error then .error (.objectMissing request.artifactId)
      else .error (.runtimeError (py "Artifact storage metadata verification failed."))
    | .ok response =>
      let sha256Hex := match response.get "Metadata" with
        | some (.obj metadata) => (HeadResponse.get metadata "sha256").bind Json.asStr
        | _ => none
      match (response.get "ContentType").bind Json.asStr, (response.get "ContentLength").bind Json.asInt,
          sha256Hex, encryptionKeyReference response with
      | some contentType, some contentLength, some sha256Hex, some reference =>
        ArtifactObjectMetadata.make contentType contentLength sha256Hex reference
      | _, _, _, _ =>
        .error (.runtimeError (py "Artifact storage returned incomplete object metadata."))
  else .error (.runtimeError (py "Artifact storage is disabled."))

/-- A response attests a content type, a length and a digest. -/
structure HeadResponse.Attests (response : HeadResponse) (contentType : PyStr) (contentLength : Nat)
    (sha256Hex : Sha256Hex) : Prop where
  contentType : response.get "ContentType" = some (.str contentType)
  contentLength : (response.get "ContentLength").bind Json.asInt = some (contentLength : Int)
  sha256Hex : ∃ metadata, response.get "Metadata" = some (.obj metadata) ∧
    HeadResponse.get metadata "sha256" = some (.str sha256Hex.text)

theorem Json.asStr_eq {j : Option Json} {s : PyStr} (h : j.bind Json.asStr = some s) :
    j = some (.str s) := by
  obtain ⟨j, rfl, hj⟩ := Option.bind_eq_some_iff.mp h
  cases j <;> cases hj
  rfl

theorem Sha256Hex.text_injective : Function.Injective Sha256Hex.text := by
  rintro ⟨s, hs, hhex⟩ ⟨t, ht, hhex'⟩ h
  cases h
  rfl

theorem Sha256Hex.parse_text {s : PyStr} {digest : Sha256Hex} (h : Sha256Hex.parse s = some digest) :
    digest.text = s := by
  unfold Sha256Hex.parse at h
  split_ifs at h
  cases h
  rfl

theorem ArtifactObjectMetadata.make_ok {contentType : PyStr} {contentLength : Int} {sha256Hex : PyStr}
    {reference : PyStr} {metadata : ArtifactObjectMetadata}
    (h : ArtifactObjectMetadata.make contentType contentLength sha256Hex reference = .ok metadata) :
    metadata.contentType = contentType ∧ (metadata.contentLength : Int) = contentLength ∧
      metadata.sha256Hex.text = sha256Hex := by
  unfold ArtifactObjectMetadata.make at h
  split_ifs at h with hc hl hk
  · split at h
    next digest hdigest =>
      cases h
      have hlength : ((contentLength.toNat : Nat) : Int) = contentLength := Int.toNat_of_nonneg hl.2
      exact ⟨rfl, hlength, Sha256Hex.parse_text hdigest⟩
    next => cases h
  · split at h <;> cases h

/-- The metadata that is read is what the object under the request's key attests. -/
theorem headUploadedObject_attests {settings : ArtifactStoreSettings}
    {headObject : PyStr → Except HeadError HeadResponse} {request : ArtifactUploadRequest}
    {metadata : ArtifactObjectMetadata}
    (h : headUploadedObject settings headObject request = .ok metadata) :
    ∃ response, headObject (objectKey request) = .ok response ∧
      response.Attests metadata.contentType metadata.contentLength metadata.sha256Hex := by
  unfold headUploadedObject at h
  split_ifs at h
  split at h
  next error _ =>
    cases hmissing : isNotFound error with
    | error e => simp [hmissing, bind, Except.bind] at h
    | ok missing => cases missing <;> simp [hmissing, bind, Except.bind] at h
  next response hresponse =>
    refine ⟨response, hresponse, ?_⟩
    dsimp only at h
    split at h
    next contentType contentLength digest reference htype hlength hdigest _ =>
      obtain ⟨rfl, hlen, hdig⟩ := ArtifactObjectMetadata.make_ok h
      refine ⟨Json.asStr_eq htype, hlen ▸ hlength, ?_⟩
      split at hdigest
      next members hmembers => exact ⟨members, hmembers, hdig ▸ Json.asStr_eq hdigest⟩
      next => cases hdigest
    next => cases h

end NetopsCopilot
