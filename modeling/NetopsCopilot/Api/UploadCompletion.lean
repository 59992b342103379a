import NetopsCopilot.Api.HiddenCases

/-!
# Answers of `complete_upload_intent`

What the object store answers passes type checks in the adapter and is then given to a dataclass that validates it.
The route maps a response that fails the type checks, but not the `ValueError` of the dataclass, nor what
`_is_not_found` raises on an exception of another shape, nor a key reference that the driver cannot encode. These are
all: every other response is answered with a completion or an error that the route documents
(`complete_upload_intent_answered_iff`).
-/

namespace NetopsCopilot

open Txn

/-! ### Responses of the object store -/

/-- `_is_not_found` reads the exception's error or its code and raises. -/
def HeadError.Unreadable (error : HeadError) : Prop :=
  ∃ response, error.response = some (.obj response) ∧
    ((∃ value, HeadResponse.get response "Error" = some value ∧ ∀ details, value ≠ .obj details) ∨
      ∃ details code, HeadResponse.get response "Error" = some (.obj details) ∧
        HeadResponse.get details "Code" = some code ∧ code.exceedsDigits = true)

/-- The members of the response, each of its type. -/
structure HeadResponse.Shows (response : HeadResponse) (contentType : PyStr) (contentLength : Int)
    (sha256Hex reference : PyStr) : Prop where
  contentType : (response.get "ContentType").bind Json.asStr = some contentType
  contentLength : (response.get "ContentLength").bind Json.asInt = some contentLength
  sha256Hex : ∃ metadata, response.get "Metadata" = some (.obj metadata) ∧
    (HeadResponse.get metadata "sha256").bind Json.asStr = some sha256Hex
  reference : encryptionKeyReference response = some reference

/-- What `ArtifactObjectMetadata.__post_init__` demands. -/
def ValidMetadata (contentType : PyStr) (contentLength : Int) (sha256Hex reference : PyStr) : Prop :=
  contentTypeOk contentType = true ∧ (1 ≤ contentLength ∧ contentLength ≤ maxContentLength) ∧
    (Sha256Hex.parse sha256Hex).isSome = true ∧ isBlank reference = false ∧ reference.length ≤ 500

/-- What `head_object` answers for a pending intent leaves the route as an exception that it does not map. -/
def HeadEscapes (intent : IntentRow) : Except HeadError HeadResponse → Prop
  | .error error => error.Unreadable
  | .ok response => ∃ contentType contentLength sha256Hex reference,
    response.Shows contentType contentLength sha256Hex reference ∧
      (¬ValidMetadata contentType contentLength sha256Hex reference ∨
        contentType = intent.contentType ∧ contentLength = intent.byteSize ∧ sha256Hex = intent.sha256.text ∧
          encodeUtf8 reference = none)

/-! ### Outcomes -/

/-- The errors that the route documents, next to those of the roles. -/
def RouteError.Documented (e : RouteError) : Prop := e.answer.statusCode ∈ [404, 409, 503]

/-- The intent that a request completes. -/
def Db.intentRows (db : Db) (organizationId caseId intentId : Uuid) : List IntentRow :=
  db.intents.filter fun i => i.organizationId == organizationId && i.caseId == caseId && i.id == intentId

/-- The case is in the asset scope of the caller. -/
def Db.ShowsCase (db : Db) (p : AuthenticatedPrincipal) (caseId : Uuid) : Prop :=
  ∃ c, db.caseRows p.organizationId caseId = [c] ∧ ∀ assetId ∈ c.assetId, assetId ∈ p.assetIds

/-- The request finds a pending intent in time, and either the intent is none that can be requested or the answer of
the object store escapes. -/
structure CompletionEscapes (env : ApiEnvironment) (p : AuthenticatedPrincipal) (now : Instant)
    (caseId intentId : Uuid) (store : StoreClients) (intent : IntentRow) (db : Db) : Prop where
  wired : env.store = some store
  role : p.requireAnyRole writeRoles = true
  visible : db.ShowsCase p caseId
  found : db.intentRows p.organizationId caseId intentId = [intent]
  pending : intent.status = .pending
  inTime : now < intent.expiresAt
  escapes : contentTypeOk intent.contentType = false ∨ store.settings.enabled = true ∧
    HeadEscapes intent (store.headObject (storageKey p.organizationId intent.caseId intent.artifactId))

/-- A completion, or a documented error that leaves the database as it was. -/
def CompletionAnswered (p : AuthenticatedPrincipal) (db : Db) (r : Except ErrorAnswer RouteReply × Db) : Prop :=
  match r.1 with
  | .ok reply => ∃ upload, reply = .completed upload
  | .error answer => r.2 = db ∧
    (answer.statusCode ∈ [404, 409, 503] ∨ answer.statusCode = 403 ∧ p.requireAnyRole writeRoles = false)

/-! ### The adapter -/

section

variable {settings : ArtifactStoreSettings} {headObject : PyStr → Except HeadError HeadResponse}
  {request : ArtifactUploadRequest}

/-- An exception of the adapter that the route maps. -/
def StoreError.Mapped : StoreError → Prop
  | .objectMissing _ | .runtimeError _ => True
  | .valueError _ | .attributeError => False

theorem isNotFoundCode_error_iff (code : Json) : (∃ e, isNotFoundCode code = .error e) ↔ code.exceedsDigits = true := by
  unfold isNotFoundCode
  cases code with
  | str s => exact iff_of_false (fun ⟨_, h⟩ => (by cases h)) Bool.false_ne_true
  | _ =>
    dsimp only
    split_ifs with h
    · exact iff_of_true ⟨_, rfl⟩ h
    · exact iff_of_false (fun ⟨_, h'⟩ => (by cases h')) h

theorem isNotFoundCode_error {code : Json} {e : StoreError} (h : isNotFoundCode code = .error e) : ¬e.Mapped := by
  unfold isNotFoundCode at h
  cases code with
  | str s => cases h
  | _ =>
    dsimp only at h
    split_ifs at h
    cases h
    exact id

theorem isNotFound_error {error : HeadError} {e : StoreError} (h : isNotFound error = .error e) : ¬e.Mapped := by
  unfold isNotFound at h
  split at h
  · split at h
    · exact isNotFoundCode_error h
    · cases h
      exact id
  · exact isNotFoundCode_error h

/-- When `_is_not_found` raises. -/
theorem isNotFound_error_iff (error : HeadError) : (∃ e, isNotFound error = .error e) ↔ error.Unreadable := by
  unfold isNotFound HeadError.Unreadable
  have hnull : ¬∃ e, isNotFoundCode .null = .error e := fun h => by
    simpa [Json.exceedsDigits] using (isNotFoundCode_error_iff .null).mp h
  rcases hresponse : error.response with _ | response
  · exact iff_of_false hnull fun ⟨_, h, _⟩ => by cases h
  cases response with
  | obj response =>
    dsimp only
    cases herror : HeadResponse.get response "Error" with
    | none =>
      refine iff_of_false hnull ?_
      rintro ⟨_, h, ⟨_, h', -⟩ | ⟨_, _, h', -⟩⟩ <;> cases h <;> rw [herror] at h' <;> cases h'
    | some value =>
      cases value with
      | obj details =>
        show (∃ e, isNotFoundCode _ = _) ↔ _
        rw [isNotFoundCode_error_iff]
        constructor
        · intro hexceeds
          cases hcode : HeadResponse.get details "Code" with
          | none =>
            rw [hcode] at hexceeds
            cases hexceeds
          | some code =>
            rw [hcode] at hexceeds
            exact ⟨_, rfl, Or.inr ⟨details, code, herror, hcode, hexceeds⟩⟩
        · rintro ⟨_, h, ⟨value, h', hnot⟩ | ⟨details', code, h', hcode, hexceeds⟩⟩
          · cases h
            rw [herror] at h'
            cases h'
            exact absurd rfl (hnot details)
          · cases h
            rw [herror] at h'
            cases h'
            rwa [hcode]
      | _ => exact iff_of_true ⟨_, rfl⟩ ⟨_, rfl, Or.inl ⟨_, herror, fun _ h => by cases h⟩⟩
  | _ => exact iff_of_false hnull fun ⟨_, h, _⟩ => by cases h

theorem HeadResponse.get_cons (name : PyStr) (value : Json) (response : HeadResponse) (key : String) :
    HeadResponse.get ((name, value) :: response) key = if name = py key then some value else response.get key := by
  unfold HeadResponse.get
  rw [List.find?_cons]
  by_cases hname : name = py key
  · simp [hname]
  · simp [hname, beq_false_of_ne hname]

/-- A response whose members are of their types is validated. -/
theorem head_of_shows {response : HeadResponse} {contentType sha256Hex reference : PyStr} {contentLength : Int}
    (henabled : settings.enabled = true) (hresponse : headObject (objectKey request) = .ok response)
    (hshows : response.Shows contentType contentLength sha256Hex reference) :
    headUploadedObject settings headObject request =
      ArtifactObjectMetadata.make contentType contentLength sha256Hex reference := by
  obtain ⟨metadata, hmetadata, hsha256⟩ := hshows.sha256Hex
  unfold headUploadedObject
  rw [if_pos henabled, hresponse]
  dsimp only
  rw [hshows.contentType, hshows.contentLength, hmetadata, hshows.reference]
  dsimp only
  rw [hsha256]

/-- Any other response is a `RuntimeError`. -/
theorem head_of_not_shows {response : HeadResponse} (henabled : settings.enabled = true)
    (hresponse : headObject (objectKey request) = .ok response)
    (hshows : ∀ contentType contentLength sha256Hex reference,
      ¬response.Shows contentType contentLength sha256Hex reference) :
    ∃ message, headUploadedObject settings headObject request = .error (.runtimeError message) := by
  unfold headUploadedObject
  rw [if_pos henabled, hresponse]
  dsimp only
  split
  next contentType contentLength sha256Hex reference htype hlength hsha256 hreference =>
    refine absurd ⟨htype, hlength, ?_, hreference⟩ (hshows contentType contentLength sha256Hex reference)
    split at hsha256
    next metadata hmetadata => exact ⟨metadata, hmetadata, hsha256⟩
    next => cases hsha256
  next => exact ⟨_, rfl⟩

theorem contentLengthOk_toNat_iff (n : Int) :
    contentLengthOk n.toNat = true ∧ 0 ≤ n ↔ 1 ≤ n ∧ n ≤ maxContentLength := by
  unfold contentLengthOk
  rw [Bool.and_eq_true, decide_eq_true_eq, decide_eq_true_eq]
  omega

/-- When the metadata is made. -/
theorem metadataMake_ok_iff (contentType : PyStr) (contentLength : Int) (sha256Hex reference : PyStr) :
    (∃ metadata, ArtifactObjectMetadata.make contentType contentLength sha256Hex reference = .ok metadata) ↔
      ValidMetadata contentType contentLength sha256Hex reference := by
  unfold ArtifactObjectMetadata.make ValidMetadata
  rw [← contentLengthOk_toNat_iff]
  by_cases htype : contentTypeOk contentType = true
  · rw [dif_pos htype]
    by_cases hlength : contentLengthOk contentLength.toNat = true ∧ 0 ≤ contentLength
    · rw [dif_pos hlength]
      cases hdigest : Sha256Hex.parse sha256Hex with
      | none => exact iff_of_false (fun ⟨_, h⟩ => (by cases h)) fun h => Bool.false_ne_true h.2.2.1
      | some digest =>
        dsimp only
        by_cases hreference : isBlank reference = false ∧ reference.length ≤ 500
        · rw [dif_pos hreference]
          exact iff_of_true ⟨_, rfl⟩ ⟨htype, hlength, rfl, hreference⟩
        · rw [dif_neg hreference]
          exact iff_of_false (fun ⟨_, h⟩ => (by cases h)) fun h => hreference h.2.2.2
    · rw [dif_neg hlength]
      exact iff_of_false (fun ⟨_, h⟩ => (by cases h)) fun h => hlength h.2.1
  · rw [dif_neg htype]
    exact iff_of_false (fun ⟨_, h⟩ => (by cases h)) fun h => htype h.1

theorem metadataMake_reference {contentType : PyStr} {contentLength : Int} {sha256Hex reference : PyStr}
    {metadata : ArtifactObjectMetadata}
    (h : ArtifactObjectMetadata.make contentType contentLength sha256Hex reference = .ok metadata) :
    metadata.encryptionKeyReference = reference := by
  unfold ArtifactObjectMetadata.make at h
  split_ifs at h
  · split at h <;> cases h
    rfl
  · split at h <;> cases h

theorem metadataMake_error {contentType : PyStr} {contentLength : Int} {sha256Hex reference : PyStr} {e : StoreError}
    (h : ArtifactObjectMetadata.make contentType contentLength sha256Hex reference = .error e) : ¬e.Mapped := by
  unfold ArtifactObjectMetadata.make at h
  split_ifs at h
  · split at h
    · cases h
    · cases h
      exact id
  · split at h
    · cases h
      exact id
    · cases h
      exact id
  · cases h
    exact id
  · cases h
    exact id

end

/-! ### The statements of `complete` -/

/-- The names that the statements in front of the insertion need. -/
theorem bindNames_given :
    (∀ name ∈ bindNames selectIntentForCompletionText,
      name ∈ [py "organization_id", py "case_id", py "intent_id"]) ∧
    ∀ name ∈ bindNames selectIntentCompletedAtText, name ∈ [py "intent_id"] := by
  decide +kernel

section

variable {binds : PyStr → List PyStr} {organizationId caseId intentId : Uuid} {draws : Nat → Uuid} {w : Work}
  {saves : List Work}

/-- The exceptions of the program that the route maps, or that `get_tenant_connection` does. -/
def IntentError.Documented (e : IntentError) : Prop := (mapCompletionError e).Documented

theorem documented_store_iff (e : StoreError) : (IntentError.store e).Documented ↔ e.Mapped := by
  cases e <;> simp [IntentError.Documented, RouteError.Documented, mapCompletionError, artifactStorageUnavailable,
    RouteError.answer, internalError, StoreError.Mapped]

/-- What `get_tenant_connection` answers is documented. -/
theorem documented_of_unavailable {e : IntentError} (h : (mapCompletionError e).answer = tenantContextUnavailable) :
    e.Documented := by
  unfold IntentError.Documented RouteError.Documented
  rw [h]
  decide

/-- A statement all of whose names are given. -/
theorem executeText_given {sql : PyStr} {parameters : List PyStr} (h : ∀ name ∈ binds sql, name ∈ parameters)
    (s : IntentStmt) : executeText binds sql parameters s = Prog.execute .db s := by
  unfold executeText
  rw [List.find?_eq_none.mpr]
  intro name hname
  simpa using h name hname

theorem raises_executeText (sql : PyStr) (parameters : List PyStr) (s : IntentStmt) :
    (executeText binds sql parameters s).Raises IntentError.Documented := by
  unfold executeText
  split
  · exact documented_of_unavailable rfl
  · exact Prog.raises_execute (fun _ => documented_of_unavailable rfl) s

theorem raises_scalarOne {α : Type} (rows : List α) :
    (Prog.lift (scalarOne rows) : IntentProg α).Raises IntentError.Documented := by
  refine Prog.raises_lift fun e h => ?_
  rcases rows with _ | ⟨_, _ | ⟨_, _⟩⟩ <;> cases h <;> exact documented_of_unavailable rfl

/-- The statements that record a completion raise database errors only. -/
theorem raises_recordCompletion {intent : IntentRow} {metadata : ArtifactObjectMetadata} {completedAt : Instant}
    (hsent : encodeUtf8 metadata.encryptionKeyReference ≠ none) :
    (recordCompletion binds organizationId intent metadata completedAt).Raises IntentError.Documented := by
  unfold recordCompletion
  refine (Prog.raises_lift fun e h => ?_).bind fun _ => ?_
  · unfold sentText at h
    split at h
    next => cases h
    next hnone => exact absurd hnone hsent
  refine (raises_executeText _ _ _).bind fun _ => Prog.raises_draw.bind fun processingId => ?_
  refine (raises_executeText _ _ _).bind fun _ => Prog.Raises.bind ?_ fun _ => ?_
  · unfold insertCompletionOutbox
    refine (raises_executeText _ _ _).bind fun versions => (raises_scalarOne versions).bind fun version => ?_
    refine Prog.raises_draw.bind fun eventId => (raises_executeText _ _ _).bind fun _ => ?_
    exact Prog.raises_draw.bind fun outboxId => raises_executeText _ _ _
  refine (raises_executeText _ _ _).bind fun _ => Prog.raises_draw.bind fun auditEventId => ?_
  exact (raises_executeText _ _ _).bind fun _ => trivial

/-- The row of an intent that was read, with those that bear its id. -/
theorem ends_completed {store : ArtifactStore} {now : Instant} {intent : IntentRow}
    (hchecks : ∀ r ∈ w.db.intents, r.checks = true) (hintent : intent ∈ w.db.intents)
    (hcompleted : intent.status = .completed) {e : IntentError}
    (h : ((completeLoaded bindNames organizationId store now intent).eval IntentStmt.onWork draws w saves).1 =
      .error e) : e.Documented := by
  unfold completeLoaded loadCompletedAt at h
  rw [if_pos hcompleted, executeText_given bindNames_given.2] at h
  have hrow : intent ∈ w.db.intents.filter (·.id == intent.id) := List.mem_filter.mpr ⟨hintent, by simp⟩
  -- the rows that `_SELECT_INTENT_COMPLETED_AT` answers
  have hselect : IntentStmt.onWork (.selectIntentCompletedAt intent.id) w =
      .ok ((w.db.intents.filter (·.id == intent.id)).map (·.completedAt), w.record []) := rfl
  simp only [Prog.execute, Prog.bind_eq, Prog.elim, Prog.eval, hselect] at h
  rcases hrows : w.db.intents.filter (·.id == intent.id) with _ | ⟨r, _ | ⟨r', rows⟩⟩
  · rw [hrows] at hrow
    cases hrow
  · rw [hrows, List.mem_singleton] at hrow
    subst hrow
    have hcompletedAt : intent.completedAt.isSome = true := by
      have hchecked := hchecks _ hintent
      rw [IntentRow.checks, hcompleted, Bool.and_eq_true] at hchecked
      simpa using hchecked.2
    obtain ⟨completedAt, hcompletedAt⟩ := Option.isSome_iff_exists.mp hcompletedAt
    rw [hrows, List.map_cons, hcompletedAt] at h
    cases h
  · rw [hrows] at h
    cases h
    exact documented_of_unavailable rfl

/-- A response shows one value for each member. -/
theorem HeadResponse.Shows.unique {response : HeadResponse} {contentType contentType' : PyStr}
    {contentLength contentLength' : Int} {sha256Hex sha256Hex' reference reference' : PyStr}
    (h : response.Shows contentType contentLength sha256Hex reference)
    (h' : response.Shows contentType' contentLength' sha256Hex' reference') :
    contentType = contentType' ∧ contentLength = contentLength' ∧ sha256Hex = sha256Hex' ∧ reference = reference' := by
  obtain ⟨metadata, hmetadata, hsha256⟩ := h.sha256Hex
  obtain ⟨metadata', hmetadata', hsha256'⟩ := h'.sha256Hex
  rw [hmetadata] at hmetadata'
  cases hmetadata'
  exact ⟨Option.some.inj (h.contentType.symm.trans h'.contentType),
    Option.some.inj (h.contentLength.symm.trans h'.contentLength), Option.some.inj (hsha256.symm.trans hsha256'),
    Option.some.inj (h.reference.symm.trans h'.reference)⟩

/-- A call behind the adapter. -/
def completeWith (binds : PyStr → List PyStr) (organizationId : Uuid) (now : Instant) (intent : IntentRow)
    (head : Except StoreError ArtifactObjectMetadata) : IntentProg CompletedArtifactUpload := do
  let metadata ← Prog.lift (head.mapError .store)
  Prog.lift (verifyMetadata intent metadata)
  recordCompletion binds organizationId intent metadata now

/-- All exceptions of a call are documented. -/
def EndsDocumented (r : Except IntentError CompletedArtifactUpload) : Prop := ∀ e, r = .error e → e.Documented

theorem ends_error_iff (e : IntentError) : EndsDocumented (.error e) ↔ e.Documented :=
  ⟨fun h => h e rfl, fun h e' he => by cases he; exact h⟩

/-- Metadata that was read is compared with the intent and recorded. -/
theorem ends_metadata_iff {now : Instant} {intent : IntentRow} {metadata : ArtifactObjectMetadata} :
    EndsDocumented ((completeWith binds organizationId now intent (.ok metadata)).eval IntentStmt.onWork draws w saves).1 ↔
      ¬(metadata.contentType = intent.contentType ∧ metadata.contentLength = intent.byteSize ∧
        metadata.sha256Hex = intent.sha256 ∧ encodeUtf8 metadata.encryptionKeyReference = none) := by
  show EndsDocumented (((Prog.lift (verifyMetadata intent metadata)).elim
    (fun _ => recordCompletion binds organizationId intent metadata now) .raise).eval IntentStmt.onWork draws w saves).1 ↔ _
  by_cases hsame : metadata.contentType = intent.contentType ∧ metadata.contentLength = intent.byteSize ∧
      metadata.sha256Hex = intent.sha256
  · have hverify : verifyMetadata intent metadata = .ok () := if_neg (by
      rintro (h | h | h)
      · exact h hsame.1
      · exact h hsame.2.1
      · exact h hsame.2.2)
    rw [hverify]
    by_cases hsent : encodeUtf8 metadata.encryptionKeyReference = none
    · refine iff_of_false (fun h => ?_) (not_not.mpr ⟨hsame.1, hsame.2.1, hsame.2.2, hsent⟩)
      have hfail : sentText metadata.encryptionKeyReference = .error .unicodeEncodeError := by
        unfold sentText
        rw [hsent]
      have hraise : ((recordCompletion binds organizationId intent metadata now).eval IntentStmt.onWork draws w
          saves).1 = .error .unicodeEncodeError := by
        unfold recordCompletion
        rw [hfail]
        rfl
      have hnot : ¬(500 : Nat) ∈ [404, 409, 503] := by decide
      exact hnot (h _ hraise)
    · refine iff_of_true (fun e he => ?_) fun h => hsent h.2.2.2
      exact (raises_recordCompletion hsent).eval he
  · have hverify : ∃ message, verifyMetadata intent metadata = .error (.verification message) := ⟨_, if_pos (by
      by_contra hall
      push Not at hall
      exact hsame hall)⟩
    obtain ⟨message, hverify⟩ := hverify
    rw [hverify]
    refine iff_of_true ((ends_error_iff _).mpr ?_) fun h => hsame ⟨h.1, h.2.1, h.2.2.1⟩
    exact (by decide : (409 : Nat) ∈ [404, 409, 503])

/-- What a call makes of the answer of the object store. -/
theorem ends_head_iff {settings : ArtifactStoreSettings} {headObject : PyStr → Except HeadError HeadResponse}
    {request : ArtifactUploadRequest} {now : Instant} {intent : IntentRow} (henabled : settings.enabled = true) :
    EndsDocumented ((completeWith binds organizationId now intent (headUploadedObject settings headObject request)).eval
        IntentStmt.onWork draws w saves).1 ↔
      ¬HeadEscapes intent (headObject (objectKey request)) := by
  cases hhead : headObject (objectKey request) with
  | error error =>
    show _ ↔ ¬error.Unreadable
    rw [← isNotFound_error_iff]
    have hmade : headUploadedObject settings headObject request = (isNotFound error).bind fun missing =>
        if missing then .error (.objectMissing request.artifactId)
        else .error (.runtimeError (py "Artifact storage metadata verification failed.")) := by
      unfold headUploadedObject
      rw [if_pos henabled, hhead]
      rfl
    rw [hmade]
    cases hmissing : isNotFound error with
    | error e =>
      refine iff_of_false (fun h => ?_) (not_not.mpr ⟨e, rfl⟩)
      exact isNotFound_error hmissing ((documented_store_iff _).mp (h _ rfl))
    | ok missing =>
      refine iff_of_true ?_ fun ⟨_, h⟩ => by cases h
      cases missing <;> exact (ends_error_iff _).mpr ((documented_store_iff _).mpr trivial)
  | ok response =>
    by_cases hshows : ∃ contentType contentLength sha256Hex reference,
        response.Shows contentType contentLength sha256Hex reference
    swap
    · obtain ⟨message, hmade⟩ := head_of_not_shows henabled hhead fun contentType contentLength sha256Hex reference h =>
        hshows ⟨contentType, contentLength, sha256Hex, reference, h⟩
      rw [hmade]
      refine iff_of_true ((ends_error_iff _).mpr ((documented_store_iff _).mpr trivial)) ?_
      rintro ⟨contentType, contentLength, sha256Hex, reference, h, -⟩
      exact hshows ⟨contentType, contentLength, sha256Hex, reference, h⟩
    obtain ⟨contentType, contentLength, sha256Hex, reference, hshows⟩ := hshows
    rw [head_of_shows henabled hhead hshows]
    have hescapes : HeadEscapes intent (.ok response) ↔
        ¬ValidMetadata contentType contentLength sha256Hex reference ∨ contentType = intent.contentType ∧
          contentLength = intent.byteSize ∧ sha256Hex = intent.sha256.text ∧ encodeUtf8 reference = none := by
      constructor
      · rintro ⟨_, _, _, _, hshows', hcase⟩
        obtain ⟨rfl, rfl, rfl, rfl⟩ := hshows.unique hshows'
        exact hcase
      · exact fun hcase => ⟨_, _, _, _, hshows, hcase⟩
    rw [hescapes]
    cases hmade : ArtifactObjectMetadata.make contentType contentLength sha256Hex reference with
    | error e =>
      refine iff_of_false (fun h => metadataMake_error hmade ((documented_store_iff _).mp (h _ rfl))) ?_
      refine not_not.mpr (Or.inl fun hvalid => ?_)
      obtain ⟨metadata, h⟩ := (metadataMake_ok_iff _ _ _ _).mpr hvalid
      rw [hmade] at h
      cases h
    | ok metadata =>
      have hvalid := (metadataMake_ok_iff _ _ _ _).mp ⟨metadata, hmade⟩
      obtain ⟨rfl, rfl, rfl⟩ := ArtifactObjectMetadata.make_ok hmade
      have hreference := metadataMake_reference hmade
      have hdigest : metadata.sha256Hex = intent.sha256 ↔ metadata.sha256Hex.text = intent.sha256.text :=
        ⟨fun h => h ▸ rfl, Sha256Hex.text_injective.eq_iff.mp⟩
      rw [ends_metadata_iff, hreference, hdigest]
      simp [hvalid]

/-- What a call makes of a pending intent in time. -/
theorem ends_pending_iff {settings : ArtifactStoreSettings} {headObject : PyStr → Except HeadError HeadResponse}
    {now : Instant} {intent : IntentRow} (hpending : intent.status = .pending) (htime : now < intent.expiresAt)
    (hlength : contentLengthOk intent.byteSize = true) :
    EndsDocumented ((completeLoaded binds organizationId (headUploadedObject settings headObject) now intent).eval
        IntentStmt.onWork draws w saves).1 ↔
      ¬(contentTypeOk intent.contentType = false ∨ settings.enabled = true ∧
        HeadEscapes intent (headObject (storageKey organizationId intent.caseId intent.artifactId))) := by
  have hloaded : completeLoaded binds organizationId (headUploadedObject settings headObject) now intent =
      (Prog.lift ((ArtifactUploadRequest.make organizationId intent.artifactId intent.contentType intent.byteSize
        intent.sha256 (some intent.caseId)).mapError .store)).elim (fun request =>
          completeWith binds organizationId now intent (headUploadedObject settings headObject request)) .raise := by
    unfold completeLoaded
    rw [if_neg (by rw [hpending]; exact nofun), if_neg (not_not.mpr hpending), if_neg (not_le.mpr htime)]
    rfl
  rw [hloaded]
  by_cases htype : contentTypeOk intent.contentType = true
  swap
  · have hmake : ArtifactUploadRequest.make organizationId intent.artifactId intent.contentType intent.byteSize
        intent.sha256 (some intent.caseId) = .error _ := dif_neg htype
    rw [hmake]
    refine iff_of_false (fun h => ?_) (not_not.mpr (Or.inl (Bool.not_eq_true _ ▸ htype)))
    exact (documented_store_iff _).mp (h _ rfl)
  obtain ⟨request, hmake⟩ : ∃ request, ArtifactUploadRequest.make organizationId intent.artifactId
      intent.contentType intent.byteSize intent.sha256 (some intent.caseId) = .ok request := by
    unfold ArtifactUploadRequest.make
    rw [dif_pos htype, dif_pos hlength]
    exact ⟨_, rfl⟩
  rw [hmake, ← objectKey_make hmake, htype]
  show EndsDocumented ((completeWith binds organizationId now intent (headUploadedObject settings headObject request)).eval
    IntentStmt.onWork draws w saves).1 ↔ _
  by_cases henabled : settings.enabled = true
  · rw [ends_head_iff henabled]
    simp [henabled]
  · have hdisabled : headUploadedObject settings headObject request = .error (.runtimeError _) := if_neg henabled
    rw [hdisabled]
    refine iff_of_true ((ends_error_iff _).mpr ((documented_store_iff _).mpr trivial)) ?_
    simp [henabled]

/-- A call, by the rows that it finds. -/
theorem ends_complete_iff {p : AuthenticatedPrincipal} {store : StoreClients} {now : Instant}
    (hchecks : ∀ r ∈ w.db.intents, r.checks = true) :
    EndsDocumented ((completeUpload bindNames
        { organizationId := p.organizationId, caseId := caseId, intentId := intentId, settings := store.settings,
          headObject := store.headObject, now := now }).eval IntentStmt.onWork draws w saves).1 ↔
      ¬∃ intent, w.db.intentRows p.organizationId caseId intentId = [intent] ∧ intent.status = .pending ∧
        now < intent.expiresAt ∧ (contentTypeOk intent.contentType = false ∨ store.settings.enabled = true ∧
          HeadEscapes intent
            (store.headObject (storageKey p.organizationId intent.caseId intent.artifactId))) := by
  unfold completeUpload complete
  rw [Prog.eval_atomic_fst]
  unfold loadForCompletion
  rw [executeText_given bindNames_given.1]
  have hselect : IntentStmt.onWork (.selectIntentForCompletion p.organizationId caseId intentId) w =
      .ok (w.db.intentRows p.organizationId caseId intentId,
        w.record ((w.db.intentRows p.organizationId caseId intentId).map .lockIntent)) := rfl
  simp only [Prog.execute, Prog.bind_eq, Prog.elim, Prog.eval, hselect]
  rcases hrows : w.db.intentRows p.organizationId caseId intentId with _ | ⟨intent, _ | ⟨other, rows⟩⟩
  · refine iff_of_true ((ends_error_iff _).mpr (by decide : (404 : Nat) ∈ [404, 409, 503])) ?_
    rintro ⟨_, h, -⟩
    cases h
  · have hintent : intent ∈ w.db.intents := (List.mem_filter.mp (hrows ▸ List.mem_singleton_self intent)).1
    have hchecked := hchecks intent hintent
    rw [IntentRow.checks, Bool.and_eq_true, Bool.and_eq_true, Bool.and_eq_true] at hchecked
    have hlength : contentLengthOk intent.byteSize = true := by
      unfold contentLengthOk maxContentLength
      simp only [decide_eq_true_eq, Bool.and_eq_true] at hchecked ⊢
      omega
    show EndsDocumented ((completeLoaded bindNames p.organizationId (headUploadedObject store.settings store.headObject) now
      intent).eval IntentStmt.onWork draws (w.record [.lockIntent intent]) (w :: saves)).1 ↔ _
    cases hstatus : intent.status with
    | completed =>
      refine iff_of_true (fun e he => ends_completed (w := w.record [.lockIntent intent]) hchecks hintent hstatus he) ?_
      rintro ⟨_, h, hpending, -⟩
      cases h
      rw [hstatus] at hpending
      cases hpending
    | pending =>
      by_cases htime : now < intent.expiresAt
      · rw [ends_pending_iff hstatus htime hlength]
        simp [hstatus, htime]
      · refine iff_of_true ?_ ?_
        · unfold completeLoaded
          rw [if_neg (by rw [hstatus]; decide), if_neg (not_not.mpr hstatus), if_pos (not_lt.mp htime)]
          exact (ends_error_iff _).mpr (by decide : (409 : Nat) ∈ [404, 409, 503])
        · rintro ⟨_, h, -, h', -⟩
          cases h
          exact htime h'
  · refine iff_of_true ((ends_error_iff _).mpr (documented_of_unavailable rfl)) ?_
    rintro ⟨_, h, -⟩
    cases h

end

/-! ### The gates -/

section

variable {p : AuthenticatedPrincipal} {caseId : Uuid} {draws : Nat → Uuid} {w : Work}

/-- A case that is shown passes. -/
theorem requireVisibleCase_shown (h : w.db.ShowsCase p caseId) :
    (requireVisibleCase p caseId).eval CaseStmt.onWork draws w [] = (.ok (), w) := by
  obtain ⟨c, hrows, hasset⟩ := h
  have hselect : CaseStmt.onWork (.selectCase p.organizationId caseId) w =
      .ok (w.db.caseRows p.organizationId caseId, w) :=
    congrArg (fun w' => Except.ok (_, w')) w.record_nil
  have htimeline : ∃ rows, CaseStmt.onWork (.selectTimeline p.organizationId caseId) w = .ok (rows, w) :=
    ⟨_, congrArg (fun w' => Except.ok (_, w')) w.record_nil⟩
  obtain ⟨rows, htimeline⟩ := htimeline
  unfold requireVisibleCase getDetail
  show (Prog.exec (.selectCase p.organizationId caseId) _ : CaseProg Unit).eval CaseStmt.onWork draws w [] = _
  rw [Prog.eval, hselect, hrows]
  show (Prog.exec (.selectTimeline p.organizationId caseId) _ : CaseProg Unit).eval CaseStmt.onWork draws w [] = _
  rw [Prog.eval, htimeline]
  show (Prog.elim _ _ (.ret { case := caseRecord c, timeline := rows.map timelineEntry } :
    CaseProg CaseDetail)).eval CaseStmt.onWork draws w [] = _
  dsimp only [Prog.elim]
  cases hassetId : (caseRecord c).assetId with
  | none => rfl
  | some assetId =>
    dsimp only
    rw [if_neg (not_not.mpr (hasset assetId hassetId))]
    rfl

/-- A case that is not shown is answered 404, or 503 when it is there twice. -/
theorem requireVisibleCase_hidden (h : ¬w.db.ShowsCase p caseId) :
    ∃ e w', (requireVisibleCase p caseId).eval CaseStmt.onWork draws w [] = (.error e, w') ∧
      (RouteError.case e).Documented := by
  by_cases hdenies : w.db.Denies p caseId
  · exact ⟨_, _, eval_requireVisibleCase hdenies, (by decide : (404 : Nat) ∈ [404, 409, 503])⟩
  have hselect : CaseStmt.onWork (.selectCase p.organizationId caseId) w =
      .ok (w.db.caseRows p.organizationId caseId, w) :=
    congrArg (fun w' => Except.ok (_, w')) w.record_nil
  unfold requireVisibleCase getDetail
  show ∃ e w', (Prog.exec (.selectCase p.organizationId caseId) _ : CaseProg Unit).eval CaseStmt.onWork draws w [] =
    (.error e, w') ∧ _
  rw [Prog.eval, hselect]
  rcases hrows : w.db.caseRows p.organizationId caseId with _ | ⟨c, _ | ⟨other, rows⟩⟩
  · exact absurd (Or.inl hrows) hdenies
  · refine absurd ⟨c, hrows, fun assetId hassetId => ?_⟩ h
    by_contra hasset
    exact hdenies (Or.inr ⟨c, assetId, hrows, hassetId, hasset⟩)
  · exact ⟨_, _, rfl, (by decide : (503 : Nat) ∈ [404, 409, 503])⟩

end

/-! ### Main result -/

section

variable {env : ApiEnvironment} {p : AuthenticatedPrincipal} {context : RequestContext} {draws : Nat → Uuid}
  {caseId intentId : Uuid} {db : Db}

/-- An exception of the route that is answered as the route documents. -/
def AnsweredError (p : AuthenticatedPrincipal) (e : RouteError) : Prop :=
  e.Documented ∨ e.answer.statusCode = 403 ∧ p.requireAnyRole writeRoles = false

/-- The exceptions of the route decide whether its request is answered. -/
theorem completionAnswered_iff :
    CompletionAnswered p db ((CaseRequest.completeUploadIntent caseId intentId).serve env p context draws db) ↔
      ∀ e, (completeUploadIntentRoute env p context draws caseId intentId { db := db }).1 = .error e →
        AnsweredError p e := by
  have hrequest : (CaseRequest.completeUploadIntent caseId intentId).route env p context draws { db := db } =
      ((completeUploadIntentRoute env p context draws caseId intentId { db := db }).1.map .completed,
        (completeUploadIntentRoute env p context draws caseId intentId { db := db }).2) := Route.map_apply _ _ _
  unfold CaseRequest.serve
  rw [hrequest]
  rcases completeUploadIntentRoute env p context draws caseId intentId { db := db } with ⟨e | upload, w⟩
  · show CompletionAnswered p db (.error e.answer, db) ↔ _
    constructor
    · intro h e' he
      cases he
      exact h.2
    · exact fun h => ⟨rfl, h e rfl⟩
  · show CompletionAnswered p db (if w.changes.all fun change => change.passes w.db then
      (.ok (.completed upload), w.db) else (.error tenantContextUnavailable, db)) ↔ _
    refine iff_of_true ?_ fun e he => by cases he
    split_ifs
    · exact ⟨upload, rfl⟩
    · exact ⟨rfl, Or.inl (by decide)⟩

theorem Route.ofCase_bind {α β : Type} (prog : CaseProg α) (k : α → Route β) (w : Work) :
    (Route.ofCase draws prog >>= k) w = match prog.eval CaseStmt.onWork draws w [] with
      | (.ok a, w') => k a w'
      | (.error e, w') => (.error (.case e), w') := by
  rw [Route.bind_apply]
  unfold Route.ofCase
  rcases prog.eval CaseStmt.onWork draws w [] with ⟨e | a, w'⟩ <;> rfl

/-- A call of the repository by a caller with a write role. -/
theorem answered_ofIntent_iff (hrole : p.requireAnyRole writeRoles = true)
    {prog : IntentProg CompletedArtifactUpload} {w : Work} :
    (∀ e, (Route.ofIntent draws mapCompletionError prog w).1 = .error e → AnsweredError p e) ↔
      EndsDocumented (prog.eval IntentStmt.onWork draws w []).1 := by
  have hanswered : ∀ e, AnsweredError p e ↔ e.Documented := fun e => by
    unfold AnsweredError
    simp [hrole]
  unfold Route.ofIntent
  rcases prog.eval IntentStmt.onWork draws w [] with ⟨e | upload, w'⟩
  · exact ⟨fun h => (ends_error_iff e).mpr ((hanswered _).mp (h _ rfl)), fun h e' he => by
      cases he
      exact (hanswered _).mpr ((ends_error_iff e).mp h)⟩
  · exact iff_of_true (fun e he => by cases he) fun e he => by cases he

/-- Which exceptions of the route are answered. -/
theorem routeAnswered_iff (hbinds : env.binds = bindNames) (hchecks : ∀ r ∈ db.intents, r.checks = true) :
    (∀ e, (completeUploadIntentRoute env p context draws caseId intentId { db := db }).1 = .error e →
        AnsweredError p e) ↔
      ¬∃ store intent, CompletionEscapes env p context.now caseId intentId store intent db := by
  unfold completeUploadIntentRoute
  rw [hbinds]
  cases hstore : env.store with
  | none =>
    refine iff_of_true (fun e he => ?_) fun ⟨_, _, h⟩ => nomatch hstore.symm.trans h.wired
    cases he
    exact Or.inl (by decide : (503 : Nat) ∈ [404, 409, 503])
  | some store =>
    by_cases hrole : p.requireAnyRole writeRoles = true
    swap
    · have hwrite : requireWriteRole p = .error caseWriteForbidden := if_neg hrole
      rw [hwrite]
      refine iff_of_true (fun e he => ?_) fun ⟨_, _, h⟩ => hrole h.role
      cases he
      exact Or.inr ⟨rfl, Bool.eq_false_of_not_eq_true hrole⟩
    have hwrite : requireWriteRole p = .ok () := if_pos hrole
    rw [hwrite]
    show (∀ e, ((Route.ofCase draws (requireVisibleCase p caseId) >>= fun _ => Route.ofIntent draws mapCompletionError
      (completeUpload bindNames _)) { db := db }).1 = .error e → _) ↔ _
    rw [Route.ofCase_bind]
    by_cases hvisible : db.ShowsCase p caseId
    · rw [@requireVisibleCase_shown p caseId draws { db := db } hvisible]
      refine (answered_ofIntent_iff hrole).trans ((ends_complete_iff hchecks).trans (not_congr ?_))
      constructor
      · rintro ⟨intent, hfound, hpending, htime, hescapes⟩
        exact ⟨store, intent, hstore, hrole, hvisible, hfound, hpending, htime, hescapes⟩
      · rintro ⟨store', intent, h⟩
        cases hstore.symm.trans h.wired
        exact ⟨intent, h.found, h.pending, h.inTime, h.escapes⟩
    · obtain ⟨e, w', heval, he⟩ :=
        @requireVisibleCase_hidden p caseId draws { db := db } hvisible
      rw [heval]
      refine iff_of_true (fun e' he' => ?_) fun ⟨_, _, h⟩ => hvisible h.visible
      cases he'
      exact Or.inl he

theorem not_answered_of_escapes {store : StoreClients} {intent : IntentRow} (hbinds : env.binds = bindNames)
    (hchecks : ∀ r ∈ db.intents, r.checks = true)
    (h : CompletionEscapes env p context.now caseId intentId store intent db) :
    ¬CompletionAnswered p db ((CaseRequest.completeUploadIntent caseId intentId).serve env p context draws db) :=
  fun hanswered => (routeAnswered_iff hbinds hchecks).mp (completionAnswered_iff.mp hanswered) ⟨store, intent, h⟩

/-- **`complete_upload_intent` answers whatever the object store says with a completion or a documented error,
except where the answer escapes.** -/
theorem complete_upload_intent_answered_iff (hbinds : env.binds = bindNames)
    (hchecks : ∀ r ∈ db.intents, r.checks = true) :
    CompletionAnswered p db ((CaseRequest.completeUploadIntent caseId intentId).serve env p context draws db) ↔
      ¬∃ store intent, CompletionEscapes env p context.now caseId intentId store intent db :=
  completionAnswered_iff.trans (routeAnswered_iff hbinds hchecks)

end

/-- An object store that answers every request in one way. -/
def sampleClients (answer : Except HeadError HeadResponse) : StoreClients where
  settings := ⟨true, py "artifacts", 300⟩
  sign := fun _ => .ok (py "https://store")
  headObject := fun _ => answer

def sampleWired (answer : Except HeadError HeadResponse) : ApiEnvironment :=
  { sampleEnvironment with store := some (sampleClients answer) }

theorem sampleWired_binds (answer : Except HeadError HeadResponse) : (sampleWired answer).binds = bindNames := rfl

/-- A pending intent of the visible case. -/
def samplePending : IntentRow where
  id := 40
  artifactId := 41
  organizationId := 7
  caseId := 10
  artifactKind := .networkConfiguration
  storageKey := py "key"
  sha256 := zeroSha256
  byteSize := 64
  contentType := py "text/plain"
  originalFilename := none
  createdByActorId := some 3
  correlationId := 42
  expiresAt := 900
  status := .pending
  completedAt := none
  createdAt := 200

def sampleUploads : Db := { sampleCases false with intents := [samplePending] }

theorem sampleUploads_checks : ∀ r ∈ sampleUploads.intents, r.checks = true := by
  intro r hr
  rw [List.mem_singleton.mp hr]
  rfl

/-- A code is read. -/
theorem readable_of_code (code : PyStr) :
    ¬HeadError.Unreadable ⟨some (.obj [(py "Error", .obj [(py "Code", .str code)])])⟩ := by
  rintro ⟨response, hresponse, hcase⟩
  obtain rfl := Json.obj.inj (Option.some.inj hresponse)
  simp only [HeadResponse.get_cons, if_true] at hcase
  rcases hcase with ⟨value, hvalue, hnot⟩ | ⟨details, code', hdetails, hcode, hlong⟩
  · exact hnot _ (Option.some.inj hvalue).symm
  · obtain rfl := Json.obj.inj (Option.some.inj hdetails)
    rw [HeadResponse.get_cons, if_pos rfl] at hcode
    obtain rfl := Option.some.inj hcode
    cases hlong

/-- The object is not there yet. -/
def sampleMissing : Except HeadError HeadResponse :=
  .error ⟨some (.obj [(py "Error", .obj [(py "Code", .str (py "404"))])])⟩

theorem complete_upload_intent_answered_sample : CompletionAnswered sampleViewer sampleUploads
    ((CaseRequest.completeUploadIntent 10 40).serve (sampleWired sampleMissing) sampleViewer ⟨12, 300⟩
      (fun _ => 1000) sampleUploads) := by
  have hiff := @complete_upload_intent_answered_iff (sampleWired sampleMissing) sampleViewer ⟨12, 300⟩ (fun _ => 1000)
    10 40 sampleUploads (sampleWired_binds sampleMissing) sampleUploads_checks
  rw [hiff]
  rintro ⟨store, intent, h⟩
  have hwired : sampleClients sampleMissing = store := Option.some.inj h.wired
  subst hwired
  rcases h.escapes with htype | ⟨-, hunreadable⟩
  · have hfound : samplePending = intent := List.head_eq_of_cons_eq h.found
    subst hfound
    exact absurd htype (by decide)
  · exact readable_of_code _ hunreadable

/-- Metadata of the object with a digest of three letters. -/
def sampleShortDigest : HeadResponse :=
  [(py "ContentType", .str (py "text/plain")), (py "ContentLength", .int 64),
    (py "Metadata", .obj [(py "sha256", .str (py "abc"))]), (py "ServerSideEncryption", .str (py "AES256"))]

theorem sampleShortDigest_shows : sampleShortDigest.Shows (py "text/plain") 64 (py "abc") (py "s3:AES256") where
  contentType := by decide +kernel
  contentLength := by decide +kernel
  sha256Hex := by
    refine ⟨[(py "sha256", .str (py "abc"))], ?_, by decide +kernel⟩
    rw [sampleShortDigest, HeadResponse.get_cons, if_neg (by decide), HeadResponse.get_cons, if_neg (by decide),
      HeadResponse.get_cons, if_pos rfl]
  reference := by decide +kernel

/-- The digest is not compared with the declared one, but raises a `ValueError`. -/
theorem complete_upload_intent_escapes : ¬∀ (env : ApiEnvironment) (p : AuthenticatedPrincipal)
    (context : RequestContext) (draws : Nat → Uuid) (caseId intentId : Uuid) (db : Db), env.binds = bindNames →
    (∀ r ∈ db.intents, r.checks = true) →
    CompletionAnswered p db ((CaseRequest.completeUploadIntent caseId intentId).serve env p context draws db) := by
  intro hall
  have hescapes : CompletionEscapes (sampleWired (.ok sampleShortDigest)) sampleViewer 300 10 40
      (sampleClients (.ok sampleShortDigest)) samplePending sampleUploads :=
    { wired := rfl
      role := by decide
      visible := ⟨sampleFeedCase, rfl, fun _ h => by cases h⟩
      found := rfl
      pending := rfl
      inTime := by decide
      escapes := by
        refine Or.inr ⟨rfl, py "text/plain", 64, py "abc", py "s3:AES256", sampleShortDigest_shows, Or.inl ?_⟩
        rintro ⟨-, -, hdigest, -⟩
        exact absurd hdigest (by decide) }
  exact not_answered_of_escapes (sampleWired_binds (.ok sampleShortDigest)) sampleUploads_checks hescapes
    (hall _ _ ⟨12, 300⟩ (fun _ => 1000) _ _ _ (sampleWired_binds (.ok sampleShortDigest)) sampleUploads_checks)

end NetopsCopilot
