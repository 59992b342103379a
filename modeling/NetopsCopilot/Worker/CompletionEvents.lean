import NetopsCopilot.Application.ArtifactIntents
import NetopsCopilot.Application.Outbox
import NetopsCopilot.Lib.Except
import NetopsCopilot.Python.JsonLoads
import NetopsCopilot.Python.Uuid
import NetopsCopilot.Worker.ConfigRedaction

/-!
# Completion events (`artifact_job_from_outbox_event` in `netops_worker/artifact_processing.py`)

The API writes the payload of `artifact.completed.v1`, and the worker decodes it with a schema of its own. What the
one writes of an intent the other decodes to the job of the intent, and it decodes nothing but payloads of its schema:
any other payload of the event is a `ValueError` (`completion_contract`).
-/

namespace NetopsCopilot

/-! ### The job -/

/-- The fields of an `ArtifactProcessingJob`, the digest with what `_validate_sha256` checks. -/
structure CompletedArtifactJob extends ConfigRedactionJob where
  caseId : Uuid
  sha256Hex : Sha256Hex

/-- What the decoder raises. -/
inductive JobError where
  | valueError (message : PyStr)
  | typeError
  | keyError (key : PyStr)
deriving DecidableEq

/-- `ARTIFACT_COMPLETED_EVENT_TYPE`. -/
def artifactCompletedEventType : PyStr := py "artifact.completed.v1"

/-- The members of the payload. -/
def completionKeys : Finset PyStr :=
  {py "artifact_id", py "artifact_kind", py "case_id", py "classification", py "sha256"}

/-- `ArtifactKind(value)`. -/
def ArtifactKind.ofValue (s : PyStr) : Option ArtifactKind :=
  [ArtifactKind.networkConfiguration, .incidentAudio].find? fun kind => kind.value == s

def ArtifactClassification.value : ArtifactClassification → PyStr
  | .raw => py "raw"
  | .redacted => py "redacted"
  | .derived => py "derived"

/-- `ArtifactClassification(value)`. -/
def ArtifactClassification.ofValue (s : PyStr) : Option ArtifactClassification :=
  [ArtifactClassification.raw, .redacted, .derived].find? fun classification => classification.value == s

/-- `payload[key]`. -/
def payloadMember (payload : List (PyStr × Json)) (key : PyStr) : Option Json :=
  (payload.find? fun m => m.1 == key).map Prod.snd

/-- `_string_payload`. -/
def stringPayload (payload : List (PyStr × Json)) (key : PyStr) : Except JobError PyStr :=
  match payloadMember payload key with
  | none => .error (.keyError key)
  | some (.str value) => .ok value
  | some _ => .error (.valueError (py "artifact completion payload field " ++ key ++ py " must be a string."))

/-- A string of the payload in a conversion that raises a `ValueError`. -/
def readMember {α : Type} (payload : List (PyStr × Json)) (key message : String) (convert : PyStr → Option α) :
    Except JobError α := do
  let text ← stringPayload payload (py key)
  match convert text with
  | some a => return a
  | none => .error (.valueError (py message))

section

variable (U : UnicodeData)

/-- The `try` block: the job of a payload with the five members. -/
def readCompletion (event : LeasedOutboxEvent) : Except JobError CompletedArtifactJob := do
  let caseId ← readMember event.payload "case_id" "badly formed hexadecimal UUID string" (uuidOfText U)
  if caseId ≠ event.caseId then
    .error (.valueError (py "artifact.completed.v1 case_id does not match its envelope."))
  else
    let artifactId ← readMember event.payload "artifact_id" "badly formed hexadecimal UUID string" (uuidOfText U)
    let artifactKind ← readMember event.payload "artifact_kind" "not a valid ArtifactKind" ArtifactKind.ofValue
    let classification ← readMember event.payload "classification" "not a valid ArtifactClassification"
      ArtifactClassification.ofValue
    let sha256Hex ← readMember event.payload "sha256" "sha256_hex must be a lowercase SHA-256 digest."
      Sha256Hex.parse
    return { organizationId := event.organizationId, caseId := caseId, artifactId := artifactId,
             artifactKind := artifactKind, classification := classification, sha256Hex := sha256Hex }

/-- `artifact_job_from_outbox_event`. -/
def artifactJobFromOutboxEvent (event : LeasedOutboxEvent) : Except JobError (Option CompletedArtifactJob) :=
  if event.eventType ≠ artifactCompletedEventType then .ok none
  else if (event.payload.map Prod.fst).toFinset ≠ completionKeys then
    .error (.valueError (py "artifact.completed.v1 payload does not match its safe schema."))
  else match readCompletion U event with
    | .ok job => .ok (some job)
    | .error .typeError | .error (.valueError _) =>
      .error (.valueError (py "artifact.completed.v1 payload is invalid."))
    | .error e => .error e

/-! ### The schema -/

/-- The payload has the members of the job, and no others. -/
structure CompletionSchema (event : LeasedOutboxEvent) (job : CompletedArtifactJob) : Prop where
  members : (event.payload.map Prod.fst).toFinset = completionKeys
  organizationId : job.organizationId = event.organizationId
  caseId : job.caseId = event.caseId
  caseText : ∃ text, payloadMember event.payload (py "case_id") = some (.str text) ∧
    uuidOfText U text = some event.caseId
  artifactId : ∃ text, payloadMember event.payload (py "artifact_id") = some (.str text) ∧
    uuidOfText U text = some job.artifactId
  artifactKind : payloadMember event.payload (py "artifact_kind") = some (.str job.artifactKind.value)
  classification : payloadMember event.payload (py "classification") = some (.str job.classification.value)
  sha256Hex : payloadMember event.payload (py "sha256") = some (.str job.sha256Hex.text)

end

/-- The job of an intent. -/
def IntentRow.completedJob (intent : IntentRow) : CompletedArtifactJob where
  organizationId := intent.organizationId
  caseId := intent.caseId
  artifactId := intent.artifactId
  artifactKind := intent.artifactKind
  classification := .raw
  sha256Hex := intent.sha256

/-! ### Decoding -/

section

variable {U : UnicodeData} {payload : List (PyStr × Json)} {event : LeasedOutboxEvent} {job : CompletedArtifactJob}

theorem readMember_ok_iff {α : Type} {key message : String} {convert : PyStr → Option α} {a : α} :
    readMember payload key message convert = .ok a ↔
      ∃ text, payloadMember payload (py key) = some (.str text) ∧ convert text = some a := by
  unfold readMember
  rw [Raising.bind_ok_iff]
  refine exists_congr fun text => and_congr ?_ ?_
  · unfold stringPayload
    cases payloadMember payload (py key) with
    | none => exact iff_of_false nofun nofun
    | some j =>
      cases j with
      | str s => simp
      | _ => exact iff_of_false nofun nofun
  · cases convert text with
    | none => exact iff_of_false nofun nofun
    | some b => simp [pure, Except.pure]

/-- A member that is there raises at most a `ValueError`. -/
theorem readMember_error {α : Type} {key message : String} {convert : PyStr → Option α} {e : JobError}
    (hkey : py key ∈ payload.map Prod.fst) (h : readMember payload key message convert = .error e) :
    ∃ message, e = .valueError message := by
  obtain ⟨m, hm, hfst⟩ := List.mem_map.mp hkey
  have hfound : payloadMember payload (py key) ≠ none := by
    unfold payloadMember
    rw [ne_eq, Option.map_eq_none_iff, List.find?_eq_none]
    exact fun hall => hall m hm (beq_iff_eq.mpr hfst)
  rcases Raising.bind_error h with hstring | ⟨text, -, hconvert⟩
  · unfold stringPayload at hstring
    split at hstring
    next hnone => exact absurd hnone hfound
    next => cases hstring
    next =>
      cases hstring
      exact ⟨_, rfl⟩
  · split at hconvert
    next => cases hconvert
    next =>
      cases hconvert
      exact ⟨_, rfl⟩

theorem kindOfValue_eq_some_iff {s : PyStr} {kind : ArtifactKind} :
    ArtifactKind.ofValue s = some kind ↔ s = kind.value := by
  unfold ArtifactKind.ofValue
  constructor
  · intro h
    have hvalue := List.find?_some h
    exact (beq_iff_eq.mp hvalue).symm
  · rintro rfl
    cases kind <;> decide

theorem classificationOfValue_eq_some_iff {s : PyStr} {classification : ArtifactClassification} :
    ArtifactClassification.ofValue s = some classification ↔ s = classification.value := by
  unfold ArtifactClassification.ofValue
  constructor
  · intro h
    have hvalue := List.find?_some h
    exact (beq_iff_eq.mp hvalue).symm
  · rintro rfl
    cases classification <;> decide

theorem digest_eq_some_iff {s : PyStr} {digest : Sha256Hex} : Sha256Hex.parse s = some digest ↔ s = digest.text := by
  constructor
  · intro h
    exact (Sha256Hex.parse_text h).symm
  · rintro rfl
    unfold Sha256Hex.parse
    rw [dif_pos digest.length, dif_pos digest.hex]

/-- The `try` block returns a job exactly if the members are those of the job. -/
theorem readCompletion_ok_iff (hmembers : (event.payload.map Prod.fst).toFinset = completionKeys) :
    readCompletion U event = .ok job ↔ CompletionSchema U event job := by
  unfold readCompletion
  constructor
  · intro h
    obtain ⟨caseId, hcase, h⟩ := Raising.bind_ok h
    split_ifs at h with hcaseId
    rw [not_not] at hcaseId
    obtain ⟨artifactId, hartifact, h⟩ := Raising.bind_ok h
    obtain ⟨artifactKind, hkind, h⟩ := Raising.bind_ok h
    obtain ⟨classification, hclass, h⟩ := Raising.bind_ok h
    obtain ⟨sha256Hex, hsha256, h⟩ := Raising.bind_ok h
    cases h
    obtain ⟨kindText, hkindText, hkind⟩ := readMember_ok_iff.mp hkind
    obtain ⟨classText, hclassText, hclass⟩ := readMember_ok_iff.mp hclass
    obtain ⟨shaText, hshaText, hsha256⟩ := readMember_ok_iff.mp hsha256
    subst hcaseId
    exact
      { members := hmembers
        organizationId := rfl
        caseId := rfl
        caseText := readMember_ok_iff.mp hcase
        artifactId := readMember_ok_iff.mp hartifact
        artifactKind := kindOfValue_eq_some_iff.mp hkind ▸ hkindText
        classification := classificationOfValue_eq_some_iff.mp hclass ▸ hclassText
        sha256Hex := digest_eq_some_iff.mp hsha256 ▸ hshaText }
  · intro h
    refine Raising.bind_ok_iff.mpr ⟨event.caseId, readMember_ok_iff.mpr h.caseText, ?_⟩
    rw [if_neg (not_not.mpr rfl)]
    refine Raising.bind_ok_iff.mpr ⟨job.artifactId, readMember_ok_iff.mpr h.artifactId, ?_⟩
    refine Raising.bind_ok_iff.mpr ⟨job.artifactKind,
      readMember_ok_iff.mpr ⟨_, h.artifactKind, kindOfValue_eq_some_iff.mpr rfl⟩, ?_⟩
    refine Raising.bind_ok_iff.mpr ⟨job.classification,
      readMember_ok_iff.mpr ⟨_, h.classification, classificationOfValue_eq_some_iff.mpr rfl⟩, ?_⟩
    refine Raising.bind_ok_iff.mpr ⟨job.sha256Hex,
      readMember_ok_iff.mpr ⟨_, h.sha256Hex, digest_eq_some_iff.mpr rfl⟩, ?_⟩
    rw [← h.organizationId, ← h.caseId]
    rfl

/-- The `try` block raises nothing but a `ValueError`. -/
theorem readCompletion_error (hmembers : (event.payload.map Prod.fst).toFinset = completionKeys) {e : JobError}
    (h : readCompletion U event = .error e) : ∃ message, e = .valueError message := by
  have hkey : ∀ key, py key ∈ completionKeys → py key ∈ event.payload.map Prod.fst := fun key hkey => by
    rwa [← hmembers, List.mem_toFinset] at hkey
  have hmem : py "case_id" ∈ completionKeys ∧ py "artifact_id" ∈ completionKeys ∧ py "artifact_kind" ∈ completionKeys ∧
      py "classification" ∈ completionKeys ∧ py "sha256" ∈ completionKeys := by
    simp [completionKeys]
  unfold readCompletion at h
  rcases Raising.bind_error h with h | ⟨caseId, -, h⟩
  · exact readMember_error (hkey _ hmem.1) h
  split_ifs at h
  · cases h
    exact ⟨_, rfl⟩
  rcases Raising.bind_error h with h | ⟨artifactId, -, h⟩
  · exact readMember_error (hkey _ hmem.2.1) h
  rcases Raising.bind_error h with h | ⟨artifactKind, -, h⟩
  · exact readMember_error (hkey _ hmem.2.2.1) h
  rcases Raising.bind_error h with h | ⟨classification, -, h⟩
  · exact readMember_error (hkey _ hmem.2.2.2.1) h
  rcases Raising.bind_error h with h | ⟨sha256Hex, -, h⟩
  · exact readMember_error (hkey _ hmem.2.2.2.2) h
  cases h

/-- What is returned of a completion event. -/
theorem jobFromEvent_ok_iff (htype : event.eventType = artifactCompletedEventType) :
    artifactJobFromOutboxEvent U event = .ok (some job) ↔ CompletionSchema U event job := by
  unfold artifactJobFromOutboxEvent
  rw [if_neg (not_not.mpr htype)]
  by_cases hmembers : (event.payload.map Prod.fst).toFinset = completionKeys
  · rw [if_neg (not_not.mpr hmembers), ← readCompletion_ok_iff hmembers]
    cases hread : readCompletion U event with
    | ok job' => simp
    | error e =>
      obtain ⟨message, rfl⟩ := readCompletion_error hmembers hread
      exact iff_of_false nofun nofun
  · rw [if_pos hmembers]
    exact iff_of_false nofun fun h => hmembers h.members

/-- A completion event without a job is a `ValueError`. -/
theorem jobFromEvent_error (htype : event.eventType = artifactCompletedEventType)
    (hnone : ∀ job, ¬CompletionSchema U event job) :
    ∃ message, artifactJobFromOutboxEvent U event = .error (.valueError message) := by
  unfold artifactJobFromOutboxEvent
  rw [if_neg (not_not.mpr htype)]
  by_cases hmembers : (event.payload.map Prod.fst).toFinset = completionKeys
  · rw [if_neg (not_not.mpr hmembers)]
    cases hread : readCompletion U event with
    | ok job => exact absurd ((readCompletion_ok_iff hmembers).mp hread) (hnone job)
    | error e =>
      obtain ⟨message, rfl⟩ := readCompletion_error hmembers hread
      exact ⟨_, rfl⟩
  · rw [if_pos hmembers]
    exact ⟨_, rfl⟩

end

/-! ### The payload of an intent -/

/-- The members that `_insert_completion_outbox` writes, in the order of their keys. -/
def IntentRow.completionMembers (intent : IntentRow) : List (PyStr × PyStr) :=
  [(py "artifact_id", intent.artifactId.str), (py "artifact_kind", intent.artifactKind.value),
    (py "case_id", intent.caseId.str), (py "classification", py "raw"), (py "sha256", intent.sha256.text)]

theorem bareText_digest (digest : Sha256Hex) : BareText digest.text := by
  have hall : BareText (py "0123456789abcdef") := by decide
  exact hall.subset fun c hc => of_decide_eq_true (List.all_eq_true.mp digest.hex c hc)

section

variable {U : UnicodeData} {floatOf : PyStr → PyFloat} {payload : List (PyStr × Json)} (intent : IntentRow)

theorem completionMembers_bare : ∀ m ∈ intent.completionMembers, BareText m.1 ∧ BareText m.2 := by
  have hkeys : ∀ key ∈ intent.completionMembers.map Prod.fst, BareText key := by
    show ∀ key ∈ [py "artifact_id", py "artifact_kind", py "case_id", py "classification", py "sha256"], BareText key
    decide
  have hkind : BareText intent.artifactKind.value := by
    cases intent.artifactKind <;> decide
  intro m hm
  refine ⟨hkeys _ (List.mem_map_of_mem hm), ?_⟩
  simp only [IntentRow.completionMembers, List.mem_cons, List.not_mem_nil, or_false] at hm
  rcases hm with rfl | rfl | rfl | rfl | rfl
  · exact bareText_uuid _
  · exact hkind
  · exact bareText_uuid _
  · decide
  · exact bareText_digest _

theorem completionMembers_keys : (intent.completionMembers.map Prod.fst).Nodup := by
  show [py "artifact_id", py "artifact_kind", py "case_id", py "classification", py "sha256"].Nodup
  decide

theorem completionMembers_sorted : intent.completionMembers.Pairwise fun a b => a.1 ≤ b.1 := by
  have hkeys : [py "artifact_id", py "artifact_kind", py "case_id", py "classification", py "sha256"].Pairwise (· ≤ ·) := by
    decide
  have hmap : (intent.completionMembers.map Prod.fst).Pairwise (· ≤ ·) := hkeys
  exact List.pairwise_map.mp hmap

/-- The payload is read back from its text. -/
theorem loadsText_completionPayload :
    loadsText floatOf (completionPayload intent).dumps = some (.obj (bareObject intent.completionMembers)) := by
  have hbare := completionMembers_bare intent
  have hpayload : completionPayload intent = .obj (bareObject intent.completionMembers) := rfl
  rw [hpayload, dumps_bareObject hbare (completionMembers_sorted intent)]
  exact loadsText_bareObject hbare (completionMembers_keys intent)

/-- The members of a dictionary are found in any order. -/
theorem payloadMember_of_mem {key : PyStr} {value : Json} (hkeys : (payload.map Prod.fst).Nodup)
    (hmem : (key, value) ∈ payload) : payloadMember payload key = some value := by
  unfold payloadMember
  cases hfind : payload.find? fun m => m.1 == key with
  | none => exact absurd (beq_iff_eq.mpr rfl) (List.find?_eq_none.mp hfind _ hmem)
  | some m =>
    have hkey := List.find?_some hfind
    have hm := List.inj_on_of_nodup_map hkeys (List.mem_of_find?_eq_some hfind) hmem (beq_iff_eq.mp hkey)
    rw [hm]
    rfl

/-- What the API writes has the schema of the worker. -/
theorem completionSchema_of_perm {event : LeasedOutboxEvent} (horganization : event.organizationId = intent.organizationId)
    (hcase : event.caseId = intent.caseId) (hpayload : event.payload.Perm (bareObject intent.completionMembers)) :
    CompletionSchema U event intent.completedJob := by
  have hfst : (bareObject intent.completionMembers).map Prod.fst = intent.completionMembers.map Prod.fst := by
    unfold bareObject
    rw [List.map_map]
    rfl
  have hperm := hpayload.map Prod.fst
  rw [hfst] at hperm
  have hkeys : (event.payload.map Prod.fst).Nodup := hperm.nodup_iff.mpr (completionMembers_keys intent)
  have hmember : ∀ m ∈ intent.completionMembers, payloadMember event.payload m.1 = some (.str m.2) := fun m hm =>
    payloadMember_of_mem hkeys (hpayload.mem_iff.mpr (List.mem_map_of_mem hm))
  simp only [IntentRow.completionMembers, List.forall_mem_cons] at hmember
  obtain ⟨hartifact, hkind, hcaseText, hclassification, hsha256, -⟩ := hmember
  exact
    { members := by
        rw [List.toFinset_eq_of_perm _ _ hperm]
        rfl
      organizationId := horganization.symm
      caseId := hcase.symm
      caseText := ⟨_, hcaseText, hcase.symm ▸ uuidOfText_str _⟩
      artifactId := ⟨_, hartifact, uuidOfText_str _⟩
      artifactKind := hkind
      classification := hclassification
      sha256Hex := hsha256 }

end

/-- **The two services agree on completion events.** The payload of an intent is read back from its text, and in an
event of the intent's organization and case, its members in any order, it is decoded to the job of the intent. Of an
event of the type a job is returned exactly if the payload has the members of that job and no others, and if there is
no such job a `ValueError` is raised. -/
theorem completion_contract (U : UnicodeData) (floatOf : PyStr → PyFloat) :
    (∀ intent : IntentRow, loadsText floatOf (completionPayload intent).dumps = some (completionPayload intent) ∧
      ∀ (event : LeasedOutboxEvent) (payload : List (PyStr × Json)), completionPayload intent = .obj payload →
        event.payload.Perm payload → event.eventType = artifactCompletedEventType →
        event.organizationId = intent.organizationId → event.caseId = intent.caseId →
        artifactJobFromOutboxEvent U event = .ok (some intent.completedJob)) ∧
    ∀ event : LeasedOutboxEvent, event.eventType = artifactCompletedEventType →
      (∀ job, artifactJobFromOutboxEvent U event = .ok (some job) ↔ CompletionSchema U event job) ∧
      ((∀ job, ¬CompletionSchema U event job) →
        ∃ message, artifactJobFromOutboxEvent U event = .error (.valueError message)) := by
  constructor
  · refine fun intent => ⟨loadsText_completionPayload intent, ?_⟩
    intro event payload hpayload hperm htype horganization hcase
    cases hpayload
    exact (jobFromEvent_ok_iff htype).mpr (completionSchema_of_perm intent horganization hcase hperm)
  · exact fun event htype => ⟨fun job => jobFromEvent_ok_iff htype, jobFromEvent_error htype⟩

/-- An upload of zeros. -/
def sampleCompletedIntent : IntentRow where
  id := 7
  artifactId := 3
  organizationId := 1
  caseId := 2
  artifactKind := .incidentAudio
  storageKey := storageKey 1 2 3
  sha256 := zeroSha256
  byteSize := 4
  contentType := py "audio/wav"
  originalFilename := none
  createdByActorId := none
  correlationId := 6
  expiresAt := 10
  status := .completed
  completedAt := some 5
  createdAt := 0

/-- Its event. -/
def sampleCompletionEvent : LeasedOutboxEvent where
  outboxId := 5
  organizationId := 1
  caseId := 2
  caseEventId := 4
  eventType := artifactCompletedEventType
  aggregateVersion := 1
  correlationId := 6
  payload := [(py "sha256", .str zeroSha256.text), (py "classification", .str (py "raw")),
    (py "case_id", .str (Uuid.str 2)), (py "artifact_kind", .str (py "incident-audio")),
    (py "artifact_id", .str (Uuid.str 3))]
  availableAt := 0
  createdAt := 0
  attemptCount := 1
  lockedAt := 0
  lockedBy := py "worker"

theorem completion_contract_sample :
    artifactJobFromOutboxEvent UnicodeData.ascii sampleCompletionEvent = .ok (some sampleCompletedIntent.completedJob) ∧
      ∃ message, artifactJobFromOutboxEvent UnicodeData.ascii { sampleCompletionEvent with payload := [] } =
        .error (.valueError message) := by
  have hcontract := completion_contract UnicodeData.ascii fun _ => ⟨py "0.0", by decide, by decide, by decide⟩
  refine ⟨(hcontract.1 sampleCompletedIntent).2 sampleCompletionEvent _ rfl ?_ rfl rfl rfl,
    (hcontract.2 { sampleCompletionEvent with payload := [] } rfl).2 fun job hjob => ?_⟩
  · exact List.reverse_perm (bareObject sampleCompletedIntent.completionMembers)
  · obtain ⟨text, htext, -⟩ := hjob.caseText
    cases htext

end NetopsCopilot
