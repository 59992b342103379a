import NetopsCopilot.Lib.Partial
import NetopsCopilot.Lib.Solo
import NetopsCopilot.Api.ArtifactUploads

/-!
# The evidence behind an artifact

Clients declare and complete uploads against a database that may refuse any statement and that checks
nothing itself but the two unique keys of an intent. The history keeps which calls returned, with the
answers of the object store they saw. The slice of an artifact id holds its intent, its artifacts and the
history about both, and a call locks it together with the intent's row: so an artifact and the completion
of its intent are always seen together (`EvidenceSlice.Good`).
-/

namespace NetopsCopilot

open Txn

/-! ### The database and its history -/

/-- A returned call of `create_upload_intent`. -/
structure UploadNote where
  call : UploadCall
  reply : ArtifactUploadCapabilityResponse

/-- A returned call of `complete`. -/
structure CompletionNote where
  call : CompletionCall
  result : CompletedArtifactUpload

/-- The tables, the events of completions (which need no actor here), and the returned calls. -/
structure EvidenceDb where
  db : Db
  completionEvents : List CompletionEvent := []
  uploads : List UploadNote := []
  completions : List CompletionNote := []

/-- One row changed or locked, or one call noted. -/
inductive EvidenceWrite where
  | row (w : IntentWrite)
  | completionEvent (event : CompletionEvent)
  | upload (note : UploadNote)
  | completion (note : CompletionNote)

def EvidenceWrite.apply : EvidenceWrite → EvidenceDb → EvidenceDb
  | .row w, e => { e with db := w.apply e.db }
  | .completionEvent event, e => { e with completionEvents := e.completionEvents ++ [event] }
  | .upload note, e => { e with uploads := e.uploads ++ [note] }
  | .completion note, e => { e with completions := e.completions ++ [note] }

/-- The answers of a database that enforces the two unique keys of an intent and no other constraint. -/
def evidenceExec : (s : IntentStmt) → EvidenceDb → Except DbError (s.Reply × List EvidenceWrite)
  | .insertUploadIntent r classification, e => do
    need (.check (py "artifact_upload_intents")) (decide (classification = py "raw"))
    need (.unique (py "artifact_upload_intents_pkey")) (!e.db.intents.any fun i => i.id == r.id)
    need (.unique (py "artifact_upload_intents_artifact_id_key"))
      (!e.db.intents.any fun i => i.artifactId == r.artifactId)
    return ((), [.row (.insertIntent r)])
  | .insertArtifact r, _ => return ((), [.row (.insertArtifact r)])
  | .insertQuarantinedProcessingEvent r, _ => return ((), [.row (.insertProcessing r)])
  | .insertArtifactCompletionEvent event, _ => return ((), [.completionEvent event])
  | .insertArtifactCompletionOutbox r, _ => return ((), [.row (.spine (.insertOutbox r))])
  | .insertAuditEvent r, _ => return ((), [.row (.spine (.insertAudit r))])
  | .other w, _ => return ((), [.row w])
  -- reads and the update have no constraint
  | .selectIntentForCompletion organizationId caseId intentId, e =>
    ((IntentStmt.selectIntentForCompletion organizationId caseId intentId).exec e.db).map
      fun (r, ws) => (r, ws.map .row)
  | .selectIntentCompletedAt intentId, e =>
    ((IntentStmt.selectIntentCompletedAt intentId).exec e.db).map fun (r, ws) => (r, ws.map .row)
  | .selectCaseVersion organizationId caseId, e =>
    ((IntentStmt.selectCaseVersion organizationId caseId).exec e.db).map fun (r, ws) => (r, ws.map .row)
  | .markIntentCompleted intentId completedAt, e =>
    ((IntentStmt.markIntentCompleted intentId completedAt).exec e.db).map
      fun (r, ws) => (r, ws.map .row)

/-- An intent's row, by either of its unique keys. -/
inductive EvidenceKey where
  | intent (id : Uuid)
  | artifact (artifactId : Uuid)
deriving DecidableEq

/-- The keys of an intent's row. -/
def IntentRow.keys (r : IntentRow) : List EvidenceKey := [.intent r.id, .artifact r.artifactId]

/-- A row lock on an intent is a lock on both its keys. -/
def EvidenceWrite.locks : EvidenceWrite → List EvidenceKey
  | .row (.lockIntent r) | .row (.insertIntent r) | .row (.completeIntent r _) => r.keys
  | _ => []

def EvidenceWrite.touches : EvidenceWrite → List EvidenceKey
  | .row (.insertIntent r) | .row (.completeIntent r _) => r.keys
  | .row (.insertArtifact r) => [.artifact r.id]
  | .upload note => [.artifact note.reply.artifactId]
  | .completion note => [.artifact note.result.artifactId]
  | _ => []

def evidenceStore :
    Store IntentStmt IntentStmt.Reply DbError EvidenceWrite EvidenceKey EvidenceDb where
  exec := evidenceExec
  apply := EvidenceWrite.apply
  locks := EvidenceWrite.locks
  touches := EvidenceWrite.touches
  deferred _ _ := true

/-! ### The system -/

/-- A call of one of the two routes, or row changes of the case spine. -/
inductive EvidenceCommand where
  | create (call : UploadCall)
  | complete (call : CompletionCall)
  | others (ws : List CaseWrite)

inductive EvidenceReply where
  | created (reply : ArtifactUploadCapabilityResponse)
  | completed (result : CompletedArtifactUpload)
  | done

/-- Row changes of the case spine, one after the other. -/
def spineWrites : List CaseWrite → IntentProg EvidenceReply
  | [] => return .done
  | w :: ws => do
    Prog.execute IntentError.db (IntentStmt.other (.spine w))
    spineWrites ws

/-- The program of a command. -/
def EvidenceCommand.program (binds : PyStr → List PyStr) : EvidenceCommand → IntentProg EvidenceReply
  | .create call => do
    let reply ← createUploadIntent binds call
    return .created reply
  | .complete call => do
    let result ← completeUpload binds call
    return .completed result
  | .others ws => spineWrites ws

/-- What a command leaves in the history: a granted upload, a completion that is not a replay. -/
def EvidenceCommand.record : EvidenceCommand → Except IntentError EvidenceReply → List EvidenceWrite
  | .create call, .ok (.created reply) => [.upload ⟨call, reply⟩]
  | .complete call, .ok (.completed result) =>
    if result.alreadyCompleted then [] else [.completion ⟨call, result⟩]
  | _, _ => []

/-- Clients that declare and complete uploads in any transactions. -/
def evidenceSystem (binds : PyStr → List PyStr) : System IntentStmt IntentStmt.Reply DbError Uuid
    IntentError EvidenceReply EvidenceWrite EvidenceKey EvidenceDb EvidenceCommand where
  store := evidenceStore
  program c := c.program binds
  record := EvidenceCommand.record

/-! ### Slices -/

def EvidenceKey.holds : EvidenceKey → IntentRow → Bool
  | .intent id, r => r.id == id
  | .artifact artifactId, r => r.artifactId == artifactId

def EvidenceKey.names : EvidenceKey → Uuid → Bool
  | .intent _, _ => false
  | .artifact artifactId, a => a == artifactId

/-- The rows under a key, and the calls about them. -/
@[ext] structure EvidenceSlice where
  intents : List IntentRow
  artifacts : List ArtifactRow
  uploads : List UploadNote
  completions : List CompletionNote

def EvidenceDb.restrict (k : EvidenceKey) (e : EvidenceDb) : EvidenceSlice where
  intents := e.db.intents.filter k.holds
  artifacts := e.db.artifacts.filter fun a => k.names a.id
  uploads := e.uploads.filter fun n => k.names n.reply.artifactId
  completions := e.completions.filter fun n => k.names n.result.artifactId

/-- `_MARK_INTENT_COMPLETED` on one row. -/
def IntentRow.mark (old : IntentRow) (completedAt : Instant) (r : IntentRow) : IntentRow :=
  if r.id = old.id ∧ r.artifactId = old.artifactId ∧ r.status = .pending then r.complete completedAt
  else r

/-- The effect of a write on a slice. -/
def EvidenceSlice.apply (k : EvidenceKey) : EvidenceWrite → EvidenceSlice → EvidenceSlice
  | .row (.insertIntent r), σ => { σ with intents := σ.intents ++ [r].filter k.holds }
  | .row (.completeIntent old completedAt), σ =>
    { σ with intents := σ.intents.map (old.mark completedAt) }
  | .row (.insertArtifact r), σ =>
    { σ with artifacts := σ.artifacts ++ [r].filter fun a => k.names a.id }
  | .upload note, σ =>
    { σ with uploads := σ.uploads ++ [note].filter fun n => k.names n.reply.artifactId }
  | .completion note, σ =>
    { σ with completions := σ.completions ++ [note].filter fun n => k.names n.result.artifactId }
  | _, σ => σ

/-- A row of the case spine is not an intent or an artifact. -/
theorem spine_apply (w : CaseWrite) (db : Db) :
    (w.apply db).intents = db.intents ∧ (w.apply db).artifacts = db.artifacts := by
  cases w <;> exact ⟨rfl, rfl⟩

theorem holds_mark (k : EvidenceKey) (old r : IntentRow) (completedAt : Instant) :
    k.holds (old.mark completedAt r) = k.holds r := by
  unfold IntentRow.mark
  split_ifs <;> cases k <;> rfl

theorem EvidenceDb.restrict_apply (k : EvidenceKey) (w : EvidenceWrite) (e : EvidenceDb) :
    (w.apply e).restrict k = (e.restrict k).apply k w := by
  cases w with
  | row w =>
    cases w with
    | completeIntent old completedAt =>
      have hholds : k.holds ∘ old.mark completedAt = k.holds := by
        funext r
        exact holds_mark k old r completedAt
      ext1
      · show List.filter k.holds (e.db.intents.map (old.mark completedAt)) = _
        rw [List.filter_map, hholds]
        rfl
      all_goals rfl
    | spine w =>
      obtain ⟨hintents, hartifacts⟩ := spine_apply w e.db
      simp only [EvidenceWrite.apply, IntentWrite.apply, EvidenceDb.restrict, EvidenceSlice.apply,
        hintents, hartifacts]
    | insertIntent r | insertArtifact r =>
      simp [EvidenceWrite.apply, IntentWrite.apply, EvidenceDb.restrict, EvidenceSlice.apply]
    | lockIntent r | insertProcessing r => rfl
  | completionEvent event => rfl
  | upload note | completion note =>
    simp [EvidenceWrite.apply, EvidenceDb.restrict, EvidenceSlice.apply]

theorem names_of_not_touched {k : EvidenceKey} {a : Uuid} (h : k ∉ [EvidenceKey.artifact a]) :
    k.names a = false := by
  cases k with
  | intent id => rfl
  | artifact artifactId =>
    have hne : a ≠ artifactId := fun heq => h (by simp [heq])
    simp [EvidenceKey.names, hne]

theorem not_holds {k : EvidenceKey} {r : IntentRow} (h : k ∉ r.keys) : k.holds r = false := by
  simp only [IntentRow.keys, List.mem_cons, List.not_mem_nil, or_false, not_or] at h
  cases k with
  | intent id =>
    have hne : r.id ≠ id := fun heq => h.1 (by rw [heq])
    simp [EvidenceKey.holds, hne]
  | artifact artifactId =>
    have hne : r.artifactId ≠ artifactId := fun heq => h.2 (by rw [heq])
    simp [EvidenceKey.holds, hne]

/-- A completion changes only the row of its keys. -/
theorem mark_of_holds {k : EvidenceKey} {old r : IntentRow} (completedAt : Instant) (hk : k ∉ old.keys)
    (hr : k.holds r = true) : old.mark completedAt r = r := by
  have hold := not_holds hk
  unfold IntentRow.mark
  split_ifs with h
  · obtain ⟨hid, hartifact, -⟩ := h
    cases k <;> simp [EvidenceKey.holds, hid, hartifact] at hr hold <;> exact absurd hr hold
  · rfl

theorem EvidenceDb.restrict_untouched (w : EvidenceWrite) (k : EvidenceKey) (e : EvidenceDb) (h : k ∉ w.touches) :
    (w.apply e).restrict k = e.restrict k := by
  rw [EvidenceDb.restrict_apply]
  cases w with
  | row w =>
    cases w with
    | insertIntent r => simp [EvidenceSlice.apply, not_holds h]
    | completeIntent old completedAt =>
      have hmark : ∀ r ∈ (e.restrict k).intents, old.mark completedAt r = id r := fun r hr =>
        mark_of_holds completedAt h (List.mem_filter.mp hr).2
      have hmap : (e.restrict k).intents.map (old.mark completedAt) = (e.restrict k).intents :=
        (List.map_congr_left hmark).trans (List.map_id _)
      simp only [EvidenceSlice.apply, hmap]
    | insertArtifact r => simp [EvidenceSlice.apply, names_of_not_touched h]
    | lockIntent r | insertProcessing r | spine w => rfl
  | completionEvent event => rfl
  | upload note | completion note => simp [EvidenceSlice.apply, names_of_not_touched h]

/-! ### What an artifact rests on -/

/-- The upload behind an intent: the call that declared it, and the URL it signed. -/
structure Declared (n : UploadNote) (i : IntentRow) : Prop where
  artifactId : n.reply.artifactId = i.artifactId
  declared : { i with status := .pending, completedAt := none } = intentRow n.call.organizationId
    (n.call.intent i.artifactId n.reply.intentId n.reply.expiresAt)
  presigned : ∃ request, n.call.request i.artifactId = .ok request ∧
    n.call.sign (putObject n.call.settings request) = .ok n.reply.uploadUrl ∧
    (putObject n.call.settings request).key = i.storageKey

/-- An artifact has the data of an intent, whose classification is `raw`. -/
structure Carries (i : IntentRow) (a : ArtifactRow) : Prop where
  id : a.id = i.artifactId
  organizationId : a.organizationId = i.organizationId
  caseId : a.caseId = i.caseId
  artifactKind : a.artifactKind = i.artifactKind.value
  classification : a.classification = py "raw"
  storageKey : a.storageKey = i.storageKey
  sha256 : a.sha256 = i.sha256
  byteSize : a.byteSize = i.byteSize
  contentType : a.contentType = i.contentType

/-- The call that completed an intent: before it expired, on the metadata of the artifact's object. -/
structure Attested (n : CompletionNote) (i : IntentRow) (a : ArtifactRow) : Prop where
  organizationId : n.call.organizationId = i.organizationId
  caseId : n.call.caseId = i.caseId
  intentId : n.call.intentId = i.id
  result : n.result = ⟨i.artifactId, n.call.now, false⟩
  completedAt : i.completedAt = some n.call.now
  inTime : n.call.now < i.expiresAt
  head : ∃ response, n.call.headObject a.storageKey = .ok response ∧
    response.Attests i.contentType i.byteSize i.sha256

/-- A slice is good: one intent at most; without an intent no artifact, with a pending one none yet, with a
completed one exactly one. -/
def EvidenceSlice.Good : EvidenceKey → EvidenceSlice → Prop
  | .intent _, σ => σ.intents.length ≤ 1
  | .artifact _, σ => (σ.intents = [] ∧ σ.artifacts = []) ∨
      ∃ i, σ.intents = [i] ∧ (∃ n ∈ σ.uploads, Declared n i) ∧
        ((i.status = .pending ∧ σ.artifacts = []) ∨
          i.status = .completed ∧ ∃ a, σ.artifacts = [a] ∧ Carries i a ∧
            ∃ n ∈ σ.completions, Attested n i a)

def evidenceDiscipline : Discipline evidenceStore EvidenceSlice where
  restrict := EvidenceDb.restrict
  good := EvidenceSlice.Good
  complete _ := True
  complete_nil := trivial
  untouched := EvidenceDb.restrict_untouched
  congr w k e e' h := by
    show (w.apply e).restrict k = (w.apply e').restrict k
    rw [EvidenceDb.restrict_apply, EvidenceDb.restrict_apply, h]

end NetopsCopilot
