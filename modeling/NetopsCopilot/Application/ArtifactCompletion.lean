import NetopsCopilot.Lib.Partial
import NetopsCopilot.Lib.Solo
import NetopsCopilot.Application.ArtifactIntents

/-!
# Completing an upload

Clients create and complete upload intents while other transactions change any rows at any time. No call of
`complete` ever turns a pending intent into an artifact: the event it inserts has no actor, which
`case_events` does not allow (`insertCompletionOutbox_never`), and already the statement before it names
a parameter it is not given. So a call that returns found the intent completed and wrote nothing, and any
other call raises and leaves the writes of its transaction as they were (`completion_never`).
-/

namespace NetopsCopilot

open Txn

/-! ### The system -/

/-- An upload intent, an artifact, or a row of the case spine. -/
inductive IntentKey where
  | intent (id : Uuid)
  | intentArtifact (artifactId : Uuid)
  | intentStorage (organizationId : Uuid) (storageKey : PyStr)
  | artifact (id : Uuid)
  | artifactStorage (organizationId : Uuid) (storageKey : PyStr)
  /-- The advisory lock of the ledger trigger. -/
  | processing (artifactId : Uuid)
  | event (id : Uuid)
  | outbox (id : Uuid)
  | audit (id : Uuid)
  | case (id : Uuid)
deriving DecidableEq

/-- The locks of a row change of the case spine. -/
def spineLocks : CaseWrite → List IntentKey
  | .insertCase r => [.case r.id]
  | .updateCase old _ _ _ => [.case old.id]
  | .insertCaseInput _ | .insertTransition _ => []
  | .insertEvent r => [.event r.id]
  | .insertOutbox r => [.outbox r.id]
  | .insertAudit r => [.audit r.id]

/-- The rows and unique keys a row change locks. -/
def IntentWrite.locks : IntentWrite → List IntentKey
  | .lockIntent r | .completeIntent r _ => [.intent r.id]
  | .insertIntent r =>
    [.intent r.id, .intentArtifact r.artifactId, .intentStorage r.organizationId r.storageKey]
  | .insertArtifact r => [.artifact r.id, .artifactStorage r.organizationId r.storageKey]
  | .insertProcessing r => [.processing r.artifactId]
  | .spine w => spineLocks w

/-- The store of the intents. -/
def intentStore : Store IntentStmt IntentStmt.Reply DbError IntentWrite IntentKey Db where
  exec s db := s.exec db
  apply := IntentWrite.apply
  locks := IntentWrite.locks
  touches := IntentWrite.locks
  deferred _ _ := true

/-- A command: a call of the repository, with the store's answers and the time of the call, or the row
changes of any other module. -/
inductive IntentCommand where
  | create (organizationId : Uuid) (c : CreateArtifactUploadIntent)
  | complete (organizationId caseId intentId : Uuid) (store : ArtifactStore) (now : Instant)
  | others (ws : List IntentWrite)

/-- The result of a command. -/
inductive IntentReply where
  | done
  | completed (result : CompletedArtifactUpload)
deriving DecidableEq

/-- The row changes of another module, one after the other. -/
def otherWrites : List IntentWrite → IntentProg IntentReply
  | [] => return .done
  | w :: ws => do
    Prog.execute IntentError.db (IntentStmt.other w)
    otherWrites ws

section

variable (binds : PyStr → List PyStr)

/-- The program of a command. -/
def IntentCommand.program : IntentCommand → IntentProg IntentReply
  | .create organizationId c => do
    createIntent binds organizationId c
    return .done
  | .complete organizationId caseId intentId store now => do
    let result ← NetopsCopilot.complete binds organizationId caseId intentId store now
    return .completed result
  | .others ws => otherWrites ws

/-- Clients that run these commands in any transactions. -/
def intentSystem : System IntentStmt IntentStmt.Reply DbError Uuid IntentError IntentReply IntentWrite
    IntentKey Db IntentCommand where
  store := intentStore
  program c := c.program binds
  record _ _ := []

end

/-! ### Completing never succeeds -/

section

variable {binds : PyStr → List PyStr} {organizationId : Uuid} {x : Local IntentWrite Db}

/-- The discipline without slices. -/
abbrev intentDiscipline : Discipline intentStore Unit := Discipline.free intentStore

/-- What holds of a program's result. -/
abbrev Returns {A : Type} (p : IntentProg A) (Q : A → Local IntentWrite Db → Prop)
    (x : Local IntentWrite Db) : Prop := intentDiscipline.wp p (Discipline.OnOk Q) x

/-- Sequencing after a part nothing is known about. -/
theorem returns_after {A B : Type} {p : IntentProg A} {f : A → IntentProg B}
    {Q : B → Local IntentWrite Db → Prop} (hf : ∀ a y, Returns (f a) Q y) :
    Returns (p.elim f .raise) Q x :=
  Discipline.onOk_bind _ (Discipline.onOk_trivial _ p) fun a y _ => hf a y

/-- Sequencing after a part that never returns. -/
theorem returns_never {A B : Type} {p : IntentProg A} {f : A → IntentProg B}
    {Q : B → Local IntentWrite Db → Prop} (hp : Returns p (fun _ _ => False) x) :
    Returns (p.elim f .raise) Q x :=
  Discipline.onOk_bind _ hp fun _ _ h => False.elim h

theorem returns_executeText {sql : PyStr} {parameters : List PyStr} {s : IntentStmt}
    {Q : s.Reply → Local IntentWrite Db → Prop}
    (h : ∀ db r ws, s.exec db = .ok (r, ws) → ∀ db',
      Q r { x with db := db', pending := x.pending ++ ws }) :
    Returns (executeText binds sql parameters s) Q x := by
  unfold executeText
  split
  · exact Discipline.onOk_raise _
  · exact Discipline.onOk_execute _ fun db r ws hexec db' => h _ r ws hexec db'

/-- The event of a completion is refused: it has no actor. -/
theorem exec_completionEvent (intent : IntentRow) (aggregateVersion : Nat) (completedAt : Instant)
    (eventId : Uuid) (db : Db) :
    IntentStmt.exec (.insertArtifactCompletionEvent
      (completionEvent organizationId intent aggregateVersion completedAt eventId)) db =
        .error (.notNull (py "actor_id")) := rfl

theorem insertCompletionOutbox_never (intent : IntentRow) (completedAt : Instant) :
    Returns (insertCompletionOutbox binds organizationId intent completedAt) (fun _ _ => False) x := by
  unfold insertCompletionOutbox
  refine returns_after fun versions y => returns_after fun aggregateVersion y =>
    returns_after fun eventId y => returns_never (returns_executeText fun db r ws hexec => ?_)
  rw [exec_completionEvent] at hexec
  cases hexec

theorem recordCompletion_never (intent : IntentRow) (metadata : ArtifactObjectMetadata)
    (completedAt : Instant) :
    Returns (recordCompletion binds organizationId intent metadata completedAt)
      (fun _ _ => False) x := by
  unfold recordCompletion
  exact returns_after fun _ y => returns_after fun _ y => returns_after fun processingId y =>
    returns_after fun _ y => returns_never (insertCompletionOutbox_never intent completedAt)

/-- What a call of `complete` that returns has found: a completed intent, which it has locked. -/
def FoundCompleted (intentId : Uuid) (base : List IntentWrite) (result : CompletedArtifactUpload)
    (ws : List IntentWrite) : Prop :=
  ∃ row : IntentRow, row.id = intentId ∧ row.status = .completed ∧ ws = base ++ [.lockIntent row] ∧
    result.artifactId = row.artifactId ∧ result.alreadyCompleted = true

theorem loadForCompletion_returns (caseId intentId : Uuid) :
    Returns (loadForCompletion binds organizationId caseId intentId)
      (fun row y => row.id = intentId ∧ y.pending = x.pending ++ [.lockIntent row]) x := by
  unfold loadForCompletion
  refine Discipline.onOk_bind _ (Q := fun rows y => y.pending = x.pending ++ rows.map .lockIntent ∧
    ∀ row ∈ rows, row.id = intentId) ?_ ?_
  · refine returns_executeText fun db r ws hexec db' => ?_
    cases hexec
    refine ⟨rfl, fun row hrow => ?_⟩
    have hrow' := (List.mem_filter.mp hrow).2
    simp only [Bool.and_eq_true, beq_iff_eq] at hrow'
    exact hrow'.2
  · rintro (_ | ⟨row, _ | ⟨_, _⟩⟩) y ⟨hpending, hid⟩
    · exact Discipline.onOk_raise _
    · exact Discipline.onOk_ret _ fun _ => ⟨hid row List.mem_cons_self, hpending⟩
    · exact Discipline.onOk_raise _

theorem loadCompletedAt_returns (intentId : Uuid) :
    Returns (loadCompletedAt binds intentId) (fun _ y => y.pending = x.pending) x := by
  unfold loadCompletedAt
  refine Discipline.onOk_bind _ (Q := fun _ y => y.pending = x.pending) ?_ fun rows y hy => ?_
  · refine returns_executeText fun db r ws hexec db' => ?_
    cases hexec
    exact List.append_nil _
  · refine Discipline.onOk_bind _ (Q := fun _ y => y.pending = x.pending)
      (Discipline.onOk_lift _ fun _ _ _ => hy) ?_
    rintro (_ | value) z hz
    · exact Discipline.onOk_raise _
    · exact Discipline.onOk_ret _ fun _ => hz

theorem completeLoaded_returns (store : ArtifactStore) (now : Instant) (intent : IntentRow) :
    Returns (completeLoaded binds organizationId store now intent)
      (fun result y => intent.status = .completed ∧ y.pending = x.pending ∧
        result.artifactId = intent.artifactId ∧ result.alreadyCompleted = true) x := by
  unfold completeLoaded
  split_ifs with hcompleted
  · refine Discipline.onOk_bind _ (loadCompletedAt_returns intent.id) fun completedAt y hy => ?_
    exact Discipline.onOk_ret _ fun _ => ⟨hcompleted, hy, rfl, rfl⟩
  · exact Discipline.onOk_raise _
  · exact Discipline.onOk_raise _
  · refine returns_after fun request y => returns_after fun metadata y => returns_after fun _ y => ?_
    have hnever : Returns (recordCompletion binds organizationId intent metadata now) (fun _ _ => False) y :=
      recordCompletion_never intent metadata now
    exact Discipline.wp_mono _ hnever fun r z hz => by cases r <;> trivial

end

/-! ### Savepoints -/

section

variable (binds : PyStr → List PyStr)

theorem flat_executeText (sql : PyStr) (parameters : List PyStr) (s : IntentStmt) :
    (executeText binds sql parameters s).Flat := by
  unfold executeText
  split
  · trivial
  · exact Prog.flat_execute _ _

theorem flat_complete (organizationId caseId intentId : Uuid) (store : ArtifactStore) (now : Instant) :
    ((loadForCompletion binds organizationId caseId intentId).elim
      (completeLoaded binds organizationId store now) .raise).Flat := by
  refine Prog.Flat.bind ?_ fun intent => ?_
  · refine Prog.Flat.bind (flat_executeText ..) ?_
    rintro (_ | ⟨row, _ | ⟨_, _⟩⟩) <;> trivial
  · unfold completeLoaded
    split_ifs
    · refine Prog.Flat.bind (Prog.Flat.bind (flat_executeText ..) fun rows => ?_) fun _ => trivial
      refine Prog.Flat.bind (Prog.flat_lift _) ?_
      rintro (_ | _) <;> trivial
    · trivial
    · trivial
    · refine Prog.Flat.bind (Prog.flat_lift _) fun _ => Prog.Flat.bind (Prog.flat_lift _) fun _ =>
        Prog.Flat.bind (Prog.flat_lift _) fun _ => ?_
      refine Prog.Flat.bind (Prog.flat_lift _) fun _ => ?_
      refine Prog.Flat.bind (flat_executeText ..) fun _ => Prog.Flat.bind Prog.flat_draw fun _ =>
        Prog.Flat.bind (flat_executeText ..) fun _ => ?_
      refine Prog.Flat.bind ?_ fun _ => Prog.Flat.bind (flat_executeText ..) fun _ =>
        Prog.Flat.bind Prog.flat_draw fun _ => Prog.Flat.bind (flat_executeText ..) fun _ => trivial
      exact Prog.Flat.bind (flat_executeText ..) fun _ => Prog.Flat.bind (Prog.flat_lift _) fun _ =>
        Prog.Flat.bind Prog.flat_draw fun _ => Prog.Flat.bind (flat_executeText ..) fun _ =>
          Prog.Flat.bind Prog.flat_draw fun _ => flat_executeText ..

theorem flat_otherWrites (ws : List IntentWrite) : (otherWrites ws).Flat := by
  induction ws with
  | nil => trivial
  | cons w ws ih => exact Prog.Flat.bind (Prog.flat_execute _ _) fun _ => ih

/-- The end of a command: a call of `complete` found a completed intent, or has left nothing. -/
def Concluded (c : IntentCommand) (base : List IntentWrite) (r : Except IntentError IntentReply)
    (y : Local IntentWrite Db) : Prop :=
  match c, r with
  | .complete _ _ intentId _ _, .ok reply => ∃ result, reply = .completed result ∧
      FoundCompleted intentId base result y.pending
  | .complete _ _ _ _ _, .error _ => y.pending = base
  | _, _ => True

theorem wp_complete (x : Local IntentWrite Db) (organizationId caseId intentId : Uuid)
    (store : ArtifactStore) (now : Instant) :
    intentDiscipline.wp ((IntentCommand.complete organizationId caseId intentId store now).program binds)
      (fun r y => y.saves = x.saves ∧
        Concluded (.complete organizationId caseId intentId store now) x.pending r y) x := by
  refine Discipline.wp_map _ (Discipline.wp_mono _ (Discipline.wp_atomic_flat _
    (flat_complete binds organizationId caseId intentId store now)
    (Q := fun result ws => FoundCompleted intentId x.pending result ws) ?_) ?_)
  · refine Discipline.onOk_bind _ (loadForCompletion_returns caseId intentId) fun row y hy => ?_
    obtain ⟨hid, hpending⟩ := hy
    refine Discipline.wp_mono _ (completeLoaded_returns store now row) fun r z hz => ?_
    cases r with
    | error e => trivial
    | ok result =>
      obtain ⟨hstatus, hz, hartifact, halready⟩ := hz
      exact ⟨row, hid, hstatus, hz.trans hpending, hartifact, halready⟩
  · rintro (e | result) y ⟨hsaves, hy⟩
    · exact ⟨hsaves, hy⟩
    · exact ⟨hsaves, result, rfl, hy⟩

/-- **Every command keeps the discipline.** -/
theorem intentSystem_sound : Sound (intentSystem binds) intentDiscipline Concluded where
  command := by
    intro c db ps _ _
    have hready : ∀ y : Local IntentWrite Db, intentDiscipline.Ready y.db (y.pending ++ []) := fun y =>
      ⟨fun _ => trivial, fun _ hk => hk, trivial⟩
    cases c with
    | create organizationId c =>
      refine Discipline.wp_map _ (Discipline.wp_mono _ (Discipline.wp_atomic_flat _ ?_
        (Q := fun _ _ => True) (Discipline.onOk_trivial _ _)) fun r y hy => ⟨hy.1, hready y, trivial⟩)
      exact Prog.Flat.bind (flat_executeText ..) fun _ => Prog.Flat.bind Prog.flat_draw fun _ =>
        flat_executeText ..
    | complete organizationId caseId intentId store now =>
      exact Discipline.wp_mono _ (wp_complete binds _ organizationId caseId intentId store now)
        fun r y hy => ⟨hy.1, hready y, hy.2⟩
    | others ws =>
      exact Discipline.wp_mono _ (Discipline.wp_flat _ (flat_otherWrites ws) _)
        fun r y hy => ⟨hy, hready y, trivial⟩
  recordLocks _ _ := rfl

end

/-! ### Main result -/

/-- **No call of `complete` turns a pending intent into an artifact.** In every run, whatever `text()`
reads off the statements, whatever the object store answers and whatever other transactions commit: a call
that returns has found the intent completed and has only locked it, and a call that raises has left its
transaction as it was. -/
theorem completion_never {binds : PyStr → List PyStr} {db₀ : Db}
    {s : State IntentStmt IntentStmt.Reply DbError Uuid IntentError IntentReply IntentWrite Db
      IntentCommand} (hs : (intentSystem binds).Reachable db₀ s) (i : ℕ)
    (organizationId caseId intentId : Uuid) (store : ArtifactStore) (now : Instant) :
    (∀ reply, (s.client i).running = some (.complete organizationId caseId intentId store now, .ret reply) →
      ∃ result, reply = .completed result ∧
        FoundCompleted intentId (s.client i).mark result (s.client i).pending) ∧
    ∀ e, (s.client i).running = some (.complete organizationId caseId intentId store now, .raise e) →
      (s.client i).pending = (s.client i).mark := by
  have hinv := (intentSystem_sound binds).reachable_inv (fun _ => trivial) hs
  constructor
  · intro reply hrun
    have hwp := (Sound.clientInv_running hrun).mp (hinv.client i)
    exact (hwp s.committed (Discipline.Rely.refl _ _)).2.2
  · intro e hrun
    have hwp := (Sound.clientInv_running hrun).mp (hinv.client i)
    exact (hwp s.committed (Discipline.Rely.refl _ _)).2.2

/-! ### An upload -/

/-- The sample case. -/
def sampleCaseRow : CaseRow where
  id := 10
  organizationId := 7
  assetId := none
  title := py "Link down"
  category := none
  severity := .high
  state := .new
  version := 0
  idempotencyKey := py "key-1"
  requestSha256 := zeroSha256
  createdByActorId := some 1
  correlationId := 12
  createdAt := 100
  updatedAt := 100

/-- A declared configuration file for it, to be uploaded before time 900. -/
def sampleUpload : CreateArtifactUploadIntent where
  intentId := 40
  artifactId := 41
  caseId := 10
  artifactKind := .networkConfiguration
  classification := py "raw"
  contentType := py "text/plain"
  byteSize := 64
  sha256Hex := ⟨List.replicate 64 97, by decide, by decide⟩
  originalFilename := none
  actorId := 1
  correlationId := 42
  createdAt := 200
  expiresAt := 900

/-- A store that holds the object as it was declared. -/
def sampleStore : ArtifactStore := fun request => .ok
  { contentType := request.contentType
    contentLength := request.contentLength
    sha256Hex := request.sha256Hex
    encryptionKeyReference := py "s3:AES256"
    contentTypeOk := request.contentTypeOk
    contentLengthOk := request.contentLengthOk
    encryptionKeyReferenceOk := by decide }

/-- A database with the case. -/
def sampleDb : Db := { organizations := [7], cases := [sampleCaseRow] }

/-- The intents once the upload is declared, and the end of a call that completes it at time 300. -/
def sampleCompletion (binds : PyStr → List PyStr) :
    Option (List IntentStatus × Except IntentError IntentReply) := do
  let db ← (intentSystem binds).serial [(.create 7 sampleUpload, [50])] sampleDb
  let (r, _) ← ((IntentCommand.complete 7 10 40 sampleStore 300).program binds).solo intentStore db
    [51, 52, 53, 54] [] []
  return (db.intents.map (·.status), r)

/-- The upload is declared, pending and stored as declared, and completing it in time raises: a parameter
of a statement is missing, and if none were the event would lack its actor. -/
theorem sampleCompletion_raises :
    sampleCompletion bindNames = some ([.pending], .error (.unbound (py "true"))) ∧
    sampleCompletion (fun _ => []) = some ([.pending], .error (.db (.notNull (py "actor_id")))) := by
  have hunbound : sampleCompletion bindNames = some ([.pending], .error (.unbound (py "true"))) := by
    decide +kernel
  have hnull : sampleCompletion (fun _ => []) =
      some ([.pending], .error (.db (.notNull (py "actor_id")))) := by
    decide +kernel
  exact ⟨hunbound, hnull⟩

/-- Of that call. -/
theorem completion_never_sample : ∃ s : State IntentStmt IntentStmt.Reply DbError Uuid IntentError
    IntentReply IntentWrite Db IntentCommand,
    (s.client 0).running =
      some (.complete 7 10 40 sampleStore 300, .raise (.unbound (py "true"))) ∧
    (s.client 0).pending = (s.client 0).mark := by
  have hsolo : (((intentSystem bindNames).program (.complete 7 10 40 sampleStore 300)).solo
      (intentSystem bindNames).store { sampleDb with intents := [intentRow 7 sampleUpload] }
      [51, 52, 53, 54] [] []).map (·.1) = some (.error (.unbound (py "true"))) := by
    decide +kernel
  obtain ⟨⟨r, ps⟩, hrun, hr⟩ := Option.map_eq_some_iff.mp hsolo
  obtain ⟨s, hreach, hrunning, -⟩ := System.reachable_solo hrun
  rw [show r = _ from hr] at hrunning
  exact ⟨s, hrunning, (completion_never hreach 0 7 10 40 sampleStore 300).2 _ hrunning⟩

end NetopsCopilot
