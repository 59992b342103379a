import NetopsCopilot.Application.ScopedCalls
import NetopsCopilot.Application.ScopedPrograms

/-!
# Tenant isolation

A session is a sequence of calls of the repositories, constructed for one organization, with commits and rollbacks
between them. On two databases that agree on the rows of the organization it gives the same answers and leaves the
same rows of the organization, and the rows of all other organizations stay as they were (`tenants_isolated`):
whatever row-level security does. What the databases have to keep is what their keys say (`Db.Integrity`), and no
row of another organization has a UUID that the session generates.

The outbox and the inbox have no savepoint of their own: a call of theirs that raises rolls the transaction back.
-/

namespace NetopsCopilot

open Txn

/-! ### Calls -/

/-- An outcome of `apply_transition`. -/
def TransitionOutcome.Made (outcome : TransitionOutcome) : Prop :=
  ∃ snapshot command, applyTransition snapshot command = .ok outcome

/-- The methods of the repositories, with their arguments. -/
inductive RepositoryCall where
  | createCase (command : CreateCaseCommand)
  | getSnapshot (caseId : Uuid)
  | persistTransition (outcome : TransitionOutcome) (actor : Actor) (made : outcome.Made)
  | listCases (args : CaseListArgs)
  | getDetail (caseId : Uuid)
  | leaseAvailable (workerId : PyStr) (now : Instant) (limit leaseFor : Int)
  | markPublished (lease : OutboxLease) (publishedAt : Instant)
  | scheduleRetry (lease : OutboxLease) (retryAt : Instant) (errorCode : PyStr)
  | recordOnce (consumerName : PyStr) (eventId : Uuid) (payload : Json) (processedAt : Instant)
  | createIntent (command : CreateArtifactUploadIntent)
  | complete (caseId intentId : Uuid) (store : ArtifactStore) (now : Instant)
  | recordScanOutcome (command : RecordArtifactScanOutcome)
  | listForCase (caseId : Uuid)
  | readAfter (afterEventId : Option Uuid) (assetIds : List Uuid) (limit : Int)

/-- What they return. -/
inductive RepositoryReply where
  | created (result : CreateCaseResult)
  | snapshot (snapshot : CaseSnapshot)
  | moved (case : CaseRecord)
  | page (page : CaseListPage)
  | detail (detail : CaseDetail)
  | leased (events : List LeasedOutboxEvent)
  | settled
  | receipt (new : Bool)
  | intentCreated
  | completed (upload : CompletedArtifactUpload)
  | recorded (outcome : RecordedArtifactScanOutcome)
  | statuses (statuses : List ArtifactStatus)
  | events (events : List CaseFeedEvent)

/-- What they raise. -/
inductive RepositoryError where
  | case (e : CaseError)
  | outbox (e : OutboxError)
  | intent (e : IntentError)
  | verdict (e : RecordError)
  | feed (e : EventFeedError)

/-- The UUIDs that a call brings along; its callers have generated them. -/
def RepositoryCall.newIds : RepositoryCall → List Uuid
  | .createCase c => c.caseId :: c.eventId :: (c.caseInput.map (·.inputId)).toList
  | .persistTransition outcome _ _ => [outcome.transition.transitionId, outcome.event.eventId]
  | .createIntent c => [c.intentId, c.artifactId]
  | _ => []

/-- The methods that run in a savepoint, or do not write. -/
def RepositoryCall.savepoint : RepositoryCall → Bool
  | .leaseAvailable _ _ _ _ | .markPublished _ _ | .scheduleRetry _ _ _ | .recordOnce _ _ _ _ => false
  | _ => true

/-- A call on the database of a transaction. -/
def onDb {ε α : Type} (call : Db → Except ε (α × Db)) (w : Work) : Except ε α × Work :=
  match call w.db with
  | .ok (a, db) => (.ok a, { w with db := db })
  | .error e => (.error e, w)

/-- The answer of a method. -/
def answer {ε α : Type} (reply : α → RepositoryReply) (error : ε → RepositoryError) (q : Except ε α × Work) :
    Except RepositoryError RepositoryReply × Work := ((q.1.map reply).mapError error, q.2)

section

-- the digest, how `ILIKE` matches, how `text()` reads its names, and the role's privileges on the ledger
variable (sha256 : PyStr → Sha256Hex) (ilike : PyStr → PyStr → Bool) (binds : PyStr → List PyStr)
  (grants : List Privilege) (organizationId : Uuid)

/-- A call of a repository of the organization, with the UUIDs that are drawn during it. -/
def RepositoryCall.run (draws : Nat → Uuid) (w : Work) :
    RepositoryCall → Except RepositoryError RepositoryReply × Work
  | .createCase command => answer .created .case
    ((NetopsCopilot.createCase sha256 organizationId command).eval CaseStmt.onWork draws w [])
  | .getSnapshot caseId => answer .snapshot .case
    ((NetopsCopilot.getSnapshot organizationId caseId).eval CaseStmt.onWork draws w [])
  | .persistTransition outcome actor _ => answer .moved .case
    ((NetopsCopilot.persistTransition organizationId outcome actor).eval CaseStmt.onWork draws w [])
  | .listCases args => answer .page .case (NetopsCopilot.listCases ilike organizationId args w.db, w)
  | .getDetail caseId => answer .detail .case
    ((NetopsCopilot.getDetail organizationId caseId).eval CaseStmt.onWork draws w [])
  | .leaseAvailable workerId now limit leaseFor => answer .leased .outbox
    (onDb (NetopsCopilot.leaseAvailable organizationId workerId now limit leaseFor (draws 0)) w)
  | .markPublished lease publishedAt => answer (fun _ : Unit => .settled) .outbox
    (onDb (fun db => (NetopsCopilot.markPublished organizationId lease publishedAt db).map fun db' =>
      ((), db')) w)
  | .scheduleRetry lease retryAt errorCode => answer (fun _ : Unit => .settled) .outbox
    (onDb (fun db => (NetopsCopilot.scheduleRetry organizationId lease retryAt errorCode db).map fun db' =>
      ((), db')) w)
  | .recordOnce consumerName eventId payload processedAt => answer .receipt .outbox
    (onDb (NetopsCopilot.recordOnce sha256 organizationId consumerName eventId payload processedAt
      (draws 0)) w)
  | .createIntent command => answer (fun _ => .intentCreated) .intent
    ((NetopsCopilot.createIntent binds organizationId command).eval IntentStmt.onWork draws w [])
  | .complete caseId intentId store now => answer .completed .intent
    ((NetopsCopilot.complete binds organizationId caseId intentId store now).eval IntentStmt.onWork draws w [])
  | .recordScanOutcome command => answer .recorded .verdict
    (onDb (recordVerdict grants organizationId command (draws 0)) w)
  | .listForCase caseId => (.ok (.statuses (NetopsCopilot.listForCase organizationId caseId w.db)), w)
  | .readAfter afterEventId assetIds limit => answer .events .feed
    (NetopsCopilot.readAfter organizationId afterEventId assetIds limit w.db, w)

/-! ### Sessions -/

/-- The committed database, and the transaction under way. -/
structure Session where
  committed : Db
  work : Work

/-- A new transaction. -/
def Session.start (db : Db) : Session := ⟨db, { db := db }⟩

inductive SessionStep where
  | call (c : RepositoryCall) (draws : Nat → Uuid)
  | commit
  | rollback

inductive SessionAnswer where
  | returned (reply : RepositoryReply)
  | raised (e : RepositoryError)
  | committed
  /-- The deferred triggers refuse the transaction. -/
  | refused
  | rolledBack

def SessionStep.run (s : Session) : SessionStep → SessionAnswer × Session
  | .call c draws =>
    match c.run sha256 ilike binds grants organizationId draws s.work with
    | (.ok reply, w) => (.returned reply, { s with work := w })
    | (.error e, w) => (.raised e, if c.savepoint then { s with work := w } else .start s.committed)
  | .commit =>
    if s.work.changes.all fun change => change.passes s.work.db then (.committed, .start s.work.db)
    else (.refused, .start s.committed)
  | .rollback => (.rolledBack, .start s.committed)

/-- The answers of a session and the state it ends in. -/
def runSession : List SessionStep → Session → List SessionAnswer × Session
  | [], s => ([], s)
  | step :: steps, s =>
    let q := step.run sha256 ilike binds grants organizationId s
    let rest := runSession steps q.2
    (q.1 :: rest.1, rest.2)

end

/-! ### Keys -/

/-- The rows of an organization. -/
def Scope.ofTenant (organizationId : Uuid) : Scope where
  tenant o := o == organizationId
  case o _ := o == organizationId
  event o _ := o == organizationId
  artifact o _ := o == organizationId
  audit o _ := o == organizationId

/-- What the keys of the tables say: primary keys do not repeat, the foreign keys carry the organization, and
the artifact that an intent reserves the identifier of belongs to the intent's organization. -/
structure Db.Integrity (db : Db) : Prop where
  cases : (db.cases.map (·.id)).Nodup
  caseInputs : (db.caseInputs.map (·.id)).Nodup
  transitions : (db.transitions.map (·.id)).Nodup
  events : (db.events.map (·.id)).Nodup
  outbox : (db.outbox.map (·.id)).Nodup
  audit : (db.audit.map (·.id)).Nodup
  artifacts : (db.artifacts.map (·.id)).Nodup
  intents : (db.intents.map (·.id)).Nodup
  intentArtifacts : (db.intents.map (·.artifactId)).Nodup
  processing : (db.processing.map (·.id)).Nodup
  transitionCase : ∀ t ∈ db.transitions, ∃ c ∈ db.cases,
    c.organizationId = t.organizationId ∧ c.id = t.caseId
  eventTransition : ∀ e ∈ db.events, ∀ id ∈ e.transitionId, ∃ t ∈ db.transitions,
    t.organizationId = e.organizationId ∧ t.id = id
  outboxEvent : ∀ o ∈ db.outbox, ∃ e ∈ db.events, e.organizationId = o.organizationId ∧ e.id = o.caseEventId
  processingArtifact : ∀ p ∈ db.processing, ∃ a ∈ db.artifacts,
    a.organizationId = p.organizationId ∧ a.id = p.artifactId
  artifactIntent : ∀ a ∈ db.artifacts, ∀ i ∈ db.intents, i.artifactId = a.id →
    i.organizationId = a.organizationId

/-- The organization of the row with an identifier. -/
def Db.organizationOf (db : Db) : RowId → Option Uuid
  | .case id => (db.cases.find? fun r => r.id == id).map (·.organizationId)
  | .caseInput id => (db.caseInputs.find? fun r => r.id == id).map (·.organizationId)
  | .transition id => (db.transitions.find? fun r => r.id == id).map (·.organizationId)
  | .event id => (db.events.find? fun r => r.id == id).map (·.organizationId)
  | .outbox id => (db.outbox.find? fun r => r.id == id).map (·.organizationId)
  | .audit id => (db.audit.find? fun r => r.id == id).map (·.organizationId)
  | .intent id => (db.intents.find? fun r => r.id == id).map (·.organizationId)
  | .artifact id => ((db.artifacts.find? fun r => r.id == id).map (·.organizationId)).or
    ((db.intents.find? fun r => r.artifactId == id).map (·.organizationId))
  | .processing id => (db.processing.find? fun r => r.id == id).map (·.organizationId)
  | .idempotency organizationId _ | .storage organizationId _ => some organizationId

/-- No row of another organization has the UUID. -/
def Db.Fresh (db : Db) (organizationId id : Uuid) : Prop :=
  ∀ k : RowId, k.uuid = some id → ∀ o ∈ db.organizationOf k, o = organizationId

/-- The UUIDs that are generated for a step and during it are fresh. -/
def SessionStep.Fresh (db : Db) (organizationId : Uuid) : SessionStep → Prop
  | .call c draws => (∀ id ∈ c.newIds, db.Fresh organizationId id) ∧ ∀ n, db.Fresh organizationId (draws n)
  | .commit | .rollback => True

/-- The identifiers of other organizations. -/
def Db.foreign (db : Db) (organizationId : Uuid) (k : RowId) : Prop :=
  ∃ o ∈ db.organizationOf k, o ≠ organizationId

theorem unused_of_fresh {db : Db} {organizationId id : Uuid} (h : db.Fresh organizationId id) :
    Unused (db.foreign organizationId) id := by
  rintro k hk ⟨o, ho, hne⟩
  exact hne (h k hk o ho)

section

variable {db : Db}

theorem find_label {α γ : Type} [BEq γ] [LawfulBEq γ] {f : α → γ} {rows : List α} (hnd : (rows.map f).Nodup)
    {r : α} (hr : r ∈ rows) : rows.find? (fun x => f x == f r) = some r := by
  rw [← List.head?_filter, Rows.filter_label hnd hr]
  rfl

/-- The organization of a row is the one its identifiers belong to. -/
theorem organizationOf_case (h : db.Integrity) {r : CaseRow} (hr : r ∈ db.cases) :
    db.organizationOf (.case r.id) = some r.organizationId := by
  simp only [Db.organizationOf, find_label h.cases hr, Option.map_some]

theorem organizationOf_transition (h : db.Integrity) {r : TransitionRow} (hr : r ∈ db.transitions) :
    db.organizationOf (.transition r.id) = some r.organizationId := by
  simp only [Db.organizationOf, find_label h.transitions hr, Option.map_some]

theorem organizationOf_event (h : db.Integrity) {r : EventRow} (hr : r ∈ db.events) :
    db.organizationOf (.event r.id) = some r.organizationId := by
  simp only [Db.organizationOf, find_label h.events hr, Option.map_some]

theorem organizationOf_artifact (h : db.Integrity) {r : ArtifactRow} (hr : r ∈ db.artifacts) :
    db.organizationOf (.artifact r.id) = some r.organizationId := by
  simp only [Db.organizationOf, find_label h.artifacts hr, Option.map_some, Option.some_or]

theorem organizationOf_intent (h : db.Integrity) {r : IntentRow} (hr : r ∈ db.intents) :
    db.organizationOf (.artifact r.artifactId) = some r.organizationId := by
  simp only [Db.organizationOf, find_label h.intentArtifacts hr, Option.map_some]
  cases hfind : db.artifacts.find? fun a => a.id == r.artifactId with
  | none => rfl
  | some a =>
    have hid : a.id = r.artifactId := beq_iff_eq.mp (List.find?_some (p := fun x : ArtifactRow => x.id == _) hfind)
    rw [h.artifactIntent a (List.mem_of_find?_eq_some hfind) r hr hid.symm]
    rfl

/-- A table whose identifiers belong to the organizations of its rows. -/
theorem parted_of_organizationOf {α : Type} {ids : α → List RowId} {tenant : α → Uuid} {rows : List α}
    {organizationId : Uuid} (h : ∀ r ∈ rows, ∀ k ∈ ids r, db.organizationOf k = some (tenant r)) :
    Rows.Parted (db.foreign organizationId) ids (fun r => tenant r == organizationId) rows := by
  intro r hr k hk
  simp [Db.foreign, h r hr k hk]

/-- **Keys keep the organizations apart.** -/
theorem divided_ofTenant (h : db.Integrity) (organizationId : Uuid) :
    db.Divided (.ofTenant organizationId) (db.foreign organizationId) where
  cases := parted_of_organizationOf fun r hr k hk => by
    simp only [CaseRow.ids, List.mem_cons, List.not_mem_nil, or_false] at hk
    rcases hk with rfl | rfl
    · exact organizationOf_case h hr
    · rfl
  caseInputs := parted_of_organizationOf fun r hr k hk => by
    rw [CaseInputRow.ids, List.mem_singleton] at hk
    simp only [hk, Db.organizationOf, find_label h.caseInputs hr, Option.map_some]
  transitions := parted_of_organizationOf fun r hr k hk => by
    simp only [TransitionRow.ids, List.mem_cons, List.not_mem_nil, or_false] at hk
    rcases hk with rfl | rfl
    · exact organizationOf_transition h hr
    · obtain ⟨c, hc, horganization, hid⟩ := h.transitionCase r hr
      rw [← hid, ← horganization]
      exact organizationOf_case h hc
  events := parted_of_organizationOf fun r hr k hk => by
    rcases List.mem_cons.mp hk with rfl | hk
    · exact organizationOf_event h hr
    · obtain ⟨id, hid, rfl⟩ := Option.map_eq_some_iff.mp (Option.mem_toList.mp hk)
      obtain ⟨t, ht, horganization, rfl⟩ := h.eventTransition r hr id hid
      rw [← horganization]
      exact organizationOf_transition h ht
  outbox := parted_of_organizationOf fun r hr k hk => by
    simp only [OutboxRow.ids, List.mem_cons, List.not_mem_nil, or_false] at hk
    rcases hk with rfl | rfl
    · simp only [Db.organizationOf, find_label h.outbox hr, Option.map_some]
    · obtain ⟨e, he, horganization, hid⟩ := h.outboxEvent r hr
      rw [← hid, ← horganization]
      exact organizationOf_event h he
  audit := parted_of_organizationOf fun r hr k hk => by
    rw [AuditRow.ids, List.mem_singleton] at hk
    simp only [hk, Db.organizationOf, find_label h.audit hr, Option.map_some]
  artifacts := parted_of_organizationOf fun r hr k hk => by
    simp only [ArtifactRow.ids, List.mem_cons, List.not_mem_nil, or_false] at hk
    rcases hk with rfl | rfl
    · exact organizationOf_artifact h hr
    · rfl
  intents := parted_of_organizationOf fun r hr k hk => by
    simp only [IntentRow.ids, List.mem_cons, List.not_mem_nil, or_false] at hk
    rcases hk with rfl | rfl | rfl
    · simp only [Db.organizationOf, find_label h.intents hr, Option.map_some]
    · exact organizationOf_intent h hr
    · rfl
  processing := parted_of_organizationOf fun r hr k hk => by
    simp only [ProcessingRow.ids, List.mem_cons, List.not_mem_nil, or_false] at hk
    rcases hk with rfl | rfl
    · simp only [Db.organizationOf, find_label h.processing hr, Option.map_some]
    · obtain ⟨a, ha, horganization, hid⟩ := h.processingArtifact r hr
      rw [← hid, ← horganization]
      exact organizationOf_artifact h ha

end

/-! ### Calls on the rows of the organization -/

section

variable {sc : Scope} {out : RowId → Prop} {outside : Db} {w : Work}

/-- An answer on the part is the answer, and leaves the part of the transaction confined. -/
def SameOn (sc : Scope) (out : RowId → Prop) (outside : Db) {α : Type} (q' q : α × Work) : Prop :=
  q' = (q.1, q.2.within sc) ∧ q.2.Confined sc out outside

theorem SameOn.answer {ε α : Type} {q' q : Except ε α × Work} (h : SameOn sc out outside q' q)
    (reply : α → RepositoryReply) (error : ε → RepositoryError) :
    SameOn sc out outside (answer reply error q') (answer reply error q) := by
  obtain ⟨rfl, hconfined⟩ := h
  exact ⟨rfl, hconfined⟩

theorem sameOn_eval_case {A : Type} {Q : A → Prop} {p : CaseProg A}
    (hp : p.Confined (caseConfinement sc out outside) Q) {draws : Nat → Uuid}
    (hdraws : ∀ n, Unused out (draws n)) (hw : w.Confined sc out outside) :
    SameOn sc out outside (p.eval CaseStmt.onWork draws (w.within sc) []) (p.eval CaseStmt.onWork draws w []) :=
  hp.eval_part hdraws hw [] nofun

theorem sameOn_eval_intent {A : Type} {Q : A → Prop} {p : IntentProg A}
    (hp : p.Confined (intentConfinement sc out outside) Q) {draws : Nat → Uuid}
    (hdraws : ∀ n, Unused out (draws n)) (hw : w.Confined sc out outside) :
    SameOn sc out outside (p.eval IntentStmt.onWork draws (w.within sc) [])
      (p.eval IntentStmt.onWork draws w []) :=
  hp.eval_part hdraws hw [] nofun

theorem sameOn_onDb {ε α : Type} {call : Db → Except ε (α × Db)} (hcall : w.Admits sc out outside call)
    (hw : w.Confined sc out outside) : SameOn sc out outside (onDb call (w.within sc)) (onDb call w) := by
  obtain ⟨hwithin, hconfined⟩ := hcall
  unfold onDb
  change SameOn sc out outside (match call (w.db.within sc) with | .ok (a, db) => _ | .error e => _) _
  rw [hwithin]
  cases hok : call w.db with
  | error e => exact ⟨rfl, hw⟩
  | ok q => exact ⟨rfl, hconfined q.1 q.2 hok⟩

theorem sameOn_query {α : Type} {a' a : α} (h : a' = a) (hw : w.Confined sc out outside) :
    SameOn sc out outside (a', w.within sc) (a, w) := by
  subst h
  exact ⟨rfl, hw⟩

end

section

variable (sha256 : PyStr → Sha256Hex) (ilike : PyStr → PyStr → Bool) (binds : PyStr → List PyStr)
  (grants : List Privilege) {organizationId : Uuid} {out : RowId → Prop} {outside : Db} {w : Work}

/-- The cases of the organization are in its part. -/
theorem case_ofTenant (organizationId caseId : Uuid) :
    (Scope.ofTenant organizationId).case organizationId caseId = true := beq_self_eq_true organizationId

theorem serves_ofTenant (organizationId : Uuid) : (Scope.ofTenant organizationId).Serves out organizationId :=
  ⟨beq_self_eq_true organizationId, fun _ _ => beq_self_eq_true organizationId,
    fun _ _ => beq_self_eq_true organizationId⟩

theorem shows_ofTenant (organizationId : Uuid) (assetIds : List Uuid) (db : Db) :
    (Scope.ofTenant organizationId).Shows organizationId assetIds db := by
  intro c _ hvisible
  exact (Bool.and_eq_true_iff.mp hvisible).1

/-- **A call on the rows of its organization** answers the same, whatever the other rows are. -/
theorem RepositoryCall.sameOn (c : RepositoryCall) (hids : ∀ id ∈ c.newIds, Unused out id) {draws : Nat → Uuid}
    (hdraws : ∀ n, Unused out (draws n)) (hkeys : ∀ key, ¬out (.idempotency organizationId key))
    (hstorage : ∀ key, ¬out (.storage organizationId key))
    (hw : w.Confined (.ofTenant organizationId) out outside) :
    SameOn (.ofTenant organizationId) out outside
      (c.run sha256 ilike binds grants organizationId draws (w.within (.ofTenant organizationId)))
      (c.run sha256 ilike binds grants organizationId draws w) := by
  have hserves := @serves_ofTenant out organizationId
  have hcase := case_ofTenant organizationId
  cases c with
  | createCase c =>
    have hunused : c.Unused out organizationId :=
      ⟨hids c.caseId (by simp [newIds]) _ rfl, hkeys c.idempotencyKey, hids c.eventId (by simp [newIds]) _ rfl,
        fun i hi => hids i.inputId (by simp [newIds, Option.mem_def.mp hi]) _ rfl⟩
    exact (sameOn_eval_case (confined_createCase hserves (hcase c.caseId) hunused) hdraws hw).answer _ _
  | getSnapshot caseId => exact (sameOn_eval_case (confined_getSnapshot (hcase caseId)) hdraws hw).answer _ _
  | persistTransition outcome actor made =>
    obtain ⟨snapshot, command, hmade⟩ := made
    obtain ⟨-, rfl⟩ := applyTransition_ok hmade
    have htransition : ¬out (.transition command.transitionId) :=
      hids command.transitionId (by simp [newIds, transitionOutcome]) _ rfl
    have hevent : ¬out (.event command.eventId) := hids command.eventId (by simp [newIds, transitionOutcome]) _ rfl
    exact (sameOn_eval_case (confined_persistTransition hmade hserves (hcase command.caseId) htransition hevent)
      hdraws hw).answer _ _
  | listCases args =>
    exact (sameOn_query (listCases_within (shows_ofTenant _ _ _)) hw).answer _ _
  | getDetail caseId => exact (sameOn_eval_case (confined_getDetail (hcase caseId)) hdraws hw).answer _ _
  | leaseAvailable workerId now limit leaseFor =>
    exact (sameOn_onDb (admits_leaseAvailable hw hcase workerId now limit leaseFor (draws 0)) hw).answer _ _
  | markPublished lease publishedAt =>
    have hsettle := admits_settle hw hcase lease (fun _ hr => guard_published publishedAt hr)
      (fun _ => rfl) fun _ => rfl
    exact (sameOn_onDb hsettle hw).answer _ _
  | scheduleRetry lease retryAt errorCode =>
    have hsettle := admits_settle hw hcase lease (fun r _ => guard_retried retryAt errorCode r)
      (fun _ => rfl) fun _ => rfl
    have hcall : w.Admits (.ofTenant organizationId) out outside fun db =>
        (NetopsCopilot.scheduleRetry organizationId lease retryAt errorCode db).map fun db' => ((), db') := by
      unfold NetopsCopilot.scheduleRetry
      split_ifs
      · exact hsettle
      · exact ⟨rfl, nofun⟩
    exact (sameOn_onDb hcall hw).answer _ _
  | recordOnce consumerName eventId payload processedAt =>
    exact (sameOn_onDb (admits_recordOnce hw hserves.tenant consumerName payload processedAt (draws 0))
      hw).answer _ _
  | createIntent c =>
    have hunused : c.Unused out organizationId :=
      ⟨hids c.intentId (by simp [newIds]) _ rfl, hids c.artifactId (by simp [newIds]) _ rfl, hstorage _⟩
    exact (sameOn_eval_intent (confined_createIntent hserves (hcase c.caseId) hunused) hdraws hw).answer _ _
  | complete caseId intentId store now =>
    exact (sameOn_eval_intent (confined_complete hserves (hcase caseId)) hdraws hw).answer _ _
  | recordScanOutcome command =>
    exact (sameOn_onDb (admits_recordVerdict hw hserves.tenant (hdraws 0 _ rfl)) hw).answer _ _
  | listForCase caseId =>
    exact sameOn_query (congrArg (Except.ok ∘ RepositoryReply.statuses)
      (listForCase_within hw.divided (hcase caseId))) hw
  | readAfter afterEventId assetIds limit =>
    exact (sameOn_query (readAfter_within (shows_ofTenant _ _ _)) hw).answer _ _

/-! ### Sessions on the rows of the organization -/

/-- The session of a part of the database. -/
def Session.within (sc : Scope) (s : Session) : Session := ⟨s.committed.within sc, s.work.within sc⟩

/-- The session has changed rows of the part only. -/
structure Session.Confined (sc : Scope) (out : RowId → Prop) (outside : Db) (s : Session) : Prop where
  committed : ({ db := s.committed } : Work).Confined sc out outside
  work : s.work.Confined sc out outside

theorem Session.Confined.of_db {sc : Scope} {db : Db} (h : ({ db := db } : Work).Confined sc out outside) :
    (Session.start db).Confined sc out outside := ⟨h, h⟩

/-- What a confined transaction commits is confined. -/
theorem Work.Confined.commit {sc : Scope} (h : w.Confined sc out outside) :
    ({ db := w.db } : Work).Confined sc out outside where
  divided := h.divided
  outside := h.outside
  changes _ hchange := absurd hchange List.not_mem_nil

theorem SessionStep.run_within {s : Session} {step : SessionStep}
    (hstep : ∀ c draws, step = .call c draws → (∀ id ∈ c.newIds, Unused out id) ∧ ∀ n, Unused out (draws n))
    (hkeys : ∀ key, ¬out (.idempotency organizationId key))
    (hstorage : ∀ key, ¬out (.storage organizationId key))
    (hs : s.Confined (.ofTenant organizationId) out outside) :
    step.run sha256 ilike binds grants organizationId (s.within (.ofTenant organizationId)) =
        ((step.run sha256 ilike binds grants organizationId s).1,
          (step.run sha256 ilike binds grants organizationId s).2.within (.ofTenant organizationId)) ∧
      (step.run sha256 ilike binds grants organizationId s).2.Confined (.ofTenant organizationId) out outside := by
  cases step with
  | rollback => exact ⟨rfl, .of_db hs.committed⟩
  | commit =>
    have hpasses : ((s.within (.ofTenant organizationId)).work.changes.all fun change =>
          change.passes (s.within (.ofTenant organizationId)).work.db) =
        s.work.changes.all fun change => change.passes s.work.db := hs.work.passes
    simp only [SessionStep.run, hpasses]
    by_cases htriggers : (s.work.changes.all fun change => change.passes s.work.db) = true
    · rw [if_pos htriggers, if_pos htriggers]
      exact ⟨rfl, .of_db hs.work.commit⟩
    · rw [if_neg htriggers, if_neg htriggers]
      exact ⟨rfl, .of_db hs.committed⟩
  | call c draws =>
    obtain ⟨hids, hdraws⟩ := hstep c draws rfl
    obtain ⟨hsame, hconfined⟩ := c.sameOn sha256 ilike binds grants hids hdraws hkeys
      hstorage hs.work
    have hwork : (s.within (.ofTenant organizationId)).work = s.work.within (.ofTenant organizationId) := rfl
    simp only [SessionStep.run, hwork, hsame]
    cases hrun : c.run sha256 ilike binds grants organizationId draws s.work with
    | mk r w =>
      rw [hrun] at hconfined
      cases r with
      | ok reply => exact ⟨rfl, hs.committed, hconfined⟩
      | error e =>
        dsimp only
        by_cases hsavepoint : c.savepoint = true
        · rw [if_pos hsavepoint, if_pos hsavepoint]
          exact ⟨rfl, hs.committed, hconfined⟩
        · rw [if_neg hsavepoint, if_neg hsavepoint]
          exact ⟨rfl, .of_db hs.committed⟩

theorem runSession_within {steps : List SessionStep}
    (hsteps : ∀ step ∈ steps, ∀ c draws, step = .call c draws →
      (∀ id ∈ c.newIds, Unused out id) ∧ ∀ n, Unused out (draws n))
    (hkeys : ∀ key, ¬out (.idempotency organizationId key))
    (hstorage : ∀ key, ¬out (.storage organizationId key)) {s : Session}
    (hs : s.Confined (.ofTenant organizationId) out outside) :
    runSession sha256 ilike binds grants organizationId steps (s.within (.ofTenant organizationId)) =
        ((runSession sha256 ilike binds grants organizationId steps s).1,
          (runSession sha256 ilike binds grants organizationId steps s).2.within (.ofTenant organizationId)) ∧
      (runSession sha256 ilike binds grants organizationId steps s).2.Confined (.ofTenant organizationId) out
        outside := by
  induction steps generalizing s with
  | nil => exact ⟨rfl, hs⟩
  | cons step steps ih =>
    obtain ⟨hstep, hrest⟩ := List.forall_mem_cons.mp hsteps
    obtain ⟨hsame, hconfined⟩ := SessionStep.run_within sha256 ilike binds grants hstep hkeys hstorage hs
    obtain ⟨hsame', hconfined'⟩ := ih hrest hconfined
    simp only [runSession, hsame, hsame']
    exact ⟨trivial, hconfined'⟩

/-- A session of the organization on a database. -/
theorem session_within {db : Db} (h : db.Integrity) {steps : List SessionStep}
    (hfresh : ∀ step ∈ steps, step.Fresh db organizationId) :
    runSession sha256 ilike binds grants organizationId steps (.start (db.within (.ofTenant organizationId))) =
        ((runSession sha256 ilike binds grants organizationId steps (.start db)).1,
          (runSession sha256 ilike binds grants organizationId steps (.start db)).2.within
            (.ofTenant organizationId)) ∧
      (runSession sha256 ilike binds grants organizationId steps (.start db)).2.Confined
        (.ofTenant organizationId) (db.foreign organizationId) (db.outside (.ofTenant organizationId)) := by
  have hstart : (Session.start db).Confined (.ofTenant organizationId) (db.foreign organizationId)
      (db.outside (.ofTenant organizationId)) :=
    .of_db ⟨divided_ofTenant h organizationId, rfl, fun _ hchange => absurd hchange List.not_mem_nil⟩
  have hwithin : Session.start (db.within (.ofTenant organizationId)) =
      (Session.start db).within (.ofTenant organizationId) := rfl
  rw [hwithin]
  refine runSession_within sha256 ilike binds grants ?_ ?_ ?_ hstart
  · rintro step hstep c draws rfl
    obtain ⟨hids, hdraws⟩ := hfresh _ hstep
    exact ⟨fun id hid => unused_of_fresh (hids id hid), fun n => unused_of_fresh (hdraws n)⟩
  · rintro key ⟨o, ho, hne⟩
    exact hne (Option.some.inj ho).symm
  · rintro key ⟨o, ho, hne⟩
    exact hne (Option.some.inj ho).symm

end

/-! ### Main result -/

/-- **Tenant isolation.** On two databases that agree on the rows of an organization, a session of its
repositories gives the same answers and leaves the same rows of the organization, committed and under way, and
every row of any other organization stays as it was. -/
theorem tenants_isolated (sha256 : PyStr → Sha256Hex) (ilike : PyStr → PyStr → Bool)
    (binds : PyStr → List PyStr) (grants : List Privilege) {organizationId : Uuid} {db₁ db₂ : Db}
    (h₁ : db₁.Integrity) (h₂ : db₂.Integrity)
    (hagree : db₁.within (.ofTenant organizationId) = db₂.within (.ofTenant organizationId))
    {steps : List SessionStep} (hfresh₁ : ∀ step ∈ steps, step.Fresh db₁ organizationId)
    (hfresh₂ : ∀ step ∈ steps, step.Fresh db₂ organizationId) :
    let run := runSession sha256 ilike binds grants organizationId steps
    (run (.start db₁)).1 = (run (.start db₂)).1 ∧
      (run (.start db₁)).2.within (.ofTenant organizationId) =
        (run (.start db₂)).2.within (.ofTenant organizationId) ∧
      ∀ db ∈ [db₁, db₂],
        (run (.start db)).2.committed.outside (.ofTenant organizationId) =
          db.outside (.ofTenant organizationId) ∧
        (run (.start db)).2.work.db.outside (.ofTenant organizationId) =
          db.outside (.ofTenant organizationId) := by
  intro run
  obtain ⟨hsame₁, hconfined₁⟩ := session_within sha256 ilike binds grants h₁ hfresh₁
  obtain ⟨hsame₂, hconfined₂⟩ := session_within sha256 ilike binds grants h₂ hfresh₂
  rw [hagree, hsame₂, Prod.mk.injEq] at hsame₁
  refine ⟨hsame₁.1.symm, hsame₁.2.symm, fun db hdb => ?_⟩
  simp only [List.mem_cons, List.not_mem_nil, or_false] at hdb
  rcases hdb with rfl | rfl
  · exact ⟨hconfined₁.committed.outside, hconfined₁.work.outside⟩
  · exact ⟨hconfined₂.committed.outside, hconfined₂.work.outside⟩

/-- A case of another organization. -/
def sampleForeignCase : CaseRow := { sampleFeedCase with id := 20, organizationId := 8 }

/-- The organization 7 with a case, and the organization 8 with some cases. -/
def sampleTenants (foreign : List CaseRow) : Db where
  organizations := [7, 8]
  cases := sampleFeedCase :: foreign

/-- A listing, and the case of the other organization under its identifier. -/
def sampleSession : List SessionStep :=
  [.call (.listCases {}) fun _ => 1000, .call (.getDetail 20) fun _ => 1000, .commit,
    .call (.leaseAvailable (py "worker") 100 10 30) fun _ => 1000, .commit]

theorem sampleTenants_integrity {foreign : List CaseRow} (h : ((sampleFeedCase :: foreign).map (·.id)).Nodup) :
    (sampleTenants foreign).Integrity := by
  constructor
  case cases => exact h
  all_goals simp [sampleTenants]

theorem sampleTenants_fresh {foreign : List CaseRow} (h : ∀ r ∈ foreign, r.id ≠ 1000) :
    (sampleTenants foreign).Fresh 7 1000 := by
  intro k hk o ho
  cases k with
  | case id =>
    cases hk
    obtain ⟨r, hr, rfl⟩ := Option.map_eq_some_iff.mp ho
    rcases List.mem_cons.mp (List.mem_of_find?_eq_some hr) with rfl | hmem
    · rfl
    · exact absurd (beq_iff_eq.mp (List.find?_some (p := fun x : CaseRow => x.id == 1000) hr)) (h r hmem)
  | idempotency _ _ | storage _ _ => cases hk
  | caseInput _ | transition _ | event _ | outbox _ | audit _ | intent _ | artifact _ | processing _ => cases ho

/-- With and without a case of the other organization. -/
theorem tenants_isolated_sample :
    let run := runSession (fun _ => zeroSha256) (fun _ _ => true) bindNames ledgerGrants 7 sampleSession
    (run (.start (sampleTenants [sampleForeignCase]))).1 = (run (.start (sampleTenants []))).1 ∧
      (run (.start (sampleTenants [sampleForeignCase]))).2.committed.cases =
        [sampleFeedCase, sampleForeignCase] := by
  intro run
  have hfresh : ∀ foreign : List CaseRow, (∀ r ∈ foreign, r.id ≠ 1000) →
      ∀ step ∈ sampleSession, step.Fresh (sampleTenants foreign) 7 := by
    intro foreign hforeign step hstep
    simp only [sampleSession, List.mem_cons, List.not_mem_nil, or_false] at hstep
    rcases hstep with rfl | rfl | rfl | rfl | rfl
    · exact ⟨nofun, fun _ => sampleTenants_fresh hforeign⟩
    · exact ⟨nofun, fun _ => sampleTenants_fresh hforeign⟩
    · trivial
    · exact ⟨nofun, fun _ => sampleTenants_fresh hforeign⟩
    · trivial
  have hagree : (sampleTenants [sampleForeignCase]).within (.ofTenant 7) =
      (sampleTenants []).within (.ofTenant 7) := rfl
  have hiso := tenants_isolated (fun _ => zeroSha256) (fun _ _ => true) bindNames ledgerGrants
    (sampleTenants_integrity (by decide)) (sampleTenants_integrity (by decide)) hagree
    (hfresh _ (by decide)) (hfresh _ (by simp))
  exact ⟨hiso.1, by decide +kernel⟩

end NetopsCopilot
