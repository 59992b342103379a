import NetopsCopilot.Application.ArtifactStatus
import NetopsCopilot.Application.CaseList
import NetopsCopilot.Application.EventFeed
import NetopsCopilot.Application.Outbox
import NetopsCopilot.Application.ScopedStatements
import NetopsCopilot.Worker.ArtifactProcessing

/-!
# Queries and deliveries within a part of the database

The list, the feed and the status view of the visible cases of a part are the same on the part alone. The calls of
the outbox, of the inbox and of the ledger, for an organization that is in the part with all its cases, change rows
of the part, as they do on the part alone.
-/

namespace NetopsCopilot

section

variable {sc : Scope} {out : RowId → Prop} {outside : Db} {db : Db} {w : Work}

/-! ### Queries -/

/-- The visible cases of a principal are in the part. -/
def Scope.Shows (sc : Scope) (organizationId : Uuid) (assetIds : List Uuid) (db : Db) : Prop :=
  ∀ c ∈ db.cases, c.feedVisible organizationId assetIds = true → sc.caseRow c = true

theorem listCases_within {ilike : PyStr → PyStr → Bool} {organizationId : Uuid} {args : CaseListArgs}
    (hshows : sc.Shows organizationId args.assetIds db) :
    listCases ilike organizationId args (db.within sc) = listCases ilike organizationId args db := by
  have hrows : (db.within sc).cases.filter (CaseRow.listed ilike organizationId args) =
      db.cases.filter (CaseRow.listed ilike organizationId args) := by
    refine Rows.filter_inside fun c hc hlisted => hshows c hc ?_
    simp only [CaseRow.listed, Bool.and_eq_true] at hlisted
    exact Bool.and_eq_true_iff.mpr hlisted.1.1.1.1
  simp only [listCases, hrows]

/-- An event is visible in the part if and only if it is. -/
theorem visible_within {organizationId : Uuid} {assetIds : List Uuid} (hshows : sc.Shows organizationId assetIds db)
    (e : EventRow) :
    e.visible (db.within sc).cases organizationId assetIds = e.visible db.cases organizationId assetIds := by
  have hcases : ((db.within sc).cases.any fun c => c.organizationId == e.organizationId && c.id == e.caseId &&
        c.feedVisible organizationId assetIds) =
      db.cases.any fun c => c.organizationId == e.organizationId && c.id == e.caseId &&
        c.feedVisible organizationId assetIds := by
    refine Rows.any_inside fun c hc hmatch => hshows c hc ?_
    exact (Bool.and_eq_true_iff.mp hmatch).2
  unfold EventRow.visible
  rw [hcases]

/-- A visible event is in the part. -/
theorem eventRow_of_visible {organizationId : Uuid} {assetIds : List Uuid}
    (hshows : sc.Shows organizationId assetIds db) {e : EventRow}
    (h : e.visible db.cases organizationId assetIds = true) : sc.eventRow e = true := by
  simp only [EventRow.visible, Bool.and_eq_true, List.any_eq_true, beq_iff_eq] at h
  obtain ⟨-, c, hc, ⟨horganization, hid⟩, hvisible⟩ := h
  have hinside := hshows c hc hvisible
  rw [Scope.caseRow, horganization, hid] at hinside
  exact hinside

theorem readAfter_within {organizationId : Uuid} {afterEventId : Option Uuid} {assetIds : List Uuid} {limit : Int}
    (hshows : sc.Shows organizationId assetIds db) :
    readAfter organizationId afterEventId assetIds limit (db.within sc) =
      readAfter organizationId afterEventId assetIds limit db := by
  have hvisible := visible_within hshows
  have hfilter : ∀ p : EventRow → Bool,
      ((db.within sc).events.filter fun e => e.visible db.cases organizationId assetIds && p e) =
        db.events.filter fun e => e.visible db.cases organizationId assetIds && p e := fun p =>
    Rows.filter_inside fun e _ he => eventRow_of_visible hshows (Bool.and_eq_true_iff.mp he).1
  have hpage : ∀ (p : EventRow → Bool) (n : Nat),
      feedPage (fun e => e.visible db.cases organizationId assetIds && p e) n (db.within sc).events =
        feedPage (fun e => e.visible db.cases organizationId assetIds && p e) n db.events := fun p n => by
    unfold feedPage
    rw [hfilter p]
  have hall : feedPage (fun e => e.visible db.cases organizationId assetIds) limit.toNat (db.within sc).events =
      feedPage (fun e => e.visible db.cases organizationId assetIds) limit.toNat db.events := by
    simpa using hpage (fun _ => true) limit.toNat
  unfold readAfter
  have hpredicate : EventRow.visible (db.within sc).cases organizationId assetIds =
      EventRow.visible db.cases organizationId assetIds := by
    funext e
    exact hvisible e
  simp only [hpredicate, hall, hfilter, hpage]

theorem listForCase_within (hdb : db.Divided sc out) {organizationId caseId : Uuid}
    (hcase : sc.case organizationId caseId = true) :
    listForCase organizationId caseId (db.within sc) = listForCase organizationId caseId db := by
  have hintents : ((db.within sc).intents.filter fun i =>
        i.organizationId == organizationId && i.caseId == caseId && i.status == .pending) =
      db.intents.filter fun i => i.organizationId == organizationId && i.caseId == caseId &&
        i.status == .pending := by
    refine Rows.filter_inside fun i _ hi => ?_
    simp only [Bool.and_eq_true, beq_iff_eq] at hi
    rw [Scope.intentRow, hi.1.1, hi.1.2]
    exact hcase
  have hartifacts : ((db.within sc).artifacts.filter fun a =>
        a.organizationId == organizationId && a.caseId == caseId) =
      db.artifacts.filter fun a => a.organizationId == organizationId && a.caseId == caseId := by
    refine Rows.filter_inside fun a _ ha => ?_
    simp only [Bool.and_eq_true, beq_iff_eq] at ha
    rw [Scope.artifactRow, ha.1, ha.2]
    exact hcase
  have hstatus : (db.artifacts.filter fun a => a.organizationId == organizationId && a.caseId == caseId).map
        (artifactStatus (db.within sc).processing) =
      (db.artifacts.filter fun a => a.organizationId == organizationId && a.caseId == caseId).map
        (artifactStatus db.processing) := by
    refine List.map_congr_left fun a ha => ?_
    obtain ⟨hmem, ha⟩ := List.mem_filter.mp ha
    simp only [Bool.and_eq_true, beq_iff_eq] at ha
    have hinside : sc.artifactRow a = true := by
      rw [Scope.artifactRow, ha.1, ha.2]
      exact hcase
    have hout : ¬out (.artifact a.id) := hdb.artifacts.not_out hmem hinside (by simp [ArtifactRow.ids])
    have hevents := hdb.processing.filter_inside (p := fun r => r.organizationId == a.organizationId &&
      r.artifactId == a.id) hout fun r hr => by
        simp only [Bool.and_eq_true, beq_iff_eq] at hr
        simp [ProcessingRow.ids, hr]
    have hlatest : latestEvent (db.within sc).processing a.organizationId a.id =
        latestEvent db.processing a.organizationId a.id :=
      congrArg (fun rows : List ProcessingRow => rows.argmax ProcessingRow.order) hevents
    unfold artifactStatus
    rw [hlatest]
  simp only [listForCase, hintents, hartifacts, hstatus]

/-! ### Deliveries -/

/-- The database with some rows of the outbox edited. -/
def Db.editOutbox (p : OutboxRow → Bool) (f : OutboxRow → OutboxRow) (db : Db) : Db :=
  { db with outbox := db.outbox.map fun r => if p r then f r else r }

/-- An edit of rows of the part. -/
theorem Work.Confined.editOutbox (hw : w.Confined sc out outside) {p : OutboxRow → Bool}
    {f : OutboxRow → OutboxRow} (hp : ∀ r ∈ w.db.outbox, p r = true → sc.outboxRow r = true)
    (hids : ∀ r, (f r).ids = r.ids) (hinside : ∀ r, sc.outboxRow (f r) = sc.outboxRow r) :
    (w.db.editOutbox p f).within sc = (w.db.within sc).editOutbox p f ∧
      ({ w with db := w.db.editOutbox p f } : Work).Confined sc out outside := by
  have hedit : ∀ r, sc.outboxRow (if p r then f r else r) = sc.outboxRow r := by
    intro r
    split_ifs
    · exact hinside r
    · rfl
  refine ⟨?_, { hw.divided with outbox := hw.divided.outbox.map (fun r => ?_) hedit }, ?_, hw.changes⟩
  · exact congrArg (fun rows => { w.db.within sc with outbox := rows }) (Rows.filter_map_inside _ hedit)
  · split_ifs
    · exact hids r
    · rfl
  · refine Eq.trans ?_ hw.outside
    refine congrArg (fun rows => { w.db.outside sc with outbox := rows }) (Rows.filter_map_outside _ hedit ?_)
    intro r hr hout
    rw [if_neg]
    intro hpr
    rw [hp r hr hpr] at hout
    cases hout

/-- A call acts on a confined transaction as it does on the part, and keeps it confined. -/
def Work.Admits (sc : Scope) (out : RowId → Prop) (outside : Db) {ε α : Type} (w : Work)
    (call : Db → Except ε (α × Db)) : Prop :=
  call (w.db.within sc) = (call w.db).map (fun q => (q.1, q.2.within sc)) ∧
    ∀ a db', call w.db = .ok (a, db') → ({ w with db := db' } : Work).Confined sc out outside

/-- The rows that a lease takes. -/
def OutboxRow.candidate (organizationId : Uuid) (candidates : List Uuid) (r : OutboxRow) : Bool :=
  decide (r.id ∈ candidates) && r.organizationId == organizationId

theorem leaseAvailable_eq (organizationId : Uuid) (workerId : PyStr) (now : Instant) (limit leaseFor : Int)
    (uuid : Uuid) (db : Db) :
    leaseAvailable organizationId workerId now limit leaseFor uuid db = (do
      validateWorkerId workerId
      validateLease limit leaseFor
      let p := OutboxRow.candidate organizationId
        (leaseCandidates organizationId now (now - leaseFor) limit.toNat db.outbox)
      let f := OutboxRow.leased now (leaseTokenOf workerId uuid)
      let events ← ((db.outbox.filter p).map f).mapM leasedEvent
      return (events, db.editOutbox p f)) := by
  unfold leaseAvailable
  simp only [updateOutbox_ok fun r _ _ => guard_leased now (leaseTokenOf workerId uuid) r]
  rfl

/-- Rows of an organization whose cases are all in the part. -/
theorem outboxRow_of_whole {organizationId : Uuid} (hwhole : ∀ caseId, sc.case organizationId caseId = true)
    {r : OutboxRow} (h : r.organizationId = organizationId) : sc.outboxRow r = true := by
  rw [Scope.outboxRow, h]
  exact hwhole r.caseId

theorem admits_leaseAvailable (hw : w.Confined sc out outside) {organizationId : Uuid}
    (hwhole : ∀ caseId, sc.case organizationId caseId = true) (workerId : PyStr) (now : Instant)
    (limit leaseFor : Int) (uuid : Uuid) :
    w.Admits sc out outside (leaseAvailable organizationId workerId now limit leaseFor uuid) := by
  have hdue : ((w.db.within sc).outbox.filter (OutboxRow.due organizationId now (now - leaseFor))) =
      w.db.outbox.filter (OutboxRow.due organizationId now (now - leaseFor)) := by
    refine Rows.filter_inside fun r _ hr => outboxRow_of_whole hwhole ?_
    simp only [OutboxRow.due, Bool.and_eq_true, beq_iff_eq] at hr
    exact hr.1.1.1
  have hcandidates : leaseCandidates organizationId now (now - leaseFor) limit.toNat (w.db.within sc).outbox =
      leaseCandidates organizationId now (now - leaseFor) limit.toNat w.db.outbox := by
    unfold leaseCandidates
    rw [hdue]
  have hp : ∀ ids, ∀ r ∈ w.db.outbox, OutboxRow.candidate organizationId ids r = true →
      sc.outboxRow r = true := by
    intro ids r _ hr
    exact outboxRow_of_whole hwhole (beq_iff_eq.mp (Bool.and_eq_true_iff.mp hr).2)
  have hrows : ∀ ids, (w.db.within sc).outbox.filter (OutboxRow.candidate organizationId ids) =
      w.db.outbox.filter (OutboxRow.candidate organizationId ids) := fun ids => Rows.filter_inside (hp ids)
  have hedit := fun ids => hw.editOutbox (hp ids)
    (f := OutboxRow.leased now (leaseTokenOf workerId uuid)) (fun _ => rfl) fun _ => rfl
  constructor
  · simp only [leaseAvailable_eq, hcandidates, hrows, (hedit _).1.symm]
    cases validateWorkerId workerId with
    | error e => rfl
    | ok u =>
      cases validateLease limit leaseFor with
      | error e => rfl
      | ok u =>
        simp only [bind, Except.bind]
        cases List.mapM leasedEvent _ <;> rfl
  · intro a db' h
    rw [leaseAvailable_eq] at h
    obtain ⟨-, -, h⟩ := Raising.bind_ok h
    obtain ⟨-, -, h⟩ := Raising.bind_ok h
    obtain ⟨events, -, h⟩ := Raising.bind_ok h
    cases h
    exact (hedit _).2

theorem settle_editOutbox {organizationId : Uuid} {lease : OutboxLease} {f : OutboxRow → OutboxRow}
    (hf : ∀ r : OutboxRow, r.publishedAt.isNone = true → guardOutboxEventMutation r (f r) = .ok (f r)) (db : Db) :
    settle organizationId lease f db =
      if (db.outbox.filter (OutboxRow.heldBy organizationId lease)).length ≠ 1 then
        .error (.leaseLost lease.outboxId)
      else .ok (db.editOutbox (OutboxRow.heldBy organizationId lease) f) := by
  have hguard : ∀ r ∈ db.outbox, OutboxRow.heldBy organizationId lease r = true →
      guardOutboxEventMutation r (f r) = .ok (f r) := by
    intro r _ hr
    simp only [OutboxRow.heldBy, Bool.and_eq_true] at hr
    exact hf r hr.1.2
  unfold settle
  rw [updateOutbox_ok hguard]
  simp only [Except.mapError, bind, Except.bind, List.length_map]
  rfl

theorem admits_settle (hw : w.Confined sc out outside) {organizationId : Uuid}
    (hwhole : ∀ caseId, sc.case organizationId caseId = true) (lease : OutboxLease) {f : OutboxRow → OutboxRow}
    (hf : ∀ r : OutboxRow, r.publishedAt.isNone = true → guardOutboxEventMutation r (f r) = .ok (f r))
    (hids : ∀ r, (f r).ids = r.ids) (hinside : ∀ r, sc.outboxRow (f r) = sc.outboxRow r) :
    w.Admits sc out outside fun db => (settle organizationId lease f db).map fun db' => ((), db') := by
  have hp : ∀ r ∈ w.db.outbox, OutboxRow.heldBy organizationId lease r = true → sc.outboxRow r = true := by
    intro r _ hr
    simp only [OutboxRow.heldBy, Bool.and_eq_true, beq_iff_eq] at hr
    exact outboxRow_of_whole hwhole hr.1.1.1
  have hrows : (w.db.within sc).outbox.filter (OutboxRow.heldBy organizationId lease) =
      w.db.outbox.filter (OutboxRow.heldBy organizationId lease) := Rows.filter_inside hp
  obtain ⟨hwithin, hconfined⟩ := hw.editOutbox hp hids hinside
  constructor
  · simp only [settle_editOutbox hf, hrows, ← hwithin]
    split_ifs <;> rfl
  · intro a db' h
    simp only [settle_editOutbox hf] at h
    split_ifs at h
    · cases h
    · cases h
      exact hconfined

theorem admits_recordOnce (hw : w.Confined sc out outside) {sha256 : PyStr → Sha256Hex} {organizationId : Uuid}
    {eventId : Uuid} (hevent : sc.event organizationId eventId = true) (consumerName : PyStr) (payload : Json)
    (processedAt : Instant) (inboxId : Uuid) :
    w.Admits sc out outside
      (recordOnce sha256 organizationId consumerName eventId payload processedAt inboxId) := by
  have hfind : (w.db.within sc).inbox.find? (InboxRow.receipt organizationId (strip consumerName) eventId) =
      w.db.inbox.find? (InboxRow.receipt organizationId (strip consumerName) eventId) := by
    refine Rows.find?_inside fun r _ hr => ?_
    simp only [InboxRow.receipt, Bool.and_eq_true, beq_iff_eq] at hr
    rw [Scope.inboxRow, hr.1.1, hr.2]
    exact hevent
  have hsnoc : ∀ r : InboxRow, r.organizationId = organizationId → r.eventId = eventId →
      ({ w.db with inbox := w.db.inbox ++ [r] } : Db).within sc =
        { w.db.within sc with inbox := (w.db.within sc).inbox ++ [r] } ∧
      ({ w with db := { w.db with inbox := w.db.inbox ++ [r] } } : Work).Confined sc out outside := by
    intro r horganization hid
    have hinside : sc.inboxRow r = true := by
      rw [Scope.inboxRow, horganization, hid]
      exact hevent
    refine ⟨?_, { hw.divided with }, ?_, hw.changes⟩
    · exact congrArg (fun rows => { w.db.within sc with inbox := rows }) (filter_snoc_inside hinside _)
    · refine Eq.trans ?_ hw.outside
      exact congrArg (fun rows => { w.db.outside sc with inbox := rows }) (filter_snoc_outside hinside _)
  constructor
  · simp only [recordOnce, hfind]
    by_cases hname : isBlank consumerName = true ∨ 255 < consumerName.length
    · rw [if_pos hname, if_pos hname]
      rfl
    · rw [if_neg hname, if_neg hname]
      by_cases hstorable : storable (strip consumerName) = false
      · rw [if_pos hstorable, if_pos hstorable]
        rfl
      · rw [if_neg hstorable, if_neg hstorable]
        cases w.db.inbox.find? (InboxRow.receipt organizationId (strip consumerName) eventId) with
        | some existing =>
          dsimp only
          split_ifs <;> rfl
        | none =>
          dsimp only
          split_ifs
          · exact congrArg (fun db => Except.ok (true, db)) (hsnoc _ rfl rfl).1.symm
          · rfl
  · intro a db' h
    simp only [recordOnce] at h
    by_cases hname : isBlank consumerName = true ∨ 255 < consumerName.length
    · rw [if_pos hname] at h
      cases h
    · rw [if_neg hname] at h
      by_cases hstorable : storable (strip consumerName) = false
      · rw [if_pos hstorable] at h
        cases h
      rw [if_neg hstorable] at h
      split at h
      next existing _ =>
        split_ifs at h
        cases h
        exact hw
      next =>
        split_ifs at h
        cases h
        exact (hsnoc _ rfl rfl).2

/-! ### Verdicts -/

/-- The organization of an artifact. -/
def Db.artifactOwner (db : Db) (artifactId : Uuid) : Option Uuid :=
  (db.artifacts.find? fun a => a.id == artifactId).map (·.organizationId)

/-- `TenantArtifactProcessingRepository.record_scan_outcome`, as a role with some privileges on the ledger. -/
def recordVerdict (grants : List Privilege) (organizationId : Uuid) (command : RecordArtifactScanOutcome)
    (id : Uuid) (db : Db) : Except RecordError (RecordedArtifactScanOutcome × Db) :=
  (recordScanOutcome db.artifactOwner grants db.processing organizationId command id).map fun q =>
    (q.2, { db with processing := q.1 })

/-- The active attempt of an artifact of the part. -/
theorem selectActiveAttempt_within (db : Db) {organizationId artifactId : Uuid}
    (hartifact : sc.artifact organizationId artifactId = true) :
    selectActiveAttempt (db.within sc).processing organizationId artifactId =
      selectActiveAttempt db.processing organizationId artifactId := by
  have hrows : ((db.within sc).processing.filter fun r =>
        r.organizationId == organizationId && r.artifactId == artifactId) =
      db.processing.filter fun r => r.organizationId == organizationId && r.artifactId == artifactId := by
    refine Rows.filter_inside fun r _ hr => ?_
    simp only [Bool.and_eq_true, beq_iff_eq] at hr
    rw [Scope.processingRow, hr.1, hr.2]
    exact hartifact
  unfold selectActiveAttempt
  rw [hrows]

theorem admits_recordVerdict (hw : w.Confined sc out outside) {organizationId : Uuid} {grants : List Privilege}
    {command : RecordArtifactScanOutcome} {id : Uuid}
    (hartifact : sc.artifact organizationId command.artifactId = true) (hid : ¬out (.processing id)) :
    w.Admits sc out outside (recordVerdict grants organizationId command id) := by
  have hactive := selectActiveAttempt_within w.db hartifact
  cases hselect : selectActiveAttempt w.db.processing organizationId command.artifactId with
  | none =>
    rw [hselect] at hactive
    constructor
    · simp only [recordVerdict, recordScanOutcome, hselect, hactive]
      split_ifs <;> rfl
    · intro a db' h
      simp only [recordVerdict, recordScanOutcome, hselect] at h
      split_ifs at h <;> cases h
  | some active =>
    rw [hselect] at hactive
    have hnamed : ¬out (.artifact command.artifactId) := by
      obtain ⟨hmem, hmatch⟩ := List.mem_filter.mp (List.argmax_mem (show active ∈ _ from hselect))
      simp only [Bool.and_eq_true, beq_iff_eq] at hmatch
      have hinside : sc.processingRow active = true := by
        rw [Scope.processingRow, hmatch.1, hmatch.2]
        exact hartifact
      exact hw.divided.processing.not_out hmem hinside (by simp [ProcessingRow.ids, hmatch.2])
    have hids : ∀ k ∈ (scanOutcomeRow organizationId command active id).ids, ¬out k := by
      intro k hk
      simp only [ProcessingRow.ids, List.mem_cons, List.not_mem_nil, or_false] at hk
      rcases hk with rfl | rfl
      · exact hid
      · exact hnamed
    have howner : (w.db.within sc).artifactOwner command.artifactId = w.db.artifactOwner command.artifactId := by
      have hfind := hw.divided.artifacts.find?_inside (p := fun a => a.id == command.artifactId) hnamed
        fun a ha => by simp [ArtifactRow.ids, beq_iff_eq.mp ha]
      exact congrArg (Option.map (·.organizationId)) hfind
    have hinsert : insertScanOutcome (w.db.within sc).artifactOwner (w.db.within sc).processing
          (scanOutcomeRow organizationId command active id) =
        insertScanOutcome w.db.artifactOwner w.db.processing (scanOutcomeRow organizationId command active id) := by
      unfold insertScanOutcome
      rw [accept_within hw.divided hids]
      change (_ >>= fun _ => if (w.db.within sc).artifactOwner command.artifactId = _ then _ else _) = _
      rw [howner]
      rfl
    have hinside : sc.processingRow (scanOutcomeRow organizationId command active id) = true := hartifact
    constructor
    · simp only [recordVerdict, recordScanOutcome, hselect, hactive, hinsert]
      split_ifs
      · rfl
      · rfl
      · cases insertScanOutcome w.db.artifactOwner w.db.processing
            (scanOutcomeRow organizationId command active id) with
        | error e => rfl
        | ok u =>
          exact congrArg (fun rows => Except.ok (_, { w.db.within sc with processing := rows }))
            (filter_snoc_inside hinside _).symm
      · rfl
    · intro a db' h
      simp only [recordVerdict, recordScanOutcome, hselect] at h
      split_ifs at h
      · cases h
      · cases h
      · cases hok : insertScanOutcome w.db.artifactOwner w.db.processing
            (scanOutcomeRow organizationId command active id) with
        | error e =>
          rw [hok] at h
          cases h
        | ok u =>
          rw [hok] at h
          cases h
          refine ⟨{ hw.divided with processing := hw.divided.processing.snoc hinside hids }, ?_, hw.changes⟩
          refine Eq.trans ?_ hw.outside
          exact congrArg (fun rows => { w.db.outside sc with processing := rows })
            (filter_snoc_outside hinside _)
      · cases h

end

end NetopsCopilot
