import NetopsCopilot.Lib.Confined
import NetopsCopilot.Postgres.Scopes

/-!
# Statements within a part of the database

What a statement of the case and the upload-intent repositories has to satisfy to act within a part (`Clean`), and
that it then answers and writes the same on the part alone (`exec_within`) and writes rows of the part only
(`exec_inside`). With the deferred triggers of a transaction these make the two `Confinement`s that the programs
are run in.
-/

namespace NetopsCopilot

open Txn

section

variable {sc : Scope} {out : RowId → Prop} {db : Db}

/-! ### Look-ups -/

theorem hasCase_within {organizationId caseId : Uuid} (h : sc.case organizationId caseId = true) :
    hasCase (db.within sc) organizationId caseId = hasCase db organizationId caseId := by
  refine Rows.any_inside fun r _ hr => ?_
  simp only [Bool.and_eq_true, beq_iff_eq] at hr
  rw [Scope.caseRow, hr.1, hr.2]
  exact h

theorem mem_organizations_within {organizationId : Uuid} (h : sc.tenant organizationId = true) :
    organizationId ∈ (db.within sc).organizations ↔ organizationId ∈ db.organizations := by
  simp [Db.within, h]

theorem mem_assets_within {organizationId assetId : Uuid} (h : sc.tenant organizationId = true) :
    (organizationId, assetId) ∈ (db.within sc).assets ↔ (organizationId, assetId) ∈ db.assets := by
  simp [Db.within, h]

/-- The selection of a case. -/
theorem filter_case_within (db : Db) {p : CaseRow → Bool} {organizationId caseId : Uuid}
    (h : sc.case organizationId caseId = true)
    (hp : ∀ r, p r = true → r.organizationId = organizationId ∧ r.id = caseId) :
    (db.within sc).cases.filter p = db.cases.filter p := by
  refine Rows.filter_inside fun r _ hr => ?_
  obtain ⟨rfl, rfl⟩ := hp r hr
  exact h

/-! ### Deferred triggers -/

/-- The row a change is about. -/
def CaseChange.row : CaseChange → CaseRow
  | .inserted new => new
  | .updated _ new => new

theorem hasCreationHistory_within {new : CaseRow} (h : sc.caseRow new = true) :
    hasCreationHistory (db.within sc) new = hasCreationHistory db new := by
  rw [Bool.eq_iff_iff]
  simp only [hasCreationHistory, List.any_eq_true, Bool.and_eq_true, beq_iff_eq]
  constructor
  · rintro ⟨e, he, hmatch, o, ho, hrest⟩
    exact ⟨e, (List.mem_filter.mp he).1, hmatch, o, (List.mem_filter.mp ho).1, hrest⟩
  · rintro ⟨e, he, ⟨⟨⟨⟨horganization, hcase⟩, htype⟩, hversion⟩, hnone⟩, o, ho, hrest⟩
    have hevent : sc.eventRow e = true := by
      rw [Scope.eventRow, horganization, hcase]
      exact h
    have houtbox : sc.outboxRow o = true := by
      rw [Scope.outboxRow, hrest.1.1.1.1, hrest.1.1.2, horganization]
      exact h
    exact ⟨e, List.mem_filter.mpr ⟨he, hevent⟩, ⟨⟨⟨⟨horganization, hcase⟩, htype⟩, hversion⟩, hnone⟩, o,
      List.mem_filter.mpr ⟨ho, houtbox⟩, hrest⟩

theorem hasTransitionHistory_within {old new : CaseRow} (h : sc.caseRow new = true) :
    hasTransitionHistory (db.within sc) old new = hasTransitionHistory db old new := by
  rw [Bool.eq_iff_iff]
  simp only [hasTransitionHistory, List.any_eq_true, Bool.and_eq_true, beq_iff_eq]
  constructor
  · rintro ⟨t, ht, hmatch, e, he, hevent, o, ho, hrest⟩
    exact ⟨t, (List.mem_filter.mp ht).1, hmatch, e, (List.mem_filter.mp he).1, hevent, o,
      (List.mem_filter.mp ho).1, hrest⟩
  · rintro ⟨t, ht, hmatch, e, he, hevent, o, ho, hrest⟩
    have horganization := hmatch.1.1.1.1
    have hcase := hmatch.1.1.1.2
    have htransition : sc.transitionRow t = true := by
      rw [Scope.transitionRow, horganization, hcase]
      exact h
    have hinside : sc.eventRow e = true := by
      rw [Scope.eventRow, hevent.1.1.1, hevent.1.1.2, horganization, hcase]
      exact h
    have houtbox : sc.outboxRow o = true := by
      rw [Scope.outboxRow, hrest.1.1.1.1, hrest.1.1.2, hevent.1.1.1, horganization]
      exact h
    exact ⟨t, List.mem_filter.mpr ⟨ht, htransition⟩, hmatch, e, List.mem_filter.mpr ⟨he, hinside⟩, hevent, o,
      List.mem_filter.mpr ⟨ho, houtbox⟩, hrest⟩

/-- The trigger reads the rows of the case. -/
theorem passes_within {change : CaseChange} (h : sc.caseRow change.row = true) :
    change.passes (db.within sc) = change.passes db := by
  cases change with
  | inserted new =>
    have hhistory : hasCreationHistory (db.within sc) new = hasCreationHistory db new :=
      hasCreationHistory_within h
    simp only [CaseChange.passes, assertCaseProjectionHistory, hhistory]
  | updated old new =>
    have hhistory : hasTransitionHistory (db.within sc) old new = hasTransitionHistory db old new :=
      hasTransitionHistory_within h
    simp only [CaseChange.passes, assertCaseProjectionHistory, hhistory]

/-! ### Statements of the case repository -/

section

variable (sc : Scope) (out : RowId → Prop)

/-- The statement looks up, and inserts, rows of the part. -/
def CaseStmt.Clean : CaseStmt → Prop
  | .insertCase r => sc.tenant r.organizationId = true ∧ (CaseWrite.insertCase r).Inside sc out
  | .selectCaseByIdempotency organizationId idempotencyKey =>
    ¬out (.idempotency organizationId idempotencyKey)
  | .selectSnapshot organizationId caseId | .selectCase organizationId caseId
  | .selectTimeline organizationId caseId | .updateCaseVersion organizationId caseId _ _ _ _ =>
    sc.case organizationId caseId = true
  | .insertCaseInput r => (CaseWrite.insertCaseInput r).Inside sc out
  | .insertTransition r => (CaseWrite.insertTransition r).Inside sc out
  | .insertEvent r => (CaseWrite.insertEvent r).Inside sc out
  | .insertOutbox r => (CaseWrite.insertOutbox r).Inside sc out
  | .insertAuditEvent r => sc.tenant r.organizationId = true ∧ (CaseWrite.insertAudit r).Inside sc out

/-- What is known of the rows it returns. -/
def CaseStmt.Known (out : RowId → Prop) : (s : CaseStmt) → s.Reply → Prop
  | .insertCase r, rows => ∀ row ∈ rows, row = r
  | .selectSnapshot _ caseId, rows | .selectCase _ caseId, rows | .updateCaseVersion _ caseId _ _ _ _, rows =>
    ∀ row ∈ rows, row.id = caseId ∧ ¬out (.case caseId)
  | _, _ => True

end

theorem CaseStmt.exec_within (hdb : db.Divided sc out) {s : CaseStmt} (hs : s.Clean sc out) :
    s.exec (db.within sc) = s.exec db := by
  cases s with
  | insertCase r =>
    obtain ⟨htenant, hcase, hids⟩ := hs
    have hkey : ((db.within sc).cases.any fun c =>
          c.organizationId == r.organizationId && c.idempotencyKey == r.idempotencyKey) =
        db.cases.any fun c =>
          c.organizationId == r.organizationId && c.idempotencyKey == r.idempotencyKey := by
      refine hdb.cases.any_inside (hids (.idempotency r.organizationId r.idempotencyKey) (by simp [CaseRow.ids]))
        fun c hc => ?_
      simp only [Bool.and_eq_true, beq_iff_eq] at hc
      simp [CaseRow.ids, hc]
    have hid : ((db.within sc).cases.any fun c => c.id == r.id) = db.cases.any fun c => c.id == r.id :=
      hdb.cases.any_inside (hids (.case r.id) (by simp [CaseRow.ids])) fun c hc => by
        simp [CaseRow.ids, beq_iff_eq.mp hc]
    simp only [exec, hkey, hid, mem_organizations_within htenant, mem_assets_within htenant]
  | selectCaseByIdempotency organizationId idempotencyKey =>
    have hrows : ((db.within sc).cases.filter fun c =>
          c.organizationId == organizationId && c.idempotencyKey == idempotencyKey) =
        db.cases.filter fun c => c.organizationId == organizationId && c.idempotencyKey == idempotencyKey := by
      refine hdb.cases.filter_inside hs fun c hc => ?_
      simp only [Bool.and_eq_true, beq_iff_eq] at hc
      simp [CaseRow.ids, hc]
    simp only [exec, hrows]
  | selectSnapshot organizationId caseId | selectCase organizationId caseId =>
    have hrows := filter_case_within db (p := fun c => c.organizationId == organizationId &&
      c.id == caseId) hs fun r hr => by simpa using hr
    simp only [exec, hrows]
  | updateCaseVersion organizationId caseId expectedVersion state version updatedAt =>
    have hrows := filter_case_within db (p := fun c => c.organizationId == organizationId &&
      c.id == caseId && c.version == expectedVersion) hs fun r hr => by
        simp only [Bool.and_eq_true, beq_iff_eq] at hr
        exact hr.1
    simp only [exec, hrows]
  | insertCaseInput r =>
    obtain ⟨hcase, hids⟩ := hs
    have hid : ((db.within sc).caseInputs.any fun i => i.id == r.id) = db.caseInputs.any fun i => i.id == r.id :=
      hdb.caseInputs.any_inside (hids (.caseInput r.id) (by simp [CaseInputRow.ids])) fun i hi => by
        simp [CaseInputRow.ids, beq_iff_eq.mp hi]
    simp only [exec, hid, hasCase_within hcase]
  | insertTransition r =>
    obtain ⟨hcase, hids⟩ := hs
    have hid : ((db.within sc).transitions.any fun t => t.id == r.id) =
        db.transitions.any fun t => t.id == r.id :=
      hdb.transitions.any_inside (hids (.transition r.id) (by simp [TransitionRow.ids])) fun t ht => by
        simp [TransitionRow.ids, beq_iff_eq.mp ht]
    have hversion : ((db.within sc).transitions.any fun t => t.caseId == r.caseId && t.version == r.version) =
        db.transitions.any fun t => t.caseId == r.caseId && t.version == r.version := by
      refine hdb.transitions.any_inside (hids (.case r.caseId) (by simp [TransitionRow.ids])) fun t ht => ?_
      simp only [Bool.and_eq_true, beq_iff_eq] at ht
      simp [TransitionRow.ids, ht]
    simp only [exec, hid, hversion, hasCase_within hcase]
  | insertEvent r =>
    obtain ⟨hcase, hids⟩ := hs
    have hid : ((db.within sc).events.any fun e => e.id == r.id) = db.events.any fun e => e.id == r.id :=
      hdb.events.any_inside (hids (.event r.id) (by simp [EventRow.ids])) fun e he => by
        simp [EventRow.ids, beq_iff_eq.mp he]
    have hout : ∀ t, r.transitionId = some t → ¬out (.transition t) := fun t ht =>
      hids _ (by simp [EventRow.ids, ht])
    have honce : (r.transitionId.all fun t => !(db.within sc).events.any fun e =>
          e.organizationId == r.organizationId && e.transitionId == some t) =
        r.transitionId.all fun t => !db.events.any fun e =>
          e.organizationId == r.organizationId && e.transitionId == some t := by
      cases ht : r.transitionId with
      | none => rfl
      | some t =>
        refine congrArg (!·) (hdb.events.any_inside (hout t ht) fun e he => ?_)
        simp only [Bool.and_eq_true, beq_iff_eq] at he
        simp [EventRow.ids, he]
    have hreference : (r.transitionId.all fun t => (db.within sc).transitions.any fun u =>
          u.organizationId == r.organizationId && u.id == t) =
        r.transitionId.all fun t => db.transitions.any fun u =>
          u.organizationId == r.organizationId && u.id == t := by
      cases ht : r.transitionId with
      | none => rfl
      | some t =>
        refine hdb.transitions.any_inside (hout t ht) fun u hu => ?_
        simp only [Bool.and_eq_true, beq_iff_eq] at hu
        simp [TransitionRow.ids, hu]
    simp only [exec, hid, honce, hreference, hasCase_within hcase]
  | insertOutbox r =>
    obtain ⟨hcase, hids⟩ := hs
    have hid : ((db.within sc).outbox.any fun o => o.id == r.id) = db.outbox.any fun o => o.id == r.id :=
      hdb.outbox.any_inside (hids (.outbox r.id) (by simp [OutboxRow.ids])) fun o ho => by
        simp [OutboxRow.ids, beq_iff_eq.mp ho]
    have hout : ¬out (.event r.caseEventId) := hids _ (by simp [OutboxRow.ids])
    have honce : ((db.within sc).outbox.any fun o => o.caseEventId == r.caseEventId) =
        db.outbox.any fun o => o.caseEventId == r.caseEventId :=
      hdb.outbox.any_inside hout fun o ho => by simp [OutboxRow.ids, beq_iff_eq.mp ho]
    have hevent : ((db.within sc).events.any fun e =>
          e.organizationId == r.organizationId && e.id == r.caseEventId) =
        db.events.any fun e => e.organizationId == r.organizationId && e.id == r.caseEventId := by
      refine hdb.events.any_inside hout fun e he => ?_
      simp only [Bool.and_eq_true, beq_iff_eq] at he
      simp [EventRow.ids, he]
    simp only [exec, hid, honce, hevent, hasCase_within hcase]
  | insertAuditEvent r =>
    obtain ⟨htenant, -, hids⟩ := hs
    have hid : ((db.within sc).audit.any fun a => a.id == r.id) = db.audit.any fun a => a.id == r.id :=
      hdb.audit.any_inside (hids (.audit r.id) (by simp [AuditRow.ids])) fun a ha => by
        simp [AuditRow.ids, beq_iff_eq.mp ha]
    simp only [exec, hid, mem_organizations_within htenant]
  | selectTimeline organizationId caseId =>
    have hrows : ((db.within sc).events.filter fun e => e.organizationId == organizationId && e.caseId == caseId) =
        db.events.filter fun e => e.organizationId == organizationId && e.caseId == caseId := by
      refine Rows.filter_inside fun e _ hmatch => ?_
      simp only [Bool.and_eq_true, beq_iff_eq] at hmatch
      rw [Scope.eventRow, hmatch.1, hmatch.2]
      exact hs
    have hjoin : (db.events.filter fun e => e.organizationId == organizationId && e.caseId == caseId).map
          (fun e => (e, e.transitionId.bind fun t => (db.within sc).transitions.find? fun u =>
            u.organizationId == e.organizationId && u.id == t)) =
        (db.events.filter fun e => e.organizationId == organizationId && e.caseId == caseId).map
          fun e => (e, e.transitionId.bind fun t => db.transitions.find? fun u =>
            u.organizationId == e.organizationId && u.id == t) := by
      refine List.map_congr_left fun e he => ?_
      obtain ⟨hmem, hmatch⟩ := List.mem_filter.mp he
      simp only [Bool.and_eq_true, beq_iff_eq] at hmatch
      have hinside : sc.eventRow e = true := by
        rw [Scope.eventRow, hmatch.1, hmatch.2]
        exact hs
      cases ht : e.transitionId with
      | none => rfl
      | some t =>
        simp only [Option.bind_some, Prod.mk.injEq, true_and]
        have hout : ¬out (.transition t) := hdb.events.not_out hmem hinside (by simp [EventRow.ids, ht])
        refine hdb.transitions.find?_inside hout fun u hu => ?_
        simp only [Bool.and_eq_true, beq_iff_eq] at hu
        simp [TransitionRow.ids, hu]
    simp only [exec, hrows, hjoin]

/-! ### What the case statements write -/

theorem inside_insertCase {r : CaseRow} (hs : (CaseStmt.insertCase r).Clean sc out) {rows : List CaseRow}
    {ws : List CaseWrite} (h : (CaseStmt.insertCase r).exec db = .ok (rows, ws)) :
    (∀ w ∈ ws, w.Inside sc out) ∧ ∀ row ∈ rows, row = r := by
  unfold CaseStmt.exec at h
  obtain ⟨-, h⟩ := need_bind.mp h
  simp only [need_bind] at h
  obtain ⟨-, h⟩ := h
  split_ifs at h
  · cases h
    simp
  · simp only [need_bind] at h
    obtain ⟨-, -, -, h⟩ := h
    cases h
    simpa using hs.2

theorem inside_updateCaseVersion (hdb : db.Divided sc out) {organizationId caseId : Uuid}
    {expectedVersion : Nat} {state : CaseState} {version : Nat} {updatedAt : Instant}
    (hs : sc.case organizationId caseId = true) {rows : List CaseRow} {ws : List CaseWrite}
    (h : (CaseStmt.updateCaseVersion organizationId caseId expectedVersion state version updatedAt).exec db =
      .ok (rows, ws)) :
    (∀ w ∈ ws, w.Inside sc out) ∧ ∀ row ∈ rows, row.id = caseId ∧ ¬out (.case caseId) := by
  unfold CaseStmt.exec at h
  obtain ⟨-, h⟩ := need_bind.mp h
  cases h
  have hold : ∀ old ∈ db.cases.filter (fun c => c.organizationId == organizationId && c.id == caseId &&
      c.version == expectedVersion), sc.caseRow old = true ∧ old.id = caseId ∧ ¬out (.case caseId) := by
    intro old hold
    obtain ⟨hmem, hold⟩ := List.mem_filter.mp hold
    simp only [Bool.and_eq_true, beq_iff_eq] at hold
    obtain ⟨⟨rfl, rfl⟩, -⟩ := hold
    exact ⟨hs, rfl, hdb.cases.not_out hmem hs (by simp [CaseRow.ids])⟩
  refine ⟨fun w hw => ?_, fun row hrow => ?_⟩
  · obtain ⟨old, hmem, rfl⟩ := List.mem_map.mp hw
    exact (hold old hmem).1
  · obtain ⟨old, hmem, rfl⟩ := List.mem_map.mp hrow
    exact (hold old hmem).2

/-- The rows of a selected case. -/
theorem known_of_filter (hdb : db.Divided sc out) {organizationId caseId : Uuid}
    (hs : sc.case organizationId caseId = true) {row : CaseRow}
    (hrow : row ∈ db.cases.filter fun c => c.organizationId == organizationId && c.id == caseId) :
    row.id = caseId ∧ ¬out (.case caseId) := by
  obtain ⟨hmem, hrow⟩ := List.mem_filter.mp hrow
  simp only [Bool.and_eq_true, beq_iff_eq] at hrow
  obtain ⟨rfl, rfl⟩ := hrow
  exact ⟨rfl, hdb.cases.not_out hmem hs (by simp [CaseRow.ids])⟩

theorem writes_insertCaseInput {r : CaseInputRow} {u : Unit} {ws : List CaseWrite}
    (h : (CaseStmt.insertCaseInput r).exec db = .ok (u, ws)) : ws = [.insertCaseInput r] := by
  unfold CaseStmt.exec at h
  obtain ⟨-, h⟩ := need_bind.mp h
  simp only [need_bind] at h
  obtain ⟨-, -, -, h⟩ := h
  cases h
  rfl

theorem writes_insertTransition {r : TransitionRow} {u : Unit} {ws : List CaseWrite}
    (h : (CaseStmt.insertTransition r).exec db = .ok (u, ws)) : ws = [.insertTransition r] := by
  unfold CaseStmt.exec at h
  obtain ⟨-, h⟩ := need_bind.mp h
  simp only [need_bind] at h
  obtain ⟨-, -, -, -, -, h⟩ := h
  cases h
  rfl

theorem writes_insertEvent {r : EventRow} {u : Unit} {ws : List CaseWrite}
    (h : (CaseStmt.insertEvent r).exec db = .ok (u, ws)) : ws = [.insertEvent r] := by
  unfold CaseStmt.exec at h
  obtain ⟨-, h⟩ := need_bind.mp h
  simp only [need_bind] at h
  obtain ⟨-, -, -, -, -, -, h⟩ := h
  cases h
  rfl

theorem writes_insertOutbox {r : OutboxRow} {u : Unit} {ws : List CaseWrite}
    (h : (CaseStmt.insertOutbox r).exec db = .ok (u, ws)) : ws = [.insertOutbox r] := by
  unfold CaseStmt.exec at h
  obtain ⟨-, h⟩ := need_bind.mp h
  simp only [need_bind] at h
  obtain ⟨-, -, -, -, -, -, h⟩ := h
  cases h
  rfl

theorem writes_insertAuditEvent {r : AuditRow} {u : Unit} {ws : List CaseWrite}
    (h : (CaseStmt.insertAuditEvent r).exec db = .ok (u, ws)) : ws = [.insertAudit r] := by
  unfold CaseStmt.exec at h
  obtain ⟨-, h⟩ := need_bind.mp h
  simp only [need_bind] at h
  obtain ⟨-, -, h⟩ := h
  cases h
  rfl

/-- A clean statement writes rows of the part. -/
theorem CaseStmt.exec_inside (hdb : db.Divided sc out) {s : CaseStmt} (hs : s.Clean sc out) {reply : s.Reply}
    {ws : List CaseWrite} (h : s.exec db = .ok (reply, ws)) :
    (∀ w ∈ ws, w.Inside sc out) ∧ s.Known out reply := by
  cases s with
  | insertCase r => exact inside_insertCase hs h
  | updateCaseVersion organizationId caseId expectedVersion state version updatedAt =>
    exact inside_updateCaseVersion hdb hs h
  | selectCaseByIdempotency organizationId idempotencyKey =>
    cases h
    simp [Known]
  | selectTimeline organizationId caseId =>
    cases h
    simp [Known]
  | selectSnapshot organizationId caseId | selectCase organizationId caseId =>
    cases h
    exact ⟨by simp, fun row hrow => known_of_filter hdb hs hrow⟩
  | insertCaseInput r =>
    rw [writes_insertCaseInput h]
    exact ⟨List.forall_mem_singleton.mpr hs, trivial⟩
  | insertTransition r =>
    rw [writes_insertTransition h]
    exact ⟨List.forall_mem_singleton.mpr hs, trivial⟩
  | insertEvent r =>
    rw [writes_insertEvent h]
    exact ⟨List.forall_mem_singleton.mpr hs, trivial⟩
  | insertOutbox r =>
    rw [writes_insertOutbox h]
    exact ⟨List.forall_mem_singleton.mpr hs, trivial⟩
  | insertAuditEvent r =>
    rw [writes_insertAuditEvent h]
    exact ⟨List.forall_mem_singleton.mpr hs.2, trivial⟩

/-! ### Statements of the upload-intent repository -/

section

variable (sc : Scope) (out : RowId → Prop)

/-- The statement looks up, and inserts, rows of the part. -/
def IntentStmt.Clean : IntentStmt → Prop
  | .insertUploadIntent r _ => sc.tenant r.organizationId = true ∧ (IntentWrite.insertIntent r).Inside sc out
  | .selectIntentForCompletion organizationId caseId _ | .selectCaseVersion organizationId caseId =>
    sc.case organizationId caseId = true
  | .selectIntentCompletedAt intentId | .markIntentCompleted intentId _ => ¬out (.intent intentId)
  | .insertArtifact r => sc.tenant r.organizationId = true ∧ (IntentWrite.insertArtifact r).Inside sc out
  | .insertQuarantinedProcessingEvent r =>
    sc.tenant r.organizationId = true ∧ (IntentWrite.insertProcessing r).Inside sc out
  | .insertArtifactCompletionEvent e => ∀ row, e.row = .ok row → (CaseWrite.insertEvent row).Inside sc out
  | .insertArtifactCompletionOutbox r => (CaseWrite.insertOutbox r).Inside sc out
  | .insertAuditEvent r => sc.tenant r.organizationId = true ∧ (CaseWrite.insertAudit r).Inside sc out
  | .other _ => False

end

/-- What is known of the rows it returns. -/
def IntentStmt.Known (out : RowId → Prop) : (s : IntentStmt) → s.Reply → Prop
  | .selectIntentForCompletion organizationId caseId _, rows => ∀ row ∈ rows,
    row.organizationId = organizationId ∧ row.caseId = caseId ∧ ∀ k ∈ row.ids, ¬out k
  | _, _ => True

/-- The constraints of the ledger look at the rows of one artifact, and at the identifier. -/
theorem accept_within (hdb : db.Divided sc out) {r : ProcessingRow} (hids : ∀ k ∈ r.ids, ¬out k) :
    acceptProcessingEvent (db.within sc).processing r = acceptProcessingEvent db.processing r := by
  have hartifact : ¬out (.artifact r.artifactId) := hids _ (by simp [ProcessingRow.ids])
  have hhighest : highestAttempt (db.within sc).processing r.artifactId =
      highestAttempt db.processing r.artifactId := by
    have hrows := hdb.processing.filter_inside (p := (·.artifactId == r.artifactId)) hartifact fun x hx => by
      simp [ProcessingRow.ids, beq_iff_eq.mp hx]
    exact congrArg (fun rows : List ProcessingRow => (rows.map (·.attempt)).max?) hrows
  have hprior : priorState (db.within sc).processing r.artifactId r.attempt =
      priorState db.processing r.artifactId r.attempt := by
    have hrows := hdb.processing.filter_inside (p := fun x => x.artifactId == r.artifactId &&
      x.attempt == r.attempt) hartifact fun x hx => by
        simp only [Bool.and_eq_true, beq_iff_eq] at hx
        simp [ProcessingRow.ids, hx]
    exact congrArg (fun rows : List ProcessingRow => (rows.argmax ProcessingRow.order).map (·.state)) hrows
  have hid : ((db.within sc).processing.any fun x => x.id == r.id) = db.processing.any fun x => x.id == r.id :=
    hdb.processing.any_inside (hids (.processing r.id) (by simp [ProcessingRow.ids])) fun x hx => by
      simp [ProcessingRow.ids, beq_iff_eq.mp hx]
  have honce : ((db.within sc).processing.any fun x => x.artifactId == r.artifactId && x.attempt == r.attempt &&
        x.state == r.state) =
      db.processing.any fun x => x.artifactId == r.artifactId && x.attempt == r.attempt && x.state == r.state := by
    refine hdb.processing.any_inside hartifact fun x hx => ?_
    simp only [Bool.and_eq_true, beq_iff_eq] at hx
    simp [ProcessingRow.ids, hx]
  unfold acceptProcessingEvent validateArtifactProcessingEvent
  rw [hhighest, hprior, hid, honce]

theorem IntentStmt.exec_within (hdb : db.Divided sc out) {s : IntentStmt} (hs : s.Clean sc out) :
    s.exec (db.within sc) = s.exec db := by
  cases s with
  | insertUploadIntent r classification =>
    obtain ⟨htenant, hcase, hids⟩ := hs
    have hid : ((db.within sc).intents.any fun i => i.id == r.id) = db.intents.any fun i => i.id == r.id :=
      hdb.intents.any_inside (hids (.intent r.id) (by simp [IntentRow.ids])) fun i hi => by
        simp [IntentRow.ids, beq_iff_eq.mp hi]
    have hartifact : ((db.within sc).intents.any fun i => i.artifactId == r.artifactId) =
        db.intents.any fun i => i.artifactId == r.artifactId :=
      hdb.intents.any_inside (hids (.artifact r.artifactId) (by simp [IntentRow.ids])) fun i hi => by
        simp [IntentRow.ids, beq_iff_eq.mp hi]
    have hstorage : ((db.within sc).intents.any fun i =>
          i.organizationId == r.organizationId && i.storageKey == r.storageKey) =
        db.intents.any fun i => i.organizationId == r.organizationId && i.storageKey == r.storageKey := by
      refine hdb.intents.any_inside (hids (.storage r.organizationId r.storageKey) (by simp [IntentRow.ids]))
        fun i hi => ?_
      simp only [Bool.and_eq_true, beq_iff_eq] at hi
      simp [IntentRow.ids, hi]
    simp only [exec, hid, hartifact, hstorage, hasCase_within hcase, mem_organizations_within htenant]
  | selectIntentForCompletion organizationId caseId intentId =>
    have hrows : ((db.within sc).intents.filter fun i =>
          i.organizationId == organizationId && i.caseId == caseId && i.id == intentId) =
        db.intents.filter fun i => i.organizationId == organizationId && i.caseId == caseId && i.id == intentId := by
      refine Rows.filter_inside fun i _ hi => ?_
      simp only [Bool.and_eq_true, beq_iff_eq] at hi
      rw [Scope.intentRow, hi.1.1, hi.1.2]
      exact hs
    simp only [exec, hrows]
  | selectIntentCompletedAt intentId =>
    have hrows : ((db.within sc).intents.filter (·.id == intentId)) = db.intents.filter (·.id == intentId) :=
      hdb.intents.filter_inside hs fun i hi => by simp [IntentRow.ids, beq_iff_eq.mp hi]
    simp only [exec, hrows]
  | insertArtifact r =>
    obtain ⟨htenant, hcase, hids⟩ := hs
    have hid : ((db.within sc).artifacts.any fun a => a.id == r.id) = db.artifacts.any fun a => a.id == r.id :=
      hdb.artifacts.any_inside (hids (.artifact r.id) (by simp [ArtifactRow.ids])) fun a ha => by
        simp [ArtifactRow.ids, beq_iff_eq.mp ha]
    have hstorage : ((db.within sc).artifacts.any fun a =>
          a.organizationId == r.organizationId && a.storageKey == r.storageKey) =
        db.artifacts.any fun a => a.organizationId == r.organizationId && a.storageKey == r.storageKey := by
      refine hdb.artifacts.any_inside (hids (.storage r.organizationId r.storageKey) (by simp [ArtifactRow.ids]))
        fun a ha => ?_
      simp only [Bool.and_eq_true, beq_iff_eq] at ha
      simp [ArtifactRow.ids, ha]
    simp only [exec, hid, hstorage, hasCase_within hcase, mem_organizations_within htenant]
  | insertQuarantinedProcessingEvent r =>
    obtain ⟨htenant, hinside, hids⟩ := hs
    have hartifact : ((db.within sc).artifacts.any fun a =>
          a.organizationId == r.organizationId && a.id == r.artifactId) =
        db.artifacts.any fun a => a.organizationId == r.organizationId && a.id == r.artifactId := by
      refine hdb.artifacts.any_inside (hids (.artifact r.artifactId) (by simp [ProcessingRow.ids])) fun a ha => ?_
      simp only [Bool.and_eq_true, beq_iff_eq] at ha
      simp [ArtifactRow.ids, ha]
    simp only [exec, accept_within hdb hids, hartifact, mem_organizations_within htenant]
  | selectCaseVersion organizationId caseId =>
    have hrows := filter_case_within db (p := fun c => c.organizationId == organizationId &&
      c.id == caseId) hs fun r hr => by simpa using hr
    simp only [exec, hrows]
  | insertArtifactCompletionEvent e =>
    cases hrow : e.row with
    | error d => simp only [exec, hrow, bind, Except.bind]
    | ok row =>
      have hexec : (CaseStmt.insertEvent row).exec (db.within sc) = (CaseStmt.insertEvent row).exec db :=
        CaseStmt.exec_within hdb (hs row hrow)
      simp only [exec, hrow, bind, Except.bind, execSpine, hexec]
  | insertArtifactCompletionOutbox r =>
    have hexec : (CaseStmt.insertOutbox r).exec (db.within sc) = (CaseStmt.insertOutbox r).exec db :=
      CaseStmt.exec_within hdb hs
    simp only [exec, execSpine, hexec]
  | markIntentCompleted intentId completedAt =>
    have hrows : ((db.within sc).intents.filter fun i => i.id == intentId && i.status == .pending) =
        db.intents.filter fun i => i.id == intentId && i.status == .pending := by
      refine hdb.intents.filter_inside hs fun i hi => ?_
      simp only [Bool.and_eq_true, beq_iff_eq] at hi
      simp [IntentRow.ids, hi]
    simp only [exec, hrows]
  | insertAuditEvent r =>
    have hexec : (CaseStmt.insertAuditEvent r).exec (db.within sc) = (CaseStmt.insertAuditEvent r).exec db :=
      CaseStmt.exec_within hdb hs
    simp only [exec, execSpine, hexec]
  | other w => exact hs.elim

theorem execSpine_inside (hdb : db.Divided sc out) {s : CaseStmt} (hs : s.Clean sc out) {u : Unit}
    {ws : List IntentWrite} (h : IntentStmt.execSpine s db = .ok (u, ws)) : ∀ w ∈ ws, w.Inside sc out := by
  unfold IntentStmt.execSpine at h
  cases hexec : s.exec db with
  | error d =>
    rw [hexec] at h
    cases h
  | ok q =>
    rw [hexec] at h
    cases h
    intro w hw
    obtain ⟨x, hx, rfl⟩ := List.mem_map.mp hw
    exact (CaseStmt.exec_inside hdb hs hexec).1 x hx

theorem writes_insertUploadIntent {r : IntentRow} {classification : PyStr} {u : Unit} {ws : List IntentWrite}
    (h : (IntentStmt.insertUploadIntent r classification).exec db = .ok (u, ws)) : ws = [.insertIntent r] := by
  unfold IntentStmt.exec at h
  obtain ⟨-, h⟩ := need_bind.mp h
  simp only [need_bind] at h
  obtain ⟨-, -, -, -, -, -, h⟩ := h
  cases h
  rfl

theorem writes_insertArtifact {r : ArtifactRow} {u : Unit} {ws : List IntentWrite}
    (h : (IntentStmt.insertArtifact r).exec db = .ok (u, ws)) : ws = [.insertArtifact r] := by
  unfold IntentStmt.exec at h
  obtain ⟨-, h⟩ := need_bind.mp h
  simp only [need_bind] at h
  obtain ⟨-, -, -, -, -, h⟩ := h
  cases h
  rfl

theorem writes_insertProcessing {r : ProcessingRow} {u : Unit} {ws : List IntentWrite}
    (h : (IntentStmt.insertQuarantinedProcessingEvent r).exec db = .ok (u, ws)) : ws = [.insertProcessing r] := by
  unfold IntentStmt.exec at h
  obtain ⟨_, -, h⟩ := Raising.bind_ok h
  simp only [need_bind] at h
  obtain ⟨-, -, h⟩ := h
  cases h
  rfl

/-- A clean statement writes rows of the part. -/
theorem IntentStmt.exec_inside (hdb : db.Divided sc out) {s : IntentStmt} (hs : s.Clean sc out)
    {reply : s.Reply} {ws : List IntentWrite} (h : s.exec db = .ok (reply, ws)) :
    (∀ w ∈ ws, w.Inside sc out) ∧ s.Known out reply := by
  cases s with
  | insertUploadIntent r classification =>
    rw [writes_insertUploadIntent h]
    exact ⟨List.forall_mem_singleton.mpr hs.2, trivial⟩
  | selectIntentForCompletion organizationId caseId intentId =>
    cases h
    refine ⟨fun w hw => ?_, fun row hrow => ?_⟩
    · obtain ⟨r, -, rfl⟩ := List.mem_map.mp hw
      trivial
    · obtain ⟨hmem, hrow⟩ := List.mem_filter.mp hrow
      simp only [Bool.and_eq_true, beq_iff_eq] at hrow
      obtain ⟨⟨rfl, rfl⟩, -⟩ := hrow
      exact ⟨rfl, rfl, fun k hk => hdb.intents.not_out hmem hs hk⟩
  | selectIntentCompletedAt intentId =>
    cases h
    exact ⟨by simp, trivial⟩
  | selectCaseVersion organizationId caseId =>
    cases h
    exact ⟨by simp, trivial⟩
  | insertArtifact r =>
    rw [writes_insertArtifact h]
    exact ⟨List.forall_mem_singleton.mpr hs.2, trivial⟩
  | insertQuarantinedProcessingEvent r =>
    rw [writes_insertProcessing h]
    exact ⟨List.forall_mem_singleton.mpr hs.2, trivial⟩
  | insertArtifactCompletionEvent e =>
    obtain ⟨row, hrow, hexec⟩ := Raising.bind_ok h
    exact ⟨execSpine_inside (s := .insertEvent row) hdb (hs row hrow) hexec, trivial⟩
  | insertArtifactCompletionOutbox r => exact ⟨execSpine_inside (s := .insertOutbox r) hdb hs h, trivial⟩
  | markIntentCompleted intentId completedAt =>
    cases h
    refine ⟨fun w hw => ?_, trivial⟩
    obtain ⟨old, hold, rfl⟩ := List.mem_map.mp hw
    obtain ⟨-, hold⟩ := List.mem_filter.mp hold
    simp only [Bool.and_eq_true, beq_iff_eq] at hold
    rw [IntentWrite.Inside, hold.1]
    exact hs
  | insertAuditEvent r => exact ⟨execSpine_inside (s := .insertAuditEvent r) hdb hs h, trivial⟩
  | other w => exact hs.elim

end

/-! ### A transaction -/

/-- The database as a transaction sees it, and the calls of the deferred trigger it leaves behind. -/
structure Work where
  db : Db
  changes : List CaseChange := []

/-- The deferred trigger call that a row change leaves behind. -/
def IntentWrite.change : IntentWrite → Option CaseChange
  | .spine w => w.change
  | _ => none

namespace Work

def record (w : Work) (ws : List IntentWrite) : Work where
  db := ws.foldl (fun db x => x.apply db) w.db
  changes := w.changes ++ ws.filterMap IntentWrite.change

def within (sc : Scope) (w : Work) : Work := { w with db := w.db.within sc }

/-- The transaction has changed rows of the part only. -/
structure Confined (sc : Scope) (out : RowId → Prop) (outside : Db) (w : Work) : Prop where
  divided : w.db.Divided sc out
  outside : w.db.outside sc = outside
  changes : ∀ change ∈ w.changes, sc.caseRow change.row = true

end Work

/-- A statement in a transaction. -/
def CaseStmt.onWork (s : CaseStmt) (w : Work) : Except DbError (s.Reply × Work) :=
  (s.exec w.db).map fun q => (q.1, w.record (q.2.map .spine))

def IntentStmt.onWork (s : IntentStmt) (w : Work) : Except DbError (s.Reply × Work) :=
  (s.exec w.db).map fun q => (q.1, w.record q.2)

section

variable {sc : Scope} {out : RowId → Prop} {outside : Db} {w : Work}

theorem change_inside {x : IntentWrite} (hx : x.Inside sc out) :
    ∀ change ∈ x.change, sc.caseRow change.row = true := by
  intro change hchange
  cases x with
  | spine x =>
    cases x with
    | insertCase r =>
      cases hchange
      exact hx.1
    | updateCase old state version updatedAt =>
      cases hchange
      exact hx
    | _ => cases hchange
  | _ => cases hchange

theorem Work.record_cons (x : IntentWrite) (ws : List IntentWrite) :
    w.record (x :: ws) = (w.record [x]).record ws := by
  simp only [Work.record, List.foldl_cons, List.foldl_nil, List.filterMap_cons, List.filterMap_nil,
    List.append_assoc]
  cases x.change <;> simp

theorem Work.Confined.record_one (h : w.Confined sc out outside) {x : IntentWrite} (hx : x.Inside sc out) :
    (w.record [x]).within sc = (w.within sc).record [x] ∧ (w.record [x]).Confined sc out outside := by
  refine ⟨?_, x.apply_divided hx h.divided, (x.apply_outside hx h.divided).trans h.outside, ?_⟩
  · exact congrArg (fun db => (⟨db, _⟩ : Work)) (x.apply_within hx)
  · intro change hchange
    rcases List.mem_append.mp hchange with hchange | hchange
    · exact h.changes change hchange
    · obtain ⟨y, hy, hofy⟩ := List.mem_filterMap.mp hchange
      rw [List.mem_singleton.mp hy] at hofy
      exact change_inside hx change hofy

/-- Writes of the part act on the part, and keep the rest. -/
theorem Work.Confined.record (h : w.Confined sc out outside) {ws : List IntentWrite}
    (hws : ∀ x ∈ ws, x.Inside sc out) :
    (w.record ws).within sc = (w.within sc).record ws ∧ (w.record ws).Confined sc out outside := by
  induction ws generalizing w with
  | nil =>
    have hnil : ∀ w : Work, w.record [] = w := fun w => by simp [Work.record]
    rw [hnil, hnil]
    exact ⟨rfl, h⟩
  | cons x ws ih =>
    obtain ⟨hx, hws⟩ := List.forall_mem_cons.mp hws
    obtain ⟨hwithin, hconfined⟩ := h.record_one hx
    rw [Work.record_cons, (w.within sc).record_cons, ← hwithin]
    exact ih hconfined hws

/-- The triggers of a confined transaction. -/
theorem Work.Confined.passes (h : w.Confined sc out outside) :
    (w.changes.all fun change => change.passes (w.db.within sc)) = w.changes.all fun change =>
      change.passes w.db := by
  rw [Bool.eq_iff_iff, List.all_eq_true, List.all_eq_true]
  constructor <;> intro hall change hchange
  · rw [← passes_within (h.changes change hchange)]
    exact hall change hchange
  · rw [passes_within (h.changes change hchange)]
    exact hall change hchange

end

/-- A UUID that no row outside has. -/
def Unused (out : RowId → Prop) (id : Uuid) : Prop := ∀ k : RowId, k.uuid = some id → ¬out k

/-- The statements of the case repository on a part. -/
def caseConfinement (sc : Scope) (out : RowId → Prop) (outside : Db) : Confinement Uuid CaseStmt.onWork where
  part := Work.within sc
  inv := Work.Confined sc out outside
  clean := CaseStmt.Clean sc out
  known := CaseStmt.Known out
  fresh := Unused out
  exec_part {s w} hs hw := by
    unfold CaseStmt.onWork
    have hexec : s.exec (w.within sc).db = s.exec w.db := CaseStmt.exec_within hw.divided hs
    rw [hexec]
    cases hok : s.exec w.db with
    | error d => rfl
    | ok q =>
      have hspine : ∀ x ∈ q.2.map IntentWrite.spine, x.Inside sc out := by
        intro x hx
        obtain ⟨y, hy, rfl⟩ := List.mem_map.mp hx
        exact (CaseStmt.exec_inside hw.divided hs hok).1 y hy
      exact congrArg (fun w => Except.ok (q.1, w)) (hw.record hspine).1.symm
  exec_inv {s w r y} hs hw h := by
    unfold CaseStmt.onWork at h
    cases hok : s.exec w.db with
    | error d =>
      rw [hok] at h
      cases h
    | ok q =>
      rw [hok] at h
      cases h
      obtain ⟨hinside, hknown⟩ := CaseStmt.exec_inside hw.divided hs hok
      refine ⟨(hw.record fun x hx => ?_).2, hknown⟩
      obtain ⟨y, hy, rfl⟩ := List.mem_map.mp hx
      exact hinside y hy

/-- The statements of the upload-intent repository on a part. -/
def intentConfinement (sc : Scope) (out : RowId → Prop) (outside : Db) :
    Confinement Uuid IntentStmt.onWork where
  part := Work.within sc
  inv := Work.Confined sc out outside
  clean := IntentStmt.Clean sc out
  known := IntentStmt.Known out
  fresh := Unused out
  exec_part {s w} hs hw := by
    unfold IntentStmt.onWork
    have hexec : s.exec (w.within sc).db = s.exec w.db := IntentStmt.exec_within hw.divided hs
    rw [hexec]
    cases hok : s.exec w.db with
    | error d => rfl
    | ok q =>
      have hinside := (IntentStmt.exec_inside hw.divided hs hok).1
      exact congrArg (fun w => Except.ok (q.1, w)) (hw.record hinside).1.symm
  exec_inv {s w r y} hs hw h := by
    unfold IntentStmt.onWork at h
    cases hok : s.exec w.db with
    | error d =>
      rw [hok] at h
      cases h
    | ok q =>
      rw [hok] at h
      cases h
      obtain ⟨hinside, hknown⟩ := IntentStmt.exec_inside hw.divided hs hok
      exact ⟨(hw.record hinside).2, hknown⟩

end NetopsCopilot
