import NetopsCopilot.Lib.Except
import NetopsCopilot.Application.ArtifactCompletion
import NetopsCopilot.Application.ArtifactEvidence

/-!
# Runs of creating and completing uploads

Each call keeps the slices of the intent it works on: `create` adds the intent and its history to empty
ones, `complete` turns a pending intent and no artifact into a completed intent and its artifact, in one
savepoint and under the lock of the intent's row. So in every run an artifact rests on one completed intent
and on the object that was presigned for it (`evidence_of_artifact`), and an intent that is completed
stays as it is, which is what a later call of `complete` returns.
-/

namespace NetopsCopilot

open Txn

section

variable {binds : PyStr → List PyStr}

/-! ### The row a transaction sees -/

/-- The transaction with writes `ps` sees the intent `row`. -/
def Sees (ps : List EvidenceWrite) (row : IntentRow) (e : EvidenceDb) : Prop :=
  row ∈ (evidenceStore.applyAll ps e).db.intents

theorem EvidenceDb.restrict_applyAll (k : EvidenceKey) (ws : List EvidenceWrite) (e : EvidenceDb) :
    (evidenceStore.applyAll ws e).restrict k = ws.foldl (fun σ w => σ.apply k w) (e.restrict k) := by
  induction ws generalizing e with
  | nil => rfl
  | cons w ws ih =>
    rw [Store.applyAll_cons, ih]
    exact congrArg (ws.foldl fun σ w => σ.apply k w) (EvidenceDb.restrict_apply k w e)

theorem eq_singleton {α : Type} {l : List α} {a : α} (h : a ∈ l) (hl : l.length ≤ 1) : l = [a] := by
  match l, h, hl with
  | [b], h, _ => rw [List.mem_singleton.mp h]

variable {ps ps' : List EvidenceWrite} {row : IntentRow} {e e' : EvidenceDb}

theorem sees_iff (ps : List EvidenceWrite) (row : IntentRow) (e : EvidenceDb) :
    Sees ps row e ↔ row ∈ ((evidenceStore.applyAll ps e).restrict (.intent row.id)).intents := by
  show row ∈ _ ↔ row ∈ List.filter _ _
  rw [List.mem_filter]
  simp [EvidenceKey.holds]

/-- A locked row stays as it is. -/
theorem Sees.rely (h : Sees ps row e) (hlock : .intent row.id ∈ evidenceStore.lockedBy ps')
    (hr : evidenceDiscipline.Rely ps' e e') : Sees ps row e' := by
  rw [sees_iff] at h ⊢
  have hslice : (evidenceStore.applyAll ps e').restrict (.intent row.id) =
      (evidenceStore.applyAll ps e).restrict (.intent row.id) := hr.slice hlock ps
  rwa [hslice]

/-- It is the only row under its keys. -/
theorem Sees.unique (h : Sees ps row e) (hready : evidenceDiscipline.Ready e ps) :
    ((evidenceStore.applyAll ps e).restrict (.intent row.id)).intents = [row] ∧
      ((evidenceStore.applyAll ps e).restrict (.artifact row.artifactId)).intents = [row] := by
  have hid : ((evidenceStore.applyAll ps e).restrict (.intent row.id)).intents.length ≤ 1 :=
    hready.coherent (.intent row.id)
  have hartifact : EvidenceSlice.Good (.artifact row.artifactId)
      ((evidenceStore.applyAll ps e).restrict (.artifact row.artifactId)) :=
    hready.coherent (.artifact row.artifactId)
  have hmem : row ∈ ((evidenceStore.applyAll ps e).restrict (.artifact row.artifactId)).intents := by
    refine List.mem_filter.mpr ⟨h, ?_⟩
    simp [EvidenceKey.holds]
  constructor
  · rw [sees_iff] at h
    exact eq_singleton h hid
  · rcases hartifact with ⟨hnil, -⟩ | ⟨i, hi, -⟩
    · rw [hnil] at hmem
      cases hmem
    · rw [hi] at hmem ⊢
      rw [List.mem_singleton.mp hmem]

/-! ### Statements one after the other -/

/-- Since `x`, the transaction has written `ws`. -/
def Wrote (x : Local EvidenceWrite EvidenceDb) (ws : List EvidenceWrite)
    (y : Local EvidenceWrite EvidenceDb) : Prop :=
  evidenceDiscipline.Onward x y ∧ y.pending = x.pending ++ ws

variable {x y : Local EvidenceWrite EvidenceDb} {ws : List EvidenceWrite}

theorem Wrote.refl (x : Local EvidenceWrite EvidenceDb) : Wrote x [] x :=
  ⟨.of_rely (Discipline.Rely.refl _ _), (List.append_nil _).symm⟩

theorem Wrote.rely (h : Wrote x ws y) {e : EvidenceDb}
    (hr : evidenceDiscipline.Rely y.pending y.db e) : Wrote x ws { y with db := e } :=
  ⟨h.1.trans (.of_rely hr), h.2⟩

/-- One statement, in the view it runs in, and what the others commit after it. -/
theorem wrote_executeText {sql : PyStr} {parameters : List PyStr} {s : IntentStmt} (h : Wrote x ws y)
    {Q : s.Reply → Local EvidenceWrite EvidenceDb → Prop}
    (hexec : ∀ e r ws', Wrote x ws { y with db := e } →
      evidenceExec s (evidenceStore.applyAll y.pending e) = .ok (r, ws') →
      ∀ z, Wrote x (ws ++ ws') z → evidenceDiscipline.Rely z.pending e z.db → Q r z) :
    evidenceDiscipline.wp (executeText binds sql parameters s) (Discipline.OnOk Q) y := by
  unfold executeText
  split
  · exact Discipline.onOk_raise _
  · refine Discipline.onOk_execute_rely _ fun e r ws' hr hrun e' hr' => ?_
    refine hexec e r ws' (h.rely hr) hrun _ ?_ hr'
    have hwrote : Wrote x (ws ++ ws') { y with db := e, pending := y.pending ++ ws' } :=
      ⟨(h.rely hr).1.trans (.grow _ ws'), by simp [h.2]⟩
    exact hwrote.rely hr'

/-- A statement that writes one row. -/
theorem wrote_row {sql : PyStr} {parameters : List PyStr} {s : IntentStmt} {w : EvidenceWrite}
    (h : Wrote x ws y) (hexec : ∀ e r ws', evidenceExec s e = .ok (r, ws') → ws' = [w]) :
    evidenceDiscipline.wp (executeText binds sql parameters s)
      (Discipline.OnOk fun _ => Wrote x (ws ++ [w])) y := by
  refine wrote_executeText h fun e r ws' _ hrun z hz _ => ?_
  rwa [hexec _ r ws' hrun] at hz

theorem wrote_draw (h : Wrote x ws y) :
    evidenceDiscipline.wp (Prog.draw : IntentProg Uuid) (Discipline.OnOk fun _ => Wrote x ws) y :=
  fun _ _ hr => h.rely hr

theorem wrote_lift {A : Type} {r : Except IntentError A} (h : Wrote x ws y) :
    evidenceDiscipline.wp (Prog.lift r : IntentProg A)
      (Discipline.OnOk fun a z => Wrote x ws z ∧ r = .ok a) y := by
  cases r with
  | ok a => exact fun _ hr => ⟨h.rely hr, rfl⟩
  | error e => exact fun _ _ => trivial

theorem wrote_ret {A : Type} {a : A} (h : Wrote x ws y) {Q : A → Local EvidenceWrite EvidenceDb → Prop}
    (hQ : ∀ z, Wrote x ws z → Q a z) :
    evidenceDiscipline.wp (.ret a : IntentProg A) (Discipline.OnOk Q) y :=
  fun _ hr => hQ _ (h.rely hr)

/-! ### Completing -/

/-- The writes of a completion. -/
def completionWrites (organizationId : Uuid) (intent : IntentRow) (metadata : ArtifactObjectMetadata)
    (now : Instant) (processingId : Uuid) (version : Nat) (eventId outboxId : Uuid) (audit : AuditRow) :
    List EvidenceWrite :=
  [.row (.insertArtifact (artifactRow organizationId intent metadata now)),
    .row (.insertProcessing (quarantinedRow organizationId intent now processingId)),
    .completionEvent (completionEvent organizationId intent version now eventId),
    .row (.spine (.insertOutbox (completionOutbox organizationId intent version now eventId outboxId))),
    .row (.completeIntent intent now), .row (.spine (.insertAudit audit))]

/-- The transaction has found an intent and locked it. -/
structure Loaded (call : CompletionCall) (row : IntentRow) (x y : Local EvidenceWrite EvidenceDb) :
    Prop where
  organizationId : row.organizationId = call.organizationId
  caseId : row.caseId = call.caseId
  id : row.id = call.intentId
  wrote : Wrote x [.row (.lockIntent row)] y
  sees : Sees x.pending row y.db

theorem locked_of_wrote (h : Wrote x (.row (.lockIntent row) :: ws) y) :
    .intent row.id ∈ evidenceStore.lockedBy y.pending ∧
      .artifact row.artifactId ∈ evidenceStore.lockedBy y.pending := by
  have hkeys : row.keys ⊆ evidenceStore.lockedBy y.pending := by
    rw [h.2, Store.lockedBy_append, Store.lockedBy_cons]
    intro k hk
    exact List.mem_append_right _ (List.mem_append_left _ hk)
  exact ⟨hkeys (by simp [IntentRow.keys]), hkeys (by simp [IntentRow.keys])⟩

/-- The intent stays loaded while the transaction goes on. -/
theorem Loaded.onward {call : CompletionCall} {z : Local EvidenceWrite EvidenceDb}
    (h : Loaded call row x y) (hz : evidenceDiscipline.Onward y z) : Sees x.pending row z.db :=
  h.sees.rely (locked_of_wrote h.wrote).1 hz.rely

theorem wp_loadForCompletion (call : CompletionCall) (x : Local EvidenceWrite EvidenceDb) :
    evidenceDiscipline.wp (loadForCompletion binds call.organizationId call.caseId call.intentId)
      (Discipline.OnOk fun row y => Loaded call row x y) x := by
  unfold loadForCompletion
  refine Discipline.onOk_bind _ (Q := fun rows y => Wrote x (rows.map fun r => .row (.lockIntent r)) y ∧
    ∀ row, rows = [row] → Loaded call row x y) ?_ ?_
  · refine wrote_executeText (.refl x) fun e r ws' he hrun z hz hr => ?_
    cases hrun
    rw [List.nil_append, List.map_map] at hz
    refine ⟨hz, fun row hrow => ?_⟩
    have hmem : row ∈ (evidenceStore.applyAll x.pending e).db.intents.filter fun i =>
        i.organizationId == call.organizationId && i.caseId == call.caseId && i.id == call.intentId := by
      rw [hrow]
      exact List.mem_singleton_self row
    obtain ⟨hmem, hwhere⟩ := List.mem_filter.mp hmem
    simp only [Bool.and_eq_true, beq_iff_eq] at hwhere
    obtain ⟨⟨horganization, hcase⟩, hid⟩ := hwhere
    have hwrote : Wrote x [.row (.lockIntent row)] z := by
      rw [hrow] at hz
      exact hz
    have hsees : Sees x.pending row e := hmem
    exact ⟨horganization, hcase, hid, hwrote, hsees.rely (locked_of_wrote hwrote).1 hr⟩
  · rintro (_ | ⟨row, _ | ⟨_, _⟩⟩) y ⟨hwrote, hload⟩
    · exact Discipline.onOk_raise _
    · intro e hr
      have hloaded := hload row rfl
      exact ⟨hloaded.organizationId, hloaded.caseId, hloaded.id, hloaded.wrote.rely hr,
        hloaded.onward (.of_rely hr)⟩
    · exact Discipline.onOk_raise _

/-- The intent a transaction sees, once it has locked it and written rows of other tables. -/
theorem Loaded.select {call : CompletionCall} (h : Loaded call row x y)
    {z : Local EvidenceWrite EvidenceDb} (hz : evidenceDiscipline.Onward y z)
    (hready : evidenceDiscipline.Ready z.db x.pending) {ws : List EvidenceWrite}
    (hpending : z.pending = y.pending ++ ws)
    (hws : ∀ w ∈ ws, ∀ σ : EvidenceSlice, (σ.apply (.intent row.id) w).intents = σ.intents) :
    (evidenceStore.applyAll z.pending z.db).db.intents.filter (fun i => i.id == row.id) = [row] := by
  obtain ⟨hunique, -⟩ := (h.onward hz).unique hready
  have hintents : ∀ (ws : List EvidenceWrite) (σ : EvidenceSlice),
      (∀ w ∈ ws, ∀ σ : EvidenceSlice, (σ.apply (.intent row.id) w).intents = σ.intents) →
      (ws.foldl (fun σ w => σ.apply (.intent row.id) w) σ).intents = σ.intents := by
    intro ws
    induction ws with
    | nil => exact fun _ _ => rfl
    | cons w ws ih =>
      intro σ hws
      rw [List.foldl_cons, ih _ fun w hw => hws w (List.mem_cons_of_mem _ hw)]
      exact hws w List.mem_cons_self σ
  have hslice := EvidenceDb.restrict_applyAll (.intent row.id) ws (evidenceStore.applyAll y.pending z.db)
  have hlock : evidenceStore.applyAll y.pending z.db = evidenceStore.applyAll x.pending z.db := by
    rw [h.wrote.2, Store.applyAll_append]
    rfl
  rw [hpending, Store.applyAll_append]
  show ((evidenceStore.applyAll ws _).restrict (.intent row.id)).intents = [row]
  rw [hslice, hintents ws _ hws, hlock, hunique]

variable {organizationId : Uuid} {metadata : ArtifactObjectMetadata} {now : Instant}

theorem wp_insertCompletionOutbox (h : Wrote x ws y) :
    evidenceDiscipline.wp (insertCompletionOutbox binds organizationId row now)
      (Discipline.OnOk fun _ z => ∃ version eventId outboxId, Wrote x (ws ++
        [.completionEvent (completionEvent organizationId row version now eventId),
          .row (.spine (.insertOutbox
            (completionOutbox organizationId row version now eventId outboxId)))]) z) y := by
  unfold insertCompletionOutbox
  refine Discipline.onOk_bind _ (Q := fun _ => Wrote x ws) ?_ fun versions y hy => ?_
  · refine wrote_executeText h fun e r ws' _ hrun z hz _ => ?_
    cases hrun
    rwa [List.map_nil, List.append_nil] at hz
  refine Discipline.onOk_bind _ (wrote_lift hy) fun version y hy => ?_
  refine Discipline.onOk_bind _ (wrote_draw hy.1) fun eventId y hy => ?_
  refine Discipline.onOk_bind _ (wrote_row hy fun e r ws' hrun => by cases hrun; rfl) fun _ y hy => ?_
  refine Discipline.onOk_bind _ (wrote_draw hy) fun outboxId y hy => ?_
  refine wrote_executeText hy fun e r ws' _ hrun z hz _ => ?_
  cases hrun
  rw [List.append_assoc] at hz
  exact ⟨version, eventId, outboxId, hz⟩

theorem wp_recordCompletion {call : CompletionCall} (h : Loaded call row x y)
    (hpending : row.status = .pending) (hcoherent : evidenceDiscipline.Coherent x.db)
    (hready : evidenceDiscipline.Ready x.db x.pending) :
    evidenceDiscipline.wp (recordCompletion binds organizationId row metadata now)
      (Discipline.OnOk fun result z => result = ⟨row.artifactId, now, false⟩ ∧
        ∃ processingId version eventId outboxId audit, Wrote y
          (completionWrites organizationId row metadata now processingId version eventId outboxId audit)
          z) y := by
  unfold recordCompletion
  refine Discipline.onOk_bind _ (wrote_lift (.refl y)) fun _ z hz => ?_
  refine Discipline.onOk_bind _ (wrote_row hz.1 fun e r ws' hrun => by cases hrun; rfl) fun _ z hz => ?_
  refine Discipline.onOk_bind _ (wrote_draw hz) fun processingId z hz => ?_
  refine Discipline.onOk_bind _ (wrote_row hz fun e r ws' hrun => by cases hrun; rfl) fun _ z hz => ?_
  refine Discipline.onOk_bind _ (wp_insertCompletionOutbox hz) fun _ u hu => ?_
  obtain ⟨version, eventId, outboxId, hu⟩ := hu
  refine Discipline.onOk_bind _ (wrote_executeText hu (Q := fun _ z => Wrote y
    ([.row (.insertArtifact (artifactRow organizationId row metadata now)),
      .row (.insertProcessing (quarantinedRow organizationId row now processingId)),
      .completionEvent (completionEvent organizationId row version now eventId),
      .row (.spine (.insertOutbox (completionOutbox organizationId row version now eventId outboxId))),
      .row (.completeIntent row now)]) z) fun e r ws' he hrun z hz _ => ?_) fun _ z hz => ?_
  · -- the update finds the one row that is locked
    have hselect := h.select he.1 ((h.wrote.1.trans he.1).ready hcoherent hready) he.2 (by
      simp [EvidenceSlice.apply])
    have hview : (evidenceStore.applyAll u.pending e).db.intents.filter
        (fun i => i.id == row.id && i.status == .pending) = [row] := by
      have hfilter := congrArg (List.filter fun i => i.status == .pending) hselect
      rw [List.filter_filter] at hfilter
      simpa [hpending, Bool.and_comm] using hfilter
    cases hrun
    rw [hview] at hz
    exact hz
  refine Discipline.onOk_bind _ (wrote_draw hz) fun auditEventId z hz => ?_
  refine Discipline.onOk_bind _ (wrote_row hz fun e r ws' hrun => by cases hrun; rfl) fun _ z hz => ?_
  exact wrote_ret hz fun z hz => ⟨rfl, processingId, version, eventId, outboxId, _, hz⟩

theorem verifyMetadata_ok {intent : IntentRow} {u : Unit}
    (h : verifyMetadata intent metadata = .ok u) :
    metadata.contentType = intent.contentType ∧ metadata.contentLength = intent.byteSize ∧
      metadata.sha256Hex = intent.sha256 := by
  unfold verifyMetadata at h
  split_ifs at h with hne
  simpa only [not_or, ne_eq, not_not] using hne

/-- A call of `complete` has verified the object of a pending intent in time. -/
structure Verified (call : CompletionCall) (row : IntentRow) (metadata : ArtifactObjectMetadata) : Prop where
  inTime : call.now < row.expiresAt
  head : ∃ request, ArtifactUploadRequest.make call.organizationId row.artifactId row.contentType
      row.byteSize row.sha256 (some row.caseId) = .ok request ∧
    headUploadedObject call.settings call.headObject request = .ok metadata
  contentType : metadata.contentType = row.contentType
  contentLength : metadata.contentLength = row.byteSize
  sha256Hex : metadata.sha256Hex = row.sha256

/-- What a call of `complete` that returns has done to the intent it loaded. -/
def Completed (call : CompletionCall) (row : IntentRow) (result : CompletedArtifactUpload)
    (y z : Local EvidenceWrite EvidenceDb) : Prop :=
  (row.status = .completed ∧ Wrote y [] z ∧
    ∃ completedAt, row.completedAt = some completedAt ∧ result = ⟨row.artifactId, completedAt, true⟩) ∨
  (row.status = .pending ∧ result = ⟨row.artifactId, call.now, false⟩ ∧ ∃ metadata,
    Verified call row metadata ∧ ∃ processingId version eventId outboxId audit, Wrote y (completionWrites
      call.organizationId row metadata call.now processingId version eventId outboxId audit) z)

theorem wp_loadCompletedAt {call : CompletionCall} (h : Loaded call row x y)
    (hcoherent : evidenceDiscipline.Coherent x.db) (hready : evidenceDiscipline.Ready x.db x.pending) :
    evidenceDiscipline.wp (loadCompletedAt binds row.id)
      (Discipline.OnOk fun completedAt z => Wrote y [] z ∧ row.completedAt = some completedAt) y := by
  unfold loadCompletedAt
  refine Discipline.onOk_bind _ (wrote_executeText (.refl y) (Q := fun rows z => Wrote y [] z ∧
    rows = [row.completedAt]) fun e r ws' he hrun z hz _ => ?_) fun rows z hz => ?_
  · have hselect := h.select he.1 ((h.wrote.1.trans he.1).ready hcoherent hready) he.2 (by simp)
    cases hrun
    rw [List.map_nil, List.append_nil] at hz
    exact ⟨hz, congrArg (List.map (·.completedAt)) hselect⟩
  obtain ⟨hz, rfl⟩ := hz
  refine Discipline.onOk_bind _ (wrote_lift hz) ?_
  rintro (_ | completedAt) u ⟨hu, hvalue⟩
  · exact Discipline.onOk_raise _
  · refine wrote_ret hu fun v hv => ⟨hv, ?_⟩
    exact Except.ok.inj hvalue

theorem wp_completeLoaded {call : CompletionCall} (h : Loaded call row x y)
    (hcoherent : evidenceDiscipline.Coherent x.db) (hready : evidenceDiscipline.Ready x.db x.pending) :
    evidenceDiscipline.wp (completeLoaded binds call.organizationId
        (headUploadedObject call.settings call.headObject) call.now row)
      (Discipline.OnOk fun result => Completed call row result y) y := by
  unfold completeLoaded
  split_ifs with hcompleted hpending hexpired
  · refine Discipline.onOk_bind _ (wp_loadCompletedAt h hcoherent hready) fun completedAt z hz => ?_
    exact wrote_ret hz.1 fun u hu => Or.inl ⟨hcompleted, hu, completedAt, hz.2, rfl⟩
  · exact Discipline.onOk_raise _
  · exact Discipline.onOk_raise _
  · refine Discipline.onOk_bind _ (wrote_lift (.refl y)) fun request z hz => ?_
    refine Discipline.onOk_bind _ (wrote_lift hz.1) fun metadata u hu => ?_
    refine Discipline.onOk_bind _ (wrote_lift hu.1) fun _ v hv => ?_
    obtain ⟨htype, hlength, hdigest⟩ := verifyMetadata_ok hv.2
    have hverified : Verified call row metadata :=
      ⟨not_le.mp hexpired, ⟨request, Raising.mapError_ok hz.2, Raising.mapError_ok hu.2⟩, htype, hlength, hdigest⟩
    have hv' : Loaded call row x v :=
      ⟨h.organizationId, h.caseId, h.id, ⟨h.wrote.1.trans hv.1.1, by
        rw [hv.1.2, h.wrote.2, List.append_nil]⟩, h.onward hv.1.1⟩
    refine Discipline.wp_mono _ (wp_recordCompletion hv' (not_not.mp hpending) hcoherent hready) ?_
    rintro (e | result) w hw
    · trivial
    · obtain ⟨hresult, processingId, version, eventId, outboxId, audit, hw⟩ := hw
      refine Or.inr ⟨not_not.mp hpending, hresult, metadata, hverified, processingId, version, eventId,
        outboxId, audit, hv.1.1.trans hw.1, ?_⟩
      rw [hw.2, hv.1.2, List.append_nil]

/-! ### The slices after a call -/

/-- New writes keep a transaction ready when the slices they touch are locked and good. -/
theorem ready_append (h : evidenceDiscipline.Ready e ps)
    (howned : ∀ k ∈ evidenceStore.touchedBy ws, k ∈ evidenceStore.lockedBy ws)
    (hgood : ∀ k ∈ evidenceStore.touchedBy ws, EvidenceSlice.Good k
      (ws.foldl (fun σ w => σ.apply k w) ((evidenceStore.applyAll ps e).restrict k))) :
    evidenceDiscipline.Ready e (ps ++ ws) := by
  refine ⟨fun k => ?_, h.owned.append fun k hk => Or.inr (howned k hk), trivial⟩
  rw [Store.applyAll_append]
  by_cases hk : k ∈ evidenceStore.touchedBy ws
  · show EvidenceSlice.Good k ((evidenceStore.applyAll ws _).restrict k)
    rw [EvidenceDb.restrict_applyAll]
    exact hgood k hk
  · rw [evidenceDiscipline.untouched_all hk]
    exact h.coherent k

theorem Declared.storageKey {n : UploadNote} {i : IntentRow} (h : Declared n i) :
    i.storageKey = NetopsCopilot.storageKey i.organizationId i.caseId i.artifactId := by
  have hkey := congrArg IntentRow.storageKey h.declared
  have horganization := congrArg IntentRow.organizationId h.declared
  have hcase := congrArg IntentRow.caseId h.declared
  dsimp only at hkey horganization hcase
  rw [hkey, horganization, hcase]
  rfl

theorem Declared.complete {n : UploadNote} {i : IntentRow} (h : Declared n i) (completedAt : Instant) :
    Declared n (i.complete completedAt) := ⟨h.artifactId, h.declared, h.presigned⟩

theorem Verified.attested {call : CompletionCall} {n : UploadNote} (h : Verified call row metadata)
    (hn : Declared n row) (horganization : row.organizationId = call.organizationId)
    (hcase : row.caseId = call.caseId) (hid : row.id = call.intentId) :
    Attested ⟨call, ⟨row.artifactId, call.now, false⟩⟩ (row.complete call.now)
      (artifactRow call.organizationId row metadata call.now) := by
  refine ⟨horganization.symm, hcase.symm, hid.symm, rfl, rfl, h.inTime, ?_⟩
  obtain ⟨request, hrequest, hhead⟩ := h.head
  obtain ⟨response, hresponse, hattests⟩ := headUploadedObject_attests hhead
  have hkey : objectKey request = row.storageKey := by
    rw [objectKey_make hrequest, hn.storageKey, horganization]
  rw [h.contentType, h.contentLength, h.sha256Hex] at hattests
  rw [hkey] at hresponse
  exact ⟨response, hresponse, hattests⟩

theorem touchedBy_completion (call : CompletionCall) (row : IntentRow)
    (metadata : ArtifactObjectMetadata) (processingId : Uuid) (version : Nat) (eventId outboxId : Uuid)
    (audit : AuditRow) (k : EvidenceKey) (hk : k ∈ evidenceStore.touchedBy
      ([.row (.lockIntent row)] ++ (completionWrites call.organizationId row metadata call.now processingId
        version eventId outboxId audit ++
        EvidenceCommand.record (.complete call) (.ok (.completed ⟨row.artifactId, call.now, false⟩))))) :
    k ∈ row.keys := by
  have hrecord : EvidenceCommand.record (.complete call)
      (.ok (.completed ⟨row.artifactId, call.now, false⟩)) =
      [.completion ⟨call, ⟨row.artifactId, call.now, false⟩⟩] := rfl
  rw [hrecord] at hk
  simp only [completionWrites, Store.touchedBy, evidenceStore, EvidenceWrite.touches, artifactRow,
    List.flatMap_append, List.flatMap_cons, List.flatMap_nil, List.append_nil, List.nil_append,
    List.mem_append, IntentRow.keys, List.mem_cons, List.not_mem_nil, or_false] at hk ⊢
  tauto

/-- A transaction may commit after a call of `complete`. -/
theorem Completed.ready {call : CompletionCall} {result : CompletedArtifactUpload}
    {z : Local EvidenceWrite EvidenceDb} (h : Completed call row result y z) (hload : Loaded call row x y)
    (hready : evidenceDiscipline.Ready z.db x.pending) :
    evidenceDiscipline.Ready z.db
      (z.pending ++ EvidenceCommand.record (.complete call) (.ok (.completed result))) := by
  rcases h with ⟨-, hz, completedAt, -, rfl⟩ | ⟨hpending, rfl, metadata, hverified, hz⟩
  · rw [hz.2, hload.wrote.2]
    simp only [EvidenceCommand.record, List.append_nil, if_true]
    exact ready_append hready (fun _ hk => absurd hk List.not_mem_nil)
      fun _ hk => absurd hk List.not_mem_nil
  · obtain ⟨processingId, version, eventId, outboxId, audit, hz⟩ := hz
    obtain ⟨hintent, hartifact⟩ := (hload.onward hz.1).unique hready
    have hgood : EvidenceSlice.Good (.artifact row.artifactId)
        ((evidenceStore.applyAll x.pending z.db).restrict (.artifact row.artifactId)) :=
      hready.coherent (.artifact row.artifactId)
    rcases hgood with ⟨hnil, -⟩ | ⟨i, hi, ⟨n, hn, hdeclared⟩, hstatus⟩
    · rw [hnil] at hartifact
      cases hartifact
    rw [hi] at hartifact
    cases hartifact
    rcases hstatus with ⟨-, hnone⟩ | ⟨hcompleted, -⟩
    · rw [hz.2, hload.wrote.2, List.append_assoc, List.append_assoc]
      have hmark : row.mark call.now row = row.complete call.now := by simp [IntentRow.mark, hpending]
      have hkeys : ∀ k, k ∈ evidenceStore.touchedBy _ → k ∈ row.keys :=
        touchedBy_completion call row metadata processingId version eventId outboxId audit
      refine ready_append hready (fun k hk => ?_) fun k hk => ?_
      · exact List.mem_append_left _ (hkeys k hk)
      · have hk' := hkeys k hk
        simp only [IntentRow.keys, List.mem_cons, List.not_mem_nil, or_false] at hk'
        rcases hk' with rfl | rfl
        · simp only [completionWrites, EvidenceCommand.record, List.foldl_cons, List.foldl_nil,
            List.foldl_append, EvidenceSlice.apply, EvidenceSlice.Good, hintent]
          simp
        · have hattested := hverified.attested hdeclared hload.organizationId hload.caseId hload.id
          refine Or.inr ⟨row.complete call.now, ?_, ⟨n, ?_, hdeclared.complete call.now⟩,
            Or.inr ⟨rfl, artifactRow call.organizationId row metadata call.now, ?_, ?_, _, ?_, hattested⟩⟩
          · simp [completionWrites, EvidenceCommand.record, EvidenceSlice.apply, hi, hmark]
          · simpa [completionWrites, EvidenceCommand.record, EvidenceSlice.apply,
              EvidenceKey.names] using hn
          · simp [completionWrites, EvidenceCommand.record, EvidenceSlice.apply, EvidenceKey.names, hnone,
              artifactRow]
          · exact ⟨rfl, hload.organizationId.symm, rfl, rfl, rfl, rfl, rfl, rfl, rfl⟩
          · simp [completionWrites, EvidenceCommand.record, EvidenceSlice.apply, EvidenceKey.names]
    · rw [hpending] at hcompleted
      cases hcompleted

/-! ### Declaring -/

/-- No intent bears a key of `row`. -/
def Unclaimed (ps : List EvidenceWrite) (row : IntentRow) (e : EvidenceDb) : Prop :=
  ∀ k ∈ row.keys, ((evidenceStore.applyAll ps e).restrict k).intents = []

theorem Unclaimed.rely (h : Unclaimed ps row e) (hlock : row.keys ⊆ evidenceStore.lockedBy ps')
    (hr : evidenceDiscipline.Rely ps' e e') : Unclaimed ps row e' := by
  intro k hk
  have hslice : (evidenceStore.applyAll ps e').restrict k = (evidenceStore.applyAll ps e).restrict k :=
    hr.slice (hlock hk) ps
  rw [hslice]
  exact h k hk

/-- The database has checked both keys. -/
theorem exec_insertUploadIntent {classification : PyStr} {u : Unit} {ws' : List EvidenceWrite}
    (h : evidenceExec (.insertUploadIntent row classification) (evidenceStore.applyAll ps e) =
      .ok (u, ws')) :
    ws' = [.row (.insertIntent row)] ∧ Unclaimed ps row e := by
  simp only [evidenceExec, need_bind] at h
  obtain ⟨-, hid, hartifact, h⟩ := h
  cases h
  have hnone : ∀ p : IntentRow → Bool, (!(evidenceStore.applyAll ps e).db.intents.any p) = true →
      (evidenceStore.applyAll ps e).db.intents.filter p = [] := by
    intro p hp
    rw [Bool.not_eq_true', List.any_eq_false] at hp
    exact List.filter_eq_nil_iff.mpr hp
  refine ⟨rfl, fun k hk => ?_⟩
  simp only [IntentRow.keys, List.mem_cons, List.not_mem_nil, or_false] at hk
  rcases hk with rfl | rfl
  · exact hnone _ hid
  · exact hnone _ hartifact

/-- The end of a call of `create`. -/
def Created (call : UploadCall) (x : Local EvidenceWrite EvidenceDb) :
    Except IntentError ArtifactUploadCapabilityResponse → Local EvidenceWrite EvidenceDb → Prop
  | .ok reply, y => evidenceDiscipline.Onward x y ∧
      evidenceDiscipline.Ready y.db (y.pending ++ [.upload ⟨call, reply⟩])
  | .error _, y => evidenceDiscipline.Onward x y ∧ y.pending = x.pending

/-- A transaction may commit after a call of `create`. -/
theorem ready_created {call : UploadCall} {reply : ArtifactUploadCapabilityResponse} {audit : AuditRow}
    (hready : evidenceDiscipline.Ready e ps)
    (hrow : row = intentRow call.organizationId (call.intent reply.artifactId reply.intentId reply.expiresAt))
    (hunclaimed : Unclaimed ps row e) (hdeclared : Declared ⟨call, reply⟩ row) :
    evidenceDiscipline.Ready e (ps ++ ([.row (.insertIntent row), .row (.spine (.insertAudit audit))] ++
      [.upload ⟨call, reply⟩])) := by
  have hartifact : row.artifactId = reply.artifactId := by rw [hrow]; rfl
  have hkeys : ∀ k ∈ evidenceStore.touchedBy ([.row (.insertIntent row),
      .row (.spine (.insertAudit audit))] ++ [.upload ⟨call, reply⟩]), k ∈ row.keys := by
    intro k hk
    simp only [Store.touchedBy, evidenceStore, EvidenceWrite.touches, List.cons_append, List.nil_append,
      List.flatMap_cons, List.flatMap_nil, List.append_nil, IntentRow.keys, List.mem_cons,
      List.not_mem_nil, or_false, ← hartifact] at hk ⊢
    tauto
  refine ready_append hready (fun k hk => List.mem_append_left _ (hkeys k hk)) fun k hk => ?_
  have hnone := hunclaimed k (hkeys k hk)
  have hk' := hkeys k hk
  simp only [IntentRow.keys, List.mem_cons, List.not_mem_nil, or_false] at hk'
  rcases hk' with rfl | rfl
  · simp [EvidenceSlice.apply, EvidenceSlice.Good, EvidenceKey.holds, hnone]
  · have hgood : EvidenceSlice.Good (.artifact row.artifactId)
        ((evidenceStore.applyAll ps e).restrict (.artifact row.artifactId)) :=
      hready.coherent (.artifact row.artifactId)
    rcases hgood with ⟨-, hartifacts⟩ | ⟨i, hi, -⟩
    · refine Or.inr ⟨row, ?_, ⟨_, ?_, hdeclared⟩, Or.inl ⟨by rw [hrow]; rfl, ?_⟩⟩
      · simp [EvidenceSlice.apply, EvidenceKey.holds, hnone]
      · simp [EvidenceSlice.apply, EvidenceKey.names, hartifact]
      · simpa [EvidenceSlice.apply] using hartifacts
    · rw [hi] at hnone
      cases hnone

theorem wp_createIntent (call : UploadCall) (c : CreateArtifactUploadIntent)
    (hrow : row = intentRow call.organizationId c) (x : Local EvidenceWrite EvidenceDb) :
    evidenceDiscipline.wp (createIntent binds call.organizationId c)
      (fun r y => evidenceDiscipline.Onward x y ∧ match r with
        | .ok _ => Unclaimed x.pending row y.db ∧ ∃ audit,
          y.pending = x.pending ++ [.row (.insertIntent row), .row (.spine (.insertAudit audit))]
        | .error _ => y.pending = x.pending) x := by
  refine Discipline.wp_mono _ (Discipline.wp_atomic_onward _ ?_ (Q := fun _ z =>
    Unclaimed x.pending row z.db ∧ ∃ audit,
      z.pending = x.pending ++ [.row (.insertIntent row), .row (.spine (.insertAudit audit))]) ?_) ?_
  · exact Prog.Flat.bind (flat_executeText ..) fun _ => Prog.Flat.bind Prog.flat_draw fun _ =>
      flat_executeText ..
  · have hlocked : ∀ (ws : List EvidenceWrite) (y : Local EvidenceWrite EvidenceDb),
        y.pending = x.pending ++ .row (.insertIntent row) :: ws →
        row.keys ⊆ evidenceStore.lockedBy y.pending := by
      intro ws y hy k hk
      rw [hy, Store.lockedBy_append, Store.lockedBy_cons]
      exact List.mem_append_right _ (List.mem_append_left _ hk)
    refine Discipline.onOk_bind _ (wrote_executeText (.refl _) (Q := fun _ z =>
      Unclaimed x.pending row z.db ∧ z.pending = x.pending ++ [.row (.insertIntent row)])
      fun e r ws' he hrun z hz hr => ?_) fun _ z hz => ?_
    · rw [← hrow] at hrun
      obtain ⟨rfl, hunclaimed⟩ := exec_insertUploadIntent hrun
      exact ⟨hunclaimed.rely (hlocked [] z hz.2) hr, hz.2⟩
    · obtain ⟨hunclaimed, hz⟩ := hz
      refine Discipline.onOk_bind _ (wrote_draw (.refl z)) fun auditEventId u hu => ?_
      refine Discipline.wp_mono _ (wrote_row hu fun e r ws' hrun => by cases hrun; rfl) ?_
      rintro (e | _) v hv
      · trivial
      · have hwrote : Wrote z _ v := hv
        obtain ⟨audit, haudit⟩ : ∃ audit,
            v.pending = z.pending ++ [.row (.spine (.insertAudit audit))] := ⟨_, hwrote.2⟩
        refine ⟨hunclaimed.rely (hlocked [] z hz) hwrote.1.rely, audit, ?_⟩
        rw [haudit, hz, List.append_assoc]
        rfl
  · rintro (e | _) y ⟨hy, hend⟩
    · exact ⟨hy, hend⟩
    · obtain ⟨z, ⟨hunclaimed, audit, hz⟩, hpending, hr⟩ := hend
      refine ⟨hy, hunclaimed.rely ?_ hr, audit, hpending.trans hz⟩
      intro k hk
      rw [hz, Store.lockedBy_append, Store.lockedBy_cons]
      exact List.mem_append_right _ (List.mem_append_left _ hk)

theorem wp_createUploadIntent (call : UploadCall) (hcoherent : evidenceDiscipline.Coherent x.db)
    (hready : evidenceDiscipline.Ready x.db x.pending) :
    evidenceDiscipline.wp (createUploadIntent binds call) (Created call x) x := by
  have hraise : ∀ {e : IntentError} {y : Local EvidenceWrite EvidenceDb}, evidenceDiscipline.Later x y →
      evidenceDiscipline.wp (.raise e : IntentProg ArtifactUploadCapabilityResponse) (Created call x) y :=
    fun hy => Discipline.wp_raise _ fun z hz =>
      have hxz := hy.trans hz
      ⟨⟨hxz.saves, hxz.pending ▸ List.prefix_rfl, hxz.rely⟩, hxz.pending⟩
  intro artifactId intentId
  refine Discipline.wp_elim _ (p := Prog.lift _) (Discipline.wp_lift _ fun y hy => ?_)
  cases hrequest : call.request artifactId with
  | error e => exact hraise hy
  | ok request =>
    refine Discipline.wp_elim _ (Discipline.wp_lift _ fun z hz => ?_)
    have hxz := hy.trans hz
    cases hcapability : presignUpload call.settings call.sign request call.now with
    | error e => exact hraise hxz
    | ok capability =>
      have honward : evidenceDiscipline.Onward x z :=
        ⟨hxz.saves, hxz.pending ▸ List.prefix_rfl, hxz.rely⟩
      refine Discipline.wp_elim _ (Discipline.wp_mono _ (wp_createIntent call _ rfl z) ?_)
      rintro (e | _) u ⟨hu, hend⟩
      · refine Discipline.wp_raise _ fun v hv => ⟨?_, hv.pending.trans (hend.trans hxz.pending)⟩
        exact (honward.trans hu).trans ⟨hv.saves, hv.pending ▸ List.prefix_rfl, hv.rely⟩
      · obtain ⟨hunclaimed, audit, hpending⟩ := hend
        refine Discipline.wp_ret _ fun v hv => ?_
        have hxv : evidenceDiscipline.Onward x v :=
          (honward.trans hu).trans ⟨hv.saves, hv.pending ▸ List.prefix_rfl, hv.rely⟩
        refine ⟨hxv, ?_⟩
        have hkey : (putObject call.settings request).key = storageKey call.organizationId call.caseId
            artifactId := objectKey_make hrequest
        have hpending' : v.pending = x.pending ++ [.row (.insertIntent (intentRow call.organizationId
            (call.intent artifactId intentId capability.expiresAt))), .row (.spine (.insertAudit audit))] := by
          rw [hv.pending, hpending, hxz.pending]
        rw [hpending', List.append_assoc]
        refine ready_created (hxv.ready hcoherent hready) rfl ?_
          ⟨rfl, rfl, request, hrequest, presignUpload_ok hcapability, hkey⟩
        refine Unclaimed.rely ?_ ?_ hv.rely
        · rw [← hxz.pending]
          exact hunclaimed
        · intro k hk
          rw [hpending, Store.lockedBy_append, Store.lockedBy_cons]
          exact List.mem_append_right _ (List.mem_append_left _ hk)

/-! ### The system -/

theorem Completed.rely {call : CompletionCall} {result : CompletedArtifactUpload}
    {z : Local EvidenceWrite EvidenceDb} (h : Completed call row result y z)
    (hr : evidenceDiscipline.Rely z.pending z.db e) : Completed call row result y { z with db := e } := by
  rcases h with ⟨hstatus, hz, hresult⟩ | ⟨hpending, hresult, metadata, hverified, hz⟩
  · exact Or.inl ⟨hstatus, hz.rely hr, hresult⟩
  · obtain ⟨processingId, version, eventId, outboxId, audit, hz⟩ := hz
    exact Or.inr ⟨hpending, hresult, metadata, hverified, processingId, version, eventId, outboxId, audit,
      hz.rely hr⟩

/-- Row changes of the case spine touch no intent. -/
theorem wp_spineWrites (cs : List CaseWrite) (h : Wrote x ws y) (hws : evidenceStore.touchedBy ws = []) :
    evidenceDiscipline.wp (spineWrites cs)
      (fun _ z => ∃ ws', Wrote x ws' z ∧ evidenceStore.touchedBy ws' = []) y := by
  induction cs generalizing ws y with
  | nil => exact fun _ hr => ⟨ws, h.rely hr, hws⟩
  | cons c cs ih =>
    intro e hr
    refine ⟨fun d e' hr' => ⟨ws, (h.rely hr).rely hr', hws⟩, fun r ws' hexec => ?_⟩
    cases hexec
    refine @ih _ (ws ++ [.row (.spine c)]) ⟨(h.rely hr).1.trans (.grow _ _), ?_⟩ ?_
    · show y.pending ++ _ = _
      rw [h.2, List.append_assoc]
    · rw [Store.touchedBy_append, hws]
      rfl

/-- The end of a command: a call of `complete` that raises has left nothing. -/
def Undone : EvidenceCommand → List EvidenceWrite → Except IntentError EvidenceReply →
    Local EvidenceWrite EvidenceDb → Prop
  | .complete _, mark, .error _, y => y.pending = mark
  | _, _, _, _ => True

theorem wp_completeUpload (call : CompletionCall) (hcoherent : evidenceDiscipline.Coherent x.db)
    (hready : evidenceDiscipline.Ready x.db x.pending) :
    evidenceDiscipline.wp (completeUpload binds call)
      (fun r y => y.saves = x.saves ∧ match r with
        | .ok result => evidenceDiscipline.Ready y.db
            (y.pending ++ EvidenceCommand.record (.complete call) (.ok (.completed result)))
        | .error _ => evidenceDiscipline.Ready y.db x.pending ∧ y.pending = x.pending) x := by
  refine Discipline.wp_mono _ (Discipline.wp_atomic_onward _ (flat_complete ..) (Q := fun result z =>
    ∃ row u, Loaded call row { x with saves := x.pending :: x.saves } u ∧
      Completed call row result u z) ?_) ?_
  · refine Discipline.onOk_bind _ (wp_loadForCompletion call _) fun row u hu => ?_
    refine Discipline.wp_mono _ (wp_completeLoaded hu hcoherent hready) ?_
    rintro (e | result) z hz
    · trivial
    · exact ⟨row, u, hu, hz⟩
  · rintro (e | result) y ⟨hy, hend⟩
    · exact ⟨hy.saves, hy.ready hcoherent hready, hend⟩
    · obtain ⟨z, ⟨row, u, hload, hcompleted⟩, hpending, hr⟩ := hend
      refine ⟨hy.saves, ?_⟩
      have := (hcompleted.rely hr).ready hload (hy.ready hcoherent hready)
      rwa [hpending]

/-- **Every call keeps the discipline.** -/
theorem evidenceSystem_sound (binds : PyStr → List PyStr) :
    Sound (evidenceSystem binds) evidenceDiscipline Undone where
  command := by
    intro c e ps hcoherent hready
    cases c with
    | create call =>
      refine Discipline.wp_map _ (Discipline.wp_mono _
        (wp_createUploadIntent call (x := ⟨e, ps, []⟩) hcoherent hready) ?_)
      rintro (err | reply) y ⟨hy, hend⟩
      · refine ⟨hy.saves, ?_, trivial⟩
        show evidenceDiscipline.Ready y.db (y.pending ++ [])
        rw [List.append_nil, hend]
        exact hy.ready hcoherent hready
      · exact ⟨hy.saves, hend, trivial⟩
    | complete call =>
      refine Discipline.wp_map _ (Discipline.wp_mono _
        (wp_completeUpload call (x := ⟨e, ps, []⟩) hcoherent hready) ?_)
      rintro (err | result) y ⟨hsaves, hend⟩
      · refine ⟨hsaves, ?_, hend.2⟩
        show evidenceDiscipline.Ready y.db (y.pending ++ [])
        rw [List.append_nil, hend.2]
        exact hend.1
      · exact ⟨hsaves, hend, trivial⟩
    | others cs =>
      refine Discipline.wp_mono _ (wp_spineWrites cs (.refl ⟨e, ps, []⟩) rfl) ?_
      rintro r y ⟨ws, hwrote, htouched⟩
      refine ⟨hwrote.1.saves, ?_, by cases r <;> trivial⟩
      show evidenceDiscipline.Ready y.db (y.pending ++ [])
      rw [List.append_nil, hwrote.2]
      exact ready_append (hwrote.1.ready hcoherent hready) (by simp [htouched]) (by simp [htouched])
  recordLocks := by
    rintro c (err | reply)
    · cases c <;> rfl
    · cases c <;> cases reply <;> try rfl
      simp only [evidenceSystem, EvidenceCommand.record]
      split_ifs <;> rfl

end

end NetopsCopilot
