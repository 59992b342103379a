import NetopsCopilot.Application.ScopedStatements

/-!
# Repository methods within a part of the database

Each method of the case and the upload-intent repositories, called for a case of the part and with identifiers
that no row outside has, sends clean statements only. The row that an `UPDATE` returns vouches for the identifier
of its case, and a locked intent for those of its artifact; the two statements that name no organization look up
by these.
-/

namespace NetopsCopilot

open Txn

theorem oneOrNone_mem {α : Type} {rows : List α} {a : α} (h : oneOrNone rows = .ok (some a)) : a ∈ rows := by
  match rows, h with
  | [_], h =>
    cases h
    exact List.mem_cons_self

section

variable {sc : Scope} {out : RowId → Prop} {outside : Db}

/-! ### The case repository -/

theorem confined_getSnapshot {organizationId caseId : Uuid} (hcase : sc.case organizationId caseId = true) :
    (getSnapshot organizationId caseId).Confined (caseConfinement sc out outside)
      fun snapshot => snapshot.caseId = caseId := by
  refine Prog.confined_execute_bind hcase fun rows hrows => ?_
  refine Prog.Confined.bind (Q := fun row => ∀ r ∈ row, r.id = caseId) (Prog.confined_lift ?_) fun row hrow => ?_
  · exact fun row hone r hr => (hrows r (oneOrNone_mem (hr ▸ hone))).1
  · cases row with
    | none => trivial
    | some row => exact hrow row rfl

theorem confined_insertEventAndOutbox {organizationId : Uuid} {event : CaseEventCommand}
    {transitionId : Option Uuid} {requestSha256 : Option Sha256Hex}
    (hcase : sc.case organizationId event.caseId = true) (hevent : ¬out (.event event.eventId))
    (htransition : ∀ t ∈ transitionId, ¬out (.transition t)) :
    (insertEventAndOutbox organizationId event transitionId requestSha256).Confined
      (caseConfinement sc out outside) fun _ => True := by
  have hids : ∀ k ∈ (eventRow organizationId event transitionId requestSha256).ids, ¬out k := by
    intro k hk
    rcases List.mem_cons.mp hk with rfl | hk
    · exact hevent
    · obtain ⟨t, ht, rfl⟩ := Option.map_eq_some_iff.mp (Option.mem_toList.mp hk)
      exact htransition t ht
  refine Prog.confined_execute_bind (And.intro hcase hids) fun _ _ => ?_
  refine Prog.confined_draw_bind fun outboxId hid => ?_
  refine Prog.Confined.mono (Prog.confined_execute (And.intro hcase ?_)) fun _ _ => trivial
  intro k hk
  simp only [OutboxRow.ids, List.mem_cons, List.not_mem_nil, or_false] at hk
  rcases hk with rfl | rfl
  · exact hid _ rfl
  · exact hevent

/-- The part has the organization with every row that it adds under an identifier of its own. -/
structure Scope.Serves (sc : Scope) (out : RowId → Prop) (organizationId : Uuid) : Prop where
  tenant : sc.tenant organizationId = true
  artifact : ∀ artifactId, ¬out (.artifact artifactId) → sc.artifact organizationId artifactId = true
  audit : ∀ auditEventId, ¬out (.audit auditEventId) → sc.audit organizationId auditEventId = true

theorem confined_insertAuditEvent {organizationId : Uuid} {actor : Actor} {action : PyStr}
    {correlationId : Uuid} {occurredAt : Instant} {details : Json} (hserves : sc.Serves out organizationId) :
    (insertAuditEvent organizationId actor action correlationId occurredAt details).Confined
      (caseConfinement sc out outside) fun _ => True := by
  refine Prog.confined_draw_bind fun auditEventId hid => ?_
  have hout : ¬out (.audit auditEventId) := hid _ rfl
  refine Prog.Confined.mono (Prog.confined_execute (And.intro hserves.tenant (And.intro (hserves.audit _ hout) ?_)))
    fun _ _ => trivial
  intro k hk
  rw [AuditRow.ids, List.mem_singleton] at hk
  subst hk
  exact hout

/-- The identifiers a creation brings along are not in use outside. -/
structure CreateCaseCommand.Unused (out : RowId → Prop) (organizationId : Uuid) (c : CreateCaseCommand) :
    Prop where
  case : ¬out (.case c.caseId)
  idempotency : ¬out (.idempotency organizationId c.idempotencyKey)
  event : ¬out (.event c.eventId)
  input : ∀ i ∈ c.caseInput, ¬out (.caseInput i.inputId)

theorem confined_createCase {sha256 : PyStr → Sha256Hex} {organizationId : Uuid} {c : CreateCaseCommand}
    (hserves : sc.Serves out organizationId) (hcase : sc.case organizationId c.caseId = true)
    (hc : c.Unused out organizationId) :
    (createCase sha256 organizationId c).Confined (caseConfinement sc out outside) fun _ => True := by
  refine Prog.Confined.atomic ?_
  have hids : ∀ k ∈ (insertCaseRow sha256 organizationId c).ids, ¬out k := by
    intro k hk
    simp only [CaseRow.ids, List.mem_cons, List.not_mem_nil, or_false] at hk
    rcases hk with rfl | rfl
    · exact hc.case
    · exact hc.idempotency
  refine Prog.confined_execute_bind (And.intro hserves.tenant (And.intro hcase hids)) fun rows hrows => ?_
  refine Prog.Confined.bind (Q := fun row => ∀ r ∈ row, r = insertCaseRow sha256 organizationId c)
    (Prog.confined_lift ?_) fun row hrow => ?_
  · exact fun row hone r hr => hrows r (oneOrNone_mem (hr ▸ hone))
  · cases row with
    | none =>
      refine Prog.confined_execute_bind hc.idempotency fun rows _ => ?_
      refine Prog.Confined.bind (Prog.confined_lift (Q := fun _ => True) fun _ _ => trivial) fun row _ => ?_
      cases row with
      | none => trivial
      | some row =>
        dsimp only
        split_ifs <;> trivial
    | some row =>
      have hid : row.id = c.caseId := by rw [hrow row rfl]; rfl
      have hinside : sc.case organizationId row.id = true := hid ▸ hcase
      refine Prog.Confined.bind (Q := fun _ => True) ?_ fun _ _ => ?_
      · unfold insertCaseInput
        cases hinput : c.caseInput with
        | none => trivial
        | some i =>
          refine Prog.Confined.mono (Prog.confined_execute (And.intro hinside ?_)) fun _ _ => trivial
          intro k hk
          rw [CaseInputRow.ids, List.mem_singleton] at hk
          subst hk
          exact hc.input i hinput
      · refine (confined_insertEventAndOutbox hinside hc.event (by simp)).bind fun _ _ => ?_
        exact (confined_insertAuditEvent hserves).bind fun _ _ => trivial

/-- A transition moves the case it has read, and the row that the `UPDATE` returns shows that the case is in the
part. -/
theorem confined_persistTransition {organizationId : Uuid} {snapshot : CaseSnapshot}
    {command : TransitionCommand} {outcome : TransitionOutcome} {actor : Actor}
    (hmade : applyTransition snapshot command = .ok outcome) (hserves : sc.Serves out organizationId)
    (hcase : sc.case organizationId command.caseId = true) (htransition : ¬out (.transition command.transitionId))
    (hevent : ¬out (.event command.eventId)) :
    (persistTransition organizationId outcome actor).Confined (caseConfinement sc out outside)
      fun _ => True := by
  obtain ⟨haccepts, rfl⟩ := applyTransition_ok hmade
  rw [← haccepts.caseId] at hcase
  refine Prog.Confined.atomic ?_
  refine Prog.confined_execute_bind hcase fun rows hrows => ?_
  refine Prog.Confined.bind (Q := fun row => ∀ r ∈ row, ¬out (.case snapshot.caseId)) (Prog.confined_lift ?_)
    fun row hrow => ?_
  · exact fun row hone r hr => (hrows r (oneOrNone_mem (hr ▸ hone))).2
  · cases row with
    | none => exact (confined_getSnapshot hcase).bind fun _ _ => trivial
    | some row =>
      refine Prog.confined_execute_bind (And.intro hcase ?_) fun _ _ => ?_
      · intro k hk
        simp only [TransitionRow.ids, List.mem_cons, List.not_mem_nil, or_false] at hk
        rcases hk with rfl | rfl
        · exact htransition
        · exact hrow row rfl
      · refine (confined_insertEventAndOutbox hcase hevent ?_).bind fun _ _ => ?_
        · intro t ht
          cases ht
          exact htransition
        · exact (confined_insertAuditEvent hserves).bind fun _ _ => trivial

theorem confined_transition {organizationId : Uuid} {command : TransitionCommand}
    (hserves : sc.Serves out organizationId) (hcase : sc.case organizationId command.caseId = true)
    (htransition : ¬out (.transition command.transitionId)) (hevent : ¬out (.event command.eventId)) :
    (transition organizationId command).Confined (caseConfinement sc out outside) fun _ => True := by
  refine (confined_getSnapshot hcase).bind fun snapshot _ => ?_
  refine Prog.Confined.bind (Prog.confined_lift fun outcome hmade => Raising.mapError_ok hmade)
    fun outcome hmade => ?_
  exact confined_persistTransition hmade hserves hcase htransition hevent

theorem confined_getDetail {organizationId caseId : Uuid} (hcase : sc.case organizationId caseId = true) :
    (getDetail organizationId caseId).Confined (caseConfinement sc out outside) fun _ => True := by
  refine Prog.confined_execute_bind hcase fun rows _ => ?_
  refine Prog.Confined.bind (Prog.confined_lift (Q := fun _ => True) fun _ _ => trivial) fun row _ => ?_
  cases row with
  | none => trivial
  | some row => exact Prog.confined_execute_bind hcase fun _ _ => trivial

/-! ### The upload-intent repository -/

variable {binds : PyStr → List PyStr}

theorem confined_executeText {sql : PyStr} {parameters : List PyStr} {s : IntentStmt} (hs : s.Clean sc out) :
    (executeText binds sql parameters s).Confined (intentConfinement sc out outside) (s.Known out) := by
  unfold executeText
  split
  · trivial
  · exact Prog.confined_execute hs

theorem confined_executeText_bind {A : Type} {Q : A → Prop} {sql : PyStr} {parameters : List PyStr}
    {s : IntentStmt} {k : s.Reply → IntentProg A} (hs : s.Clean sc out)
    (hk : ∀ r, s.Known out r → (k r).Confined (intentConfinement sc out outside) Q) :
    (executeText binds sql parameters s >>= k).Confined (intentConfinement sc out outside) Q :=
  (confined_executeText hs).bind hk

theorem confined_insertIntentAudit {row : AuditRow} (hserves : sc.Serves out row.organizationId)
    (hid : Unused out row.id) :
    (insertIntentAudit binds row).Confined (intentConfinement sc out outside) fun _ => True := by
  refine Prog.Confined.mono (confined_executeText (s := .insertAuditEvent row) ?_) fun _ _ => trivial
  have hout : ¬out (.audit row.id) := hid _ rfl
  refine And.intro hserves.tenant (And.intro (hserves.audit _ hout) ?_)
  intro k hk
  rw [AuditRow.ids, List.mem_singleton] at hk
  subst hk
  exact hout

/-- The identifiers a new intent brings along are not in use outside. -/
structure CreateArtifactUploadIntent.Unused (out : RowId → Prop) (organizationId : Uuid)
    (c : CreateArtifactUploadIntent) : Prop where
  intent : ¬out (.intent c.intentId)
  artifact : ¬out (.artifact c.artifactId)
  storage : ¬out (.storage organizationId (storageKey organizationId c.caseId c.artifactId))

theorem confined_createIntent {organizationId : Uuid} {c : CreateArtifactUploadIntent}
    (hserves : sc.Serves out organizationId) (hcase : sc.case organizationId c.caseId = true)
    (hc : c.Unused out organizationId) :
    (createIntent binds organizationId c).Confined (intentConfinement sc out outside) fun _ => True := by
  refine Prog.Confined.atomic ?_
  refine confined_executeText_bind (And.intro hserves.tenant (And.intro hcase ?_)) fun _ _ => ?_
  · intro k hk
    simp only [IntentRow.ids, List.mem_cons, List.not_mem_nil, or_false] at hk
    rcases hk with rfl | rfl | rfl
    · exact hc.intent
    · exact hc.artifact
    · exact hc.storage
  · exact Prog.confined_draw_bind fun auditEventId hid => confined_insertIntentAudit hserves hid

/-- A locked intent of the part. -/
structure IntentRow.Locked (out : RowId → Prop) (organizationId caseId : Uuid) (row : IntentRow) : Prop where
  organizationId : row.organizationId = organizationId
  caseId : row.caseId = caseId
  ids : ∀ k ∈ row.ids, ¬out k

theorem confined_loadForCompletion {organizationId caseId intentId : Uuid}
    (hcase : sc.case organizationId caseId = true) :
    (loadForCompletion binds organizationId caseId intentId).Confined (intentConfinement sc out outside)
      (IntentRow.Locked out organizationId caseId) := by
  refine confined_executeText_bind hcase fun rows hrows => ?_
  match rows with
  | [] => trivial
  | [row] =>
    obtain ⟨horganization, hcaseId, hids⟩ := hrows row List.mem_cons_self
    exact ⟨horganization, hcaseId, hids⟩
  | _ :: _ :: _ => trivial

theorem confined_insertCompletionOutbox {organizationId : Uuid} {intent : IntentRow} {completedAt : Instant}
    (hcase : sc.case organizationId intent.caseId = true) :
    (insertCompletionOutbox binds organizationId intent completedAt).Confined (intentConfinement sc out outside)
      fun _ => True := by
  refine confined_executeText_bind hcase fun versions _ => ?_
  refine Prog.Confined.bind (Prog.confined_lift (Q := fun _ => True) fun _ _ => trivial) fun aggregateVersion _ => ?_
  refine Prog.confined_draw_bind fun eventId hevent => ?_
  refine confined_executeText_bind ?_ fun _ _ => ?_
  · intro row hrow
    cases hrow
  · refine Prog.confined_draw_bind fun outboxId houtbox => ?_
    refine Prog.Confined.mono (confined_executeText (s := .insertArtifactCompletionOutbox (completionOutbox
      organizationId intent aggregateVersion completedAt eventId outboxId)) ?_) fun _ _ => trivial
    refine And.intro hcase ?_
    intro k hk
    simp only [OutboxRow.ids, List.mem_cons, List.not_mem_nil, or_false] at hk
    rcases hk with rfl | rfl
    · exact houtbox _ rfl
    · exact hevent _ rfl

theorem confined_recordCompletion {organizationId caseId : Uuid} {intent : IntentRow}
    {metadata : ArtifactObjectMetadata} {completedAt : Instant} (hserves : sc.Serves out organizationId)
    (hcase : sc.case organizationId caseId = true) (hlocked : intent.Locked out organizationId caseId) :
    (recordCompletion binds organizationId intent metadata completedAt).Confined
      (intentConfinement sc out outside) fun _ => True := by
  obtain ⟨horganization, hcaseId, hids⟩ := hlocked
  subst horganization
  subst hcaseId
  have hintent : ¬out (.intent intent.id) := hids _ (by simp [IntentRow.ids])
  have hartifactId : ¬out (.artifact intent.artifactId) := hids _ (by simp [IntentRow.ids])
  have hstorage : ¬out (.storage intent.organizationId intent.storageKey) := hids _ (by simp [IntentRow.ids])
  refine Prog.Confined.bind (Prog.confined_lift (Q := fun _ => True) fun _ _ => trivial) fun _ _ => ?_
  refine confined_executeText_bind (And.intro hserves.tenant (And.intro hcase ?_)) fun _ _ => ?_
  · intro k hk
    simp only [ArtifactRow.ids, List.mem_cons, List.not_mem_nil, or_false] at hk
    rcases hk with rfl | rfl
    · exact hartifactId
    · exact hstorage
  refine Prog.confined_draw_bind fun processingId hprocessing => ?_
  refine confined_executeText_bind (And.intro hserves.tenant (And.intro (hserves.artifact _ hartifactId) ?_)) fun _ _ => ?_
  · intro k hk
    simp only [ProcessingRow.ids, List.mem_cons, List.not_mem_nil, or_false] at hk
    rcases hk with rfl | rfl
    · exact hprocessing _ rfl
    · exact hartifactId
  refine (confined_insertCompletionOutbox hcase).bind fun _ _ => ?_
  refine confined_executeText_bind hintent fun _ _ => ?_
  refine Prog.confined_draw_bind fun auditEventId haudit => ?_
  exact Prog.Confined.bind (confined_insertIntentAudit hserves haudit) fun _ _ => trivial

theorem confined_complete {organizationId caseId intentId : Uuid} {store : ArtifactStore} {now : Instant}
    (hserves : sc.Serves out organizationId) (hcase : sc.case organizationId caseId = true) :
    (complete binds organizationId caseId intentId store now).Confined (intentConfinement sc out outside)
      fun _ => True := by
  refine Prog.Confined.atomic ((confined_loadForCompletion hcase).bind fun intent hlocked => ?_)
  have hintent : ¬out (.intent intent.id) := hlocked.ids _ (by simp [IntentRow.ids])
  unfold completeLoaded
  split_ifs with hcompleted hpending hexpired
  · refine Prog.Confined.bind (Q := fun _ => True) ?_ fun _ _ => trivial
    refine confined_executeText_bind hintent fun rows _ => ?_
    refine Prog.Confined.bind (Prog.confined_lift (Q := fun _ => True) fun _ _ => trivial) fun value _ => ?_
    cases value <;> trivial
  · trivial
  · trivial
  · refine Prog.Confined.bind (Prog.confined_lift (Q := fun _ => True) fun _ _ => trivial) fun request _ => ?_
    refine Prog.Confined.bind (Prog.confined_lift (Q := fun _ => True) fun _ _ => trivial) fun metadata _ => ?_
    refine Prog.Confined.bind (Prog.confined_lift (Q := fun _ => True) fun _ _ => trivial) fun _ _ => ?_
    exact confined_recordCompletion hserves hcase hlocked

end

end NetopsCopilot
