import NetopsCopilot.Application.CaseRepository

/-!
# The commands under interference

-/

namespace NetopsCopilot

open Txn

section

variable {sha256 : PyStr → Sha256Hex} {ok : HistoryEntry → Prop}
variable {base new : List SpineWrite} {rest : List (List SpineWrite)}
  {fs : List (Discipline.Fact Key World)} {x : Local SpineWrite World} {X : CaseError → World → Prop}

/-! ### Slices of an attempt -/

/-- An identifier the whole view does not have is not in the slice before the attempt either. -/
theorem events_unused {w : World} {id : Uuid}
    (h : ∀ e ∈ (caseStore.applyAll (base ++ new) w).db.events, e.id ≠ id) :
    ((caseStore.applyAll base w).restrict (.event id)).db.events = [] := by
  refine List.eq_nil_iff_forall_not_mem.mpr fun e he => ?_
  obtain ⟨hmem, hkey⟩ := mem_bearing.mp he
  rw [caseStore.applyAll_append] at h
  refine h e ((grows_applyAll new _).events.subset hmem) ?_
  simpa [EventRow.keys, EventRow.unique, eq_comm] using hkey

theorem outbox_unused {w : World} {id : Uuid}
    (h : ∀ o ∈ (caseStore.applyAll (base ++ new) w).db.outbox, o.caseEventId ≠ id) :
    ((caseStore.applyAll base w).restrict (.outboxEvent id)).db.outbox = [] := by
  refine List.eq_nil_iff_forall_not_mem.mpr fun o ho => ?_
  obtain ⟨hmem, hkey⟩ := mem_bearing.mp ho
  rw [caseStore.applyAll_append] at h
  refine h o ((grows_applyAll new _).outbox.subset hmem) ?_
  simpa [OutboxRow.keys, OutboxRow.unique, eq_comm] using hkey

theorem transitions_unused {w : World} {id : Uuid}
    (h : ∀ t ∈ (caseStore.applyAll (base ++ new) w).db.transitions, t.id ≠ id) :
    ((caseStore.applyAll base w).restrict (.transition id)).db.transitions = [] := by
  refine List.eq_nil_iff_forall_not_mem.mpr fun t ht => ?_
  obtain ⟨hmem, hkey⟩ := mem_bearing.mp ht
  rw [caseStore.applyAll_append] at h
  refine h t ((grows_applyAll new _).transitions.subset hmem) ?_
  simpa [TransitionRow.keys, TransitionRow.unique, eq_comm] using hkey

/-- A row of a locked case is covered by its unique keys. -/
theorem covered {caseId : Uuid} {locked unique : List Key} {w : SpineWrite}
    (hcase : Key.case caseId ∈ locked) (htouches : w.touches = .case caseId :: unique)
    (hlocks : w.locks = unique) :
    ∀ k ∈ caseStore.touchedBy [w], k ∈ locked ∨ k ∈ caseStore.lockedBy [w] := by
  intro k hk
  simp only [Store.touchedBy_cons, Store.touchedBy_nil, List.append_nil, Store.lockedBy_cons,
    Store.lockedBy_nil, caseStore, htouches, hlocks, List.mem_cons] at hk ⊢
  rcases hk with rfl | hk
  · exact Or.inl hcase
  · exact Or.inr hk

theorem wp_insertEventAndOutbox (hX : ∀ d w, X (.db d) w)
    (h : (spineDiscipline sha256 ok).Attempt base new rest fs x) (organizationId : Uuid)
    (event : CaseEventCommand) (transitionId : Option Uuid) (requestSha256 : Option Sha256Hex)
    (hcase : Key.case event.caseId ∈ caseStore.lockedBy (base ++ new)) :
    (spineDiscipline sha256 ok).wp
      (insertEventAndOutbox organizationId event transitionId requestSha256)
      ((spineDiscipline sha256 ok).Within base rest X fun _ y => ∃ outboxId,
        (spineDiscipline sha256 ok).Attempt base
          (new ++ [.row (.insertEvent (eventRow organizationId event transitionId requestSha256)),
            .row (.insertOutbox
              (outboxRow organizationId event transitionId requestSha256 outboxId))]) rest
          (fs ++ [(.event event.eventId, fun w => w.db.events = []),
            (.outboxEvent event.eventId, fun w => w.db.outbox = [])]) y) x := by
  unfold insertEventAndOutbox
  simp only [Prog.bind_eq]
  refine Discipline.wp_bind_within _ (Q := fun _ y =>
    (spineDiscipline sha256 ok).Attempt base
      (new ++ [.row (.insertEvent (eventRow organizationId event transitionId requestSha256))]) rest
      (fs ++ [(.event event.eventId, fun w => w.db.events = [])]) y) ?_ ?_
  · refine Discipline.wp_execute_within _ hX h fun y u ws hy _ hexec => ?_
    obtain ⟨rfl, hfresh⟩ := exec_insertEvent hexec
    refine ⟨_, covered hcase rfl rfl, ?_, fun z hz _ => hz⟩
    rintro f hf
    rw [List.mem_singleton] at hf
    subst hf
    exact ⟨by simp [caseStore, SpineWrite.locks, CaseWrite.locks, EventRow.unique, eventRow],
      events_unused hfresh⟩
  · intro _ y hy outboxId
    refine Discipline.wp_execute_within _ hX hy fun y u ws hy _ hexec => ?_
    obtain ⟨rfl, hfresh⟩ := exec_insertOutbox hexec
    refine ⟨[(.outboxEvent event.eventId, fun w => w.db.outbox = [])], ?_, ?_, fun z hz _ => ?_⟩
    · refine covered ?_ rfl rfl
      rw [← List.append_assoc, Store.lockedBy_append]
      exact List.mem_append_left _ hcase
    · rintro f hf
      rw [List.mem_singleton] at hf
      subst hf
      exact ⟨by simp [caseStore, SpineWrite.locks, CaseWrite.locks, OutboxRow.unique, outboxRow],
        outbox_unused hfresh⟩
    · exact ⟨outboxId, by simpa using hz⟩

theorem wp_insertAuditEvent (hX : ∀ d w, X (.db d) w)
    (h : (spineDiscipline sha256 ok).Attempt base new rest fs x) {organizationId : Uuid} {actor : Actor}
    {action : PyStr} {correlationId : Uuid} {occurredAt : Instant} {details : Json} :
    (spineDiscipline sha256 ok).wp
      (insertAuditEvent organizationId actor action correlationId occurredAt details)
      ((spineDiscipline sha256 ok).Within base rest X fun _ y => ∃ row,
        (spineDiscipline sha256 ok).Attempt base (new ++ [.row (.insertAudit row)]) rest fs y) x := by
  unfold insertAuditEvent
  simp only [Prog.bind_eq]
  intro auditEventId
  refine Discipline.wp_execute_within _ hX h fun y u ws hy _ hexec => ?_
  have hws := exec_insertAuditEvent hexec
  subst hws
  exact ⟨[], fun k hk => Or.inr hk, by simp, fun z hz _ => ⟨_, by simpa using hz⟩⟩

/-! ### Moving a case -/

/-- The case a snapshot read finds: its slice has one row. -/
theorem singleton_of_mem {caseId : Uuid} {w : World} (h : Spine sha256 ok caseId w) {row : CaseRow}
    (hrow : row ∈ w.db.cases) : w.db.cases = [row] := by
  rcases h.cases with hnone | ⟨row', hrow', -⟩
  · rw [hnone.cases] at hrow
    cases hrow
  · rw [hrow', List.mem_singleton] at hrow
    rw [hrow', hrow]

/-- At most one row of a case passes a filter. -/
theorem filter_spine {caseId : Uuid} {w : World} (h : Spine sha256 ok caseId w) (p : CaseRow → Bool) :
    w.db.cases.filter p = [] ∨ ∃ row, w.db.cases = [row] ∧ p row = true ∧
      w.db.cases.filter p = [row] := by
  rcases h.cases with hnone | ⟨row, hrow, -⟩
  · exact Or.inl (by simp [hnone.cases])
  · by_cases hp : p row = true
    · exact Or.inr ⟨row, hrow, hp, by simp [hrow, hp]⟩
    · exact Or.inl (by simp [hrow, hp])

theorem wp_raiseWriteConflict {A : Type} {Q : A → Local SpineWrite World → Prop}
    (h : (spineDiscipline sha256 ok).Attempt base new rest fs x) (organizationId : Uuid)
    (snapshot : CaseSnapshot) :
    (spineDiscipline sha256 ok).wp (raiseWriteConflict organizationId snapshot)
      ((spineDiscipline sha256 ok).Within base rest (fun _ _ => True) Q) x := by
  unfold raiseWriteConflict getSnapshot
  simp only [Prog.bind_eq, Prog.elim_elim]
  refine Discipline.wp_bind_within _ (Q := fun _ y =>
    (spineDiscipline sha256 ok).Attempt base new rest fs y) ?_ ?_
  · exact Discipline.wp_read_within _ (fun _ _ => trivial) h
      (fun db r ws he => (exec_selectSnapshot he).2) (fun _ _ _ _ _ _ _ hz => hz)
  · intro rows y hy
    rcases rows with _ | ⟨row, _ | ⟨row', rows⟩⟩
    all_goals exact Discipline.wp_raise_within _ hy fun _ _ => trivial

/-- What a command leaves behind: on a result its transaction may commit with the notes of the
history, on an exception it is as it was. -/
def Leaves (sha256 : PyStr → Sha256Hex) (ok : HistoryEntry → Prop) {A : Type}
    (notes : A → List SpineWrite) (x : Local SpineWrite World) :
    Except CaseError A → Local SpineWrite World → Prop
  | .ok a, y => y.saves = x.saves ∧ (spineDiscipline sha256 ok).Ready y.db (y.pending ++ notes a)
  | .error _, y => y.saves = x.saves ∧ (spineDiscipline sha256 ok).Ready y.db y.pending ∧
      y.pending = x.pending

/-- An update of a case leaves the history of its key. -/
theorem KeyHistory.update {organizationId : Uuid} {idempotencyKey : PyStr} {w : World}
    (h : KeyHistory sha256 ok organizationId idempotencyKey w) (old : CaseRow) (state : CaseState)
    (version : Nat) (updatedAt : Instant) : KeyHistory sha256 ok organizationId idempotencyKey
      ((SpineWrite.row (.updateCase old state version updatedAt)).apply w) := by
  rcases h with ⟨hcases, hhistory⟩ | ⟨row, c, hcases, hhistory, hkey, hok, hid, hsha⟩
  · exact Or.inl ⟨by simp [SpineWrite.apply, CaseWrite.apply, hcases], hhistory⟩
  · refine Or.inr ⟨if row = old then row.advance state version updatedAt else row, c,
      by simp [SpineWrite.apply, CaseWrite.apply, hcases], hhistory, hkey, hok, ?_, ?_⟩
    all_goals split_ifs <;> assumption

section Keys

variable (row : CaseRow) (command : TransitionCommand) (outboxId : Uuid)
  (sha256 : PyStr → Sha256Hex) (organizationId : Uuid) (c : CreateCaseCommand)

@[simp] theorem keys_insertCaseRow : (insertCaseRow sha256 organizationId c).keys =
    [.case c.caseId, .idempotency organizationId c.idempotencyKey] := rfl

@[simp] theorem keys_caseInputRow (i : CaseInputCommand) :
    (caseInputRow organizationId c.caseId c i).keys = [.case c.caseId, .caseInput i.inputId] := rfl

@[simp] theorem keys_createdEventRow : (createdEventRow sha256 organizationId c).keys =
    [.case c.caseId, .event c.eventId] := rfl

@[simp] theorem keys_createdOutboxRow : (createdOutboxRow sha256 organizationId c outboxId).keys =
    [.case c.caseId, .outbox outboxId, .outboxEvent c.eventId] := rfl

@[simp] theorem keys_movedTransitionRow : (movedTransitionRow row command).keys =
    [.case row.id, .transition command.transitionId, .caseVersion row.id (row.version + 1)] := rfl

@[simp] theorem keys_movedEventRow : (movedEventRow row command).keys =
    [.case row.id, .event command.eventId,
      .eventTransition row.organizationId command.transitionId] := rfl

@[simp] theorem keys_movedOutboxRow : (movedOutboxRow row command outboxId).keys =
    [.case row.id, .outbox outboxId, .outboxEvent command.eventId] := rfl

end Keys

/-- The writes of a move, with its audit row, keep every slice good. -/
theorem good_moved {w : World} (hw : (spineDiscipline sha256 ok).Coherent w) {row : CaseRow}
    {command : TransitionCommand} (outboxId : Uuid) (audit : AuditRow)
    (hrow : (w.restrict (.case row.id)).db.cases = [row])
    (htransitions : (w.restrict (.transition command.transitionId)).db.transitions = [])
    (hevents : (w.restrict (.event command.eventId)).db.events = [])
    (houtbox : (w.restrict (.outboxEvent command.eventId)).db.outbox = [])
    (hacc : Accepts row.snapshot command) (hok : ok (.accepted row.organizationId command)) :
    (spineDiscipline sha256 ok).Coherent (caseStore.applyAll
      [.row (.updateCase row command.toState (row.version + 1) command.occurredAt),
        .row (.insertTransition (movedTransitionRow row command)),
        .row (.insertEvent (movedEventRow row command)),
        .row (.insertOutbox (movedOutboxRow row command outboxId)), .row (.insertAudit audit),
        .note (.accepted row.organizationId command)] w) := by
  have hid : command.caseId = row.id := hacc.caseId.symm
  intro k
  change Good sha256 ok k ((caseStore.applyAll _ w).restrict k)
  rw [restrict_applyAll]
  have hk := hw k
  change Good sha256 ok k (w.restrict k) at hk
  cases k with
  | case id =>
    by_cases heq : id = row.id
    · subst heq
      have hmoved := Spine.moved hk row command outboxId hrow hacc hok
      simpa [SpineWrite.touches, CaseWrite.touches, CaseRow.keys, AuditRow.keys,
        HistoryEntry.keys, hid, movedWrites, Good] using hmoved
    · simpa [SpineWrite.touches, CaseWrite.touches, CaseRow.keys, AuditRow.keys,
        HistoryEntry.keys, hid, heq] using hk
  | idempotency org key =>
    by_cases heq : org = row.organizationId ∧ key = row.idempotencyKey
    · have hupdate : KeyHistory sha256 ok org key (caseStore.apply _ _) :=
        KeyHistory.update hk row command.toState (row.version + 1) command.occurredAt
      simpa [SpineWrite.touches, CaseWrite.touches, CaseRow.keys, AuditRow.keys,
        HistoryEntry.keys, heq, Good] using hupdate
    · simpa [SpineWrite.touches, CaseWrite.touches, CaseRow.keys, AuditRow.keys,
        HistoryEntry.keys, heq] using hk
  | transition id =>
    by_cases heq : id = command.transitionId
    · subst heq
      simp [SpineWrite.touches, CaseWrite.touches, CaseRow.keys, AuditRow.keys, Good,
        HistoryEntry.keys, caseStore, SpineWrite.apply, CaseWrite.apply, htransitions]
    · simpa [SpineWrite.touches, CaseWrite.touches, CaseRow.keys, AuditRow.keys,
        HistoryEntry.keys, heq] using hk
  | event id =>
    by_cases heq : id = command.eventId
    · subst heq
      simp [SpineWrite.touches, CaseWrite.touches, CaseRow.keys, AuditRow.keys, Good,
        HistoryEntry.keys, caseStore, SpineWrite.apply, CaseWrite.apply, hevents]
    · simpa [SpineWrite.touches, CaseWrite.touches, CaseRow.keys, AuditRow.keys,
        HistoryEntry.keys, heq] using hk
  | outboxEvent id =>
    by_cases heq : id = command.eventId
    · subst heq
      simp [SpineWrite.touches, CaseWrite.touches, CaseRow.keys, AuditRow.keys, Good,
        HistoryEntry.keys, caseStore, SpineWrite.apply, CaseWrite.apply, houtbox]
    · simpa [SpineWrite.touches, CaseWrite.touches, CaseRow.keys, AuditRow.keys,
        HistoryEntry.keys, heq] using hk
  | caseInput id | caseVersion id v | eventTransition org id | outbox id | audit id => trivial

/-- The writes of a move document it. -/
theorem complete_moved {row : CaseRow} {command : TransitionCommand} (outboxId : Uuid)
    (audit : AuditRow) (hacc : Accepts row.snapshot command) : Complete
      [.row (.updateCase row command.toState (row.version + 1) command.occurredAt),
        .row (.insertTransition (movedTransitionRow row command)),
        .row (.insertEvent (movedEventRow row command)),
        .row (.insertOutbox (movedOutboxRow row command outboxId)), .row (.insertAudit audit),
        .note (.accepted row.organizationId command)] := by
  intro change hchange
  obtain rfl : change = .updated row (row.advance command.toState (row.version + 1)
      command.occurredAt) := by
    simpa [SpineWrite.change, CaseWrite.change] using hchange
  exact ⟨hacc.edge, rfl, movedTransitionRow row command, movedEventRow row command,
    movedOutboxRow row command outboxId, by simp, by simp, by simp, rfl, rfl, rfl, rfl, rfl,
    ⟨rfl, rfl, rfl, rfl, rfl⟩, ⟨rfl, rfl, rfl, rfl, rfl⟩⟩

/-- The state that goes with the version a snapshot was read at. -/
theorem snapshot_eq {caseId : Uuid} {w : World} (h : Spine sha256 ok caseId w) {row : CaseRow}
    (hrow : w.db.cases = [row]) {snapshot : CaseSnapshot} (hid : snapshot.caseId = caseId)
    (hversion : row.version = snapshot.version)
    (hrec : Recorded snapshot.version snapshot.state w) : row.snapshot = snapshot := by
  have hstate : row.state = snapshot.state := by
    have hown := h.recorded hrow
    rw [hversion] at hown
    exact hown.unique hrec
  cases snapshot
  simp_all [CaseRow.snapshot, h.caseId_eq hrow]

theorem wp_persistTransition {organizationId : Uuid} {snapshot : CaseSnapshot}
    {command : TransitionCommand} (hc : (spineDiscipline sha256 ok).Coherent x.db)
    (hr : (spineDiscipline sha256 ok).Ready x.db x.pending)
    (hrec : Recorded snapshot.version snapshot.state
      ((caseStore.applyAll x.pending x.db).restrict (.case snapshot.caseId)))
    (hacc : Accepts snapshot command) (hok : ok (.accepted organizationId command)) :
    (spineDiscipline sha256 ok).wp
      (persistTransition organizationId (transitionOutcome snapshot command) command.actor)
      (Leaves sha256 ok (fun _ => [.note (.accepted organizationId command)]) x) x := by
  refine Discipline.wp_atomic_within _ (X := fun _ _ => True) ?_ ?_
  · intro e y hpending hsaves _ hready _
    exact ⟨hsaves, hpending ▸ hready, hpending⟩
  have hbegin := Discipline.Attempt.begin hc hr
  simp only [Prog.bind_eq]
  refine Discipline.wp_bind_within _ (Q := fun rows y => (rows = [] ∧
      (spineDiscipline sha256 ok).Attempt x.pending [] x.saves [] y) ∨
    ∃ row : CaseRow, row.snapshot = snapshot ∧ row.organizationId = organizationId ∧
      rows = [row.advance command.toState (row.version + 1) command.occurredAt] ∧
      (spineDiscipline sha256 ok).Attempt x.pending
        [.row (.updateCase row command.toState (row.version + 1) command.occurredAt)] x.saves
        [(.case row.id, fun w => w.db.cases = [row])] y) ?_ ?_
  · refine Discipline.wp_execute_within _ (fun _ _ => trivial) hbegin
      fun y rows ws hy hxy hexec => ?_
    obtain ⟨olds, holds, hrows, hws⟩ := exec_updateCaseVersion hexec
    have hspine : Spine sha256 ok snapshot.caseId
        ((caseStore.applyAll x.pending y.db).restrict (.case snapshot.caseId)) :=
      hy.ready.coherent (.case snapshot.caseId)
    have hrec' := hrec.rely (k := .case snapshot.caseId) hy.ready.owned (by simpa using hxy)
    rw [List.append_nil] at holds
    rcases filter_spine hspine (fun c => c.organizationId == organizationId &&
      c.version == (transitionOutcome snapshot command).snapshot.version - 1) with
      hnone | ⟨row, hrow, hp, hone⟩
    · have hnil : olds = [] := holds.trans hnone
      subst hnil hrows hws
      exact ⟨[], by simp, by simp, fun z hz _ => Or.inl ⟨rfl, by simpa using hz⟩⟩
    · have hold : olds = [row] := holds.trans hone
      simp only [transitionOutcome, Nat.add_sub_cancel, Bool.and_eq_true, beq_iff_eq] at hp
      have hsnapshot := snapshot_eq hspine hrow rfl hp.2 hrec'
      have hid : snapshot.caseId = row.id := by rw [← hsnapshot, CaseRow.snapshot]
      subst hold hrows hws
      refine ⟨[(.case row.id, fun w => w.db.cases = [row])], fun k hk => Or.inr hk, ?_,
        fun z hz _ => Or.inr ⟨row, hsnapshot, hp.1, ?_, ?_⟩⟩
      · intro f hf
        rw [List.mem_singleton] at hf
        subst hf
        exact ⟨by simp [caseStore, SpineWrite.locks, CaseWrite.locks, CaseRow.keys], hid ▸ hrow⟩
      · simp [transitionOutcome, hp.2]
      · simpa [transitionOutcome, hp.2] using hz
  · rintro rows y (⟨rfl, hy⟩ | ⟨row, rfl, rfl, rfl, hy⟩)
    · exact wp_raiseWriteConflict hy organizationId _
    have hcase : ∀ writes, Key.case row.id ∈ caseStore.lockedBy (x.pending ++
        (.row (.updateCase row command.toState (row.version + 1) command.occurredAt) :: writes)) := by
      intro writes
      simp [caseStore, SpineWrite.locks, CaseWrite.locks, CaseRow.keys]
    simp only [oneOrNone, Prog.lift, Prog.elim]
    refine Discipline.wp_bind_within _ (Q := fun _ y =>
      (spineDiscipline sha256 ok).Attempt x.pending
        [.row (.updateCase row command.toState (row.version + 1) command.occurredAt),
          .row (.insertTransition (movedTransitionRow row command))] x.saves
        [(.case row.id, fun w => w.db.cases = [row]),
          (.transition command.transitionId, fun w => w.db.transitions = [])] y) ?_ ?_
    · refine Discipline.wp_execute_within _ (X := fun _ _ => True) (fun _ _ => trivial) hy
        fun y u ws hy _ hexec => ?_
      obtain ⟨rfl, hfresh⟩ := exec_insertTransition hexec
      refine ⟨[(.transition command.transitionId, fun w => w.db.transitions = [])],
        covered (hcase []) rfl rfl, ?_, fun z hz _ => hz⟩
      intro f hf
      rw [List.mem_singleton] at hf
      subst hf
      exact ⟨by simp [caseStore, SpineWrite.locks, CaseWrite.locks, TransitionRow.unique,
        transitionRow, transitionOutcome], transitions_unused hfresh⟩
    intro _ y hy
    refine Discipline.wp_bind_within _ (wp_insertEventAndOutbox (fun _ _ => trivial) hy
      row.organizationId (transitionOutcome row.snapshot command).event (some command.transitionId)
      none (hcase [_])) ?_
    rintro _ y ⟨outboxId, hy⟩
    refine Discipline.wp_bind_within _ (wp_insertAuditEvent (fun _ _ => trivial) hy) ?_
    rintro _ y ⟨audit, hy⟩
    refine Discipline.wp_ret_within _ hy fun y hy => ⟨_, _, hy, fun z hz _ => ⟨rfl, ?_⟩⟩
    have hslices := hz.facts
    simp only [List.cons_append, List.nil_append, List.forall_mem_cons,
      List.not_mem_nil, false_imp_iff, implies_true, and_true] at hslices
    obtain ⟨⟨-, hrow⟩, ⟨-, htransitions⟩, ⟨-, hevents⟩, -, houtbox⟩ := hslices
    change (spineDiscipline sha256 ok).Ready z.db (z.pending ++ _)
    rw [hz.pending, List.append_assoc]
    refine ⟨?_, ?_, Complete.append hz.ready.complete (complete_moved outboxId audit hacc)⟩
    · rw [Store.applyAll_append]
      exact good_moved hz.ready.coherent outboxId audit hrow htransitions hevents houtbox hacc hok
    · rw [← List.append_assoc]
      refine hz.owned.append fun k hk => Or.inl ?_
      obtain rfl : k = .case row.id := by
        simpa [caseStore, SpineWrite.touches, HistoryEntry.keys, ← hacc.caseId, CaseRow.snapshot]
          using hk
      exact hcase _

theorem wp_getSnapshot {organizationId caseId : Uuid}
    (hc : (spineDiscipline sha256 ok).Coherent x.db)
    (hr : (spineDiscipline sha256 ok).Ready x.db x.pending) :
    (spineDiscipline sha256 ok).wp (getSnapshot organizationId caseId) (fun r y =>
      (spineDiscipline sha256 ok).Later x y ∧ ∀ snapshot, r = .ok snapshot →
        Recorded snapshot.version snapshot.state
          ((caseStore.applyAll y.pending y.db).restrict (.case snapshot.caseId))) x := by
  unfold getSnapshot
  simp only [Prog.bind_eq]
  refine Discipline.wp_elim _ (Discipline.wp_read _ (fun db r ws he => (exec_selectSnapshot he).2)
    ?_ ?_)
  · exact fun d y hy => Discipline.wp_raise _ fun z hz => ⟨hy.trans hz, by simp⟩
  · intro y rows z hy hexec hz
    obtain ⟨hrows, -⟩ := exec_selectSnapshot hexec
    have hspine : Spine sha256 ok caseId
        ((caseStore.applyAll x.pending y.db).restrict (.case caseId)) := by
      have hready := hy.ready hc hr
      rw [hy.pending] at hready
      exact hready.coherent (.case caseId)
    rcases filter_spine hspine (·.organizationId == organizationId) with
      hnone | ⟨row, hrow, -, hone⟩
    · obtain rfl : rows = [] := hrows.trans hnone
      exact Discipline.wp_raise _ fun u hu => ⟨hy.trans (hz.trans hu), by simp⟩
    · obtain rfl : rows = [row] := hrows.trans hone
      refine Discipline.wp_ret _ fun u hu => ⟨hy.trans (hz.trans hu), ?_⟩
      rintro snapshot ⟨⟩
      have hrec := hspine.recorded hrow
      rw [← hspine.caseId_eq hrow] at hrec
      have hrely := (hz.trans hu).rely
      rw [hy.pending] at hrely
      rw [hu.pending, hz.pending, hy.pending]
      exact hrec.rely hr.owned hrely

/-- `get_detail` only reads. -/
theorem wp_getDetail {organizationId caseId : Uuid} :
    (spineDiscipline sha256 ok).wp (getDetail organizationId caseId)
      (fun _ y => (spineDiscipline sha256 ok).Later x y) x := by
  unfold getDetail
  simp only [Prog.bind_eq]
  refine Discipline.wp_elim _ (Discipline.wp_read _ (fun db r ws he => (exec_selectCase he).2) ?_ ?_)
  · exact fun d y hy => Discipline.wp_raise _ fun z hz => hy.trans hz
  · intro y rows z hy _ hz
    have hlater := hy.trans hz
    rcases rows with _ | ⟨row, _ | ⟨row', rows⟩⟩
    · exact Discipline.wp_raise _ fun u hu => hlater.trans hu
    · simp only [oneOrNone, Prog.lift, Prog.elim]
      refine Discipline.wp_elim _
        (Discipline.wp_read _ (fun db r ws he => exec_selectTimeline he) ?_ ?_)
      · exact fun d u hu => Discipline.wp_raise _ fun v hv => hlater.trans (hu.trans hv)
      · exact fun u rows' v hu _ hv =>
          Discipline.wp_ret _ fun v' hv' => hlater.trans (hu.trans (hv.trans hv'))
    · exact Discipline.wp_raise _ fun u hu => hlater.trans hu

theorem Leaves.later {A : Type} {notes : A → List SpineWrite} {y z : Local SpineWrite World}
    (h : (spineDiscipline sha256 ok).Later x y) {r : Except CaseError A}
    (hr : Leaves sha256 ok notes y r z) : Leaves sha256 ok notes x r z := by
  cases r with
  | ok a => exact ⟨hr.1.trans h.saves, hr.2⟩
  | error e => exact ⟨hr.1.trans h.saves, hr.2.1, hr.2.2.trans h.pending⟩

theorem leaves_raise {A : Type} {notes : A → List SpineWrite} {e : CaseError}
    {y : Local SpineWrite World} (hc : (spineDiscipline sha256 ok).Coherent x.db)
    (hr : (spineDiscipline sha256 ok).Ready x.db x.pending)
    (h : (spineDiscipline sha256 ok).Later x y) : Leaves sha256 ok notes x (.error e) y :=
  ⟨h.saves, h.ready hc hr, h.pending⟩

theorem wp_transition {organizationId : Uuid} {command : TransitionCommand}
    (hc : (spineDiscipline sha256 ok).Coherent x.db)
    (hr : (spineDiscipline sha256 ok).Ready x.db x.pending)
    (hok : ∀ snapshot, Accepts snapshot command → ok (.accepted organizationId command)) :
    (spineDiscipline sha256 ok).wp (transition organizationId command)
      (Leaves sha256 ok (fun _ => [.note (.accepted organizationId command)]) x) x := by
  unfold transition
  simp only [Prog.bind_eq]
  refine Discipline.wp_elim _ (Discipline.wp_mono _ (wp_getSnapshot hc hr) ?_)
  rintro (e | snapshot) y ⟨hy, hrec⟩
  · exact Discipline.wp_raise _ fun z hz => leaves_raise hc hr (hy.trans hz)
  cases hdecide : applyTransition snapshot command with
  | error e =>
    simp only [hdecide, Except.mapError, Prog.lift, Prog.elim]
    exact Discipline.wp_raise _ fun z hz => leaves_raise hc hr (hy.trans hz)
  | ok outcome =>
    obtain ⟨hacc, rfl⟩ := applyTransition_ok hdecide
    simp only [hdecide, Except.mapError, Prog.lift, Prog.elim]
    exact Discipline.wp_mono _
      (wp_persistTransition (hy.coherent hc) (hy.ready hc hr) (hrec snapshot rfl) hacc
        (hok snapshot hacc))
      fun r z hz => hz.later hy

/-! ### Creating a case -/

/-- An earlier command with the key created the case. -/
def HasOriginal (ok : HistoryEntry → Prop) (organizationId : Uuid) (idempotencyKey : PyStr)
    (p : CreateCaseCommand → Prop) (w : World) : Prop :=
  ∃ c, HistoryEntry.created organizationId c ∈ w.history ∧ c.idempotencyKey = idempotencyKey ∧
    ok (.created organizationId c) ∧ p c

theorem HasOriginal.grows {organizationId : Uuid} {idempotencyKey : PyStr}
    {p : CreateCaseCommand → Prop} {w w' : World}
    (h : HasOriginal ok organizationId idempotencyKey p w) (hg : w.Grows w') :
    HasOriginal ok organizationId idempotencyKey p w' := by
  obtain ⟨c, hmem, hc⟩ := h
  exact ⟨c, hg.history.subset hmem, hc⟩

theorem HasOriginal.imp {organizationId : Uuid} {idempotencyKey : PyStr}
    {p q : CreateCaseCommand → Prop} {w : World}
    (h : HasOriginal ok organizationId idempotencyKey p w) (hpq : ∀ c, p c → q c) :
    HasOriginal ok organizationId idempotencyKey q w := by
  obtain ⟨c, hmem, hkey, hok, hc⟩ := h
  exact ⟨c, hmem, hkey, hok, hpq c hc⟩

/-- The slice of the key a create command carries, in the view of a transaction. -/
abbrev keySlice (base : List SpineWrite) (organizationId : Uuid) (c : CreateCaseCommand) (w : World) :
    World := (caseStore.applyAll base w).restrict (.idempotency organizationId c.idempotencyKey)

theorem HasOriginal.rely {organizationId : Uuid} {c : CreateCaseCommand}
    {p : CreateCaseCommand → Prop} {w w' : World} (ho : caseStore.Owned base)
    (hr : (spineDiscipline sha256 ok).Rely base w w')
    (h : HasOriginal ok organizationId c.idempotencyKey p (keySlice base organizationId c w)) :
    HasOriginal ok organizationId c.idempotencyKey p (keySlice base organizationId c w') :=
  Discipline.Rely.slice_induct (δ := spineDiscipline sha256 ok)
    (I := HasOriginal ok organizationId c.idempotencyKey p)
    (fun x w h => h.grows (grows_restrict x _ w)) ho hr h

/-- Why a create command raises: a statement failed, or the key belongs to another request. -/
def CreateRaises (sha256 : PyStr → Sha256Hex) (ok : HistoryEntry → Prop) (base : List SpineWrite)
    (organizationId : Uuid) (c : CreateCaseCommand) (e : CaseError) (w : World) : Prop :=
  (∃ d, e = .db d) ∨ ∃ id, e = .idempotencyConflict c.idempotencyKey id c.caseId ∧
    HasOriginal ok organizationId c.idempotencyKey
      (fun c' => c'.caseId = id ∧ c'.requestSha256 sha256 ≠ c.requestSha256 sha256)
      (keySlice base organizationId c w)

/-- What a replay returns: the case of the original request, which has the same fingerprint. -/
def Replays (sha256 : PyStr → Sha256Hex) (ok : HistoryEntry → Prop) (base : List SpineWrite)
    (organizationId : Uuid) (c : CreateCaseCommand) (caseId : Uuid) (w : World) : Prop :=
  HasOriginal ok organizationId c.idempotencyKey
    (fun c' => c'.caseId = caseId ∧ c'.requestSha256 sha256 = c.requestSha256 sha256)
    (keySlice base organizationId c w)

theorem wp_replayCase {organizationId : Uuid} {c : CreateCaseCommand}
    (h : (spineDiscipline sha256 ok).Attempt base [] rest fs x)
    (horig : HasOriginal ok organizationId c.idempotencyKey (fun _ => True)
      (keySlice base organizationId c x.db)) :
    (spineDiscipline sha256 ok).wp (replayCase sha256 organizationId c)
      ((spineDiscipline sha256 ok).Within base rest
        (CreateRaises sha256 ok base organizationId c) fun result y =>
        result.created = false ∧ (spineDiscipline sha256 ok).Attempt base [] rest fs y ∧
        Replays sha256 ok base organizationId c result.case.caseId y.db) x := by
  unfold replayCase
  simp only [Prog.bind_eq]
  refine Discipline.wp_bind_within _ (Q := fun rows y => ∃ row, rows = [row] ∧
      (spineDiscipline sha256 ok).Attempt base [] rest fs y ∧
      HasOriginal ok organizationId c.idempotencyKey (fun c' => c'.caseId = row.id ∧
        c'.requestSha256 sha256 = row.requestSha256) (keySlice base organizationId c y.db)) ?_ ?_
  · refine Discipline.wp_read_within _ (fun d _ => Or.inl ⟨d, rfl⟩) h
      (fun db r ws he => (exec_selectCaseByIdempotency he).2) fun y rows z hxy hy hexec hyz hz => ?_
    obtain ⟨hrows, -⟩ := exec_selectCaseByIdempotency hexec
    rw [List.append_nil] at hxy hyz hrows
    obtain ⟨c', hmem, -⟩ := horig.rely hy.ready.owned hxy
    have hgood : KeyHistory sha256 ok organizationId c.idempotencyKey
        (keySlice base organizationId c y.db) :=
      hy.ready.coherent (.idempotency organizationId c.idempotencyKey)
    rcases hgood with ⟨-, hnone⟩ | ⟨row, c₀, hcases, hhistory, hkey, hok, hid, hsha⟩
    · rw [hnone] at hmem
      cases hmem
    · refine ⟨row, hrows.trans hcases, hz, HasOriginal.rely hy.ready.owned hyz ?_⟩
      exact ⟨c₀, by rw [hhistory]; exact List.mem_singleton_self _, hkey, hok, hid.symm, hsha.symm⟩
  · rintro _ y ⟨row, rfl, hy, horig'⟩
    simp only [oneOrNone, Prog.lift, Prog.elim]
    by_cases hsha : row.requestSha256 = c.requestSha256 sha256
    · rw [if_neg (not_not.mpr hsha)]
      intro db hr
      have hlater := hy.rely hr
      rw [hy.pending, List.append_nil] at hr
      refine ⟨rfl, hlater, (horig'.rely hy.ready.owned hr).imp ?_⟩
      exact fun c' hc' => ⟨hc'.1, hc'.2.trans hsha⟩
    · rw [if_pos hsha]
      refine Discipline.wp_raise_within _ hy fun db hr => Or.inr ⟨row.id, rfl, ?_⟩
      exact (horig'.rely hy.ready.owned hr).imp fun c' hc' => ⟨hc'.1, fun h => hsha (hc'.2.symm.trans h)⟩

/-- The writes of a new case, with its audit row, keep every slice good. -/
theorem good_created {w : World} (hw : (spineDiscipline sha256 ok).Coherent w) {organizationId : Uuid}
    {c : CreateCaseCommand} (outboxId : Uuid) (audit : AuditRow)
    (habsent : (w.restrict (.case c.caseId)).Absent)
    (hkey : (w.restrict (.idempotency organizationId c.idempotencyKey)).db.cases = [])
    (hevents : (w.restrict (.event c.eventId)).db.events = [])
    (houtbox : (w.restrict (.outboxEvent c.eventId)).db.outbox = [])
    (hok : ok (.created organizationId c)) :
    (spineDiscipline sha256 ok).Coherent (caseStore.applyAll
      (.row (.insertCase (insertCaseRow sha256 organizationId c)) ::
        (createdInputRows organizationId c).map (fun i => .row (.insertCaseInput i)) ++
        [.row (.insertEvent (createdEventRow sha256 organizationId c)),
          .row (.insertOutbox (createdOutboxRow sha256 organizationId c outboxId)),
          .row (.insertAudit audit), .note (.created organizationId c)]) w) := by
  intro k
  change Good sha256 ok k ((caseStore.applyAll _ w).restrict k)
  rw [restrict_applyAll]
  have hk := hw k
  change Good sha256 ok k (w.restrict k) at hk
  cases k with
  | case id =>
    by_cases heq : id = c.caseId
    · subst heq
      have hcreated : Spine sha256 ok c.caseId _ :=
        Spine.created habsent organizationId c outboxId rfl hok
      cases hi : c.caseInput <;>
        simpa [SpineWrite.touches, CaseWrite.touches, AuditRow.keys, HistoryEntry.keys, Good,
          createdWrites, createdInputRows, hi] using hcreated
    · cases hi : c.caseInput <;>
        simpa [SpineWrite.touches, CaseWrite.touches, AuditRow.keys, HistoryEntry.keys, heq,
          createdInputRows, hi] using hk
  | idempotency org key =>
    by_cases heq : org = organizationId ∧ key = c.idempotencyKey
    · obtain ⟨rfl, rfl⟩ := heq
      have hnone : (w.restrict (.idempotency org c.idempotencyKey)).history = [] := by
        rcases hk with ⟨-, hhistory⟩ | ⟨row, c', hcases, -⟩
        · exact hhistory
        · rw [hkey] at hcases
          cases hcases
      have hcreated : KeyHistory sha256 ok org c.idempotencyKey (caseStore.applyAll
          [.row (.insertCase (insertCaseRow sha256 org c)), .note (.created org c)]
          (w.restrict (.idempotency org c.idempotencyKey))) :=
        Or.inr ⟨insertCaseRow sha256 org c, c,
          by simp [caseStore, SpineWrite.apply, CaseWrite.apply, hkey],
          by simp [caseStore, SpineWrite.apply, hnone], rfl, hok, rfl, rfl⟩
      cases hi : c.caseInput <;>
        simpa [SpineWrite.touches, CaseWrite.touches, AuditRow.keys, HistoryEntry.keys, Good,
          createdInputRows, hi] using hcreated
    · cases hi : c.caseInput <;>
        simpa [SpineWrite.touches, CaseWrite.touches, AuditRow.keys, HistoryEntry.keys, heq,
          createdInputRows, hi] using hk
  | transition id =>
    cases hi : c.caseInput <;>
      simpa [SpineWrite.touches, CaseWrite.touches, AuditRow.keys, HistoryEntry.keys,
        createdInputRows, hi] using hk
  | event id =>
    by_cases heq : id = c.eventId
    · subst heq
      cases hi : c.caseInput <;>
        simp [SpineWrite.touches, CaseWrite.touches, AuditRow.keys, Good, HistoryEntry.keys,
          caseStore, SpineWrite.apply, CaseWrite.apply, createdInputRows, hi, hevents]
    · cases hi : c.caseInput <;>
        simpa [SpineWrite.touches, CaseWrite.touches, AuditRow.keys, HistoryEntry.keys, heq,
          createdInputRows, hi] using hk
  | outboxEvent id =>
    by_cases heq : id = c.eventId
    · subst heq
      cases hi : c.caseInput <;>
        simp [SpineWrite.touches, CaseWrite.touches, AuditRow.keys, Good, HistoryEntry.keys,
          caseStore, SpineWrite.apply, CaseWrite.apply, createdInputRows, hi, houtbox]
    · cases hi : c.caseInput <;>
        simpa [SpineWrite.touches, CaseWrite.touches, AuditRow.keys, HistoryEntry.keys, heq,
          createdInputRows, hi] using hk
  | caseInput id | caseVersion id v | eventTransition org id | outbox id | audit id => trivial

/-- The writes of a new case document it. -/
theorem complete_created {organizationId : Uuid} {c : CreateCaseCommand} (outboxId : Uuid)
    (audit : AuditRow) : Complete
      (.row (.insertCase (insertCaseRow sha256 organizationId c)) ::
        (createdInputRows organizationId c).map (fun i => .row (.insertCaseInput i)) ++
        [.row (.insertEvent (createdEventRow sha256 organizationId c)),
          .row (.insertOutbox (createdOutboxRow sha256 organizationId c outboxId)),
          .row (.insertAudit audit), .note (.created organizationId c)]) := by
  intro change hchange
  obtain rfl : change = .inserted (insertCaseRow sha256 organizationId c) := by
    simpa [SpineWrite.change, CaseWrite.change, List.filterMap_map, Function.comp_def] using hchange
  exact ⟨rfl, rfl, createdEventRow sha256 organizationId c,
    createdOutboxRow sha256 organizationId c outboxId, by simp, by simp, ⟨rfl, rfl, rfl, rfl, rfl⟩,
    ⟨rfl, rfl, rfl, rfl, rfl⟩⟩

theorem wp_insertCaseInput (hX : ∀ d w, X (.db d) w)
    (h : (spineDiscipline sha256 ok).Attempt base new rest fs x) (organizationId : Uuid)
    (c : CreateCaseCommand) (hcase : Key.case c.caseId ∈ caseStore.lockedBy (base ++ new)) :
    (spineDiscipline sha256 ok).wp (insertCaseInput organizationId c.caseId c)
      ((spineDiscipline sha256 ok).Within base rest X fun _ y =>
        (spineDiscipline sha256 ok).Attempt base
          (new ++ (createdInputRows organizationId c).map (fun i => .row (.insertCaseInput i))) rest fs
          y) x := by
  unfold insertCaseInput createdInputRows
  cases c.caseInput with
  | none => exact Discipline.wp_ret_within _ h fun y hy => by simpa using hy
  | some i =>
    refine Discipline.wp_execute_within _ hX h fun y u ws hy _ hexec => ?_
    have hws := exec_insertCaseInput hexec
    subst hws
    exact ⟨[], covered hcase rfl rfl, by simp, fun z hz _ => by simpa using hz⟩

/-- A key in use has an original. -/
theorem original_of_conflict {w : World} (hw : (spineDiscipline sha256 ok).Coherent w)
    {organizationId : Uuid} {idempotencyKey : PyStr} (h : ∃ r ∈ w.db.cases,
      r.organizationId = organizationId ∧ r.idempotencyKey = idempotencyKey) :
    HasOriginal ok organizationId idempotencyKey (fun _ => True)
      (w.restrict (.idempotency organizationId idempotencyKey)) := by
  obtain ⟨r, hmem, rfl, rfl⟩ := h
  have hgood : KeyHistory sha256 ok r.organizationId r.idempotencyKey
      (w.restrict (.idempotency r.organizationId r.idempotencyKey)) :=
    hw (.idempotency r.organizationId r.idempotencyKey)
  rcases hgood with ⟨hnone, -⟩ | ⟨row, c, -, hhistory, hkey, hok, -⟩
  · have hbears : r ∈ (w.restrict (.idempotency r.organizationId r.idempotencyKey)).db.cases :=
      mem_bearing.mpr ⟨hmem, by simp [CaseRow.keys]⟩
    rw [hnone] at hbears
    cases hbears
  · exact ⟨c, by rw [hhistory]; exact List.mem_singleton_self _, hkey, hok, trivial⟩

theorem wp_createCase {organizationId : Uuid} {c : CreateCaseCommand}
    (hc : (spineDiscipline sha256 ok).Coherent x.db)
    (hr : (spineDiscipline sha256 ok).Ready x.db x.pending) (hok : ok (.created organizationId c)) :
    (spineDiscipline sha256 ok).wp (createCase sha256 organizationId c) (fun r y =>
      Leaves sha256 ok (fun result =>
        if result.created then [.note (.created organizationId c)] else []) x r y ∧
      match r with
      | .ok result => result.created = true ∨ (result.created = false ∧ y.pending = x.pending ∧
          Replays sha256 ok x.pending organizationId c result.case.caseId y.db)
      | .error e => CreateRaises sha256 ok x.pending organizationId c e y.db) x := by
  refine Discipline.wp_atomic_within _ (X := CreateRaises sha256 ok x.pending organizationId c) ?_ ?_
  · intro e y hpending hsaves _ hready he
    exact ⟨⟨hsaves, hpending ▸ hready, hpending⟩, he⟩
  have hdb : ∀ d w, CreateRaises sha256 ok x.pending organizationId c (.db d) w :=
    fun d _ => Or.inl ⟨d, rfl⟩
  have hbegin := Discipline.Attempt.begin hc hr
  simp only [Prog.bind_eq]
  refine Discipline.wp_bind_within _ (Q := fun rows y =>
    (rows = [] ∧ (spineDiscipline sha256 ok).Attempt x.pending [] x.saves [] y ∧
      HasOriginal ok organizationId c.idempotencyKey (fun _ => True)
        (keySlice x.pending organizationId c y.db)) ∨
    (rows = [insertCaseRow sha256 organizationId c] ∧
      (spineDiscipline sha256 ok).Attempt x.pending
        [.row (.insertCase (insertCaseRow sha256 organizationId c))] x.saves
        [(.case c.caseId, World.Absent),
          (.idempotency organizationId c.idempotencyKey, fun w => w.db.cases = [])] y)) ?_ ?_
  · refine Discipline.wp_execute_within _ hdb hbegin fun y rows ws hy hxy hexec => ?_
    rw [List.append_nil] at hexec
    rcases exec_insertCase hexec with ⟨rfl, rfl, hused⟩ | ⟨rfl, rfl, hid, hunused⟩
    · refine ⟨[], by simp, by simp, fun z hz hyz => Or.inl ⟨rfl, by simpa using hz, ?_⟩⟩
      rw [List.append_nil, List.append_nil] at hyz
      refine (original_of_conflict hy.ready.coherent ?_).rely hy.ready.owned hyz
      obtain ⟨r, hmem, horg, hkey⟩ := hused
      exact ⟨r, hmem, horg, hkey⟩
    · have hcase : ((caseStore.applyAll x.pending y.db).restrict (.case c.caseId)).Absent := by
        have hspine : Spine sha256 ok c.caseId
          ((caseStore.applyAll x.pending y.db).restrict (.case c.caseId)) :=
          hy.ready.coherent (.case c.caseId)
        rcases hspine.cases with hnone | ⟨row, hrow, hrowid⟩
        · exact hnone
        · have hmem := List.mem_singleton_self row
          rw [← hrow] at hmem
          exact absurd hrowid (hid row (mem_bearing.mp hmem).1)
      have hkey : (keySlice x.pending organizationId c y.db).db.cases = [] := by
        refine List.eq_nil_iff_forall_not_mem.mpr fun row hrow => ?_
        obtain ⟨hmem, hbears⟩ := mem_bearing.mp hrow
        exact hunused row hmem (by simpa [CaseRow.keys, insertCaseRow, eq_comm] using hbears)
      refine ⟨_, fun k hk => Or.inr hk, ?_, fun z hz _ => Or.inr ⟨rfl, hz⟩⟩
      intro f hf
      simp only [List.mem_cons, List.not_mem_nil, or_false] at hf
      rcases hf with rfl | rfl
      · exact ⟨by simp [caseStore, SpineWrite.locks, CaseWrite.locks], hcase⟩
      · exact ⟨by simp [caseStore, SpineWrite.locks, CaseWrite.locks], hkey⟩
  · rintro rows y (⟨rfl, hy, horig⟩ | ⟨rfl, hy⟩)
    · simp only [oneOrNone, Prog.lift, Prog.elim]
      refine Discipline.wp_mono _ (wp_replayCase hy horig) ?_
      rintro (e | result) z hz
      · exact hz
      obtain ⟨hcreated, hatt, hreplay⟩ := hz
      refine ⟨[], [], hatt, fun u hu hzu => ?_⟩
      rw [List.append_nil] at hzu
      have hpending : u.pending = x.pending := by simpa using hu.pending
      refine ⟨⟨rfl, ?_⟩, Or.inr ⟨hcreated, hpending, hreplay.rely hatt.ready.owned hzu⟩⟩
      simpa [hcreated, hpending] using hu.ready
    simp only [oneOrNone, Prog.lift, Prog.elim]
    have hcase : ∀ writes, Key.case c.caseId ∈ caseStore.lockedBy (x.pending ++
        (.row (.insertCase (insertCaseRow sha256 organizationId c)) :: writes)) := by
      intro writes
      simp [caseStore, SpineWrite.locks, CaseWrite.locks, CaseRow.keys, insertCaseRow]
    refine Discipline.wp_bind_within _ (wp_insertCaseInput hdb hy organizationId c (hcase [])) ?_
    intro _ y hy
    refine Discipline.wp_bind_within _ (wp_insertEventAndOutbox hdb hy organizationId
      (createdEvent c (caseRecord (insertCaseRow sha256 organizationId c))) none
      (some (c.requestSha256 sha256)) (hcase _)) ?_
    rintro _ y ⟨outboxId, hy⟩
    refine Discipline.wp_bind_within _ (wp_insertAuditEvent hdb hy) ?_
    rintro _ y ⟨audit, hy⟩
    refine Discipline.wp_ret_within _ hy fun y hy => ⟨_, _, hy, fun z hz _ => ⟨⟨rfl, ?_⟩, Or.inl rfl⟩⟩
    have hslices := hz.facts
    simp only [List.cons_append, List.nil_append, List.forall_mem_cons, List.not_mem_nil,
      false_imp_iff, implies_true, and_true] at hslices
    obtain ⟨⟨-, habsent⟩, ⟨-, hkey⟩, ⟨-, hevents⟩, -, houtbox⟩ := hslices
    change (spineDiscipline sha256 ok).Ready z.db (z.pending ++ [.note (.created organizationId c)])
    rw [hz.pending, List.append_assoc]
    refine ⟨?_, ?_, ?_⟩
    · rw [Store.applyAll_append]
      have hgood := good_created hz.ready.coherent outboxId audit habsent hkey hevents houtbox hok
      simpa [createdEventRow, createdOutboxRow] using hgood
    · rw [← List.append_assoc]
      refine hz.owned.append fun k hk => Or.inl ?_
      simp only [caseStore, Store.touchedBy_cons, Store.touchedBy_nil, SpineWrite.touches,
        HistoryEntry.keys, List.append_nil, List.mem_cons, List.not_mem_nil, or_false] at hk
      rcases hk with rfl | rfl <;>
        simp [caseStore, SpineWrite.locks, CaseWrite.locks]
    · refine Complete.append hz.ready.complete ?_
      simpa [createdEventRow, createdOutboxRow] using complete_created outboxId audit

end

end NetopsCopilot
