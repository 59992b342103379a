import NetopsCopilot.Application.CaseSpine

/-!
# The repository keeps the case spine

The discipline of the case spine (`Good`): the slice of a case is a `Spine`, the slice of an idempotency
key is a `KeyHistory`, and an identifier has at most one row. Each method of the repository is proved
once against the weakest precondition under interference: `wp_createCase`, `wp_persistTransition`,
`wp_transition`. A method that raises leaves the writes of its transaction as they were.

`persistTransition` compares versions, not states. What makes that enough is `Recorded`: the transitions
of a case only grow, so the state that goes with a version never changes.
-/

namespace NetopsCopilot

open Txn

/-! ### What a statement may do -/

theorem exec_caseStore {s : CaseStmt} {w : World} {r : s.Reply} {ws : List SpineWrite}
    (h : caseStore.exec s w = .ok (r, ws)) : ∃ vs, s.exec w.db = .ok (r, vs) ∧ ws = vs.map .row := by
  cases hexec : s.exec w.db with
  | error e => simp [caseStore, hexec, Except.map] at h
  | ok p =>
    simp only [caseStore, hexec, Except.map, Except.ok.injEq, Prod.mk.injEq] at h
    exact ⟨p.2, by rw [← h.1], h.2.symm⟩

/-- Rows of one case. -/
theorem filter_case (db : Db) (organizationId caseId : Uuid) :
    (db.cases.filter fun c => c.organizationId == organizationId && c.id == caseId) =
      (bearing CaseRow.keys (.case caseId) db.cases).filter (·.organizationId == organizationId) := by
  rw [bearing, List.filter_filter]
  refine List.filter_congr fun r _ => ?_
  simp [CaseRow.keys, eq_comm, Bool.beq_eq_decide_eq]

theorem exec_insertCase {row : CaseRow} {w : World} {rows : List CaseRow} {ws : List SpineWrite}
    (h : caseStore.exec (.insertCase row) w = .ok (rows, ws)) :
    (rows = [] ∧ ws = [] ∧ ∃ r ∈ w.db.cases, r.organizationId = row.organizationId ∧
      r.idempotencyKey = row.idempotencyKey) ∨
    (rows = [row] ∧ ws = [.row (.insertCase row)] ∧ (∀ r ∈ w.db.cases, r.id ≠ row.id) ∧
      ∀ r ∈ w.db.cases, ¬ (r.organizationId = row.organizationId ∧
        r.idempotencyKey = row.idempotencyKey)) := by
  obtain ⟨vs, hexec, rfl⟩ := exec_caseStore h
  unfold CaseStmt.exec at hexec
  obtain ⟨-, hexec⟩ := need_bind.mp hexec
  simp only [need_bind] at hexec
  obtain ⟨-, hexec⟩ := hexec
  split_ifs at hexec with hconflict
  · cases hexec
    left
    simpa using hconflict
  · simp only [need_bind] at hexec
    obtain ⟨hid, -, -, hexec⟩ := hexec
    cases hexec
    right
    exact ⟨rfl, rfl, by simpa using hid, by simpa using hconflict⟩

theorem exec_selectCaseByIdempotency {organizationId : Uuid} {idempotencyKey : PyStr} {w : World}
    {rows : List CaseRow} {ws : List SpineWrite}
    (h : caseStore.exec (.selectCaseByIdempotency organizationId idempotencyKey) w = .ok (rows, ws)) :
    rows = bearing CaseRow.keys (.idempotency organizationId idempotencyKey) w.db.cases ∧ ws = [] := by
  obtain ⟨vs, h, hws⟩ := exec_caseStore h
  cases h
  refine ⟨List.filter_congr fun r _ => ?_, hws⟩
  simp [CaseRow.keys, eq_comm, Bool.beq_eq_decide_eq]

theorem exec_selectSnapshot {organizationId caseId : Uuid} {w : World} {rows : List CaseRow}
    {ws : List SpineWrite}
    (h : caseStore.exec (.selectSnapshot organizationId caseId) w = .ok (rows, ws)) :
    rows = (bearing CaseRow.keys (.case caseId) w.db.cases).filter
      (·.organizationId == organizationId) ∧ ws = [] := by
  obtain ⟨vs, h, hws⟩ := exec_caseStore h
  cases h
  exact ⟨filter_case w.db organizationId caseId, hws⟩

theorem exec_selectCase {organizationId caseId : Uuid} {w : World} {rows : List CaseRow}
    {ws : List SpineWrite}
    (h : caseStore.exec (.selectCase organizationId caseId) w = .ok (rows, ws)) :
    rows = (bearing CaseRow.keys (.case caseId) w.db.cases).filter
      (·.organizationId == organizationId) ∧ ws = [] := by
  obtain ⟨vs, h, hws⟩ := exec_caseStore h
  cases h
  exact ⟨filter_case w.db organizationId caseId, hws⟩

theorem exec_selectTimeline {organizationId caseId : Uuid} {w : World}
    {rows : List (EventRow × Option TransitionRow)} {ws : List SpineWrite}
    (h : caseStore.exec (.selectTimeline organizationId caseId) w = .ok (rows, ws)) : ws = [] := by
  obtain ⟨vs, h, hws⟩ := exec_caseStore h
  cases h
  exact hws

theorem exec_updateCaseVersion {organizationId caseId : Uuid} {expectedVersion : Nat}
    {state : CaseState} {version : Nat} {updatedAt : Instant} {w : World} {rows : List CaseRow}
    {ws : List SpineWrite}
    (h : caseStore.exec (.updateCaseVersion organizationId caseId expectedVersion state version
      updatedAt) w = .ok (rows, ws)) :
    ∃ olds, olds = (bearing CaseRow.keys (.case caseId) w.db.cases).filter
        (fun c => c.organizationId == organizationId && c.version == expectedVersion) ∧
      rows = olds.map (·.advance state version updatedAt) ∧
      ws = olds.map (fun old => .row (.updateCase old state version updatedAt)) := by
  obtain ⟨vs, hexec, rfl⟩ := exec_caseStore h
  unfold CaseStmt.exec at hexec
  obtain ⟨-, hexec⟩ := need_bind.mp hexec
  cases hexec
  refine ⟨_, ?_, rfl, by simp⟩
  rw [bearing, List.filter_filter]
  refine List.filter_congr fun r _ => ?_
  simp only [CaseRow.keys, List.mem_cons, Key.case.injEq, reduceCtorEq, List.not_mem_nil, or_false]
  grind

theorem exec_insertCaseInput {row : CaseInputRow} {w : World} {u : Unit} {ws : List SpineWrite}
    (h : caseStore.exec (.insertCaseInput row) w = .ok (u, ws)) :
    ws = [.row (.insertCaseInput row)] := by
  obtain ⟨vs, hexec, rfl⟩ := exec_caseStore h
  unfold CaseStmt.exec at hexec
  obtain ⟨-, hexec⟩ := need_bind.mp hexec
  simp only [need_bind] at hexec
  obtain ⟨-, -, -, hexec⟩ := hexec
  cases hexec
  rfl

theorem exec_insertTransition {row : TransitionRow} {w : World} {u : Unit} {ws : List SpineWrite}
    (h : caseStore.exec (.insertTransition row) w = .ok (u, ws)) :
    ws = [.row (.insertTransition row)] ∧ ∀ t ∈ w.db.transitions, t.id ≠ row.id := by
  obtain ⟨vs, hexec, rfl⟩ := exec_caseStore h
  unfold CaseStmt.exec at hexec
  obtain ⟨-, hexec⟩ := need_bind.mp hexec
  simp only [need_bind] at hexec
  obtain ⟨-, -, hid, -, -, hexec⟩ := hexec
  cases hexec
  exact ⟨rfl, by simpa using hid⟩

theorem exec_insertEvent {row : EventRow} {w : World} {u : Unit} {ws : List SpineWrite}
    (h : caseStore.exec (.insertEvent row) w = .ok (u, ws)) :
    ws = [.row (.insertEvent row)] ∧ ∀ e ∈ w.db.events, e.id ≠ row.id := by
  obtain ⟨vs, hexec, rfl⟩ := exec_caseStore h
  unfold CaseStmt.exec at hexec
  obtain ⟨-, hexec⟩ := need_bind.mp hexec
  simp only [need_bind] at hexec
  obtain ⟨-, -, hid, -, -, -, hexec⟩ := hexec
  cases hexec
  exact ⟨rfl, by simpa using hid⟩

theorem exec_insertOutbox {row : OutboxRow} {w : World} {u : Unit} {ws : List SpineWrite}
    (h : caseStore.exec (.insertOutbox row) w = .ok (u, ws)) :
    ws = [.row (.insertOutbox row)] ∧ ∀ o ∈ w.db.outbox, o.caseEventId ≠ row.caseEventId := by
  obtain ⟨vs, hexec, rfl⟩ := exec_caseStore h
  unfold CaseStmt.exec at hexec
  obtain ⟨-, hexec⟩ := need_bind.mp hexec
  simp only [need_bind] at hexec
  obtain ⟨-, -, -, hevent, -, -, hexec⟩ := hexec
  cases hexec
  exact ⟨rfl, by simpa using hevent⟩

theorem exec_insertAuditEvent {row : AuditRow} {w : World} {u : Unit} {ws : List SpineWrite}
    (h : caseStore.exec (.insertAuditEvent row) w = .ok (u, ws)) : ws = [.row (.insertAudit row)] := by
  obtain ⟨vs, hexec, rfl⟩ := exec_caseStore h
  unfold CaseStmt.exec at hexec
  obtain ⟨-, hexec⟩ := need_bind.mp hexec
  simp only [need_bind] at hexec
  obtain ⟨-, -, hexec⟩ := hexec
  cases hexec
  rfl

/-! ### The discipline -/

section

variable (sha256 : PyStr → Sha256Hex) (ok : HistoryEntry → Prop)

/-- The slice of an idempotency key: unused, or the one case its command created. -/
def KeyHistory (organizationId : Uuid) (idempotencyKey : PyStr) (w : World) : Prop :=
  (w.db.cases = [] ∧ w.history = []) ∨
    ∃ row c, w.db.cases = [row] ∧ w.history = [.created organizationId c] ∧
      c.idempotencyKey = idempotencyKey ∧ ok (.created organizationId c) ∧ row.id = c.caseId ∧
      row.requestSha256 = c.requestSha256 sha256

/-- When the slice of a key is good. -/
def Good : Key → World → Prop
  | .case id, w => Spine sha256 ok id w
  | .idempotency organizationId idempotencyKey, w =>
    KeyHistory sha256 ok organizationId idempotencyKey w
  | .transition _, w => w.db.transitions.length ≤ 1
  | .event _, w => w.db.events.length ≤ 1
  | .outboxEvent _, w => w.db.outbox.length ≤ 1
  | _, _ => True

/-- The rows a change of a case needs are among the writes. -/
def Documented (ws : List SpineWrite) : CaseChange → Prop
  | .inserted new => new.state = .new ∧ new.version = 0 ∧ ∃ e o, .row (.insertEvent e) ∈ ws ∧
      .row (.insertOutbox o) ∈ ws ∧ CreationEvent new e ∧ OutboxOf e o
  | .updated old new => new.state ∈ allowedTransitions old.state ∧ new.version = old.version + 1 ∧
      ∃ t e o, .row (.insertTransition t) ∈ ws ∧ .row (.insertEvent e) ∈ ws ∧
        .row (.insertOutbox o) ∈ ws ∧ t.organizationId = new.organizationId ∧ t.caseId = new.id ∧
        t.fromState = old.state ∧ t.toState = new.state ∧ t.version = new.version ∧
        EventOf t e ∧ OutboxOf e o

/-- Every change of a case is documented. -/
def Complete (ws : List SpineWrite) : Prop := ∀ c ∈ ws.filterMap SpineWrite.change, Documented ws c

theorem complete_nil : Complete [] := fun c hc => by simp at hc

theorem Documented.mono {ws ws' : List SpineWrite} (hsub : ws ⊆ ws') {c : CaseChange}
    (h : Documented ws c) : Documented ws' c := by
  cases c with
  | inserted new =>
    obtain ⟨hstate, hversion, e, o, he, ho, hrest⟩ := h
    exact ⟨hstate, hversion, e, o, hsub he, hsub ho, hrest⟩
  | updated old new =>
    obtain ⟨hedge, hversion, t, e, o, ht, he, ho, hrest⟩ := h
    exact ⟨hedge, hversion, t, e, o, hsub ht, hsub he, hsub ho, hrest⟩

theorem Complete.append {ws ws' : List SpineWrite} (h : Complete ws) (h' : Complete ws') :
    Complete (ws ++ ws') := by
  intro c hc
  rw [List.filterMap_append, List.mem_append] at hc
  rcases hc with hc | hc
  · exact (h c hc).mono (List.subset_append_left ws ws')
  · exact (h' c hc).mono (List.subset_append_right ws ws')

/-- The discipline of the case spine. -/
abbrev spineDiscipline : Discipline caseStore World :=
  sliceDiscipline (Good sha256 ok) Complete complete_nil

end

section Growth

/-- The history tables only grow. -/
structure World.Grows (w w' : World) : Prop where
  transitions : w.db.transitions <+: w'.db.transitions
  events : w.db.events <+: w'.db.events
  outbox : w.db.outbox <+: w'.db.outbox
  history : w.history <+: w'.history

theorem World.Grows.refl (w : World) : w.Grows w :=
  ⟨List.prefix_rfl, List.prefix_rfl, List.prefix_rfl, List.prefix_rfl⟩

theorem World.Grows.trans {w w' w'' : World} (h : w.Grows w') (h' : w'.Grows w'') : w.Grows w'' :=
  ⟨h.1.trans h'.1, h.2.trans h'.2, h.3.trans h'.3, h.4.trans h'.4⟩

theorem grows_apply (x : SpineWrite) (w : World) : w.Grows (x.apply w) := by
  cases x with
  | note e => constructor <;> simp [SpineWrite.apply]
  | row x => cases x <;> constructor <;> simp [SpineWrite.apply, CaseWrite.apply]

theorem grows_applyAll (ws : List SpineWrite) (w : World) : w.Grows (caseStore.applyAll ws w) :=
  Store.applyAll_induct (I := fun w' => w.Grows w') (fun x _ h => h.trans (grows_apply x _)) ws
    (World.Grows.refl w)

theorem grows_restrict (x : SpineWrite) (k : Key) (w : World) :
    (w.restrict k).Grows ((x.apply w).restrict k) := by
  rw [restrict_apply]
  split_ifs
  · exact grows_apply x _
  · exact World.Grows.refl _

/-- The state a case is in after its first `version` transitions. -/
def Recorded (version : Nat) (state : CaseState) (w : World) : Prop :=
  version ≤ w.db.transitions.length ∧
    ((w.db.transitions.take version).getLast?.map (·.toState)).getD .new = state

theorem Recorded.grows {version : Nat} {state : CaseState} {w w' : World}
    (h : Recorded version state w) (hg : w.Grows w') : Recorded version state w' := by
  obtain ⟨rest, hrest⟩ := hg.transitions
  obtain ⟨hle, hstate⟩ := h
  rw [Recorded, ← hrest, List.take_append_of_le_length hle]
  exact ⟨by simp; omega, hstate⟩

/-- A version has one state. -/
theorem Recorded.unique {version : Nat} {s t : CaseState} {w : World} (h : Recorded version s w)
    (h' : Recorded version t w) : s = t := h.2.symm.trans h'.2

variable {sha256 : PyStr → Sha256Hex} {ok : HistoryEntry → Prop}

theorem Spine.recorded {caseId : Uuid} {w : World} (h : Spine sha256 ok caseId w) {row : CaseRow}
    (hrow : w.db.cases = [row]) : Recorded row.version row.state w := by
  have hchron := h.chronicle hrow
  have hlen : w.db.transitions.length = row.version := by
    simpa using congrArg List.length hchron.versions
  exact ⟨hlen.ge, by rw [← hlen, List.take_length]; exact hchron.linked.last⟩

theorem Recorded.rely {version : Nat} {state : CaseState} {k : Key} {base : List SpineWrite}
    {w w' : World} (ho : caseStore.Owned base) (hr : (spineDiscipline sha256 ok).Rely base w w')
    (h : Recorded version state ((caseStore.applyAll base w).restrict k)) :
    Recorded version state ((caseStore.applyAll base w').restrict k) :=
  Discipline.Rely.slice_induct (δ := spineDiscipline sha256 ok) (I := Recorded version state)
    (fun x w h => h.grows (grows_restrict x k w)) ho hr h

end Growth

end NetopsCopilot
