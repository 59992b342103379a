import NetopsCopilot.Lib.Rows
import NetopsCopilot.Application.CaseStore

/-!
# The history of one case

`Spine` is the invariant of the slice of one case: the case is absent, was just created, or was moved
by a command `applyTransition` accepted, each with exactly the rows `create_case` and
`persist_transition` write. Everything that is true of a stored case is derived from it by induction:
its transitions are numbered and linked, its events and outbox rows match them one to one.

`ok` restricts the history entries that may occur.
-/

namespace NetopsCopilot

open Txn

/-- The snapshot of a stored case. -/
def CaseRow.snapshot (r : CaseRow) : CaseSnapshot := ⟨r.id, r.state, r.version⟩

/-- No row of the case spine. -/
structure World.Absent (w : World) : Prop where
  cases : w.db.cases = []
  caseInputs : w.db.caseInputs = []
  transitions : w.db.transitions = []
  events : w.db.events = []
  outbox : w.db.outbox = []
  history : w.history = []

section

variable (sha256 : PyStr → Sha256Hex) (ok : HistoryEntry → Prop)

/-! ### The rows of a command -/

/-- The event of a created case. -/
def createdEventRow (organizationId : Uuid) (c : CreateCaseCommand) : EventRow :=
  eventRow organizationId (createdEvent c (caseRecord (insertCaseRow sha256 organizationId c))) none
    (some (c.requestSha256 sha256))

/-- Its outbox row. -/
def createdOutboxRow (organizationId : Uuid) (c : CreateCaseCommand) (outboxId : Uuid) : OutboxRow :=
  outboxRow organizationId (createdEvent c (caseRecord (insertCaseRow sha256 organizationId c))) none
    (some (c.requestSha256 sha256)) outboxId

/-- The input row of a created case. -/
def createdInputRows (organizationId : Uuid) (c : CreateCaseCommand) : List CaseInputRow :=
  (c.caseInput.map (caseInputRow organizationId c.caseId c)).toList

/-- The rows `create_case` writes, for the case they belong to. -/
def createdWrites (organizationId : Uuid) (c : CreateCaseCommand) (outboxId : Uuid) :
    List SpineWrite :=
  .row (.insertCase (insertCaseRow sha256 organizationId c)) ::
    (createdInputRows organizationId c).map (fun i => .row (.insertCaseInput i)) ++
    [.row (.insertEvent (createdEventRow sha256 organizationId c)),
      .row (.insertOutbox (createdOutboxRow sha256 organizationId c outboxId)),
      .note (.created organizationId c)]

/-- The transition row of a move. -/
def movedTransitionRow (row : CaseRow) (c : TransitionCommand) : TransitionRow :=
  transitionRow row.organizationId (transitionOutcome row.snapshot c).transition c.actor

/-- Its event. -/
def movedEventRow (row : CaseRow) (c : TransitionCommand) : EventRow :=
  eventRow row.organizationId (transitionOutcome row.snapshot c).event (some c.transitionId) none

/-- Its outbox row. -/
def movedOutboxRow (row : CaseRow) (c : TransitionCommand) (outboxId : Uuid) : OutboxRow :=
  outboxRow row.organizationId (transitionOutcome row.snapshot c).event (some c.transitionId) none
    outboxId

/-- The rows `persist_transition` writes, for the case they belong to. -/
def movedWrites (row : CaseRow) (c : TransitionCommand) (outboxId : Uuid) : List SpineWrite :=
  [.row (.updateCase row c.toState (row.version + 1) c.occurredAt),
    .row (.insertTransition (movedTransitionRow row c)), .row (.insertEvent (movedEventRow row c)),
    .row (.insertOutbox (movedOutboxRow row c outboxId)), .note (.accepted row.organizationId c)]

variable {sha256} in
theorem applyAll_createdWrites {w : World} (h : w.Absent) (organizationId : Uuid)
    (c : CreateCaseCommand) (outboxId : Uuid) :
    caseStore.applyAll (createdWrites sha256 organizationId c outboxId) w =
      { db := { w.db with
          cases := [insertCaseRow sha256 organizationId c]
          caseInputs := createdInputRows organizationId c
          events := [createdEventRow sha256 organizationId c]
          outbox := [createdOutboxRow sha256 organizationId c outboxId] }
        history := [.created organizationId c] } := by
  cases hc : c.caseInput <;>
    simp [createdWrites, createdInputRows, caseStore, SpineWrite.apply, CaseWrite.apply, h.cases,
      h.caseInputs, h.events, h.outbox, h.history, hc]

theorem applyAll_movedWrites {w : World} {row : CaseRow} (h : w.db.cases = [row])
    (c : TransitionCommand) (outboxId : Uuid) :
    caseStore.applyAll (movedWrites row c outboxId) w =
      { db := { w.db with
          cases := [row.advance c.toState (row.version + 1) c.occurredAt]
          transitions := w.db.transitions ++ [movedTransitionRow row c]
          events := w.db.events ++ [movedEventRow row c]
          outbox := w.db.outbox ++ [movedOutboxRow row c outboxId] }
        history := w.history ++ [.accepted row.organizationId c] } := by
  simp [movedWrites, caseStore, SpineWrite.apply, CaseWrite.apply, h]

/-! ### The invariant of one case -/

/-- The slice of one case: absent, just created, or moved by an accepted command. -/
inductive Spine (caseId : Uuid) : World → Prop where
  | absent {w} (h : w.Absent) : Spine caseId w
  | created {w} (h : w.Absent) (organizationId : Uuid) (c : CreateCaseCommand) (outboxId : Uuid)
      (hid : c.caseId = caseId) (hok : ok (.created organizationId c)) :
      Spine caseId (caseStore.applyAll (createdWrites sha256 organizationId c outboxId) w)
  | moved {w} (h : Spine caseId w) (row : CaseRow) (c : TransitionCommand) (outboxId : Uuid)
      (hrow : w.db.cases = [row]) (hacc : Accepts row.snapshot c)
      (hok : ok (.accepted row.organizationId c)) :
      Spine caseId (caseStore.applyAll (movedWrites row c outboxId) w)

end

/-- An outbox row of an event. -/
structure OutboxOf (e : EventRow) (o : OutboxRow) : Prop where
  organizationId : o.organizationId = e.organizationId
  caseEventId : o.caseEventId = e.id
  caseId : o.caseId = e.caseId
  aggregateVersion : o.aggregateVersion = e.aggregateVersion
  eventType : o.eventType = e.eventType

/-- The event of a transition. -/
structure EventOf (t : TransitionRow) (e : EventRow) : Prop where
  organizationId : e.organizationId = t.organizationId
  caseId : e.caseId = t.caseId
  transitionId : e.transitionId = some t.id
  aggregateVersion : e.aggregateVersion = t.version
  eventType : e.eventType = eventTypes t.toState

/-- The creation event of a case. -/
structure CreationEvent (row : CaseRow) (e : EventRow) : Prop where
  organizationId : e.organizationId = row.organizationId
  caseId : e.caseId = row.id
  transitionId : e.transitionId = none
  aggregateVersion : e.aggregateVersion = 0
  eventType : e.eventType = py "case.created.v1"

/-- The transitions lead from `s` to `t` by allowed edges. -/
def Linked : CaseState → List TransitionRow → CaseState → Prop
  | s, [], t => s = t
  | s, r :: rs, t => r.fromState = s ∧ r.toState ∈ allowedTransitions r.fromState ∧
      Linked r.toState rs t

theorem Linked.snoc {s t : CaseState} {rs : List TransitionRow} (h : Linked s rs t)
    {r : TransitionRow} (hfrom : r.fromState = t) (hedge : r.toState ∈ allowedTransitions t) :
    Linked s (rs ++ [r]) r.toState := by
  induction rs generalizing s with
  | nil =>
    cases h
    exact ⟨hfrom, hfrom ▸ hedge, rfl⟩
  | cons r' rs ih => exact ⟨h.1, h.2.1, ih h.2.2⟩

/-- The state the transitions end in. -/
theorem Linked.last {s t : CaseState} {rs : List TransitionRow} (h : Linked s rs t) :
    (rs.getLast?.map (·.toState)).getD s = t := by
  induction rs generalizing s with
  | nil => exact h
  | cons r rs ih =>
    have hlast := ih h.2.2
    rw [List.getLast?_cons]
    cases hrs : rs.getLast? <;> simpa [hrs] using hlast

/-- What the rows of one case look like. -/
structure Chronicle (row : CaseRow) (w : World) : Prop where
  versions : w.db.transitions.map (·.version) = List.range' 1 row.version
  linked : Linked .new w.db.transitions row.state
  owner : ∀ t ∈ w.db.transitions, t.organizationId = row.organizationId ∧ t.caseId = row.id
  events : ∃ e es, w.db.events = e :: es ∧ CreationEvent row e ∧
    List.Forall₂ EventOf w.db.transitions es
  outbox : List.Forall₂ OutboxOf w.db.events w.db.outbox

namespace Spine

variable {sha256 : PyStr → Sha256Hex} {ok : HistoryEntry → Prop} {caseId : Uuid} {w : World}

/-- A case has at most one row, and its id. -/
theorem cases (h : Spine sha256 ok caseId w) :
    w.Absent ∨ ∃ row, w.db.cases = [row] ∧ row.id = caseId := by
  induction h with
  | absent h => exact Or.inl h
  | created h organizationId c outboxId hid hok =>
    rw [applyAll_createdWrites h]
    exact Or.inr ⟨_, rfl, hid⟩
  | @moved w h row c outboxId hrow hacc hok ih =>
    rw [applyAll_movedWrites hrow]
    rcases ih with hnone | ⟨row', hrow', hid⟩
    · rw [hnone.cases] at hrow
      cases hrow
    · rw [hrow, List.singleton_inj] at hrow'
      subst hrow'
      exact Or.inr ⟨_, rfl, hid⟩

theorem caseId_eq (h : Spine sha256 ok caseId w) {row : CaseRow} (hrow : w.db.cases = [row]) :
    row.id = caseId := by
  rcases h.cases with hnone | ⟨row', hrow', hid⟩
  · rw [hnone.cases] at hrow
    cases hrow
  · rw [hrow, List.singleton_inj] at hrow'
    exact hrow' ▸ hid

/-- **The rows of a case agree with each other.** -/
theorem chronicle (h : Spine sha256 ok caseId w) {row : CaseRow} (hrow : w.db.cases = [row]) :
    Chronicle row w := by
  induction h generalizing row with
  | absent h =>
    rw [h.cases] at hrow
    cases hrow
  | created h organizationId c outboxId hid hok =>
    rw [applyAll_createdWrites h] at hrow ⊢
    cases hrow
    exact
      { versions := by simp [h.transitions, insertCaseRow]
        linked := by simp [h.transitions, Linked, insertCaseRow]
        owner := by simp [h.transitions]
        events := ⟨_, [], rfl, ⟨rfl, rfl, rfl, rfl, rfl⟩, by simp [h.transitions]⟩
        outbox := .cons ⟨rfl, rfl, rfl, rfl, rfl⟩ .nil }
  | @moved w h row' c outboxId hrow' hacc hok ih =>
    rw [applyAll_movedWrites hrow'] at hrow ⊢
    cases hrow
    have hold := ih hrow'
    obtain ⟨e, es, hevents, hcreation, hmatch⟩ := hold.events
    exact
      { versions := by
          simp only [List.map_append, hold.versions, List.map_cons, List.map_nil]
          change List.range' 1 row'.version ++ [row'.version + 1] = List.range' 1 (row'.version + 1)
          rw [List.range'_1_concat, Nat.add_comm]
        linked := hold.linked.snoc rfl hacc.edge
        owner := by
          intro t ht
          rcases List.mem_append.mp ht with ht | ht
          · exact hold.owner t ht
          · rw [List.mem_singleton] at ht
            subst ht
            exact ⟨rfl, rfl⟩
        events := ⟨e, es ++ [movedEventRow row' c], by simp [hevents],
          ⟨hcreation.1, hcreation.2, hcreation.3, hcreation.4, hcreation.5⟩,
          Rows.forall₂_snoc hmatch ⟨rfl, rfl, rfl, rfl, rfl⟩⟩
        outbox := Rows.forall₂_snoc hold.outbox ⟨rfl, rfl, rfl, rfl, rfl⟩ }

end Spine

end NetopsCopilot
