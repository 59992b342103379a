import NetopsCopilot.Lib.Attempt
import NetopsCopilot.Application.Cases
import NetopsCopilot.Postgres.Triggers

/-!
# The case spine as a transactional store

The tables of the case spine together with a history: the commands that created cases and the transition
commands that were accepted, in the order they were (the tables keep neither an actor's roles nor the
request itself). Every row bears keys, one for each unique index and the case it belongs to; a write
locks the keys its statement locks in PostgreSQL (the unique keys of an inserted row, the updated row)
and touches the keys of the rows it changes. `World.restrict` is the part of the store that bears a key,
and `restrict_apply` says that a write acts on it exactly when it touches the key.
-/

namespace NetopsCopilot

open Txn

/-! ### Keys -/

/-- A lock and an index entry. -/
inductive Key where
  | case (id : Uuid)
  | idempotency (organizationId : Uuid) (idempotencyKey : PyStr)
  | caseInput (id : Uuid)
  | transition (id : Uuid)
  | caseVersion (caseId : Uuid) (version : Nat)
  | event (id : Uuid)
  | eventTransition (organizationId transitionId : Uuid)
  | outbox (id : Uuid)
  | outboxEvent (caseEventId : Uuid)
  | audit (id : Uuid)
deriving DecidableEq

def CaseRow.keys (r : CaseRow) : List Key :=
  [.case r.id, .idempotency r.organizationId r.idempotencyKey]

/-- The unique indexes of `case_inputs`. -/
def CaseInputRow.unique (r : CaseInputRow) : List Key := [.caseInput r.id]

/-- The unique indexes of `case_transitions`. -/
def TransitionRow.unique (r : TransitionRow) : List Key :=
  [.transition r.id, .caseVersion r.caseId r.version]

/-- The unique indexes of `case_events`; the one on `transition_id` is partial. -/
def EventRow.unique (r : EventRow) : List Key :=
  .event r.id :: (r.transitionId.map (.eventTransition r.organizationId)).toList

/-- The unique indexes of `outbox_events`. -/
def OutboxRow.unique (r : OutboxRow) : List Key := [.outbox r.id, .outboxEvent r.caseEventId]

def CaseInputRow.keys (r : CaseInputRow) : List Key := .case r.caseId :: r.unique

def TransitionRow.keys (r : TransitionRow) : List Key := .case r.caseId :: r.unique

def EventRow.keys (r : EventRow) : List Key := .case r.caseId :: r.unique

def OutboxRow.keys (r : OutboxRow) : List Key := .case r.caseId :: r.unique

def AuditRow.keys (r : AuditRow) : List Key := [.audit r.id]

/-! ### The store -/

/-- A command that took effect. -/
inductive HistoryEntry where
  | created (organizationId : Uuid) (command : CreateCaseCommand)
  | accepted (organizationId : Uuid) (command : TransitionCommand)

def HistoryEntry.keys : HistoryEntry → List Key
  | .created organizationId c => [.case c.caseId, .idempotency organizationId c.idempotencyKey]
  | .accepted _ c => [.case c.caseId]

/-- The accepted transition commands of a history. -/
def acceptedCommands (history : List HistoryEntry) : List TransitionCommand :=
  history.filterMap fun
    | .accepted _ c => some c
    | .created _ _ => none

/-- The database and the history. -/
structure World where
  db : Db
  history : List HistoryEntry := []

/-- A row change, or an entry of the history. -/
inductive SpineWrite where
  | row (w : CaseWrite)
  | note (entry : HistoryEntry)

/-- The locks a row change takes. -/
def CaseWrite.locks : CaseWrite → List Key
  | .insertCase r => r.keys
  | .updateCase old _ _ _ => old.keys
  | .insertCaseInput r => r.unique
  | .insertTransition r => r.unique
  | .insertEvent r => r.unique
  | .insertOutbox r => r.unique
  | .insertAudit r => r.keys

/-- The keys of the rows it changes. -/
def CaseWrite.touches : CaseWrite → List Key
  | .insertCase r => r.keys
  | .updateCase old _ _ _ => old.keys
  | .insertCaseInput r => r.keys
  | .insertTransition r => r.keys
  | .insertEvent r => r.keys
  | .insertOutbox r => r.keys
  | .insertAudit r => r.keys

/-- The deferred trigger call a row change leaves behind. -/
def CaseWrite.change : CaseWrite → Option CaseChange
  | .insertCase r => some (.inserted r)
  | .updateCase old state version updatedAt =>
    some (.updated old (old.advance state version updatedAt))
  | _ => none

namespace SpineWrite

def apply : SpineWrite → World → World
  | .row w, x => { x with db := w.apply x.db }
  | .note e, x => { x with history := x.history ++ [e] }

def locks : SpineWrite → List Key
  | .row w => w.locks
  | .note _ => []

def touches : SpineWrite → List Key
  | .row w => w.touches
  | .note e => e.keys

def change : SpineWrite → Option CaseChange
  | .row w => w.change
  | .note _ => none

end SpineWrite

/-- The deferred triggers of a transaction pass on the state it commits. -/
def triggersPass (ws : List SpineWrite) (committed : World) : Bool :=
  (ws.filterMap SpineWrite.change).all fun change =>
    change.passes (ws.foldl (fun w x => x.apply w) committed).db

/-- The store of the case spine. -/
def caseStore : Store CaseStmt CaseStmt.Reply DbError SpineWrite Key World where
  exec s w := (s.exec w.db).map fun (r, ws) => (r, ws.map .row)
  apply := SpineWrite.apply
  locks := SpineWrite.locks
  touches := SpineWrite.touches
  deferred := triggersPass

/-! ### Slices -/

/-- The rows that bear a key. -/
def bearing {α : Type} (keys : α → List Key) (k : Key) (rows : List α) : List α :=
  rows.filter fun r => decide (k ∈ keys r)

/-- The part of the store that bears a key. -/
def World.restrict (k : Key) (w : World) : World where
  db := { w.db with
    cases := bearing CaseRow.keys k w.db.cases
    caseInputs := bearing CaseInputRow.keys k w.db.caseInputs
    transitions := bearing TransitionRow.keys k w.db.transitions
    events := bearing EventRow.keys k w.db.events
    outbox := bearing OutboxRow.keys k w.db.outbox
    audit := bearing AuditRow.keys k w.db.audit }
  history := bearing HistoryEntry.keys k w.history

section Bearing

variable {α : Type} {keys : α → List Key} {k : Key}

theorem mem_bearing {rows : List α} {r : α} : r ∈ bearing keys k rows ↔ r ∈ rows ∧ k ∈ keys r := by
  simp [bearing]

theorem bearing_snoc (rows : List α) (r : α) :
    bearing keys k (rows ++ [r]) =
      if k ∈ keys r then bearing keys k rows ++ [r] else bearing keys k rows := by
  by_cases h : k ∈ keys r <;> simp [bearing, h]

/-- An edit that keeps the keys acts on the rows that bear a key. -/
theorem bearing_map (f : α → α) (hf : ∀ r, keys (f r) = keys r) (rows : List α) :
    bearing keys k (rows.map f) = (bearing keys k rows).map f := by
  simp [bearing, List.filter_map, Function.comp_def, hf]

/-- An edit of rows that do not bear the key changes nothing. -/
theorem bearing_map_self (f : α → α) (hf : ∀ r, k ∈ keys r → f r = r) (rows : List α) :
    (bearing keys k rows).map f = bearing keys k rows := by
  refine (List.map_congr_left fun r hr => ?_).trans (List.map_id _)
  exact hf r (mem_bearing.mp hr).2

end Bearing

/-- **A write acts on the slices of the keys it touches, and on nothing else.** -/
theorem restrict_apply (x : SpineWrite) (k : Key) (w : World) :
    (x.apply w).restrict k = if k ∈ x.touches then x.apply (w.restrict k) else w.restrict k := by
  cases x with
  | note e =>
    by_cases h : k ∈ e.keys <;>
      simp [SpineWrite.apply, SpineWrite.touches, World.restrict, bearing_snoc, h]
  | row x =>
    cases x with
    | updateCase old state version updatedAt =>
      have hkeys : ∀ r : CaseRow,
          (if r = old then r.advance state version updatedAt else r).keys = r.keys := by
        intro r
        split_ifs <;> rfl
      by_cases h : k ∈ old.keys
      · simp [SpineWrite.apply, SpineWrite.touches, CaseWrite.apply, CaseWrite.touches,
          World.restrict, bearing_map _ hkeys, h]
      · have hself : ∀ r : CaseRow, k ∈ r.keys →
            (if r = old then r.advance state version updatedAt else r) = r := by
          intro r hr
          rw [if_neg]
          rintro rfl
          exact h hr
        simp [SpineWrite.apply, SpineWrite.touches, CaseWrite.apply, CaseWrite.touches,
          World.restrict, bearing_map _ hkeys, bearing_map_self _ hself, h]
    | insertCase r | insertCaseInput r | insertTransition r | insertEvent r | insertOutbox r
    | insertAudit r =>
      by_cases h : k ∈ r.keys <;>
        simp [SpineWrite.apply, SpineWrite.touches, CaseWrite.apply, CaseWrite.touches,
          World.restrict, bearing_snoc, h]

theorem restrict_applyAll (ws : List SpineWrite) (k : Key) (w : World) :
    (caseStore.applyAll ws w).restrict k =
      caseStore.applyAll (ws.filter fun x => decide (k ∈ x.touches)) (w.restrict k) := by
  induction ws generalizing w with
  | nil => rfl
  | cons x ws ih =>
    rw [Store.applyAll_cons, ih, caseStore, restrict_apply, ← caseStore]
    by_cases h : k ∈ x.touches <;> simp [h, caseStore]

/-- A discipline whose slices are `World.restrict`. -/
def sliceDiscipline (good : Key → World → Prop) (complete : List SpineWrite → Prop)
    (complete_nil : complete []) : Discipline caseStore World where
  restrict := World.restrict
  good := good
  complete := complete
  complete_nil := complete_nil
  untouched x k w h := by
    change (x.apply w).restrict k = w.restrict k
    rw [restrict_apply]
    exact if_neg h
  congr x k w w' h := by
    change (x.apply w).restrict k = (x.apply w').restrict k
    rw [restrict_apply, restrict_apply, h]

end NetopsCopilot
