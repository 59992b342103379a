import NetopsCopilot.Domain.Cases
import NetopsCopilot.Postgres.Triggers

/-!
# What the database lets any writer do to a case

A transaction of an arbitrary client is a list of row changes of the case spine. `Commits` is what
PostgreSQL asks of it: each row satisfies the CHECK constraints of its table and the deferred trigger
passes, for every insert and update of `cases`, on the state the transaction leaves.
`case_transitions` and `case_events` are append-only (`netops_reject_immutable_history_mutation`); nothing
else is assumed of the writer, so rows of `cases` and `outbox_events` may also be changed at will or
deleted.

`commits_change` says that the constraints alone already force every change of a case's state to be a
legal transition with its evidence.
-/

namespace NetopsCopilot

/-- One row change. -/
inductive RowChange where
  | insertCase (new : CaseRow)
  | updateCase (old new : CaseRow)
  | deleteCase (old : CaseRow)
  | insertTransition (new : TransitionRow)
  | insertEvent (new : EventRow)
  | insertOutbox (new : OutboxRow)
  | updateOutbox (id : Uuid) (new : OutboxRow)
  | deleteOutbox (id : Uuid)

namespace RowChange

/-- The row satisfies the CHECK constraints of its table. -/
def checks : RowChange → Bool
  | .insertCase new | .updateCase _ new => new.checks
  | .insertTransition new => new.checks
  | .insertEvent new => new.checks
  | .insertOutbox new | .updateOutbox _ new => new.checks
  | .deleteCase _ | .deleteOutbox _ => true

def apply : RowChange → Db → Db
  | .insertCase new, db => { db with cases := db.cases ++ [new] }
  | .updateCase old new, db => { db with cases := db.cases.map fun r => if r = old then new else r }
  | .deleteCase old, db => { db with cases := db.cases.filter fun r => r ≠ old }
  | .insertTransition new, db => { db with transitions := db.transitions ++ [new] }
  | .insertEvent new, db => { db with events := db.events ++ [new] }
  | .insertOutbox new, db => { db with outbox := db.outbox ++ [new] }
  | .updateOutbox id new, db =>
    { db with outbox := db.outbox.map fun o => if o.id = id then new else o }
  | .deleteOutbox id, db => { db with outbox := db.outbox.filter fun o => o.id ≠ id }

/-- The deferred trigger call it leaves behind. -/
def change : RowChange → Option CaseChange
  | .insertCase new => some (.inserted new)
  | .updateCase old new => some (.updated old new)
  | _ => none

end RowChange

/-- The state a transaction leaves. -/
def afterChanges (changes : List RowChange) (db : Db) : Db :=
  changes.foldl (fun db change => change.apply db) db

/-- A transaction commits. -/
structure Commits (db : Db) (changes : List RowChange) : Prop where
  checks : ∀ c ∈ changes, c.checks = true
  triggers : ∀ c ∈ changes.filterMap RowChange.change, c.passes (afterChanges changes db) = true

/-- The databases that committed transactions lead to. -/
inductive Written : Db → Prop where
  | empty {db} (h : db.transitions = []) : Written db
  | commit {db changes} (h : Written db) (hc : Commits db changes) : Written (afterChanges changes db)

/-- What `case_transitions` demands of the row of a move: the evidence of its target state, with notes
that SQL does not call blank. -/
structure SqlEvidence (t : TransitionRow) : Prop where
  evidence : Evidence t.toState t.approvalId t.verificationNote t.knowledgeItemId t.note
  confirmed : t.toState = .confirmed → t.actorKind = .human
  resolved : t.toState = .resolved → t.actorKind = .human ∧
    ∀ s ∈ t.verificationNote, notBlankSql s = true
  learned : t.toState = .learned → t.actorKind = .service
  information : t.toState = .needsInformation → ∀ s ∈ t.note, notBlankSql s = true

/-- The edges of `ck_case_transitions_allowed_edge` are those of `ALLOWED_TRANSITIONS`. -/
theorem allowedEdge_iff (t : TransitionRow) :
    t.allowedEdge = true ↔ t.toState ∈ allowedTransitions t.fromState := by
  unfold TransitionRow.allowedEdge
  generalize t.fromState = s
  generalize t.toState = s'
  cases s <;> cases s' <;> decide

theorem sqlEvidence_of_checks {t : TransitionRow} (h : t.checks = true) : SqlEvidence t := by
  simp only [TransitionRow.checks, Bool.and_eq_true] at h
  obtain ⟨⟨⟨⟨-, hconfirm⟩, hresolve⟩, hlearn⟩, hinfo⟩ := h
  simp only [TransitionRow.confirmation, TransitionRow.resolution, TransitionRow.learning,
    TransitionRow.needsInformation, Bool.or_eq_true, bne_iff_ne, Bool.and_eq_true, beq_iff_eq,
    Option.any_eq_true, Option.isSome_iff_ne_none] at hconfirm hresolve hlearn hinfo
  constructor
  · constructor <;> grind
  all_goals grind

/-- A checked row change keeps the CHECK constraints of `case_transitions`. -/
theorem checks_apply {c : RowChange} (hc : c.checks = true) {db : Db}
    (h : ∀ t ∈ db.transitions, t.checks = true) : ∀ t ∈ (c.apply db).transitions, t.checks = true := by
  cases c with
  | insertTransition new =>
    intro t ht
    rcases List.mem_append.mp ht with ht | ht
    · exact h t ht
    · rw [List.mem_singleton] at ht
      exact ht ▸ hc
  | insertCase new | updateCase old new | deleteCase old | insertEvent new | insertOutbox new
  | updateOutbox id new | deleteOutbox id => exact h

theorem checks_afterChanges {changes : List RowChange} (hc : ∀ c ∈ changes, c.checks = true) {db : Db}
    (h : ∀ t ∈ db.transitions, t.checks = true) :
    ∀ t ∈ (afterChanges changes db).transitions, t.checks = true := by
  induction changes generalizing db with
  | nil => exact h
  | cons c changes ih =>
    rw [List.forall_mem_cons] at hc
    exact ih hc.2 (checks_apply hc.1 h)

theorem Written.checks {db : Db} (h : Written db) : ∀ t ∈ db.transitions, t.checks = true := by
  induction h with
  | empty h => simp [h]
  | commit _ hc ih => exact checks_afterChanges hc.checks ih

/-- **What the constraints force.** In a transaction that commits, every update that changes a case's
state takes one allowed edge, moves the version by one, and has a transition row with its evidence. -/
theorem commits_change {db : Db} (hdb : Written db) {changes : List RowChange}
    (hc : Commits db changes) {old new : CaseRow} (hmem : .updateCase old new ∈ changes)
    (hstate : new.state ≠ old.state) :
    new.state ∈ allowedTransitions old.state ∧ new.version = old.version + 1 ∧
      ∃ t ∈ (afterChanges changes db).transitions, t.caseId = new.id ∧ t.fromState = old.state ∧
        t.toState = new.state ∧ t.version = new.version ∧ SqlEvidence t := by
  have hpass := hc.triggers _ (List.mem_filterMap.mpr ⟨_, hmem, rfl⟩)
  obtain ⟨hversion, t, ht, -, hcase, hfrom, hto, hversion'⟩ := passes_updated hpass hstate
  have hchecks := (Written.commit hdb hc).checks t ht
  have hedge : t.allowedEdge = true := by
    simp only [TransitionRow.checks, Bool.and_eq_true] at hchecks
    exact hchecks.1.1.1.1.2
  rw [allowedEdge_iff, hfrom, hto] at hedge
  exact ⟨hedge, hversion, t, ht, hcase, hfrom, hto, hversion', sqlEvidence_of_checks hchecks⟩

end NetopsCopilot
