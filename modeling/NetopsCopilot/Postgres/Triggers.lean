import NetopsCopilot.Postgres.Schema

/-!
# The deferred case trigger (migration `20260715_02`)

`netops_assert_case_projection_history` runs at commit, once for every `INSERT` and every `UPDATE` of a
row of `cases` made in the transaction, with the row's old and new value of that statement. It reads the
history tables as they are at commit.
-/

namespace NetopsCopilot

/-- What a row trigger on `cases` is called with. -/
inductive CaseChange where
  | inserted (new : CaseRow)
  | updated (old new : CaseRow)
deriving DecidableEq

/-- The creation event of a case and an outbox row for it exist. -/
def hasCreationHistory (db : Db) (new : CaseRow) : Bool :=
  db.events.any fun event =>
    event.organizationId == new.organizationId && event.caseId == new.id &&
    event.eventType == py "case.created.v1" && event.aggregateVersion == 0 &&
    event.transitionId == none &&
    db.outbox.any fun outbox =>
      outbox.organizationId == event.organizationId && outbox.caseEventId == event.id &&
      outbox.caseId == new.id && outbox.aggregateVersion == 0 && outbox.eventType == event.eventType

/-- A transition row for this change, its event and an outbox row for it exist. -/
def hasTransitionHistory (db : Db) (old new : CaseRow) : Bool :=
  db.transitions.any fun transition =>
    transition.organizationId == new.organizationId && transition.caseId == new.id &&
    transition.fromState == old.state && transition.toState == new.state &&
    transition.version == new.version &&
    db.events.any fun event =>
      event.organizationId == transition.organizationId && event.caseId == transition.caseId &&
      event.transitionId == some transition.id && event.aggregateVersion == new.version &&
      db.outbox.any fun outbox =>
        outbox.organizationId == event.organizationId && outbox.caseEventId == event.id &&
        outbox.caseId == new.id && outbox.aggregateVersion == new.version &&
        outbox.eventType == event.eventType

/-- `netops_assert_case_projection_history`. -/
def assertCaseProjectionHistory (db : Db) : CaseChange → Except DbError Unit
  | .inserted new =>
    if new.state ≠ .new ∨ new.version ≠ 0 then
      .error (.trigger (py "new case projection must begin at new version 0"))
    else if !hasCreationHistory db new then
      .error (.trigger (py "case creation requires an immutable creation event and outbox row"))
    else .ok ()
  | .updated old new =>
    if decide (new.state ≠ old.state) != decide (new.version ≠ old.version) then
      .error (.trigger (py "case state and version must change together"))
    else if new.state ≠ old.state then
      if new.version ≠ old.version + 1 then
        .error (.trigger (py "case version must advance exactly once per transition"))
      else if !hasTransitionHistory db old new then
        .error (.trigger
          (py "case projection transition requires matching immutable history and outbox"))
      else .ok ()
    else .ok ()

/-- The trigger passes. -/
def CaseChange.passes (db : Db) (change : CaseChange) : Bool :=
  (assertCaseProjectionHistory db change).isOk

/-- A state change that passes moves the version by one and has its transition row. -/
theorem passes_updated {db : Db} {old new : CaseRow}
    (h : (CaseChange.updated old new).passes db = true) (hstate : new.state ≠ old.state) :
    new.version = old.version + 1 ∧ ∃ t ∈ db.transitions,
      t.organizationId = new.organizationId ∧ t.caseId = new.id ∧ t.fromState = old.state ∧
      t.toState = new.state ∧ t.version = new.version := by
  simp only [CaseChange.passes, assertCaseProjectionHistory] at h
  split_ifs at h with htogether hversion hhistory
  · cases h
  · cases h
  · cases h
  · simp only [Bool.not_eq_true', Bool.not_eq_false, hasTransitionHistory, List.any_eq_true,
      Bool.and_eq_true, beq_iff_eq] at hhistory
    obtain ⟨t, ht, ⟨⟨⟨⟨horg, hcase⟩, hfrom⟩, hto⟩, hver⟩, -⟩ := hhistory
    exact ⟨not_not.mp hversion, t, ht, horg, hcase, hfrom, hto, hver⟩

/-- A new case with its creation history passes. -/
theorem passes_of_inserted {db : Db} {new : CaseRow} (hstate : new.state = .new)
    (hversion : new.version = 0) (hhistory : hasCreationHistory db new = true) :
    (CaseChange.inserted new).passes db = true := by
  simp [CaseChange.passes, assertCaseProjectionHistory, hstate, hversion, hhistory, Except.isOk,
    Except.toBool]

/-- A move by one version with its history passes. -/
theorem passes_of_updated {db : Db} {old new : CaseRow} (hstate : new.state ≠ old.state)
    (hversion : new.version = old.version + 1) (hhistory : hasTransitionHistory db old new = true) :
    (CaseChange.updated old new).passes db = true := by
  simp [CaseChange.passes, assertCaseProjectionHistory, hstate, hversion, hhistory, Except.isOk,
    Except.toBool]

end NetopsCopilot
