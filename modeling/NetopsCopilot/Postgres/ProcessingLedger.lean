import NetopsCopilot.Lib.Except
import Mathlib.Data.List.MinMax
import Mathlib.Data.Prod.Lex
import NetopsCopilot.Postgres.Schema

/-!
# The artifact processing ledger (migration `20260716_05`)

What an insert into `artifact_processing_events` has to pass: the trigger
`netops_validate_artifact_processing_event`, the CHECK constraints and the unique constraints. The
trigger takes an advisory lock on the artifact until its transaction ends, so the rows of one artifact are
inserted one after the other, and it finds the state before the new row by `occurred_at` and `id`.

The bound on the size of `result_summary` is left out: both writers insert constants far below it.
-/

namespace NetopsCopilot

/-- A failure code: `^[a-z0-9][a-z0-9_.-]{0,127}$`. -/
def failureCode (s : PyStr) : Bool :=
  let lower := py "abcdefghijklmnopqrstuvwxyz0123456789"
  s.head?.any (fun c => decide (c ∈ lower)) && s.all (fun c => decide (c ∈ lower ++ py "_.-")) &&
    decide (s.length ≤ 128)

namespace ProcessingRow

/-- `length(btrim(text)) BETWEEN 1 AND 128`. -/
def shortText (s : PyStr) : Bool := notBlankSql s && decide ((btrim s).length ≤ 128)

/-- The CHECK constraints of `artifact_processing_events`. -/
def checks (r : ProcessingRow) : Bool :=
  decide (1 ≤ r.attempt) && shortText r.processor && shortText r.processorVersion &&
    r.failureCode.all NetopsCopilot.failureCode && ((r.state == .failed) == r.failureCode.isSome) &&
    match r.resultSummary with
    | .obj _ => true
    | _ => false

/-- `ORDER BY occurred_at, id`. -/
def order (r : ProcessingRow) : Instant ×ₗ Uuid := toLex (r.occurredAt, r.id)

end ProcessingRow

/-- The rows of one attempt, in insertion order. -/
def attemptRows (rows : List ProcessingRow) (artifactId : Uuid) (attempt : Nat) :
    List ProcessingRow :=
  rows.filter fun r => r.artifactId == artifactId && r.attempt == attempt

/-- `highest_attempt`. -/
def highestAttempt (rows : List ProcessingRow) (artifactId : Uuid) : Option Nat :=
  ((rows.filter (·.artifactId == artifactId)).map (·.attempt)).max?

/-- `prior_state`: of the row that is last by `occurred_at` and `id`. -/
def priorState (rows : List ProcessingRow) (artifactId : Uuid) (attempt : Nat) :
    Option ProcessingState :=
  ((attemptRows rows artifactId attempt).argmax ProcessingRow.order).map (·.state)

/-- The transitions the trigger accepts. -/
def processingEdge (prior : Option ProcessingState) (new : ProcessingState) : Bool :=
  (new == .verified && prior == some .quarantined) || (new == .redacted && prior == some .verified) ||
    (new == .failed && (prior == some .quarantined || prior == some .verified))

/-- `netops_validate_artifact_processing_event`. -/
def validateArtifactProcessingEvent (rows : List ProcessingRow) (new : ProcessingRow) :
    Except DbError Unit :=
  if new.state = .quarantined then
    match highestAttempt rows new.artifactId with
    | none => need (.trigger (py "first artifact processing attempt must be 1")) (new.attempt == 1)
    | some highest =>
      need (.trigger (py "new artifact processing attempts must increment by one"))
        (new.attempt == highest + 1)
  else if highestAttempt rows new.artifactId ≠ some new.attempt then
    .error (.trigger (py "artifact processing state requires an active quarantined attempt"))
  else
    let prior := priorState rows new.artifactId new.attempt
    need (.trigger (py "invalid artifact processing transition from " ++
        (prior.elim [] ProcessingState.value) ++ py " to " ++ new.state.value))
      (processingEdge prior new.state)

/-- The trigger, the CHECK constraints and the unique constraints accept a row. -/
def acceptProcessingEvent (rows : List ProcessingRow) (new : ProcessingRow) : Except DbError Unit := do
  validateArtifactProcessingEvent rows new
  need (.check (py "artifact_processing_events")) new.checks
  need (.unique (py "artifact_processing_events_pkey")) (!rows.any fun r => r.id == new.id)
  need (.unique (py "uq_artifact_processing_events_state_once"))
    (!rows.any fun r => r.artifactId == new.artifactId && r.attempt == new.attempt &&
      r.state == new.state)

/-! ### What acceptance says -/

section

variable {rows : List ProcessingRow} {new : ProcessingRow}

theorem validate_of_accept (h : acceptProcessingEvent rows new = .ok ()) :
    validateArtifactProcessingEvent rows new = .ok () := by
  obtain ⟨_, hvalid, -⟩ := Raising.bind_ok h
  exact hvalid

theorem attemptRows_snoc (artifactId : Uuid) (attempt : Nat) :
    attemptRows (rows ++ [new]) artifactId attempt = attemptRows rows artifactId attempt ++
      if new.artifactId = artifactId ∧ new.attempt = attempt then [new] else [] := by
  rw [attemptRows, List.filter_append]
  by_cases h : new.artifactId = artifactId ∧ new.attempt = attempt
  · obtain ⟨rfl, rfl⟩ := h
    simp [attemptRows]
  · rw [if_neg h]
    have hskip : (new.artifactId == artifactId && new.attempt == attempt) = false := by
      rw [Bool.eq_false_iff]
      simpa using h
    simp [attemptRows, hskip]

/-- No row has an attempt above the highest. -/
theorem attemptRows_above {artifactId : Uuid} {attempt : Nat}
    (h : ∀ highest ∈ highestAttempt rows artifactId, highest < attempt) :
    attemptRows rows artifactId attempt = [] := by
  rw [attemptRows, List.filter_eq_nil_iff]
  intro r hr hattempt
  simp only [Bool.and_eq_true, beq_iff_eq] at hattempt
  have hmem : attempt ∈ (rows.filter (·.artifactId == artifactId)).map (·.attempt) :=
    List.mem_map.mpr ⟨r, List.mem_filter.mpr ⟨hr, by simpa using hattempt.1⟩, hattempt.2⟩
  cases hmax : highestAttempt rows artifactId with
  | none =>
    rw [highestAttempt, List.max?_eq_none_iff] at hmax
    rw [hmax] at hmem
    cases hmem
  | some highest =>
    have hle : attempt ≤ highest := (List.max?_eq_some_iff.mp hmax).2 attempt hmem
    exact absurd (h highest hmax) (by omega)

/-- A first row starts its attempt. -/
theorem attemptRows_of_quarantined (h : acceptProcessingEvent rows new = .ok ())
    (hstate : new.state = .quarantined) : attemptRows rows new.artifactId new.attempt = [] := by
  have hvalid := validate_of_accept h
  rw [validateArtifactProcessingEvent, if_pos hstate] at hvalid
  refine attemptRows_above fun highest hhighest => ?_
  rw [hhighest] at hvalid
  have hnext := need_ok hvalid
  rw [beq_iff_eq] at hnext
  omega

/-- Any other row takes an edge from the state of the last row. -/
theorem edge_of_accept (h : acceptProcessingEvent rows new = .ok ())
    (hstate : new.state ≠ .quarantined) :
    highestAttempt rows new.artifactId = some new.attempt ∧
      processingEdge (priorState rows new.artifactId new.attempt) new.state = true := by
  have hvalid := validate_of_accept h
  rw [validateArtifactProcessingEvent, if_neg hstate] at hvalid
  split_ifs at hvalid with hhighest
  exact ⟨not_not.mp hhighest, need_ok hvalid⟩

end

end NetopsCopilot
