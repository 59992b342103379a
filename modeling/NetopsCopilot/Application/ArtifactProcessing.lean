import NetopsCopilot.Postgres.ProcessingLedger

/-!
# Scan outcomes (`netops_api/application/artifact_processing.py`) and the ledger

`record_scan_outcome` reads the active attempt in one statement and inserts its verdict in another. The
ledger is written by it and by other writers, at any times: a run is a list of events, and an insert
happens when its constraints accept it.

Trigger and repository take the row with the greatest `occurred_at` and `id` for the latest one. It is if
every row comes after those of its attempt in that order, and a verdict is inserted on the rows its
statement read (`Orderly`). Then the states of an attempt form one of the intended paths, and a verdict is
the first of its attempt (`orderly_conforms`); a clock that runs behind is enough to break both
(`skewed_clock`).
-/

namespace NetopsCopilot

/-! ### Commands -/

/-- `_SAFE_CODE`. -/
def safeCode (s : PyStr) : Bool :=
  let lower := py "abcdefghijklmnopqrstuvwxyz0123456789"
  s.head?.any (fun c => decide (c ∈ lower)) && s.all (fun c => decide (c ∈ lower ++ py "._:-")) &&
    decide (s.length ≤ 128)

/-- `ArtifactScanDisposition`. -/
inductive ArtifactScanDisposition where
  | clean | rejected | unavailable
deriving DecidableEq, Repr

/-- `RecordArtifactScanOutcome`, with the codes its `__post_init__` checks. -/
structure RecordArtifactScanOutcome where
  artifactId : Uuid
  disposition : ArtifactScanDisposition
  reasonCode : PyStr
  processor : PyStr
  processorVersion : PyStr
  occurredAt : Instant
  codesOk : safeCode reasonCode = true ∧ safeCode processor = true ∧ safeCode processorVersion = true

/-- `_SELECT_ACTIVE_QUARANTINED_ATTEMPT`: `ORDER BY attempt DESC, occurred_at DESC, id DESC LIMIT 1`. -/
def selectActiveAttempt (rows : List ProcessingRow) (organizationId artifactId : Uuid) :
    Option ProcessingRow :=
  (rows.filter fun r => r.organizationId == organizationId && r.artifactId == artifactId).argmax
    fun r => toLex (r.attempt, r.order)

/-- The state of a verdict. -/
def ArtifactScanDisposition.state : ArtifactScanDisposition → ProcessingState
  | .clean => .verified
  | .rejected | .unavailable => .failed

/-- The row of `_INSERT_SCAN_OUTCOME`; its id is drawn by the database. -/
def scanOutcomeRow (organizationId : Uuid) (command : RecordArtifactScanOutcome) (active : ProcessingRow)
    (id : Uuid) : ProcessingRow where
  id := id
  organizationId := organizationId
  artifactId := command.artifactId
  attempt := active.attempt
  state := command.disposition.state
  processor := command.processor
  processorVersion := command.processorVersion
  failureCode := if command.disposition.state = .verified then none else some command.reasonCode
  resultSummary := .obj [(py "scanner_checks_completed", .int 1)]
  correlationId := active.correlationId
  createdByActorId := none
  occurredAt := command.occurredAt

/-! ### Runs -/

/-- A `record_scan_outcome` between its statements, with the rows the first one read. -/
structure Recording where
  organizationId : Uuid
  command : RecordArtifactScanOutcome
  active : ProcessingRow
  read : List ProcessingRow

/-- The committed rows in insertion order, the recordings under way, and the verdicts they inserted. -/
structure Ledger where
  rows : List ProcessingRow := []
  recording : ℕ → Option Recording := fun _ => none
  verdicts : List ProcessingRow := []

inductive LedgerEvent where
  /-- An insert of any other writer. -/
  | write (new : ProcessingRow)
  | select (worker : ℕ) (organizationId : Uuid) (command : RecordArtifactScanOutcome)
  | record (worker : ℕ) (id : Uuid)
  | abandon (worker : ℕ)

section

-- the organization an artifact belongs to, for the foreign key, and whether the worker's role holds the
-- UPDATE privilege that `FOR UPDATE` needs (the migration grants `netops_app` SELECT and INSERT only)
variable (owner : Uuid → Option Uuid) (mayLock : Bool)

/-- The constraints accept a row. -/
def admits (rows : List ProcessingRow) (new : ProcessingRow) : Bool :=
  decide (acceptProcessingEvent rows new = .ok ()) &&
    decide (owner new.artifactId = some new.organizationId)

/-- One event; `none` when it is refused. -/
def Ledger.step (s : Ledger) : LedgerEvent → Option Ledger
  | .write new => if admits owner s.rows new then some { s with rows := s.rows ++ [new] } else none
  | .select worker organizationId command =>
    match selectActiveAttempt s.rows organizationId command.artifactId with
    | some active =>
      if mayLock = true ∧ active.state = .quarantined then
        let started : Recording := ⟨organizationId, command, active, s.rows⟩
        some { s with recording := Function.update s.recording worker (some started) }
      else none
    | none => none
  | .record worker id =>
    match s.recording worker with
    | some r =>
      let new := scanOutcomeRow r.organizationId r.command r.active id
      if admits owner s.rows new then
        some { rows := s.rows ++ [new], recording := Function.update s.recording worker none,
               verdicts := s.verdicts ++ [new] }
      else none
    | none => none
  | .abandon worker => some { s with recording := Function.update s.recording worker none }

/-- The ledgers that runs of events satisfying `ok` lead to. -/
inductive LedgerRun (ok : Ledger → LedgerEvent → Prop) : Ledger → Prop where
  | start : LedgerRun ok {}
  | step {s s' : Ledger} {e : LedgerEvent} (h : LedgerRun ok s) (hok : ok s e)
      (hs : s.step owner mayLock e = some s') : LedgerRun ok s'

end

/-! ### What is intended -/

/-- The paths an attempt may take. -/
def processingPaths : List (List ProcessingState) :=
  [[.quarantined, .verified, .redacted], [.quarantined, .failed], [.quarantined, .verified, .failed]]

/-- The states of an attempt so far. -/
def OnPath (states : List ProcessingState) : Prop := ∃ path ∈ processingPaths, states <+: path

/-- Every attempt is on a path, and a recorded verdict is the first row after the quarantined one. -/
structure Conforms (s : Ledger) : Prop where
  path : ∀ artifactId attempt, OnPath ((attemptRows s.rows artifactId attempt).map (·.state))
  verdict : ∀ v ∈ s.verdicts, ∃ q, q.state = .quarantined ∧
    (attemptRows s.rows v.artifactId v.attempt).take 2 = [q, v]

/-- A row comes after the rows of its attempt by `occurred_at` and `id`. -/
def Later (rows : List ProcessingRow) (new : ProcessingRow) : Prop :=
  ∀ r ∈ attemptRows rows new.artifactId new.attempt, r.order < new.order

/-- Events on which trigger and repository see the latest row. -/
def Orderly (s : Ledger) : LedgerEvent → Prop
  | .write new => Later s.rows new
  | .record worker id => ∀ r ∈ s.recording worker,
      Later s.rows (scanOutcomeRow r.organizationId r.command r.active id) ∧
        attemptRows s.rows r.command.artifactId r.active.attempt =
          attemptRows r.read r.command.artifactId r.active.attempt
  | .select _ _ _ | .abandon _ => True

/-! ### Orderly runs -/

theorem onPath_iff {states : List ProcessingState} :
    OnPath states ↔ states ∈ processingPaths.flatMap List.inits := by
  simp only [OnPath, List.mem_flatMap, List.mem_inits]

/-- An accepted edge from the last state stays on a path. -/
theorem OnPath.snoc {states : List ProcessingState} {new : ProcessingState} (h : OnPath states)
    (hedge : processingEdge states.getLast? new = true) : OnPath (states ++ [new]) := by
  have hall : ∀ states ∈ processingPaths.flatMap List.inits,
      ∀ new ∈ [ProcessingState.quarantined, .verified, .redacted, .failed],
        processingEdge states.getLast? new = true →
          states ++ [new] ∈ processingPaths.flatMap List.inits := by
    decide
  exact onPath_iff.mpr (hall states (onPath_iff.mp h) new (by cases new <;> simp) hedge)

/-- In rows inserted in order the last one is the latest. -/
theorem argmax_of_sorted {rows : List ProcessingRow} (h : rows.Pairwise fun a b => a.order < b.order) :
    rows.argmax ProcessingRow.order = rows.getLast? := by
  induction rows using List.reverseRecOn with
  | nil => rfl
  | append_singleton rows r ih =>
    rw [List.pairwise_append] at h
    rw [List.argmax_concat, List.getLast?_concat]
    cases hmax : rows.argmax ProcessingRow.order with
    | none => rfl
    | some m =>
      have hlt : m.order < r.order := h.2.2 m (List.argmax_mem hmax) r List.mem_cons_self
      simp only [if_pos hlt]

/-- The rows of an orderly run. -/
structure OrderlyRows (owner : Uuid → Option Uuid) (rows : List ProcessingRow) : Prop where
  owned : ∀ r ∈ rows, owner r.artifactId = some r.organizationId
  sorted : ∀ artifactId attempt,
    (attemptRows rows artifactId attempt).Pairwise fun a b => a.order < b.order
  path : ∀ artifactId attempt, OnPath ((attemptRows rows artifactId attempt).map (·.state))

section

variable {owner : Uuid → Option Uuid} {mayLock : Bool} {rows : List ProcessingRow} {new : ProcessingRow}

theorem admits_iff : admits owner rows new = true ↔
    acceptProcessingEvent rows new = .ok () ∧ owner new.artifactId = some new.organizationId := by
  simp [admits]

theorem OrderlyRows.priorState_eq (h : OrderlyRows owner rows) (artifactId : Uuid) (attempt : Nat) :
    priorState rows artifactId attempt =
      ((attemptRows rows artifactId attempt).map (·.state)).getLast? := by
  rw [priorState, argmax_of_sorted (h.sorted artifactId attempt), List.getLast?_map]

theorem OrderlyRows.snoc (h : OrderlyRows owner rows) (hnew : admits owner rows new = true)
    (hlater : Later rows new) : OrderlyRows owner (rows ++ [new]) := by
  obtain ⟨haccept, howner⟩ := admits_iff.mp hnew
  refine ⟨fun r hr => ?_, fun artifactId attempt => ?_, fun artifactId attempt => ?_⟩
  · rcases List.mem_append.mp hr with hr | hr
    · exact h.owned r hr
    · rw [List.mem_singleton.mp hr]
      exact howner
  · rw [attemptRows_snoc]
    split_ifs with hsame
    · obtain ⟨rfl, rfl⟩ := hsame
      rw [List.pairwise_append]
      refine ⟨h.sorted _ _, List.pairwise_singleton _ _, fun r hr r' hr' => ?_⟩
      rw [List.mem_singleton.mp hr']
      exact hlater r hr
    · rw [List.append_nil]
      exact h.sorted _ _
  · rw [attemptRows_snoc]
    split_ifs with hsame
    · obtain ⟨rfl, rfl⟩ := hsame
      rw [List.map_append, List.map_singleton]
      by_cases hstate : new.state = .quarantined
      · rw [attemptRows_of_quarantined haccept hstate, hstate]
        exact onPath_iff.mpr (by decide)
      · refine (h.path _ _).snoc ?_
        rw [← h.priorState_eq]
        exact (edge_of_accept haccept hstate).2
    · rw [List.append_nil]
      exact h.path _ _

/-- The active attempt is the latest row of its artifact's highest attempt. -/
theorem OrderlyRows.active (h : OrderlyRows owner rows) {organizationId artifactId : Uuid}
    {active : ProcessingRow} (hactive : selectActiveAttempt rows organizationId artifactId = some active) :
    active.artifactId = artifactId ∧
      (attemptRows rows artifactId active.attempt).getLast? = some active := by
  have hmem := List.argmax_mem hactive
  simp only [List.mem_filter, Bool.and_eq_true, beq_iff_eq] at hmem
  obtain ⟨hrow, horg, rfl⟩ := hmem
  refine ⟨rfl, ?_⟩
  have hin : active ∈ attemptRows rows active.artifactId active.attempt := by
    simp [attemptRows, hrow]
  rw [← argmax_of_sorted (h.sorted _ _)]
  cases hmax : (attemptRows rows active.artifactId active.attempt).argmax ProcessingRow.order with
  | none =>
    rw [List.argmax_eq_none] at hmax
    rw [hmax] at hin
    cases hin
  | some m =>
    have hm := List.argmax_mem hmax
    have hm' := hm
    simp only [attemptRows, List.mem_filter, Bool.and_eq_true, beq_iff_eq] at hm'
    obtain ⟨hmrow, hmartifact, hmattempt⟩ := hm'
    -- the foreign key puts all rows of an artifact into one organization
    have hmorg : m.organizationId = active.organizationId := by
      have hown := h.owned m hmrow
      rw [hmartifact, h.owned active hrow, Option.some.injEq] at hown
      exact hown.symm
    have hle := List.le_of_mem_argmax (f := fun r : ProcessingRow => toLex (r.attempt, r.order))
      (List.mem_filter.mpr ⟨hmrow, by simp [hmorg, hmartifact, horg]⟩) hactive
    have hge : active.order ≤ m.order := List.le_of_mem_argmax hin hmax
    have hle' : m.order ≤ active.order := by
      rcases Prod.Lex.le_iff.mp hle with hlt | ⟨-, hle⟩
      · exact absurd hmattempt (ne_of_lt hlt)
      · exact hle
    have hnodup : ((attemptRows rows active.artifactId active.attempt).map (·.order)).Nodup :=
      List.pairwise_map.mpr ((h.sorted _ _).imp ne_of_lt)
    rw [List.inj_on_of_nodup_map hnodup hm hin (le_antisymm hle' hge)]

/-- A recording has read the active attempt of an orderly ledger. -/
structure Recording.Sound (owner : Uuid → Option Uuid) (r : Recording) : Prop where
  read : OrderlyRows owner r.read
  active : selectActiveAttempt r.read r.organizationId r.command.artifactId = some r.active
  state : r.active.state = .quarantined

/-- The invariant of orderly runs. -/
structure LedgerInv (owner : Uuid → Option Uuid) (s : Ledger) : Prop where
  rows : OrderlyRows owner s.rows
  verdict : ∀ v ∈ s.verdicts, ∃ q, q.state = .quarantined ∧
    (attemptRows s.rows v.artifactId v.attempt).take 2 = [q, v]
  recording : ∀ worker, ∀ r ∈ s.recording worker, r.Sound owner

/-- Replacing one recording. -/
theorem sound_update {f : ℕ → Option Recording} (h : ∀ worker, ∀ r ∈ f worker, r.Sound owner)
    (worker : ℕ) {new : Option Recording} (hnew : ∀ r ∈ new, r.Sound owner) :
    ∀ worker', ∀ r ∈ Function.update f worker new worker', r.Sound owner := by
  intro worker' r hr
  by_cases hw : worker' = worker
  · subst hw
    rw [Function.update_self] at hr
    exact hnew r hr
  · rw [Function.update_of_ne hw] at hr
    exact h worker' r hr

/-- A verdict stays the second row of its attempt. -/
theorem take_two_snoc {v : ProcessingRow} {q : ProcessingRow}
    (h : (attemptRows rows v.artifactId v.attempt).take 2 = [q, v]) :
    (attemptRows (rows ++ [new]) v.artifactId v.attempt).take 2 = [q, v] := by
  have hlen : 2 ≤ (attemptRows rows v.artifactId v.attempt).length := by
    have := congrArg List.length h
    simp only [List.length_take, List.length_cons, List.length_nil] at this
    omega
  rw [attemptRows_snoc, List.take_append_of_le_length hlen, h]

/-- The rows an orderly verdict is inserted on: the quarantined row alone. -/
theorem OrderlyRows.quarantined (h : OrderlyRows owner rows) {organizationId artifactId : Uuid}
    {active : ProcessingRow} (hactive : selectActiveAttempt rows organizationId artifactId = some active)
    (hstate : active.state = .quarantined) :
    attemptRows rows artifactId active.attempt = [active] := by
  obtain ⟨-, hlast⟩ := h.active hactive
  obtain ⟨before, hrows⟩ := List.getLast?_eq_some_iff.mp hlast
  have hpath := onPath_iff.mp (h.path artifactId active.attempt)
  rw [hrows, List.map_append, List.map_singleton, hstate] at hpath
  have hall : ∀ states ∈ processingPaths.flatMap List.inits,
      states.getLast? = some .quarantined → states = [.quarantined] := by
    decide
  have hone := hall _ hpath List.getLast?_concat
  have hnil : before.map (·.state) = [] := by
    have hlen := congrArg List.length hone
    simp only [List.length_append, List.length_map, List.length_singleton] at hlen
    exact List.map_eq_nil_iff.mpr (List.length_eq_zero_iff.mp (by omega))
  rw [hrows, List.map_eq_nil_iff.mp hnil, List.nil_append]

/-- An orderly event keeps the invariant. -/
theorem LedgerInv.step {s s' : Ledger} (h : LedgerInv owner s) {e : LedgerEvent} (hok : Orderly s e)
    (hs : s.step owner mayLock e = some s') : LedgerInv owner s' := by
  cases e with
  | write new =>
    simp only [Ledger.step] at hs
    split_ifs at hs with hnew
    cases hs
    refine ⟨h.rows.snoc hnew hok, fun v hv => ?_, h.recording⟩
    obtain ⟨q, hq, htake⟩ := h.verdict v hv
    exact ⟨q, hq, take_two_snoc htake⟩
  | select worker organizationId command =>
    simp only [Ledger.step] at hs
    split at hs
    next active hactive =>
      split_ifs at hs with hstate
      cases hs
      refine ⟨h.rows, h.verdict, sound_update h.recording worker ?_⟩
      rintro r ⟨⟩
      exact ⟨h.rows, hactive, hstate.2⟩
    next => cases hs
  | record worker id =>
    simp only [Ledger.step] at hs
    split at hs
    next r hr =>
      split_ifs at hs with hnew
      cases hs
      obtain ⟨hlater, hsame⟩ := hok r hr
      obtain ⟨hread, hactive, hstate⟩ := h.recording worker r hr
      have hfirst := hread.quarantined hactive hstate
      rw [← hsame] at hfirst
      refine ⟨h.rows.snoc hnew hlater, fun v hv => ?_, sound_update h.recording worker nofun⟩
      · rcases List.mem_append.mp hv with hv | hv
        · obtain ⟨q, hq, htake⟩ := h.verdict v hv
          exact ⟨q, hq, take_two_snoc htake⟩
        · rw [List.mem_singleton.mp hv]
          refine ⟨r.active, hstate, ?_⟩
          rw [attemptRows_snoc, if_pos ⟨rfl, rfl⟩]
          change (attemptRows s.rows r.command.artifactId r.active.attempt ++ _).take 2 = _
          rw [hfirst]
          rfl
    next => cases hs
  | abandon worker =>
    simp only [Ledger.step, Option.some.injEq] at hs
    subst hs
    exact ⟨h.rows, h.verdict, sound_update h.recording worker nofun⟩

theorem LedgerRun.inv {s : Ledger} (h : LedgerRun owner mayLock Orderly s) : LedgerInv owner s := by
  induction h with
  | start =>
    have hnil : OnPath [] := onPath_iff.mpr (by decide)
    exact ⟨⟨nofun, fun _ _ => .nil, fun _ _ => hnil⟩, nofun, nofun⟩
  | step _ hok hs ih => exact ih.step hok hs

end

/-- **Orderly runs conform**: attempts take the intended paths, and a recorded verdict is the first. -/
theorem orderly_conforms {owner : Uuid → Option Uuid} {mayLock : Bool} {s : Ledger}
    (h : LedgerRun owner mayLock Orderly s) : Conforms s := ⟨h.inv.rows.path, h.inv.verdict⟩

/-! ### Sample runs -/

/-- The organization of the sample artifact. -/
def sampleOwner (artifactId : Uuid) : Option Uuid := if artifactId = 1 then some 7 else none

/-- The first row of the sample artifact, at time 10. -/
def sampleQuarantined : ProcessingRow where
  id := 20
  organizationId := 7
  artifactId := 1
  attempt := 1
  state := .quarantined
  processor := py "artifact-upload-verifier"
  processorVersion := py "v1"
  failureCode := none
  resultSummary := .obj [(py "metadata_verified", .bool true)]
  correlationId := 12
  createdByActorId := none
  occurredAt := 10

/-- A verdict on the sample artifact. -/
def sampleOutcome (disposition : ArtifactScanDisposition) (occurredAt : Instant) :
    RecordArtifactScanOutcome where
  artifactId := 1
  disposition := disposition
  reasonCode := py "scan.verdict"
  processor := py "clamav"
  processorVersion := py "1.4.2"
  occurredAt := occurredAt
  codesOk := by decide

/-- A verdict row of some other writer. -/
def sampleRow (state : ProcessingState) (id : Uuid) (occurredAt : Instant) : ProcessingRow :=
  { sampleQuarantined with
    id := id
    state := state
    failureCode := if state = .failed then some (py "scan.verdict") else none
    occurredAt := occurredAt }

/-- The events of a list, one after the other. -/
def Ledger.replay (owner : Uuid → Option Uuid) (mayLock : Bool) (s : Ledger)
    (events : List LedgerEvent) : Option Ledger := events.foldlM (Ledger.step owner mayLock) s

theorem LedgerRun.replay {owner : Uuid → Option Uuid} {mayLock : Bool} {s s' : Ledger}
    {events : List LedgerEvent} (h : LedgerRun owner mayLock (fun _ _ => True) s)
    (hs : s.replay owner mayLock events = some s') :
    LedgerRun owner mayLock (fun _ _ => True) s' := by
  induction events generalizing s with
  | nil =>
    cases hs
    exact h
  | cons e events ih =>
    obtain ⟨s₁, hstep, hrest⟩ := Option.bind_eq_some_iff.mp hs
    exact ih (h.step trivial hstep) hrest

/-- A writer whose clock is behind inserts `failed`, and `verified` is then accepted; with a role that may
lock, two workers record the two as verdicts. -/
theorem skewed_clock :
    (∃ s, LedgerRun sampleOwner false (fun _ _ => True) s ∧
      (attemptRows s.rows 1 1).map (·.state) = [.quarantined, .failed, .verified] ∧ ¬Conforms s) ∧
    ∃ s, LedgerRun sampleOwner true (fun _ _ => True) s ∧
      (attemptRows s.rows 1 1).map (·.state) = [.quarantined, .failed, .verified] ∧
      s.verdicts.length = 2 ∧ ¬Conforms s := by
  have hoff : ∀ s : Ledger,
      (attemptRows s.rows 1 1).map (·.state) = [.quarantined, .failed, .verified] → ¬Conforms s := by
    intro s hstates h
    have hpath := onPath_iff.mp (h.path 1 1)
    rw [hstates] at hpath
    exact absurd hpath (by decide)
  have hwrites : (({} : Ledger).replay sampleOwner false [.write sampleQuarantined,
      .write (sampleRow .failed 21 5), .write (sampleRow .verified 22 7)]).map (fun s =>
        (attemptRows s.rows 1 1).map (·.state)) = some [.quarantined, .failed, .verified] := by
    decide +kernel
  have hrecords : (({} : Ledger).replay sampleOwner true [.write sampleQuarantined,
      .select 0 7 (sampleOutcome .rejected 5), .record 0 30,
      .select 1 7 (sampleOutcome .clean 7), .record 1 31]).map (fun s =>
        ((attemptRows s.rows 1 1).map (·.state), s.verdicts.length)) =
          some ([.quarantined, .failed, .verified], 2) := by
    decide +kernel
  refine ⟨?_, ?_⟩
  · obtain ⟨s, hs, hstates⟩ := Option.map_eq_some_iff.mp hwrites
    exact ⟨s, LedgerRun.start.replay hs, hstates, hoff s hstates⟩
  · obtain ⟨s, hs, hstates⟩ := Option.map_eq_some_iff.mp hrecords
    rw [Prod.mk.injEq] at hstates
    exact ⟨s, LedgerRun.start.replay hs, hstates.1, hstates.2, hoff s hstates.1⟩

/-- The verdict of a worker whose clock is ahead. -/
def sampleRecording : Recording :=
  ⟨7, sampleOutcome .clean 15, sampleQuarantined, [sampleQuarantined]⟩

/-- The ledger just before that verdict is inserted. -/
def sampleLedger : Ledger :=
  { rows := [sampleQuarantined]
    recording := Function.update (fun _ => none) 0 (some sampleRecording) }

theorem orderly_conforms_sample : ∃ s, Conforms s ∧
    (attemptRows s.rows 1 1).map (·.state) = [.quarantined, .verified] ∧ s.verdicts.length = 1 := by
  have hadmits : admits sampleOwner [] sampleQuarantined = true := by decide +kernel
  have hwrite : Ledger.step sampleOwner true {} (.write sampleQuarantined) =
      some { rows := [sampleQuarantined] } := by
    simp only [Ledger.step, hadmits, if_true, List.nil_append]
  have hselect : Ledger.step sampleOwner true { rows := [sampleQuarantined] }
      (.select 0 7 (sampleOutcome .clean 15)) = some sampleLedger := rfl
  have hrecord : (sampleLedger.step sampleOwner true (.record 0 30)).isSome = true := by
    decide +kernel
  obtain ⟨s, hs⟩ := Option.isSome_iff_exists.mp hrecord
  have horderly : Orderly sampleLedger (.record 0 30) := by
    rintro r ⟨⟩
    exact ⟨by unfold Later; decide +kernel, rfl⟩
  have hrun : LedgerRun sampleOwner true Orderly s :=
    ((LedgerRun.start.step nofun hwrite).step trivial hselect).step horderly hs
  have hrows : (sampleLedger.step sampleOwner true (.record 0 30)).map (fun s =>
      ((attemptRows s.rows 1 1).map (·.state), s.verdicts.length)) =
        some ([.quarantined, .verified], 1) := by
    decide +kernel
  rw [hs, Option.map_some, Option.some_inj, Prod.mk.injEq] at hrows
  exact ⟨s, orderly_conforms hrun, hrows.1, hrows.2⟩

end NetopsCopilot
