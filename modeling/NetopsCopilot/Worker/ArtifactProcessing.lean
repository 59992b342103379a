import NetopsCopilot.Application.ArtifactProcessing

/-!
# The worker records a verdict (`netops_worker/artifact_processing_persistence.py`)

`record` builds the command of a scan result and runs `record_scan_outcome` in a transaction of its own, as
a role with some privileges on the ledger. The migration grants `netops_app` SELECT and INSERT. The
statement that looks for the active attempt locks it with `FOR UPDATE`, for which PostgreSQL asks UPDATE as
well, so as `netops_app` no verdict is ever recorded (`record_refused`).

With that privilege the three spellings of a safe code would decide (`record_granted_iff`): a code may begin
with a mark in the worker only, and may hold a colon everywhere but in the CHECK of `failure_code`.
-/

namespace NetopsCopilot

/-! ### The worker's records -/

/-- `_validate_safe_code`. -/
def validateSafeCode (s : PyStr) : Bool :=
  decide (1 ≤ s.length) && decide (s.length ≤ 128) && decide (strip s = s) &&
    s.all fun c => decide (c ∈ py "abcdefghijklmnopqrstuvwxyz0123456789._:-")

/-- `ScanResult`; its dispositions are those of the ledger. -/
structure ScanResult where
  disposition : ArtifactScanDisposition
  reasonCode : PyStr
  reasonCodeOk : validateSafeCode reasonCode = true

/-- `ArtifactProcessingResult`, without the redaction, which the ledger does not keep. -/
structure ArtifactProcessingResult where
  artifactId : Uuid
  scan : ScanResult

/-- The fields of an `ArtifactProcessingJob` that select the ledger's rows. -/
structure ArtifactProcessingJob where
  organizationId : Uuid
  artifactId : Uuid

/-- `ArtifactProcessingPersistence`: the codes of the processor. -/
structure ArtifactProcessingPersistence where
  processor : PyStr
  processorVersion : PyStr

/-! ### The command and its transaction -/

/-- What recording a verdict raises. -/
inductive RecordError where
  | valueError (message : PyStr)
  | permissionDenied
  | stateConflict (artifactId : Uuid)
  | db (e : DbError)
deriving DecidableEq

/-- The message about an unsafe code. -/
def unsafeCode (field : String) : RecordError :=
  .valueError (py field ++ py " must be a 1 to 128 character safe code.")

/-- `RecordArtifactScanOutcome(...)` with its `__post_init__`; the worker's clock is in UTC. -/
def RecordArtifactScanOutcome.make (artifactId : Uuid) (disposition : ArtifactScanDisposition)
    (reasonCode processor processorVersion : PyStr) (occurredAt : Instant) :
    Except RecordError RecordArtifactScanOutcome :=
  if hr : safeCode reasonCode = true then
    if hp : safeCode processor = true then
      if hv : safeCode processorVersion = true then
        .ok { artifactId := artifactId, disposition := disposition, reasonCode := reasonCode,
              processor := processor, processorVersion := processorVersion, occurredAt := occurredAt,
              codesOk := ⟨hr, hp, hv⟩ }
      else .error (unsafeCode "processor_version")
    else .error (unsafeCode "processor")
  else .error (unsafeCode "reason_code")

/-- `RecordedArtifactScanOutcome`. -/
structure RecordedArtifactScanOutcome where
  artifactId : Uuid
  attempt : Nat
  state : ProcessingState
  occurredAt : Instant
deriving DecidableEq

/-- A privilege on a table. -/
inductive Privilege where
  | select | insert | update
deriving DecidableEq, Repr

/-- What migration 05 grants `netops_app` on `artifact_processing_events`. -/
def ledgerGrants : List Privilege := [.select, .insert]

section

-- the organization an artifact belongs to, and the privileges of the role
variable (owner : Uuid → Option Uuid) (grants : List Privilege)

/-- The ledger accepts a row of an artifact. -/
def insertScanOutcome (rows : List ProcessingRow) (new : ProcessingRow) : Except RecordError Unit := do
  (acceptProcessingEvent rows new).mapError .db
  if owner new.artifactId = some new.organizationId then .ok ()
  else .error (.db (.foreignKey (py "artifacts")))

/-- `record_scan_outcome` alone in its transaction, with the id the database draws: the ledger it commits
and its result. -/
def recordScanOutcome (rows : List ProcessingRow) (organizationId : Uuid)
    (command : RecordArtifactScanOutcome) (id : Uuid) :
    Except RecordError (List ProcessingRow × RecordedArtifactScanOutcome) :=
  -- `FOR UPDATE` needs UPDATE besides SELECT
  if .select ∉ grants ∨ .update ∉ grants then .error .permissionDenied
  else match selectActiveAttempt rows organizationId command.artifactId with
    | none => .error (.stateConflict command.artifactId)
    | some active =>
      if active.state ≠ .quarantined then .error (.stateConflict command.artifactId)
      else if .insert ∉ grants then .error .permissionDenied
      else (insertScanOutcome owner rows (scanOutcomeRow organizationId command active id)).map fun _ =>
        (rows ++ [scanOutcomeRow organizationId command active id],
          ⟨command.artifactId, active.attempt, command.disposition.state, command.occurredAt⟩)

/-- `ArtifactProcessingPersistence.record`. -/
def ArtifactProcessingPersistence.record (p : ArtifactProcessingPersistence) (rows : List ProcessingRow)
    (job : ArtifactProcessingJob) (result : ArtifactProcessingResult) (occurredAt : Instant) (id : Uuid) :
    Except RecordError (List ProcessingRow × RecordedArtifactScanOutcome) :=
  if result.artifactId ≠ job.artifactId then
    .error (.valueError (py "Processing result artifact does not match its job."))
  else do
    let command ← RecordArtifactScanOutcome.make job.artifactId result.scan.disposition
      result.scan.reasonCode p.processor p.processorVersion occurredAt
    recordScanOutcome owner grants rows job.organizationId command id

end

section

variable {owner : Uuid → Option Uuid} {grants : List Privilege} {rows : List ProcessingRow}

theorem insertScanOutcome_ok {new : ProcessingRow} :
    insertScanOutcome owner rows new = .ok () ↔ admits owner rows new = true := by
  rw [admits_iff, insertScanOutcome]
  cases acceptProcessingEvent rows new with
  | error e => exact ⟨nofun, fun h => nomatch h.1⟩
  | ok _ =>
    change (if owner new.artifactId = some new.organizationId then Except.ok () else _) = _ ↔ _
    split_ifs with howner
    · exact ⟨fun _ => ⟨rfl, howner⟩, fun _ => rfl⟩
    · exact ⟨nofun, fun h => absurd h.2 howner⟩

/-- What a recorded verdict has found. -/
theorem recordScanOutcome_ok {organizationId id : Uuid} {command : RecordArtifactScanOutcome}
    {out : List ProcessingRow × RecordedArtifactScanOutcome} :
    recordScanOutcome owner grants rows organizationId command id = .ok out ↔
      (.select ∈ grants ∧ .update ∈ grants ∧ .insert ∈ grants) ∧
      ∃ active, selectActiveAttempt rows organizationId command.artifactId = some active ∧
        active.state = .quarantined ∧
        admits owner rows (scanOutcomeRow organizationId command active id) = true ∧
        out = (rows ++ [scanOutcomeRow organizationId command active id],
          ⟨command.artifactId, active.attempt, command.disposition.state, command.occurredAt⟩) := by
  unfold recordScanOutcome
  cases selectActiveAttempt rows organizationId command.artifactId with
  | none => grind
  | some active =>
    simp only [← insertScanOutcome_ok, Option.some.injEq, exists_eq_left']
    cases insertScanOutcome owner rows (scanOutcomeRow organizationId command active id) with
    | error e => grind [Except.map]
    | ok u => grind [Except.map]

/-- A recorded verdict is two events of the ledger. -/
theorem step_of_recordScanOutcome {organizationId id : Uuid} {command : RecordArtifactScanOutcome}
    {out : List ProcessingRow × RecordedArtifactScanOutcome}
    (h : recordScanOutcome owner grants rows organizationId command id = .ok out) (worker : ℕ) :
    ∃ s s' : Ledger, ({ rows := rows } : Ledger).step owner (decide (.update ∈ grants))
        (.select worker organizationId command) = some s ∧
      s.step owner (decide (.update ∈ grants)) (.record worker id) = some s' ∧ s'.rows = out.1 := by
  obtain ⟨⟨-, hupdate, -⟩, active, hactive, hstate, hadmits, rfl⟩ := recordScanOutcome_ok.mp h
  let started : Ledger := ⟨rows, Function.update (fun _ => none) worker
    (some ⟨organizationId, command, active, rows⟩), []⟩
  have hselect : ({ rows := rows } : Ledger).step owner (decide (.update ∈ grants))
      (.select worker organizationId command) = some started := by
    simp only [Ledger.step, hactive, hupdate, hstate, decide_true, and_self, if_true, started]
  have hrecord : started.step owner (decide (.update ∈ grants)) (.record worker id) =
      some ⟨rows ++ [scanOutcomeRow organizationId command active id],
        Function.update started.recording worker none,
        [scanOutcomeRow organizationId command active id]⟩ := by
    simp only [Ledger.step, started, Function.update_self, hadmits, if_true, List.nil_append]
  exact ⟨_, _, hselect, hrecord, rfl⟩

end

/-! ### As `netops_app` -/

/-- **No verdict is recorded**: every call raises, and no transaction of one commits. -/
theorem record_refused (owner : Uuid → Option Uuid) (p : ArtifactProcessingPersistence)
    (rows : List ProcessingRow) (job : ArtifactProcessingJob) (result : ArtifactProcessingResult)
    (occurredAt : Instant) (id : Uuid) :
    ∃ e, p.record owner ledgerGrants rows job result occurredAt id = .error e := by
  unfold ArtifactProcessingPersistence.record
  split_ifs
  · exact ⟨_, rfl⟩
  · cases RecordArtifactScanOutcome.make job.artifactId result.scan.disposition result.scan.reasonCode
        p.processor p.processorVersion occurredAt with
    | error e => exact ⟨e, rfl⟩
    | ok command =>
      change ∃ e, recordScanOutcome owner ledgerGrants rows job.organizationId command id = .error e
      cases hrecord : recordScanOutcome owner ledgerGrants rows job.organizationId command id with
      | error e => exact ⟨e, rfl⟩
      | ok out =>
        obtain ⟨⟨-, hupdate, -⟩, -⟩ := recordScanOutcome_ok.mp hrecord
        exact absurd hupdate (by decide)

/-- A clean scan of the sample artifact. -/
def sampleScan : ArtifactProcessingResult := ⟨1, .clean, py "scan.clean", by decide⟩

/-- The verdict of a clean scan of a quarantined artifact is refused. -/
theorem sampleScan_denied :
    ((⟨py "clamav", py "1.4.2"⟩ : ArtifactProcessingPersistence).record sampleOwner ledgerGrants
      [sampleQuarantined] ⟨7, 1⟩ sampleScan 15 30).map (·.2) = .error .permissionDenied := by
  decide +kernel

/-! ### As a role that may lock -/

section

variable {owner : Uuid → Option Uuid} {rows : List ProcessingRow} {artifactId organizationId : Uuid}
  {active : ProcessingRow}

/-- The quarantined row alone is the highest attempt of its artifact. -/
structure Awaiting (owner : Uuid → Option Uuid) (rows : List ProcessingRow)
    (organizationId artifactId : Uuid) (active : ProcessingRow) : Prop where
  owned : ∀ r ∈ rows, r.artifactId = artifactId → r.organizationId = organizationId
  owner : owner artifactId = some organizationId
  highest : highestAttempt rows artifactId = some active.attempt
  only : attemptRows rows artifactId active.attempt = [active]
  state : active.state = .quarantined
  positive : 1 ≤ active.attempt

/-- It is the active attempt. -/
theorem Awaiting.select (h : Awaiting owner rows organizationId artifactId active) :
    selectActiveAttempt rows organizationId artifactId = some active := by
  have hin : active ∈ attemptRows rows artifactId active.attempt := by
    rw [h.only]
    exact List.mem_cons_self
  obtain ⟨hrow, hactive⟩ := List.mem_filter.mp hin
  simp only [Bool.and_eq_true, beq_iff_eq] at hactive
  have hmem : active ∈ rows.filter fun r => r.organizationId == organizationId && r.artifactId == artifactId :=
    List.mem_filter.mpr ⟨hrow, by simp [h.owned active hrow hactive.1, hactive.1]⟩
  rw [selectActiveAttempt]
  cases hmax : (rows.filter fun r => r.organizationId == organizationId && r.artifactId == artifactId).argmax
      fun r => toLex (r.attempt, r.order) with
  | none =>
    rw [List.argmax_eq_none] at hmax
    rw [hmax] at hmem
    cases hmem
  | some m =>
    obtain ⟨hmrow, hm⟩ := List.mem_filter.mp (List.argmax_mem hmax)
    simp only [Bool.and_eq_true, beq_iff_eq] at hm
    -- no attempt is above the highest, and the highest has one row
    have hle : m.attempt ≤ active.attempt := by
      refine (List.max?_eq_some_iff.mp h.highest).2 m.attempt (List.mem_map.mpr ⟨m, ?_, rfl⟩)
      exact List.mem_filter.mpr ⟨hmrow, by simp [hm.2]⟩
    have hge : active.attempt ≤ m.attempt := by
      have hlex := List.le_of_mem_argmax (f := fun r : ProcessingRow => toLex (r.attempt, r.order)) hmem hmax
      rcases Prod.Lex.le_iff.mp hlex with hlt | ⟨heq, -⟩
      · exact le_of_lt hlt
      · exact le_of_eq heq
    have hsame : m ∈ attemptRows rows artifactId active.attempt :=
      List.mem_filter.mpr ⟨hmrow, by simp [hm.2, le_antisymm hle hge]⟩
    rw [h.only, List.mem_singleton] at hsame
    rw [hsame]

/-- The trigger lets a verdict follow the quarantined row. -/
theorem Awaiting.validates (h : Awaiting owner rows organizationId artifactId active)
    {new : ProcessingRow} (hartifact : new.artifactId = artifactId) (hattempt : new.attempt = active.attempt)
    (hstate : new.state = .verified ∨ new.state = .failed) :
    validateArtifactProcessingEvent rows new = .ok () := by
  have hprior : priorState rows new.artifactId new.attempt = some .quarantined := by
    rw [priorState, hartifact, hattempt, h.only, List.argmax_singleton, Option.map_some, h.state]
  rw [validateArtifactProcessingEvent, hprior, hartifact, hattempt, h.highest]
  rcases hstate with hstate | hstate <;> simp [hstate, processingEdge, need]

end

/-! ### The three spellings of a safe code -/

/-- The letters and digits a safe code may begin with. -/
def codeStart : PyStr := py "abcdefghijklmnopqrstuvwxyz0123456789"

section

variable {s : PyStr}

/-- `_SAFE_CODE`. -/
theorem safeCode_iff : safeCode s = true ↔ (∃ c, s.head? = some c ∧ c ∈ codeStart) ∧
    (∀ c ∈ s, c ∈ codeStart ∨ c ∈ py "._:-") ∧ s.length ≤ 128 := by
  simp [safeCode, codeStart, Option.any_eq_true, and_assoc]

/-- `ck_artifact_processing_events_failure_code`. -/
theorem failureCode_iff : failureCode s = true ↔ (∃ c, s.head? = some c ∧ c ∈ codeStart) ∧
    (∀ c ∈ s, c ∈ codeStart ∨ c ∈ py "_.-") ∧ s.length ≤ 128 := by
  simp [failureCode, codeStart, Option.any_eq_true, and_assoc]

/-- A safe code suits the CHECK unless it has a colon. -/
theorem failureCode_of_safeCode (h : safeCode s = true) : failureCode s = true ↔ 58 ∉ s := by
  obtain ⟨hstart, hall, hlen⟩ := safeCode_iff.mp h
  rw [failureCode_iff]
  constructor
  · rintro ⟨-, hcheck, -⟩ hcolon
    have hnone : (codeStart ++ py "_.-").all (fun d => d != 58) = true := by decide +kernel
    have hne := List.all_eq_true.mp hnone 58 (List.mem_append.mpr (hcheck 58 hcolon))
    exact absurd hne (by decide)
  · intro hcolon
    refine ⟨hstart, fun c hc => (hall c hc).imp_right fun hmark => ?_, hlen⟩
    have hmarks : (py "._:-").all (fun d => d == 58 || (py "_.-").contains d) = true := by
      decide +kernel
    have hcases := List.all_eq_true.mp hmarks c hmark
    simp only [Bool.or_eq_true, beq_iff_eq, List.contains_iff_mem] at hcases
    rcases hcases with rfl | hmark
    · exact absurd hc hcolon
    · exact hmark

/-- A code of the worker is safe unless it begins with a mark. -/
theorem safeCode_of_validate (h : validateSafeCode s = true) :
    safeCode s = true ↔ ∃ c, s.head? = some c ∧ c ∈ codeStart := by
  simp only [validateSafeCode, Bool.and_eq_true, decide_eq_true_eq, List.all_eq_true] at h
  obtain ⟨⟨⟨-, hlen⟩, -⟩, hall⟩ := h
  rw [safeCode_iff]
  refine ⟨fun h => h.1, fun hstart => ⟨hstart, fun c hc => ?_, hlen⟩⟩
  have hset : py "abcdefghijklmnopqrstuvwxyz0123456789._:-" = codeStart ++ py "._:-" := rfl
  have hmem := hall c hc
  rw [hset, List.mem_append] at hmem
  exact hmem

/-- A safe code is a short text. -/
theorem shortText_of_safeCode (h : safeCode s = true) : ProcessingRow.shortText s = true := by
  obtain ⟨⟨c, hhead, hc⟩, -, hlen⟩ := safeCode_iff.mp h
  have hsub : (btrim s).length ≤ s.length :=
    ((List.rdropWhile_prefix _ _).length_le).trans (List.dropWhile_suffix _).length_le
  have hne : btrim s ≠ [] := by
    intro hnil
    have hblank := btrim_eq_nil.mp hnil c (List.mem_of_mem_head? hhead)
    have hnone : codeStart.all (fun d => !d.isBlankChar) = true := by decide +kernel
    have hnot := List.all_eq_true.mp hnone c hc
    rw [hblank] at hnot
    cases hnot
  have hpos := List.length_pos_iff.mpr hne
  simp only [ProcessingRow.shortText, notBlankSql, Bool.and_eq_true, decide_eq_true_eq]
  exact ⟨hpos, hsub.trans hlen⟩

end

/-- The command is built exactly from safe codes. -/
theorem make_ok {artifactId : Uuid} {disposition : ArtifactScanDisposition}
    {reasonCode processor processorVersion : PyStr} {occurredAt : Instant}
    {command : RecordArtifactScanOutcome} :
    RecordArtifactScanOutcome.make artifactId disposition reasonCode processor processorVersion
      occurredAt = .ok command ↔
    command.artifactId = artifactId ∧ command.disposition = disposition ∧
      command.reasonCode = reasonCode ∧ command.processor = processor ∧
      command.processorVersion = processorVersion ∧ command.occurredAt = occurredAt := by
  obtain ⟨a, d, r, p, v, o, hr, hp, hv⟩ := command
  unfold RecordArtifactScanOutcome.make
  constructor
  · intro h
    split_ifs at h
    cases h
    exact ⟨rfl, rfl, rfl, rfl, rfl, rfl⟩
  · rintro ⟨rfl, rfl, rfl, rfl, rfl, rfl⟩
    rw [dif_pos hr, dif_pos hp, dif_pos hv]

/-- The ledger admits a verdict on an awaiting artifact if its failure code suits the CHECK. -/
theorem Awaiting.admits_iff {owner : Uuid → Option Uuid} {rows : List ProcessingRow}
    {organizationId id : Uuid} {active : ProcessingRow} {command : RecordArtifactScanOutcome}
    (h : Awaiting owner rows organizationId command.artifactId active) (hid : ∀ r ∈ rows, r.id ≠ id) :
    admits owner rows (scanOutcomeRow organizationId command active id) = true ↔
      (command.disposition = .clean ∨ failureCode command.reasonCode = true) := by
  have hstates : ∀ r ∈ rows, r.artifactId = command.artifactId → r.attempt = active.attempt →
      r.state = .quarantined := by
    intro r hr hartifact hattempt
    have hmem : r ∈ attemptRows rows command.artifactId active.attempt :=
      List.mem_filter.mpr ⟨hr, by simp [hartifact, hattempt]⟩
    rw [h.only, List.mem_singleton] at hmem
    rw [hmem]
    exact h.state
  have hstate : command.disposition.state = .verified ∨ command.disposition.state = .failed := by
    cases command.disposition <;> simp [ArtifactScanDisposition.state]
  have hvalid : validateArtifactProcessingEvent rows
      (scanOutcomeRow organizationId command active id) = .ok () := h.validates rfl rfl hstate
  have hchecks : (scanOutcomeRow organizationId command active id).checks = true ↔
      (command.disposition = .clean ∨ failureCode command.reasonCode = true) := by
    have hp := shortText_of_safeCode command.codesOk.2.1
    have hv := shortText_of_safeCode command.codesOk.2.2
    cases hd : command.disposition <;>
      simp [ProcessingRow.checks, scanOutcomeRow, hd, ArtifactScanDisposition.state, hp, hv, h.positive]
  have hfresh : (!rows.any fun r => r.id == id) = true := by simpa using hid
  have honce : (!rows.any fun r => r.artifactId == command.artifactId && r.attempt == active.attempt &&
      r.state == command.disposition.state) = true := by
    simp only [Bool.not_eq_true', List.any_eq_false, Bool.and_eq_true, beq_iff_eq, not_and]
    rintro r hr ⟨hartifact, hattempt⟩ hsame
    rw [hstates r hr hartifact hattempt] at hsame
    rcases hstate with hstate | hstate <;> rw [hstate] at hsame <;> cases hsame
  have howner : owner (scanOutcomeRow organizationId command active id).artifactId =
      some (scanOutcomeRow organizationId command active id).organizationId := h.owner
  rw [NetopsCopilot.admits_iff, and_iff_left howner, acceptProcessingEvent, hvalid, ← hchecks]
  change (need _ _ >>= fun _ => need _ (!rows.any fun r => r.id == id) >>= fun _ =>
    need _ (!rows.any fun r => r.artifactId == command.artifactId && r.attempt == active.attempt &&
      r.state == command.disposition.state)) = _ ↔ _
  rw [need_bind, hfresh, need_bind, honce]
  simp [need]

/-- **With the privilege to lock, a verdict is recorded exactly if its code begins with a letter or digit
and, unless the scan was clean, has no colon.** -/
theorem record_granted_iff {owner : Uuid → Option Uuid} {rows : List ProcessingRow}
    {p : ArtifactProcessingPersistence} {job : ArtifactProcessingJob} {result : ArtifactProcessingResult}
    {active : ProcessingRow} {occurredAt : Instant} {id : Uuid}
    (h : Awaiting owner rows job.organizationId job.artifactId active) (hid : ∀ r ∈ rows, r.id ≠ id)
    (hjob : result.artifactId = job.artifactId) (hp : safeCode p.processor = true)
    (hv : safeCode p.processorVersion = true) :
    (∃ out, p.record owner (.update :: ledgerGrants) rows job result occurredAt id = .ok out) ↔
      (∃ c, result.scan.reasonCode.head? = some c ∧ c ∈ codeStart) ∧
        (result.scan.disposition = .clean ∨ 58 ∉ result.scan.reasonCode) := by
  rw [← safeCode_of_validate result.scan.reasonCodeOk, ArtifactProcessingPersistence.record,
    if_neg (not_not.mpr hjob)]
  by_cases hr : safeCode result.scan.reasonCode = true
  · let command : RecordArtifactScanOutcome := ⟨job.artifactId, result.scan.disposition,
      result.scan.reasonCode, p.processor, p.processorVersion, occurredAt, hr, hp, hv⟩
    have hmake : RecordArtifactScanOutcome.make job.artifactId result.scan.disposition
        result.scan.reasonCode p.processor p.processorVersion occurredAt = .ok command :=
      make_ok.mpr ⟨rfl, rfl, rfl, rfl, rfl, rfl⟩
    have hadmits : admits owner rows (scanOutcomeRow job.organizationId command active id) = true ↔
        (result.scan.disposition = .clean ∨ failureCode result.scan.reasonCode = true) := h.admits_iff hid
    rw [hmake, ← failureCode_of_safeCode hr, and_iff_right hr]
    change (∃ out, recordScanOutcome owner (.update :: ledgerGrants) rows job.organizationId command id =
      .ok out) ↔ _
    simp only [recordScanOutcome_ok]
    constructor
    · rintro ⟨out, -, active', hactive, -, hnew, -⟩
      rw [h.select, Option.some_inj] at hactive
      rw [← hactive] at hnew
      exact hadmits.mp hnew
    · intro hcode
      exact ⟨_, by decide, active, h.select, h.state, hadmits.mpr hcode, rfl⟩
  · have hmake : RecordArtifactScanOutcome.make job.artifactId result.scan.disposition
        result.scan.reasonCode p.processor p.processorVersion occurredAt =
          .error (unsafeCode "reason_code") := dif_neg hr
    rw [hmake]
    constructor
    · rintro ⟨out, hout⟩
      cases hout
    · rintro ⟨hcode, -⟩
      exact absurd hcode hr

end NetopsCopilot
