import NetopsCopilot.Lib.Rows
import NetopsCopilot.Application.ArtifactProcessing

/-!
# Artifact status (`netops_api/application/artifact_status.py`)

`list_for_case` shows the state of the processing row of an artifact that is last by `occurred_at` and `id`,
whatever its attempt; `record_scan_outcome` takes the row that is last by `attempt`, `occurred_at` and `id`
for the active one. Both should be the row recorded last for the highest attempt (`ReadPathsAgree`).

They are in every state of a run if and only if each row comes after the rows of its attempt, and the row of
the artifact that is last by time does not come after it with another state (`Timely`). An earlier attempt
that ends after the next one has started is enough to break it (`late_failure`).
-/

namespace NetopsCopilot

/-! ### The read model -/

/-- `ArtifactStatus`. -/
structure ArtifactStatus where
  artifactId : Uuid
  artifactKind : PyStr
  status : PyStr
  statusUpdatedAt : Instant

/-- `latest_event`: `ORDER BY occurred_at DESC, id DESC LIMIT 1`. -/
def latestEvent (rows : List ProcessingRow) (organizationId artifactId : Uuid) : Option ProcessingRow :=
  (rows.filter fun r => r.organizationId == organizationId && r.artifactId == artifactId).argmax
    ProcessingRow.order

/-- The row of a pending intent. -/
def pendingStatus (i : IntentRow) : ArtifactStatus where
  artifactId := i.artifactId
  artifactKind := i.artifactKind.value
  status := py "upload_pending"
  statusUpdatedAt := i.createdAt

/-- `'processing_' || state`. -/
def processingStatus (state : ProcessingState) : PyStr := py "processing_" ++ state.value

/-- The row of an artifact. -/
def artifactStatus (rows : List ProcessingRow) (a : ArtifactRow) : ArtifactStatus where
  artifactId := a.id
  artifactKind := a.artifactKind
  status := ((latestEvent rows a.organizationId a.id).map fun e => processingStatus e.state).getD
    (py "verified_awaiting_processing")
  statusUpdatedAt := ((latestEvent rows a.organizationId a.id).map (·.occurredAt)).getD a.createdAt

/-- `ORDER BY status_updated_at ASC, artifact_id ASC`. -/
def ArtifactStatus.order (s : ArtifactStatus) : Instant ×ₗ Uuid := toLex (s.statusUpdatedAt, s.artifactId)

/-- `TenantArtifactStatusRepository.list_for_case`. -/
def listForCase (organizationId caseId : Uuid) (db : Db) : List ArtifactStatus :=
  let pending := (db.intents.filter fun i =>
    i.organizationId == organizationId && i.caseId == caseId && i.status == .pending).map pendingStatus
  let uploaded := (db.artifacts.filter fun a =>
    a.organizationId == organizationId && a.caseId == caseId).map (artifactStatus db.processing)
  (pending ++ uploaded).insertionSort fun a b => a.order ≤ b.order

theorem mem_listForCase {organizationId caseId : Uuid} {db : Db} {s : ArtifactStatus} :
    s ∈ listForCase organizationId caseId db ↔
      (∃ i ∈ db.intents, i.organizationId = organizationId ∧ i.caseId = caseId ∧ i.status = .pending ∧
        pendingStatus i = s) ∨
      ∃ a ∈ db.artifacts, a.organizationId = organizationId ∧ a.caseId = caseId ∧
        artifactStatus db.processing a = s := by
  unfold listForCase
  rw [(List.perm_insertionSort _ _).mem_iff, List.mem_append]
  simp only [List.mem_map, List.mem_filter, Bool.and_eq_true, beq_iff_eq, and_assoc]

theorem processingStatus_inj {a b : ProcessingState} : processingStatus a = processingStatus b ↔ a = b := by
  cases a <;> cases b <;> decide

/-! ### What the read paths should say -/

/-- The row recorded last for the highest attempt. -/
def lastRecorded (rows : List ProcessingRow) (artifactId : Uuid) : Option ProcessingRow :=
  (highestAttempt rows artifactId).bind fun attempt => (attemptRows rows artifactId attempt).getLast?

/-- The status of an artifact with processing rows is the state recorded last for its highest attempt, and so
is the state that `record_scan_outcome` takes for the active one. -/
def Ledger.ReadPathsAgree (owner : Uuid → Option Uuid) (s : Ledger) : Prop :=
  ∀ (db : Db) (a : ArtifactRow), db.processing = s.rows → a ∈ db.artifacts →
    owner a.id = some a.organizationId → ∀ recorded ∈ lastRecorded s.rows a.id,
      artifactStatus db.processing a ∈ listForCase a.organizationId a.caseId db ∧
      (artifactStatus db.processing a).status = processingStatus recorded.state ∧
      (selectActiveAttempt s.rows a.organizationId a.id).map (·.state) = some recorded.state

/-- A row that both read paths will show: it comes after the rows of its attempt, and the row of its artifact
that is last by time either comes before it or has its state. -/
def ShownNext (rows : List ProcessingRow) (new : ProcessingRow) : Prop :=
  Later rows new ∧ ∀ m ∈ latestEvent rows new.organizationId new.artifactId,
    m.order < new.order ∨ m.state = new.state

/-- Events that insert such a row, or none. -/
def Timely (s : Ledger) : LedgerEvent → Prop
  | .write new => ShownNext s.rows new
  | .record worker id => ∀ r ∈ s.recording worker,
      ShownNext s.rows (scanOutcomeRow r.organizationId r.command r.active id)
  | .select _ _ _ | .abandon _ => True

section

variable (owner : Uuid → Option Uuid) (mayLock : Bool)

/-- Every state of a run satisfies `p`. -/
def Ledger.Throughout (p : Ledger → Prop) : Ledger → List LedgerEvent → Prop
  | s, [] => p s
  | s, e :: events => p s ∧ ∀ s', s.step owner mayLock e = some s' → s'.Throughout p events

/-- Every event of a run satisfies `ok` in the state before it. -/
def Ledger.Always (ok : Ledger → LedgerEvent → Prop) : Ledger → List LedgerEvent → Prop
  | _, [] => True
  | s, e :: events => ∀ s', s.step owner mayLock e = some s' → ok s e ∧ s'.Always ok events

end

/-! ### One insert -/

section

variable {owner : Uuid → Option Uuid} {mayLock : Bool} {rows : List ProcessingRow} {new : ProcessingRow}

/-- The trigger accepts rows of the highest attempt, or of the next one. -/
theorem attempt_le_of_accept (h : acceptProcessingEvent rows new = .ok ()) {r : ProcessingRow}
    (hr : r ∈ rows) (hartifact : r.artifactId = new.artifactId) : r.attempt ≤ new.attempt := by
  have hmem : r.attempt ∈ (rows.filter (·.artifactId == new.artifactId)).map (·.attempt) :=
    List.mem_map_of_mem (List.mem_filter.mpr ⟨hr, by simpa using hartifact⟩)
  have hvalid := validate_of_accept h
  unfold validateArtifactProcessingEvent at hvalid
  split_ifs at hvalid with hstate hhighest
  · split at hvalid
    next hnone =>
      rw [highestAttempt, List.max?_eq_none_iff] at hnone
      rw [hnone] at hmem
      cases hmem
    next highest hsome =>
      have hle := (List.max?_eq_some_iff.mp hsome).2 _ hmem
      have hnext := need_ok hvalid
      rw [beq_iff_eq] at hnext
      omega
  · exact (List.max?_eq_some_iff.mp (not_not.mp hhighest)).2 _ hmem

/-- A state is recorded once for each attempt. -/
theorem state_ne_of_accept (h : acceptProcessingEvent rows new = .ok ()) {r : ProcessingRow}
    (hr : r ∈ rows) (hartifact : r.artifactId = new.artifactId) (hattempt : r.attempt = new.attempt) :
    r.state ≠ new.state := by
  obtain ⟨_, -, h⟩ := Raising.bind_ok h
  obtain ⟨_, -, h⟩ := Raising.bind_ok h
  obtain ⟨_, -, h⟩ := Raising.bind_ok h
  intro hstate
  have honce := need_ok h
  rw [Bool.not_eq_true', List.any_eq_false] at honce
  exact honce r hr (by simp [hartifact, hattempt, hstate])

/-- An inserted row is the one recorded last for the highest attempt. -/
theorem lastRecorded_snoc (h : acceptProcessingEvent rows new = .ok ()) :
    lastRecorded (rows ++ [new]) new.artifactId = some new := by
  have hhighest : highestAttempt (rows ++ [new]) new.artifactId = some new.attempt := by
    rw [highestAttempt, List.max?_eq_some_iff]
    refine ⟨List.mem_map_of_mem (by simp), fun n hn => ?_⟩
    obtain ⟨r, hr, rfl⟩ := List.mem_map.mp hn
    obtain ⟨hr, hartifact⟩ := List.mem_filter.mp hr
    rcases List.mem_append.mp hr with hr | hr
    · exact attempt_le_of_accept h hr (by simpa using hartifact)
    · rw [List.mem_singleton.mp hr]
  unfold lastRecorded
  rw [hhighest, Option.bind_some, attemptRows_snoc, if_pos ⟨rfl, rfl⟩, List.getLast?_concat]

/-- The rows of other artifacts stay as they are. -/
theorem other_artifact {organizationId artifactId : Uuid} (h : artifactId ≠ new.artifactId) :
    lastRecorded (rows ++ [new]) artifactId = lastRecorded rows artifactId ∧
      latestEvent (rows ++ [new]) organizationId artifactId = latestEvent rows organizationId artifactId ∧
      selectActiveAttempt (rows ++ [new]) organizationId artifactId =
        selectActiveAttempt rows organizationId artifactId := by
  have hnew : (new.artifactId == artifactId) = false := by
    rw [beq_eq_false_iff_ne]
    exact Ne.symm h
  refine ⟨?_, ?_, ?_⟩
  · have hhighest : highestAttempt (rows ++ [new]) artifactId = highestAttempt rows artifactId := by
      simp [highestAttempt, hnew]
    unfold lastRecorded
    rw [hhighest]
    congr 1
    funext attempt
    rw [attemptRows_snoc, if_neg fun hsame => h hsame.1.symm, List.append_nil]
  · simp [latestEvent, hnew]
  · simp [selectActiveAttempt, hnew]

/-- Rows of an artifact belong to its organization. -/
theorem filter_of_owned (howned : ∀ r ∈ rows, owner r.artifactId = some r.organizationId)
    {organizationId artifactId : Uuid} (howner : owner artifactId = some organizationId) {r : ProcessingRow} :
    r ∈ rows.filter (fun r => r.organizationId == organizationId && r.artifactId == artifactId) ↔
      r ∈ rows ∧ r.artifactId = artifactId := by
  simp only [List.mem_filter, Bool.and_eq_true, beq_iff_eq]
  constructor
  · rintro ⟨hr, -, hartifact⟩
    exact ⟨hr, hartifact⟩
  · rintro ⟨hr, rfl⟩
    have hsame := howned r hr
    rw [howner, Option.some_inj] at hsame
    exact ⟨hr, hsame.symm, rfl⟩

/-- An inserted row is the active one if it comes after the rows of its attempt. -/
theorem active_snoc (howned : ∀ r ∈ rows, owner r.artifactId = some r.organizationId)
    (hnew : admits owner rows new = true) :
    (selectActiveAttempt (rows ++ [new]) new.organizationId new.artifactId).map (·.state) = some new.state ↔
      Later rows new := by
  obtain ⟨haccept, howner⟩ := admits_iff.mp hnew
  have hmem := @filter_of_owned owner rows howned _ _ howner
  unfold selectActiveAttempt
  rw [List.filter_append, List.filter_singleton]
  simp only [BEq.rfl, Bool.and_self, cond_true]
  rw [Rows.argmax_snoc_map]
  constructor
  · intro h r hr
    simp only [attemptRows, List.mem_filter, Bool.and_eq_true, beq_iff_eq] at hr
    obtain ⟨hr, hartifact, hattempt⟩ := hr
    cases hmax : (rows.filter fun r => r.organizationId == new.organizationId &&
        r.artifactId == new.artifactId).argmax fun r : ProcessingRow => toLex (r.attempt, r.order) with
    | none =>
      rw [List.argmax_eq_none] at hmax
      have hin := hmem.mpr ⟨hr, hartifact⟩
      rw [hmax] at hin
      cases hin
    | some m =>
      have hle := List.le_of_mem_argmax (hmem.mpr ⟨hr, hartifact⟩) hmax
      have hm := hmem.mp (List.argmax_mem hmax)
      have hattempts : r.attempt ≤ m.attempt ∧ (r.attempt = m.attempt → r.order ≤ m.order) := by
        rcases Prod.Lex.le_iff.mp hle with hlt | ⟨heq, hle⟩
        · exact ⟨le_of_lt hlt, fun heq => absurd heq (ne_of_lt hlt)⟩
        · exact ⟨le_of_eq heq, fun _ => hle⟩
      have hsame : m.attempt = new.attempt := by
        have hbound := attempt_le_of_accept haccept hm.1 hm.2
        omega
      rcases h m hmax with hlt | hstate
      · rcases Prod.Lex.lt_iff.mp hlt with hlt | ⟨-, hlt⟩
        · exact absurd hsame (ne_of_lt hlt)
        · exact lt_of_le_of_lt (hattempts.2 (hattempt.trans hsame.symm)) hlt
      · exact absurd hstate (state_ne_of_accept haccept hm.1 hm.2 hsame)
  · intro h m hmax
    have hm := hmem.mp (List.argmax_mem hmax)
    refine Or.inl (Prod.Lex.lt_iff.mpr ?_)
    rcases lt_or_eq_of_le (attempt_le_of_accept haccept hm.1 hm.2) with hlt | heq
    · exact Or.inl hlt
    · exact Or.inr ⟨heq, h m (by simp [attemptRows, hm.1, hm.2, heq])⟩

/-- An inserted row is shown if the row that is last by time comes before it or has its state. -/
theorem latest_snoc : (latestEvent (rows ++ [new]) new.organizationId new.artifactId).map (·.state) =
    some new.state ↔ ∀ m ∈ latestEvent rows new.organizationId new.artifactId,
      m.order < new.order ∨ m.state = new.state := by
  unfold latestEvent
  rw [List.filter_append, List.filter_singleton]
  simp only [BEq.rfl, Bool.and_self, cond_true]
  exact Rows.argmax_snoc_map

/-! ### Runs -/

/-- What agreement says about one artifact. -/
def AgreeOn (rows : List ProcessingRow) (organizationId artifactId : Uuid) : Prop :=
  ∀ recorded ∈ lastRecorded rows artifactId,
    (latestEvent rows organizationId artifactId).map (·.state) = some recorded.state ∧
      (selectActiveAttempt rows organizationId artifactId).map (·.state) = some recorded.state

/-- The status of an artifact is that of its latest event. -/
theorem status_eq {a : ArtifactRow} {state : ProcessingState} :
    (artifactStatus rows a).status = processingStatus state ↔
      (latestEvent rows a.organizationId a.id).map (·.state) = some state := by
  show ((latestEvent rows a.organizationId a.id).map fun e => processingStatus e.state).getD
    (py "verified_awaiting_processing") = _ ↔ _
  cases latestEvent rows a.organizationId a.id with
  | none => cases state <;> decide
  | some e => simp [processingStatus_inj]

theorem readPathsAgree_iff {s : Ledger} : s.ReadPathsAgree owner ↔
    ∀ organizationId artifactId, owner artifactId = some organizationId →
      AgreeOn s.rows organizationId artifactId := by
  constructor
  · intro h organizationId artifactId howner recorded hrecorded
    let a : ArtifactRow :=
      { id := artifactId, organizationId := organizationId, caseId := 0, artifactKind := py "k",
        classification := py "raw", storageKey := py "k", sha256 := zeroSha256, byteSize := 0,
        contentType := py "t", originalFilename := none, encryptionKeyReference := py "k",
        createdByActorId := none, retentionUntil := 0, createdAt := 0 }
    obtain ⟨-, hstatus, hactive⟩ := h { artifacts := [a], processing := s.rows } a rfl
      (List.mem_singleton_self a) howner recorded hrecorded
    exact ⟨status_eq.mp hstatus, hactive⟩
  · intro h db a hprocessing ha howner recorded hrecorded
    obtain ⟨hstatus, hactive⟩ := h a.organizationId a.id howner recorded hrecorded
    rw [hprocessing]
    refine ⟨mem_listForCase.mpr (Or.inr ⟨a, ha, rfl, rfl, ?_⟩), status_eq.mpr hstatus, hactive⟩
    rw [hprocessing]

/-- After an insert the read paths agree if and only if the row is shown next. -/
theorem agree_snoc (howned : ∀ r ∈ rows, owner r.artifactId = some r.organizationId)
    (hnew : admits owner rows new = true)
    (h : ∀ organizationId artifactId, owner artifactId = some organizationId →
      AgreeOn rows organizationId artifactId) :
    (∀ organizationId artifactId, owner artifactId = some organizationId →
      AgreeOn (rows ++ [new]) organizationId artifactId) ↔ ShownNext rows new := by
  obtain ⟨haccept, howner⟩ := admits_iff.mp hnew
  have hlast := lastRecorded_snoc haccept
  constructor
  · intro hafter
    obtain ⟨hshown, hactive⟩ := hafter new.organizationId new.artifactId howner new hlast
    exact ⟨(active_snoc howned hnew).mp hactive, latest_snoc.mp hshown⟩
  · rintro ⟨hlater, hshown⟩ organizationId artifactId howner' recorded hrecorded
    by_cases hartifact : artifactId = new.artifactId
    · subst hartifact
      rw [howner, Option.some_inj] at howner'
      rw [hlast] at hrecorded
      cases hrecorded
      rw [← howner']
      exact ⟨latest_snoc.mpr hshown, (active_snoc howned hnew).mpr hlater⟩
    · obtain ⟨hrecorded', hlatest, hactive⟩ := @other_artifact rows new organizationId artifactId hartifact
      rw [hlatest, hactive]
      rw [hrecorded'] at hrecorded
      exact h organizationId artifactId howner' recorded hrecorded

/-- What a step inserts. -/
theorem step_rows {s s' : Ledger} {e : LedgerEvent} (hs : s.step owner mayLock e = some s') :
    s'.rows = s.rows ∧ Timely s e ∨
      ∃ new, s'.rows = s.rows ++ [new] ∧ admits owner s.rows new = true ∧
        (Timely s e ↔ ShownNext s.rows new) := by
  cases e with
  | write new =>
    simp only [Ledger.step] at hs
    split_ifs at hs with hnew
    cases hs
    exact Or.inr ⟨new, rfl, hnew, Iff.rfl⟩
  | select worker organizationId command =>
    simp only [Ledger.step] at hs
    split at hs
    next active hactive =>
      split_ifs at hs
      cases hs
      exact Or.inl ⟨rfl, trivial⟩
    next => cases hs
  | record worker id =>
    simp only [Ledger.step] at hs
    split at hs
    next r hr =>
      split_ifs at hs with hnew
      cases hs
      refine Or.inr ⟨_, rfl, hnew, ?_⟩
      simp [Timely, hr]
    next => cases hs
  | abandon worker =>
    simp only [Ledger.step, Option.some.injEq] at hs
    subst hs
    exact Or.inl ⟨rfl, trivial⟩

/-- **Agreement of the read paths.** In every run of the ledger, `list_for_case` and `record_scan_outcome`
agree on the state recorded last for the highest attempt in every state of the run if and only if every event
of the run is timely. -/
theorem readPathsAgree_throughout (owner : Uuid → Option Uuid) (mayLock : Bool) (events : List LedgerEvent) :
    ({} : Ledger).Throughout owner mayLock (Ledger.ReadPathsAgree owner) events ↔
      ({} : Ledger).Always owner mayLock Timely events := by
  have hrun : ∀ s : Ledger, (∀ r ∈ s.rows, owner r.artifactId = some r.organizationId) →
      s.ReadPathsAgree owner →
      (s.Throughout owner mayLock (Ledger.ReadPathsAgree owner) events ↔
        s.Always owner mayLock Timely events) := by
    induction events with
    | nil => exact fun s _ hagree => ⟨fun _ => trivial, fun _ => hagree⟩
    | cons e events ih =>
      intro s howned hagree
      have hstep : ∀ s', s.step owner mayLock e = some s' →
          (∀ r ∈ s'.rows, owner r.artifactId = some r.organizationId) ∧
            (s'.ReadPathsAgree owner ↔ Timely s e) := by
        intro s' hs
        rw [readPathsAgree_iff] at hagree ⊢
        rcases step_rows hs with ⟨hrows, htimely⟩ | ⟨new, hrows, hnew, htimely⟩
        · rw [hrows]
          exact ⟨howned, fun _ => htimely, fun _ => hagree⟩
        · rw [hrows, htimely]
          refine ⟨fun r hr => ?_, agree_snoc howned hnew hagree⟩
          rcases List.mem_append.mp hr with hr | hr
          · exact howned r hr
          · rw [List.mem_singleton.mp hr]
            exact (admits_iff.mp hnew).2
      constructor
      · rintro ⟨-, hrest⟩ s' hs
        obtain ⟨howned', hiff⟩ := hstep s' hs
        have hagree' : s'.ReadPathsAgree owner := by
          have hthroughout := hrest s' hs
          cases events with
          | nil => exact hthroughout
          | cons _ _ => exact hthroughout.1
        exact ⟨hiff.mp hagree', (ih s' howned' hagree').mp (hrest s' hs)⟩
      · intro halways
        refine ⟨hagree, fun s' hs => ?_⟩
        obtain ⟨howned', hiff⟩ := hstep s' hs
        obtain ⟨htimely, hrest⟩ := halways s' hs
        exact (ih s' howned' (hiff.mpr htimely)).mpr hrest
  refine hrun {} (fun r hr => by cases hr) fun db a _ _ _ recorded hrecorded => ?_
  cases hrecorded

end

/-- The first row of a second attempt on the sample artifact, at time 15. -/
def secondQuarantined : ProcessingRow := { sampleQuarantined with id := 22, attempt := 2, occurredAt := 15 }

/-- Attempt 1 fails at time 20; the clock that starts attempt 2 reads 15. -/
def lateFailure : List LedgerEvent :=
  [.write sampleQuarantined, .write (sampleRow .failed 21 20), .write secondQuarantined]

/-- Then the status is `processing_failed`, and the active attempt is quarantined. -/
theorem late_failure : ¬∀ owner mayLock events,
    ({} : Ledger).Throughout owner mayLock (Ledger.ReadPathsAgree owner) events := by
  intro h
  have hfirst : Ledger.step sampleOwner true {} (.write sampleQuarantined) =
      some { rows := [sampleQuarantined] } := by
    have hadmits : admits sampleOwner [] sampleQuarantined = true := by decide +kernel
    simp only [Ledger.step, hadmits, if_true, List.nil_append]
  have hsecond : Ledger.step sampleOwner true { rows := [sampleQuarantined] }
      (.write (sampleRow .failed 21 20)) = some { rows := [sampleQuarantined, sampleRow .failed 21 20] } := by
    have hadmits : admits sampleOwner [sampleQuarantined] (sampleRow .failed 21 20) = true := by
      decide +kernel
    simp only [Ledger.step, hadmits, if_true, List.cons_append, List.nil_append]
  have hthird : Ledger.step sampleOwner true { rows := [sampleQuarantined, sampleRow .failed 21 20] }
      (.write secondQuarantined) =
        some { rows := [sampleQuarantined, sampleRow .failed 21 20, secondQuarantined] } := by
    have hadmits : admits sampleOwner [sampleQuarantined, sampleRow .failed 21 20] secondQuarantined = true := by
      decide +kernel
    simp only [Ledger.step, hadmits, if_true, List.cons_append, List.nil_append]
  have hagree := ((((h sampleOwner true lateFailure).2 _ hfirst).2 _ hsecond).2 _ hthird)
  obtain ⟨hshown, -⟩ := readPathsAgree_iff.mp hagree 7 1 rfl secondQuarantined rfl
  have hfailed : (latestEvent [sampleQuarantined, sampleRow .failed 21 20, secondQuarantined] 7 1).map (·.state) =
      some .failed := rfl
  rw [hfailed] at hshown
  cases hshown

end NetopsCopilot
