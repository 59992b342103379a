import NetopsCopilot.Lib.Rows
import NetopsCopilot.Application.Outbox
import Mathlib.Logic.Relation

/-!
# Runs of the outbox of one organization

Any workers lease and settle the organization's rows in any order, at any times, next to producers that add
rows. The history logs each lease that was granted and each settlement that succeeded. A row's delivery
columns are a function of its part of that log (`OutboxRow.Logged`): an open lease is its last entry, so a
settlement succeeds exactly for the token of the last entry, if that is a lease.
-/

namespace NetopsCopilot

open Raising

/-! ### The log -/

/-- A lease granted on a row, or settled by its token. -/
inductive LeaseEntry where
  | granted (outboxId : Uuid) (leaseToken : PyStr)
  | settled (outboxId : Uuid) (leaseToken : PyStr)
deriving DecidableEq

def LeaseEntry.outboxId : LeaseEntry → Uuid
  | .granted outboxId _ | .settled outboxId _ => outboxId

def LeaseEntry.isGrant : LeaseEntry → Bool
  | .granted _ _ => true
  | .settled _ _ => false

/-- The entries about one row. -/
def entriesOf (outboxId : Uuid) (log : List LeaseEntry) : List LeaseEntry :=
  log.filter fun e => e.outboxId == outboxId

/-- The number of leases granted on a row. -/
def leasesGranted (outboxId : Uuid) (log : List LeaseEntry) : Nat :=
  (entriesOf outboxId log).countP LeaseEntry.isGrant

/-- The row's most recent lease, if it has not been settled yet. -/
def openLease (outboxId : Uuid) (log : List LeaseEntry) : Option PyStr :=
  match (entriesOf outboxId log).getLast? with
  | some (.granted _ leaseToken) => some leaseToken
  | _ => none

/-- Every settlement of the log is of the lease that was open. -/
def SettlesOpen (log : List LeaseEntry) : Prop :=
  ∀ before outboxId leaseToken after, log = before ++ .settled outboxId leaseToken :: after →
    openLease outboxId before = some leaseToken

/-! ### Runs -/

/-- A call on the outbox. -/
inductive OutboxCall where
  | leaseAvailable (workerId : PyStr) (now : Instant) (limit leaseFor : Int) (uuid : Uuid)
  | markPublished (lease : OutboxLease) (publishedAt : Instant)
  | scheduleRetry (lease : OutboxLease) (retryAt : Instant) (errorCode : PyStr)

/-- A call in a transaction of its own, and what it adds to the log. -/
def OutboxCall.run (organizationId : Uuid) : OutboxCall → Db → Except OutboxError (List LeaseEntry × Db)
  | .leaseAvailable workerId now limit leaseFor uuid, db => do
    let (events, db') ←
      NetopsCopilot.leaseAvailable organizationId workerId now limit leaseFor uuid db
    return (events.map fun event => .granted event.outboxId event.lockedBy, db')
  | .markPublished lease publishedAt, db => do
    let db' ← NetopsCopilot.markPublished organizationId lease publishedAt db
    return ([.settled lease.outboxId lease.leaseToken], db')
  | .scheduleRetry lease retryAt errorCode, db => do
    let db' ← NetopsCopilot.scheduleRetry organizationId lease retryAt errorCode db
    return ([.settled lease.outboxId lease.leaseToken], db')

/-- The committed database and the log. -/
structure OutboxRun where
  db : Db
  log : List LeaseEntry := []

/-- A row as producers insert it. -/
structure OutboxRow.Fresh (r : OutboxRow) : Prop where
  publishedAt : r.publishedAt = none
  attemptCount : r.attemptCount = 0
  lastError : r.lastError = none
  lockedAt : r.lockedAt = none
  lockedBy : r.lockedBy = none

/-- A producer adds a row, or a call commits or raises. -/
inductive OutboxStep (organizationId : Uuid) : OutboxRun → OutboxRun → Prop where
  | enqueue {s} (row : OutboxRow) (hfresh : row.Fresh) (hid : row.id ∉ s.db.outbox.map (·.id)) :
      OutboxStep organizationId s { s with db := { s.db with outbox := s.db.outbox ++ [row] } }
  | call {s} (c : OutboxCall) (entries : List LeaseEntry) (db' : Db)
      (hrun : c.run organizationId s.db = .ok (entries, db')) :
      OutboxStep organizationId s { db := db', log := s.log ++ entries }
  | raised {s} (c : OutboxCall) (e : OutboxError) (hrun : c.run organizationId s.db = .error e) :
      OutboxStep organizationId s s

/-- The states that are reached from an outbox without rows. -/
def OutboxReachable (organizationId : Uuid) (s : OutboxRun) : Prop :=
  ∃ db : Db, db.outbox = [] ∧ Relation.ReflTransGen (OutboxStep organizationId) { db := db } s

/-! ### What a call does -/

section

variable {organizationId : Uuid}

/-- The rows a lease takes. -/
def taken (organizationId : Uuid) (now leaseExpiredAt : Instant) (limit : Nat) (rows : List OutboxRow)
    (r : OutboxRow) : Bool :=
  decide (r.id ∈ leaseCandidates organizationId now leaseExpiredAt limit rows) &&
    r.organizationId == organizationId

theorem leasedEvent_ok {r : OutboxRow} {event : LeasedOutboxEvent} (h : leasedEvent r = .ok event) :
    event.outboxId = r.id ∧ event.caseEventId = r.caseEventId ∧
      event.organizationId = r.organizationId ∧ r.payload = .obj event.payload ∧
      r.lockedBy = some event.lockedBy := by
  unfold leasedEvent at h
  split at h
  · split at h
    · cases h
      exact ⟨rfl, rfl, rfl, by assumption, by assumption⟩
    · cases h
  · cases h

section

variable {workerId : PyStr} {now : Instant} {limit leaseFor : Int} {uuid : Uuid} {db db' : Db}

/-- The rows this lease takes. -/
abbrev takes (organizationId : Uuid) (now : Instant) (limit leaseFor : Int) (db : Db) : OutboxRow → Bool :=
  taken organizationId now (now - leaseFor) limit.toNat db.outbox

/-- The outbox after a lease. -/
def leasedOutbox (organizationId : Uuid) (workerId : PyStr) (now : Instant) (limit leaseFor : Int)
    (uuid : Uuid) (db : Db) : List OutboxRow :=
  db.outbox.map fun r =>
    if takes organizationId now limit leaseFor db r then r.leased now (leaseTokenOf workerId uuid) else r

/-- The trigger lets every lease pass. -/
theorem update_leased : updateOutbox (takes organizationId now limit leaseFor db)
    (OutboxRow.leased now (leaseTokenOf workerId uuid)) db.outbox =
      .ok (leasedOutbox organizationId workerId now limit leaseFor uuid db,
        (db.outbox.filter (takes organizationId now limit leaseFor db)).map
          (OutboxRow.leased now (leaseTokenOf workerId uuid))) :=
  updateOutbox_ok fun r _ _ => guard_leased now (leaseTokenOf workerId uuid) r

/-- What a lease that commits has done. -/
theorem leaseAvailable_ok {events : List LeasedOutboxEvent}
    (h : leaseAvailable organizationId workerId now limit leaseFor uuid db = .ok (events, db')) :
    db' = { db with outbox := leasedOutbox organizationId workerId now limit leaseFor uuid db } ∧
      ((db.outbox.filter (takes organizationId now limit leaseFor db)).map
        (OutboxRow.leased now (leaseTokenOf workerId uuid))).mapM leasedEvent = .ok events := by
  obtain ⟨_, -, h⟩ := bind_ok h
  obtain ⟨_, -, h⟩ := bind_ok h
  obtain ⟨⟨outbox, returned⟩, hupdate, h⟩ := bind_ok h
  obtain ⟨events', hevents, h⟩ := bind_ok h
  cases h
  have hboth := (mapError_ok hupdate).symm.trans update_leased
  cases hboth
  exact ⟨rfl, hevents⟩

end

/-- What a settlement does to the row it holds. -/
structure Settles (f : OutboxRow → OutboxRow) : Prop where
  business : ∀ r : OutboxRow, r.SameBusiness (f r)
  attemptCount : ∀ r : OutboxRow, (f r).attemptCount = r.attemptCount
  unlocked : ∀ r : OutboxRow, (f r).lockedAt = none ∧ (f r).lockedBy = none
  lastError : ∀ r : OutboxRow, r.publishedAt = none → (f r).publishedAt.isSome = true →
    (f r).lastError = none

theorem settles_published (publishedAt : Instant) : Settles (OutboxRow.published publishedAt) :=
  ⟨fun _ => rfl, fun _ => rfl, fun _ => ⟨rfl, rfl⟩, fun _ _ _ => rfl⟩

theorem settles_retried (retryAt : Instant) (errorCode : PyStr) :
    Settles (OutboxRow.retried retryAt errorCode) := by
  refine ⟨fun _ => rfl, fun _ => rfl, fun _ => ⟨rfl, rfl⟩, fun r hnone hsome => ?_⟩
  have hsome' : r.publishedAt.isSome = true := hsome
  rw [hnone] at hsome'
  cases hsome'

section

variable {lease : OutboxLease} {f : OutboxRow → OutboxRow} {db db' : Db}

/-- The outbox after a settlement. -/
def settledOutbox (organizationId : Uuid) (lease : OutboxLease) (f : OutboxRow → OutboxRow) (db : Db) :
    List OutboxRow :=
  db.outbox.map fun r => if r.heldBy organizationId lease then f r else r

theorem heldBy_iff {r : OutboxRow} : r.heldBy organizationId lease = true ↔
    r.organizationId = organizationId ∧ r.id = lease.outboxId ∧ r.publishedAt = none ∧
      r.lockedBy = some lease.leaseToken := by
  simp only [OutboxRow.heldBy, Bool.and_eq_true, beq_iff_eq, Option.isNone_iff_eq_none]
  tauto

/-- The trigger lets every settlement pass, so it succeeds if one row is held. -/
theorem settle_eq (hf : Settles f) : settle organizationId lease f db =
    if (db.outbox.filter (OutboxRow.heldBy organizationId lease)).length ≠ 1 then
      .error (.leaseLost lease.outboxId)
    else .ok { db with outbox := settledOutbox organizationId lease f db } := by
  have hupdate : updateOutbox (OutboxRow.heldBy organizationId lease) f db.outbox =
      .ok (settledOutbox organizationId lease f db,
        (db.outbox.filter (OutboxRow.heldBy organizationId lease)).map f) := by
    refine updateOutbox_ok fun r _ hheld => guard_ok (hf.business r) (hf.attemptCount r).ge fun hsome => ?_
    rw [(heldBy_iff.mp hheld).2.2.1] at hsome
    cases hsome
  unfold settle
  rw [hupdate]
  show (if ((db.outbox.filter (OutboxRow.heldBy organizationId lease)).map f).length ≠ 1 then _ else _) = _
  rw [List.length_map]

end

/-! ### The log of a row -/

section

variable {log entries : List LeaseEntry} {outboxId : Uuid} {leaseToken : PyStr}

theorem entriesOf_append (outboxId : Uuid) (log entries : List LeaseEntry) :
    entriesOf outboxId (log ++ entries) = entriesOf outboxId log ++ entriesOf outboxId entries :=
  List.filter_append ..

theorem unlogged (log : List LeaseEntry) (h : entriesOf outboxId entries = []) :
    leasesGranted outboxId (log ++ entries) = leasesGranted outboxId log ∧
      openLease outboxId (log ++ entries) = openLease outboxId log := by
  unfold leasesGranted openLease
  rw [entriesOf_append, h, List.append_nil]
  exact ⟨rfl, rfl⟩

theorem granted_logged (log : List LeaseEntry) (h : entriesOf outboxId entries = [.granted outboxId leaseToken]) :
    leasesGranted outboxId (log ++ entries) = leasesGranted outboxId log + 1 ∧
      openLease outboxId (log ++ entries) = some leaseToken := by
  unfold leasesGranted openLease
  rw [entriesOf_append, h, List.countP_append, List.getLast?_concat]
  exact ⟨rfl, rfl⟩

theorem settled_logged (log : List LeaseEntry) (outboxId : Uuid) (leaseToken : PyStr) :
    leasesGranted outboxId (log ++ [.settled outboxId leaseToken]) = leasesGranted outboxId log ∧
      openLease outboxId (log ++ [.settled outboxId leaseToken]) = none := by
  have hone : entriesOf outboxId [.settled outboxId leaseToken] = [.settled outboxId leaseToken] := by
    simp [entriesOf, LeaseEntry.outboxId]
  unfold leasesGranted openLease
  rw [entriesOf_append, hone, List.countP_append, List.getLast?_concat]
  exact ⟨rfl, rfl⟩

theorem settlesOpen_snoc {e : LeaseEntry} (h : SettlesOpen log)
    (he : ∀ outboxId leaseToken, e = .settled outboxId leaseToken →
      openLease outboxId log = some leaseToken) : SettlesOpen (log ++ [e]) := by
  intro before outboxId leaseToken after heq
  rcases List.eq_nil_or_concat after with rfl | ⟨after', x, rfl⟩
  · obtain ⟨rfl, hlast⟩ := List.append_inj' heq rfl
    cases hlast
    exact he outboxId leaseToken rfl
  · rw [List.concat_eq_append, ← List.cons_append, ← List.append_assoc] at heq
    exact h before outboxId leaseToken after' (List.append_inj' heq rfl).1

theorem settlesOpen_grants (h : SettlesOpen log) (hentries : ∀ e ∈ entries, e.isGrant = true) :
    SettlesOpen (log ++ entries) := by
  induction entries using List.reverseRecOn with
  | nil => rwa [List.append_nil]
  | append_singleton entries e ih =>
    rw [← List.append_assoc]
    refine settlesOpen_snoc (ih fun e he => hentries e (List.mem_append_left _ he)) ?_
    rintro outboxId leaseToken rfl
    exact absurd (hentries _ (List.mem_append_right _ (List.mem_singleton_self _))) Bool.false_ne_true

end

/-! ### The invariant -/

/-- A row's delivery columns follow from its part of the log. -/
structure OutboxRow.Logged (log : List LeaseEntry) (r : OutboxRow) : Prop where
  attemptCount : r.attemptCount = leasesGranted r.id log
  lease : match openLease r.id log with
    | some leaseToken => r.publishedAt = none ∧ r.lockedAt.isSome = true ∧ r.lockedBy = some leaseToken
    | none => r.lockedAt = none ∧ r.lockedBy = none
  lastError : r.publishedAt.isSome = true → r.lastError = none

/-- The invariant of a run. -/
structure OutboxRun.Inv (organizationId : Uuid) (s : OutboxRun) : Prop where
  ids : (s.db.outbox.map (·.id)).Nodup
  rows : ∀ r ∈ s.db.outbox, r.Logged s.log
  known : ∀ e ∈ s.log, ∃ r ∈ s.db.outbox, r.id = e.outboxId ∧ r.organizationId = organizationId
  settles : SettlesOpen s.log

section

variable {s s' : OutboxRun}

/-- A row that is held is the row of an open lease. -/
theorem OutboxRun.Inv.open_of_held (h : s.Inv organizationId) {r : OutboxRow} (hr : r ∈ s.db.outbox)
    {leaseToken : PyStr} (hheld : r.lockedBy = some leaseToken) :
    openLease r.id s.log = some leaseToken := by
  have hlease := (h.rows r hr).lease
  split at hlease
  next leaseToken' hopen =>
    rw [hlease.2.2] at hheld
    rw [hopen, hheld]
  next =>
    rw [hlease.2] at hheld
    cases hheld

/-- An open lease holds its row. -/
theorem OutboxRun.Inv.held_of_open (h : s.Inv organizationId) {lease : OutboxLease}
    (hopen : openLease lease.outboxId s.log = some lease.leaseToken) :
    ∃ r, s.db.outbox.filter (OutboxRow.heldBy organizationId lease) = [r] := by
  have hentry : ∃ e ∈ s.log, e.outboxId = lease.outboxId := by
    unfold openLease at hopen
    split at hopen
    next id token hlast =>
      have hmem := List.mem_of_getLast? hlast
      exact ⟨_, (List.mem_filter.mp hmem).1, beq_iff_eq.mp (List.mem_filter.mp hmem).2⟩
    next => cases hopen
  obtain ⟨e, he, hid⟩ := hentry
  obtain ⟨r, hr, hrid, horganization⟩ := h.known e he
  have hrow : r.id = lease.outboxId := hrid.trans hid
  have hlease := (h.rows r hr).lease
  rw [hrow, hopen] at hlease
  have hheld : r.heldBy organizationId lease = true :=
    heldBy_iff.mpr ⟨horganization, hrow, hlease.1, hlease.2.2⟩
  refine ⟨r, ?_⟩
  have hone := Rows.filter_label h.ids hr
  have hsub : s.db.outbox.filter (OutboxRow.heldBy organizationId lease) =
      (s.db.outbox.filter fun x => x.id == r.id).filter (OutboxRow.heldBy organizationId lease) := by
    rw [List.filter_filter]
    refine List.filter_congr fun x _ => ?_
    by_cases hx : x.heldBy organizationId lease = true
    · simp [hx, (heldBy_iff.mp hx).2.1, hrow]
    · simp [hx]
  rw [hsub, hone]
  simp [hheld]

theorem map_ids {g : OutboxRow → OutboxRow} (hkeep : ∀ r, (g r).id = r.id) (rows : List OutboxRow) :
    (rows.map g).map (·.id) = rows.map (·.id) := by
  rw [List.map_map]
  exact List.map_congr_left fun r _ => hkeep r

/-- Only due rows are taken. -/
theorem due_of_taken {now leaseExpiredAt : Instant} {limit : Nat} {rows : List OutboxRow} {r : OutboxRow}
    (hids : (rows.map (·.id)).Nodup) (hr : r ∈ rows)
    (h : taken organizationId now leaseExpiredAt limit rows r = true) :
    r.due organizationId now leaseExpiredAt = true := by
  simp only [taken, Bool.and_eq_true, decide_eq_true_eq] at h
  obtain ⟨r', hr', hid⟩ := List.mem_map.mp h.1
  have hmem := (List.perm_insertionSort _ _).mem_iff.mp (List.mem_of_mem_take hr')
  obtain ⟨hmem, hdue⟩ := List.mem_filter.mp hmem
  rwa [List.inj_on_of_nodup_map hids hmem hr hid] at hdue

theorem publishedAt_of_due {now leaseExpiredAt : Instant} {r : OutboxRow}
    (h : r.due organizationId now leaseExpiredAt = true) : r.publishedAt = none := by
  simp only [OutboxRow.due, Bool.and_eq_true, Option.isNone_iff_eq_none] at h
  exact h.1.1.2

theorem organizationId_of_taken {now leaseExpiredAt : Instant} {limit : Nat} {rows : List OutboxRow}
    {r : OutboxRow} (h : taken organizationId now leaseExpiredAt limit rows r = true) :
    r.organizationId = organizationId := by
  simp only [taken, Bool.and_eq_true, beq_iff_eq] at h
  exact h.2

/-- The log of a lease. -/
def grants (p : OutboxRow → Bool) (leaseToken : PyStr) (rows : List OutboxRow) : List LeaseEntry :=
  (rows.filter p).map fun r => .granted r.id leaseToken

theorem entriesOf_grants (p : OutboxRow → Bool) (leaseToken : PyStr) {rows : List OutboxRow}
    (hids : (rows.map (·.id)).Nodup) {r : OutboxRow} (hr : r ∈ rows) :
    entriesOf r.id (grants p leaseToken rows) = if p r then [.granted r.id leaseToken] else [] := by
  have hone : (rows.filter p).filter (fun x => x.id == r.id) = [r].filter p := by
    rw [← Rows.filter_label hids hr, List.filter_filter, List.filter_filter]
    exact List.filter_congr fun x _ => Bool.and_comm _ _
  unfold entriesOf grants
  rw [List.filter_map]
  show List.map _ (List.filter (fun x => x.id == r.id) (rows.filter p)) = _
  rw [hone]
  cases hp : p r <;> simp [hp]

/-- The log of the lease is read off its events. -/
theorem grants_eq {workerId : PyStr} {now : Instant} {limit leaseFor : Int} {uuid : Uuid} {db : Db}
    {events : List LeasedOutboxEvent}
    (h : ((db.outbox.filter (takes organizationId now limit leaseFor db)).map
      (OutboxRow.leased now (leaseTokenOf workerId uuid))).mapM leasedEvent = .ok events) :
    events.map (fun event => LeaseEntry.granted event.outboxId event.lockedBy) =
      grants (takes organizationId now limit leaseFor db) (leaseTokenOf workerId uuid) db.outbox := by
  have hmap : events.map (fun event => (event.outboxId, some event.lockedBy)) =
      ((db.outbox.filter (takes organizationId now limit leaseFor db)).map
        (OutboxRow.leased now (leaseTokenOf workerId uuid))).map fun r => (r.id, r.lockedBy) :=
    map_of_mapM (fun r event hevent => by
      obtain ⟨hid, -, -, -, hlocked⟩ := leasedEvent_ok hevent
      rw [hid, hlocked]) h
  have hgrant := congrArg (List.map fun p : Uuid × Option PyStr => LeaseEntry.granted p.1 (p.2.getD [])) hmap
  simpa only [List.map_map, grants, Function.comp_def, Option.getD_some, OutboxRow.leased] using hgrant

theorem OutboxRun.Inv.lease (h : s.Inv organizationId) {workerId : PyStr} {now : Instant}
    {limit leaseFor : Int} {uuid : Uuid} {db' : Db} {events : List LeasedOutboxEvent}
    (hlease : leaseAvailable organizationId workerId now limit leaseFor uuid s.db = .ok (events, db')) :
    OutboxRun.Inv organizationId ⟨db', s.log ++ events.map fun event =>
      .granted event.outboxId event.lockedBy⟩ := by
  obtain ⟨rfl, hevents⟩ := leaseAvailable_ok hlease
  rw [grants_eq hevents]
  have hkeep : ∀ r : OutboxRow, (if takes organizationId now limit leaseFor s.db r then
      r.leased now (leaseTokenOf workerId uuid) else r).id = r.id := by
    intro r
    split_ifs <;> rfl
  refine ⟨?_, ?_, ?_, settlesOpen_grants h.settles ?_⟩
  · show ((s.db.outbox.map _).map _).Nodup
    rw [map_ids hkeep]
    exact h.ids
  · intro r' hr'
    obtain ⟨r, hr, rfl⟩ := List.mem_map.mp hr'
    have hrow := h.rows r hr
    have hentries := entriesOf_grants (takes organizationId now limit leaseFor s.db)
      (leaseTokenOf workerId uuid) h.ids hr
    split_ifs with htaken
    · rw [if_pos htaken] at hentries
      obtain ⟨hcount, hopen⟩ := granted_logged s.log hentries
      have hnone := publishedAt_of_due (due_of_taken h.ids hr htaken)
      refine ⟨?_, ?_, fun hsome => ?_⟩
      · show r.attemptCount + 1 = leasesGranted r.id _
        rw [hcount, hrow.attemptCount]
      · show match openLease r.id _ with | some leaseToken => _ | none => _
        rw [hopen]
        exact ⟨hnone, rfl, rfl⟩
      · have hsome' : r.publishedAt.isSome = true := hsome
        rw [hnone] at hsome'
        cases hsome'
    · rw [if_neg htaken] at hentries
      obtain ⟨hcount, hopen⟩ := unlogged s.log hentries
      exact ⟨hrow.attemptCount.trans hcount.symm, hopen.symm ▸ hrow.lease, hrow.lastError⟩
  · intro e he
    have hrow : ∃ r ∈ s.db.outbox, r.id = e.outboxId ∧ r.organizationId = organizationId := by
      rcases List.mem_append.mp he with he | he
      · exact h.known e he
      · obtain ⟨r, hr, rfl⟩ := List.mem_map.mp he
        obtain ⟨hr, htaken⟩ := List.mem_filter.mp hr
        exact ⟨r, hr, rfl, organizationId_of_taken htaken⟩
    obtain ⟨r, hr, hid, horganization⟩ := hrow
    refine ⟨_, List.mem_map_of_mem hr, (hkeep r).trans hid, ?_⟩
    rw [← horganization]
    split_ifs <;> rfl
  · intro e he
    obtain ⟨r, -, rfl⟩ := List.mem_map.mp he
    rfl

theorem OutboxRun.Inv.settle (h : s.Inv organizationId) {lease : OutboxLease} {f : OutboxRow → OutboxRow}
    (hf : Settles f) {db' : Db} (hsettle : NetopsCopilot.settle organizationId lease f s.db = .ok db') :
    OutboxRun.Inv organizationId ⟨db', s.log ++ [.settled lease.outboxId lease.leaseToken]⟩ := by
  rw [settle_eq hf] at hsettle
  split_ifs at hsettle with hone
  cases hsettle
  obtain ⟨r₀, hr₀⟩ := List.length_eq_one_iff.mp (not_not.mp hone)
  have hheld : r₀ ∈ s.db.outbox ∧ r₀.heldBy organizationId lease = true :=
    List.mem_filter.mp (hr₀ ▸ List.mem_singleton_self r₀)
  obtain ⟨-, hid₀, -, hlocked₀⟩ := heldBy_iff.mp hheld.2
  have hopen₀ := h.open_of_held hheld.1 hlocked₀
  have hkeep : ∀ r : OutboxRow, (if r.heldBy organizationId lease then f r else r).id = r.id := by
    intro r
    split_ifs
    · exact (hf.business r).id
    · rfl
  refine ⟨?_, ?_, ?_, settlesOpen_snoc h.settles ?_⟩
  · show ((s.db.outbox.map _).map _).Nodup
    rw [map_ids hkeep]
    exact h.ids
  · intro r' hr'
    obtain ⟨r, hr, rfl⟩ := List.mem_map.mp hr'
    have hrow := h.rows r hr
    split_ifs with hrheld
    · obtain ⟨-, hid, hnone, -⟩ := heldBy_iff.mp hrheld
      obtain ⟨hcount, hopen⟩ := settled_logged s.log lease.outboxId lease.leaseToken
      have hfid : (f r).id = lease.outboxId := (hf.business r).id.trans hid
      refine ⟨?_, ?_, hf.lastError r hnone⟩
      · rw [hf.attemptCount, hfid, hcount, hrow.attemptCount, hid]
      · rw [hfid, hopen]
        exact hf.unlocked r
    · have hother : entriesOf r.id [.settled lease.outboxId lease.leaseToken] = [] := by
        have hne : r.id ≠ lease.outboxId := by
          rintro heq
          have hsame := List.inj_on_of_nodup_map h.ids hr hheld.1 (heq.trans hid₀.symm)
          exact hrheld (hsame ▸ hheld.2)
        simp [entriesOf, LeaseEntry.outboxId, hne.symm]
      obtain ⟨hcount, hopen⟩ := unlogged s.log hother
      exact ⟨hrow.attemptCount.trans hcount.symm, hopen.symm ▸ hrow.lease, hrow.lastError⟩
  · intro e he
    have hrow : ∃ r ∈ s.db.outbox, r.id = e.outboxId ∧ r.organizationId = organizationId := by
      rcases List.mem_append.mp he with he | he
      · exact h.known e he
      · rw [List.mem_singleton.mp he]
        exact ⟨r₀, hheld.1, hid₀, (heldBy_iff.mp hheld.2).1⟩
    obtain ⟨r, hr, hid, horganization⟩ := hrow
    refine ⟨_, List.mem_map_of_mem hr, (hkeep r).trans hid, ?_⟩
    rw [← horganization]
    split_ifs
    · exact (hf.business r).organizationId
    · rfl
  · rintro outboxId leaseToken heq
    cases heq
    rw [← hid₀]
    exact hopen₀

/-! ### Every run -/

theorem OutboxRow.Fresh.logged {r : OutboxRow} (h : r.Fresh) {log : List LeaseEntry}
    (hnone : entriesOf r.id log = []) : r.Logged log := by
  have hopen : openLease r.id log = none := by simp [openLease, hnone]
  refine ⟨?_, ?_, fun _ => h.lastError⟩
  · rw [h.attemptCount, leasesGranted, hnone]
    rfl
  · rw [hopen]
    exact ⟨h.lockedAt, h.lockedBy⟩

theorem OutboxRun.Inv.enqueue (h : s.Inv organizationId) {row : OutboxRow} (hfresh : row.Fresh)
    (hid : row.id ∉ s.db.outbox.map (·.id)) :
    OutboxRun.Inv organizationId { s with db := { s.db with outbox := s.db.outbox ++ [row] } } := by
  have hnone : entriesOf row.id s.log = [] := by
    refine List.filter_eq_nil_iff.mpr fun e he heq => hid ?_
    obtain ⟨r, hr, hrid, -⟩ := h.known e he
    exact List.mem_map.mpr ⟨r, hr, hrid.trans (beq_iff_eq.mp heq)⟩
  refine ⟨?_, fun r hr => ?_, fun e he => ?_, h.settles⟩
  · show ((s.db.outbox ++ [row]).map (·.id)).Nodup
    rw [List.map_append, List.nodup_append]
    refine ⟨h.ids, List.nodup_singleton _, fun a ha b hb hab => hid ?_⟩
    rw [List.map_singleton, List.mem_singleton] at hb
    rwa [← hb, ← hab]
  · rcases List.mem_append.mp hr with hr | hr
    · exact h.rows r hr
    · rw [List.mem_singleton.mp hr]
      exact hfresh.logged hnone
  · obtain ⟨r, hr, hboth⟩ := h.known e he
    exact ⟨r, List.mem_append_left _ hr, hboth⟩

theorem scheduleRetry_ok {lease : OutboxLease} {retryAt : Instant} {errorCode : PyStr} {db db' : Db}
    (h : scheduleRetry organizationId lease retryAt errorCode db = .ok db') :
    NetopsCopilot.settle organizationId lease (OutboxRow.retried retryAt errorCode) db = .ok db' := by
  unfold scheduleRetry at h
  split_ifs at h
  exact h

/-- One step keeps the invariant. -/
theorem OutboxRun.Inv.step (h : s.Inv organizationId) (hstep : OutboxStep organizationId s s') :
    s'.Inv organizationId := by
  cases hstep with
  | enqueue row hfresh hid => exact h.enqueue hfresh hid
  | raised c e hrun => exact h
  | call c entries db' hrun =>
    cases c with
    | leaseAvailable workerId now limit leaseFor uuid =>
      obtain ⟨⟨events, db''⟩, hlease, hret⟩ := bind_ok hrun
      cases hret
      exact h.lease hlease
    | markPublished lease publishedAt =>
      obtain ⟨db'', hsettle, hret⟩ := bind_ok hrun
      cases hret
      exact h.settle (settles_published publishedAt) hsettle
    | scheduleRetry lease retryAt errorCode =>
      obtain ⟨db'', hretry, hret⟩ := bind_ok hrun
      cases hret
      exact h.settle (settles_retried retryAt errorCode) (scheduleRetry_ok hretry)

theorem inv_of_steps (h : s.Inv organizationId)
    (hsteps : Relation.ReflTransGen (OutboxStep organizationId) s s') : s'.Inv organizationId := by
  induction hsteps with
  | refl => exact h
  | tail _ hstep ih => exact ih.step hstep

/-- Every reachable state satisfies the invariant. -/
theorem inv_of_outboxReachable (hs : OutboxReachable organizationId s) : s.Inv organizationId := by
  obtain ⟨db, hnone, hsteps⟩ := hs
  refine inv_of_steps ⟨?_, ?_, ?_, ?_⟩ hsteps
  · simp [hnone]
  · simp [hnone]
  · intro e he
    cases he
  · intro before outboxId leaseToken after heq
    cases before <;> cases heq

/-- What a step does to a row: the trigger passes, and a published row stays as it is. -/
def OutboxRow.Becomes (old new : OutboxRow) : Prop :=
  old.SameBusiness new ∧ guardOutboxEventMutation old new = .ok new ∧
    (old.publishedAt.isSome = true → new = old)

theorem becomes_self (r : OutboxRow) : r.Becomes r :=
  ⟨rfl, guard_ok rfl (Nat.le_refl _) fun _ => rfl, fun _ => rfl⟩

theorem row_of_settle {lease : OutboxLease} {f : OutboxRow → OutboxRow} (hf : Settles f) {db db' : Db}
    (hsettle : NetopsCopilot.settle organizationId lease f db = .ok db') {r : OutboxRow}
    (hr : r ∈ db.outbox) : ∃ r' ∈ db'.outbox, r.Becomes r' := by
  rw [settle_eq hf] at hsettle
  split_ifs at hsettle
  cases hsettle
  refine ⟨_, List.mem_map_of_mem hr, ?_⟩
  split_ifs with hheld
  · have hnone := (heldBy_iff.mp hheld).2.2.1
    have hnot : r.publishedAt.isSome = true → False := fun hsome => by
      rw [hnone] at hsome
      cases hsome
    exact ⟨hf.business r, guard_ok (hf.business r) (hf.attemptCount r).ge fun hsome => (hnot hsome).elim,
      fun hsome => (hnot hsome).elim⟩
  · exact becomes_self r

theorem OutboxRun.Inv.row (h : s.Inv organizationId) (hstep : OutboxStep organizationId s s')
    {r : OutboxRow} (hr : r ∈ s.db.outbox) : ∃ r' ∈ s'.db.outbox, r.Becomes r' := by
  cases hstep with
  | enqueue row hfresh hid => exact ⟨r, List.mem_append_left _ hr, becomes_self r⟩
  | raised c e hrun => exact ⟨r, hr, becomes_self r⟩
  | call c entries db' hrun =>
    cases c with
    | leaseAvailable workerId now limit leaseFor uuid =>
      obtain ⟨⟨events, db''⟩, hlease, hret⟩ := bind_ok hrun
      cases hret
      obtain ⟨rfl, -⟩ := leaseAvailable_ok hlease
      refine ⟨_, List.mem_map_of_mem hr, ?_⟩
      split_ifs with htaken
      · refine ⟨rfl, guard_leased _ _ _, fun hsome => ?_⟩
        rw [publishedAt_of_due (due_of_taken h.ids hr htaken)] at hsome
        cases hsome
      · exact becomes_self r
    | markPublished lease publishedAt =>
      obtain ⟨db'', hsettle, hret⟩ := bind_ok hrun
      cases hret
      exact row_of_settle (settles_published publishedAt) hsettle hr
    | scheduleRetry lease retryAt errorCode =>
      obtain ⟨db'', hretry, hret⟩ := bind_ok hrun
      cases hret
      exact row_of_settle (settles_retried retryAt errorCode) (scheduleRetry_ok hretry) hr

/-- A published row stays in the table. -/
theorem published_stays (h : s.Inv organizationId)
    (hsteps : Relation.ReflTransGen (OutboxStep organizationId) s s') {r : OutboxRow}
    (hr : r ∈ s.db.outbox) (hpublished : r.publishedAt.isSome = true) : r ∈ s'.db.outbox := by
  induction hsteps with
  | refl => exact hr
  | tail hbefore hstep ih =>
    obtain ⟨r', hr', -, -, hsame⟩ := (inv_of_steps h hbefore).row hstep ih
    rwa [hsame hpublished] at hr'

/-- A settlement succeeds for the token of the open lease, and otherwise says that the lease is lost. -/
theorem OutboxRun.Inv.settle_iff (h : s.Inv organizationId) (lease : OutboxLease)
    {f : OutboxRow → OutboxRow} (hf : Settles f) :
    ((∃ db', NetopsCopilot.settle organizationId lease f s.db = .ok db') ↔
      openLease lease.outboxId s.log = some lease.leaseToken) ∧
    ∀ e, NetopsCopilot.settle organizationId lease f s.db = .error e → e = .leaseLost lease.outboxId := by
  rw [settle_eq hf]
  refine ⟨⟨?_, fun hopen => ?_⟩, fun e he => ?_⟩
  · rintro ⟨db', hsettle⟩
    split_ifs at hsettle with hone
    obtain ⟨r, hr⟩ := List.length_eq_one_iff.mp (not_not.mp hone)
    obtain ⟨hmem, hheld⟩ := List.mem_filter.mp (hr ▸ List.mem_singleton_self r)
    obtain ⟨-, hid, -, hlocked⟩ := heldBy_iff.mp hheld
    rw [← hid]
    exact h.open_of_held hmem hlocked
  · obtain ⟨r, hr⟩ := h.held_of_open hopen
    rw [hr]
    exact ⟨_, rfl⟩
  · split_ifs at he
    cases he
    rfl

end

end

/-! ### Main result -/

/-- **Leases are counted, exclusive and settled at most once.** In every run of calls on an organization's
outbox, by any workers at any times: a row's `attempt_count` is the number of leases granted on it, it is
locked by both columns or by none, and a published row is unlocked, without an error, and never leased again.
A settlement succeeds exactly with the token of the row's most recent lease while that is unsettled, and
raises `OutboxLeaseLostError` otherwise; and every change of a row passes the trigger. -/
theorem outbox_leases {organizationId : Uuid} {s : OutboxRun} (hs : OutboxReachable organizationId s) :
    (∀ r ∈ s.db.outbox, r.attemptCount = leasesGranted r.id s.log ∧
      r.lockedAt.isSome = r.lockedBy.isSome ∧
      (r.publishedAt.isSome = true → r.lockedAt = none ∧ r.lockedBy = none ∧ r.lastError = none ∧
        ∀ s', Relation.ReflTransGen (OutboxStep organizationId) s s' →
          r ∈ s'.db.outbox ∧ leasesGranted r.id s'.log = leasesGranted r.id s.log)) ∧
    (∀ lease publishedAt, ((∃ db', markPublished organizationId lease publishedAt s.db = .ok db') ↔
        openLease lease.outboxId s.log = some lease.leaseToken) ∧
      ∀ e, markPublished organizationId lease publishedAt s.db = .error e →
        e = .leaseLost lease.outboxId) ∧
    (∀ lease retryAt errorCode, deliveryErrorCode errorCode = true →
      ((∃ db', scheduleRetry organizationId lease retryAt errorCode s.db = .ok db') ↔
        openLease lease.outboxId s.log = some lease.leaseToken) ∧
      ∀ e, scheduleRetry organizationId lease retryAt errorCode s.db = .error e →
        e = .leaseLost lease.outboxId) ∧
    SettlesOpen s.log ∧
    ∀ s', OutboxStep organizationId s s' → ∀ r ∈ s.db.outbox,
      ∃ r' ∈ s'.db.outbox, r.SameBusiness r' ∧ guardOutboxEventMutation r r' = .ok r' := by
  have hinv := inv_of_outboxReachable hs
  refine ⟨fun r hr => ?_, fun lease publishedAt => hinv.settle_iff lease (settles_published publishedAt),
    fun lease retryAt errorCode hcode => ?_, hinv.settles, fun s' hstep r hr => ?_⟩
  · have hrow := hinv.rows r hr
    have hlease := hrow.lease
    refine ⟨hrow.attemptCount, ?_, fun hpublished => ?_⟩
    · split at hlease
      next => rw [hlease.2.1, hlease.2.2]; rfl
      next => rw [hlease.1, hlease.2]; rfl
    · split at hlease
      next =>
        rw [hlease.1] at hpublished
        cases hpublished
      next =>
        refine ⟨hlease.1, hlease.2, hrow.lastError hpublished, fun s' hsteps => ?_⟩
        have hstays := published_stays hinv hsteps hr hpublished
        have hrow' := (inv_of_steps hinv hsteps).rows r hstays
        exact ⟨hstays, hrow'.attemptCount.symm.trans hrow.attemptCount⟩
  · have hretry : scheduleRetry organizationId lease retryAt errorCode s.db =
        settle organizationId lease (OutboxRow.retried retryAt errorCode) s.db := by
      unfold scheduleRetry
      rw [if_pos hcode]
    rw [hretry]
    exact hinv.settle_iff lease (settles_retried retryAt errorCode)
  · obtain ⟨r', hr', hbusiness, hguard, -⟩ := hinv.row hstep hr
    exact ⟨r', hr', hbusiness, hguard⟩

/-- The outbox row of a new case. -/
def sampleOutboxRow : OutboxRow where
  id := 20
  organizationId := 7
  caseId := 10
  caseEventId := 11
  eventType := py "case.created.v1"
  aggregateVersion := 0
  correlationId := 12
  payload := .obj [(py "case_id", .int 10)]
  availableAt := 100
  publishedAt := none
  attemptCount := 0
  lastError := none
  lockedAt := none
  lockedBy := none
  createdAt := 100

/-- The token of a lease of worker `w`. -/
def sampleToken : PyStr := leaseTokenOf (py "w") 1

/-- On a row that was leased at time 110 and published at time 120. -/
theorem outbox_leases_sample : ∃ s, OutboxReachable 7 s ∧
    s.log = [.granted 20 sampleToken, .settled 20 sampleToken] ∧
    ∃ r ∈ s.db.outbox, r.publishedAt = some 120 ∧ r.attemptCount = leasesGranted r.id s.log ∧
      r.lockedAt.isSome = r.lockedBy.isSome := by
  have hlease : (OutboxCall.leaseAvailable (py "w") 110 1 60 1).run 7 { outbox := [sampleOutboxRow] } =
      .ok ([.granted 20 sampleToken], { outbox := [sampleOutboxRow.leased 110 sampleToken] }) := by
    rfl
  have hsettle : (OutboxCall.markPublished ⟨20, sampleToken, by decide⟩ 120).run 7
      { outbox := [sampleOutboxRow.leased 110 sampleToken] } =
      .ok ([.settled 20 sampleToken],
        { outbox := [(sampleOutboxRow.leased 110 sampleToken).published 120] }) := by
    rfl
  have hreach : OutboxReachable 7 ⟨{ outbox := [(sampleOutboxRow.leased 110 sampleToken).published 120] },
      [.granted 20 sampleToken, .settled 20 sampleToken]⟩ := by
    refine ⟨{}, rfl, ?_⟩
    refine .tail (.tail (.single (.enqueue sampleOutboxRow ⟨rfl, rfl, rfl, rfl, rfl⟩ (by decide)))
      (.call _ _ _ hlease)) (.call _ _ _ hsettle)
  have hrow := (outbox_leases hreach).1 _ (List.mem_singleton_self _)
  exact ⟨_, hreach, rfl, _, List.mem_singleton_self _, rfl, hrow.1, hrow.2.1⟩

end NetopsCopilot
