import Mathlib.Data.Finset.Card
import NetopsCopilot.Lib.Keyset
import NetopsCopilot.Worker.PublishCycle

/-!
# No event waits for ever (`run_until_stopped` in `netops_worker/outbox_publisher.py`)

The publisher of an organization runs one cycle after another, while producers add rows. A cycle takes the first rows
that are due, and the settlement of a row whose delivery failed moves it behind all that are due now. So a row that is
due is reached after as many cycles as the rows in front of it fill (`publisher_reaches`): deliveries that fail again
and again do not keep it waiting.
-/

namespace NetopsCopilot

open Raising

/-! ### Cycles -/

/-- An event's turn in the loop of `publish_once`. -/
structure Turn where
  event : LeasedOutboxEvent
  outcome : TransportOutcome
  settledAt : Instant

/-- The time and the committed database. -/
structure PublisherClock where
  now : Instant
  db : Db

section

variable (organizationId : Uuid) (settings : OutboxPublisherSettings) (admitted : OutboxRow → Prop)

/-- Another transaction commits: it leaves the organization's rows as they are, or adds one that is admitted. -/
inductive Meanwhile (db db' : Db) : Prop
  | elsewhere (hown : db'.outbox.filter (·.organizationId == organizationId) =
      db.outbox.filter (·.organizationId == organizationId)) (hids : (db'.outbox.map (·.id)).Nodup)
  | enqueue (row : OutboxRow) (houtbox : db'.outbox = db.outbox ++ [row]) (hid : row.id ∉ db.outbox.map (·.id))
    (hadmitted : admitted row)

/-- The loop of `publish_once` over the events that are left. -/
inductive PublishLoop : PublisherClock → List LeasedOutboxEvent → List Turn → PublisherClock → Prop
  | done (s : PublisherClock) : PublishLoop s [] [] s
  | settled {s s' : PublisherClock} {events : List LeasedOutboxEvent} {turns : List Turn} (turn : Turn) (db' : Db)
    (htime : s.now ≤ turn.settledAt)
    (hsettle : settleEvent organizationId settings turn.event turn.settledAt turn.outcome.handoff s.db = .ok db')
    (hrest : PublishLoop ⟨turn.settledAt, db'⟩ events turns s') : PublishLoop s (turn.event :: events) (turn :: turns) s'
  /-- `OutboxLeaseLostError` is caught. -/
  | lost {s s' : PublisherClock} {events : List LeasedOutboxEvent} {turns : List Turn} (turn : Turn) (outboxId : Uuid)
    (htime : s.now ≤ turn.settledAt)
    (hsettle : settleEvent organizationId settings turn.event turn.settledAt turn.outcome.handoff s.db =
      .error (.leaseLost outboxId))
    (hrest : PublishLoop ⟨turn.settledAt, s.db⟩ events turns s') :
    PublishLoop s (turn.event :: events) (turn :: turns) s'
  | meanwhile {s s' : PublisherClock} {events : List LeasedOutboxEvent} {turns : List Turn} (db' : Db)
    (hother : Meanwhile organizationId admitted s.db db') (hrest : PublishLoop ⟨s.now, db'⟩ events turns s') :
    PublishLoop s events turns s'

/-- A cycle that `publish_once` completes; the rows come back in any order. -/
inductive PublisherCycle (s : PublisherClock) (turns : List Turn) (s' : PublisherClock) : Prop
  | mk (leasedAt : Instant) (uuid : Uuid) (events order : List LeasedOutboxEvent) (db' : Db) (htime : s.now ≤ leasedAt)
    (hlease : leaseAvailable organizationId settings.workerId leasedAt settings.batchSize settings.leaseFor uuid s.db =
      .ok (events, db'))
    (horder : order.Perm events)
    (hloop : PublishLoop organizationId settings admitted ⟨leasedAt, db'⟩ order turns s')

/-- The turns of the cycles of a run. -/
inductive PublisherCycles : PublisherClock → List (List Turn) → PublisherClock → Prop
  | stopped (s : PublisherClock) : PublisherCycles s [] s
  | cycle {s s' s'' : PublisherClock} {turns : List Turn} {cycles : List (List Turn)}
    (hcycle : PublisherCycle organizationId settings admitted s turns s') (hrest : PublisherCycles s' cycles s'') :
    PublisherCycles s (turns :: cycles) s''
  | meanwhile {s s' : PublisherClock} {cycles : List (List Turn)} (db' : Db) (hother : Meanwhile organizationId admitted s.db db')
    (hrest : PublisherCycles ⟨s.now, db'⟩ cycles s') : PublisherCycles s cycles s'

/-! ### The rows in front -/

/-- A row that is to be delivered before a position. -/
def OutboxRow.ahead (position : Instant ×ₗ Instant ×ₗ Uuid) (x : OutboxRow) : Bool :=
  x.organizationId == organizationId && x.publishedAt.isNone && decide (x.deliveryKey < position)

/-- The ids of these rows. -/
def aheadIds (position : Instant ×ₗ Instant ×ₗ Uuid) (rows : List OutboxRow) : Finset Uuid :=
  ((rows.filter (OutboxRow.ahead organizationId position)).map (·.id)).toFinset

/-- What a settlement does to its row. -/
def settledRow (now : Instant) : Handoff → OutboxRow → OutboxRow
  | .accepted => OutboxRow.published now
  | .failed errorCode => OutboxRow.retried (now + settings.retryAfter) errorCode

/-- The row that an event was leased from is still locked by its lease. -/
def Held (rows : List OutboxRow) (event : LeasedOutboxEvent) : Prop :=
  ∃ x ∈ rows, x.id = event.outboxId ∧ x.organizationId = organizationId ∧ x.publishedAt = none ∧
    x.lockedBy = some event.lockedBy

/-- The row of a turn is published when its transport call returned. -/
def Acknowledged (rows : List OutboxRow) (turn : Turn) : Prop :=
  turn.outcome = .returned → ∃ x ∈ rows, x.id = turn.event.outboxId ∧ x.organizationId = organizationId ∧
    x.publishedAt = some turn.settledAt

/-- A row that is available, and whose last lease, if it has one, has expired. -/
structure OutboxRow.Waits (r : OutboxRow) (s : PublisherClock) : Prop where
  mem : r ∈ s.db.outbox
  organizationId : r.organizationId = organizationId
  publishedAt : r.publishedAt = none
  availableAt : r.availableAt ≤ s.now
  lockedAt : ∀ lockedAt ∈ r.lockedAt, lockedAt ≤ s.now - settings.leaseFor

/-- From one state to a later one, the rows of the organization that are not touched stay as they are, and a row is in
front of a position only if it was before and is not settled. -/
structure Drains (position : Instant ×ₗ Instant ×ₗ Uuid) (touched settled : List Uuid) (s s' : PublisherClock) :
    Prop where
  ids : (s'.db.outbox.map (·.id)).Nodup
  time : s.now ≤ s'.now
  keeps : ∀ x ∈ s.db.outbox, x.organizationId = organizationId → x.id ∉ touched → x ∈ s'.db.outbox
  ahead : ∀ id ∈ aheadIds organizationId position s'.db.outbox,
    id ∈ aheadIds organizationId position s.db.outbox ∧ id ∉ settled

end

section

variable {organizationId : Uuid} {settings : OutboxPublisherSettings} {admitted : OutboxRow → Prop}
  {position : Instant ×ₗ Instant ×ₗ Uuid} {rows rows' : List OutboxRow} {db db' : Db} {turn : Turn}
  {event : LeasedOutboxEvent} {s s' s'' : PublisherClock} {touched touched' settled settled' : List Uuid}

theorem mem_aheadIds {id : Uuid} :
    id ∈ aheadIds organizationId position rows ↔ ∃ x ∈ rows, x.ahead organizationId position = true ∧ x.id = id := by
  unfold aheadIds
  simp only [List.mem_toFinset, List.mem_map, List.mem_filter, and_assoc]

theorem card_aheadIds_le :
    (aheadIds organizationId position rows).card ≤ (rows.filter (OutboxRow.ahead organizationId position)).length := by
  refine (List.toFinset_card_le _).trans ?_
  rw [List.length_map]

theorem ahead_iff {x : OutboxRow} : x.ahead organizationId position = true ↔
    x.organizationId = organizationId ∧ x.publishedAt = none ∧ x.deliveryKey < position := by
  simp only [OutboxRow.ahead, Bool.and_eq_true, beq_iff_eq, Option.isNone_iff_eq_none, decide_eq_true_iff, and_assoc]

/-! ### One settlement -/

theorem settles_settledRow (now : Instant) (handoff : Handoff) : Settles (settledRow settings now handoff) := by
  cases handoff with
  | accepted => exact settles_published _
  | failed errorCode => exact settles_retried _ _

theorem settleEvent_eq_settle {lease : OutboxLease} (hlease : turn.event.lease = .ok lease) :
    settleEvent organizationId settings turn.event turn.settledAt turn.outcome.handoff db =
      settle organizationId lease (settledRow settings turn.settledAt turn.outcome.handoff) db := by
  unfold settleEvent
  rw [hlease]
  cases hhandoff : turn.outcome.handoff with
  | accepted => rfl
  | failed errorCode =>
    show scheduleRetry organizationId lease (turn.settledAt + settings.retryAfter) errorCode db = _
    unfold scheduleRetry
    rw [if_pos (TransportOutcome.handoff_code hhandoff)]
    rfl

/-- The rows after the settlement of an event. -/
def settledRows (settings : OutboxPublisherSettings) (turn : Turn) (rows : List OutboxRow) : List OutboxRow :=
  rows.map fun x =>
    if x.id = turn.event.outboxId then settledRow settings turn.settledAt turn.outcome.handoff x else x

/-- A settlement whose lease is held changes the row of its event. -/
theorem settleEvent_held {lease : OutboxLease} (hlease : turn.event.lease = .ok lease)
    (hids : (db.outbox.map (·.id)).Nodup) (hheld : Held organizationId db.outbox turn.event) :
    settleEvent organizationId settings turn.event turn.settledAt turn.outcome.handoff db =
      .ok { db with outbox := settledRows settings turn db.outbox } := by
  obtain ⟨hid, htoken⟩ := OutboxLease.make_ok hlease
  obtain ⟨x, hx, hxid, horganization, hnone, hlocked⟩ := hheld
  have hsame : ∀ y ∈ db.outbox, (y.heldBy organizationId lease = true ↔ y.id = turn.event.outboxId) := by
    intro y hy
    rw [heldBy_iff, hid, htoken]
    refine ⟨fun h => h.2.1, fun h => ?_⟩
    have hyx : y = x := List.inj_on_of_nodup_map hids hy hx (h.trans hxid.symm)
    rw [hyx]
    exact ⟨horganization, hxid, hnone, hlocked⟩
  have hone : (db.outbox.filter (OutboxRow.heldBy organizationId lease)).length = 1 := by
    have hfilter : db.outbox.filter (OutboxRow.heldBy organizationId lease) =
        db.outbox.filter fun y => y.id == x.id := by
      refine List.filter_congr fun y hy => ?_
      rw [Bool.eq_iff_iff, hsame y hy, beq_iff_eq, hxid]
    rw [hfilter, Rows.filter_label hids hx]
    rfl
  have hrows : settledOutbox organizationId lease (settledRow settings turn.settledAt turn.outcome.handoff) db =
      settledRows settings turn db.outbox := by
    refine List.map_congr_left fun y hy => ?_
    by_cases hy' : y.id = turn.event.outboxId
    · rw [if_pos hy', if_pos ((hsame y hy).mpr hy')]
    · rw [if_neg hy', if_neg fun h => hy' ((hsame y hy).mp h)]
  rw [settleEvent_eq_settle hlease, settle_eq (settles_settledRow _ _), if_neg (not_not.mpr hone), hrows]

/-- A turn whose lease is held settles its row, and does not find the lease lost. -/
theorem turn_settles (hids : (db.outbox.map (·.id)).Nodup) (hheld : Held organizationId db.outbox turn.event) :
    (∀ db', settleEvent organizationId settings turn.event turn.settledAt turn.outcome.handoff db = .ok db' →
      db'.outbox = settledRows settings turn db.outbox) ∧
    ∀ outboxId, settleEvent organizationId settings turn.event turn.settledAt turn.outcome.handoff db ≠
      .error (.leaseLost outboxId) := by
  cases hlease : turn.event.lease with
  | ok lease =>
    rw [settleEvent_held hlease hids hheld]
    refine ⟨fun db' h => ?_, fun outboxId h => ?_⟩ <;> cases h
    rfl
  | error e =>
    have hvalue : ∀ outboxId, e ≠ .leaseLost outboxId := by
      unfold LeasedOutboxEvent.lease OutboxLease.make at hlease
      split_ifs at hlease
      cases hlease
      exact fun _ h => by cases h
    have hraise : settleEvent organizationId settings turn.event turn.settledAt turn.outcome.handoff db = .error e := by
      unfold settleEvent
      rw [hlease]
      rfl
    rw [hraise]
    refine ⟨fun db' h => (by cases h), fun outboxId h => ?_⟩
    exact hvalue outboxId (Except.error.inj h)

/-! ### The steps of a cycle -/

theorem Drains.refl (hids : (s.db.outbox.map (·.id)).Nodup) : Drains organizationId position [] [] s s :=
  ⟨hids, le_refl _, fun _ hx _ _ => hx, fun _ hid => ⟨hid, List.not_mem_nil⟩⟩

theorem Drains.trans (h : Drains organizationId position touched settled s s')
    (h' : Drains organizationId position touched' settled' s' s'') :
    Drains organizationId position (touched ++ touched') (settled ++ settled') s s'' := by
  refine ⟨h'.ids, h.time.trans h'.time, fun x hx horganization hid => ?_, fun id hid => ?_⟩
  · rw [List.mem_append, not_or] at hid
    exact h'.keeps x (h.keeps x hx horganization hid.1) horganization hid.2
  · obtain ⟨hid', hnot'⟩ := h'.ahead id hid
    obtain ⟨hid, hnot⟩ := h.ahead id hid'
    exact ⟨hid, fun hmem => (List.mem_append.mp hmem).elim hnot hnot'⟩

theorem Drains.weaken (h : Drains organizationId position touched settled s s') (htouched : touched ⊆ touched')
    (hsettled : settled' ⊆ settled) : Drains organizationId position touched' settled' s s' := by
  refine ⟨h.ids, h.time, fun x hx horganization hid => ?_, fun id hid => ?_⟩
  · exact h.keeps x hx horganization fun hmem => hid (htouched hmem)
  · exact ⟨(h.ahead id hid).1, fun hmem => (h.ahead id hid).2 (hsettled hmem)⟩

theorem Meanwhile.drains (hids : (s.db.outbox.map (·.id)).Nodup)
    (hadmitted : ∀ row, admitted row → row.ahead organizationId position = false)
    (h : Meanwhile organizationId admitted s.db db') :
    Drains organizationId position [] [] s ⟨s.now, db'⟩ := by
  cases h with
  | elsewhere hown hids' =>
    have hsame : ∀ x : OutboxRow, x.organizationId = organizationId → (x ∈ db'.outbox ↔ x ∈ s.db.outbox) := by
      intro x horganization
      have hmem : x ∈ db'.outbox.filter (·.organizationId == organizationId) ↔
          x ∈ s.db.outbox.filter (·.organizationId == organizationId) := by
        rw [hown]
      simpa only [List.mem_filter, horganization, beq_self_eq_true, and_true] using hmem
    refine ⟨hids', le_refl _, fun x hx horganization _ => (hsame x horganization).mpr hx, fun id hid => ?_⟩
    obtain ⟨x, hx, hahead, rfl⟩ := mem_aheadIds.mp hid
    exact ⟨mem_aheadIds.mpr ⟨x, (hsame x (ahead_iff.mp hahead).1).mp hx, hahead, rfl⟩, List.not_mem_nil⟩
  | enqueue row houtbox hid hrow =>
    refine ⟨?_, le_refl _, fun x hx _ _ => ?_, fun id hmem => ?_⟩
    · show (db'.outbox.map (·.id)).Nodup
      rw [houtbox, List.map_append, List.map_singleton]
      exact List.nodup_append.mpr ⟨hids, List.nodup_singleton _, fun a ha b hb hab =>
        hid (List.mem_singleton.mp hb ▸ hab ▸ ha)⟩
    · show x ∈ db'.outbox
      rw [houtbox]
      exact List.mem_append_left _ hx
    · obtain ⟨x, hx, hahead, rfl⟩ := mem_aheadIds.mp hmem
      have hx' : x ∈ s.db.outbox ++ [row] := houtbox ▸ hx
      rcases List.mem_append.mp hx' with hx' | hx'
      · exact ⟨mem_aheadIds.mpr ⟨x, hx', hahead, rfl⟩, List.not_mem_nil⟩
      · rw [List.mem_singleton.mp hx', hadmitted row hrow] at hahead
        cases hahead

/-- A row that has been settled is not in front any more. -/
theorem settledRow_ahead {now : Instant} (hposition : (ofLex position).1 ≤ now) (handoff : Handoff) (x : OutboxRow) :
    (settledRow settings now handoff x).ahead organizationId position = false := by
  rw [Bool.eq_false_iff]
  intro h
  obtain ⟨-, hnone, hlt⟩ := ahead_iff.mp h
  cases handoff with
  | accepted => cases hnone
  | failed errorCode =>
    have hkey : now + settings.retryAfter ≤ (ofLex position).1 := by
      rcases (Prod.Lex.lt_iff.mp hlt) with h | h
      · exact h.le
      · exact h.1.le
    have hpositive := settings.retryAfterOk
    have := hkey.trans hposition
    exact absurd this (not_le.mpr (lt_add_of_pos_right now hpositive))

theorem settle_drains (hids : (s.db.outbox.map (·.id)).Nodup) (htime : s.now ≤ turn.settledAt)
    (hposition : (ofLex position).1 ≤ s.now) (houtbox : db'.outbox = settledRows settings turn s.db.outbox) :
    Drains organizationId position [turn.event.outboxId] [turn.event.outboxId] s ⟨turn.settledAt, db'⟩ := by
  have hid : ∀ x : OutboxRow, (if x.id = turn.event.outboxId then
      settledRow settings turn.settledAt turn.outcome.handoff x else x).id = x.id := by
    intro x
    split_ifs
    · exact ((settles_settledRow _ _).business x).id
    · rfl
  refine ⟨?_, htime, fun x hx _ hnot => ?_, fun id hmem => ?_⟩
  · show (db'.outbox.map (·.id)).Nodup
    rw [houtbox]
    unfold settledRows
    rw [map_ids hid]
    exact hids
  · show x ∈ db'.outbox
    rw [houtbox]
    exact List.mem_map.mpr ⟨x, hx, if_neg fun h => hnot (List.mem_singleton.mpr h)⟩
  · obtain ⟨x', hx', hahead, rfl⟩ := mem_aheadIds.mp hmem
    have hx'' : x' ∈ settledRows settings turn s.db.outbox := houtbox ▸ hx'
    obtain ⟨x, hx, rfl⟩ := List.mem_map.mp hx''
    split_ifs at hahead ⊢ with hrow
    · rw [settledRow_ahead (hposition.trans htime)] at hahead
      cases hahead
    · exact ⟨mem_aheadIds.mpr ⟨x, hx, hahead, rfl⟩, fun h => hrow (List.mem_singleton.mp h)⟩

theorem Held.mono (hdrains : Drains organizationId position touched settled s s')
    (hnot : event.outboxId ∉ touched) (h : Held organizationId s.db.outbox event) :
    Held organizationId s'.db.outbox event := by
  obtain ⟨x, hx, hid, horganization, hrest⟩ := h
  exact ⟨x, hdrains.keeps x hx horganization (hid ▸ hnot), hid, horganization, hrest⟩

/-- The loop of a cycle settles the events it has leased. -/
theorem PublishLoop.drains {events : List LeasedOutboxEvent} {turns : List Turn}
    (h : PublishLoop organizationId settings admitted s events turns s')
    (hadmitted : ∀ row, admitted row → row.ahead organizationId position = false)
    (hids : (s.db.outbox.map (·.id)).Nodup) (hposition : (ofLex position).1 ≤ s.now)
    (hevents : (events.map (·.outboxId)).Nodup) (hheld : ∀ event ∈ events, Held organizationId s.db.outbox event) :
    Drains organizationId position (events.map (·.outboxId)) (events.map (·.outboxId)) s s' ∧
      turns.map (·.event) = events ∧ ∀ turn ∈ turns, Acknowledged organizationId s'.db.outbox turn := by
  induction h with
  | done s => exact ⟨.refl hids, rfl, fun _ h => by cases h⟩
  | @settled s s' events turns turn db' htime hsettle hrest ih =>
    rw [List.map_cons, List.nodup_cons] at hevents
    have hfirst := hheld _ List.mem_cons_self
    have houtbox := (turn_settles hids hfirst).1 db' hsettle
    have hdrains : Drains organizationId position _ _ s ⟨turn.settledAt, db'⟩ :=
      settle_drains hids htime hposition houtbox
    obtain ⟨hrest', hturns, hdone⟩ := ih hdrains.ids (hposition.trans htime) hevents.2 fun event hevent =>
      (hheld event (List.mem_cons_of_mem _ hevent)).mono hdrains fun hmem =>
        hevents.1 (List.mem_map.mpr ⟨event, hevent, List.mem_singleton.mp hmem⟩)
    refine ⟨hdrains.trans hrest', by rw [List.map_cons, hturns], fun t ht => ?_⟩
    rcases List.mem_cons.mp ht with rfl | ht
    · intro hreturned
      obtain ⟨x, hx, hid, horganization, -⟩ := hfirst
      have hmem : settledRow settings t.settledAt .accepted x ∈ db'.outbox := by
        rw [houtbox]
        refine List.mem_map.mpr ⟨x, hx, ?_⟩
        rw [if_pos hid, hreturned]
        rfl
      exact ⟨_, hrest'.keeps _ hmem horganization fun h => hevents.1 (hid ▸ h), hid, horganization, rfl⟩
    · exact hdone t ht
  | lost turn outboxId htime hsettle hrest ih =>
    exact absurd hsettle ((turn_settles hids (hheld _ List.mem_cons_self)).2 outboxId)
  | meanwhile db' hother hrest ih =>
    have hdrains := hother.drains hids hadmitted
    obtain ⟨hrest', hturns, hdone⟩ := ih hdrains.ids hposition hevents fun event hevent =>
      (hheld event hevent).mono hdrains List.not_mem_nil
    exact ⟨hdrains.trans hrest', hturns, hdone⟩

/-! ### The lease -/

theorem nodup_deliveryKeys (hids : (rows.map (·.id)).Nodup) : (rows.map OutboxRow.deliveryKey).Nodup := by
  refine List.Nodup.of_map (fun k : Instant ×ₗ Instant ×ₗ Uuid => (ofLex (ofLex k).2).2) ?_
  rw [List.map_map]
  exact hids

/-- The rows that a lease takes. -/
abbrev leasePage (organizationId : Uuid) (settings : OutboxPublisherSettings) (leasedAt : Instant)
    (rows : List OutboxRow) : List OutboxRow :=
  Keyset.page OutboxRow.deliveryKey (OutboxRow.due organizationId leasedAt (leasedAt - settings.leaseFor))
    settings.batchSize.toNat rows

theorem due_iff {now leaseExpiredAt : Instant} {x : OutboxRow} : x.due organizationId now leaseExpiredAt = true ↔
    x.organizationId = organizationId ∧ x.publishedAt = none ∧ x.availableAt ≤ now ∧
      ∀ lockedAt ∈ x.lockedAt, lockedAt ≤ leaseExpiredAt := by
  cases hlocked : x.lockedAt with
  | none => simp [OutboxRow.due, hlocked, and_assoc]
  | some lockedAt => simp [OutboxRow.due, hlocked, and_assoc]

/-- The events of a lease are those of its page, and hold their rows. -/
theorem lease_drains {leasedAt : Instant} {uuid : Uuid} {events : List LeasedOutboxEvent}
    (hids : (s.db.outbox.map (·.id)).Nodup) (htime : s.now ≤ leasedAt)
    (hlease : leaseAvailable organizationId settings.workerId leasedAt settings.batchSize settings.leaseFor uuid s.db =
      .ok (events, db')) :
    Drains organizationId position (events.map (·.outboxId)) [] s ⟨leasedAt, db'⟩ ∧
      (events.map (·.outboxId)).Perm ((leasePage organizationId settings leasedAt s.db.outbox).map (·.id)) ∧
      ∀ event ∈ events, Held organizationId db'.outbox event := by
  obtain ⟨rfl, hevents⟩ := leaseAvailable_ok hlease
  have hkeep : ∀ r : OutboxRow, (if takes organizationId leasedAt settings.batchSize settings.leaseFor s.db r then
      r.leased leasedAt (leaseTokenOf settings.workerId uuid) else r).id = r.id := by
    intro r
    split_ifs <;> rfl
  have hmap : events.map (·.outboxId) =
      (s.db.outbox.filter (takes organizationId leasedAt settings.batchSize settings.leaseFor s.db)).map (·.id) := by
    rw [map_of_mapM (fun _ _ hevent => (leasedEvent_ok hevent).1) hevents, List.map_map]
    rfl
  have hperm : (events.map (·.outboxId)).Perm
      ((leasePage organizationId settings leasedAt s.db.outbox).map (·.id)) := by
    have hpage : ((leasePage organizationId settings leasedAt s.db.outbox).map (·.id)).Nodup :=
      Keyset.page_labels hids _
    rw [hmap, List.perm_ext_iff_of_nodup (hids.sublist (List.filter_sublist.map _)) hpage]
    intro id
    constructor
    · intro hmem
      obtain ⟨x, hx, rfl⟩ := List.mem_map.mp hmem
      have htaken := (List.mem_filter.mp hx).2
      simp only [takes, taken, Bool.and_eq_true, decide_eq_true_iff] at htaken
      exact htaken.1
    · intro hmem
      obtain ⟨x, hx, rfl⟩ := List.mem_map.mp hmem
      obtain ⟨hrow, hdue⟩ := Keyset.mem_of_mem_page hx
      refine List.mem_map.mpr ⟨x, List.mem_filter.mpr ⟨hrow, ?_⟩, rfl⟩
      simp only [takes, taken, Bool.and_eq_true, decide_eq_true_iff, beq_iff_eq]
      exact ⟨hmem, (due_iff.mp hdue).1⟩
  refine ⟨⟨?_, htime, fun x hx _ hnot => ?_, fun id hmem => ⟨?_, List.not_mem_nil⟩⟩, hperm, fun event hevent => ?_⟩
  · show ((leasedOutbox _ _ _ _ _ _ _).map (·.id)).Nodup
    unfold leasedOutbox
    rw [map_ids hkeep]
    exact hids
  · refine List.mem_map.mpr ⟨x, hx, if_neg fun htaken => hnot ?_⟩
    rw [hmap]
    exact List.mem_map.mpr ⟨x, List.mem_filter.mpr ⟨hx, htaken⟩, rfl⟩
  · obtain ⟨x', hx', hahead, rfl⟩ := mem_aheadIds.mp hmem
    obtain ⟨x, hx, rfl⟩ := List.mem_map.mp hx'
    refine mem_aheadIds.mpr ⟨x, hx, ?_, (hkeep x).symm⟩
    split_ifs at hahead
    · exact hahead
    · exact hahead
  · obtain ⟨x', hx', hleased⟩ := mem_of_mapM hevents hevent
    obtain ⟨x, hx, rfl⟩ := List.mem_map.mp hx'
    obtain ⟨hx, htaken⟩ := List.mem_filter.mp hx
    obtain ⟨hid, -, -, -, hlocked⟩ := leasedEvent_ok hleased
    have hnone : x.publishedAt = none := publishedAt_of_due (due_of_taken hids hx htaken)
    exact ⟨_, List.mem_map.mpr ⟨x, hx, if_pos htaken⟩, hid.symm, organizationId_of_taken htaken, hnone, hlocked⟩

/-! ### Every cycle -/

variable {r x : OutboxRow} {turns : List Turn} {cycles : List (List Turn)}

/-- A cycle settles the rows of its page. -/
theorem PublisherCycle.drains (h : PublisherCycle organizationId settings admitted s turns s')
    (hadmitted : ∀ row, admitted row → row.ahead organizationId position = false)
    (hids : (s.db.outbox.map (·.id)).Nodup) (hposition : (ofLex position).1 ≤ s.now) :
    Drains organizationId position (turns.map (·.event.outboxId)) (turns.map (·.event.outboxId)) s s' ∧
      (∀ turn ∈ turns, Acknowledged organizationId s'.db.outbox turn) ∧ ∃ leasedAt, s.now ≤ leasedAt ∧
        (turns.map (·.event.outboxId)).Perm ((leasePage organizationId settings leasedAt s.db.outbox).map (·.id)) := by
  obtain ⟨leasedAt, uuid, events, order, db', htime, hlease, horder, hloop⟩ := h
  obtain ⟨hleased, hperm, hheld⟩ := @lease_drains organizationId settings position db' s leasedAt uuid events hids htime
    hlease
  have horder' := (horder.map (·.outboxId)).trans hperm
  have hnodup : (order.map (·.outboxId)).Nodup := horder'.nodup_iff.mpr (Keyset.page_labels hids _)
  obtain ⟨hsettled, hturns, hdone⟩ := hloop.drains hadmitted hleased.ids (hposition.trans htime) hnodup
    fun event hevent => hheld event (horder.mem_iff.mp hevent)
  have heq : turns.map (·.event.outboxId) = order.map (·.outboxId) := by
    rw [← hturns, List.map_map]
    rfl
  rw [heq]
  refine ⟨(hleased.trans hsettled).weaken ?_ (List.subset_append_right _ _), hdone, leasedAt, htime, horder'⟩
  exact List.append_subset.mpr ⟨(horder.map _).symm.subset, List.Subset.refl _⟩

/-- A row that is not due at its turn is not of the cycle. -/
theorem not_turn_of_published (hids : (rows.map (·.id)).Nodup) {leasedAt : Instant} {ids : List Uuid}
    (hperm : ids.Perm ((leasePage organizationId settings leasedAt rows).map (·.id))) (hx : x ∈ rows)
    (hpublished : x.publishedAt ≠ none) : x.id ∉ ids := by
  intro hmem
  obtain ⟨y, hy, hid⟩ := List.mem_map.mp (hperm.mem_iff.mp hmem)
  obtain ⟨hrow, hdue⟩ := Keyset.mem_of_mem_page hy
  rw [List.inj_on_of_nodup_map hids hrow hx hid] at hdue
  exact hpublished (publishedAt_of_due hdue)

/-- A cycle without a turn of a row that waits settles as many rows in front of it as a batch has. -/
theorem OutboxRow.Waits.cycle (hwaits : r.Waits organizationId settings s)
    (hids : (s.db.outbox.map (·.id)).Nodup) {leasedAt : Instant} {ids : List Uuid}
    (hdrains : Drains organizationId r.deliveryKey ids ids s s') (htime : s.now ≤ leasedAt)
    (hperm : ids.Perm ((leasePage organizationId settings leasedAt s.db.outbox).map (·.id))) (hnot : r.id ∉ ids) :
    r.Waits organizationId settings s' ∧ (aheadIds organizationId r.deliveryKey s'.db.outbox).card +
      settings.batchSize.toNat ≤ (aheadIds organizationId r.deliveryKey s.db.outbox).card := by
  have hdue : r.due organizationId leasedAt (leasedAt - settings.leaseFor) = true :=
    due_iff.mpr ⟨hwaits.organizationId, hwaits.publishedAt, hwaits.availableAt.trans htime, fun lockedAt hlocked =>
      (hwaits.lockedAt lockedAt hlocked).trans (Int.sub_le_sub_right htime _)⟩
  obtain ⟨hlength, hfront⟩ := Keyset.page_full (nodup_deliveryKeys hids) hwaits.mem hdue fun hpage =>
    hnot (hperm.mem_iff.mpr (List.mem_map_of_mem hpage))
  have hids' : ids.Nodup := hperm.nodup_iff.mpr (Keyset.page_labels hids _)
  have hcard : ids.toFinset.card = settings.batchSize.toNat := by
    rw [List.toFinset_card_of_nodup hids', hperm.length_eq, List.length_map, hlength]
  have hsubset : ids.toFinset ⊆ aheadIds organizationId r.deliveryKey s.db.outbox := by
    intro id hid
    obtain ⟨y, hy, rfl⟩ := List.mem_map.mp (hperm.mem_iff.mp (List.mem_toFinset.mp hid))
    obtain ⟨hrow, hdue⟩ := Keyset.mem_of_mem_page hy
    have hdue' := due_iff.mp hdue
    exact mem_aheadIds.mpr ⟨y, hrow, ahead_iff.mpr ⟨hdue'.1, hdue'.2.1, hfront y hy⟩, rfl⟩
  have hrest : aheadIds organizationId r.deliveryKey s'.db.outbox ⊆
      aheadIds organizationId r.deliveryKey s.db.outbox \ ids.toFinset := by
    intro id hid
    obtain ⟨hbefore, hsettled⟩ := hdrains.ahead id hid
    exact Finset.mem_sdiff.mpr ⟨hbefore, fun h => hsettled (List.mem_toFinset.mp h)⟩
  refine ⟨⟨hdrains.keeps r hwaits.mem hwaits.organizationId hnot, hwaits.organizationId, hwaits.publishedAt,
    hwaits.availableAt.trans hdrains.time, fun lockedAt hlocked => ?_⟩, ?_⟩
  · exact (hwaits.lockedAt lockedAt hlocked).trans (Int.sub_le_sub_right hdrains.time _)
  · have hle := Finset.card_le_card hrest
    rw [Finset.card_sdiff_of_subset hsubset, hcard] at hle
    have hroom := Finset.card_le_card hsubset
    rw [hcard] at hroom
    omega

/-- A published row stays as it is in every run. -/
theorem PublisherCycles.keeps (h : PublisherCycles organizationId settings admitted s cycles s')
    (hadmitted : ∀ row, admitted row → row.ahead organizationId position = false)
    (hids : (s.db.outbox.map (·.id)).Nodup) (hposition : (ofLex position).1 ≤ s.now) (hx : x ∈ s.db.outbox)
    (horganization : x.organizationId = organizationId) (hpublished : x.publishedAt ≠ none) : x ∈ s'.db.outbox := by
  induction h with
  | stopped s => exact hx
  | cycle hcycle hrest ih =>
    obtain ⟨hdrains, -, leasedAt, -, hperm⟩ := hcycle.drains hadmitted hids hposition
    exact ih hdrains.ids (hposition.trans hdrains.time)
      (hdrains.keeps x hx horganization (not_turn_of_published hids hperm hx hpublished))
  | meanwhile db' hother hrest ih =>
    have hdrains := hother.drains hids hadmitted
    exact ih hdrains.ids hposition (hdrains.keeps x hx horganization List.not_mem_nil)

/-- As `publisher_reaches`, for the number of ids in front. -/
theorem reaches_of_card (h : PublisherCycles organizationId settings admitted s cycles s')
    (hadmitted : ∀ row, admitted row → row.ahead organizationId r.deliveryKey = false)
    (hids : (s.db.outbox.map (·.id)).Nodup) (hwaits : r.Waits organizationId settings s)
    (hcycles : (aheadIds organizationId r.deliveryKey s.db.outbox).card < cycles.length * settings.batchSize.toNat) :
    ∃ turns ∈ cycles, ∃ turn ∈ turns, turn.event.outboxId = r.id ∧
      Acknowledged organizationId s'.db.outbox turn := by
  induction h with
  | stopped s =>
    rw [List.length_nil, Nat.zero_mul] at hcycles
    exact absurd hcycles (Nat.not_lt_zero _)
  | @cycle s s' s'' turns cycles hcycle hrest ih =>
    obtain ⟨hdrains, hdone, leasedAt, htime, hperm⟩ := hcycle.drains hadmitted hids hwaits.availableAt
    by_cases hturn : r.id ∈ turns.map (·.event.outboxId)
    · obtain ⟨turn, hmem, hid⟩ := List.mem_map.mp hturn
      refine ⟨turns, List.mem_cons_self, turn, hmem, hid, fun hreturned => ?_⟩
      obtain ⟨x, hx, hxid, horganization, hpublished⟩ := hdone turn hmem hreturned
      refine ⟨x, hrest.keeps hadmitted hdrains.ids (hwaits.availableAt.trans hdrains.time) hx horganization ?_, hxid,
        horganization, hpublished⟩
      rw [hpublished]
      exact Option.some_ne_none _
    · obtain ⟨hwaits', hcard⟩ := hwaits.cycle hids hdrains htime hperm hturn
      rw [List.length_cons, Nat.succ_mul] at hcycles
      obtain ⟨turns', hturns', hreach⟩ := ih hdrains.ids hwaits' (by omega)
      exact ⟨turns', List.mem_cons_of_mem _ hturns', hreach⟩
  | meanwhile db' hother hrest ih =>
    have hdrains : Drains organizationId r.deliveryKey [] [] _ _ := hother.drains hids hadmitted
    have hmem := hdrains.keeps r hwaits.mem hwaits.organizationId List.not_mem_nil
    refine ih hdrains.ids ⟨hmem, hwaits.organizationId, hwaits.publishedAt, hwaits.availableAt, hwaits.lockedAt⟩ ?_
    refine lt_of_le_of_lt (Finset.card_le_card fun id hid => ?_) hcycles
    exact (hdrains.ahead id hid).1

end

/-! ### Main result -/

/-- **No event waits for ever.** In every run of the organization's publisher, next to producers that add rows behind
it, a row that is available and not leased gets its turn once the batches of the completed cycles are more than the
unpublished rows in front of it, however many deliveries fail; if the transport accepts it, it is published for good. -/
theorem publisher_reaches {organizationId : Uuid} {settings : OutboxPublisherSettings} {r : OutboxRow}
    {s s' : PublisherClock} {cycles : List (List Turn)}
    (hrun : PublisherCycles organizationId settings (fun row => ¬row.deliveryKey < r.deliveryKey) s cycles s')
    (hids : (s.db.outbox.map (·.id)).Nodup) (hwaits : r.Waits organizationId settings s)
    (hcycles : (s.db.outbox.filter (OutboxRow.ahead organizationId r.deliveryKey)).length <
      cycles.length * settings.batchSize.toNat) :
    ∃ turns ∈ cycles, ∃ turn ∈ turns, turn.event.outboxId = r.id ∧ (turn.outcome = .returned →
      ∃ x ∈ s'.db.outbox, x.id = r.id ∧ x.organizationId = organizationId ∧
        x.publishedAt = some turn.settledAt) := by
  have hadmitted : ∀ row : OutboxRow, ¬row.deliveryKey < r.deliveryKey →
      row.ahead organizationId r.deliveryKey = false := by
    intro row hbehind
    rw [Bool.eq_false_iff]
    exact fun hahead => hbehind (ahead_iff.mp hahead).2.2
  obtain ⟨turns, hturns, turn, hturn, hid, hdone⟩ :=
    reaches_of_card hrun hadmitted hids hwaits (lt_of_le_of_lt card_aheadIds_le hcycles)
  refine ⟨turns, hturns, turn, hturn, hid, fun hreturned => ?_⟩
  rw [← hid]
  exact hdone hreturned

/-- A publisher that takes one event in a cycle. -/
def singleSettings : OutboxPublisherSettings :=
  { sampleSettings with batchSize := 1, batchOk := by decide }

/-- A row behind the sample row. -/
def laterOutboxRow : OutboxRow := { sampleOutboxRow with id := 21, availableAt := 105 }

/-- The event of its lease at time 130. -/
def laterLeasedEvent : LeasedOutboxEvent :=
  { sampleLeasedEvent with
    outboxId := 21, availableAt := 105, lockedAt := 130, lockedBy := leaseTokenOf (py "w") 2 }

/-- The sample row after its delivery has failed at time 120. -/
def failedOutboxRow : OutboxRow := (sampleOutboxRow.leased 110 sampleToken).retried 30000120 (py "transport.failed")

/-- The row behind it, leased and published. -/
def acceptedOutboxRow : OutboxRow := (laterOutboxRow.leased 130 (leaseTokenOf (py "w") 2)).published 140

/-- The transport raises for the sample row, and accepts the one behind it. -/
theorem publisher_reaches_sample : ∃ cycles s',
    PublisherCycles 7 singleSettings (fun row => ¬row.deliveryKey < laterOutboxRow.deliveryKey)
      ⟨110, { outbox := [sampleOutboxRow, laterOutboxRow] }⟩ cycles s' ∧
    ∃ turns ∈ cycles, ∃ turn ∈ turns, turn.event.outboxId = laterOutboxRow.id ∧ (turn.outcome = .returned →
      ∃ x ∈ s'.db.outbox, x.id = laterOutboxRow.id ∧ x.organizationId = 7 ∧ x.publishedAt = some turn.settledAt) := by
  have hfirst : PublisherCycle 7 singleSettings (fun row => ¬row.deliveryKey < laterOutboxRow.deliveryKey)
      ⟨110, { outbox := [sampleOutboxRow, laterOutboxRow] }⟩ [⟨sampleLeasedEvent, .raised, 120⟩]
      ⟨120, { outbox := [failedOutboxRow, laterOutboxRow] }⟩ :=
    ⟨110, 1, [sampleLeasedEvent], _, { outbox := [sampleOutboxRow.leased 110 sampleToken, laterOutboxRow] },
      le_refl _, rfl, .refl _, .settled ⟨sampleLeasedEvent, .raised, 120⟩ _ (by decide) rfl (.done _)⟩
  have hsecond : PublisherCycle 7 singleSettings (fun row => ¬row.deliveryKey < laterOutboxRow.deliveryKey)
      ⟨120, { outbox := [failedOutboxRow, laterOutboxRow] }⟩ [⟨laterLeasedEvent, .returned, 140⟩]
      ⟨140, { outbox := [failedOutboxRow, acceptedOutboxRow] }⟩ :=
    ⟨130, 2, [laterLeasedEvent], _,
      { outbox := [failedOutboxRow, laterOutboxRow.leased 130 (leaseTokenOf (py "w") 2)] }, by decide, rfl, .refl _,
      .settled ⟨laterLeasedEvent, .returned, 140⟩ _ (by decide) rfl (.done _)⟩
  have hwaits : laterOutboxRow.Waits 7 singleSettings ⟨110, { outbox := [sampleOutboxRow, laterOutboxRow] }⟩ :=
    ⟨List.mem_cons_of_mem _ List.mem_cons_self, rfl, rfl, by decide, fun _ h => by cases h⟩
  have hrun := PublisherCycles.cycle hfirst (.cycle hsecond (.stopped _))
  exact ⟨_, _, hrun, publisher_reaches hrun (by decide) hwaits (by decide)⟩

end NetopsCopilot
