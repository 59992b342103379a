import NetopsCopilot.Application.OutboxRuns

/-!
# Leases that exclude each other (`lease_available` in `netops_api/application/outbox.py`)

Workers of any organizations share one clock and ask for leases of any duration. A lease should exclude
every other one on its row until it expires or is settled (`Exclusive`).

The row stores when it was locked, and not for how long: whether a lease has expired is judged by the
duration that the next worker asks for. So leases exclude each other in every run in which no worker asks
for a lease while its own duration has passed for an unsettled lease of its organization that has not
expired (`LeaseRun.Patient`), and not in all runs (`leases_overlap`).
-/

namespace NetopsCopilot

open Raising

/-! ### Leases -/

/-- A lease of a row, granted at a time for a duration. -/
structure GrantedLease where
  organizationId : Uuid
  outboxId : Uuid
  leaseToken : PyStr
  grantedAt : Instant
  leaseFor : Int
deriving DecidableEq

def GrantedLease.expiresAt (g : GrantedLease) : Instant := g.grantedAt + g.leaseFor

/-- A lease granted, or settled by the token of its row. -/
inductive LeaseRecord where
  | granted (lease : GrantedLease)
  | settled (outboxId : Uuid) (leaseToken : PyStr)
deriving DecidableEq

/-- A lease of the log that no later entry settles. -/
def Unsettled (log : List LeaseRecord) (g : GrantedLease) : Prop :=
  ∃ before after, log = before ++ .granted g :: after ∧ .settled g.outboxId g.leaseToken ∉ after

/-- Until a lease is settled, its row is granted again only after it has expired. -/
def Exclusive (log : List LeaseRecord) : Prop :=
  ∀ before g between g' after, log = before ++ .granted g :: (between ++ .granted g' :: after) →
    g'.outboxId = g.outboxId → .settled g.outboxId g.leaseToken ∉ between → g.expiresAt ≤ g'.grantedAt

section

variable {log : List LeaseRecord} {g g' : GrantedLease}

theorem Unsettled.mem (h : Unsettled log g) : .granted g ∈ log := by
  obtain ⟨before, after, rfl, -⟩ := h
  simp

/-- A longer log has the same unsettled leases, the one that its last entry grants, and not the one that it
settles. -/
theorem unsettled_snoc {e : LeaseRecord} (h : Unsettled (log ++ [e]) g) :
    e = .granted g ∨ Unsettled log g ∧ e ≠ .settled g.outboxId g.leaseToken := by
  obtain ⟨before, after, heq, hafter⟩ := h
  rcases List.eq_nil_or_concat after with rfl | ⟨after', x, rfl⟩
  · obtain ⟨-, hlast⟩ := List.append_inj' heq rfl
    exact Or.inl (List.cons.inj hlast).1
  · rw [List.concat_eq_append, ← List.cons_append, ← List.append_assoc] at heq
    obtain ⟨hlog, hlast⟩ := List.append_inj' heq rfl
    rw [List.concat_eq_append, List.mem_append, not_or] at hafter
    have hx : e = x := (List.cons.inj hlast).1
    exact Or.inr ⟨⟨before, after', hlog, hafter.1⟩, fun he => hafter.2 (by simp [← hx, he])⟩

theorem exclusive_nil : Exclusive [] := by
  intro before g between g' after heq
  cases before <;> cases heq

theorem exclusive_snoc {e : LeaseRecord} (h : Exclusive log)
    (he : ∀ g', e = .granted g' → ∀ g, Unsettled log g → g'.outboxId = g.outboxId →
      g.expiresAt ≤ g'.grantedAt) : Exclusive (log ++ [e]) := by
  intro before g between g' after heq hrow hbetween
  rcases List.eq_nil_or_concat after with rfl | ⟨after', x, rfl⟩
  · rw [← List.cons_append, ← List.append_assoc] at heq
    obtain ⟨hlog, hlast⟩ := List.append_inj' heq rfl
    exact he g' (List.cons.inj hlast).1 g ⟨before, between, hlog, hbetween⟩ hrow
  · rw [List.concat_eq_append, ← List.cons_append, ← List.append_assoc, ← List.cons_append,
      ← List.append_assoc] at heq
    have hlog := (List.append_inj' heq rfl).1
    rw [List.append_assoc, List.cons_append] at hlog
    exact h before g between g' after' hlog hrow hbetween

end

/-- The grants of one call, which are on different rows. -/
theorem grants_snoc {log : List LeaseRecord} {gs : List GrantedLease} (h : Exclusive log)
    (hrows : (gs.map (·.outboxId)).Nodup)
    (hexpired : ∀ g' ∈ gs, ∀ g, Unsettled log g → g'.outboxId = g.outboxId → g.expiresAt ≤ g'.grantedAt) :
    Exclusive (log ++ gs.map .granted) ∧
      ∀ g, Unsettled (log ++ gs.map .granted) g → g ∈ gs ∨ Unsettled log g := by
  induction gs using List.reverseRecOn with
  | nil =>
    rw [List.map_nil, List.append_nil]
    exact ⟨h, fun g hg => Or.inr hg⟩
  | append_singleton gs g₀ ih =>
    rw [List.map_append, List.nodup_append] at hrows
    obtain ⟨hrows, -, hdisjoint⟩ := hrows
    obtain ⟨hexclusive, hunsettled⟩ := ih hrows fun g' hg' => hexpired g' (List.mem_append_left _ hg')
    rw [List.map_append, ← List.append_assoc]
    refine ⟨exclusive_snoc hexclusive ?_, fun g hg => ?_⟩
    · rintro g' hlast g hg hrow
      cases hlast
      rcases hunsettled g hg with hmem | hbefore
      · have hne := hdisjoint _ (List.mem_map_of_mem hmem) _ (List.mem_singleton_self _)
        exact absurd hrow.symm hne
      · exact hexpired g₀ (List.mem_append_right _ (List.mem_singleton_self _)) g hbefore hrow
    · rcases unsettled_snoc hg with hlast | ⟨hbefore, -⟩
      · cases hlast
        exact Or.inl (List.mem_append_right _ (List.mem_singleton_self _))
      · rcases hunsettled g hbefore with hmem | hbefore
        · exact Or.inl (List.mem_append_left _ hmem)
        · exact Or.inr hbefore

/-! ### Runs -/

/-- The committed database, the shared clock and the log. -/
structure LeaseRun where
  db : Db
  clock : Instant
  log : List LeaseRecord := []

/-- What is logged for an event that `lease_available` returns. -/
def LeasedOutboxEvent.granted (organizationId : Uuid) (now : Instant) (leaseFor : Int)
    (event : LeasedOutboxEvent) : GrantedLease :=
  ⟨organizationId, event.outboxId, event.lockedBy, now, leaseFor⟩

/-- A producer adds a row, a call commits or raises, or something else happens outside the outbox. Leases are
granted at the time of the clock if `guard` allows them. -/
inductive LeaseStep (guard : LeaseRun → Uuid → Instant → Int → Prop) : LeaseRun → LeaseRun → Prop where
  | enqueue {s} (row : OutboxRow) (hfresh : row.Fresh) (hid : row.id ∉ s.db.outbox.map (·.id)) :
      LeaseStep guard s { s with db := { s.db with outbox := s.db.outbox ++ [row] } }
  | elsewhere {s} (db' : Db) (houtbox : db'.outbox = s.db.outbox) : LeaseStep guard s { s with db := db' }
  | lease {s} (organizationId : Uuid) (workerId : PyStr) (now : Instant) (limit leaseFor : Int) (uuid : Uuid)
      (events : List LeasedOutboxEvent) (db' : Db) (hclock : s.clock ≤ now)
      (hguard : guard s organizationId now leaseFor)
      (hlease : leaseAvailable organizationId workerId now limit leaseFor uuid s.db = .ok (events, db')) :
      LeaseStep guard s
        { db := db', clock := now
          log := s.log ++ (events.map (LeasedOutboxEvent.granted organizationId now leaseFor)).map .granted }
  | published {s} (organizationId : Uuid) (lease : OutboxLease) (publishedAt : Instant) (db' : Db)
      (hsettle : markPublished organizationId lease publishedAt s.db = .ok db') :
      LeaseStep guard s { s with db := db', log := s.log ++ [.settled lease.outboxId lease.leaseToken] }
  | retried {s} (organizationId : Uuid) (lease : OutboxLease) (retryAt : Instant) (errorCode : PyStr) (db' : Db)
      (hsettle : scheduleRetry organizationId lease retryAt errorCode s.db = .ok db') :
      LeaseStep guard s { s with db := db', log := s.log ++ [.settled lease.outboxId lease.leaseToken] }
  | raised {s} (organizationId : Uuid) (c : OutboxCall) (e : OutboxError)
      (hrun : c.run organizationId s.db = .error e) : LeaseStep guard s s

/-- The states that are reached from an outbox without rows. -/
def LeaseReachable (guard : LeaseRun → Uuid → Instant → Int → Prop) (s : LeaseRun) : Prop :=
  ∃ (db : Db) (clock : Instant), db.outbox = [] ∧
    Relation.ReflTransGen (LeaseStep guard) { db := db, clock := clock } s

/-- Every call may lease. -/
def LeaseRun.Unguarded (_ : LeaseRun) (_ : Uuid) (_ : Instant) (_ : Int) : Prop := True

/-- No unsettled lease of the organization has run as long as this call asks for, unless it has expired. -/
def LeaseRun.Patient (s : LeaseRun) (organizationId : Uuid) (now : Instant) (leaseFor : Int) : Prop :=
  ∀ g, Unsettled s.log g → g.organizationId = organizationId →
    ¬(g.grantedAt + leaseFor ≤ now ∧ now < g.expiresAt)

/-- A call that asks for at least the durations of the unsettled leases is patient. -/
theorem patient_of_longest {s : LeaseRun} {organizationId : Uuid} {now : Instant} {leaseFor : Int}
    (h : ∀ g, Unsettled s.log g → g.organizationId = organizationId → g.leaseFor ≤ leaseFor) :
    s.Patient organizationId now leaseFor := by
  rintro g hg horganization ⟨hpassed, hopen⟩
  have hle := h g hg horganization
  unfold GrantedLease.expiresAt at hopen
  have hlt : g.grantedAt + leaseFor < g.grantedAt + g.leaseFor := lt_of_le_of_lt hpassed hopen
  exact absurd hlt (not_lt.mpr (by exact Int.add_le_add_left hle g.grantedAt))

/-! ### The invariant -/

/-- The row is locked by a lease. -/
structure OutboxRow.LockedBy (r : OutboxRow) (g : GrantedLease) : Prop where
  id : r.id = g.outboxId
  organizationId : r.organizationId = g.organizationId
  lockedAt : r.lockedAt = some g.grantedAt
  lockedBy : r.lockedBy = some g.leaseToken

/-- Each unsettled lease has expired, or its row is still locked by it. -/
structure LeaseRun.Inv (s : LeaseRun) : Prop where
  ids : (s.db.outbox.map (·.id)).Nodup
  exclusive : Exclusive s.log
  unsettled : ∀ g, Unsettled s.log g → g.expiresAt ≤ s.clock ∨ ∃ r ∈ s.db.outbox, r.LockedBy g

section

variable {s s' : LeaseRun}

/-- A settlement unlocks the row of the lease that it settles, and no other. -/
theorem LeaseRun.Inv.settle (h : s.Inv) {organizationId : Uuid} {lease : OutboxLease}
    {f : OutboxRow → OutboxRow} (hf : Settles f) {db' : Db}
    (hsettle : NetopsCopilot.settle organizationId lease f s.db = .ok db') :
    LeaseRun.Inv { s with db := db', log := s.log ++ [.settled lease.outboxId lease.leaseToken] } := by
  rw [settle_eq hf] at hsettle
  split_ifs at hsettle
  cases hsettle
  refine ⟨?_, exclusive_snoc h.exclusive fun g' hg' => (by cases hg'), fun g hg => ?_⟩
  · show ((s.db.outbox.map _).map _).Nodup
    rw [map_ids fun r => ?_]
    · exact h.ids
    · split_ifs
      · exact (hf.business r).id
      · rfl
  · rcases unsettled_snoc hg with hlast | ⟨hbefore, hother⟩
    · cases hlast
    · refine (h.unsettled g hbefore).imp id fun ⟨r, hr, hlocked⟩ => ⟨r, ?_, hlocked⟩
      refine List.mem_map.mpr ⟨r, hr, if_neg fun hheld => hother ?_⟩
      obtain ⟨-, hid, -, hby⟩ := heldBy_iff.mp hheld
      rw [hlocked.lockedBy] at hby
      rw [← hid, hlocked.id, ← Option.some.inj hby]

/-- What `lease_available` returns are the rows that it takes, in the order of the table. -/
theorem granted_taken {organizationId : Uuid} {workerId : PyStr} {now : Instant} {limit leaseFor : Int}
    {uuid : Uuid} {db : Db} {events : List LeasedOutboxEvent}
    (h : ((db.outbox.filter (takes organizationId now limit leaseFor db)).map
      (OutboxRow.leased now (leaseTokenOf workerId uuid))).mapM leasedEvent = .ok events) :
    events.map (LeasedOutboxEvent.granted organizationId now leaseFor) =
      (db.outbox.filter (takes organizationId now limit leaseFor db)).map fun r =>
        ⟨organizationId, r.id, leaseTokenOf workerId uuid, now, leaseFor⟩ := by
  have hmap := map_of_mapM (g := fun r : OutboxRow => (r.id, r.lockedBy))
    (h := fun event : LeasedOutboxEvent => (event.outboxId, some event.lockedBy))
    (fun r event hevent => by
      obtain ⟨hid, -, -, -, hlocked⟩ := leasedEvent_ok hevent
      rw [hid, hlocked]) h
  have hgrant := congrArg (List.map fun p : Uuid × Option PyStr =>
    (⟨organizationId, p.1, p.2.getD [], now, leaseFor⟩ : GrantedLease)) hmap
  rw [List.map_map, List.map_map, List.map_map] at hgrant
  exact hgrant

/-- A lease of a patient call takes a row whose leases have expired. -/
theorem LeaseRun.Inv.expired (h : s.Inv) {organizationId : Uuid} {now : Instant} {limit leaseFor : Int}
    (hclock : s.clock ≤ now) (hpatient : s.Patient organizationId now leaseFor) {r : OutboxRow}
    (hr : r ∈ s.db.outbox) (htaken : takes organizationId now limit leaseFor s.db r = true)
    {g : GrantedLease} (hg : Unsettled s.log g) (hrow : r.id = g.outboxId) : g.expiresAt ≤ now := by
  rcases h.unsettled g hg with hexpired | ⟨r', hr', hlocked⟩
  · exact le_trans hexpired hclock
  · have hsame : r' = r := List.inj_on_of_nodup_map h.ids hr' hr (hlocked.id.trans hrow.symm)
    subst hsame
    have hdue := due_of_taken h.ids hr htaken
    simp only [OutboxRow.due, hlocked.lockedAt, Option.all_some, Bool.and_eq_true, decide_eq_true_eq] at hdue
    have hpassed : g.grantedAt + leaseFor ≤ now := Int.add_le_of_le_sub_right hdue.2
    have horganization := hlocked.organizationId.symm.trans (organizationId_of_taken htaken)
    exact not_lt.mp fun hopen => hpatient g hg horganization ⟨hpassed, hopen⟩

theorem LeaseRun.Inv.lease (h : s.Inv) {organizationId : Uuid} {workerId : PyStr} {now : Instant}
    {limit leaseFor : Int} {uuid : Uuid} {events : List LeasedOutboxEvent} {db' : Db}
    (hclock : s.clock ≤ now) (hpatient : s.Patient organizationId now leaseFor)
    (hlease : leaseAvailable organizationId workerId now limit leaseFor uuid s.db = .ok (events, db')) :
    LeaseRun.Inv { db := db', clock := now, log := s.log ++
      (events.map (LeasedOutboxEvent.granted organizationId now leaseFor)).map .granted } := by
  obtain ⟨rfl, hevents⟩ := leaseAvailable_ok hlease
  rw [granted_taken hevents]
  have hkeep : ∀ r : OutboxRow, (if takes organizationId now limit leaseFor s.db r then
      r.leased now (leaseTokenOf workerId uuid) else r).id = r.id := by
    intro r
    split_ifs <;> rfl
  have hrows : (((s.db.outbox.filter (takes organizationId now limit leaseFor s.db)).map fun r =>
      (⟨organizationId, r.id, leaseTokenOf workerId uuid, now, leaseFor⟩ : GrantedLease)).map
        (·.outboxId)).Nodup := by
    rw [List.map_map]
    exact (List.filter_sublist.map _).nodup h.ids
  obtain ⟨hexclusive, hunsettled⟩ := grants_snoc h.exclusive hrows fun g' hg' g hg hrow => by
    obtain ⟨r, hr, rfl⟩ := List.mem_map.mp hg'
    obtain ⟨hr, htaken⟩ := List.mem_filter.mp hr
    exact h.expired hclock hpatient hr htaken hg hrow
  refine ⟨?_, hexclusive, fun g hg => ?_⟩
  · show ((s.db.outbox.map _).map _).Nodup
    rw [map_ids hkeep]
    exact h.ids
  · rcases hunsettled g hg with hmem | hbefore
    · obtain ⟨r, hr, rfl⟩ := List.mem_map.mp hmem
      obtain ⟨hr, htaken⟩ := List.mem_filter.mp hr
      refine Or.inr ⟨_, List.mem_map_of_mem hr, ?_⟩
      rw [if_pos htaken]
      exact ⟨rfl, organizationId_of_taken htaken, rfl, rfl⟩
    · rcases h.unsettled g hbefore with hexpired | ⟨r, hr, hlocked⟩
      · exact Or.inl (le_trans hexpired hclock)
      · by_cases htaken : takes organizationId now limit leaseFor s.db r = true
        · exact Or.inl (h.expired hclock hpatient hr htaken hbefore hlocked.id)
        · exact Or.inr ⟨r, List.mem_map.mpr ⟨r, hr, if_neg htaken⟩, hlocked⟩

theorem LeaseRun.Inv.step (h : s.Inv) (hstep : LeaseStep LeaseRun.Patient s s') : s'.Inv := by
  cases hstep with
  | enqueue row hfresh hid =>
    refine ⟨?_, h.exclusive, fun g hg => (h.unsettled g hg).imp id ?_⟩
    · show ((s.db.outbox ++ [row]).map _).Nodup
      rw [List.map_append, List.map_singleton, List.nodup_append]
      refine ⟨h.ids, List.nodup_singleton _, fun a ha b hb hab => hid ?_⟩
      rw [← List.mem_singleton.mp hb, ← hab]
      exact ha
    · rintro ⟨r, hr, hlocked⟩
      exact ⟨r, List.mem_append_left _ hr, hlocked⟩
  | elsewhere db' houtbox =>
    obtain ⟨hids, hexclusive, hunsettled⟩ := h
    rw [← houtbox] at hids hunsettled
    exact ⟨hids, hexclusive, hunsettled⟩
  | lease organizationId workerId now limit leaseFor uuid events db' hclock hguard hlease =>
    exact h.lease hclock hguard hlease
  | published organizationId lease publishedAt db' hsettle =>
    exact h.settle (settles_published publishedAt) hsettle
  | retried organizationId lease retryAt errorCode db' hsettle =>
    exact h.settle (settles_retried retryAt errorCode) (scheduleRetry_ok hsettle)
  | raised organizationId c e hrun => exact h

/-- **Exclusive leases.** In every run whose calls are patient, until a lease is settled its row is granted
again only after it has expired. -/
theorem exclusive_of_patient (hs : LeaseReachable LeaseRun.Patient s) : Exclusive s.log := by
  obtain ⟨db, clock, hnone, hsteps⟩ := hs
  have hinv : s.Inv := by
    induction hsteps with
    | refl =>
      refine ⟨by simp [hnone], exclusive_nil, fun g hg => ?_⟩
      have hmem := hg.mem
      cases hmem
    | tail _ hstep ih => exact ih.step hstep
  exact hinv.exclusive

end

/-! ### Samples -/

/-- The lease of the sample row that worker `w` is granted at time 110, for 60. -/
def sampleLease : GrantedLease := ⟨7, 20, sampleToken, 110, 60⟩

/-- Worker `w` leases the sample row at time 110 for 60, and worker `v` leases it at time `now` for
`leaseFor`. -/
def releasedLog (now : Instant) (leaseFor : Int) : List LeaseRecord :=
  [.granted sampleLease, .granted ⟨7, 20, leaseTokenOf (py "v") 2, now, leaseFor⟩]

/-- A run with that log. -/
theorem released_reachable {guard : LeaseRun → Uuid → Instant → Int → Prop} {now : Instant} {leaseFor : Int}
    {events : List LeasedOutboxEvent} {db' : Db} (hclock : 110 ≤ now)
    (hlease : leaseAvailable 7 (py "v") now 1 leaseFor 2
      { outbox := [sampleOutboxRow.leased 110 sampleToken] } = .ok (events, db'))
    (hevents : events.map (LeasedOutboxEvent.granted 7 now leaseFor) =
      [⟨7, 20, leaseTokenOf (py "v") 2, now, leaseFor⟩])
    (hfirst : guard { db := { outbox := [sampleOutboxRow] }, clock := 100 } 7 110 60)
    (hsecond : guard { db := { outbox := [sampleOutboxRow.leased 110 sampleToken] }, clock := 110,
                       log := [.granted sampleLease] } 7 now leaseFor) :
    ∃ s, LeaseReachable guard s ∧ s.log = releasedLog now leaseFor := by
  have hleased : ∃ events, leaseAvailable 7 (py "w") 110 1 60 1 { outbox := [sampleOutboxRow] } =
      .ok (events, { outbox := [sampleOutboxRow.leased 110 sampleToken] }) ∧
      events.map (LeasedOutboxEvent.granted 7 110 60) = [sampleLease] := ⟨_, rfl, rfl⟩
  obtain ⟨events₁, hlease₁, hevents₁⟩ := hleased
  have hone : LeaseReachable guard { db := { outbox := [sampleOutboxRow.leased 110 sampleToken] },
                                     clock := 110, log := [.granted sampleLease] } := by
    refine ⟨{}, 100, rfl, .tail (.single
      (.enqueue sampleOutboxRow ⟨rfl, rfl, rfl, rfl, rfl⟩ (by decide))) ?_⟩
    have hstep : LeaseStep guard { db := { outbox := [sampleOutboxRow] }, clock := 100 } _ :=
      .lease 7 (py "w") 110 1 60 1 _ _ (by decide) hfirst hlease₁
    rw [hevents₁] at hstep
    exact hstep
  obtain ⟨db, clock, hnone, hsteps⟩ := hone
  refine ⟨_, ⟨db, clock, hnone, hsteps.tail (.lease 7 (py "v") now 1 leaseFor 2 _ _ hclock hsecond hlease)⟩, ?_⟩
  rw [hevents]
  rfl

/-- Two workers hold unexpired leases of one row: `v` asks at time 120 for 5 and is granted it, and the lease
of `w` runs until 170. -/
theorem leases_overlap : ¬∀ s, LeaseReachable LeaseRun.Unguarded s → Exclusive s.log := by
  intro h
  obtain ⟨s, hs, hlog⟩ : ∃ s, LeaseReachable LeaseRun.Unguarded s ∧ s.log = releasedLog 120 5 :=
    released_reachable (by decide) rfl rfl trivial trivial
  have hexclusive := h s hs
  rw [hlog] at hexclusive
  have hexpired := hexclusive [] sampleLease [] _ [] rfl rfl List.not_mem_nil
  exact absurd hexpired (by decide)

/-- On a run in which `v` asks at time 200 for 60. -/
theorem exclusive_sample : ∃ s, LeaseReachable LeaseRun.Patient s ∧ s.log = releasedLog 200 60 ∧
    Exclusive s.log := by
  have hfirst : LeaseRun.Patient { db := { outbox := [sampleOutboxRow] }, clock := 100 } 7 110 60 :=
    fun g hg => absurd hg.mem List.not_mem_nil
  have hsecond : LeaseRun.Patient { db := { outbox := [sampleOutboxRow.leased 110 sampleToken] }, clock := 110,
                                    log := [.granted sampleLease] } 7 200 60 := by
    intro g hg
    cases List.mem_singleton.mp hg.mem
    decide
  obtain ⟨s, hs, hlog⟩ := released_reachable (by decide) rfl rfl hfirst hsecond
  exact ⟨s, hs, hlog, exclusive_of_patient hs⟩

end NetopsCopilot
