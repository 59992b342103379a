import Mathlib.Data.Prod.Lex
import NetopsCopilot.Lib.Rows
import NetopsCopilot.Postgres.Schema
import NetopsCopilot.Python.Hashlib

/-!
# The case event feed (`netops_api/application/event_feed.py`)

`read_after` returns a page of the tenant's visible events in the order of `(occurred_at, id)`, after the
event that the client names as its cursor. `occurred_at` is read from an API clock before the transaction of
the event commits, so events need not be committed in this order. A client that passes the last event it
received recovers every event exactly if each event is committed after its cursor (`event_recovery_iff`).
-/

namespace NetopsCopilot

/-! ### Reading a page -/

/-- What `read_after` raises. -/
inductive EventFeedError where
  | valueError (message : PyStr)
  | cursorNotFound (eventId : Uuid)
  | multipleResults
deriving DecidableEq

/-- `CaseFeedEvent`. -/
structure CaseFeedEvent where
  eventId : Uuid
  caseId : Uuid
  eventType : PyStr
  aggregateVersion : Nat
  transitionId : Option Uuid
  actorId : Uuid
  correlationId : Uuid
  occurredAt : Instant
deriving DecidableEq

/-- `_feed_event`. -/
def feedEvent (e : EventRow) : CaseFeedEvent where
  eventId := e.id
  caseId := e.caseId
  eventType := e.eventType
  aggregateVersion := e.aggregateVersion
  transitionId := e.transitionId
  actorId := e.actorId
  correlationId := e.correlationId
  occurredAt := e.occurredAt

/-- `_VISIBLE_CASES`. -/
def CaseRow.feedVisible (organizationId : Uuid) (assetIds : List Uuid) (c : CaseRow) : Bool :=
  c.organizationId == organizationId && c.assetId.all fun assetId => decide (assetId ∈ assetIds)

/-- The `JOIN` and `WHERE` of the three statements; `cases.id` is a key, so an event joins one case. -/
def EventRow.visible (cases : List CaseRow) (organizationId : Uuid) (assetIds : List Uuid)
    (e : EventRow) : Bool :=
  e.organizationId == organizationId && cases.any fun c =>
    c.organizationId == e.organizationId && c.id == e.caseId && c.feedVisible organizationId assetIds

/-- `ORDER BY e.occurred_at ASC, e.id ASC`. -/
def EventRow.feedKey (e : EventRow) : Instant ×ₗ Uuid := toLex (e.occurredAt, e.id)

/-- The first `limit` rows satisfying `p`. -/
def feedPage (p : EventRow → Bool) (limit : Nat) (events : List EventRow) : List EventRow :=
  ((events.filter p).insertionSort fun a b => a.feedKey ≤ b.feedKey).take limit

/-- `TenantCaseEventFeed.read_after`. -/
def readAfter (organizationId : Uuid) (afterEventId : Option Uuid) (assetIds : List Uuid) (limit : Int)
    (db : Db) : Except EventFeedError (List CaseFeedEvent) :=
  let visible := EventRow.visible db.cases organizationId assetIds
  if ¬(1 ≤ limit ∧ limit ≤ 500) then .error (.valueError (py "limit must be between 1 and 500."))
  else match afterEventId with
    | none => .ok ((feedPage visible limit.toNat db.events).map feedEvent)
    | some afterEventId =>
      match db.events.filter fun e => visible e && e.id == afterEventId with
      | [] => .error (.cursorNotFound afterEventId)
      | [cursor] => .ok ((feedPage (fun e => visible e &&
          decide (toLex (cursor.occurredAt, afterEventId) < e.feedKey)) limit.toNat db.events).map feedEvent)
      | _ => .error .multipleResults

/-! ### One client -/

/-- The committed database, and what the client has received. -/
structure FeedState where
  db : Db
  cursor : Option Uuid := none
  delivered : List Uuid := []

/-- The keys of the two tables the feed reads. -/
structure FeedKeys (db : Db) : Prop where
  cases : (db.cases.map (·.id)).Nodup
  events : (db.events.map (·.id)).Nodup
  case : ∀ e ∈ db.events, ∃ c ∈ db.cases, c.organizationId = e.organizationId ∧ c.id = e.caseId

/-- A transaction that commits: events are appended, and a case keeps its asset. -/
structure FeedCommit (db db' : Db) : Prop where
  keys : FeedKeys db'
  events : ∃ inserted, db'.events = db.events ++ inserted
  cases : ∀ c ∈ db.cases, ∃ c' ∈ db'.cases, c'.id = c.id ∧ c'.organizationId = c.organizationId ∧
    c'.assetId = c.assetId

section

variable (organizationId : Uuid) (assetIds : List Uuid)

/-- A transaction commits, or the client reads a page and passes the id of its last event next time. -/
inductive FeedStep : FeedState → FeedState → Prop where
  | commit {s} (db' : Db) (hcommit : FeedCommit s.db db') : FeedStep s { s with db := db' }
  | read {s} (limit : Int) (page : List CaseFeedEvent)
      (hread : readAfter organizationId s.cursor assetIds limit s.db = .ok page) :
      FeedStep s { s with
        cursor := (page.getLast?.map (·.eventId)).or s.cursor
        delivered := s.delivered ++ page.map (·.eventId) }
  | raised {s} (limit : Int) (e : EventFeedError)
      (hread : readAfter organizationId s.cursor assetIds limit s.db = .error e) : FeedStep s s

/-- The states of a run, the last one first; the client starts with no cursor. -/
inductive FeedRun : List FeedState → Prop where
  | start (db : Db) (hkeys : FeedKeys db) : FeedRun [{ db := db }]
  | step {s s' : FeedState} {earlier : List FeedState} (hrun : FeedRun (s :: earlier))
      (hstep : FeedStep organizationId assetIds s s') : FeedRun (s' :: s :: earlier)

/-- An event is ordered strictly after the client's cursor. -/
def AfterCursor (s : FeedState) (e : EventRow) : Prop :=
  ∀ cursor ∈ s.db.events, s.cursor = some cursor.id → cursor.feedKey < e.feedKey

/-- Each visible event is delivered or still to come. -/
def Recoverable (s : FeedState) : Prop :=
  ∀ e ∈ s.db.events, e.visible s.db.cases organizationId assetIds = true →
    e.id ∈ s.delivered ∨ AfterCursor s e

/-- A visible event that a step commits comes after the cursor the client has then. -/
def CommitsAfterCursor (s s' : FeedState) : Prop :=
  ∀ e ∈ s'.db.events, e.id ∉ s.db.events.map (·.id) →
    e.visible s'.db.cases organizationId assetIds = true → AfterCursor s e

/-- Every step of a run commits after the cursor. -/
def CommitsInOrder : List FeedState → Prop
  | s' :: s :: earlier => CommitsAfterCursor organizationId assetIds s s' ∧ CommitsInOrder (s :: earlier)
  | _ => True

end

/-! ### What a page leaves out -/

section

variable {p : EventRow → Bool} {limit : Nat} {events : List EventRow} {e x : EventRow}

theorem mem_of_mem_feedPage (h : e ∈ feedPage p limit events) : e ∈ events ∧ p e = true :=
  List.mem_filter.mp ((List.perm_insertionSort _ _).mem_iff.mp (List.mem_of_mem_take h))

/-- A row that does not fit on the page comes after all rows of the page. -/
theorem feedPage_before (hids : (events.map (·.id)).Nodup) (he : e ∈ events) (hp : p e = true)
    (hout : e ∉ feedPage p limit events) (hx : x ∈ feedPage p limit events) : x.feedKey < e.feedKey := by
  have hsorted := List.pairwise_insertionSort (fun a b : EventRow => a.feedKey ≤ b.feedKey)
    (events.filter p)
  have hmem : e ∈ (events.filter p).insertionSort fun a b => a.feedKey ≤ b.feedKey :=
    (List.perm_insertionSort _ _).mem_iff.mpr (List.mem_filter.mpr ⟨he, hp⟩)
  rw [← List.take_append_drop limit (List.insertionSort _ _)] at hsorted hmem
  have hrest := (List.mem_append.mp hmem).resolve_left hout
  have hle : x.feedKey ≤ e.feedKey := (List.pairwise_append.mp hsorted).2.2 x hx e hrest
  refine lt_of_le_of_ne hle fun hkey => hout ?_
  have hid : x.id = e.id := congrArg (fun k : Instant ×ₗ Uuid => (ofLex k).2) hkey
  rwa [← List.inj_on_of_nodup_map hids (mem_of_mem_feedPage hx).1 he hid]

theorem feedPage_eq_nil (hlimit : 1 ≤ limit) (he : e ∈ events) (hp : p e = true) :
    feedPage p limit events ≠ [] := by
  intro hnil
  have hmem : e ∈ (events.filter p).insertionSort fun a b => a.feedKey ≤ b.feedKey :=
    (List.perm_insertionSort _ _).mem_iff.mpr (List.mem_filter.mpr ⟨he, hp⟩)
  unfold feedPage at hnil
  rw [List.take_eq_nil_iff] at hnil
  rcases hnil with hzero | hempty
  · omega
  · rw [hempty] at hmem
    cases hmem

end

section

variable {organizationId : Uuid} {assetIds : List Uuid} {s s' : FeedState}

/-- A page has visible events only, and is taken from all those after the cursor. -/
theorem readAfter_ok {limit : Int} {page : List CaseFeedEvent}
    (h : readAfter organizationId s.cursor assetIds limit s.db = .ok page) :
    ∃ p : EventRow → Bool, 1 ≤ limit.toNat ∧ page = (feedPage p limit.toNat s.db.events).map feedEvent ∧
      (∀ e, p e = true → e.visible s.db.cases organizationId assetIds = true) ∧
      ∀ e, e.visible s.db.cases organizationId assetIds = true → AfterCursor s e → p e = true := by
  unfold readAfter at h
  dsimp only at h
  split_ifs at h with hlimit
  have hone : 1 ≤ limit.toNat := by omega
  split at h
  next hcursor =>
    cases h
    exact ⟨_, hone, rfl, fun e he => he, fun e he _ => he⟩
  next afterEventId hcursor =>
    split at h
    · cases h
    next cursor hfound =>
      cases h
      obtain ⟨hmem, hboth⟩ := List.mem_filter.mp (hfound ▸ List.mem_singleton_self cursor)
      simp only [Bool.and_eq_true, beq_iff_eq] at hboth
      have hkey : toLex (cursor.occurredAt, afterEventId) = cursor.feedKey := by
        rw [← hboth.2]
        rfl
      refine ⟨_, hone, rfl, fun e he => (Bool.and_eq_true _ _ ▸ he).1, fun e he hafter => ?_⟩
      have hlt := hafter cursor hmem (hcursor.trans (congrArg some hboth.2.symm))
      rw [he, hkey]
      simpa using hlt
    · cases h

/-! ### One step -/

/-- What every reachable state satisfies: the cursor is an event, and only events are delivered. -/
structure FeedState.Known (organizationId : Uuid) (assetIds : List Uuid) (s : FeedState) : Prop where
  keys : FeedKeys s.db
  cursor : ∀ id, s.cursor = some id → ∃ e ∈ s.db.events, e.id = id
  delivered : ∀ id ∈ s.delivered, id ∈ s.db.events.map (·.id)

theorem FeedCommit.subset {db db' : Db} (h : FeedCommit db db') : db.events ⊆ db'.events := by
  obtain ⟨inserted, hevents⟩ := h.events
  rw [hevents]
  exact List.subset_append_left _ _

/-- An event is visible through its case. -/
theorem visible_eq {cases : List CaseRow} {e : EventRow} {c : CaseRow} (hids : (cases.map (·.id)).Nodup)
    (hc : c ∈ cases) (horganization : c.organizationId = e.organizationId) (hid : c.id = e.caseId) :
    e.visible cases organizationId assetIds =
      (e.organizationId == organizationId && c.feedVisible organizationId assetIds) := by
  unfold EventRow.visible
  congr 1
  rw [Bool.eq_iff_iff, List.any_eq_true]
  constructor
  · rintro ⟨c', hc', hjoin⟩
    simp only [Bool.and_eq_true, beq_iff_eq] at hjoin
    rw [List.inj_on_of_nodup_map hids hc hc' (hid.trans hjoin.1.2.symm)]
    exact hjoin.2
  · intro hvisible
    exact ⟨c, hc, by simp [horganization, hid, hvisible]⟩

/-- A transaction does not change what is visible. -/
theorem FeedCommit.visible {db db' : Db} (hkeys : FeedKeys db) (h : FeedCommit db db') {e : EventRow}
    (he : e ∈ db.events) :
    e.visible db'.cases organizationId assetIds = e.visible db.cases organizationId assetIds := by
  obtain ⟨c, hc, horganization, hid⟩ := hkeys.case e he
  obtain ⟨c', hc', hid', horganization', hasset⟩ := h.cases c hc
  rw [visible_eq hkeys.cases hc horganization hid,
    visible_eq h.keys.cases hc' (horganization'.trans horganization) (hid'.trans hid)]
  unfold CaseRow.feedVisible
  rw [horganization', hasset]

theorem FeedState.Known.step (h : s.Known organizationId assetIds)
    (hstep : FeedStep organizationId assetIds s s') : s'.Known organizationId assetIds := by
  cases hstep with
  | commit db' hcommit =>
    refine ⟨hcommit.keys, fun id hid => ?_, fun id hid => ?_⟩
    · obtain ⟨e, he, heq⟩ := h.cursor id hid
      exact ⟨e, hcommit.subset he, heq⟩
    · obtain ⟨e, he, heq⟩ := List.mem_map.mp (h.delivered id hid)
      exact List.mem_map.mpr ⟨e, hcommit.subset he, heq⟩
  | read limit page hread =>
    obtain ⟨p, -, rfl, -, -⟩ := readAfter_ok hread
    have hpage : ∀ event ∈ (feedPage p limit.toNat s.db.events).map feedEvent,
        ∃ e ∈ s.db.events, e.id = event.eventId := by
      intro event hevent
      obtain ⟨e, he, rfl⟩ := List.mem_map.mp hevent
      exact ⟨e, (mem_of_mem_feedPage he).1, rfl⟩
    refine ⟨h.keys, fun id hid => ?_, fun id hid => ?_⟩
    · dsimp only at hid
      rcases Option.or_eq_some_iff.mp hid with hlast | ⟨-, hcursor⟩
      · obtain ⟨event, hevent, rfl⟩ := Option.map_eq_some_iff.mp hlast
        exact hpage event (List.mem_of_getLast? hevent)
      · exact h.cursor id hcursor
    · rcases List.mem_append.mp hid with hid | hid
      · exact h.delivered id hid
      · obtain ⟨event, hevent, rfl⟩ := List.mem_map.mp hid
        obtain ⟨e, he, heq⟩ := hpage event hevent
        exact List.mem_map.mpr ⟨e, he, heq⟩
  | raised limit e hread => exact h

/-- The cursor is read the same after a transaction. -/
theorem FeedState.Known.afterCursor_commit (h : s.Known organizationId assetIds) {db' : Db}
    (hcommit : FeedCommit s.db db') (e : EventRow) :
    AfterCursor { s with db := db' } e ↔ AfterCursor s e := by
  constructor
  · exact fun hafter cursor hmem hcursor => hafter cursor (hcommit.subset hmem) hcursor
  · intro hafter cursor hmem hcursor
    obtain ⟨row, hrow, hid⟩ := h.cursor cursor.id hcursor
    have hsame : row = cursor := List.inj_on_of_nodup_map hcommit.keys.events (hcommit.subset hrow) hmem hid
    exact hafter cursor (hsame ▸ hrow) hcursor

/-- A transaction that commits after the cursor leaves every event recoverable. -/
theorem FeedState.Known.recoverable_commit (h : s.Known organizationId assetIds) {db' : Db}
    (hcommit : FeedCommit s.db db') (hrecoverable : Recoverable organizationId assetIds s)
    (hafter : CommitsAfterCursor organizationId assetIds s { s with db := db' }) :
    Recoverable organizationId assetIds { s with db := db' } := by
  intro e he hvisible
  rw [h.afterCursor_commit hcommit e]
  by_cases hnew : e.id ∈ s.db.events.map (·.id)
  · obtain ⟨old, hold, hid⟩ := List.mem_map.mp hnew
    have hsame : old = e := List.inj_on_of_nodup_map hcommit.keys.events (hcommit.subset hold) he hid
    have hbefore : e ∈ s.db.events := hsame ▸ hold
    have hvisible' : e.visible db'.cases organizationId assetIds = true := hvisible
    rw [hcommit.visible h.keys hbefore] at hvisible'
    exact hrecoverable e hbefore hvisible'
  · exact Or.inr (hafter e he hnew hvisible)

/-- A page leaves every event recoverable. -/
theorem FeedState.Known.recoverable_read (h : s.Known organizationId assetIds)
    (hrecoverable : Recoverable organizationId assetIds s) {limit : Int} {page : List CaseFeedEvent}
    (hread : readAfter organizationId s.cursor assetIds limit s.db = .ok page) :
    Recoverable organizationId assetIds { s with
      cursor := (page.getLast?.map (·.eventId)).or s.cursor
      delivered := s.delivered ++ page.map (·.eventId) } := by
  obtain ⟨p, hlimit, rfl, -, hall⟩ := readAfter_ok hread
  intro e he hvisible
  rcases hrecoverable e he hvisible with hdelivered | hafter
  · exact Or.inl (List.mem_append_left _ hdelivered)
  · have hp := hall e hvisible hafter
    by_cases hout : e ∈ feedPage p limit.toNat s.db.events
    · refine Or.inl (List.mem_append_right _ ?_)
      rw [List.map_map]
      exact List.mem_map.mpr ⟨e, hout, rfl⟩
    · right
      intro cursor hmem hcursor
      have hlast : ∃ last ∈ feedPage p limit.toNat s.db.events, last.id = cursor.id := by
        have hne := feedPage_eq_nil hlimit he hp
        refine ⟨_, List.getLast_mem hne, ?_⟩
        have hcursor' : (((feedPage p limit.toNat s.db.events).map feedEvent).getLast?.map (·.eventId)).or
            s.cursor = some cursor.id := hcursor
        rw [List.getLast?_map, List.getLast?_eq_some_getLast hne] at hcursor'
        exact Option.some.inj hcursor'
      obtain ⟨last, hlast, hid⟩ := hlast
      have hsame : last = cursor :=
        List.inj_on_of_nodup_map h.keys.events (mem_of_mem_feedPage hlast).1 hmem hid
      rw [← hsame]
      exact feedPage_before h.keys.events he hp hout hlast

/-- Two states of a run: the second is recoverable if the first is and the step commits after the cursor, and
only then. -/
theorem FeedState.Known.recoverable_iff (h : s.Known organizationId assetIds)
    (hstep : FeedStep organizationId assetIds s s') (hrecoverable : Recoverable organizationId assetIds s) :
    Recoverable organizationId assetIds s' ↔ CommitsAfterCursor organizationId assetIds s s' := by
  have hsame : ∀ s' : FeedState, s'.db = s.db → CommitsAfterCursor organizationId assetIds s s' := by
    intro s' hdb e he hnew
    rw [hdb] at he
    exact absurd (List.mem_map_of_mem he) hnew
  cases hstep with
  | commit db' hcommit =>
    refine ⟨fun hrecoverable' e he hnew hvisible => ?_, h.recoverable_commit hcommit hrecoverable⟩
    rcases hrecoverable' e he hvisible with hdelivered | hafter
    · exact absurd (h.delivered e.id hdelivered) hnew
    · exact (h.afterCursor_commit hcommit e).mp hafter
  | read limit page hread => exact ⟨fun _ => hsame _ rfl, fun _ => h.recoverable_read hrecoverable hread⟩
  | raised limit e hread => exact ⟨fun _ => hsame _ rfl, fun _ => hrecoverable⟩

theorem known_of_feedRun {earlier : List FeedState} (hrun : FeedRun organizationId assetIds (s :: earlier)) :
    s.Known organizationId assetIds := by
  generalize hstates : s :: earlier = states at hrun
  induction hrun generalizing s earlier with
  | start db hkeys =>
    cases hstates
    exact ⟨hkeys, nofun, nofun⟩
  | step hrun hstep ih =>
    cases hstates
    exact (ih rfl).step hstep

end

/-! ### Main result -/

/-- **Event recovery, exactly.** In a run of transactions and of one client's pages, each event that is visible to
the client is, in every state, delivered or ordered after the client's cursor, if and only if each transaction
commits its visible events after the cursor that the client has at that moment. -/
theorem event_recovery_iff {organizationId : Uuid} {assetIds : List Uuid} {states : List FeedState}
    (hrun : FeedRun organizationId assetIds states) :
    (∀ s ∈ states, Recoverable organizationId assetIds s) ↔
      CommitsInOrder organizationId assetIds states := by
  induction hrun with
  | start db hkeys =>
    refine ⟨fun _ => trivial, fun _ s hs => ?_⟩
    rw [List.mem_singleton.mp hs]
    exact fun e _ _ => Or.inr fun cursor _ hcursor => by cases hcursor
  | @step s s' earlier hrun hstep ih =>
    have hknown := known_of_feedRun hrun
    constructor
    · intro hall
      have hbefore := fun x hx => hall x (List.mem_cons_of_mem _ hx)
      exact ⟨(hknown.recoverable_iff hstep (hbefore s List.mem_cons_self)).mp (hall s' List.mem_cons_self),
        ih.mp hbefore⟩
    · rintro ⟨hafter, horder⟩
      have hbefore := ih.mpr horder
      intro x hx
      rcases List.mem_cons.mp hx with rfl | hx
      · exact (hknown.recoverable_iff hstep (hbefore s List.mem_cons_self)).mpr hafter
      · exact hbefore x hx

/-- A case without an asset. -/
def sampleFeedCase : CaseRow where
  id := 10
  organizationId := 7
  assetId := none
  title := py "Tunnel down"
  category := none
  severity := .high
  state := .new
  version := 0
  idempotencyKey := py "k"
  requestSha256 := Hashlib.sha256 (py "request")
  createdByActorId := some 3
  correlationId := 12
  createdAt := 50
  updatedAt := 50

/-- An event of that case. -/
def sampleFeedEvent (id : Uuid) (occurredAt : Instant) : EventRow where
  id := id
  organizationId := 7
  caseId := 10
  transitionId := none
  eventType := py "case.created.v1"
  aggregateVersion := 0
  actorId := 3
  correlationId := 12
  payload := .obj []
  occurredAt := occurredAt

/-- The case with some of its events. -/
def sampleFeedDb (events : List (Uuid × Instant)) : Db where
  cases := [sampleFeedCase]
  events := events.map fun event => sampleFeedEvent event.1 event.2

theorem sampleFeedCommit (events inserted : List (Uuid × Instant))
    (hids : ((events ++ inserted).map (·.1)).Nodup) :
    FeedCommit (sampleFeedDb events) (sampleFeedDb (events ++ inserted)) := by
  refine ⟨⟨List.nodup_singleton _, ?_, ?_⟩, ⟨_, List.map_append⟩, fun c hc => ⟨c, hc, rfl, rfl, rfl⟩⟩
  · show (((events ++ inserted).map fun event => sampleFeedEvent event.1 event.2).map (·.id)).Nodup
    rwa [List.map_map]
  · intro e he
    obtain ⟨event, -, rfl⟩ := List.mem_map.mp he
    exact ⟨sampleFeedCase, List.mem_singleton_self _, rfl, rfl⟩

/-- The client reads the event 5 of time 200, and then an event of time `t` is committed. -/
def sampleFeedRun (t : Instant) : List FeedState :=
  [{ db := sampleFeedDb [(5, 200), (6, t)], cursor := some 5, delivered := [5] },
   { db := sampleFeedDb [(5, 200)], cursor := some 5, delivered := [5] },
   { db := sampleFeedDb [(5, 200)] },
   { db := sampleFeedDb [] }]

theorem feedRun_sample (t : Instant) : FeedRun 7 [] (sampleFeedRun t) := by
  have hfirst : FeedCommit (sampleFeedDb []) (sampleFeedDb [(5, 200)]) :=
    sampleFeedCommit [] [(5, 200)] (by decide)
  have hsecond : FeedCommit (sampleFeedDb [(5, 200)]) (sampleFeedDb [(5, 200), (6, t)]) :=
    sampleFeedCommit [(5, 200)] [(6, t)] (by simp)
  refine .step (.step (.step (.start _ ⟨by decide, by decide, nofun⟩) (.commit _ hfirst)) ?_)
    (.commit _ hsecond)
  exact .read 100 [feedEvent (sampleFeedEvent 5 200)] (by rfl)

/-- With the second event at time 300. -/
theorem event_recovery_sample : CommitsInOrder 7 [] (sampleFeedRun 300) ∧
    ∀ s ∈ sampleFeedRun 300, Recoverable 7 [] s := by
  have horder : CommitsInOrder 7 [] (sampleFeedRun 300) := by
    refine ⟨?_, ?_, ?_, trivial⟩
    · intro e he hnew _ cursor hcursor _
      have hnow : e ∈ [sampleFeedEvent 5 200, sampleFeedEvent 6 300] := he
      have hthen : cursor ∈ [sampleFeedEvent 5 200] := hcursor
      have hsecond : e = sampleFeedEvent 6 300 := by
        rcases List.mem_cons.mp hnow with rfl | hnow
        · exact absurd List.mem_cons_self hnew
        · exact List.mem_singleton.mp hnow
      rw [hsecond, List.mem_singleton.mp hthen]
      decide
    · exact fun e he hnew => absurd (List.mem_map_of_mem he) hnew
    · exact fun e _ _ _ cursor _ hnone => by cases hnone
  exact ⟨horder, (event_recovery_iff (feedRun_sample 300)).mpr horder⟩

/-- The second event took its time, 100, before the first, and committed after it: it is never delivered. -/
theorem event_recovery_skips : ¬∀ organizationId assetIds states, FeedRun organizationId assetIds states →
    ∀ s ∈ states, Recoverable organizationId assetIds s := by
  intro hall
  have hrecoverable := hall 7 [] _ (feedRun_sample 100) _ List.mem_cons_self
  rcases hrecoverable (sampleFeedEvent 6 100) (by simp [sampleFeedDb]) (by decide) with hdelivered | hafter
  · exact absurd hdelivered (by decide)
  · have hlt := hafter (sampleFeedEvent 5 200) (by simp [sampleFeedDb]) rfl
    exact absurd hlt (by decide)

end NetopsCopilot
