import NetopsCopilot.Application.EventFeed
import NetopsCopilot.Lib.Keyset

/-!
# What a client of the event feed receives

`read_after` looks up the position of its cursor in one statement and reads the page in another; under Read
Committed each of the two sees the transactions that are committed by then. A client passes the id of the last event
it received. Whatever commits in between, it receives events in strict order, each once (`delivery_ordered`).
-/

namespace NetopsCopilot

/-! ### The statements -/

/-- `(occurred_at, event_id)`. -/
def CaseFeedEvent.feedKey (event : CaseFeedEvent) : Instant ×ₗ Uuid := toLex (event.occurredAt, event.eventId)

section

variable (organizationId : Uuid) (assetIds : List Uuid)

/-- `_SELECT_INITIAL_PAGE`. -/
def selectInitialPage (limit : Int) (db : Db) : List CaseFeedEvent :=
  (feedPage (EventRow.visible db.cases organizationId assetIds) limit.toNat db.events).map feedEvent

/-- `_SELECT_VISIBLE_CURSOR`. -/
def selectVisibleCursor (afterEventId : Uuid) (db : Db) : Except EventFeedError Instant :=
  match db.events.filter fun e => EventRow.visible db.cases organizationId assetIds e && e.id == afterEventId with
  | [] => .error (.cursorNotFound afterEventId)
  | [cursor] => .ok cursor.occurredAt
  | _ => .error .multipleResults

/-- `_SELECT_PAGE_AFTER_CURSOR`. -/
def selectPageAfterCursor (position : Instant ×ₗ Uuid) (limit : Int) (db : Db) : List CaseFeedEvent :=
  (feedPage (fun e => EventRow.visible db.cases organizationId assetIds e && decide (position < e.feedKey))
    limit.toNat db.events).map feedEvent

end

/-! ### A client -/

/-- A page, its limit, and the committed state it was read from. -/
structure DeliveredPage where
  db : Db
  limit : Int
  events : List CaseFeedEvent

/-- The committed database and the client: `reading` is a call whose cursor has been looked up. -/
structure DeliveryState where
  db : Db
  cursor : Option Uuid
  reading : Option (Int × Instant ×ₗ Uuid) := none
  pages : List DeliveredPage := []

/-- All events that the client has received. -/
def DeliveryState.delivered (s : DeliveryState) : List CaseFeedEvent := s.pages.flatMap (·.events)

/-- The client receives a page. -/
def DeliveryState.receive (s : DeliveryState) (limit : Int) (events : List CaseFeedEvent) : DeliveryState where
  db := s.db
  cursor := (events.getLast?.map (·.eventId)).or s.cursor
  reading := none
  pages := s.pages ++ [⟨s.db, limit, events⟩]

section

variable (organizationId : Uuid) (assetIds : List Uuid)

/-- A transaction commits, or the client's call executes a statement or ends without a page. -/
inductive DeliveryStep : DeliveryState → DeliveryState → Prop where
  | commit {s} (db' : Db) (hcommit : FeedCommit s.db db') : DeliveryStep s { s with db := db' }
  | initialPage {s} (limit : Int) (hlimit : 1 ≤ limit ∧ limit ≤ 500) (hidle : s.reading = none)
      (hcursor : s.cursor = none) :
      DeliveryStep s (s.receive limit (selectInitialPage organizationId assetIds limit s.db))
  | cursor {s} (limit : Int) (hlimit : 1 ≤ limit ∧ limit ≤ 500) (hidle : s.reading = none) (afterEventId : Uuid)
      (hcursor : s.cursor = some afterEventId) (occurredAt : Instant)
      (hselect : selectVisibleCursor organizationId assetIds afterEventId s.db = .ok occurredAt) :
      DeliveryStep s { s with reading := some (limit, toLex (occurredAt, afterEventId)) }
  | pageAfterCursor {s} (limit : Int) (position : Instant ×ₗ Uuid) (hreading : s.reading = some (limit, position)) :
      DeliveryStep s (s.receive limit (selectPageAfterCursor organizationId assetIds position limit s.db))
  | raised {s} : DeliveryStep s { s with reading := none }

/-- The states of every run; the client may bring a cursor from before. -/
inductive DeliveryRun : DeliveryState → Prop where
  | start (db : Db) (cursor : Option Uuid) (hkeys : FeedKeys db) : DeliveryRun { db := db, cursor := cursor }
  | step {s s' : DeliveryState} (hrun : DeliveryRun s) (hstep : DeliveryStep organizationId assetIds s s') : DeliveryRun s'

/-- A page is no longer than its limit, and leaves out no visible event between its first and its last one. -/
structure DeliveredPage.Complete (page : DeliveredPage) : Prop where
  length : (page.events.length : Int) ≤ page.limit
  between : ∀ first ∈ page.events.head?, ∀ last ∈ page.events.getLast?, ∀ e ∈ page.db.events,
    e.visible page.db.cases organizationId assetIds = true →
    first.feedKey ≤ e.feedKey → e.feedKey ≤ last.feedKey → feedEvent e ∈ page.events

/-- What the client has received. -/
structure DeliveryState.Ordered (s : DeliveryState) : Prop where
  increasing : s.delivered.Pairwise fun a b => a.feedKey < b.feedKey
  once : (s.delivered.map (·.eventId)).Nodup
  visible : ∀ event ∈ s.delivered, ∃ e ∈ s.db.events, feedEvent e = event ∧
    e.visible s.db.cases organizationId assetIds = true
  pages : ∀ page ∈ s.pages, page.Complete organizationId assetIds

end

/-! ### One page -/

section

variable {organizationId : Uuid} {assetIds : List Uuid} {s s' : DeliveryState} {db : Db}

theorem FeedKeys.feedKey (h : FeedKeys db) : (db.events.map EventRow.feedKey).Nodup := by
  have hid : db.events.map (·.id) = (db.events.map EventRow.feedKey).map fun k => (ofLex k).2 := by
    rw [List.map_map]
    rfl
  have hkeys := h.events
  rw [hid] at hkeys
  exact hkeys.of_map _

/-- The events of a page, in the order of their keys. -/
theorem feedPage_sorted (h : FeedKeys db) (p : EventRow → Bool) (n : ℕ) :
    ((feedPage p n db.events).map feedEvent).Pairwise fun a b => a.feedKey < b.feedKey :=
  List.pairwise_map.mpr (Keyset.page_sorted h.feedKey n)

/-- A page after a position, or from the start of the feed. -/
theorem feedPage_complete (h : FeedKeys db) {p : EventRow → Bool} {limit : Int} (hlimit : 1 ≤ limit)
    (hp : ∀ a e : EventRow, p a = true → e.visible db.cases organizationId assetIds = true →
      a.feedKey ≤ e.feedKey → p e = true) :
    DeliveredPage.Complete organizationId assetIds
      ⟨db, limit, (feedPage p limit.toNat db.events).map feedEvent⟩ := by
  constructor
  · have hlength : (feedPage p limit.toNat db.events).length ≤ limit.toNat := List.length_take_le _ _
    simp only [List.length_map]
    omega
  · intro first hfirst last hlast e he hvisible hle hle'
    obtain ⟨a, ha, rfl⟩ := List.mem_map.mp (List.mem_of_head? hfirst)
    obtain ⟨b, hb, rfl⟩ := List.mem_map.mp (List.mem_of_getLast? hlast)
    have hpe := hp a e (mem_of_mem_feedPage ha).2 hvisible hle
    exact List.mem_map_of_mem (Keyset.mem_page_of_le h.feedKey he hpe hb hle')

/-! ### The invariant -/

/-- The position of a call in progress is that of the cursor, and the cursor is the last event received. -/
structure DeliveryState.Following (organizationId : Uuid) (assetIds : List Uuid) (s : DeliveryState) : Prop where
  keys : FeedKeys s.db
  increasing : s.delivered.Pairwise fun a b => a.feedKey < b.feedKey
  visible : ∀ event ∈ s.delivered, ∃ e ∈ s.db.events, feedEvent e = event ∧
    e.visible s.db.cases organizationId assetIds = true
  cursor : ∀ event ∈ s.delivered.getLast?, s.cursor = some event.eventId
  reading : ∀ limit position, s.reading = some (limit, position) → 1 ≤ limit ∧
    ∃ e ∈ s.db.events, e.feedKey = position ∧ s.cursor = some e.id
  pages : ∀ page ∈ s.pages, page.Complete organizationId assetIds

theorem DeliveryState.delivered_receive (s : DeliveryState) (limit : Int) (events : List CaseFeedEvent) :
    (s.receive limit events).delivered = s.delivered ++ events := by
  simp [DeliveryState.delivered, DeliveryState.receive]

/-- The rows of the table are told apart by their ids. -/
theorem FeedKeys.eq_of_id (h : FeedKeys db) {e e' : EventRow} (he : e ∈ db.events) (he' : e' ∈ db.events)
    (hid : e.id = e'.id) : e = e' :=
  List.inj_on_of_nodup_map h.events he he' hid

/-- A page whose events come after all that was received is received in order. -/
theorem DeliveryState.Following.receive (h : s.Following organizationId assetIds) {p : EventRow → Bool}
    {limit : Int} (hlimit : 1 ≤ limit) (hvisible : ∀ e, p e = true →
      e.visible s.db.cases organizationId assetIds = true)
    (hp : ∀ a e : EventRow, p a = true → e.visible s.db.cases organizationId assetIds = true →
      a.feedKey ≤ e.feedKey → p e = true)
    (hafter : ∀ event ∈ s.delivered, ∀ e, p e = true → event.feedKey < e.feedKey) :
    (s.receive limit ((feedPage p limit.toNat s.db.events).map feedEvent)).Following organizationId assetIds := by
  let events := (feedPage p limit.toNat s.db.events).map feedEvent
  have hrow : ∀ event ∈ events, ∃ e ∈ s.db.events, feedEvent e = event ∧ p e = true := by
    intro event hevent
    obtain ⟨e, he, rfl⟩ := List.mem_map.mp hevent
    exact ⟨e, (mem_of_mem_feedPage he).1, rfl, (mem_of_mem_feedPage he).2⟩
  refine ⟨h.keys, ?_, ?_, ?_, fun _ _ hreading => (by cases hreading), ?_⟩
  · rw [DeliveryState.delivered_receive]
    refine List.pairwise_append.mpr ⟨h.increasing, feedPage_sorted h.keys p _, fun event hevent event' hevent' => ?_⟩
    obtain ⟨e, -, rfl, hpe⟩ := hrow event' hevent'
    exact hafter event hevent e hpe
  · rw [DeliveryState.delivered_receive]
    intro event hevent
    rcases List.mem_append.mp hevent with hevent | hevent
    · exact h.visible event hevent
    · obtain ⟨e, he, heq, hpe⟩ := hrow event hevent
      exact ⟨e, he, heq, hvisible e hpe⟩
  · rw [DeliveryState.delivered_receive, List.getLast?_append]
    show ∀ event ∈ events.getLast?.or _, (events.getLast?.map (·.eventId)).or s.cursor = some event.eventId
    cases events.getLast? with
    | some last =>
      intro event hevent
      cases hevent
      rfl
    | none => exact h.cursor
  · intro page hpage
    rcases List.mem_append.mp hpage with hpage | hpage
    · exact h.pages page hpage
    · rw [List.mem_singleton.mp hpage]
      exact feedPage_complete h.keys hlimit hp

/-- Everything received is ordered before the rows after the cursor's. -/
theorem DeliveryState.Following.before_cursor (h : s.Following organizationId assetIds) {e : EventRow}
    (he : e ∈ s.db.events) (hcursor : s.cursor = some e.id) :
    ∀ event ∈ s.delivered, event.feedKey ≤ e.feedKey := by
  intro event hevent
  have hne := List.ne_nil_of_mem hevent
  have hlast : s.delivered.getLast hne ∈ s.delivered := List.getLast_mem hne
  obtain ⟨row, hrow, heq, -⟩ := h.visible _ hlast
  have hid := h.cursor _ (List.getLast?_eq_some_getLast hne)
  rw [hcursor, Option.some_inj, ← heq] at hid
  have hsame : e = row := h.keys.eq_of_id he hrow hid
  have hkey : (s.delivered.getLast hne).feedKey = e.feedKey := by
    rw [← heq, hsame]
    rfl
  rw [← List.dropLast_append_getLast hne] at hevent
  rcases List.mem_append.mp hevent with hevent | hevent
  · have hlt := h.increasing.rel_dropLast_getLast hevent
    rw [← hkey]
    exact hlt.le
  · rw [List.mem_singleton.mp hevent, hkey]

theorem DeliveryState.Following.step (h : s.Following organizationId assetIds)
    (hstep : DeliveryStep organizationId assetIds s s') : s'.Following organizationId assetIds := by
  cases hstep with
  | commit db' hcommit =>
    refine ⟨hcommit.keys, h.increasing, fun event hevent => ?_, h.cursor, fun limit position hreading => ?_, h.pages⟩
    · obtain ⟨e, he, heq, hvisible⟩ := h.visible event hevent
      refine ⟨e, hcommit.subset he, heq, ?_⟩
      rw [hcommit.visible h.keys he]
      exact hvisible
    · obtain ⟨hlimit, e, he, hkey, hcursor⟩ := h.reading limit position hreading
      exact ⟨hlimit, e, hcommit.subset he, hkey, hcursor⟩
  | initialPage limit hlimit hidle hcursor =>
    refine h.receive hlimit.1 (fun e he => he) (fun _ e _ he _ => he) fun event hevent => ?_
    have hlast := h.cursor _ (List.getLast?_eq_some_getLast (List.ne_nil_of_mem hevent))
    rw [hcursor] at hlast
    cases hlast
  | cursor limit hlimit hidle afterEventId hcursor occurredAt hselect =>
    refine ⟨h.keys, h.increasing, h.visible, h.cursor, fun limit' position hreading => ?_, h.pages⟩
    cases hreading
    unfold selectVisibleCursor at hselect
    split at hselect
    · cases hselect
    next cursor hfound =>
      cases hselect
      obtain ⟨hmem, hboth⟩ := List.mem_filter.mp (hfound ▸ List.mem_singleton_self cursor)
      rw [Bool.and_eq_true, beq_iff_eq] at hboth
      refine ⟨hlimit.1, cursor, hmem, ?_, hcursor.trans (congrArg some hboth.2.symm)⟩
      rw [← hboth.2]
      rfl
    · cases hselect
  | pageAfterCursor limit position hreading =>
    obtain ⟨hlimit, e, he, rfl, hcursor⟩ := h.reading limit position hreading
    refine h.receive hlimit (fun x hx => ?_) (fun a x ha hx hle => ?_) fun event hevent x hx => ?_
    · exact ((Bool.and_eq_true _ _).mp hx).1
    · have hlt := of_decide_eq_true ((Bool.and_eq_true _ _).mp ha).2
      rw [Bool.and_eq_true]
      exact ⟨hx, decide_eq_true (hlt.trans_le hle)⟩
    · have hlt := of_decide_eq_true ((Bool.and_eq_true _ _).mp hx).2
      exact (h.before_cursor he hcursor event hevent).trans_lt hlt
  | raised => exact ⟨h.keys, h.increasing, h.visible, h.cursor, fun _ _ hreading => (by cases hreading), h.pages⟩

theorem following_of_deliveryRun (hrun : DeliveryRun organizationId assetIds s) : s.Following organizationId assetIds := by
  induction hrun with
  | start db cursor hkeys =>
    refine ⟨hkeys, List.Pairwise.nil, ?_, ?_, ?_, ?_⟩ <;> simp [DeliveryState.delivered]
  | step _ hstep ih => exact ih.step hstep

/-- **In every run, a client that follows its last event receives visible events in strict order, each once, and pages
without gaps.** -/
theorem delivery_ordered (hrun : DeliveryRun organizationId assetIds s) : s.Ordered organizationId assetIds := by
  have h := following_of_deliveryRun hrun
  refine ⟨h.increasing, ?_, h.visible, h.pages⟩
  refine List.pairwise_map.mpr (h.increasing.imp_of_mem fun {event event'} hevent hevent' hlt hid => ?_)
  obtain ⟨e, he, rfl, -⟩ := h.visible event hevent
  obtain ⟨e', he', rfl, -⟩ := h.visible event' hevent'
  rw [h.keys.eq_of_id he he' hid] at hlt
  exact lt_irrefl _ hlt

end

/-- The client looks up its cursor, the event 5 of time 200; one event commits before it and one after it, and then
the page is read. -/
theorem delivery_ordered_sample : DeliveryState.Ordered 7 []
    { db := sampleFeedDb [(5, 200), (4, 100), (6, 200)], cursor := some 6,
      pages := [⟨sampleFeedDb [(5, 200)], 1, [feedEvent (sampleFeedEvent 5 200)]⟩,
        ⟨sampleFeedDb [(5, 200), (4, 100), (6, 200)], 10, [feedEvent (sampleFeedEvent 6 200)]⟩] } := by
  have hcommit : FeedCommit (sampleFeedDb [(5, 200)]) (sampleFeedDb [(5, 200), (4, 100), (6, 200)]) :=
    sampleFeedCommit [(5, 200)] [(4, 100), (6, 200)] (by decide)
  have hstart : DeliveryRun 7 [] { db := sampleFeedDb [(5, 200)], cursor := none } :=
    .start _ _ ⟨by decide, by decide, by simp [sampleFeedDb, sampleFeedEvent, sampleFeedCase]⟩
  have hfirst := DeliveryRun.step hstart (.initialPage 1 (by decide) rfl rfl)
  have hcursor := DeliveryRun.step hfirst (.cursor 10 (by decide) rfl 5 (by rfl) 200 (by rfl))
  have hevents := DeliveryRun.step hcursor (.commit _ hcommit)
  have hlast := DeliveryRun.step hevents (.pageAfterCursor 10 (toLex (200, 5)) rfl)
  have hpage : selectPageAfterCursor 7 [] (toLex (200, 5)) 10 (sampleFeedDb [(5, 200), (4, 100), (6, 200)]) =
      [feedEvent (sampleFeedEvent 6 200)] := by
    decide
  have hordered := delivery_ordered hlast
  dsimp only at hordered
  rw [hpage] at hordered
  exact hordered

end NetopsCopilot
