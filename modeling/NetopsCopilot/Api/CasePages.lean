import Mathlib.Data.List.Permutation
import NetopsCopilot.Api.CaseReads
import NetopsCopilot.Application.EventFeed
import NetopsCopilot.Lib.Keyset

/-!
# Following the pages of the case list

A client asks for the first page, and then for the page of the cursor that it was given, until there is none. The
pages are read on one state of the database; the position of a page passes through the text of its cursor. A session
of the database runs in UTC, so the driver's times are in UTC.
-/

namespace NetopsCopilot

section

variable (lib : CursorLibrary) (times : Timestamps)

/-- `_encode_case_list_cursor` of a position. -/
def CaseListPosition.text (c : CaseListPosition) : PyStr := encodeCaseListCursor ⟨times.utc c.updatedAt, c.caseId⟩

/-- `_parse_case_list_cursor`, and the position it stands for. -/
def CaseListPosition.parse (text : PyStr) : Except CursorError CaseListPosition :=
  (parseCaseListCursor lib text).map fun c => ⟨times.instant c.updatedAt, c.caseId⟩

/-- The pages that a client receives from a position on: it follows `next_cursor` until there is none. -/
inductive CasePages (ilike : PyStr → PyStr → Bool) (organizationId : Uuid) (args : CaseListArgs) (db : Db) :
    Option CaseListPosition → List CaseListPage → Prop where
  | last {cursor : Option CaseListPosition} {page : CaseListPage}
      (hpage : listCases ilike organizationId { args with cursor := cursor } db = .ok page)
      (hnext : page.nextCursor = none) : CasePages ilike organizationId args db cursor [page]
  | next {cursor : Option CaseListPosition} {page : CaseListPage} {position followed : CaseListPosition}
      {pages : List CaseListPage}
      (hpage : listCases ilike organizationId { args with cursor := cursor } db = .ok page)
      (hnext : page.nextCursor = some position)
      (hcursor : CaseListPosition.parse lib times (position.text times) = .ok followed)
      (hrest : CasePages ilike organizationId args db (some followed) pages) :
      CasePages ilike organizationId args db cursor (page :: pages)

/-- What the codec relies on for a case: the library reads back the texts it writes, and a time of the driver stands
for the instant it was made from. -/
structure CursorKept (r : CaseRow) : Prop where
  instant : times.instant (times.utc r.updatedAt) = r.updatedAt
  time : lib.fromIsoFormat (times.utc r.updatedAt).isoformat = some ⟨some 0, times.utc r.updatedAt⟩
  uuid : lib.uuid r.id.str = some r.id

/-- The cases of the list: each matching case once, by `(updated_at, id)`, the greatest first. -/
structure CaseListing (ilike : PyStr → PyStr → Bool) (organizationId : Uuid) (args : CaseListArgs) (db : Db)
    (rows : List CaseRow) : Prop where
  cases : rows.Perm (db.cases.filter (CaseRow.listed ilike organizationId { args with cursor := none }))
  descending : rows.Pairwise fun a b => b.listKey < a.listKey

end

section

variable {lib : CursorLibrary} {times : Timestamps} {ilike : PyStr → PyStr → Bool} {organizationId : Uuid}
  {args : CaseListArgs} {db : Db}

/-- The position of a case survives the codec. -/
theorem CursorKept.parse {r : CaseRow} (h : CursorKept lib times r) :
    CaseListPosition.parse lib times (CaseListPosition.text times ⟨r.updatedAt, r.id⟩) = .ok ⟨r.updatedAt, r.id⟩ := by
  unfold CaseListPosition.parse CaseListPosition.text
  rw [parse_encode lib ⟨times.utc r.updatedAt, r.id⟩ h.time h.uuid]
  show Except.ok (CaseListPosition.mk (times.instant (times.utc r.updatedAt)) r.id) = _
  rw [h.instant]

/-- The pages are those of one run. -/
theorem CasePages.unique {cursor : Option CaseListPosition} {pages pages' : List CaseListPage}
    (h : CasePages lib times ilike organizationId args db cursor pages)
    (h' : CasePages lib times ilike organizationId args db cursor pages') : pages = pages' := by
  induction h generalizing pages' with
  | last hpage hnext =>
    cases h' with
    | last hpage' hnext' =>
      rw [hpage] at hpage'
      cases hpage'
      rfl
    | next hpage' hnext' hcursor' hrest' =>
      rw [hpage] at hpage'
      cases hpage'
      rw [hnext] at hnext'
      cases hnext'
  | next hpage hnext hcursor hrest ih =>
    cases h' with
    | last hpage' hnext' =>
      rw [hpage] at hpage'
      cases hpage'
      rw [hnext] at hnext'
      cases hnext'
    | next hpage' hnext' hcursor' hrest' =>
      rw [hpage] at hpage'
      cases hpage'
      rw [hnext] at hnext'
      cases hnext'
      rw [hcursor] at hcursor'
      cases hcursor'
      rw [ih hrest']

/-! ### One page -/

/-- The order of the list, as a key. -/
def CaseRow.orderKey (r : CaseRow) : (Instant ×ₗ Uuid)ᵒᵈ := OrderDual.toDual r.listKey

theorem orderKey_nodup (hkeys : (db.cases.map (·.id)).Nodup) : (db.cases.map CaseRow.orderKey).Nodup := by
  have hid : db.cases.map (·.id) = (db.cases.map CaseRow.orderKey).map fun k => (ofLex (OrderDual.ofDual k)).2 := by
    rw [List.map_map]
    rfl
  rw [hid] at hkeys
  exact hkeys.of_map _

/-- The cases from a position on. -/
def casesFrom (ilike : PyStr → PyStr → Bool) (organizationId : Uuid) (args : CaseListArgs) (db : Db)
    (cursor : Option CaseListPosition) : List CaseRow :=
  Keyset.scan CaseRow.orderKey (CaseRow.listed ilike organizationId { args with cursor := cursor }) db.cases

/-- A page has the first `limit` of them, and a cursor if there are more. -/
theorem listCases_eq (hvalid : args.validate = .ok ()) (hquery : args.queryText.all storable = true)
    (cursor : Option CaseListPosition) :
    listCases ilike organizationId { args with cursor := cursor } db =
      .ok { items := ((casesFrom ilike organizationId args db cursor).take args.limit.toNat).map caseRecord
            nextCursor := if args.limit.toNat < (casesFrom ilike organizationId args db cursor).length then
              ((casesFrom ilike organizationId args db cursor).take args.limit.toNat).getLast?.map fun r =>
                ⟨r.updatedAt, r.id⟩ else none } := by
  have hvalid' : CaseListArgs.validate { args with cursor := cursor } = .ok () := hvalid
  have hquery' : CaseListArgs.queryText { args with cursor := cursor } = args.queryText := rfl
  have hrows : (db.cases.filter (CaseRow.listed ilike organizationId { args with cursor := cursor })).insertionSort
      (fun a b => b.listKey ≤ a.listKey) = casesFrom ilike organizationId args db cursor := rfl
  unfold listCases
  rw [hvalid', hquery', hquery, hrows]
  show Except.ok _ = _
  congr 1
  generalize casesFrom ilike organizationId args db cursor = rows
  have htake : ((rows.take (args.limit.toNat + 1)).map caseRecord).take args.limit.toNat =
      (rows.take args.limit.toNat).map caseRecord := by
    rw [← List.map_take, List.take_take, min_eq_left (by omega)]
  have hlength : args.limit.toNat < ((rows.take (args.limit.toNat + 1)).map caseRecord).length ↔
      args.limit.toNat < rows.length := by
    rw [List.length_map, List.length_take]
    omega
  simp only [htake, hlength, List.getLast?_map, Option.map_map]
  rfl

/-- Behind the position of a row come the rows that follow it. -/
theorem casesFrom_row (hkeys : (db.cases.map (·.id)).Nodup) {before after : List CaseRow} {r : CaseRow}
    (hrows : casesFrom ilike organizationId args db none = before ++ r :: after) :
    casesFrom ilike organizationId args db (some ⟨r.updatedAt, r.id⟩) = after := by
  have hafter := Keyset.scan_after_row (orderKey_nodup hkeys) hrows
  have hlisted : CaseRow.listed ilike organizationId { args with cursor := some ⟨r.updatedAt, r.id⟩ } = fun b =>
      CaseRow.listed ilike organizationId { args with cursor := none } b && decide (r.orderKey < b.orderKey) := by
    funext b
    unfold CaseRow.listed
    simp only [Option.all_none, Option.all_some, Bool.and_true]
    rfl
  unfold casesFrom
  rw [hlisted]
  exact hafter

/-! ### All pages -/

/-- What the pages of a list are: the items are the rows, and only the last page is short and has no cursor. -/
structure PagesOf (limit : Nat) (rows : List CaseRow) (pages : List CaseListPage) : Prop where
  items : pages.flatMap (·.items) = rows.map caseRecord
  full : ∀ page ∈ pages.dropLast, page.items.length = limit ∧ page.nextCursor ≠ none
  last : ∃ page ∈ pages.getLast?, page.items.length ≤ limit ∧ page.nextCursor = none

theorem PagesOf.cons {limit : Nat} {rows rows' : List CaseRow} {page : CaseListPage} {pages : List CaseListPage}
    (h : PagesOf limit rows' pages) (hitems : page.items = rows.map caseRecord) (hlength : page.items.length = limit)
    (hnext : page.nextCursor ≠ none) : PagesOf limit (rows ++ rows') (page :: pages) := by
  obtain ⟨last, hlast, hshort⟩ := h.last
  have hne : pages ≠ [] := by
    rintro rfl
    cases hlast
  refine ⟨?_, ?_, last, ?_, hshort⟩
  · rw [List.flatMap_cons, h.items, hitems, List.map_append]
  · rw [List.dropLast_cons_of_ne_nil hne]
    intro page' hpage'
    rcases List.mem_cons.mp hpage' with rfl | hpage'
    · exact ⟨hlength, hnext⟩
    · exact h.full page' hpage'
  · rw [List.getLast?_cons_of_ne_nil hne]
    exact hlast

theorem limit_of_validate (hvalid : args.validate = .ok ()) : 1 ≤ args.limit := by
  by_contra hlimit
  unfold CaseListArgs.validate at hvalid
  rw [if_pos (by omega)] at hvalid
  cases hvalid

/-- From any position within the list. -/
theorem exists_casePages (hkeys : (db.cases.map (·.id)).Nodup) (hkept : ∀ r ∈ db.cases, CursorKept lib times r)
    (hvalid : args.validate = .ok ()) (hquery : args.queryText.all storable = true)
    {before rows : List CaseRow} {cursor : Option CaseListPosition}
    (hrows : casesFrom ilike organizationId args db none = before ++ rows)
    (hcursor : casesFrom ilike organizationId args db cursor = rows) :
    ∃ pages, CasePages lib times ilike organizationId args db cursor pages ∧ PagesOf args.limit.toNat rows pages := by
  have hlimit := limit_of_validate hvalid
  induction hn : rows.length using Nat.strong_induction_on generalizing before rows cursor with
  | _ n ih =>
    have hpage : listCases ilike organizationId { args with cursor := cursor } db = .ok _ :=
      listCases_eq hvalid hquery cursor
    rw [hcursor] at hpage
    by_cases hmore : args.limit.toNat < rows.length
    · -- the last row of the page splits the list
      obtain ⟨init, r, hinit⟩ : ∃ init r, rows.take args.limit.toNat = init ++ [r] := by
        refine ⟨_, _, (List.dropLast_append_getLast (List.ne_nil_of_length_pos ?_)).symm⟩
        rw [List.length_take]
        omega
      have hsplit : rows = init ++ r :: rows.drop args.limit.toNat := by
        conv_lhs => rw [← List.take_append_drop args.limit.toNat rows, hinit]
        rw [List.append_assoc, List.singleton_append]
      have hall : casesFrom ilike organizationId args db none =
          (before ++ init) ++ r :: rows.drop args.limit.toNat := by
        rw [hrows, List.append_assoc, ← hsplit]
      rw [if_pos hmore, hinit, List.getLast?_concat] at hpage
      have hmem : r ∈ db.cases := by
        have hr : r ∈ casesFrom ilike organizationId args db none := by
          rw [hall]
          simp
        exact (Keyset.mem_scan.mp hr).1
      have hbehind : casesFrom ilike organizationId args db none =
          (before ++ init ++ [r]) ++ rows.drop args.limit.toNat := by
        rw [hall, List.append_assoc (before ++ init), List.singleton_append]
      have hshorter : (rows.drop args.limit.toNat).length < n := by
        rw [List.length_drop]
        omega
      obtain ⟨pages, hpages, hof⟩ := ih _ hshorter hbehind (casesFrom_row hkeys hall) rfl
      refine ⟨_, .next hpage rfl (hkept r hmem).parse hpages, ?_⟩
      have hfull : ((init ++ [r]).map caseRecord).length = args.limit.toNat := by
        rw [List.length_map, ← hinit, List.length_take]
        omega
      have hcons : PagesOf args.limit.toNat ((init ++ [r]) ++ rows.drop args.limit.toNat)
          (⟨(init ++ [r]).map caseRecord, some ⟨r.updatedAt, r.id⟩⟩ :: pages) :=
        hof.cons rfl hfull (by simp)
      rwa [← hinit, List.take_append_drop, hinit] at hcons
    · rw [if_neg hmore] at hpage
      refine ⟨_, .last hpage rfl, ?_, ?_, ?_⟩
      · rw [List.flatMap_singleton, List.take_of_length_le (by omega)]
      · intro page hpage
        cases hpage
      · refine ⟨_, rfl, ?_, rfl⟩
        show ((rows.take args.limit.toNat).map caseRecord).length ≤ args.limit.toNat
        rw [List.length_map, List.length_take]
        omega

/-- **Following the cursors ends, and the pages are the list of the visible matching cases.** -/
theorem case_pages_are_listing (hkeys : (db.cases.map (·.id)).Nodup)
    (hkept : ∀ r ∈ db.cases, CursorKept lib times r)
    (hvalid : args.validate = .ok ()) (hquery : args.queryText.all storable = true) :
    ∃ rows pages, CaseListing ilike organizationId args db rows ∧ PagesOf args.limit.toNat rows pages ∧
      ∀ pages', CasePages lib times ilike organizationId args db none pages' ↔ pages' = pages := by
  obtain ⟨pages, hpages, hof⟩ : ∃ pages, CasePages lib times ilike organizationId args db none pages ∧
      PagesOf args.limit.toNat (casesFrom ilike organizationId args db none) pages :=
    exists_casePages hkeys hkept hvalid hquery (List.nil_append _).symm rfl
  refine ⟨_, pages, ⟨Keyset.scan_perm, Keyset.scan_sorted (orderKey_nodup hkeys)⟩, hof, fun pages' => ?_⟩
  constructor
  · exact fun hpages' => hpages'.unique hpages
  · rintro rfl
    exact hpages

end

/-- A library and a driver that know the time of the sample cases, and their ids. -/
def samplePageLibrary : CursorLibrary where
  decodeOther _ := none
  floatOf _ := ⟨py "3.5", by decide, by decide, by decide⟩
  fromIsoFormat t :=
    if t = py "1970-01-01T00:00:00.000050+00:00" then some ⟨some 0, ⟨1970, 1, 1, 0, 0, 0, 50, by decide, by decide⟩⟩
    else none
  uuid s := if s = Uuid.str 10 then some 10 else if s = Uuid.str 11 then some 11 else none

def samplePageTimes : Timestamps where
  utc _ := ⟨1970, 1, 1, 0, 0, 0, 50, by decide, by decide⟩
  instant _ := 50

def samplePageArgs : CaseListArgs := { limit := 1, query := some (py "tunnel") }

/-- A second case of the same time. -/
def secondCase : CaseRow := { sampleFeedCase with id := 11 }

def samplePageDb : Db := { cases := [sampleFeedCase, secondCase] }

/-- The case of the greater id is on the first page, and the first page's cursor leads to the other one. -/
def samplePages : List CaseListPage :=
  [{ items := [caseRecord secondCase], nextCursor := some ⟨50, 11⟩ },
   { items := [caseRecord sampleFeedCase], nextCursor := none }]

theorem samplePage_kept : ∀ r ∈ samplePageDb.cases, CursorKept samplePageLibrary samplePageTimes r := by
  intro r hr
  have hr' : r = sampleFeedCase ∨ r = secondCase := by simpa [samplePageDb] using hr
  have htime : samplePageLibrary.fromIsoFormat (samplePageTimes.utc 50).isoformat =
      some ⟨some 0, samplePageTimes.utc 50⟩ := by
    have htext : (samplePageTimes.utc 50).isoformat = py "1970-01-01T00:00:00.000050+00:00" := by decide
    unfold samplePageLibrary
    rw [htext]
    simp [samplePageTimes]
  rcases hr' with rfl | rfl
  · exact ⟨rfl, htime, by decide⟩
  · exact ⟨rfl, htime, by decide⟩

theorem samplePages_followed :
    CasePages samplePageLibrary samplePageTimes (fun _ _ => true) 7 samplePageArgs samplePageDb none samplePages := by
  have hfirst : listCases (fun _ _ => true) 7 { samplePageArgs with cursor := none } samplePageDb =
      .ok { items := [caseRecord secondCase], nextCursor := some ⟨50, 11⟩ } := by rfl
  have hlast : listCases (fun _ _ => true) 7 { samplePageArgs with cursor := some ⟨50, 11⟩ } samplePageDb =
      .ok { items := [caseRecord sampleFeedCase], nextCursor := none } := by rfl
  have hkept : CursorKept samplePageLibrary samplePageTimes secondCase := samplePage_kept _ (by simp [samplePageDb])
  exact .next hfirst rfl hkept.parse (.last hlast rfl)

/-- Two cases of one time, one on each page. -/
theorem case_pages_are_listing_sample :
    CaseListing (fun _ _ => true) 7 samplePageArgs samplePageDb [secondCase, sampleFeedCase] ∧
      PagesOf 1 [secondCase, sampleFeedCase] samplePages ∧
      ∀ pages', CasePages samplePageLibrary samplePageTimes (fun _ _ => true) 7 samplePageArgs samplePageDb none
        pages' ↔ pages' = samplePages := by
  obtain ⟨rows, pages, hlisting, hof, hiff⟩ := @case_pages_are_listing samplePageLibrary samplePageTimes (fun _ _ => true)
    7 samplePageArgs samplePageDb (by decide) samplePage_kept (by decide) (by decide)
  obtain rfl : samplePages = pages := (hiff _).mp samplePages_followed
  have hrows : rows = [secondCase, sampleFeedCase] := by
    have hperm : rows.Perm [sampleFeedCase, secondCase] := hlisting.cases
    rcases List.perm_pair.mp hperm with hordered | hordered
    · have hdescending := hlisting.descending
      rw [hordered] at hdescending
      exact absurd hdescending (by decide)
    · exact hordered
  subst hrows
  exact ⟨hlisting, hof, hiff⟩

end NetopsCopilot
