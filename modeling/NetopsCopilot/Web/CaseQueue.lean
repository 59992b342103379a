import NetopsCopilot.Api.CaseListCursor
import NetopsCopilot.JavaScript.Url
import NetopsCopilot.Postgres.Schema

/-!
# The case queue page (`web/app/cases/page.tsx`)

The page writes its filters and the API's cursor into the link of the next page, and reads them back from the
query of the request. `parameter` cuts every value at a hundred characters, which no cursor of the API survives
(`queue_link_never`); the limit of 512 characters for the cursor comes too late.
-/

namespace NetopsCopilot

/-! ### Filters -/

/-- `knownStates`. -/
def knownStates : List CaseState :=
  [.new, .investigating, .diagnosed, .fixProposed, .needsInformation, .confirmed, .resolved, .learned]

/-- `knownSeverities`. -/
def knownSeverities : List Severity := [.low, .medium, .high, .critical]

/-- `QueueFilters`; `none` is the empty text. -/
structure QueueFilters where
  query : JsStr
  state : Option CaseState
  severity : Option Severity
  cursor : JsStr

/-- White space and line terminators of JavaScript. -/
def isJsSpace (c : JsChar) : Bool :=
  (9 ≤ c.val && c.val ≤ 13) || c.val == 32 || c.val == 0xA0 || c.val == 0x1680 ||
    (0x2000 ≤ c.val && c.val ≤ 0x200A) || c.val == 0x2028 || c.val == 0x2029 || c.val == 0x202F ||
    c.val == 0x205F || c.val == 0x3000 || c.val == 0xFEFF

/-- `text.trim()`. -/
def jsTrim (t : JsStr) : JsStr := (t.dropWhile isJsSpace).rdropWhile isJsSpace

/-- A parameter of the request is a string if it occurs once, and an array if it occurs more often. -/
def stringParameter (parameters : List (JsStr × JsStr)) (name : JsStr) : Option JsStr :=
  match parameters.filter fun p => p.1 == name with
  | [(_, value)] => some value
  | _ => none

/-- `parameter`. -/
def parameter (parameters : List (JsStr × JsStr)) (name : JsStr) : JsStr :=
  match stringParameter parameters name with
  | some value => (jsTrim value).take 100
  | none => []

/-- `filtersFrom`. -/
def filtersFrom (parameters : List (JsStr × JsStr)) : QueueFilters where
  query := parameter parameters (js "q")
  state := knownStates.find? fun s => jsText s.value == parameter parameters (js "state")
  severity := knownSeverities.find? fun s => jsText s.value == parameter parameters (js "severity")
  cursor := (parameter parameters (js "cursor")).take 512

/-! ### The link -/

/-- The parameters that `queueHref` sets for the filters. -/
def filterParameters (filters : QueueFilters) : List (JsStr × JsStr) :=
  (if filters.query = [] then [] else [(js "q", filters.query)]) ++
    (filters.state.map fun s => (js "state", jsText s.value)).toList ++
    (filters.severity.map fun s => (js "severity", jsText s.value)).toList

/-- The parameters that `queueHref` sets. -/
def hrefParameters (filters : QueueFilters) (cursor : Option JsStr) : List (JsStr × JsStr) :=
  filterParameters filters ++ match cursor with
    | none => []
    | some cursor => if cursor = [] then [] else [(js "cursor", cursor)]

/-- `queueHref`. -/
def queueHref (filters : QueueFilters) (cursor : Option JsStr) : List Utf8.Byte :=
  let query := Url.queryText (hrefParameters filters cursor)
  if query = [] then Utf8.encode (py "/cases") else Utf8.encode (py "/cases?") ++ query

/-- The parameters of a request for the link. -/
def searchParameters (href : List Utf8.Byte) : List (JsStr × JsStr) :=
  Url.parseQuery ((href.dropWhile (· != 63)).drop 1)

/-- The link to the next page of a queue: the filters that the page reads back from it. -/
def nextFilters (filters : QueueFilters) (cursor : CaseListCursor) : QueueFilters :=
  filtersFrom (searchParameters (queueHref filters (some (jsText (encodeCaseListCursor cursor)))))

/-- The link survives: the page reads back the filters, and the API the cursor. -/
def LinkSurvives (lib : CursorLibrary) (filters : QueueFilters) (cursor : CaseListCursor) : Prop :=
  (nextFilters filters cursor).query = filters.query ∧ (nextFilters filters cursor).state = filters.state ∧
    (nextFilters filters cursor).severity = filters.severity ∧
    parseCaseListCursor lib (scalarValues (nextFilters filters cursor).cursor) = .ok cursor

/-! ### Reading the link back -/

section

variable (filters : QueueFilters) (cursor : CaseListCursor)

/-- The conversion that a parameter goes through. -/
def received (t : JsStr) : JsStr := jsText (scalarValues t)

theorem received_jsText {s : PyStr} (h : s.all (fun c => decide (c.val < 128)) = true) :
    received (jsText s) = jsText s := by
  unfold received
  rw [scalarValues_jsText (isScalar_of_ascii h)]

theorem hrefParameters_cursor {link : JsStr} (hlink : link ≠ []) :
    hrefParameters filters (some link) = filterParameters filters ++ [(js "cursor", link)] := by
  unfold hrefParameters
  exact congrArg (filterParameters filters ++ ·) (if_neg hlink)

theorem searchParameters_queueHref {link : JsStr} (hlink : link ≠ []) :
    searchParameters (queueHref filters (some link)) =
      (filterParameters filters ++ [(js "cursor", link)]).map fun p => (received p.1, received p.2) := by
  have hread := Url.parseQuery_queryText (hrefParameters filters (some link))
  rw [hrefParameters_cursor filters hlink] at hread
  have hne : Url.queryText (filterParameters filters ++ [(js "cursor", link)]) ≠ [] := by
    intro h
    have hnil : Url.parseQuery [] = [] := rfl
    rw [h, hnil] at hread
    simp at hread
  have hpath : Utf8.encode (py "/cases?") = [47, 99, 97, 115, 101, 115, 63] := by decide +kernel
  unfold searchParameters queueHref
  dsimp only
  rw [hrefParameters_cursor filters hlink, if_neg hne, hpath]
  exact hread

theorem name_of_mem_filterParameters {filters : QueueFilters} {p : JsStr × JsStr} (hp : p ∈ filterParameters filters) :
    p.1 = js "q" ∨ p.1 = js "state" ∨ p.1 = js "severity" := by
  unfold filterParameters at hp
  rw [List.mem_append, List.mem_append, Option.mem_toList, Option.mem_toList] at hp
  rcases hp with (hp | hp) | hp
  · split_ifs at hp with hquery
    · cases hp
    · rw [List.mem_singleton.mp hp]
      exact Or.inl rfl
  · obtain ⟨s, -, rfl⟩ := Option.map_eq_some_iff.mp hp
    exact Or.inr (Or.inl rfl)
  · obtain ⟨s, -, rfl⟩ := Option.map_eq_some_iff.mp hp
    exact Or.inr (Or.inr rfl)

/-- The cursor is in the link once. -/
theorem stringParameter_cursor {link : JsStr} (hlink : link ≠ []) :
    stringParameter (searchParameters (queueHref filters (some link))) (js "cursor") = some (received link) := by
  have hnames : ∀ p ∈ filterParameters filters, (received p.1 == js "cursor") = false := by
    intro p hp
    have hq : received (js "q") = js "q" := received_jsText (by decide)
    have hstate : received (js "state") = js "state" := received_jsText (by decide)
    have hseverity : received (js "severity") = js "severity" := received_jsText (by decide)
    rcases name_of_mem_filterParameters hp with h | h | h
    · rw [h, hq]
      decide +kernel
    · rw [h, hstate]
      decide +kernel
    · rw [h, hseverity]
      decide +kernel
  have hcursor : received (js "cursor") = js "cursor" := received_jsText (by decide)
  have hfront : ((filterParameters filters).map fun p => (received p.1, received p.2)).filter
      (fun p => p.1 == js "cursor") = [] := by
    refine List.filter_eq_nil_iff.mpr fun p hp => ?_
    obtain ⟨q, hq, rfl⟩ := List.mem_map.mp hp
    exact ne_true_of_eq_false (hnames q hq)
  have hfilter : (searchParameters (queueHref filters (some link))).filter (fun p => p.1 == js "cursor") =
      [(js "cursor", received link)] := by
    rw [searchParameters_queueHref filters hlink, List.map_append, List.filter_append, hfront, List.map_singleton,
      hcursor, List.nil_append]
    have hkept : (js "cursor" == js "cursor") = true := beq_self_eq_true _
    show (if (js "cursor" == js "cursor") = true then [(js "cursor", received link)] else []) = _
    rw [if_pos hkept]
  unfold stringParameter
  rw [hfilter]

/-- Characters that are neither white space nor outside the basic plane. -/
def IsLinkText (s : PyStr) : Prop := ∀ c ∈ s, 32 < c.val ∧ c.val < 128

theorem jsText_eq_map {s : PyStr} (hs : IsLinkText s) : jsText s = s.map fun c => Fin.ofNat _ c.val := by
  unfold jsText
  induction s with
  | nil => rfl
  | cons c s ih =>
    obtain ⟨hc, hs⟩ := List.forall_mem_cons.mp hs
    have hunits : utf16 c = [Fin.ofNat _ c.val] := if_pos (by omega)
    rw [List.flatMap_cons, hunits, ih hs]
    rfl

/-- Nothing is trimmed off such text, and it is cut where its characters are. -/
theorem take_jsTrim {s : PyStr} (hs : IsLinkText s) (n : Nat) : (jsTrim (jsText s)).take n = jsText (s.take n) := by
  have htake : IsLinkText (s.take n) := fun c hc => hs c (List.mem_of_mem_take hc)
  have hspace : ∀ u ∈ jsText s, isJsSpace u = false := by
    intro u hu
    rw [jsText_eq_map hs] at hu
    obtain ⟨c, hc, rfl⟩ := List.mem_map.mp hu
    obtain ⟨hlow, hhigh⟩ := hs c hc
    have hval : (Fin.ofNat 0x10000 c.val).val = c.val := Nat.mod_eq_of_lt (by omega)
    rw [isJsSpace, hval, Bool.eq_false_iff]
    simp only [ne_eq, Bool.or_eq_true, Bool.and_eq_true, decide_eq_true_eq, beq_iff_eq]
    omega
  have htrim : jsTrim (jsText s) = jsText s := by
    have hleft : (jsText s).dropWhile isJsSpace = jsText s := by
      refine List.dropWhile_eq_self_iff.mpr fun hpos => ?_
      exact ne_true_of_eq_false (hspace _ (List.getElem_mem hpos))
    unfold jsTrim
    rw [hleft]
    refine List.rdropWhile_eq_self_iff.mpr fun hne => ?_
    exact ne_true_of_eq_false (hspace _ (List.getLast_mem hne))
  rw [htrim, jsText_eq_map hs, jsText_eq_map htake, List.map_take]

theorem linkText_encodeCaseListCursor : IsLinkText (encodeCaseListCursor cursor) := by
  have hchar : ∀ d : Base64.Sextet, (decide (32 < (base64Char d).val) && decide ((base64Char d).val < 128)) = true := by
    decide
  intro c hc
  rw [encodeCaseListCursor_ascii] at hc
  obtain ⟨d, -, rfl⟩ := List.mem_map.mp hc
  have hd := hchar d
  rwa [Bool.and_eq_true, decide_eq_true_eq, decide_eq_true_eq] at hd

/-- The page reads back a hundred characters of the cursor. -/
theorem cursor_nextFilters :
    (nextFilters filters cursor).cursor = jsText ((encodeCaseListCursor cursor).take 100) := by
  have htext := linkText_encodeCaseListCursor cursor
  have hlength := length_encodeCaseListCursor cursor
  have hlink : jsText (encodeCaseListCursor cursor) ≠ [] := by
    rw [jsText_eq_map htext]
    intro h
    rw [List.map_eq_nil_iff.mp h] at hlength
    exact absurd hlength (by decide)
  have hreceived : received (jsText (encodeCaseListCursor cursor)) = jsText (encodeCaseListCursor cursor) :=
    received_jsText (List.all_eq_true.mpr fun c hc => decide_eq_true (htext c hc).2)
  have htake : (jsText ((encodeCaseListCursor cursor).take 100)).take 512 =
      jsText ((encodeCaseListCursor cursor).take 100) := by
    refine List.take_of_length_le ?_
    rw [jsText_eq_map fun c hc => htext c (List.mem_of_mem_take hc), List.length_map, List.length_take]
    omega
  show (parameter (searchParameters (queueHref filters _)) (js "cursor")).take 512 = _
  unfold parameter
  rw [stringParameter_cursor filters hlink, hreceived]
  dsimp only
  rw [take_jsTrim htext, htake]

theorem parse_nextFilters (lib : CursorLibrary) :
    parseCaseListCursor lib (scalarValues (nextFilters filters cursor).cursor) = .error .invalidCaseCursor := by
  have hscalar : ∀ c ∈ (encodeCaseListCursor cursor).take 100, Utf8.IsScalar c := by
    intro c hc
    have hascii := (linkText_encodeCaseListCursor cursor c (List.mem_of_mem_take hc)).2
    exact Or.inl (by omega)
  rw [cursor_nextFilters, scalarValues_jsText hscalar, parse_cut]

end

/-- **No link to a next page works.** For every cursor and all filters, the API refuses what the page reads back
from the link: the cursor is cut at a hundred characters. -/
theorem queue_link_never (lib : CursorLibrary) (filters : QueueFilters) (cursor : CaseListCursor) :
    ¬LinkSurvives lib filters cursor ∧
      parseCaseListCursor lib (scalarValues (nextFilters filters cursor).cursor) = .error .invalidCaseCursor := by
  have hparse := parse_nextFilters filters cursor lib
  refine ⟨fun h => ?_, hparse⟩
  rw [h.2.2.2] at hparse
  cases hparse

/-- Midnight of a day in July, and a library that knows its text. -/
def sampleCursor : CaseListCursor where
  updatedAt := ⟨2026, 7, 16, 0, 0, 0, 0, by decide, by decide⟩
  caseId := 7

def sampleCursorLibrary : CursorLibrary where
  decodeOther _ := none
  floatOf _ := ⟨py "1.5", by decide, by decide, by decide⟩
  fromIsoFormat t := if t = sampleCursor.updatedAt.isoformat then some ⟨some 0, sampleCursor.updatedAt⟩ else none
  uuid t := if t = Uuid.str 7 then some 7 else none

/-- The queue without filters. -/
theorem queue_link_breaks :
    ¬LinkSurvives sampleCursorLibrary { query := [], state := none, severity := none, cursor := [] } sampleCursor := by
  intro h
  have hparse := h.2.2.2
  rw [parse_nextFilters] at hparse
  cases hparse

end NetopsCopilot
