import NetopsCopilot.Api.CaseListCursor
import NetopsCopilot.Api.Cases
import NetopsCopilot.Api.Errors
import NetopsCopilot.Application.CaseList

/-!
# Reading cases (`list_cases`, `get_case` and `get_case_timeline` in `api/cases.py`)

`CaseTimelineEntryResponse` has the fields of `CaseTimelineEntry`, which `_timeline_response` copies.
-/

namespace NetopsCopilot

open Txn

/-! ### The list -/

/-- The query of `list_cases`, with the bounds of its parameters. -/
structure CaseListQuery where
  limit : Int := 50
  cursor : Option PyStr := none
  q : Option PyStr := none
  state : Option CaseState := none
  severity : Option Severity := none
  limitOk : 1 ≤ limit ∧ limit ≤ 100
  cursorOk : ∀ s ∈ cursor, s.length ≤ 512
  qOk : ∀ s ∈ q, s.length ≤ 100

/-- `CaseListResponse`. -/
structure CaseListResponse where
  items : List CaseResponse
  nextCursor : Option PyStr

/-- The `datetime` that the driver returns for a `timestamptz`, in UTC, and back. -/
structure Timestamps where
  utc : Instant → UtcDateTime
  instant : UtcDateTime → Instant

section

variable (lib : CursorLibrary) (times : Timestamps) (ilike : PyStr → PyStr → Bool) (p : AuthenticatedPrincipal)

/-- The cursor of a query. -/
def parsedCursor : Option PyStr → Except RouteError (Option CaseListPosition)
  | none => .ok none
  | some value =>
    match parseCaseListCursor lib value with
    | .ok cursor => .ok (some ⟨times.instant cursor.updatedAt, cursor.caseId⟩)
    | .error .invalidCaseCursor =>
      .error (.case (.api 422 (py "invalid_case_cursor") (py "The case list cursor is invalid.")))
    | .error .attributeError => .error .attributeError

/-- What `list_cases` passes to the repository. -/
def CaseListQuery.args (query : CaseListQuery) (cursor : Option CaseListPosition) : CaseListArgs where
  assetIds := p.assetList
  limit := query.limit
  cursor := cursor
  query := query.q
  state := query.state
  severity := query.severity.map Severity.value

/-- `list_cases`. -/
def listCasesRoute (query : CaseListQuery) (db : Db) : Except RouteError CaseListResponse := do
  (requireCaseReadAccess p).mapError .case
  let cursor ← parsedCursor lib times query.cursor
  let page ← (listCases ilike p.organizationId (query.args p cursor) db).mapError fun e =>
    .case (mapCaseError e)
  return { items := page.items.map caseResponse
           nextCursor := page.nextCursor.map fun c => encodeCaseListCursor ⟨times.utc c.updatedAt, c.caseId⟩ }

end

/-! ### A case -/

/-- `CaseDetailResponse`. -/
structure CaseDetailResponse where
  case : CaseResponse
  timeline : List CaseTimelineEntry

section

variable (p : AuthenticatedPrincipal) (caseId : Uuid)

/-- `get_detail` and `_visible_case_or_not_found`. -/
def visibleDetail : CaseProg (CaseRecord × CaseDetail) := do
  let detail ← getDetail p.organizationId caseId
  let case ← Prog.lift (visibleCaseOrNotFound detail.case p)
  return (case, detail)

/-- `get_case`. -/
def getCaseRoute : CaseProg CaseDetailResponse := do
  let _ ← Prog.lift (requireCaseReadAccess p)
  let (case, detail) ← mapErrors (visibleDetail p caseId)
  return { case := caseResponse case, timeline := detail.timeline }

/-- `get_case_timeline`. -/
def getCaseTimelineRoute : CaseProg (List CaseTimelineEntry) := do
  let _ ← Prog.lift (requireCaseReadAccess p)
  let (_, detail) ← mapErrors (visibleDetail p caseId)
  return detail.timeline

end

end NetopsCopilot
