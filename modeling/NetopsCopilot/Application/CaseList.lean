import NetopsCopilot.Application.Cases

/-!
# The case list (`TenantCaseRepository.list_cases`)

A page of the cases of an organization within an asset scope, newest first, with the position of its last row when
there are more. How `ILIKE '%' || query || '%'` matches is a parameter.
-/

namespace NetopsCopilot

/-- `CaseListCursor`, with its time as an instant. -/
structure CaseListPosition where
  updatedAt : Instant
  caseId : Uuid
deriving DecidableEq

/-- `CaseListPage`. -/
structure CaseListPage where
  items : List CaseRecord
  nextCursor : Option CaseListPosition

/-- The arguments of `list_cases`. -/
structure CaseListArgs where
  assetIds : List Uuid := []
  limit : Int := 50
  cursor : Option CaseListPosition := none
  query : Option PyStr := none
  state : Option CaseState := none
  severity : Option PyStr := none

/-- `query.strip() if query is not None and query.strip() else None`. -/
def CaseListArgs.queryText (args : CaseListArgs) : Option PyStr :=
  (args.query.map strip).filter fun text => !text.isEmpty

/-- What `list_cases` checks before its statement. -/
def CaseListArgs.validate (args : CaseListArgs) : Except CaseError Unit :=
  if ¬(1 ≤ args.limit ∧ args.limit ≤ 100) then
    .error (.domain (.valueError (py "limit must be between 1 and 100.")))
  else if args.query.any fun text => decide (100 < (strip text).length) then
    .error (.domain (.valueError (py "query must contain at most 100 characters.")))
  else if args.severity.any fun text => decide (text ∉ [py "low", py "medium", py "high", py "critical"]) then
    .error (.domain (.valueError (py "severity must be low, medium, high, or critical.")))
  else .ok ()

/-- The asset scope of `_LIST_CASES`. -/
def CaseRow.inAssets (assetIds : List Uuid) (r : CaseRow) : Bool :=
  r.assetId.all fun assetId => decide (assetId ∈ assetIds)

/-- `ORDER BY updated_at DESC, id DESC`. -/
def CaseRow.listKey (r : CaseRow) : Instant ×ₗ Uuid := toLex (r.updatedAt, r.id)

section

variable (ilike : PyStr → PyStr → Bool)

/-- The `WHERE` of `_LIST_CASES`. -/
def CaseRow.listed (organizationId : Uuid) (args : CaseListArgs) (r : CaseRow) : Bool :=
  r.organizationId == organizationId && r.inAssets args.assetIds && args.state.all (· == r.state) &&
    args.severity.all (· == r.severity.value) &&
    (args.queryText.all fun text =>
      ilike r.title text || ilike (r.category.getD []) text || ilike r.id.str text) &&
    args.cursor.all fun cursor => decide (r.listKey < toLex (cursor.updatedAt, cursor.caseId))

/-- `TenantCaseRepository.list_cases`. -/
def listCases (organizationId : Uuid) (args : CaseListArgs) (db : Db) : Except CaseError CaseListPage := do
  args.validate
  (need .notStorable (args.queryText.all storable)).mapError .db
  let rows := ((db.cases.filter (CaseRow.listed ilike organizationId args)).insertionSort fun a b =>
    b.listKey ≤ a.listKey).take (args.limit.toNat + 1)
  let records := rows.map caseRecord
  let items := records.take args.limit.toNat
  return { items := items
           nextCursor := if args.limit.toNat < records.length then
             items.getLast?.map fun case => ⟨case.updatedAt, case.caseId⟩ else none }

end

end NetopsCopilot
