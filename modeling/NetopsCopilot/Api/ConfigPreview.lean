import NetopsCopilot.Api.Cases
import NetopsCopilot.Application.ConfigPreview

/-!
# Access to what belongs to a case (`api/config_preview.py`)

The preview route and the artifact routes share `_require_visible_case`.
-/

namespace NetopsCopilot

/-! ### Access -/

/-- `_WRITE_ROLES`. -/
def writeRoles : Finset CaseRole := {.orgAdmin, .operator, .approver, .platformAdmin}

/-- `_READ_ROLES`. -/
def readRoles : Finset CaseRole :=
  {.orgAdmin, .operator, .approver, .auditor, .integrationAdmin, .platformAdmin}

/-- `case_write_forbidden` of the routes below a case. -/
def caseWriteForbidden : CaseError :=
  .api 403 (py "case_write_forbidden") (py "The signed-in user lacks a case-write role.")

/-- `_require_preview_access`. -/
def requirePreviewAccess (p : AuthenticatedPrincipal) : Except CaseError Unit :=
  if p.requireAnyRole readRoles && p.requireAnyRole writeRoles then .ok () else .error caseWriteForbidden

/-- `_require_visible_case`; only `CaseNotFoundError` is caught. -/
def requireVisibleCase (p : AuthenticatedPrincipal) (caseId : Uuid) : CaseProg Unit :=
  (getDetail p.organizationId caseId).elim
    (fun detail =>
      match detail.case.assetId with
      | some assetId => if assetId ∉ p.assetIds then .raise caseNotFound else .ret ()
      | none => .ret ())
    fun
      | .caseNotFound _ => .raise caseNotFound
      | e => .raise e

end NetopsCopilot
