import NetopsCopilot.Application.ArtifactIntents

/-!
# Error responses (`api/errors.py`, `get_tenant_connection` in `core/dependencies.py`)

An `ApiError` is answered as it is. A database error that leaves the route reaches `get_tenant_connection`, which
answers 503, and any other exception is answered 500.
-/

namespace NetopsCopilot

/-- What a route raises. -/
inductive RouteError where
  | case (e : CaseError)
  | intent (e : IntentError)
  | attributeError
  | unicodeEncodeError
deriving DecidableEq

/-- The status, the code and the message of `error_response`. -/
structure ErrorAnswer where
  statusCode : Nat
  code : PyStr
  message : PyStr
deriving DecidableEq

/-- What `get_tenant_connection` makes of a `SQLAlchemyError`. -/
def tenantContextUnavailable : ErrorAnswer :=
  ⟨503, py "tenant_context_unavailable", py "Tenant persistence is temporarily unavailable."⟩

/-- `unhandled_error_handler`. -/
def internalError : ErrorAnswer := ⟨500, py "internal_error", py "An unexpected error occurred."⟩

/-- The answer to an exception of a route. -/
def RouteError.answer : RouteError → ErrorAnswer
  | .case (.api statusCode code message) => ⟨statusCode, code, message⟩
  | .case (.db _) | .case .multipleResults => tenantContextUnavailable
  -- a name without a parameter, no row and more than one row are `SQLAlchemyError`s as well
  | .intent (.db _) | .intent (.unbound _) | .intent .noResultFound | .intent .multipleResults =>
    tenantContextUnavailable
  | _ => internalError

end NetopsCopilot
