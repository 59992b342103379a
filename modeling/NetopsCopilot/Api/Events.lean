import NetopsCopilot.Api.Cases
import NetopsCopilot.Application.EventFeed

/-!
# The event replay (`api/events.py`)

A page of the feed as server-sent events, one frame for each event, after the event that the client names.
-/

namespace NetopsCopilot

/-! ### Frames -/

section

-- `datetime.isoformat` depends on the time zone of the value
variable (isoformat : Instant → PyStr)

/-- The payload of `_sse_events`. -/
def ssePayload (e : CaseFeedEvent) : List (PyStr × Json) :=
  [(py "event_id", .str (Uuid.str e.eventId)),
    (py "case_id", .str (Uuid.str e.caseId)),
    (py "event_type", .str e.eventType),
    (py "aggregate_version", .int e.aggregateVersion),
    (py "transition_id", (e.transitionId.map fun t => .str (Uuid.str t)).getD .null),
    (py "actor_id", .str (Uuid.str e.actorId)),
    (py "correlation_id", .str (Uuid.str e.correlationId)),
    (py "occurred_at", .str (replaceText (py "+00:00") (py "Z") (isoformat e.occurredAt)))]

/-- `json.dumps(payload, separators=(",", ":"))`. -/
def payloadText (e : CaseFeedEvent) : PyStr :=
  py "\x7b" ++ joinComma ((dumpsMembers (ssePayload isoformat e)).map memberText) ++ py "\x7d"

/-- What `_sse_events` yields for an event, without the blank line. -/
def sseFrame (e : CaseFeedEvent) : PyStr :=
  py "id: " ++ Uuid.str e.eventId ++ py "\nevent: case\ndata: " ++ payloadText isoformat e

/-- The text of the response. -/
def sseEvents (events : List CaseFeedEvent) : PyStr :=
  events.flatMap fun e => sseFrame isoformat e ++ py "\n\n"

end

/-! ### The route -/

/-- `_parse_last_event_id`; `uuid` is `UUID`, where `none` is a `ValueError`. -/
def parseLastEventId (uuid : PyStr → Option Uuid) : Option PyStr → Except CaseError (Option Uuid)
  | none => .ok none
  | some value =>
    match uuid value with
    | some eventId => .ok (some eventId)
    | none => .error (.api 422 (py "invalid_event_cursor") (py "The event recovery cursor is invalid."))

/-- The exceptions of `read_after` in `replay_case_events`. -/
def mapFeedError : EventFeedError → CaseError
  | .cursorNotFound _ =>
    .api 409 (py "event_cursor_unavailable") (py "The event recovery cursor is not available.")
  | .valueError _ => .api 422 (py "invalid_event_cursor") (py "The event recovery cursor is invalid.")
  | .multipleResults => .multipleResults

/-- `replay_case_events`: the text of the stream. -/
def replayCaseEventsRoute (uuid : PyStr → Option Uuid) (isoformat : Instant → PyStr) (p : AuthenticatedPrincipal)
    (lastEventId : Option PyStr) (limit : Int) (db : Db) : Except CaseError PyStr := do
  requireCaseReadAccess p
  let cursor ← parseLastEventId uuid lastEventId
  let events ← (readAfter p.organizationId cursor p.assetList limit db).mapError mapFeedError
  return sseEvents isoformat events

end NetopsCopilot
