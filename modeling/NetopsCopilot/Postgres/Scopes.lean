import NetopsCopilot.Lib.Rows
import NetopsCopilot.Application.ArtifactIntents
import NetopsCopilot.Application.CaseStore

/-!
# Parts of the database

A `Scope` selects the rows of some organizations, cases and artifacts, and `Db.within` is the database that has
no others. Two parts do not share an identifier (`Db.Divided`): `out` holds of the identifiers of the rows outside.
A write of rows of the part (`IntentWrite.Inside`) acts on the part as it does on the whole database and leaves
the other rows as they are, and so do the deferred triggers, which read the rows of one case.
-/

namespace NetopsCopilot

/-! ### Identifiers -/

/-- An identifier that a row has or refers to, by the index it is looked up in. -/
inductive RowId where
  | case (id : Uuid)
  | idempotency (organizationId : Uuid) (idempotencyKey : PyStr)
  | caseInput (id : Uuid)
  | transition (id : Uuid)
  | event (id : Uuid)
  | outbox (id : Uuid)
  | audit (id : Uuid)
  | intent (id : Uuid)
  | artifact (id : Uuid)
  | storage (organizationId : Uuid) (storageKey : PyStr)
  | processing (id : Uuid)
deriving DecidableEq

/-- The UUID of a generated identifier. -/
def RowId.uuid : RowId → Option Uuid
  | .case id | .caseInput id | .transition id | .event id | .outbox id | .audit id | .intent id
  | .artifact id | .processing id => some id
  | .idempotency _ _ | .storage _ _ => none

def CaseRow.ids (r : CaseRow) : List RowId :=
  [.case r.id, .idempotency r.organizationId r.idempotencyKey]

def CaseInputRow.ids (r : CaseInputRow) : List RowId := [.caseInput r.id]

def TransitionRow.ids (r : TransitionRow) : List RowId := [.transition r.id, .case r.caseId]

def EventRow.ids (r : EventRow) : List RowId := .event r.id :: (r.transitionId.map .transition).toList

def OutboxRow.ids (r : OutboxRow) : List RowId := [.outbox r.id, .event r.caseEventId]

def AuditRow.ids (r : AuditRow) : List RowId := [.audit r.id]

def ArtifactRow.ids (r : ArtifactRow) : List RowId :=
  [.artifact r.id, .storage r.organizationId r.storageKey]

def IntentRow.ids (r : IntentRow) : List RowId :=
  [.intent r.id, .artifact r.artifactId, .storage r.organizationId r.storageKey]

def ProcessingRow.ids (r : ProcessingRow) : List RowId := [.processing r.id, .artifact r.artifactId]

/-! ### Scopes -/

/-- The organizations in a part, and the cases, events, artifacts and audit rows of an organization in it. -/
structure Scope where
  tenant : Uuid → Bool
  case : Uuid → Uuid → Bool
  event : Uuid → Uuid → Bool
  artifact : Uuid → Uuid → Bool
  audit : Uuid → Uuid → Bool

namespace Scope

variable (sc : Scope)

/-- Everything else. -/
def complement : Scope where
  tenant organizationId := !sc.tenant organizationId
  case organizationId caseId := !sc.case organizationId caseId
  event organizationId eventId := !sc.event organizationId eventId
  artifact organizationId artifactId := !sc.artifact organizationId artifactId
  audit organizationId auditEventId := !sc.audit organizationId auditEventId

def caseRow (r : CaseRow) : Bool := sc.case r.organizationId r.id

def caseInputRow (r : CaseInputRow) : Bool := sc.case r.organizationId r.caseId

def transitionRow (r : TransitionRow) : Bool := sc.case r.organizationId r.caseId

def eventRow (r : EventRow) : Bool := sc.case r.organizationId r.caseId

def outboxRow (r : OutboxRow) : Bool := sc.case r.organizationId r.caseId

def inboxRow (r : InboxRow) : Bool := sc.event r.organizationId r.eventId

def auditRow (r : AuditRow) : Bool := sc.audit r.organizationId r.id

def artifactRow (r : ArtifactRow) : Bool := sc.case r.organizationId r.caseId

def intentRow (r : IntentRow) : Bool := sc.case r.organizationId r.caseId

def processingRow (r : ProcessingRow) : Bool := sc.artifact r.organizationId r.artifactId

end Scope

namespace Db

/-- The database of a part. -/
def within (sc : Scope) (db : Db) : Db where
  organizations := db.organizations.filter sc.tenant
  assets := db.assets.filter fun a => sc.tenant a.1
  cases := db.cases.filter sc.caseRow
  caseInputs := db.caseInputs.filter sc.caseInputRow
  transitions := db.transitions.filter sc.transitionRow
  events := db.events.filter sc.eventRow
  outbox := db.outbox.filter sc.outboxRow
  inbox := db.inbox.filter sc.inboxRow
  audit := db.audit.filter sc.auditRow
  artifacts := db.artifacts.filter sc.artifactRow
  intents := db.intents.filter sc.intentRow
  processing := db.processing.filter sc.processingRow

/-- The rows that are not in the part. -/
def outside (sc : Scope) (db : Db) : Db := db.within sc.complement

/-- An identifier is in a row of the part, or in one that is not; the consumer inbox is only looked up by
organization. -/
structure Divided (sc : Scope) (out : RowId → Prop) (db : Db) : Prop where
  cases : Rows.Parted out CaseRow.ids sc.caseRow db.cases
  caseInputs : Rows.Parted out CaseInputRow.ids sc.caseInputRow db.caseInputs
  transitions : Rows.Parted out TransitionRow.ids sc.transitionRow db.transitions
  events : Rows.Parted out EventRow.ids sc.eventRow db.events
  outbox : Rows.Parted out OutboxRow.ids sc.outboxRow db.outbox
  audit : Rows.Parted out AuditRow.ids sc.auditRow db.audit
  artifacts : Rows.Parted out ArtifactRow.ids sc.artifactRow db.artifacts
  intents : Rows.Parted out IntentRow.ids sc.intentRow db.intents
  processing : Rows.Parted out ProcessingRow.ids sc.processingRow db.processing

end Db

/-! ### Writes of a part -/

section

variable (sc : Scope) (out : RowId → Prop)

/-- The row is in the part and has no identifier of another row. -/
def CaseWrite.Inside : CaseWrite → Prop
  | .insertCase r => sc.caseRow r = true ∧ ∀ k ∈ r.ids, ¬out k
  | .updateCase old _ _ _ => sc.caseRow old = true
  | .insertCaseInput r => sc.caseInputRow r = true ∧ ∀ k ∈ r.ids, ¬out k
  | .insertTransition r => sc.transitionRow r = true ∧ ∀ k ∈ r.ids, ¬out k
  | .insertEvent r => sc.eventRow r = true ∧ ∀ k ∈ r.ids, ¬out k
  | .insertOutbox r => sc.outboxRow r = true ∧ ∀ k ∈ r.ids, ¬out k
  | .insertAudit r => sc.auditRow r = true ∧ ∀ k ∈ r.ids, ¬out k

def IntentWrite.Inside : IntentWrite → Prop
  | .lockIntent _ => True
  | .insertIntent r => sc.intentRow r = true ∧ ∀ k ∈ r.ids, ¬out k
  | .completeIntent old _ => ¬out (.intent old.id)
  | .insertArtifact r => sc.artifactRow r = true ∧ ∀ k ∈ r.ids, ¬out k
  | .insertProcessing r => sc.processingRow r = true ∧ ∀ k ∈ r.ids, ¬out k
  | .spine w => w.Inside sc out

end

section

variable {sc : Scope} {out : RowId → Prop} {db : Db}

theorem filter_snoc_inside {α : Type} {inside : α → Bool} {r : α} (h : inside r = true) (rows : List α) :
    (rows ++ [r]).filter inside = rows.filter inside ++ [r] := by
  simp [h]

theorem filter_snoc_outside {α : Type} {inside : α → Bool} {r : α} (h : inside r = true) (rows : List α) :
    (rows ++ [r]).filter (fun x => !inside x) = rows.filter fun x => !inside x := by
  simp [h]

theorem caseRow_edit (sc : Scope) (old r : CaseRow) (state : CaseState) (version : Nat) (updatedAt : Instant) :
    sc.caseRow (if r = old then r.advance state version updatedAt else r) = sc.caseRow r := by
  split_ifs <;> rfl

theorem intentRow_edit (sc : Scope) (old r : IntentRow) (completedAt : Instant) :
    sc.intentRow (if r.id = old.id ∧ r.artifactId = old.artifactId ∧ r.status = .pending then
      r.complete completedAt else r) = sc.intentRow r := by
  split_ifs <;> rfl

theorem CaseWrite.apply_within {w : CaseWrite} (hw : w.Inside sc out) :
    (w.apply db).within sc = w.apply (db.within sc) := by
  cases w with
  | updateCase old state version updatedAt =>
    have hedit := Rows.filter_map_inside db.cases fun r =>
      caseRow_edit sc old r state version updatedAt
    simp only [CaseWrite.apply, Db.within, hedit]
  | insertCase r | insertCaseInput r | insertTransition r | insertEvent r | insertOutbox r | insertAudit r =>
    simp only [CaseWrite.apply, Db.within, filter_snoc_inside hw.1]

theorem CaseWrite.apply_outside {w : CaseWrite} (hw : w.Inside sc out) :
    (w.apply db).outside sc = db.outside sc := by
  cases w with
  | updateCase old state version updatedAt =>
    have hedit := Rows.filter_map_outside db.cases
      (fun r => caseRow_edit sc old r state version updatedAt) (by
        intro r _ hr
        rw [if_neg]
        rintro rfl
        rw [CaseWrite.Inside, hr] at hw
        cases hw)
    exact congrArg (fun cases => { db.outside sc with cases := cases }) hedit
  | insertCase r =>
    exact congrArg (fun rows => { db.outside sc with cases := rows }) (filter_snoc_outside hw.1 _)
  | insertCaseInput r =>
    exact congrArg (fun rows => { db.outside sc with caseInputs := rows }) (filter_snoc_outside hw.1 _)
  | insertTransition r =>
    exact congrArg (fun rows => { db.outside sc with transitions := rows }) (filter_snoc_outside hw.1 _)
  | insertEvent r =>
    exact congrArg (fun rows => { db.outside sc with events := rows }) (filter_snoc_outside hw.1 _)
  | insertOutbox r =>
    exact congrArg (fun rows => { db.outside sc with outbox := rows }) (filter_snoc_outside hw.1 _)
  | insertAudit r =>
    exact congrArg (fun rows => { db.outside sc with audit := rows }) (filter_snoc_outside hw.1 _)

theorem CaseWrite.apply_divided {w : CaseWrite} (hw : w.Inside sc out) (hdb : db.Divided sc out) :
    (w.apply db).Divided sc out := by
  cases w with
  | updateCase old state version updatedAt =>
    refine { hdb with cases := hdb.cases.map (fun r => ?_) fun r => caseRow_edit sc old r state version updatedAt }
    split_ifs <;> rfl
  | insertCase r => exact { hdb with cases := hdb.cases.snoc hw.1 hw.2 }
  | insertCaseInput r => exact { hdb with caseInputs := hdb.caseInputs.snoc hw.1 hw.2 }
  | insertTransition r => exact { hdb with transitions := hdb.transitions.snoc hw.1 hw.2 }
  | insertEvent r => exact { hdb with events := hdb.events.snoc hw.1 hw.2 }
  | insertOutbox r => exact { hdb with outbox := hdb.outbox.snoc hw.1 hw.2 }
  | insertAudit r => exact { hdb with audit := hdb.audit.snoc hw.1 hw.2 }

theorem IntentWrite.apply_within {w : IntentWrite} (hw : w.Inside sc out) :
    (w.apply db).within sc = w.apply (db.within sc) := by
  cases w with
  | lockIntent r => rfl
  | spine w => exact CaseWrite.apply_within hw
  | completeIntent old completedAt =>
    have hedit := Rows.filter_map_inside db.intents fun r => intentRow_edit sc old r completedAt
    simp only [IntentWrite.apply, Db.within, hedit]
  | insertIntent r | insertArtifact r | insertProcessing r =>
    simp only [IntentWrite.apply, Db.within, filter_snoc_inside hw.1]

theorem IntentWrite.apply_outside {w : IntentWrite} (hw : w.Inside sc out) (hdb : db.Divided sc out) :
    (w.apply db).outside sc = db.outside sc := by
  cases w with
  | lockIntent r => rfl
  | spine w => exact CaseWrite.apply_outside hw
  | completeIntent old completedAt =>
    have hedit := Rows.filter_map_outside db.intents
      (fun r => intentRow_edit sc old r completedAt) (by
        intro r hr hout
        rw [if_neg]
        rintro ⟨hid, -⟩
        have hmem : RowId.intent old.id ∈ r.ids := by simp [IntentRow.ids, hid]
        exact hw ((hdb.intents r hr _ hmem).mpr hout))
    exact congrArg (fun rows => { db.outside sc with intents := rows }) hedit
  | insertIntent r =>
    exact congrArg (fun rows => { db.outside sc with intents := rows }) (filter_snoc_outside hw.1 _)
  | insertArtifact r =>
    exact congrArg (fun rows => { db.outside sc with artifacts := rows }) (filter_snoc_outside hw.1 _)
  | insertProcessing r =>
    exact congrArg (fun rows => { db.outside sc with processing := rows }) (filter_snoc_outside hw.1 _)

theorem IntentWrite.apply_divided {w : IntentWrite} (hw : w.Inside sc out) (hdb : db.Divided sc out) :
    (w.apply db).Divided sc out := by
  cases w with
  | lockIntent r => exact hdb
  | spine w => exact CaseWrite.apply_divided hw hdb
  | completeIntent old completedAt =>
    refine { hdb with intents := hdb.intents.map (fun r => ?_) fun r => intentRow_edit sc old r completedAt }
    split_ifs <;> rfl
  | insertIntent r => exact { hdb with intents := hdb.intents.snoc hw.1 hw.2 }
  | insertArtifact r => exact { hdb with artifacts := hdb.artifacts.snoc hw.1 hw.2 }
  | insertProcessing r => exact { hdb with processing := hdb.processing.snoc hw.1 hw.2 }

end

end NetopsCopilot
