import NetopsCopilot.Lib.RowSecurity
import NetopsCopilot.Application.Outbox
import NetopsCopilot.Python.Codecs

/-!
# Row-level security (migrations `20260715_01` to `20260716_05`)

The tables whose rows belong to organizations, with what the migrations give the role `netops_app` on them: the
privileges, the policy `organization_id = netops_current_organization_id()` (`id` for `organizations`) for rows that
are read and rows that are written, the triggers on a row that is updated or deleted, and what the foreign keys do
when an organization or an asset is deleted. Of `users` the role has no privilege. CHECK and UNIQUE constraints, the
deferred trigger of `cases` and the trigger of the processing ledger are reasons for which a statement or a commit
may fail.
-/

namespace NetopsCopilot

/-! ### Migration 01: identity -/

/-- `organizations`. -/
structure OrganizationRow where
  id : Uuid
  slug : PyStr
  displayName : PyStr
  createdAt : Instant
deriving DecidableEq

/-- `memberships`. -/
structure MembershipRow where
  organizationId : Uuid
  userId : Uuid
  role : PyStr
  createdAt : Instant
deriving DecidableEq

/-- `assets`. -/
structure AssetRow where
  id : Uuid
  organizationId : Uuid
  name : PyStr
  environment : Option PyStr
  createdAt : Instant
deriving DecidableEq

/-- `organization_settings`. -/
structure SettingsRow where
  organizationId : Uuid
  retentionDays : Int
  updatedAt : Instant
deriving DecidableEq

/-! ### The tables -/

/-- The tables with a policy. -/
inductive Table where
  | organizations | memberships | assets | organizationSettings | auditEvents
  | cases | caseInputs | caseTransitions | caseEvents | outboxEvents | consumerInbox
  | artifacts | artifactUploadIntents | artifactProcessingEvents
deriving DecidableEq

namespace Table

abbrev Row : Table → Type
  | organizations => OrganizationRow
  | memberships => MembershipRow
  | assets => AssetRow
  | organizationSettings => SettingsRow
  | auditEvents => AuditRow
  | cases => CaseRow
  | caseInputs => CaseInputRow
  | caseTransitions => TransitionRow
  | caseEvents => EventRow
  | outboxEvents => OutboxRow
  | consumerInbox => InboxRow
  | artifacts => ArtifactRow
  | artifactUploadIntents => IntentRow
  | artifactProcessingEvents => ProcessingRow

/-- The tenant column of the policy. -/
def owner : (t : Table) → t.Row → Uuid
  | organizations, r => r.id
  | memberships, r => r.organizationId
  | assets, r => r.organizationId
  | organizationSettings, r => r.organizationId
  | auditEvents, r => r.organizationId
  | cases, r => r.organizationId
  | caseInputs, r => r.organizationId
  | caseTransitions, r => r.organizationId
  | caseEvents, r => r.organizationId
  | outboxEvents, r => r.organizationId
  | consumerInbox, r => r.organizationId
  | artifacts, r => r.organizationId
  | artifactUploadIntents, r => r.organizationId
  | artifactProcessingEvents, r => r.organizationId

/-- The primary key. -/
def key : (t : Table) → t.Row → List Uuid
  | organizations, r => [r.id]
  | memberships, r => [r.organizationId, r.userId]
  | assets, r => [r.id]
  | organizationSettings, r => [r.organizationId]
  | auditEvents, r => [r.id]
  | cases, r => [r.id]
  | caseInputs, r => [r.id]
  | caseTransitions, r => [r.id]
  | caseEvents, r => [r.id]
  | outboxEvents, r => [r.id]
  | consumerInbox, r => [r.id]
  | artifacts, r => [r.id]
  | artifactUploadIntents, r => [r.id]
  | artifactProcessingEvents, r => [r.id]

/-- The commands that are granted to `netops_app`, beside `SELECT`. -/
def granted : Table → List RowSecurity.Command
  | organizations | memberships | assets | organizationSettings => [.insert, .update, .delete]
  | cases | outboxEvents | artifactUploadIntents => [.insert, .update]
  | auditEvents | caseInputs | caseTransitions | caseEvents | consumerInbox | artifacts
  | artifactProcessingEvents => [.insert]

/-- The tables with the trigger `netops_reject_immutable_history_mutation`. -/
def immutable : Table → Bool
  | auditEvents | caseInputs | caseTransitions | caseEvents | consumerInbox | artifacts
  | artifactProcessingEvents => true
  | _ => false

/-- The triggers before an update of a row. -/
def updatable : (t : Table) → t.Row → t.Row → Bool
  | outboxEvents, old, new => (guardOutboxEventMutation old new).isOk
  | t, _, _ => !t.immutable

/-- The tables whose rows go with the row of an organization, and those whose rows keep it. -/
def cascading : List Table := [memberships, assets, organizationSettings]

def restricting : List Table :=
  [auditEvents, cases, artifacts, artifactUploadIntents, artifactProcessingEvents, consumerInbox]

end Table

/-- The rows of an organization. -/
def rowsOf (organizationId : Uuid) (db : RowSecurity.Tables Table.Row) (t : Table) : List t.Row :=
  (db t).filter fun r => decide (t.owner r = organizationId)

/-- What else is deleted with a row. The inbox rows of an organization would go with it, but may not be deleted. A
case or an outbox row is never deleted by the role. -/
def deletedWith (db : RowSecurity.Tables Table.Row) : (t : Table) → t.Row → Option (List ((t : Table) × t.Row))
  | .organizations, r =>
    if Table.restricting.all fun t => (rowsOf r.id db t).isEmpty then
      some (Table.cascading.flatMap fun t => (rowsOf r.id db t).map fun x => ⟨t, x⟩)
    else none
  | .assets, r =>
    if (rowsOf r.organizationId db .cases).any fun c => c.assetId == some r.id then none else some []
  | .memberships, _ | .organizationSettings, _ => some []
  | _, _ => none

/-- The tables as `netops_app` finds them. -/
def tenantSchema : RowSecurity.Schema Table.Row Uuid (List Uuid) where
  owner := Table.owner
  key := Table.key
  grants t command := decide (command ∈ t.granted)
  updatable := Table.updatable
  cascade := deletedWith

theorem rowsOf_part (organizationId : Uuid) (db : RowSecurity.Tables Table.Row) (t : Table) :
    rowsOf organizationId (tenantSchema.part (some organizationId) db) t = rowsOf organizationId db t := by
  unfold rowsOf RowSecurity.Schema.part
  rw [List.filter_filter]
  refine List.filter_congr fun r _ => ?_
  by_cases hr : t.owner r = organizationId
  · simp [hr, tenantSchema]
  · simp [hr]

/-- Deletions stay within the organization, and within the tables whose rows the role may delete. -/
theorem tenantSchema_lawful : tenantSchema.Lawful := by
  constructor
  · intro db t r rows hrows x hx
    cases t <;> simp only [tenantSchema, deletedWith] at hrows
    case organizations =>
      split_ifs at hrows
      cases hrows
      obtain ⟨t, -, hx⟩ := List.mem_flatMap.mp hx
      obtain ⟨r', hr', rfl⟩ := List.mem_map.mp hx
      exact of_decide_eq_true (List.mem_filter.mp hr').2
    case assets =>
      split_ifs at hrows
      cases hrows
      cases hx
    case memberships | organizationSettings =>
      cases hrows
      cases hx
    all_goals cases hrows
  · intro db t r rows hrows x hx
    cases t <;> simp only [tenantSchema, deletedWith] at hrows
    case organizations =>
      split_ifs at hrows
      cases hrows
      obtain ⟨t, ht, hx⟩ := List.mem_flatMap.mp hx
      obtain ⟨r', hr', rfl⟩ := List.mem_map.mp hx
      have hall : Table.cascading.all fun t => decide (RowSecurity.Command.delete ∈ t.granted) := by decide
      exact List.all_eq_true.mp hall t ht
    case assets =>
      split_ifs at hrows
      cases hrows
      cases hx
    case memberships | organizationSettings =>
      cases hrows
      cases hx
    all_goals cases hrows
  · intro db t r
    have hpart : rowsOf (t.owner r) (tenantSchema.part (some (t.owner r)) db) = rowsOf (t.owner r) db := by
      funext u
      exact rowsOf_part _ db u
    cases t <;> simp only [tenantSchema, deletedWith]
    case organizations =>
      have hpart' : rowsOf r.id (tenantSchema.part (some r.id) db) = rowsOf r.id db := hpart
      simp only [tenantSchema] at hpart'
      simp only [Table.owner, hpart']
    case assets =>
      have hpart' : rowsOf r.organizationId (tenantSchema.part (some r.organizationId) db) =
          rowsOf r.organizationId db := hpart
      simp only [tenantSchema] at hpart'
      simp only [Table.owner, hpart']

end NetopsCopilot
