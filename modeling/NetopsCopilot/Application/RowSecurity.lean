import NetopsCopilot.Application.Tenancy
import NetopsCopilot.Core.Database

/-!
# The repositories behind row-level security

The repositories are modelled on a database without policies. The rows that a tenant transaction sees are the part of
that database that belongs to the organization (`dbOf_part`), and a session of the repositories stays within this
part: behind the policies it gives the same answers, and writes the same rows.
-/

namespace NetopsCopilot

open RowSecurity

/-- The tables as the repositories' statements name them. -/
def dbOf (tables : Tables Table.Row) : Db where
  organizations := (tables .organizations).map (·.id)
  assets := (tables .assets).map fun a => (a.organizationId, a.id)
  cases := tables .cases
  caseInputs := tables .caseInputs
  transitions := tables .caseTransitions
  events := tables .caseEvents
  outbox := tables .outboxEvents
  inbox := tables .consumerInbox
  audit := tables .auditEvents
  artifacts := tables .artifacts
  intents := tables .artifactUploadIntents
  processing := tables .artifactProcessingEvents

section

variable {organizationId : Uuid} {tables : Tables Table.Row}

theorem part_eq_filter {t : Table} {tenant : t.Row → Bool}
    (h : ∀ r, tenant r = (t.owner r == organizationId)) :
    tenantSchema.part (some organizationId) tables t = (tables t).filter tenant := by
  refine List.filter_congr fun r _ => ?_
  rw [h, beq_eq_decide]
  simp [tenantSchema, eq_comm]

/-- What the policies show of the tables is the organization's part of the database. -/
theorem dbOf_part : dbOf (tenantSchema.part (some organizationId) tables) =
    (dbOf tables).within (.ofTenant organizationId) := by
  have horganizations : (tenantSchema.part (some organizationId) tables .organizations).map (·.id) =
      ((tables .organizations).map (·.id)).filter (Scope.ofTenant organizationId).tenant := by
    rw [List.filter_map, part_eq_filter (t := .organizations) fun _ => rfl]
    rfl
  have hassets : (tenantSchema.part (some organizationId) tables .assets).map (fun a => (a.organizationId, a.id)) =
      ((tables .assets).map fun a => (a.organizationId, a.id)).filter
        fun a => (Scope.ofTenant organizationId).tenant a.1 := by
    rw [List.filter_map, part_eq_filter (t := .assets) fun _ => rfl]
    rfl
  simp only [dbOf, Db.within, horganizations, hassets, Db.mk.injEq, true_and]
  exact ⟨part_eq_filter (t := .cases) fun _ => rfl, part_eq_filter (t := .caseInputs) fun _ => rfl,
    part_eq_filter (t := .caseTransitions) fun _ => rfl, part_eq_filter (t := .caseEvents) fun _ => rfl,
    part_eq_filter (t := .outboxEvents) fun _ => rfl, part_eq_filter (t := .consumerInbox) fun _ => rfl,
    part_eq_filter (t := .auditEvents) fun _ => rfl, part_eq_filter (t := .artifacts) fun _ => rfl,
    part_eq_filter (t := .artifactUploadIntents) fun _ => rfl,
    part_eq_filter (t := .artifactProcessingEvents) fun _ => rfl⟩

end

/-- **Row-level security does not get in the way.** A session of an organization's repositories on the rows that the
policies show gives the answers that it gives on all rows, ends with the organization's part of what it leaves there,
and there every row of any other organization stays as it was. -/
theorem row_security_transparent (sha256 : PyStr → Sha256Hex) (ilike : PyStr → PyStr → Bool)
    (binds : PyStr → List PyStr) (grants : List Privilege) {organizationId : Uuid} {tables : Tables Table.Row}
    (h : (dbOf tables).Integrity) {steps : List SessionStep}
    (hfresh : ∀ step ∈ steps, step.Fresh (dbOf tables) organizationId) :
    let run := runSession sha256 ilike binds grants organizationId steps
    (run (.start (dbOf (tenantSchema.part (some organizationId) tables)))).1 = (run (.start (dbOf tables))).1 ∧
      (run (.start (dbOf (tenantSchema.part (some organizationId) tables)))).2 =
        (run (.start (dbOf tables))).2.within (.ofTenant organizationId) ∧
      (run (.start (dbOf tables))).2.committed.outside (.ofTenant organizationId) =
        (dbOf tables).outside (.ofTenant organizationId) := by
  intro run
  obtain ⟨hsame, hconfined⟩ := session_within sha256 ilike binds grants h hfresh
  have hpart : run (.start (dbOf (tenantSchema.part (some organizationId) tables))) =
      ((run (.start (dbOf tables))).1, (run (.start (dbOf tables))).2.within (.ofTenant organizationId)) := by
    rw [dbOf_part]
    exact hsame
  rw [hpart]
  exact ⟨rfl, rfl, hconfined.committed.outside⟩

/-- A case of the organization 7 and one of the organization 8. -/
def sampleTenantTables : Tables Table.Row
  | .organizations => [⟨7, py "a", py "A", 0⟩, ⟨8, py "b", py "B", 0⟩]
  | .cases => [sampleFeedCase, sampleForeignCase]
  | _ => []

theorem row_security_transparent_sample :
    let run := runSession (fun _ => zeroSha256) (fun _ _ => true) bindNames ledgerGrants 7 sampleSession
    (run (.start (dbOf (tenantSchema.part (some 7) sampleTenantTables)))).1 =
        (run (.start (dbOf sampleTenantTables))).1 ∧
      (dbOf (tenantSchema.part (some 7) sampleTenantTables)).cases = [sampleFeedCase] := by
  intro run
  have hdb : dbOf sampleTenantTables = sampleTenants [sampleForeignCase] := rfl
  have hintegrity : (dbOf sampleTenantTables).Integrity := hdb ▸ sampleTenants_integrity (by decide)
  have hid : (sampleTenants [sampleForeignCase]).Fresh 7 1000 := sampleTenants_fresh (by decide)
  have hfresh : ∀ step ∈ sampleSession, step.Fresh (dbOf sampleTenantTables) 7 := by
    rw [hdb]
    intro step hstep
    simp only [sampleSession, List.mem_cons, List.not_mem_nil, or_false] at hstep
    rcases hstep with rfl | rfl | rfl | rfl | rfl
    · exact ⟨fun _ hid => absurd hid List.not_mem_nil, fun _ => hid⟩
    · exact ⟨fun _ hid => absurd hid List.not_mem_nil, fun _ => hid⟩
    · trivial
    · exact ⟨fun _ hid => absurd hid List.not_mem_nil, fun _ => hid⟩
    · trivial
  have h := row_security_transparent (fun _ => zeroSha256) (fun _ _ => true) bindNames ledgerGrants hintegrity hfresh
  exact ⟨h.1, by decide +kernel⟩

end NetopsCopilot
