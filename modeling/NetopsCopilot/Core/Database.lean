import NetopsCopilot.Postgres.RowSecurity

/-!
# Tenant connections (`core/database.py`, `core/tenant_context.py`)

The application has one pool of connections. `tenant_connection` takes one, opens a transaction and sets
`app.organization_id` for it with `SET LOCAL`; other code may open a transaction without it (`check_readiness`).
When a transaction that has set it ends, the setting of the connection is the empty text, and no longer unset.
The statements inside a transaction are arbitrary queries, inserts, updates and deletions, but none of them sets
`app.organization_id`. Which of them CHECK constraints and unique keys refuse is part of a run: a key without the
organization (an `id`, `organizations.slug`, `artifact_upload_intents.artifact_id`) may be taken by a row that the
statement does not see. No insert has an `ON CONFLICT` for such a key.
-/

namespace NetopsCopilot

open RowSecurity

/-! ### `netops_current_organization_id` -/

/-- `current_setting('app.organization_id', true)`. -/
abbrev OrganizationSetting := Option PyStr

/-- A hexadecimal digit, in upper or lower case. -/
def sqlHexValue (c : PyChar) : Option Nat :=
  if 48 ≤ c.val ∧ c.val ≤ 57 then some (c.val - 48)
  else if 65 ≤ c.val ∧ c.val ≤ 70 then some (c.val - 55)
  else if 97 ≤ c.val ∧ c.val ≤ 102 then some (c.val - 87)
  else none

/-- `^[0-9a-f]{8}-[0-9a-f]{4}-[0-9a-f]{4}-[0-9a-f]{4}-[0-9a-f]{12}$`, which is matched without regard to case. -/
def organizationIdPattern : List (PyChar → Bool) :=
  let digits n := List.replicate n fun c => (sqlHexValue c).isSome
  let dash := [(· == 45)]
  digits 8 ++ dash ++ digits 4 ++ dash ++ digits 4 ++ dash ++ digits 4 ++ dash ++ digits 12

def matchesPattern : List (PyChar → Bool) → PyStr → Bool
  | [], text => text.isEmpty
  | p :: pattern, c :: text => p c && matchesPattern pattern text
  | _ :: _, [] => false

/-- `raw::uuid`, of a text that matches the pattern. -/
def castUuid (raw : PyStr) : Uuid :=
  Fin.ofNat _ ((raw.filterMap sqlHexValue).foldl (fun n d => 16 * n + d) 0)

/-- `netops_current_organization_id`. -/
def netopsCurrentOrganizationId : OrganizationSetting → Option Uuid
  | none => none
  | some raw => if matchesPattern organizationIdPattern raw then some (castUuid raw) else none

theorem sqlHexValue_digitChar {d : Nat} (hd : d < 16) : sqlHexValue (digitChar d) = some d := by
  interval_cases d <;> rfl

theorem sqlHexValue_of_hex {c : PyChar} (hc : c ∈ py "0123456789abcdef") : (sqlHexValue c).isSome = true := by
  have hall : (py "0123456789abcdef").all fun c => (sqlHexValue c).isSome := by decide
  exact List.all_eq_true.mp hall c hc

theorem foldl_sqlHexValue (len n : Nat) :
    ((hexFixed len n).filterMap sqlHexValue).foldl (fun n d => 16 * n + d) 0 = n % 16 ^ len := by
  induction len generalizing n with
  | zero => simp [hexFixed, Nat.mod_one]
  | succ len ih =>
    have hlast : List.filterMap sqlHexValue [digitChar (n % 16)] = [n % 16] := by
      rw [List.filterMap_cons, sqlHexValue_digitChar (Nat.mod_lt n (by decide : 0 < 16)), List.filterMap_nil]
    rw [hexFixed, List.filterMap_append, List.foldl_append, ih, hlast, List.foldl_cons, List.foldl_nil, pow_succ,
      mul_comm (16 ^ len) 16, Nat.mod_mul]
    omega

theorem matchesPattern_append {p q : List (PyChar → Bool)} {s t : PyStr} (hs : matchesPattern p s = true) :
    matchesPattern (p ++ q) (s ++ t) = matchesPattern q t := by
  induction p generalizing s with
  | nil => rw [List.isEmpty_iff.mp hs, List.nil_append, List.nil_append]
  | cons p ps ih =>
    cases s with
    | nil => cases hs
    | cons c s =>
      rw [matchesPattern, Bool.and_eq_true] at hs
      rw [List.cons_append, List.cons_append, matchesPattern, hs.1, Bool.true_and, ih hs.2]

theorem matchesPattern_digits {n : Nat} {s : PyStr} (hlength : s.length = n)
    (hs : ∀ c ∈ s, c ∈ py "0123456789abcdef") :
    matchesPattern (List.replicate n fun c => (sqlHexValue c).isSome) s = true := by
  induction s generalizing n with
  | nil =>
    subst hlength
    rfl
  | cons c s ih =>
    subst hlength
    rw [List.length_cons, List.replicate_succ, matchesPattern, sqlHexValue_of_hex (hs c List.mem_cons_self),
      Bool.true_and]
    exact ih rfl fun d hd => hs d (List.mem_cons_of_mem _ hd)

/-- **The setting of a tenant transaction names its organization.** -/
theorem netopsCurrentOrganizationId_str (u : Uuid) : netopsCurrentOrganizationId (some (Uuid.str u)) = some u := by
  have hhex : ∀ c ∈ hexFixed 32 u.val, c ∈ py "0123456789abcdef" := fun c hc =>
    of_decide_eq_true (List.all_eq_true.mp (hexFixed_hex 32 u.val) c hc)
  have hlength : (hexFixed 32 u.val).length = 32 := hexFixed_length 32 u.val
  have hdash : matchesPattern [(· == 45)] (py "-") = true := by decide
  have hpart : ∀ i j, i + j ≤ 32 → matchesPattern (List.replicate j fun c => (sqlHexValue c).isSome)
      (((hexFixed 32 u.val).drop i).take j) = true := fun i j hij =>
    matchesPattern_digits (by simp [hlength]; omega) fun c hc => hhex c (List.mem_of_mem_drop (List.mem_of_mem_take hc))
  have hhead := hpart 0 8 (by decide)
  have hend : matchesPattern (List.replicate 12 fun c => (sqlHexValue c).isSome) ((hexFixed 32 u.val).drop 20) = true :=
    matchesPattern_digits (by simp [hlength]) fun c hc => hhex c (List.mem_of_mem_drop hc)
  have hmatch : matchesPattern organizationIdPattern (Uuid.str u) = true := by
    rw [List.drop_zero] at hhead
    simp only [organizationIdPattern, Uuid.str, List.append_assoc]
    rw [matchesPattern_append hhead, matchesPattern_append hdash,
      matchesPattern_append (hpart 8 4 (by decide)), matchesPattern_append hdash,
      matchesPattern_append (hpart 12 4 (by decide)), matchesPattern_append hdash,
      matchesPattern_append (hpart 16 4 (by decide)), matchesPattern_append hdash, hend]
  have hskip : (py "-").filterMap sqlHexValue = [] := by decide
  have hjoin : ∀ i j, (((hexFixed 32 u.val).drop i).take j).filterMap sqlHexValue ++
      ((hexFixed 32 u.val).drop (i + j)).filterMap sqlHexValue = ((hexFixed 32 u.val).drop i).filterMap sqlHexValue :=
    fun i j => by rw [← List.filterMap_append, ← List.drop_drop, List.take_append_drop]
  have hdigits : (Uuid.str u).filterMap sqlHexValue = (hexFixed 32 u.val).filterMap sqlHexValue := by
    unfold Uuid.str
    simp only [List.filterMap_append, hskip, List.nil_append, List.append_assoc]
    rw [hjoin 16 4, hjoin 12 4, hjoin 8 4, ← List.filterMap_append, List.take_append_drop]
  have hvalue : u.val % 16 ^ 32 = u.val := Nat.mod_eq_of_lt u.isLt
  simp only [netopsCurrentOrganizationId, castUuid, hmatch, if_true, hdigits, foldl_sqlHexValue, hvalue]
  exact congrArg some (Fin.ext (Nat.mod_eq_of_lt u.isLt))

/-! ### `tenant_connection` -/

/-- `set_config('app.organization_id', value, true)`: what the setting is until the transaction ends. -/
def setConfigLocal (value : PyStr) (_ : OrganizationSetting) : OrganizationSetting := some value

/-- The setting in `tenant_transaction`. -/
def tenantTransaction (organizationId : Uuid) (setting : OrganizationSetting) : OrganizationSetting :=
  setConfigLocal (Uuid.str organizationId) setting

/-- The setting that `tenant_connection` yields with, where `none` is a `TenantContextError`. -/
def tenantConnection (organizationId : Uuid) (setting : OrganizationSetting) : Option OrganizationSetting :=
  let configured := tenantTransaction organizationId setting
  if configured ≠ some (Uuid.str organizationId) then none else some configured

/-- The setting of a pooled connection. -/
def tenantBinding : Binding OrganizationSetting Uuid where
  unset := none
  ended := some []
  enter := tenantConnection
  current := netopsCurrentOrganizationId
  current_unset := rfl
  current_ended := by decide
  current_enter {o v v'} h := by
    simp only [tenantConnection, tenantTransaction, setConfigLocal, ne_eq, not_true_eq_false, if_false,
      Option.some.injEq] at h
    rw [← h]
    exact netopsCurrentOrganizationId_str o
  enter_const _ _ _ := rfl

/-! ### Main results -/

/-- The server of the application, with a pool of connections that have not been used. -/
def pool (db : Tables Table.Row) : Server Table.Row Uuid (List Uuid) OrganizationSetting Nat :=
  .start tenantBinding db

/-- A run of `netops_app`: any statements, at any connections, in any order. -/
def poolRun {A : Type} (db : Tables Table.Row) (events : List (Nat × Event Table.Row Uuid A)) :
    Option (List (Observation Table.Row Uuid A Nat) × Server Table.Row Uuid (List Uuid) OrganizationSetting Nat) :=
  (pool db).run tenantBinding tenantSchema events

section

variable {A : Type} {db : Tables Table.Row} {events : List (Nat × Event Table.Row Uuid A)}
  {all : List (Observation Table.Row Uuid A Nat)}
  {s : Server Table.Row Uuid (List Uuid) OrganizationSetting Nat}

theorem poolRun_sound (h : poolRun db events = some (all, s)) : s.Sound tenantSchema tenantBinding :=
  run_sound tenantSchema_lawful (start_sound db) h

/-- **Each organization has a database of its own, but for the refusals of constraints.** Whatever the connections of
the pool run, and however the transactions overlap, the tenant transactions of an organization get the answers that
they get on a database with the rows of this organization only and without the other connections, where constraints
refuse the same statements and commits, and leave the same rows of it. -/
theorem tenant_transactions_private (organizationId : Uuid) (h : poolRun db events = some (all, s)) :
    ∃ own, poolRun (tenantSchema.part (some organizationId) db)
        ((seenBy (some organizationId) all).map Observation.at) = some (seenBy (some organizationId) all, own) ∧
      own.tables = tenantSchema.part (some organizationId) s.tables := by
  obtain ⟨own, hrun, hprivate⟩ := run_private tenantSchema_lawful (start_sound db) (start_sound _)
    (start_private (some organizationId) db) h
  exact ⟨own, hrun, hprivate.tables⟩

/-- The organizations 7 and 8 with one asset each. -/
def samplePool : Tables Table.Row
  | .organizations => [⟨7, py "a", py "A", 0⟩, ⟨8, py "b", py "B", 0⟩]
  | .assets => [⟨70, 7, py "edge-a", none, 0⟩, ⟨80, 8, py "edge-b", none, 0⟩]
  | _ => []

/-- A statement that counts the assets. -/
def countAssets : Action Table.Row Nat := .execute (.select fun db => (db .assets).length) false

/-- Two tenants whose transactions overlap; the second one writes to every asset, and in the name of the first. The
first connection goes on without a tenant. -/
def sampleStatements : List (Nat × Event Table.Row Uuid Nat) :=
  [(0, .enter (some 7)), (1, .enter (some 8)),
    (0, .act (.execute (.insert .assets fun _ => [⟨71, 7, py "edge-c", none, 1⟩]) false)), (0, .act (.commit false)),
    (1, .act (.execute (.update .assets fun _ r => some { r with name := py "forged" }) false)), (1, .act .savepoint),
    (1, .act (.execute (.insert .assets fun _ => [⟨72, 7, py "forged", none, 1⟩]) false)), (1, .act .rollbackTo),
    (1, .act countAssets), (1, .act (.commit false)), (0, .enter none), (0, .act countAssets),
    (0, .act (.execute (.delete .assets fun _ _ => true) false)), (0, .act (.commit false))]

theorem samplePool_runs : ∃ all s, poolRun samplePool sampleStatements = some (all, s) ∧
    (s.tables .assets).map (·.name) = [py "edge-a", py "forged", py "edge-c"] := by
  have h : (poolRun samplePool sampleStatements).any (fun p =>
      decide ((p.2.tables .assets).map (·.name) = [py "edge-a", py "forged", py "edge-c"])) = true := by
    decide +kernel
  cases hrun : poolRun samplePool sampleStatements with
  | none =>
    rw [hrun] at h
    cases h
  | some p =>
    rw [hrun] at h
    exact ⟨p.1, p.2, rfl, of_decide_eq_true h⟩

/-- The second tenant has forged its own asset only. -/
theorem tenant_transactions_private_sample : ∃ all s own, poolRun samplePool sampleStatements = some (all, s) ∧
    poolRun (tenantSchema.part (some 8) samplePool) ((seenBy (some 8) all).map Observation.at) =
      some (seenBy (some 8) all, own) ∧
    own.tables = tenantSchema.part (some 8) s.tables ∧
    (s.tables .assets).map (·.name) = [py "edge-a", py "forged", py "edge-c"] := by
  obtain ⟨all, s, hrun, hnames⟩ := samplePool_runs
  obtain ⟨own, hown, htables⟩ := tenant_transactions_private 8 hrun
  exact ⟨all, s, own, hrun, hown, htables, hnames⟩

/-- **Without a tenant connection there is nothing.** A transaction that is not opened by `tenant_connection` gets the
answers of an empty database, at a connection that has served organizations as at a new one, and changes no row.
`tenant_connection` never finds the setting of another organization. -/
theorem unbound_transactions_empty (h : poolRun db events = some (all, s)) :
    (∃ own, poolRun (fun _ => []) ((seenBy none all).map Observation.at) = some (seenBy none all, own)) ∧
      (∀ (c : Nat) (event : Event Table.Row Uuid A) seen s', s.step tenantBinding c tenantSchema event = some (seen, s') →
        seen.opened = none → s'.tables = s.tables) ∧
      (∀ c, (s.sessions c).transaction = none → netopsCurrentOrganizationId (s.sessions c).setting = none) ∧
      ∀ x ∈ all, x.answer ≠ .mismatch := by
  obtain ⟨own, hrun, -⟩ := run_private tenantSchema_lawful (start_sound db) (start_sound _)
    (start_private none db) h
  rw [part_none] at hrun
  have hsound := poolRun_sound h
  refine ⟨⟨own, hrun⟩, ?_, fun c _ => hsound.idle c, ?_⟩
  · exact fun c event seen s' hstep hnobody => step_nobody hsound hstep hnobody
  · exact run_ne_mismatch (fun o v => by simp [tenantBinding, tenantConnection, tenantTransaction, setConfigLocal]) h

/-- The connection of the first tenant is used without one. -/
theorem unbound_transactions_empty_sample : ∃ all s own, poolRun samplePool sampleStatements = some (all, s) ∧
    poolRun (fun _ => []) ((seenBy none all).map Observation.at) = some (seenBy none all, own) ∧
    ∀ x ∈ all, x.answer ≠ .mismatch := by
  obtain ⟨all, s, hrun, -⟩ := samplePool_runs
  obtain ⟨⟨own, hown⟩, -, -, hmismatch⟩ := unbound_transactions_empty hrun
  exact ⟨all, s, own, hrun, hown, hmismatch⟩

/-- **History is append-only.** No statement of the role changes or removes a row of the history tables, or removes
one of `cases`, `outbox_events` or `artifact_upload_intents`, or, while none sets `app.organization_id`, gives it to
another organization. -/
theorem history_append_only (h : poolRun db events = some (all, s)) :
    (∀ t : Table, t.immutable = true → db t <+: s.tables t) ∧
      ∀ t ∈ [Table.cases, .outboxEvents, .artifactUploadIntents], ∀ (i : Nat) (r : t.Row), (db t)[i]? = some r →
        ∃ r', (s.tables t)[i]? = some r' ∧ t.owner r' = t.owner r := by
  have hkept : tenantSchema.Kept db s.tables := run_kept tenantSchema_lawful (start_sound db) h
  have hgrants : ∀ t : Table, t.immutable = true →
      tenantSchema.grants t .delete = false ∧ tenantSchema.grants t .update = false := by
    intro t ht
    cases t <;> first | exact ⟨rfl, rfl⟩ | cases ht
  have hdelete : ∀ t ∈ [Table.cases, .outboxEvents, .artifactUploadIntents], tenantSchema.grants t .delete = false := by
    decide
  constructor
  · exact fun t ht => hkept.prefix (hgrants t ht).1 (hgrants t ht).2
  · intro t ht i r hr
    obtain ⟨r', hr', howner, -⟩ := hkept t (hdelete t ht) i r hr
    exact ⟨r', hr', howner⟩

/-- An audit event that a transaction tries to change and to delete. -/
def sampleAudit : AuditRow := ⟨90, 7, py "operator", py "case.created", none, .obj [], 0⟩

def sampleAuditStatements : List (Nat × Event Table.Row Uuid Nat) :=
  [(0, .enter (some 7)), (0, .act .savepoint),
    (0, .act (.execute (.update .auditEvents fun _ r => some { r with action := py "forged" }) false)),
    (0, .act .rollbackTo), (0, .act (.execute (.delete .auditEvents fun _ _ => true) false)), (0, .act .rollbackTo),
    (0, .act (.execute (.insert .auditEvents fun _ => [{ sampleAudit with id := 91 }]) false)), (0, .act (.commit false))]

theorem history_append_only_sample : ∃ s : Server Table.Row Uuid (List Uuid) OrganizationSetting Nat,
    [sampleAudit] <+: s.tables .auditEvents ∧ (s.tables .auditEvents).map (·.id) = [90, 91] := by
  let db : Tables Table.Row := fun | .auditEvents => [sampleAudit] | _ => []
  have h : (poolRun db sampleAuditStatements).any (fun p =>
      decide ((p.2.tables .auditEvents).map (·.id) = [90, 91])) = true := by
    decide +kernel
  cases hrun : poolRun db sampleAuditStatements with
  | none =>
    rw [hrun] at h
    cases h
  | some p =>
    obtain ⟨all, s⟩ := p
    rw [hrun] at h
    obtain ⟨hkept, -⟩ := history_append_only hrun
    exact ⟨s, hkept .auditEvents rfl, of_decide_eq_true h⟩

end

end NetopsCopilot
