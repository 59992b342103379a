import NetopsCopilot.Api.Cases
import NetopsCopilot.Application.CaseFingerprint
import NetopsCopilot.Application.Tenancy

/-!
# The part of the database that a principal sees

A case bound to an asset outside the principal's scope is hidden, with its history, its artifacts and what is
recorded about them. The part that is left (`Scope.ofPrincipal`) is kept apart from the rest by the keys of the
tables and by what every repository call keeps: a row that refers to another one belongs to its case, and an object
key is made of the identifiers of its row (`Db.Coherent`).
-/

namespace NetopsCopilot

/-! ### Object keys -/

/-- An object key names its case. -/
theorem storageKey_inj {o c a o' c' a' : Uuid} (h : storageKey o c a = storageKey o' c' a') :
    c = c' ∧ a = a' := by
  unfold storageKey at h
  simp only [List.append_assoc] at h
  have h := List.append_cancel_left h
  obtain ⟨-, h⟩ := List.append_inj h (by rw [length_uuid, length_uuid])
  obtain ⟨hcase, h⟩ := List.append_inj (List.append_cancel_left h) (by rw [length_uuid, length_uuid])
  exact ⟨Uuid.str_inj hcase, Uuid.str_inj (List.append_cancel_left h)⟩

/-! ### The case of a row -/

/-- The organization and the case of an artifact, of which there may only be the intent. -/
def Db.artifactCase (db : Db) (artifactId : Uuid) : Option (Uuid × Uuid) :=
  ((db.artifacts.find? fun r => r.id == artifactId).map fun r => (r.organizationId, r.caseId)).or
    ((db.intents.find? fun r => r.artifactId == artifactId).map fun r => (r.organizationId, r.caseId))

/-- The organization and the case of the row with an identifier. -/
def Db.caseOf (db : Db) : RowId → Option (Uuid × Uuid)
  | .case id => (db.cases.find? fun r => r.id == id).map fun r => (r.organizationId, r.id)
  | .idempotency organizationId idempotencyKey =>
    (db.cases.find? fun r => (r.organizationId, r.idempotencyKey) == (organizationId, idempotencyKey)).map
      fun r => (r.organizationId, r.id)
  | .caseInput id => (db.caseInputs.find? fun r => r.id == id).map fun r => (r.organizationId, r.caseId)
  | .transition id => (db.transitions.find? fun r => r.id == id).map fun r => (r.organizationId, r.caseId)
  | .event id => (db.events.find? fun r => r.id == id).map fun r => (r.organizationId, r.caseId)
  | .outbox id => (db.outbox.find? fun r => r.id == id).map fun r => (r.organizationId, r.caseId)
  | .intent id => (db.intents.find? fun r => r.id == id).map fun r => (r.organizationId, r.caseId)
  | .artifact id => db.artifactCase id
  | .storage organizationId storageKey =>
    ((db.artifacts.find? fun r => r.organizationId == organizationId && r.storageKey == storageKey).map
        fun r => (r.organizationId, r.caseId)).or
      ((db.intents.find? fun r => r.organizationId == organizationId && r.storageKey == storageKey).map
        fun r => (r.organizationId, r.caseId))
  | .processing id => (db.processing.find? fun r => r.id == id).bind fun r => db.artifactCase r.artifactId
  | .audit _ => none

/-- The keys of the tables, and what the repositories keep: a row belongs to the case of the rows it refers to, and
an object key is the one of its artifact. -/
structure Db.Coherent (db : Db) : Prop extends db.Integrity where
  idempotency : (db.cases.map fun r => (r.organizationId, r.idempotencyKey)).Nodup
  eventTransitionCase : ∀ e ∈ db.events, ∀ id ∈ e.transitionId, ∃ t ∈ db.transitions,
    (t.organizationId, t.caseId) = (e.organizationId, e.caseId) ∧ t.id = id
  outboxEventCase : ∀ o ∈ db.outbox, ∃ e ∈ db.events,
    (e.organizationId, e.caseId) = (o.organizationId, o.caseId) ∧ e.id = o.caseEventId
  artifactIntentCase : ∀ a ∈ db.artifacts, ∀ i ∈ db.intents, i.artifactId = a.id → i.caseId = a.caseId
  artifactKey : ∀ a ∈ db.artifacts, a.storageKey = storageKey a.organizationId a.caseId a.id
  intentKey : ∀ i ∈ db.intents, i.storageKey = storageKey i.organizationId i.caseId i.artifactId

section

variable {db : Db}

/-- A look-up whose matches all have one value. -/
theorem find?_map_of_forall {α β : Type} {p : α → Bool} {f : α → β} {b : β} {rows : List α}
    (h : ∀ r ∈ rows, p r = true → f r = b) :
    (rows.find? p).map f = if rows.any p then some b else none := by
  cases hfind : rows.find? p with
  | none =>
    have hany : rows.any p = false := by simpa using List.find?_eq_none.mp hfind
    rw [hany]
    rfl
  | some r =>
    have hmem := List.mem_of_find?_eq_some hfind
    have hpr := List.find?_some hfind
    rw [Option.map_some, h r hmem hpr, if_pos (List.any_eq_true.mpr ⟨r, hmem, hpr⟩)]

theorem caseOf_case (h : db.Coherent) {r : CaseRow} (hr : r ∈ db.cases) :
    db.caseOf (.case r.id) = some (r.organizationId, r.id) := by
  simp only [Db.caseOf, find_label h.cases hr, Option.map_some]

theorem caseOf_transition (h : db.Coherent) {r : TransitionRow} (hr : r ∈ db.transitions) :
    db.caseOf (.transition r.id) = some (r.organizationId, r.caseId) := by
  simp only [Db.caseOf, find_label h.transitions hr, Option.map_some]

theorem caseOf_event (h : db.Coherent) {r : EventRow} (hr : r ∈ db.events) :
    db.caseOf (.event r.id) = some (r.organizationId, r.caseId) := by
  simp only [Db.caseOf, find_label h.events hr, Option.map_some]

theorem artifactCase_artifact (h : db.Coherent) {r : ArtifactRow} (hr : r ∈ db.artifacts) :
    db.artifactCase r.id = some (r.organizationId, r.caseId) := by
  simp only [Db.artifactCase, find_label h.artifacts hr, Option.map_some, Option.some_or]

theorem artifactCase_intent (h : db.Coherent) {r : IntentRow} (hr : r ∈ db.intents) :
    db.artifactCase r.artifactId = some (r.organizationId, r.caseId) := by
  have hartifact : ∀ a ∈ db.artifacts, (a.id == r.artifactId) = true →
      (a.organizationId, a.caseId) = (r.organizationId, r.caseId) := by
    intro a ha hid
    have hid : r.artifactId = a.id := (beq_iff_eq.mp hid).symm
    rw [h.artifactIntent a ha r hr hid, h.artifactIntentCase a ha r hr hid]
  rw [Db.artifactCase, find?_map_of_forall hartifact, find_label h.intentArtifacts hr]
  split_ifs <;> rfl

/-- The rows with the object key of a case belong to it. -/
theorem caseOf_storage (h : db.Coherent) {organizationId caseId artifactId : Uuid}
    (hrow : (∃ a ∈ db.artifacts, (a.organizationId, a.caseId, a.id) = (organizationId, caseId, artifactId)) ∨
      ∃ i ∈ db.intents, (i.organizationId, i.caseId, i.artifactId) = (organizationId, caseId, artifactId)) :
    db.caseOf (.storage organizationId (storageKey organizationId caseId artifactId)) =
      some (organizationId, caseId) := by
  have hartifacts : ∀ a ∈ db.artifacts, (a.organizationId == organizationId &&
      a.storageKey == storageKey organizationId caseId artifactId) = true →
      (a.organizationId, a.caseId) = (organizationId, caseId) := by
    intro a ha hkey
    simp only [Bool.and_eq_true, beq_iff_eq, h.artifactKey a ha] at hkey
    rw [hkey.1, (storageKey_inj hkey.2).1]
  have hintents : ∀ i ∈ db.intents, (i.organizationId == organizationId &&
      i.storageKey == storageKey organizationId caseId artifactId) = true →
      (i.organizationId, i.caseId) = (organizationId, caseId) := by
    intro i hi hkey
    simp only [Bool.and_eq_true, beq_iff_eq, h.intentKey i hi] at hkey
    rw [hkey.1, (storageKey_inj hkey.2).1]
  simp only [Db.caseOf, find?_map_of_forall hartifacts, find?_map_of_forall hintents]
  rcases hrow with ⟨a, ha, heq⟩ | ⟨i, hi, heq⟩
  · have hany : (db.artifacts.any fun a => a.organizationId == organizationId &&
        a.storageKey == storageKey organizationId caseId artifactId) = true := by
      simp only [Prod.mk.injEq] at heq
      refine List.any_eq_true.mpr ⟨a, ha, ?_⟩
      rw [h.artifactKey a ha, heq.1, heq.2.1, heq.2.2]
      simp
    rw [if_pos hany]
    rfl
  · have hany : (db.intents.any fun i => i.organizationId == organizationId &&
        i.storageKey == storageKey organizationId caseId artifactId) = true := by
      simp only [Prod.mk.injEq] at heq
      refine List.any_eq_true.mpr ⟨i, hi, ?_⟩
      rw [h.intentKey i hi, heq.1, heq.2.1, heq.2.2]
      simp
    rw [if_pos hany]
    split_ifs <;> rfl

end

/-! ### The part of a principal -/

section

variable (p : AuthenticatedPrincipal) (db : Db) (audits : List Uuid)

/-- The case is bound to an asset outside the principal's scope. -/
def Db.hides (caseId : Uuid) : Bool :=
  db.cases.any fun c => c.organizationId == p.organizationId && c.id == caseId &&
    c.assetId.any fun assetId => decide (assetId ∉ p.assetIds)

/-- The rows of a case. -/
def Db.caseRows (organizationId caseId : Uuid) : List CaseRow :=
  db.cases.filter fun c => c.organizationId == organizationId && c.id == caseId

/-- There is no such case, or it is bound to an asset outside the scope. -/
def Db.Denies (caseId : Uuid) : Prop :=
  db.caseRows p.organizationId caseId = [] ∨ ∃ c assetId, db.caseRows p.organizationId caseId = [c] ∧
    c.assetId = some assetId ∧ assetId ∉ p.assetIds

/-- A case of the principal's organization that is not hidden. -/
def Db.shows (q : Uuid × Uuid) : Bool := q.1 == p.organizationId && !db.hides p q.2

/-- The rows of the principal's organization without those of the hidden cases. The table of audit events names no
case: `audits` are the identifiers of the rows about hidden ones. -/
def Scope.ofPrincipal : Scope where
  tenant o := o == p.organizationId
  case o caseId := db.shows p (o, caseId)
  event o eventId := (db.caseOf (.event eventId)).elim (o == p.organizationId) (db.shows p)
  artifact o artifactId := (db.artifactCase artifactId).elim (o == p.organizationId) (db.shows p)
  audit o auditEventId := o == p.organizationId &&
    !db.audit.any fun r => r.id == auditEventId && decide (r.id ∈ audits)

/-- The identifiers of the other rows. -/
def Db.concealed (k : RowId) : Prop :=
  (∃ q ∈ db.caseOf k, db.shows p q = false) ∨
    ∃ r ∈ db.audit, k = .audit r.id ∧ (Scope.ofPrincipal p db audits).auditRow r = false

end

section

variable {p : AuthenticatedPrincipal} {db : Db} {audits : List Uuid}

theorem concealed_iff {k : RowId} {q : Uuid × Uuid} (h : db.caseOf k = some q) :
    db.concealed p audits k ↔ db.shows p q = false := by
  unfold Db.concealed
  constructor
  · rintro (⟨q', hq', hshows⟩ | ⟨r, -, rfl, -⟩)
    · rw [h] at hq'
      cases hq'
      exact hshows
    · cases h
  · exact fun hshows => Or.inl ⟨q, h, hshows⟩

/-- A table whose identifiers belong to the cases of its rows. -/
theorem parted_of_caseOf {α : Type} {ids : α → List RowId} {inside : α → Bool} {caseKey : α → Uuid × Uuid}
    {rows : List α} (h : ∀ r ∈ rows, inside r = db.shows p (caseKey r) ∧
      ∀ k ∈ ids r, db.caseOf k = some (caseKey r)) :
    Rows.Parted (db.concealed p audits) ids inside rows := by
  intro r hr k hk
  obtain ⟨hinside, hids⟩ := h r hr
  rw [concealed_iff (hids k hk), hinside]

/-- **The keys keep the part of a principal apart.** -/
theorem divided_ofPrincipal (h : db.Coherent) (p : AuthenticatedPrincipal) (audits : List Uuid) :
    db.Divided (.ofPrincipal p db audits) (db.concealed p audits) where
  cases := parted_of_caseOf fun r hr => ⟨rfl, fun k hk => by
    simp only [CaseRow.ids, List.mem_cons, List.not_mem_nil, or_false] at hk
    rcases hk with rfl | rfl
    · exact caseOf_case h hr
    · have hfind := find_label h.idempotency hr
      simp only [Db.caseOf, hfind, Option.map_some]⟩
  caseInputs := parted_of_caseOf fun r hr => ⟨rfl, fun k hk => by
    rw [CaseInputRow.ids, List.mem_singleton] at hk
    simp only [hk, Db.caseOf, find_label h.caseInputs hr, Option.map_some]⟩
  transitions := parted_of_caseOf fun r hr => ⟨rfl, fun k hk => by
    simp only [TransitionRow.ids, List.mem_cons, List.not_mem_nil, or_false] at hk
    rcases hk with rfl | rfl
    · exact caseOf_transition h hr
    · obtain ⟨c, hc, horganization, hid⟩ := h.transitionCase r hr
      rw [← hid, ← horganization]
      exact caseOf_case h hc⟩
  events := parted_of_caseOf fun r hr => ⟨rfl, fun k hk => by
    rcases List.mem_cons.mp hk with rfl | hk
    · exact caseOf_event h hr
    · obtain ⟨id, hid, rfl⟩ := Option.map_eq_some_iff.mp (Option.mem_toList.mp hk)
      obtain ⟨t, ht, hcase, rfl⟩ := h.eventTransitionCase r hr id hid
      rw [← hcase]
      exact caseOf_transition h ht⟩
  outbox := parted_of_caseOf fun r hr => ⟨rfl, fun k hk => by
    simp only [OutboxRow.ids, List.mem_cons, List.not_mem_nil, or_false] at hk
    rcases hk with rfl | rfl
    · simp only [Db.caseOf, find_label h.outbox hr, Option.map_some]
    · obtain ⟨e, he, hcase, hid⟩ := h.outboxEventCase r hr
      rw [← hid, ← hcase]
      exact caseOf_event h he⟩
  audit := by
    intro r hr k hk
    rw [AuditRow.ids, List.mem_singleton] at hk
    subst hk
    constructor
    · rintro (⟨q, hq, -⟩ | ⟨r', hr', hid, hout⟩)
      · cases hq
      · have hsame : r' = r := List.inj_on_of_nodup_map h.audit hr' hr (RowId.audit.inj hid).symm
        rw [← hsame]
        exact hout
    · exact fun hout => Or.inr ⟨r, hr, rfl, hout⟩
  artifacts := parted_of_caseOf fun r hr => ⟨rfl, fun k hk => by
    simp only [ArtifactRow.ids, List.mem_cons, List.not_mem_nil, or_false] at hk
    rcases hk with rfl | rfl
    · exact artifactCase_artifact h hr
    · rw [h.artifactKey r hr]
      exact caseOf_storage h (.inl ⟨r, hr, rfl⟩)⟩
  intents := parted_of_caseOf fun r hr => ⟨rfl, fun k hk => by
    simp only [IntentRow.ids, List.mem_cons, List.not_mem_nil, or_false] at hk
    rcases hk with rfl | rfl | rfl
    · simp only [Db.caseOf, find_label h.intents hr, Option.map_some]
    · exact artifactCase_intent h hr
    · rw [h.intentKey r hr]
      exact caseOf_storage h (.inr ⟨r, hr, rfl⟩)⟩
  processing := by
    intro r hr k hk
    obtain ⟨a, ha, horganization, hid⟩ := h.processingArtifact r hr
    have hcase : db.artifactCase r.artifactId = some (a.organizationId, a.caseId) := by
      rw [← hid]
      exact artifactCase_artifact h ha
    have hinside : (Scope.ofPrincipal p db audits).processingRow r = db.shows p (a.organizationId, a.caseId) := by
      simp only [Scope.processingRow, Scope.ofPrincipal, hcase, Option.elim_some]
    have hids : db.caseOf k = some (a.organizationId, a.caseId) := by
      simp only [ProcessingRow.ids, List.mem_cons, List.not_mem_nil, or_false] at hk
      rcases hk with rfl | rfl
      · simp only [Db.caseOf, find_label h.processing hr, Option.bind_some, hcase]
      · exact hcase
    rw [concealed_iff hids, hinside]

/-- New rows of the principal's organization are in its part. -/
theorem serves_ofPrincipal (p : AuthenticatedPrincipal) (db : Db) (audits : List Uuid) :
    (Scope.ofPrincipal p db audits).Serves (db.concealed p audits) p.organizationId := by
  refine ⟨beq_self_eq_true _, fun artifactId hout => ?_, fun auditEventId hout => ?_⟩
  · show (db.artifactCase artifactId).elim _ _ = true
    cases hcase : db.artifactCase artifactId with
    | none => exact beq_self_eq_true _
    | some q =>
      have hshows := mt (@concealed_iff p db audits (.artifact artifactId) _ hcase).mpr hout
      simpa using hshows
  · by_contra hfalse
    have hany : (db.audit.any fun r => r.id == auditEventId && decide (r.id ∈ audits)) = true := by
      simpa [Scope.ofPrincipal] using hfalse
    obtain ⟨r, hr, hid⟩ := List.any_eq_true.mp hany
    simp only [Bool.and_eq_true, beq_iff_eq, decide_eq_true_eq] at hid
    refine hout (Or.inr ⟨r, hr, by rw [hid.1], ?_⟩)
    have hrow : (db.audit.any fun x => x.id == r.id && decide (x.id ∈ audits)) = true := by
      rw [hid.1]
      exact hany
    simp only [Scope.auditRow, Scope.ofPrincipal, hrow, Bool.not_true, Bool.and_false]

/-- The cases that the principal's asset scope admits are in its part. -/
theorem shows_ofPrincipal (h : db.Coherent) (p : AuthenticatedPrincipal) (audits : List Uuid) :
    (Scope.ofPrincipal p db audits).Shows p.organizationId p.assetList db := by
  intro c hc hvisible
  simp only [CaseRow.feedVisible, Bool.and_eq_true, beq_iff_eq] at hvisible
  obtain ⟨horganization, hassets⟩ := hvisible
  have hhides : db.hides p c.id = false := by
    refine Bool.eq_false_iff.mpr fun hany => ?_
    obtain ⟨x, hx, hhidden⟩ := List.any_eq_true.mp hany
    simp only [Bool.and_eq_true, beq_iff_eq] at hhidden
    obtain ⟨⟨-, hid⟩, hasset⟩ := hhidden
    rw [List.inj_on_of_nodup_map h.cases hx hc hid] at hasset
    cases hassetId : c.assetId with
    | none => simp [hassetId] at hasset
    | some assetId =>
      rw [hassetId] at hasset hassets
      have hlist : assetId ∈ p.assetList := by simpa using hassets
      have hin : assetId ∈ p.assetIds := (Finset.mem_sort _).mp hlist
      exact absurd hin (by simpa using hasset)
  show db.shows p (c.organizationId, c.id) = true
  rw [Db.shows, horganization, hhides, beq_self_eq_true]
  rfl

/-- No other row has the object key of a new artifact. -/
theorem storage_not_concealed (h : db.Coherent) {caseId artifactId : Uuid}
    (hartifact : ¬db.concealed p audits (.artifact artifactId)) :
    ¬db.concealed p audits (.storage p.organizationId (storageKey p.organizationId caseId artifactId)) := by
  rintro (⟨q, hq, hshows⟩ | ⟨r, -, hid, -⟩)
  · have hcase : db.caseOf (.artifact artifactId) = some q := by
      rcases Option.or_eq_some_iff.mp hq with hfound | ⟨-, hfound⟩
      · obtain ⟨a, ha, rfl⟩ := Option.map_eq_some_iff.mp hfound
        have hkey := List.find?_some ha
        have hmem := List.mem_of_find?_eq_some ha
        simp only [Bool.and_eq_true, beq_iff_eq, h.artifactKey a hmem] at hkey
        rw [← (storageKey_inj hkey.2).2]
        exact artifactCase_artifact h hmem
      · obtain ⟨i, hi, rfl⟩ := Option.map_eq_some_iff.mp hfound
        have hkey := List.find?_some hi
        have hmem := List.mem_of_find?_eq_some hi
        simp only [Bool.and_eq_true, beq_iff_eq, h.intentKey i hmem] at hkey
        rw [← (storageKey_inj hkey.2).2]
        exact artifactCase_intent h hmem
    exact hartifact ((concealed_iff hcase).mpr hshows)
  · cases hid

/-- A hidden case has one row, bound to an asset outside the scope. -/
theorem denies_of_hides (h : db.Coherent) {caseId : Uuid} (hhides : db.hides p caseId = true) :
    db.Denies p caseId := by
  obtain ⟨c, hc, hhidden⟩ := List.any_eq_true.mp hhides
  simp only [Bool.and_eq_true, beq_iff_eq, Option.any_eq_true, decide_eq_true_eq] at hhidden
  obtain ⟨⟨horganization, hid⟩, assetId, hassetId, hasset⟩ := hhidden
  refine Or.inr ⟨c, assetId, ?_, hassetId, hasset⟩
  have hrows : db.caseRows p.organizationId caseId = db.cases.filter fun x => x.id == c.id := by
    refine List.filter_congr fun x hx => ?_
    by_cases hxid : x.id = c.id
    · rw [List.inj_on_of_nodup_map h.cases hx hc hxid, horganization, hid]
      simp
    · rw [hid] at hxid
      simp [hid, hxid]
  rw [hrows]
  exact Rows.filter_label h.cases hc

/-- The part has no row of a hidden case. -/
theorem denies_within {caseId : Uuid} (hhides : db.hides p caseId = true) :
    (db.within (.ofPrincipal p db audits)).Denies p caseId := by
  refine Or.inl (List.filter_eq_nil_iff.mpr fun c hc => ?_)
  have hinside := (List.mem_filter.mp hc).2
  simp only [Scope.caseRow, Scope.ofPrincipal, Db.shows, Bool.and_eq_true, beq_iff_eq] at hinside ⊢
  rintro ⟨-, rfl⟩
  rw [hhides] at hinside
  exact absurd hinside.2 (by decide)

end

end NetopsCopilot
