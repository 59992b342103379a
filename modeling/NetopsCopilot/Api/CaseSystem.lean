import NetopsCopilot.Lib.Except
import NetopsCopilot.Api.Cases
import NetopsCopilot.Application.CaseSystem
import NetopsCopilot.Domain.CaseHistory

/-!
# Requests and the approval path

The clients of the HTTP API as a system of the case spine (`httpSystem`): every request is a program over
the same store, and every command it builds has a human actor. The history of a case is `Lawful`
(`Spine.lawful`), so what `Domain/CaseHistory` says of histories holds of every stored case
(`reachable_approved`), and requests alone never lead to `learned`.
-/

namespace NetopsCopilot

open Txn

/-! ### The system of requests -/

/-- A request of a verified principal. -/
structure CaseCall where
  principal : AuthenticatedPrincipal
  context : RequestContext
  request : (PyStr × CreateCaseRequest) ⊕ TransitionRequest

/-- The route a request goes to. -/
def CaseCall.program (sha256 : PyStr → Sha256Hex) (uuid5 : PyStr → Uuid) (c : CaseCall) :
    CaseProg CaseReply :=
  match c.request with
  | .inl (idempotencyKey, body) => do
    let p ← createCaseRequest sha256 uuid5 c.principal c.context idempotencyKey body
    return .created c.principal.organizationId p.1 p.2
  | .inr request => do
    let p ← applyTransitionRequest uuid5 c.principal c.context request.parameters
    return .moved c.principal.organizationId p.1 p.2

/-- The clients of the HTTP API. -/
def httpSystem (sha256 : PyStr → Sha256Hex) (uuid5 : PyStr → Uuid) :
    System CaseStmt CaseStmt.Reply DbError Uuid CaseError CaseReply SpineWrite Key World CaseCall :=
  caseSystem (CaseCall.program sha256 uuid5)

section

variable {sha256 : PyStr → Sha256Hex} {ok : HistoryEntry → Prop} {uuid5 : PyStr → Uuid}
  {x : Local SpineWrite World}

theorem wp_requestInput {x' : Local SpineWrite World} (h : (spineDiscipline sha256 ok).Later x x')
    (input : Option CaseInputRequest) :
    (spineDiscipline sha256 ok).wp (requestInput sha256 input)
      ((spineDiscipline sha256 ok).Quietly x fun caseInput =>
        ∀ i ∈ caseInput, i.contentSha256 = sha256 (Json.obj i.content).dumps) x' := by
  cases input with
  | none => exact Discipline.wp_ret _ fun y hy => ⟨h.trans hy, by simp⟩
  | some input =>
    simp only [requestInput, Prog.bind_eq, Prog.pure_eq]
    intro inputId
    simp only [Prog.elim]
    refine Discipline.wp_bind_quietly _ (Q := fun i => i.contentSha256 = sha256 (Json.obj i.content).dumps)
      (Discipline.wp_lift_quietly _ h fun i hi => ?_) fun i y hy hdigest => ?_
    · obtain ⟨hdigest, hcontent⟩ := CaseInputCommand.make_ok (Raising.mapError_ok hi)
      rw [hdigest, hcontent]
    · refine Discipline.wp_ret _ fun z hz => ⟨hy.trans hz, ?_⟩
      rintro i ⟨⟩
      exact hdigest

/-- The command of `create_case` is built without a write. -/
theorem wp_createCaseCommand (p : AuthenticatedPrincipal) (context : RequestContext)
    (idempotencyKey : PyStr) (body : CreateCaseRequest) :
    (spineDiscipline sha256 ok).wp (createCaseCommand sha256 uuid5 p context idempotencyKey body)
      ((spineDiscipline sha256 ok).Quietly x (Routed sha256)) x := by
  have hx := Discipline.Later.refl (δ := spineDiscipline sha256 ok) x
  unfold createCaseCommand
  split_ifs
  · exact Discipline.wp_raise _ fun y hy => hy
  simp only [Prog.bind_eq]
  -- whatever the gates answer
  generalize requireCaseCreateAccess p = access
  generalize requireCreateAssetScope p body.assetId = scope
  generalize actorFromPrincipal uuid5 p = actor?
  refine Discipline.wp_bind_quietly _ (Q := fun _ => True)
    (Discipline.wp_lift_quietly _ hx fun _ _ => trivial) fun _ y hy _ => ?_
  refine Discipline.wp_bind_quietly _ (Q := fun _ => True)
    (Discipline.wp_lift_quietly _ hy fun _ _ => trivial) fun _ y hy _ => ?_
  refine Discipline.wp_bind_quietly _ (Q := fun _ => True)
    (Discipline.wp_lift_quietly _ hy fun _ _ => trivial) fun actor y hy _ => ?_
  refine Discipline.wp_bind_quietly _ (wp_requestInput hy body.input) fun caseInput y hy hinput => ?_
  intro caseId eventId
  refine Discipline.wp_lift_quietly _ hy fun c hc => ?_
  rw [Routed, (CreateCaseCommand.make_ok (Raising.mapError_ok hc)).1]
  exact hinput

/-- The command of `_apply_transition` is built without a write, and its actor is human. -/
theorem wp_transitionCommand (p : AuthenticatedPrincipal) (context : RequestContext)
    (t : TransitionParameters) :
    (spineDiscipline sha256 ok).wp (transitionCommand uuid5 p context t)
      ((spineDiscipline sha256 ok).Quietly x fun c => c.actor.kind = .human) x := by
  unfold transitionCommand
  simp only [Prog.bind_eq]
  refine Discipline.wp_bind_quietly _ (Q := fun _ => True) (Discipline.wp_mono _ wp_getDetail ?_)
    fun detail y hy _ => ?_
  · rintro (e | detail) y hy
    · exact hy
    · exact ⟨hy, trivial⟩
  generalize visibleCaseOrNotFound detail.case p = visible
  refine Discipline.wp_bind_quietly _ (Q := fun _ => True)
    (Discipline.wp_lift_quietly _ hy fun _ _ => trivial) fun _ y hy _ => ?_
  have hhuman := fun actor (h : actorFromPrincipal uuid5 p = .ok actor) => actorFromPrincipal_ok h
  generalize actorFromPrincipal uuid5 p = actor? at hhuman ⊢
  refine Discipline.wp_bind_quietly _ (Q := fun actor => actor.kind = .human)
    (Discipline.wp_lift_quietly _ hy fun actor hactor => (hhuman actor hactor).1)
    fun actor y hy hkind => ?_
  intro transitionId eventId
  refine Discipline.wp_lift_quietly _ hy fun c hc => ?_
  rw [(TransitionCommand.make_ok (Raising.mapError_ok hc)).2.2]
  exact hkind

/-- A raise after reads leaves everything as it was. -/
theorem concludes_later {y : Local SpineWrite World} (hc : (spineDiscipline sha256 ok).Coherent x.db)
    (hr : (spineDiscipline sha256 ok).Ready x.db x.pending) (hsaves : x.saves = [])
    (h : (spineDiscipline sha256 ok).Later x y) (e : CaseError) :
    Concludes sha256 ok (.error e) y :=
  ⟨h.saves.trans hsaves, by simpa using h.ready hc hr⟩

theorem wp_createCaseRequest (hc : (spineDiscipline sha256 ok).Coherent x.db)
    (hr : (spineDiscipline sha256 ok).Ready x.db x.pending) (hsaves : x.saves = [])
    (hok : ∀ organizationId c, Routed sha256 c → ok (.created organizationId c))
    (p : AuthenticatedPrincipal) (context : RequestContext) (idempotencyKey : PyStr)
    (body : CreateCaseRequest) :
    (spineDiscipline sha256 ok).wp (createCaseRequest sha256 uuid5 p context idempotencyKey body)
      (fun r y => Concludes sha256 ok
        (r.map fun q => .created p.organizationId q.1 q.2) y) x := by
  unfold createCaseRequest mapErrors
  simp only [Prog.bind_eq, Prog.pure_eq]
  refine Discipline.wp_elim _ (Discipline.wp_mono _
    (wp_createCaseCommand p context idempotencyKey body) ?_)
  rintro (e | command) y hy
  · exact Discipline.wp_raise _ fun z hz => concludes_later hc hr hsaves (hy.trans hz) e
  obtain ⟨hy, hrouted⟩ := hy
  simp only [Prog.elim_elim, Prog.elim]
  refine Discipline.wp_bimap _ (Discipline.wp_mono _
    (wp_createCase (hy.coherent hc) (hy.ready hc hr) (hok p.organizationId command hrouted)) ?_)
  rintro (e | result) z ⟨⟨hleft, hready⟩, -⟩
  · exact ⟨hleft.trans (hy.saves.trans hsaves), by simpa [Except.map, Except.mapError] using hready.1⟩
  · exact ⟨hleft.trans (hy.saves.trans hsaves), hready⟩

theorem wp_applyTransitionRequest (hc : (spineDiscipline sha256 ok).Coherent x.db)
    (hr : (spineDiscipline sha256 ok).Ready x.db x.pending) (hsaves : x.saves = [])
    (hok : ∀ organizationId c snapshot, c.actor.kind = .human → Accepts snapshot c →
      ok (.accepted organizationId c))
    (p : AuthenticatedPrincipal) (context : RequestContext) (t : TransitionParameters) :
    (spineDiscipline sha256 ok).wp (applyTransitionRequest uuid5 p context t)
      (fun r y => Concludes sha256 ok (r.map fun q => .moved p.organizationId q.1 q.2) y) x := by
  unfold applyTransitionRequest mapErrors
  simp only [Prog.bind_eq, Prog.pure_eq, Prog.elim_elim, Prog.elim]
  generalize requireCaseReadAccess p = read
  generalize requireCaseCreateAccess p = create
  have hx := Discipline.Later.refl (δ := spineDiscipline sha256 ok) x
  cases read with
  | error e => exact Discipline.wp_raise _ fun z hz => concludes_later hc hr hsaves hz e
  | ok _ =>
  cases create with
  | error e => exact Discipline.wp_raise _ fun z hz => concludes_later hc hr hsaves hz e
  | ok _ =>
  simp only [Prog.lift, Prog.elim]
  refine Discipline.wp_elim _ (Discipline.wp_mono _ (wp_transitionCommand p context t) ?_)
  rintro (e | command) y hy
  · exact Discipline.wp_raise _ fun z hz => concludes_later hc hr hsaves (hy.trans hz) _
  obtain ⟨hy, hhuman⟩ := hy
  refine Discipline.wp_bimap _ (Discipline.wp_mono _
    (wp_transition (hy.coherent hc) (hy.ready hc hr) fun snapshot hacc =>
      hok p.organizationId command snapshot hhuman hacc) ?_)
  rintro (e | record) z ⟨hleft, hready⟩
  · exact ⟨hleft.trans (hy.saves.trans hsaves), by simpa [Except.map, Except.mapError] using hready.1⟩
  · exact ⟨hleft.trans (hy.saves.trans hsaves), hready⟩

/-- **Every request keeps the discipline**, for histories that allow routed creations and moves of human
actors. -/
theorem httpSystem_sound (hcreated : ∀ organizationId c, Routed sha256 c → ok (.created organizationId c))
    (haccepted : ∀ organizationId c snapshot, c.actor.kind = .human → Accepts snapshot c →
      ok (.accepted organizationId c)) :
    Sound (httpSystem sha256 uuid5) (spineDiscipline sha256 ok) fun _ _ _ _ => True where
  command := by
    rintro ⟨p, context, ⟨idempotencyKey, body⟩ | request⟩ db ps hc hr
    · refine Discipline.wp_map _ (Discipline.wp_mono _
        (wp_createCaseRequest hc hr rfl hcreated p context idempotencyKey body) ?_)
      exact fun r y hy => ⟨hy.1, hy.2, trivial⟩
    · refine Discipline.wp_map _ (Discipline.wp_mono _
        (wp_applyTransitionRequest hc hr rfl haccepted p context request.parameters) ?_)
      exact fun r y hy => ⟨hy.1, hy.2, trivial⟩
  recordLocks := fun c r => recordLocks_caseSystem _ c r

end

/-! ### The history of a case -/

/-- The accepted commands of one case. -/
def acceptedOf (w : World) (caseId : Uuid) : List TransitionCommand :=
  (acceptedCommands w.history).filter (·.caseId == caseId)

theorem acceptedCommands_append (h h' : List HistoryEntry) :
    acceptedCommands (h ++ h') = acceptedCommands h ++ acceptedCommands h' := by
  simp [acceptedCommands]

theorem acceptedCommands_restrict (w : World) (caseId : Uuid) :
    acceptedCommands (w.restrict (.case caseId)).history = acceptedOf w caseId := by
  simp only [World.restrict, acceptedOf]
  induction w.history with
  | nil => rfl
  | cons e h ih =>
    cases e with
    | created organizationId c =>
      by_cases hid : caseId = c.caseId <;>
        simpa [bearing, HistoryEntry.keys, acceptedCommands, hid] using ih
    | accepted organizationId c =>
      by_cases hid : caseId = c.caseId
      · simpa [bearing, HistoryEntry.keys, acceptedCommands, hid] using ih
      · simpa [bearing, HistoryEntry.keys, acceptedCommands, hid, Ne.symm hid] using ih

/-- The end of a history that leads to `learned`. -/
def NotLearned : HistoryEntry → Prop
  | .accepted _ c => c.toState ≠ .learned
  | .created _ _ => True

section

variable {sha256 : PyStr → Sha256Hex} {ok : HistoryEntry → Prop} {caseId : Uuid} {w : World}

/-- The history of a stored case is lawful and leads to its state. -/
theorem Spine.lawful (h : Spine sha256 ok caseId w) {row : CaseRow} (hrow : w.db.cases = [row]) :
    Lawful (acceptedCommands w.history) row.state := by
  induction h generalizing row with
  | absent h =>
    rw [h.cases] at hrow
    cases hrow
  | created h organizationId c outboxId hid hok =>
    rw [applyAll_createdWrites h] at hrow ⊢
    cases hrow
    exact .nil
  | moved h row' c outboxId hrow' hacc hok ih =>
    rw [applyAll_movedWrites hrow'] at hrow ⊢
    cases hrow
    rw [acceptedCommands_append]
    exact .snoc (ih hrow') hacc.edge hacc.actor hacc.evidence

theorem Spine.accepted_ok (h : Spine sha256 ok caseId w) :
    ∀ c ∈ acceptedCommands w.history, ∃ organizationId, ok (.accepted organizationId c) := by
  induction h with
  | absent h => simp [h.history, acceptedCommands]
  | created h organizationId c outboxId hid hok =>
    simp [applyAll_createdWrites h, acceptedCommands]
  | moved h row c outboxId hrow hacc hok ih =>
    rw [applyAll_movedWrites hrow, acceptedCommands_append]
    intro d hd
    rcases List.mem_append.mp hd with hd | hd
    · exact ih d hd
    · obtain rfl : d = c := by simpa [acceptedCommands] using hd
      exact ⟨row.organizationId, hok⟩

/-- A case that is not in `learned` was never moved there. -/
theorem Spine.notLearned (h : Spine sha256 ok caseId w)
    (hstate : ∀ row, w.db.cases = [row] → row.state ≠ .learned) : Spine sha256 NotLearned caseId w := by
  induction h with
  | absent h => exact .absent h
  | created h organizationId c outboxId hid hok => exact .created h organizationId c outboxId hid trivial
  | moved h row c outboxId hrow hacc hok ih =>
    have hto := hstate _ (congrArg (·.db.cases) (applyAll_movedWrites hrow c outboxId))
    refine .moved (ih fun row' hrow' hlearned => ?_) row c outboxId hrow hacc hto
    have hedge := hacc.edge
    rw [hrow, List.singleton_inj] at hrow'
    simp [CaseRow.snapshot, hrow', hlearned, allowedTransitions] at hedge

theorem coherent_notLearned (hw : (spineDiscipline sha256 ok).Coherent w)
    (hstate : ∀ row ∈ w.db.cases, row.state ≠ .learned) :
    (spineDiscipline sha256 NotLearned).Coherent w := by
  intro k
  have hk : Good sha256 ok k (w.restrict k) := hw k
  change Good sha256 NotLearned k (w.restrict k)
  cases k with
  | case id =>
    refine Spine.notLearned hk fun row hrow => hstate row ?_
    exact (mem_bearing.mp (hrow.symm ▸ List.mem_singleton_self row)).1
  | idempotency org key =>
    rcases hk with hnone | ⟨row, c, hcases, hhistory, hkey, -, hrest⟩
    · exact Or.inl hnone
    · exact Or.inr ⟨row, c, hcases, hhistory, hkey, trivial, hrest⟩
  | transition id | event id | outboxEvent id => exact hk
  | caseInput id | caseVersion id v | eventTransition org id | outbox id | audit id => trivial

/-- The history of a case in a coherent state. -/
theorem lawful_acceptedOf (hw : (spineDiscipline sha256 ok).Coherent w) {row : CaseRow}
    (hrow : row ∈ w.db.cases) : Lawful (acceptedOf w row.id) row.state := by
  obtain ⟨hspine, hcases⟩ := slice_of_row hw hrow
  rw [← acceptedCommands_restrict]
  exact hspine.lawful hcases

/-- No accepted command of a coherent state came from a model. -/
theorem accepted_notModel (hw : (spineDiscipline sha256 ok).Coherent w) :
    ∀ c ∈ acceptedCommands w.history, c.actor.kind ≠ .model := by
  intro c hc
  have hmem : c ∈ acceptedCommands (w.restrict (.case c.caseId)).history := by
    rw [acceptedCommands_restrict]
    exact List.mem_filter.mpr ⟨hc, by simp⟩
  have hspine : Spine sha256 ok c.caseId (w.restrict (.case c.caseId)) := hw (.case c.caseId)
  rcases hspine.cases with hnone | ⟨row, hrow, -⟩
  · simp [hnone.history, acceptedCommands] at hmem
  · exact (hspine.lawful hrow).notModel c hmem

/-- What the state of a stored case proves about its history. -/
structure ApprovedCase (w : World) (row : CaseRow) : Prop where
  confirmed : row.state ∈ [CaseState.confirmed, .resolved, .learned] → Confirmed (acceptedOf w row.id)
  resolved : row.state ∈ [CaseState.resolved, .learned] → Resolved (acceptedOf w row.id)
  learned : row.state = .learned → Learned (acceptedOf w row.id) ∧
    ∀ command outcome, applyTransition row.snapshot command ≠ .ok outcome

theorem approvedCase (hw : (spineDiscipline sha256 ok).Coherent w) {row : CaseRow}
    (hrow : row ∈ w.db.cases) : ApprovedCase w row := by
  have hlawful := lawful_acceptedOf hw hrow
  constructor
  · intro hstate
    simp only [List.mem_cons, List.not_mem_nil, or_false] at hstate
    rcases hstate with h | h | h <;> rw [h] at hlawful
    · exact hlawful.confirmed.1
    · exact hlawful.resolved.1
    · exact hlawful.learned.1
  · intro hstate
    simp only [List.mem_cons, List.not_mem_nil, or_false] at hstate
    rcases hstate with h | h <;> rw [h] at hlawful
    · exact hlawful.resolved.2.1
    · exact hlawful.learned.2.1
  · intro h
    rw [h] at hlawful
    refine ⟨hlawful.learned.2.2, fun command outcome => ?_⟩
    rw [CaseRow.snapshot, h]
    exact applyTransition_learned row.id row.version command outcome

/-- Requests alone never move a case to `learned`. -/
theorem http_notLearned {uuid5 : PyStr → Uuid} (hw : (spineDiscipline sha256 ok).Coherent w)
    (hstate : ∀ row ∈ w.db.cases, row.state ≠ .learned)
    {t : State CaseStmt CaseStmt.Reply DbError Uuid CaseError CaseReply SpineWrite World CaseCall}
    (ht : (httpSystem sha256 uuid5).Reachable w t) :
    ∀ row ∈ t.committed.db.cases, row.state ≠ .learned := by
  have hsound : Sound (httpSystem sha256 uuid5) (spineDiscipline sha256 NotLearned) _ :=
    httpSystem_sound (fun _ _ _ => trivial) fun organizationId c snapshot hhuman hacc hto => by
      have hservice := hacc.actor.learned hto
      rw [hhuman] at hservice
      cases hservice
  have hinv := hsound.reachable_inv (coherent_notLearned hw hstate) ht
  intro row hrow hlearned
  obtain ⟨hspine, hcases⟩ := slice_of_row hinv.coherent hrow
  have hlawful := hspine.lawful hcases
  rw [hlearned] at hlawful
  obtain ⟨c, hone, -⟩ := hlawful.learned.2.2
  have hmem : c ∈ movesInto .learned (acceptedCommands (t.committed.restrict (.case row.id)).history) := by
    rw [hone]
    exact List.mem_singleton_self c
  obtain ⟨hmem, hto⟩ := List.mem_filter.mp hmem
  obtain ⟨_, hne⟩ := hspine.accepted_ok c hmem
  exact hne (by simpa using hto)

end

/-- **No path around the approval.** In every run of commands of any actors: no accepted command came
from a model, a confirmed, resolved or learned case has its approval, its verification and its indexed
knowledge in its history, and requests that follow do not lead a case to `learned`. -/
theorem reachable_approved {sha256 : PyStr → Sha256Hex} {w₀ : World} (h₀ : w₀.Absent)
    {s : State CaseStmt CaseStmt.Reply DbError Uuid CaseError CaseReply SpineWrite World
      { _c : CaseCommand // True }}
    (hs : (spineSystem sha256 fun _ => True).Reachable w₀ s) :
    (∀ c ∈ acceptedCommands s.committed.history, c.actor.kind ≠ .model) ∧
    (∀ row ∈ s.committed.db.cases, ApprovedCase s.committed row) ∧
    ∀ uuid5 t, (∀ row ∈ s.committed.db.cases, row.state ≠ .learned) →
      (httpSystem sha256 uuid5).Reachable s.committed t →
        ∀ row ∈ t.committed.db.cases, row.state ≠ .learned := by
  have hinv := (spineSystem_sound sha256 _).reachable_inv (coherent_of_absent h₀) hs
  exact ⟨accepted_notModel hinv.coherent, fun row hrow => approvedCase hinv.coherent hrow,
    fun uuid5 t hstate ht => http_notLearned hinv.coherent hstate ht⟩

/-- An approver, and the indexing service. -/
def sampleApprover : Actor := ⟨2, .human, {.approver}, by decide, by decide⟩

def sampleIndexer : Actor := ⟨3, .service, ∅, by decide, by decide⟩

/-- The moves of a case from `new` to `learned`. -/
def sampleMoves : List TransitionCommand :=
  [sampleMove,
    { sampleMove with transitionId := 40, eventId := 41, expectedVersion := 1, toState := .diagnosed },
    { sampleMove with transitionId := 42, eventId := 43, expectedVersion := 2, toState := .fixProposed },
    { sampleMove with transitionId := 44, eventId := 45, expectedVersion := 3, toState := .confirmed,
                      actor := sampleApprover, approvalId := some 46 },
    { sampleMove with transitionId := 47, eventId := 48, expectedVersion := 4, toState := .resolved,
                      verificationNote := some (py "Link is up"), verificationNoteOk := by decide },
    { sampleMove with transitionId := 49, eventId := 50, expectedVersion := 5, toState := .learned,
                      actor := sampleIndexer, knowledgeItemId := some 51 }]

/-- Of a run that takes the sample case to `learned`. -/
theorem reachable_approved_sample : ∃ w : World,
    w.db.cases.map (fun r => (r.state, r.version)) = [(.learned, 6)] ∧
      ∀ row ∈ w.db.cases, ApprovedCase w row := by
  have hrun : ((spineSystem (fun _ => zeroSha256) fun _ => True).serial
      ((⟨.create 7 sampleCreate, trivial⟩, [30, 31]) ::
        sampleMoves.zipIdx.map fun m => (⟨.transition 7 m.1, trivial⟩,
          [Fin.ofNat _ (60 + m.2), Fin.ofNat _ (70 + m.2)])) sampleWorld).map
      (fun w => w.db.cases.map (fun r => (r.state, r.version))) = some [(.learned, 6)] := by
    decide +kernel
  obtain ⟨w, hw, hcases⟩ := Option.map_eq_some_iff.mp hrun
  exact ⟨w, hcases, (reachable_approved sampleWorld_absent (System.reachable_serial hw)).2.1⟩

end NetopsCopilot
