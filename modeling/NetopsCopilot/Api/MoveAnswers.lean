import NetopsCopilot.Api.CaseSystem
import NetopsCopilot.Lib.Partial

/-!
# Answers to the requests that move a case

What `_apply_transition` answers in a run of any requests (`httpSystem_answered`): a move carries the request and its
principal. A request is refused as invalid (`422`) for a blank text, for missing evidence, or because the version it
names was recorded with a state that does not lead to its target; a principal who may write cases is refused for its
roles (`403`) at `confirmed` and `learned` alone.
-/

namespace NetopsCopilot

open Txn

/-! ### Refusals -/

/-- The answer to an operation that is invalid. -/
def invalidCaseTransition : CaseError :=
  .api 422 (py "invalid_case_transition") (py "The requested case operation is invalid.")

/-- The answer to an actor without the role. -/
def caseTransitionForbidden : CaseError :=
  .api 403 (py "case_transition_forbidden") (py "The signed-in user cannot perform this case transition.")

/-- Neither the operation nor the actor is refused. -/
def NotRefused (e : CaseError) : Prop := e ≠ invalidCaseTransition ∧ e ≠ caseTransitionForbidden

/-- A text that the request carries is blank. -/
def TransitionParameters.Blank (t : TransitionParameters) : Prop :=
  (∃ s ∈ t.verificationNote, isBlank s = true) ∨ ∃ s ∈ t.note, isBlank s = true

/-- The version has been recorded with a state that does not lead to the target. -/
def TransitionParameters.NoEdge (t : TransitionParameters) (w : World) : Prop :=
  ∃ state, Recorded t.expectedVersion state (w.restrict (.case t.caseId)) ∧ t.toState ∉ allowedTransitions state

/-- What the target asks for comes with the request. -/
def TransitionParameters.Supported (t : TransitionParameters) : Prop :=
  Evidence t.toState t.approvalId t.verificationNote t.knowledgeItemId t.note

/-- The reasons for a refusal. -/
structure RefusedFor (p : AuthenticatedPrincipal) (t : TransitionParameters) (w : World) (e : CaseError) : Prop where
  invalid : e = invalidCaseTransition → t.Blank ∨ t.NoEdge w ∨ ¬t.Supported
  forbidden : e = caseTransitionForbidden → t.toState = .learned ∨ t.toState = .confirmed ∧ p.roles ∩ confirmRoles = ∅

/-- The command carries the parameters of the request and the roles of the principal. -/
structure CarriesRequest (p : AuthenticatedPrincipal) (t : TransitionParameters) (c : TransitionCommand) : Prop where
  caseId : c.caseId = t.caseId
  expectedVersion : c.expectedVersion = t.expectedVersion
  toState : c.toState = t.toState
  approvalId : c.approvalId = t.approvalId
  verificationNote : c.verificationNote = t.verificationNote
  knowledgeItemId : c.knowledgeItemId = t.knowledgeItemId
  note : c.note = t.note
  human : c.actor.kind = .human
  roles : c.actor.roles = p.roles

section

variable {sha256 : PyStr → Sha256Hex} {ok : HistoryEntry → Prop} {uuid5 : PyStr → Uuid} {x : Local SpineWrite World}
  {p : AuthenticatedPrincipal} {t : TransitionParameters} {c : TransitionCommand}

/-! ### Exceptions of the repository -/

/-- An exception that `_map_case_error` makes no refusal of. -/
def Unrefused (e : CaseError) : Prop := NotRefused (mapCaseError e)

theorem notRefused_api {status : Nat} {code : PyStr} (message : PyStr)
    (h : ¬(status = 422 ∨ code = py "case_transition_forbidden")) : NotRefused (.api status code message) := by
  constructor
  · intro heq
    exact h (.inl (CaseError.api.inj heq).1)
  · intro heq
    exact h (.inr (CaseError.api.inj heq).2.1)

theorem notRefused_caseNotFound : NotRefused caseNotFound := notRefused_api _ (by decide)

theorem unrefused_db (d : DbError) : Unrefused (.db d) := ⟨nofun, nofun⟩

theorem unrefused_notFound (id : Uuid) : Unrefused (.caseNotFound id) := notRefused_caseNotFound

theorem unrefused_versionConflict (id : Uuid) (expected actual : Nat) :
    Unrefused (.domain (.versionConflict id expected actual)) := notRefused_api _ (by decide)

theorem unrefused_oneOrNone {α : Type} (rows : List α) (e : CaseError) (h : oneOrNone rows = .error e) :
    Unrefused e := by
  match rows, h with
  | _ :: _ :: _, h =>
    cases h
    exact ⟨nofun, nofun⟩

theorem raises_case_execute (s : CaseStmt) : (execute s).Raises Unrefused := Prog.raises_execute unrefused_db s

theorem raises_getSnapshot (organizationId caseId : Uuid) : (getSnapshot organizationId caseId).Raises Unrefused := by
  refine (raises_case_execute _).bind fun rows => (Prog.raises_lift (unrefused_oneOrNone rows)).bind fun row => ?_
  cases row with
  | none => exact unrefused_notFound caseId
  | some row => trivial

theorem raises_getDetail (organizationId caseId : Uuid) : (getDetail organizationId caseId).Raises Unrefused := by
  refine (raises_case_execute _).bind fun rows => (Prog.raises_lift (unrefused_oneOrNone rows)).bind fun row => ?_
  cases row with
  | none => exact unrefused_notFound caseId
  | some row => exact (raises_case_execute _).bind fun _ => trivial

theorem raises_persistTransition (organizationId : Uuid) (outcome : TransitionOutcome) (actor : Actor) :
    (persistTransition organizationId outcome actor).Raises Unrefused := by
  refine Prog.Raises.atomic ?_
  refine (raises_case_execute _).bind fun rows => (Prog.raises_lift (unrefused_oneOrNone rows)).bind fun row => ?_
  cases row with
  | none => exact (raises_getSnapshot _ _).bind fun _ => unrefused_versionConflict _ _ _
  | some updated =>
    refine (raises_case_execute _).bind fun _ => ?_
    refine Prog.Raises.bind ?_ fun _ => Prog.Raises.bind ?_ fun _ => trivial
    · exact (raises_case_execute _).bind fun _ => Prog.raises_draw.bind fun _ => raises_case_execute _
    · exact Prog.raises_draw.bind fun _ => raises_case_execute _

/-! ### The command and its decision -/

/-- A command is not built from a blank text, or for other reasons that are no refusal. -/
def RaisedBuilding (t : TransitionParameters) (e : CaseError) : Prop :=
  Unrefused e ∨ (t.Blank ∧ mapCaseError e ≠ caseTransitionForbidden)

theorem unrefused_visible {case : CaseRecord} {e : CaseError} (h : visibleCaseOrNotFound case p = .error e) :
    Unrefused e := by
  unfold visibleCaseOrNotFound at h
  split_ifs at h
  cases h
  exact notRefused_caseNotFound

theorem unrefused_actor {e : CaseError} (h : actorFromPrincipal uuid5 p = .error e) : Unrefused e := by
  unfold actorFromPrincipal at h
  dsimp only at h
  split at h
  · cases h
  · cases h
    exact notRefused_api _ (by decide)

theorem make_error {a : TransitionArgs} {e : DomainError} (h : TransitionCommand.make a = .error e) :
    (∃ message, e = .valueError message) ∧
      ((∃ s ∈ a.verificationNote, isBlank s = true) ∨ ∃ s ∈ a.note, isBlank s = true) := by
  unfold TransitionCommand.make at h
  split_ifs at h with hverification hnote
  · cases h
    push Not at hnote
    obtain ⟨s, hs, hblank⟩ := hnote
    exact ⟨⟨_, rfl⟩, .inr ⟨s, hs, by simpa using hblank⟩⟩
  · cases h
    push Not at hverification
    obtain ⟨s, hs, hblank⟩ := hverification
    exact ⟨⟨_, rfl⟩, .inl ⟨s, hs, by simpa using hblank⟩⟩

theorem raises_transitionCommand (p : AuthenticatedPrincipal) (context : RequestContext) (t : TransitionParameters) :
    (transitionCommand uuid5 p context t).Raises (RaisedBuilding t) := by
  have hdetail : (getDetail p.organizationId t.caseId).Raises (RaisedBuilding t) :=
    (raises_getDetail p.organizationId t.caseId).mono fun e he => .inl he
  have hlift : ∀ {A : Type} (y : Except CaseError A), (∀ e, y = .error e → Unrefused e) →
      (Prog.lift y : CaseProg A).Raises (RaisedBuilding t) :=
    fun y hy => Prog.raises_lift fun e he => .inl (hy e he)
  have hvisible : ∀ case e, visibleCaseOrNotFound case p = .error e → Unrefused e := fun _ _ => unrefused_visible
  have hactor : ∀ e, actorFromPrincipal uuid5 p = .error e → Unrefused e := fun _ => unrefused_actor
  unfold transitionCommand
  generalize actorFromPrincipal uuid5 p = actor? at hactor ⊢
  refine hdetail.bind fun detail => ?_
  have hvisible := hvisible detail.case
  generalize visibleCaseOrNotFound detail.case p = visible at hvisible ⊢
  refine (hlift visible hvisible).bind fun _ => (hlift actor? hactor).bind fun actor => ?_
  refine Prog.raises_draw.bind fun transitionId => Prog.raises_draw.bind fun eventId => ?_
  refine Prog.raises_lift fun e he => .inr ?_
  generalize hmake : TransitionCommand.make _ = made at he
  cases made with
  | ok c => cases he
  | error e' =>
    cases he
    obtain ⟨⟨message, rfl⟩, hblank⟩ := make_error hmake
    exact ⟨hblank, fun heq => absurd (CaseError.api.inj heq).1 (by decide)⟩

theorem carriesRequest_make {context : RequestContext} {transitionId eventId : Uuid} {actor : Actor}
    (hactor : actor.kind = .human ∧ actor.roles = p.roles)
    (h : TransitionCommand.make
      { transitionId := transitionId, eventId := eventId, caseId := t.caseId, expectedVersion := t.expectedVersion,
        toState := t.toState, actor := actor, correlationId := context.correlationId, occurredAt := context.now,
        approvalId := t.approvalId, verificationNote := t.verificationNote, knowledgeItemId := t.knowledgeItemId,
        note := t.note } = .ok c) :
    CarriesRequest p t c := by
  unfold TransitionCommand.make at h
  split_ifs at h
  cases h
  exact ⟨rfl, rfl, rfl, rfl, rfl, rfl, rfl, hactor.1, hactor.2⟩

/-- The command carries what the request says. -/
theorem wp_transitionCommand_carries (p : AuthenticatedPrincipal) (context : RequestContext)
    (t : TransitionParameters) :
    (spineDiscipline sha256 ok).wp (transitionCommand uuid5 p context t)
      ((spineDiscipline sha256 ok).Quietly x (CarriesRequest p t)) x := by
  unfold transitionCommand
  simp only [Prog.bind_eq]
  refine Discipline.wp_bind_quietly _ (Q := fun _ => True) (Discipline.wp_mono _ wp_getDetail ?_)
    fun detail y hy _ => ?_
  · rintro (e | detail) y hy
    · exact hy
    · exact ⟨hy, trivial⟩
  generalize visibleCaseOrNotFound detail.case p = visible
  refine Discipline.wp_bind_quietly _ (Q := fun _ => True)
    (Discipline.wp_lift_quietly _ hy fun _ _ => trivial) fun _ y hy _ => ?_
  have hhuman := fun actor (h : actorFromPrincipal uuid5 p = .ok actor) => actorFromPrincipal_ok h
  generalize actorFromPrincipal uuid5 p = actor? at hhuman ⊢
  refine Discipline.wp_bind_quietly _ (Q := fun actor => actor.kind = .human ∧ actor.roles = p.roles)
    (Discipline.wp_lift_quietly _ hy hhuman) fun actor y hy hactor => ?_
  intro transitionId eventId
  exact Discipline.wp_lift_quietly _ hy fun c hc => carriesRequest_make hactor (Raising.mapError_ok hc)

/-- Why `applyTransition` raises. -/
theorem applyTransition_error {snapshot : CaseSnapshot} {e : DomainError} (h : applyTransition snapshot c = .error e) :
    (∃ v, e = .versionConflict snapshot.caseId c.expectedVersion v) ∨
    (∃ id, e = .caseIdentityMismatch snapshot.caseId id) ∨
    snapshot.caseId = c.caseId ∧ snapshot.version = c.expectedVersion ∧
      ((∃ target, e = .invalidTransition snapshot.state target) ∧ c.toState ∉ allowedTransitions snapshot.state ∨
        validateActor c = .error e ∨ validateTransitionConstraints c = .error e) := by
  unfold applyTransition at h
  split_ifs at h with hid hversion hedge
  · cases h
    exact .inr (.inl ⟨_, rfl⟩)
  · cases h
    exact .inl ⟨_, rfl⟩
  · refine .inr (.inr ⟨not_not.mp hid, not_not.mp hversion, .inr ?_⟩)
    cases hactor : validateActor c with
    | error e' =>
      simp only [hactor, bind, Except.bind, Except.error.injEq] at h
      exact .inl (congrArg _ h)
    | ok u =>
      cases hevidence : validateTransitionConstraints c with
      | error e' =>
        simp only [hactor, hevidence, bind, Except.bind, Except.error.injEq] at h
        exact .inr (congrArg _ h)
      | ok u' => simp [hactor, hevidence, bind, Except.bind, pure, Except.pure] at h
  · cases h
    exact .inr (.inr ⟨not_not.mp hid, not_not.mp hversion, .inl ⟨⟨_, rfl⟩, hedge⟩⟩)

/-- A human with a role that creates cases is refused a target for `confirmed` and `learned` alone. -/
theorem validateActor_error {e : DomainError} (hcarries : CarriesRequest p t c)
    (haccess : p.requireAnyRole caseCreateRoles = true)
    (h : validateActor c = .error e) :
    (∃ message, e = .transitionAuthorization message) ∧
      (t.toState = .learned ∨ t.toState = .confirmed ∧ p.roles ∩ confirmRoles = ∅) := by
  have hroles : ∀ roles : Finset CaseRole, caseCreateRoles ∪ {.platformAdmin} ⊆ roles → c.actor.roles ∩ roles ≠ ∅ := by
    intro roles hsub hempty
    refine of_decide_eq_true haccess (Finset.subset_empty.mp ?_)
    rw [← hempty, hcarries.roles]
    exact Finset.inter_subset_inter_left hsub
  have hhuman := hcarries.human
  unfold validateActor at h
  split_ifs at h with hmodel hkind hconfirm hresolve hwrite hlearn
  · rw [hhuman] at hmodel
    cases hmodel
  · exact absurd hhuman hkind.2
  · cases h
    exact ⟨⟨_, rfl⟩, .inr ⟨hcarries.toState ▸ hconfirm.1, hcarries.roles ▸ hconfirm.2⟩⟩
  · exact absurd hresolve.2 (hroles _ (by decide))
  · exact absurd hwrite.2 (hroles _ (by decide))
  · cases h
    exact ⟨⟨_, rfl⟩, .inl (hcarries.toState ▸ hlearn.1)⟩

theorem validateTransitionConstraints_error {e : DomainError} (hcarries : CarriesRequest p t c)
    (h : validateTransitionConstraints c = .error e) :
    (∃ message, e = .transitionConstraint message) ∧ ¬t.Supported := by
  have hmissing : ∀ s : CaseState, ∀ {A : Type} {o : Option A}, c.toState = s ∧ o = none →
      (t.toState = s → o ≠ none) → False :=
    fun s A o hc ho => ho (hcarries.toState ▸ hc.1) hc.2
  unfold validateTransitionConstraints at h
  split_ifs at h with hconfirm hresolve hlearn hinfo
  · cases h
    exact ⟨⟨_, rfl⟩, fun hs => hmissing .confirmed hconfirm (hcarries.approvalId ▸ hs.approval)⟩
  · cases h
    exact ⟨⟨_, rfl⟩, fun hs => hmissing .resolved hresolve (hcarries.verificationNote ▸ hs.verification)⟩
  · cases h
    exact ⟨⟨_, rfl⟩, fun hs => hmissing .learned hlearn (hcarries.knowledgeItemId ▸ hs.knowledge)⟩
  · cases h
    exact ⟨⟨_, rfl⟩, fun hs => hmissing .needsInformation hinfo (hcarries.note ▸ hs.information)⟩

end

/-! ### Requests in a run -/

section

variable {sha256 : PyStr → Sha256Hex} {ok : HistoryEntry → Prop} {uuid5 : PyStr → Uuid} {x : Local SpineWrite World}
  {p : AuthenticatedPrincipal} {t : TransitionParameters} {c : TransitionCommand} {w : World}

theorem refusedFor_notRefused {e : CaseError} (h : NotRefused e) : RefusedFor p t w e :=
  ⟨fun he => absurd he h.1, fun he => absurd he h.2⟩

/-- What the decision on a recorded snapshot refuses. -/
theorem refusedFor_decided {snapshot : CaseSnapshot} {e : DomainError} (hcarries : CarriesRequest p t c)
    (haccess : p.requireAnyRole caseCreateRoles = true)
    (hrec : Recorded snapshot.version snapshot.state (w.restrict (.case snapshot.caseId)))
    (h : applyTransition snapshot c = .error e) : RefusedFor p t w (mapCaseError (.domain e)) := by
  obtain ⟨v, rfl⟩ | ⟨id, rfl⟩ | ⟨hid, hversion, ⟨⟨target, rfl⟩, hedge⟩ | hactor | hevidence⟩ := applyTransition_error h
  · exact refusedFor_notRefused (unrefused_versionConflict _ _ _)
  · exact refusedFor_notRefused ⟨nofun, nofun⟩
  · rw [hid, hversion, hcarries.caseId, hcarries.expectedVersion] at hrec
    refine ⟨fun _ => .inr (.inl ⟨snapshot.state, hrec, hcarries.toState ▸ hedge⟩), fun he => ?_⟩
    exact absurd (CaseError.api.inj he).1 (by decide)
  · obtain ⟨⟨message, rfl⟩, hrole⟩ := validateActor_error hcarries haccess hactor
    exact ⟨fun he => absurd (CaseError.api.inj he).1 (by decide), fun _ => hrole⟩
  · obtain ⟨⟨message, rfl⟩, hmissing⟩ := validateTransitionConstraints_error hcarries hevidence
    exact ⟨fun _ => .inr (.inr hmissing), fun he => absurd (CaseError.api.inj he).1 (by decide)⟩

/-- The answer to a request that moves a case. -/
structure Answered (p : AuthenticatedPrincipal) (t : TransitionParameters) (r : Except CaseError CaseReply)
    (y : Local SpineWrite World) : Prop where
  moved : ∀ reply, r = .ok reply → ∃ command record, reply = .moved p.organizationId command record ∧
    CarriesRequest p t command
  refused : ∀ e, r = .error e → RefusedFor p t (caseStore.applyAll y.pending y.db) e

theorem answered_error {y : Local SpineWrite World} {e : CaseError}
    (h : RefusedFor p t (caseStore.applyAll y.pending y.db) e) : Answered p t (.error e) y := by
  constructor
  · intro reply hreply
    cases hreply
  · intro e' he
    cases he
    exact h

theorem answered_moved {y : Local SpineWrite World} (hcarries : CarriesRequest p t c) (record : CaseRecord) :
    Answered p t (.ok (.moved p.organizationId c record)) y := by
  constructor
  · intro reply hreply
    cases hreply
    exact ⟨c, record, rfl, hcarries⟩
  · intro e he
    cases he

theorem wp_transition_refused (hc : (spineDiscipline sha256 ok).Coherent x.db)
    (hr : (spineDiscipline sha256 ok).Ready x.db x.pending)
    (hcarries : CarriesRequest p t c) (haccess : p.requireAnyRole caseCreateRoles = true) :
    (spineDiscipline sha256 ok).wp (transition p.organizationId c) (fun r y => ∀ e, r = .error e →
      RefusedFor p t (caseStore.applyAll y.pending y.db) (mapCaseError e)) x := by
  unfold transition
  simp only [Prog.bind_eq]
  refine Discipline.wp_elim _ (Discipline.wp_mono _ (Discipline.wp_and _ (wp_getSnapshot hc hr)
    (Discipline.wp_raises _ (raises_getSnapshot _ _))) ?_)
  rintro (e | snapshot) y ⟨⟨hy, hrec⟩, hraises⟩
  · refine Discipline.wp_raise _ fun z hz e' he => ?_
    cases he
    exact refusedFor_notRefused (hraises e rfl)
  cases hdecide : applyTransition snapshot c with
  | error e =>
    simp only [hdecide, Except.mapError, Prog.lift, Prog.elim]
    refine Discipline.wp_raise _ fun z hz e' he => ?_
    cases he
    have hrec' := (hrec snapshot rfl).rely (hy.ready hc hr).owned hz.rely
    rw [← hz.pending] at hrec'
    exact refusedFor_decided hcarries haccess hrec' hdecide
  | ok outcome =>
    obtain ⟨hacc, rfl⟩ := applyTransition_ok hdecide
    simp only [hdecide, Except.mapError, Prog.lift, Prog.elim]
    exact Discipline.wp_mono _ (Discipline.wp_raises _ (raises_persistTransition _ _ _))
      fun r z hraises e he => refusedFor_notRefused (hraises e he)

theorem wp_applyTransitionRequest_answered (hc : (spineDiscipline sha256 ok).Coherent x.db)
    (hr : (spineDiscipline sha256 ok).Ready x.db x.pending)
    (p : AuthenticatedPrincipal) (context : RequestContext) (t : TransitionParameters) :
    (spineDiscipline sha256 ok).wp (applyTransitionRequest uuid5 p context t)
      (fun r y => Answered p t (r.map fun q => .moved p.organizationId q.1 q.2) y) x := by
  have hread : ∀ e, requireCaseReadAccess p = .error e → NotRefused e := by
    intro e he
    unfold requireCaseReadAccess at he
    split_ifs at he
    cases he
    exact notRefused_api _ (by decide)
  have hcreate : ∀ e, requireCaseCreateAccess p = .error e → NotRefused e := by
    intro e he
    unfold requireCaseCreateAccess at he
    split_ifs at he
    cases he
    exact notRefused_api _ (by decide)
  have haccess : ∀ u, requireCaseCreateAccess p = .ok u → p.requireAnyRole caseCreateRoles = true := by
    intro u hu
    unfold requireCaseCreateAccess at hu
    split_ifs at hu with haccess
    exact haccess
  unfold applyTransitionRequest mapErrors
  simp only [Prog.bind_eq, Prog.pure_eq, Prog.elim_elim, Prog.elim]
  generalize requireCaseReadAccess p = read at hread ⊢
  generalize requireCaseCreateAccess p = create at hcreate haccess ⊢
  cases read with
  | error e => exact Discipline.wp_raise _ fun z hz => answered_error (refusedFor_notRefused (hread e rfl))
  | ok _ =>
  cases create with
  | error e => exact Discipline.wp_raise _ fun z hz => answered_error (refusedFor_notRefused (hcreate e rfl))
  | ok u =>
  simp only [Prog.lift, Prog.elim]
  refine Discipline.wp_elim _ (Discipline.wp_mono _
    (Discipline.wp_and _ (wp_transitionCommand_carries p context t)
      (Discipline.wp_raises _ (raises_transitionCommand p context t))) ?_)
  rintro (e | command) y ⟨hy, hraises⟩
  · refine Discipline.wp_raise _ fun z hz => ?_
    rcases hraises e rfl with hunrefused | ⟨hblank, hforbidden⟩
    · exact answered_error (refusedFor_notRefused hunrefused)
    · exact answered_error ⟨fun _ => .inl hblank, fun he => absurd he hforbidden⟩
  obtain ⟨hy, hcarries⟩ := hy
  refine Discipline.wp_bimap _ (Discipline.wp_mono _
    (wp_transition_refused (hy.coherent hc) (hy.ready hc hr) hcarries (haccess u rfl)) ?_)
  rintro (e | record) z hz
  · exact answered_error (hz e rfl)
  · exact answered_moved hcarries record

/-- **Every move is that of its request, and every refusal has its reason**, whatever else happens. -/
theorem httpSystem_answered : Sound (httpSystem sha256 uuid5) (spineDiscipline sha256 fun _ => True)
    fun c _ r y => ∀ request, c.request = .inr request → Answered c.principal request.parameters r y where
  command := by
    rintro ⟨p, context, ⟨idempotencyKey, body⟩ | request⟩ db ps hc hr
    · refine Discipline.wp_map _ (Discipline.wp_mono _
        (wp_createCaseRequest hc hr rfl (fun _ _ _ => trivial) p context idempotencyKey body) ?_)
      exact fun r y hy => ⟨hy.1, hy.2, nofun⟩
    · refine Discipline.wp_map _ (Discipline.wp_mono _ (Discipline.wp_and _
        (wp_applyTransitionRequest hc hr rfl (fun _ _ _ _ _ => trivial) p context request.parameters)
        (wp_applyTransitionRequest_answered hc hr p context request.parameters)) ?_)
      rintro r y ⟨hy, hanswered⟩
      refine ⟨hy.1, hy.2, ?_⟩
      rintro _ ⟨⟩
      exact hanswered
  recordLocks := fun c r => recordLocks_caseSystem _ c r

/-- What is recorded of a stored case stays recorded. -/
theorem recorded_since {w₀ : World} (h₀ : w₀.Absent)
    {s s' : State CaseStmt CaseStmt.Reply DbError Uuid CaseError CaseReply SpineWrite World CaseCall}
    (hs : (httpSystem sha256 uuid5).Reachable w₀ s) (hlater : Relation.ReflTransGen (httpSystem sha256 uuid5).Step s s')
    {row : CaseRow} (hrow : row ∈ s.committed.db.cases) (ws : List SpineWrite) :
    Recorded row.version row.state ((caseStore.applyAll ws s'.committed).restrict (.case row.id)) := by
  have hinv := httpSystem_answered.reachable_inv (coherent_of_absent h₀) hs
  obtain ⟨hspine, hcases⟩ := slice_of_row hinv.coherent hrow
  have hgrows : ∀ x w, Recorded row.version row.state (w.restrict (.case row.id)) →
      Recorded row.version row.state (((httpSystem sha256 uuid5).store.apply x w).restrict (.case row.id)) :=
    fun x w h => h.grows (grows_restrict x _ w)
  have hcommitted := Sound.committed_steps (I := fun w => Recorded row.version row.state (w.restrict (.case row.id)))
    hgrows hlater (hspine.recorded hcases)
  exact Store.applyAll_induct hgrows ws hcommitted

end

end NetopsCopilot
