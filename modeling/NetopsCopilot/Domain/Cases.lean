import Mathlib.Data.Finset.Insert
import Mathlib.Data.Finset.Lattice.Basic
import NetopsCopilot.Python.Text

/-!
# The case state machine (`netops_api/domain/cases.py`, `domain/errors.py`)

The states of a case, the actors, the transition command and `applyTransition`, which decides a
command from a snapshot without any I/O. What `__post_init__` checks is a field of the structure, so a
command that exists has passed it; `Actor.make` and `TransitionCommand.make` are the constructors that
raise.

`applyTransition_ok` says everything an accepted command can be: every later result about transitions
uses it instead of unfolding the checks again.
-/

namespace NetopsCopilot

/-- A 128-bit UUID; PostgreSQL orders them as numbers. -/
abbrev Uuid := Fin (2 ^ 128)

instance neZeroUuid : NeZero (2 ^ 128) := ⟨by decide⟩

instance lawfulBEqUuid : LawfulBEq Uuid := inferInstance

/-- A UTC timestamp in microseconds. -/
abbrev Instant := Int

/-- `CaseState`. -/
inductive CaseState where
  | new | investigating | diagnosed | fixProposed | needsInformation | confirmed | resolved | learned
deriving DecidableEq, Repr

/-- `CaseState.value`. -/
def CaseState.value : CaseState → PyStr
  | .new => py "new"
  | .investigating => py "investigating"
  | .diagnosed => py "diagnosed"
  | .fixProposed => py "fix_proposed"
  | .needsInformation => py "needs_information"
  | .confirmed => py "confirmed"
  | .resolved => py "resolved"
  | .learned => py "learned"

/-- `CaseRole`. -/
inductive CaseRole where
  | orgAdmin | operator | approver | auditor | integrationAdmin | platformAdmin
deriving DecidableEq, Repr

/-- `ActorKind`. -/
inductive ActorKind where
  | human | service | model
deriving DecidableEq, Repr

/-- `ActorKind.value`. -/
def ActorKind.value : ActorKind → PyStr
  | .human => py "human"
  | .service => py "service"
  | .model => py "model"

/-- `ALLOWED_TRANSITIONS`. -/
def allowedTransitions : CaseState → Finset CaseState
  | .new => {.investigating}
  | .investigating => {.diagnosed, .needsInformation}
  | .needsInformation => {.investigating}
  | .diagnosed => {.fixProposed}
  | .fixProposed => {.confirmed}
  | .confirmed => {.resolved}
  | .resolved => {.learned}
  | .learned => ∅

/-- `_CASE_WRITE_ROLES`. -/
def caseWriteRoles : Finset CaseRole := {.orgAdmin, .operator, .approver, .platformAdmin}

/-- `_CONFIRM_ROLES`. -/
def confirmRoles : Finset CaseRole := {.orgAdmin, .approver, .platformAdmin}

/-- `_RESOLVE_ROLES`. -/
def resolveRoles : Finset CaseRole := {.orgAdmin, .operator, .approver, .platformAdmin}

/-- `_EVENT_TYPES`. -/
def eventTypes : CaseState → PyStr
  | .investigating => py "case.investigating.v1"
  | .diagnosed => py "analysis.completed.v1"
  | .fixProposed => py "recommendation.proposed.v1"
  | .needsInformation => py "case.needs_information.v1"
  | .confirmed => py "approval.granted.v1"
  | .resolved => py "case.resolved.v1"
  | .learned => py "memory.indexed.v1"
  | .new => py "case.created.v1"

/-! ### Errors -/

/-- The errors of `domain/errors.py` and the `ValueError` of the `__post_init__` checks. -/
inductive DomainError where
  | versionConflict (caseId : Uuid) (expectedVersion actualVersion : Nat)
  | caseIdentityMismatch (snapshotCaseId commandCaseId : Uuid)
  | invalidTransition (fromState toState : CaseState)
  | transitionAuthorization (message : PyStr)
  | transitionConstraint (message : PyStr)
  | valueError (message : PyStr)
deriving DecidableEq, Repr

/-! ### Actors, snapshots and commands -/

/-- `Actor`: humans carry at least one role, nobody else carries any. -/
structure Actor where
  actorId : Uuid
  kind : ActorKind
  roles : Finset CaseRole
  humanRoles : kind = .human → roles ≠ ∅
  otherRoles : kind ≠ .human → roles = ∅

/-- `Actor(...)` with its `__post_init__`. -/
def Actor.make (actorId : Uuid) (kind : ActorKind) (roles : Finset CaseRole) :
    Except DomainError Actor :=
  if h : kind = .human ∧ roles = ∅ then
    .error (.valueError (py "Human actors must include at least one assigned role."))
  else if h' : kind ≠ .human ∧ roles ≠ ∅ then
    .error (.valueError (py "Only human actors may carry organization roles."))
  else
    .ok ⟨actorId, kind, roles, fun hk hr => h ⟨hk, hr⟩, fun hk => by
      by_contra hr
      exact h' ⟨hk, hr⟩⟩

theorem Actor.make_ok {actorId : Uuid} {kind : ActorKind} {roles : Finset CaseRole} {a : Actor}
    (h : Actor.make actorId kind roles = .ok a) :
    a.actorId = actorId ∧ a.kind = kind ∧ a.roles = roles := by
  unfold Actor.make at h
  split_ifs at h
  cases h
  exact ⟨rfl, rfl, rfl⟩

/-- `CaseSnapshot`. -/
structure CaseSnapshot where
  caseId : Uuid
  state : CaseState
  version : Nat
deriving DecidableEq, Repr

/-- `TransitionCommand`: a note that is supplied is not blank. -/
structure TransitionCommand where
  transitionId : Uuid
  eventId : Uuid
  caseId : Uuid
  expectedVersion : Nat
  toState : CaseState
  actor : Actor
  correlationId : Uuid
  occurredAt : Instant
  approvalId : Option Uuid
  verificationNote : Option PyStr
  knowledgeItemId : Option Uuid
  note : Option PyStr
  verificationNoteOk : ∀ s ∈ verificationNote, isBlank s = false
  noteOk : ∀ s ∈ note, isBlank s = false

/-- The arguments of `TransitionCommand(...)` before its `__post_init__`. -/
structure TransitionArgs where
  transitionId : Uuid
  eventId : Uuid
  caseId : Uuid
  expectedVersion : Nat
  toState : CaseState
  actor : Actor
  correlationId : Uuid
  occurredAt : Instant
  approvalId : Option Uuid := none
  verificationNote : Option PyStr := none
  knowledgeItemId : Option Uuid := none
  note : Option PyStr := none

/-- `TransitionCommand(...)` with its `__post_init__`. -/
def TransitionCommand.make (a : TransitionArgs) : Except DomainError TransitionCommand :=
  if hv : ∀ s ∈ a.verificationNote, isBlank s = false then
    if hn : ∀ s ∈ a.note, isBlank s = false then
      .ok { transitionId := a.transitionId, eventId := a.eventId, caseId := a.caseId,
            expectedVersion := a.expectedVersion, toState := a.toState, actor := a.actor,
            correlationId := a.correlationId, occurredAt := a.occurredAt,
            approvalId := a.approvalId, verificationNote := a.verificationNote,
            knowledgeItemId := a.knowledgeItemId, note := a.note,
            verificationNoteOk := hv, noteOk := hn }
    else .error (.valueError (py "note cannot be blank when supplied."))
  else .error (.valueError (py "verification_note cannot be blank when supplied."))

theorem TransitionCommand.make_ok {a : TransitionArgs} {c : TransitionCommand}
    (h : TransitionCommand.make a = .ok c) :
    c.caseId = a.caseId ∧ c.toState = a.toState ∧ c.actor = a.actor := by
  unfold TransitionCommand.make at h
  split_ifs at h
  cases h
  exact ⟨rfl, rfl, rfl⟩

theorem TransitionCommand.make_ids {a : TransitionArgs} {c : TransitionCommand}
    (h : TransitionCommand.make a = .ok c) : c.transitionId = a.transitionId ∧ c.eventId = a.eventId := by
  unfold TransitionCommand.make at h
  split_ifs at h
  cases h
  exact ⟨rfl, rfl⟩

/-- `CaseStateTransition`. -/
structure CaseStateTransition where
  transitionId : Uuid
  caseId : Uuid
  fromState : CaseState
  toState : CaseState
  version : Nat
  actorId : Uuid
  correlationId : Uuid
  occurredAt : Instant
  approvalId : Option Uuid
  verificationNote : Option PyStr
  knowledgeItemId : Option Uuid
  note : Option PyStr

/-- `CaseEventCommand`. -/
structure CaseEventCommand where
  eventId : Uuid
  eventType : PyStr
  caseId : Uuid
  aggregateVersion : Nat
  transitionId : Uuid
  actorId : Uuid
  correlationId : Uuid
  occurredAt : Instant

/-- `TransitionOutcome`. -/
structure TransitionOutcome where
  snapshot : CaseSnapshot
  transition : CaseStateTransition
  event : CaseEventCommand

/-! ### Deciding a command -/

/-- `_validate_actor`. -/
def validateActor (command : TransitionCommand) : Except DomainError Unit :=
  if command.actor.kind = .model then
    .error (.transitionAuthorization (py "Model identities cannot alter case state."))
  else if (command.toState = .confirmed ∨ command.toState = .resolved) ∧
      command.actor.kind ≠ .human then
    .error (.transitionAuthorization (py "Transitioning to " ++ command.toState.value ++
      py " requires an authorized human actor."))
  else if command.toState = .confirmed ∧ command.actor.roles ∩ confirmRoles = ∅ then
    .error (.transitionAuthorization (py "The actor lacks an approver role for confirmation."))
  else if command.toState = .resolved ∧ command.actor.roles ∩ resolveRoles = ∅ then
    .error (.transitionAuthorization (py "The actor lacks a case-resolution role."))
  else if command.actor.kind = .human ∧ command.actor.roles ∩ caseWriteRoles = ∅ then
    .error (.transitionAuthorization (py "The actor has no role that can mutate a case."))
  else if command.toState = .learned ∧ command.actor.kind ≠ .service then
    .error (.transitionAuthorization
      (py "Transitioning to learned requires the indexing workflow service identity."))
  else .ok ()

/-- `_validate_transition_constraints`. -/
def validateTransitionConstraints (command : TransitionCommand) : Except DomainError Unit :=
  if command.toState = .confirmed ∧ command.approvalId = none then
    .error (.transitionConstraint (py "Confirmation requires an immutable approval record ID."))
  else if command.toState = .resolved ∧ command.verificationNote = none then
    .error (.transitionConstraint
      (py "Resolution requires a non-empty human verification note."))
  else if command.toState = .learned ∧ command.knowledgeItemId = none then
    .error (.transitionConstraint (py "Learning requires an indexed knowledge item ID."))
  else if command.toState = .needsInformation ∧ command.note = none then
    .error (.transitionConstraint
      (py "Needs-information transitions require an operator-readable note."))
  else .ok ()

/-- The records of an accepted command. -/
def transitionOutcome (snapshot : CaseSnapshot) (command : TransitionCommand) : TransitionOutcome where
  snapshot := ⟨snapshot.caseId, command.toState, snapshot.version + 1⟩
  transition :=
    { transitionId := command.transitionId, caseId := snapshot.caseId, fromState := snapshot.state,
      toState := command.toState, version := snapshot.version + 1,
      actorId := command.actor.actorId, correlationId := command.correlationId,
      occurredAt := command.occurredAt, approvalId := command.approvalId,
      verificationNote := command.verificationNote, knowledgeItemId := command.knowledgeItemId,
      note := command.note }
  event :=
    { eventId := command.eventId, eventType := eventTypes command.toState,
      caseId := snapshot.caseId, aggregateVersion := snapshot.version + 1,
      transitionId := command.transitionId, actorId := command.actor.actorId,
      correlationId := command.correlationId, occurredAt := command.occurredAt }

/-- `apply_transition`. -/
def applyTransition (snapshot : CaseSnapshot) (command : TransitionCommand) :
    Except DomainError TransitionOutcome :=
  if snapshot.caseId ≠ command.caseId then
    .error (.caseIdentityMismatch snapshot.caseId command.caseId)
  else if snapshot.version ≠ command.expectedVersion then
    .error (.versionConflict snapshot.caseId command.expectedVersion snapshot.version)
  else if command.toState ∉ allowedTransitions snapshot.state then
    .error (.invalidTransition snapshot.state command.toState)
  else do
    validateActor command
    validateTransitionConstraints command
    return transitionOutcome snapshot command

/-! ### What acceptance means -/

/-- The actor may make this move: never a model; confirmation and resolution are human acts with
their roles; learning is a service's. -/
structure ActorAllowed (command : TransitionCommand) : Prop where
  notModel : command.actor.kind ≠ .model
  confirmed : command.toState = .confirmed →
    command.actor.kind = .human ∧ command.actor.roles ∩ confirmRoles ≠ ∅
  resolved : command.toState = .resolved →
    command.actor.kind = .human ∧ command.actor.roles ∩ resolveRoles ≠ ∅
  humanWrites : command.actor.kind = .human → command.actor.roles ∩ caseWriteRoles ≠ ∅
  learned : command.toState = .learned → command.actor.kind = .service

theorem validateActor_ok {command : TransitionCommand} {u : Unit} (h : validateActor command = .ok u) :
    ActorAllowed command := by
  unfold validateActor at h
  split_ifs at h with hmodel hhuman hconfirm hresolve hwrite hlearn
  refine ⟨hmodel, fun ht => ⟨?_, fun hr => hconfirm ⟨ht, hr⟩⟩,
    fun ht => ⟨?_, fun hr => hresolve ⟨ht, hr⟩⟩, fun hk hr => hwrite ⟨hk, hr⟩, fun ht => ?_⟩
  · by_contra hk
    exact hhuman ⟨Or.inl ht, hk⟩
  · by_contra hk
    exact hhuman ⟨Or.inr ht, hk⟩
  · by_contra hk
    exact hlearn ⟨ht, hk⟩

/-- The evidence a target state asks for is there. -/
structure Evidence (toState : CaseState) (approvalId : Option Uuid) (verificationNote : Option PyStr)
    (knowledgeItemId : Option Uuid) (note : Option PyStr) : Prop where
  approval : toState = .confirmed → approvalId ≠ none
  verification : toState = .resolved → verificationNote ≠ none
  knowledge : toState = .learned → knowledgeItemId ≠ none
  information : toState = .needsInformation → note ≠ none

theorem validateTransitionConstraints_ok {command : TransitionCommand} {u : Unit}
    (h : validateTransitionConstraints command = .ok u) :
    Evidence command.toState command.approvalId command.verificationNote command.knowledgeItemId
      command.note := by
  unfold validateTransitionConstraints at h
  split_ifs at h with hconfirm hresolve hlearn hinfo
  exact ⟨fun ht hn => hconfirm ⟨ht, hn⟩, fun ht hn => hresolve ⟨ht, hn⟩,
    fun ht hn => hlearn ⟨ht, hn⟩, fun ht hn => hinfo ⟨ht, hn⟩⟩

/-- What `applyTransition` accepts. -/
structure Accepts (snapshot : CaseSnapshot) (command : TransitionCommand) : Prop where
  caseId : snapshot.caseId = command.caseId
  version : snapshot.version = command.expectedVersion
  edge : command.toState ∈ allowedTransitions snapshot.state
  actor : ActorAllowed command
  evidence : Evidence command.toState command.approvalId command.verificationNote
    command.knowledgeItemId command.note

/-- The specification of `applyTransition`. -/
theorem applyTransition_ok {snapshot : CaseSnapshot} {command : TransitionCommand}
    {outcome : TransitionOutcome} (h : applyTransition snapshot command = .ok outcome) :
    Accepts snapshot command ∧ outcome = transitionOutcome snapshot command := by
  unfold applyTransition at h
  split_ifs at h with hid hversion hedge
  cases hactor : validateActor command with
  | error e => simp [hactor, bind, Except.bind] at h
  | ok u =>
    cases hevidence : validateTransitionConstraints command with
    | error e => simp [hactor, hevidence, bind, Except.bind] at h
    | ok u' =>
      simp only [hactor, hevidence, bind, Except.bind, pure, Except.pure, Except.ok.injEq] at h
      exact ⟨⟨not_not.mp hid, not_not.mp hversion, hedge, validateActor_ok hactor,
        validateTransitionConstraints_ok hevidence⟩, h.symm⟩

end NetopsCopilot
