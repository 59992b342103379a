import NetopsCopilot.Application.CaseSystem
import NetopsCopilot.Postgres.CaseWriters

/-!
# The state machine and the database rules agree

In one direction, the rows of a command `applyTransition` accepts satisfy the constraints of their
tables (`checks_movedTransitionRow` and its siblings), and a transaction whose commands have ended always
passes the deferred trigger, since each change of a case has its rows among the transaction's own writes
(`triggersPass_of_complete`). In the other direction, `commits_change` says what the constraints force on
any writer.
-/

namespace NetopsCopilot

open Txn

/-! ### Constraints on the rows of a move -/

section

variable {row : CaseRow} {snapshot : CaseSnapshot} {command : TransitionCommand}

theorem notBlankSql_of_isBlank {s : PyStr} (h : isBlank s = false) : notBlankSql s = true :=
  decide_eq_true (btrim_length_pos h)

theorem any_notBlankSql {note : Option PyStr} (hsome : note ≠ none)
    (h : ∀ s ∈ note, isBlank s = false) : note.any notBlankSql = true := by
  obtain ⟨s, rfl⟩ := Option.ne_none_iff_exists'.mp hsome
  exact notBlankSql_of_isBlank (h s rfl)

/-- `case_transitions` accepts the row of an accepted command, whatever its notes say. -/
theorem checks_transitionRow (h : Accepts snapshot command) (organizationId : Uuid) :
    (transitionRow organizationId (transitionOutcome snapshot command).transition
      command.actor).checks = true := by
  have hedge := (allowedEdge_iff (transitionRow organizationId
    (transitionOutcome snapshot command).transition command.actor)).mpr h.edge
  have hactor := h.actor
  have hevidence := h.evidence
  simp only [TransitionRow.checks, Bool.and_eq_true]
  refine ⟨⟨⟨⟨⟨⟨by simp [TransitionRow.versionPositive, transitionRow, transitionOutcome], ?_⟩, hedge⟩,
    ?_⟩, ?_⟩, ?_⟩, ?_⟩
  all_goals simp only [TransitionRow.actorKindKnown, TransitionRow.confirmation,
    TransitionRow.resolution, TransitionRow.learning, TransitionRow.needsInformation, transitionRow,
    transitionOutcome, Bool.or_eq_true, bne_iff_ne, Bool.and_eq_true, beq_iff_eq,
    Option.isSome_iff_ne_none]
  · cases hkind : command.actor.kind with
    | human => exact Or.inl rfl
    | service => exact Or.inr rfl
    | model => exact absurd hkind hactor.notModel
  · by_cases ht : command.toState = .confirmed
    · exact Or.inr ⟨(hactor.confirmed ht).1, hevidence.approval ht⟩
    · exact Or.inl ht
  · by_cases ht : command.toState = .resolved
    · exact Or.inr ⟨(hactor.resolved ht).1,
        any_notBlankSql (hevidence.verification ht) command.verificationNoteOk⟩
    · exact Or.inl ht
  · by_cases ht : command.toState = .learned
    · exact Or.inr ⟨hactor.learned ht, hevidence.knowledge ht⟩
    · exact Or.inl ht
  · by_cases ht : command.toState = .needsInformation
    · exact Or.inr (any_notBlankSql (hevidence.information ht) command.noteOk)
    · exact Or.inl ht

theorem notBlankSql_eventTypes (s : CaseState) : notBlankSql (eventTypes s) = true := by
  cases s <;> decide +kernel

theorem checks_eventRow (organizationId : Uuid) : (eventRow organizationId
    (transitionOutcome snapshot command).event (some command.transitionId) none).checks = true := by
  simp [EventRow.checks, eventRow, transitionOutcome, notBlankSql_eventTypes]

theorem checks_outboxRow (organizationId outboxId : Uuid) : (outboxRow organizationId
    (transitionOutcome snapshot command).event (some command.transitionId) none outboxId).checks =
      true := by
  simp [OutboxRow.checks, outboxRow, transitionOutcome, notBlankSql_eventTypes]

end

/-! ### The trigger at commit -/

/-- Rows inserted by a list of writes are in the state it leaves. -/
theorem mem_events_applyAll {ws : List SpineWrite} {e : EventRow} (h : .row (.insertEvent e) ∈ ws)
    (w : World) : e ∈ (caseStore.applyAll ws w).db.events := by
  obtain ⟨before, after, rfl⟩ := List.append_of_mem h
  rw [Store.applyAll_append, Store.applyAll_cons]
  refine (grows_applyAll after _).events.subset ?_
  simp [caseStore, SpineWrite.apply, CaseWrite.apply]

theorem mem_outbox_applyAll {ws : List SpineWrite} {o : OutboxRow} (h : .row (.insertOutbox o) ∈ ws)
    (w : World) : o ∈ (caseStore.applyAll ws w).db.outbox := by
  obtain ⟨before, after, rfl⟩ := List.append_of_mem h
  rw [Store.applyAll_append, Store.applyAll_cons]
  refine (grows_applyAll after _).outbox.subset ?_
  simp [caseStore, SpineWrite.apply, CaseWrite.apply]

theorem mem_transitions_applyAll {ws : List SpineWrite} {t : TransitionRow}
    (h : .row (.insertTransition t) ∈ ws) (w : World) :
    t ∈ (caseStore.applyAll ws w).db.transitions := by
  obtain ⟨before, after, rfl⟩ := List.append_of_mem h
  rw [Store.applyAll_append, Store.applyAll_cons]
  refine (grows_applyAll after _).transitions.subset ?_
  simp [caseStore, SpineWrite.apply, CaseWrite.apply]

/-- No state has an edge to itself. -/
theorem not_allowed_self (s : CaseState) : s ∉ allowedTransitions s := by cases s <;> decide

/-- **Complete writes pass the trigger**, whatever they are committed on. -/
theorem triggersPass_of_complete {ws : List SpineWrite} (h : Complete ws) (w : World) :
    triggersPass ws w = true := by
  rw [triggersPass, List.all_eq_true]
  intro change hchange
  have hdoc := h change hchange
  cases change with
  | inserted new =>
    obtain ⟨hstate, hversion, e, o, he, ho, hcreation, hof⟩ := hdoc
    refine passes_of_inserted hstate hversion ?_
    simp only [hasCreationHistory, List.any_eq_true, Bool.and_eq_true, beq_iff_eq]
    exact ⟨e, mem_events_applyAll he w, ⟨⟨⟨⟨hcreation.1, hcreation.2⟩, hcreation.5⟩, hcreation.4⟩,
      hcreation.3⟩, o, mem_outbox_applyAll ho w, ⟨⟨⟨hof.1, hof.2⟩, hof.3.trans hcreation.2⟩,
      hof.4.trans hcreation.4⟩, hof.5⟩
  | updated old new =>
    obtain ⟨hedge, hversion, t, e, o, ht, he, ho, horg, hcase, hfrom, hto, hnumber, heof, hof⟩ := hdoc
    refine passes_of_updated (fun heq => not_allowed_self _ (heq ▸ hedge)) hversion ?_
    simp only [hasTransitionHistory, List.any_eq_true, Bool.and_eq_true, beq_iff_eq]
    exact ⟨t, mem_transitions_applyAll ht w, ⟨⟨⟨⟨horg, hcase⟩, hfrom⟩, hto⟩, hnumber⟩,
      e, mem_events_applyAll he w, ⟨⟨⟨heof.1, heof.2⟩, heof.3⟩, heof.4.trans hnumber⟩,
      o, mem_outbox_applyAll ho w, ⟨⟨⟨hof.1, hof.2⟩, hof.3.trans (heof.2.trans hcase)⟩,
      hof.4.trans (heof.4.trans hnumber)⟩, hof.5⟩

/-- **The two rule sets agree.** Rows of accepted commands satisfy every constraint and their
transactions pass the trigger; a transaction of any writer that passes the constraints changes the state
of a case only by one allowed edge with its evidence. -/
theorem rules_agree :
    (∀ organizationId outboxId snapshot command outcome,
      applyTransition snapshot command = .ok outcome →
        (transitionRow organizationId outcome.transition command.actor).checks = true ∧
        (eventRow organizationId outcome.event (some outcome.event.transitionId) none).checks = true ∧
        (outboxRow organizationId outcome.event (some outcome.event.transitionId) none
          outboxId).checks = true) ∧
    (∀ sha256 w₀, w₀.Absent → ∀ s, (spineSystem sha256 fun _ => True).Reachable w₀ s →
      ∀ i, (s.client i).running = none → triggersPass (s.client i).pending s.committed = true) ∧
    (∀ db changes, Written db → Commits db changes → ∀ old new, .updateCase old new ∈ changes →
      new.state ≠ old.state →
        new.state ∈ allowedTransitions old.state ∧ new.version = old.version + 1 ∧
        ∃ t ∈ (afterChanges changes db).transitions, t.caseId = new.id ∧ t.fromState = old.state ∧
          t.toState = new.state ∧ t.version = new.version ∧ SqlEvidence t) := by
  refine ⟨?_, ?_, fun db changes hdb hc old new => commits_change hdb hc⟩
  · intro organizationId outboxId snapshot command outcome h
    obtain ⟨hacc, rfl⟩ := applyTransition_ok h
    exact ⟨checks_transitionRow hacc organizationId, checks_eventRow organizationId,
      checks_outboxRow organizationId outboxId⟩
  · intro sha256 w₀ h₀ s hs i hidle
    have hinv := (spineSystem_sound sha256 _).reachable_inv (coherent_of_absent h₀) hs
    exact triggersPass_of_complete ((Sound.clientInv_idle hidle).mp (hinv.client i)).2.complete _

/-- The rows of the sample move on a new case, as one transaction of some writer. -/
def sampleChanges : List RowChange :=
  let old := insertCaseRow (fun _ => zeroSha256) 7 sampleCreate
  let outcome := transitionOutcome ⟨10, .new, 0⟩ sampleMove
  [.updateCase old { old with state := .investigating, version := 1, updatedAt := 200 },
    .insertTransition (transitionRow 7 outcome.transition sampleOperator),
    .insertEvent (eventRow 7 outcome.event (some 20) none),
    .insertOutbox (outboxRow 7 outcome.event (some 20) none 32)]

/-- Of the sample move: its rows pass the constraints, and written by anyone they are an allowed edge. -/
theorem rules_agree_sample :
    (transitionRow 7 (transitionOutcome ⟨10, .new, 0⟩ sampleMove).transition
      sampleOperator).checks = true ∧
    ∃ t ∈ (afterChanges sampleChanges {}).transitions, t.fromState = .new ∧
      t.toState = .investigating ∧ SqlEvidence t := by
  have hcommits : Commits {} sampleChanges := ⟨by decide +kernel, by decide +kernel⟩
  obtain ⟨hrows, -, hwriter⟩ := rules_agree
  obtain ⟨-, -, t, ht, -, hfrom, hto, -, hevidence⟩ := hwriter {} sampleChanges (.empty rfl) hcommits
    (insertCaseRow (fun _ => zeroSha256) 7 sampleCreate)
    { insertCaseRow (fun _ => zeroSha256) 7 sampleCreate with
      state := .investigating, version := 1, updatedAt := 200 } List.mem_cons_self (by decide)
  exact ⟨(hrows 7 32 ⟨10, .new, 0⟩ sampleMove _ rfl).1, t, ht, hfrom, hto, hevidence⟩

end NetopsCopilot
