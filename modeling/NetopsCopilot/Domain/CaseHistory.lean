import Mathlib.Data.List.Basic
import NetopsCopilot.Domain.Cases

/-!
# Histories of accepted commands

`Lawful cs s`: the commands `cs` were accepted one after the other and led a case from `new` to `s`. A
case can go round between `investigating` and `needs_information` any number of times, but past
`fix_proposed` there is one way, so a history that reached `confirmed`, `resolved` or `learned` ends with
exactly the moves into these states (`Lawful.confirmed`, `Lawful.resolved`, `Lawful.learned`).
-/

namespace NetopsCopilot

/-- Accepted commands, oldest first, and the state they lead to. -/
inductive Lawful : List TransitionCommand → CaseState → Prop where
  | nil : Lawful [] .new
  | snoc {cs s c} (h : Lawful cs s) (hedge : c.toState ∈ allowedTransitions s)
      (hactor : ActorAllowed c) (hevidence : Evidence c.toState c.approvalId c.verificationNote
        c.knowledgeItemId c.note) : Lawful (cs ++ [c]) c.toState

/-- The moves of a history into a state. -/
def movesInto (s : CaseState) (cs : List TransitionCommand) : List TransitionCommand :=
  cs.filter fun c => decide (c.toState = s)

/-- States from which `confirmed` has not been reached. -/
def CaseState.early : CaseState → Bool
  | .confirmed | .resolved | .learned => false
  | _ => true

/-- The state before a move, for the states with one way in. -/
def CaseState.predecessor : CaseState → CaseState
  | .diagnosed | .needsInformation => .investigating
  | .fixProposed => .diagnosed
  | .confirmed => .fixProposed
  | .resolved => .confirmed
  | .learned => .resolved
  | .new | .investigating => .new

/-- Only `investigating` has two ways in. -/
theorem eq_predecessor {s t : CaseState} (h : t ∈ allowedTransitions s) (ht : t ≠ .investigating) :
    s = t.predecessor := by
  revert h ht
  cases s <;> cases t <;> decide

theorem early_of_edge {s t : CaseState} (h : t ∈ allowedTransitions s) (ht : t.early = true) :
    s.early = true := by
  revert h ht
  cases s <;> cases t <;> decide

/-- The last move of a history. -/
structure LastMove (cs : List TransitionCommand) (s : CaseState) (before : List TransitionCommand)
    (c : TransitionCommand) : Prop where
  split : cs = before ++ [c]
  toState : c.toState = s
  actor : ActorAllowed c
  evidence : Evidence c.toState c.approvalId c.verificationNote c.knowledgeItemId c.note

theorem movesInto_snoc (t : CaseState) (cs : List TransitionCommand) (c : TransitionCommand) :
    movesInto t (cs ++ [c]) = movesInto t cs ++ if c.toState = t then [c] else [] := by
  by_cases h : c.toState = t <;> simp [movesInto, h]

namespace Lawful

variable {cs : List TransitionCommand} {s : CaseState}

theorem last (h : Lawful cs s) (hs : s ≠ .new) : ∃ before c, LastMove cs s before c := by
  cases h with
  | nil => exact absurd rfl hs
  | snoc _ _ hactor hevidence => exact ⟨_, _, rfl, rfl, hactor, hevidence⟩

/-- A history that ends in a state with one way in. -/
theorem last_of (h : Lawful cs s) (hs : s ≠ .new) (hi : s ≠ .investigating) :
    ∃ before c, LastMove cs s before c ∧ Lawful before s.predecessor := by
  cases h with
  | nil => exact absurd rfl hs
  | snoc h hedge hactor hevidence =>
    exact ⟨_, _, ⟨rfl, rfl, hactor, hevidence⟩, eq_predecessor hedge hi ▸ h⟩

/-- No command of a history came from a model. -/
theorem notModel (h : Lawful cs s) : ∀ c ∈ cs, c.actor.kind ≠ .model := by
  induction h with
  | nil => simp
  | snoc _ _ hactor _ ih =>
    intro c hc
    rcases List.mem_append.mp hc with hc | hc
    · exact ih c hc
    · rw [List.mem_singleton] at hc
      exact hc ▸ hactor.notModel

/-- Before `confirmed` there is no move into a later state. -/
theorem movesInto_early (h : Lawful cs s) (hs : s.early = true) {t : CaseState}
    (ht : t.early = false) : movesInto t cs = [] := by
  induction h with
  | nil => rfl
  | snoc _ hedge _ _ ih =>
    rw [movesInto_snoc, ih (early_of_edge hedge hs), if_neg, List.append_nil]
    rintro rfl
    rw [hs] at ht
    cases ht

/-- The way to a proposed fix. -/
theorem path (h : Lawful cs .fixProposed) :
    [CaseState.investigating, .diagnosed, .fixProposed].Sublist (cs.map (·.toState)) := by
  obtain ⟨cs₂, c₃, h₃, hlawful₂⟩ := h.last_of (by decide) (by decide)
  obtain ⟨cs₁, c₂, h₂, hlawful₁⟩ := hlawful₂.last_of (by decide) (by decide)
  obtain ⟨cs₀, c₁, h₁⟩ := hlawful₁.last (by decide)
  rw [h₃.split, h₂.split, h₁.split]
  simp only [List.map_append, List.map_cons, List.map_nil, h₃.toState, h₂.toState, h₁.toState,
    List.append_assoc, List.cons_append, List.nil_append, CaseState.predecessor]
  exact List.sublist_append_right _ _

end Lawful

/-! ### What the late states prove -/

/-- The confirmation of a history: one move, by a human approver with an approval, after the moves that
led to a proposed fix. -/
def Confirmed (cs : List TransitionCommand) : Prop :=
  ∃ before c after, cs = before ++ c :: after ∧ movesInto .confirmed cs = [c] ∧
    c.actor.kind = .human ∧ (∃ r ∈ c.actor.roles, r ∈ confirmRoles) ∧ c.approvalId ≠ none ∧
    [CaseState.investigating, .diagnosed, .fixProposed].Sublist (before.map (·.toState))

/-- The resolution of a history: one move, by a human with a write role and a verification note. -/
def Resolved (cs : List TransitionCommand) : Prop :=
  ∃ c, movesInto .resolved cs = [c] ∧ c.actor.kind = .human ∧
    (∃ r ∈ c.actor.roles, r ∈ caseWriteRoles) ∧ ∃ s ∈ c.verificationNote, isBlank s = false

/-- The end of a history: its last move is the one into `learned`, by a service with a knowledge
item. -/
def Learned (cs : List TransitionCommand) : Prop :=
  ∃ c, movesInto .learned cs = [c] ∧ cs.getLast? = some c ∧ c.actor.kind = .service ∧
    c.knowledgeItemId ≠ none

theorem exists_role {roles wanted : Finset CaseRole} (h : roles ∩ wanted ≠ ∅) :
    ∃ r ∈ roles, r ∈ wanted := by
  obtain ⟨r, hr⟩ := Finset.nonempty_iff_ne_empty.mpr h
  exact ⟨r, Finset.mem_inter.mp hr⟩

variable {cs : List TransitionCommand} {c : TransitionCommand}

/-- Later moves leave the confirmation. -/
theorem Confirmed.snoc (h : Confirmed cs) (hc : c.toState ≠ .confirmed) : Confirmed (cs ++ [c]) := by
  obtain ⟨before, d, after, rfl, hone, hrest⟩ := h
  exact ⟨before, d, after ++ [c], by simp, by rw [movesInto_snoc, hone, if_neg hc]; rfl, hrest⟩

/-- Later moves leave the resolution. -/
theorem Resolved.snoc (h : Resolved cs) (hc : c.toState ≠ .resolved) : Resolved (cs ++ [c]) := by
  obtain ⟨d, hone, hrest⟩ := h
  exact ⟨d, by rw [movesInto_snoc, hone, if_neg hc]; rfl, hrest⟩

namespace Lawful

theorem confirmed (h : Lawful cs .confirmed) : Confirmed cs ∧ movesInto .resolved cs = [] ∧
    movesInto .learned cs = [] := by
  obtain ⟨before, c, hlast, hbefore⟩ := h.last_of (by decide) (by decide)
  have hactor := hlast.actor.confirmed hlast.toState
  refine ⟨⟨before, c, [], by rw [hlast.split], ?_, hactor.1, exists_role hactor.2,
    hlast.evidence.approval hlast.toState, hbefore.path⟩, ?_, ?_⟩
  all_goals
    rw [hlast.split, movesInto_snoc, hbefore.movesInto_early rfl rfl]
    simp [hlast.toState]

theorem resolved (h : Lawful cs .resolved) : Confirmed cs ∧ Resolved cs ∧
    movesInto .learned cs = [] := by
  obtain ⟨before, c, hlast, hbefore⟩ := h.last_of (by decide) (by decide)
  have hactor := hlast.actor.resolved hlast.toState
  obtain ⟨hconfirmed, hnone, hnone'⟩ := confirmed hbefore
  obtain ⟨s, hs⟩ := Option.ne_none_iff_exists'.mp (hlast.evidence.verification hlast.toState)
  refine ⟨hlast.split ▸ hconfirmed.snoc (by simp [hlast.toState]), ⟨c, ?_, hactor.1,
    exists_role hactor.2, s, hs, c.verificationNoteOk s hs⟩, ?_⟩
  all_goals simp [hlast.split, movesInto_snoc, hnone, hnone', hlast.toState]

theorem learned (h : Lawful cs .learned) : Confirmed cs ∧ Resolved cs ∧ Learned cs := by
  obtain ⟨before, c, hlast, hbefore⟩ := h.last_of (by decide) (by decide)
  obtain ⟨hconfirmed, hresolved, hnone⟩ := resolved hbefore
  refine ⟨hlast.split ▸ hconfirmed.snoc (by simp [hlast.toState]),
    hlast.split ▸ hresolved.snoc (by simp [hlast.toState]), c, ?_, ?_,
    hlast.actor.learned hlast.toState, hlast.evidence.knowledge hlast.toState⟩
  all_goals simp [hlast.split, movesInto_snoc, hnone, hlast.toState]

end Lawful

/-- Nothing follows `learned`. -/
theorem applyTransition_learned (caseId : Uuid) (version : Nat) (command : TransitionCommand)
    (outcome : TransitionOutcome) : applyTransition ⟨caseId, .learned, version⟩ command ≠ .ok outcome := by
  intro h
  have hedge := (applyTransition_ok h).1.edge
  simp [allowedTransitions] at hedge

end NetopsCopilot
