import Mathlib.Algebra.Order.Group.Defs
import Mathlib.Algebra.Order.Group.Basic
import Mathlib.Data.List.Count
import Mathlib.Tactic.Abel

/-!
# Fixed-window admission

The calls of one client: the first call behind the end of the last window opens a new one, and a window admits
at most `limit` calls. Windows do not overlap (`trace_apart`), so a window admits at most `limit` calls
(`countP_window`) and no interval of a window's length holds more than twice as many (`countP_interval`).
-/

namespace FixedWindow

variable {T : Type} [AddCommGroup T] [LinearOrder T]

structure Window (T : Type) where
  startedAt : T
  requests : ℕ
deriving DecidableEq

/-- The decision on one call, and the window after it. -/
structure Decision (T : Type) where
  time : T
  allowed : Bool
  window : Window T

/-- One call. -/
def enter (limit : ℕ) (span : T) (window : Option (Window T)) (now : T) : Bool × Window T :=
  match window with
  | none => (true, ⟨now, 1⟩)
  | some w =>
    if span ≤ now - w.startedAt then (true, ⟨now, 1⟩)
    else if limit ≤ w.requests then (false, w)
    else (true, { w with requests := w.requests + 1 })

/-- The calls one after another. -/
def trace (limit : ℕ) (span : T) : Option (Window T) → List T → List (Decision T)
  | _, [] => []
  | window, now :: nows =>
    let (allowed, w) := enter limit span window now
    ⟨now, allowed, w⟩ :: trace limit span (some w) nows

variable {limit : ℕ} {span now : T} {window : Option (Window T)} {w : Window T} {nows : List T}

/-! ### One call -/

theorem enter_none : enter limit span none now = (true, ⟨now, 1⟩) := rfl

theorem enter_expired (h : span ≤ now - w.startedAt) : enter limit span (some w) now = (true, ⟨now, 1⟩) :=
  if_pos h

theorem enter_full (h : now - w.startedAt < span) (hfull : limit ≤ w.requests) :
    enter limit span (some w) now = (false, w) := by
  rw [enter, if_neg (not_le.mpr h), if_pos hfull]

theorem enter_room (h : now - w.startedAt < span) (hroom : w.requests < limit) :
    enter limit span (some w) now = (true, { w with requests := w.requests + 1 }) := by
  rw [enter, if_neg (not_le.mpr h), if_neg (not_le.mpr hroom)]

/-- A window that has ended does not matter. -/
theorem enter_filter (limit : ℕ) (span now : T) (window : Option (Window T)) :
    enter limit span (window.filter fun w => decide (now - w.startedAt < span)) now =
      enter limit span window now := by
  cases window with
  | none => rfl
  | some w =>
    by_cases h : now - w.startedAt < span
    · rw [Option.filter_some, if_pos (by simpa using h)]
    · rw [Option.filter_some, if_neg (by simpa using h), enter_none, enter_expired (not_lt.mp h)]

/-- The window after a call has not ended. -/
theorem enter_live (limit : ℕ) (hspan : 0 < span) (window : Option (Window T)) (now : T) :
    now - (enter limit span window now).2.startedAt < span := by
  cases window with
  | none =>
    rw [enter_none, sub_self]
    exact hspan
  | some w =>
    by_cases h : span ≤ now - w.startedAt
    · rw [enter_expired h, sub_self]
      exact hspan
    · have hlt := not_le.mp h
      by_cases hfull : limit ≤ w.requests
      · rwa [enter_full hlt hfull]
      · rwa [enter_room hlt (not_le.mp hfull)]

/-! ### A call and its window -/

/-- A call falls in its window. -/
theorem trace_live (limit : ℕ) (hspan : 0 < span) (window : Option (Window T)) (nows : List T) :
    ∀ d ∈ trace limit span window nows, d.time - d.window.startedAt < span := by
  induction nows generalizing window with
  | nil => exact nofun
  | cons now nows ih =>
    intro d hd
    rcases List.mem_cons.mp hd with rfl | hd
    · exact enter_live limit hspan window now
    · exact ih (some _) d hd

theorem trace_started (limit : ℕ) (span : T) (hsorted : nows.Pairwise (· ≤ ·))
    (hwindow : ∀ w, window = some w → ∀ now ∈ nows, w.startedAt ≤ now) :
    ∀ d ∈ trace limit span window nows, d.window.startedAt ≤ d.time := by
  induction nows generalizing window with
  | nil => exact nofun
  | cons now nows ih =>
    obtain ⟨hnow, hsorted⟩ := List.pairwise_cons.mp hsorted
    have hstart : (enter limit span window now).2.startedAt ≤ now := by
      cases window with
      | none => exact le_rfl
      | some w =>
        have hw := hwindow w rfl now List.mem_cons_self
        by_cases hexpired : span ≤ now - w.startedAt
        · rw [enter_expired hexpired]
        · have hlt := not_le.mp hexpired
          by_cases hfull : limit ≤ w.requests
          · rwa [enter_full hlt hfull]
          · rwa [enter_room hlt (not_le.mp hfull)]
    intro d hd
    rcases List.mem_cons.mp hd with rfl | hd
    · exact hstart
    · refine ih hsorted ?_ d hd
      rintro w ⟨⟩ later hlater
      exact hstart.trans (hnow later hlater)

/-! ### Windows do not overlap -/

section

variable [IsOrderedAddMonoid T]

theorem enter_apart (limit : ℕ) (span : T) (w : Window T) (now : T) :
    (enter limit span (some w) now).2.startedAt = w.startedAt ∨
      w.startedAt + span ≤ (enter limit span (some w) now).2.startedAt := by
  by_cases hexpired : span ≤ now - w.startedAt
  · rw [enter_expired hexpired]
    exact Or.inr (by rwa [add_comm, ← le_sub_iff_add_le])
  · have hlt := not_le.mp hexpired
    by_cases hfull : limit ≤ w.requests
    · rw [enter_full hlt hfull]
      exact Or.inl rfl
    · rw [enter_room hlt (not_le.mp hfull)]
      exact Or.inl rfl

/-- Behind a window come its own calls and those of windows that start after its end. -/
theorem trace_start (hspan : 0 < span) :
    ∀ d ∈ trace limit span (some w) nows,
      d.window.startedAt = w.startedAt ∨ w.startedAt + span ≤ d.window.startedAt := by
  induction nows generalizing w with
  | nil => exact nofun
  | cons now nows ih =>
    intro d hd
    have hfirst := enter_apart limit span w now
    rcases List.mem_cons.mp hd with rfl | hd
    · exact hfirst
    · rcases hfirst with hsame | hlater
      · rw [← hsame]
        exact ih d hd
      · refine Or.inr ?_
        rcases ih d hd with heq | hle
        · rwa [heq]
        · exact hlater.trans ((le_add_of_nonneg_right hspan.le).trans hle)

theorem trace_pairwise (hspan : 0 < span) (window : Option (Window T)) (nows : List T) :
    (trace limit span window nows).Pairwise fun d d' =>
      d'.window.startedAt = d.window.startedAt ∨ d.window.startedAt + span ≤ d'.window.startedAt := by
  induction nows generalizing window with
  | nil => exact .nil
  | cons now nows ih => exact .cons (fun d' hd' => trace_start hspan d' hd') (ih _)

/-- Two windows are one, or the one starts behind the end of the other. -/
theorem trace_apart (hspan : 0 < span) (window : Option (Window T)) (nows : List T) :
    ∀ ⦃d⦄, d ∈ trace limit span window nows → ∀ ⦃d'⦄, d' ∈ trace limit span window nows →
      d'.window.startedAt = d.window.startedAt ∨ d.window.startedAt + span ≤ d'.window.startedAt ∨
        d'.window.startedAt + span ≤ d.window.startedAt := by
  have hpairwise := @trace_pairwise T _ _ limit span _ hspan window nows
  refine List.Pairwise.forall_of_forall_of_flip (fun _ _ => Or.inl rfl) ?_ ?_
  · exact hpairwise.imp fun h => h.imp_right Or.inl
  · exact hpairwise.imp fun h => h.imp Eq.symm Or.inr

/-! ### Calls in a window -/

/-- The calls that a window still admits. -/
theorem countP_window_of_start (hspan : 0 < span) (hroom : w.requests ≤ limit) :
    (trace limit span (some w) nows).countP (fun d => d.allowed && decide (d.window.startedAt = w.startedAt)) +
      w.requests ≤ limit := by
  induction nows generalizing w with
  | nil => simpa [trace] using hroom
  | cons now nows ih =>
    by_cases hexpired : span ≤ now - w.startedAt
    · -- a new window starts, and no later one starts where the old one did
      have hstart : w.startedAt + span ≤ now := by rwa [add_comm, ← le_sub_iff_add_le]
      have hnone : (trace limit span (some w) (now :: nows)).countP
          (fun d => d.allowed && decide (d.window.startedAt = w.startedAt)) = 0 := by
        rw [List.countP_eq_zero]
        intro d hd
        have hne : d.window.startedAt ≠ w.startedAt := by
          have hlater : now ≤ d.window.startedAt := by
            rw [trace, enter_expired hexpired] at hd
            rcases List.mem_cons.mp hd with rfl | hd
            · exact le_rfl
            · rcases trace_start hspan d hd with heq | hle
              · exact heq.ge
              · exact (le_add_of_nonneg_right hspan.le).trans hle
          exact ((lt_add_of_pos_right _ hspan).trans_le (hstart.trans hlater)).ne'
        simp [hne]
      omega
    · have hlt := not_le.mp hexpired
      by_cases hfull : limit ≤ w.requests
      · rw [trace, enter_full hlt hfull, List.countP_cons_of_neg (by simp)]
        exact ih hroom
      · have hless := not_le.mp hfull
        rw [trace, enter_room hlt hless, List.countP_cons_of_pos (by simp)]
        have hrest := @ih { w with requests := w.requests + 1 } hless
        dsimp only at hrest
        omega

/-- A window admits at most `limit` calls. -/
theorem countP_window (hspan : 0 < span) (hlimit : 1 ≤ limit) (start : T) (window : Option (Window T))
    (nows : List T) (hwindow : ∀ w, window = some w → w.requests ≤ limit) :
    (trace limit span window nows).countP (fun d => d.allowed && decide (d.window.startedAt = start)) ≤ limit := by
  induction nows generalizing window with
  | nil => exact Nat.zero_le _
  | cons now nows ih =>
    -- a call that opens a window
    have hopens : enter limit span window now = (true, ⟨now, 1⟩) →
        (trace limit span window (now :: nows)).countP
          (fun d => d.allowed && decide (d.window.startedAt = start)) ≤ limit := by
      intro henter
      have hrest : ∀ w', some (⟨now, 1⟩ : Window T) = some w' → w'.requests ≤ limit := by
        rintro w' ⟨⟩
        exact hlimit
      rw [trace, henter]
      by_cases hstart : now = start
      · rw [List.countP_cons_of_pos (by simpa using hstart), ← hstart]
        exact @countP_window_of_start T _ _ limit span ⟨now, 1⟩ nows _ hspan hlimit
      · rw [List.countP_cons_of_neg (by simpa using hstart)]
        exact ih _ hrest
    cases window with
    | none => exact hopens enter_none
    | some w =>
      by_cases hexpired : span ≤ now - w.startedAt
      · exact hopens (enter_expired hexpired)
      · by_cases hstart : w.startedAt = start
        · rw [← hstart]
          exact (Nat.le_add_right _ _).trans (countP_window_of_start hspan (hwindow w rfl))
        · have hlt := not_le.mp hexpired
          by_cases hfull : limit ≤ w.requests
          · rw [trace, enter_full hlt hfull, List.countP_cons_of_neg (by simp)]
            exact ih _ hwindow
          · have hless := not_le.mp hfull
            rw [trace, enter_room hlt hless, List.countP_cons_of_neg (by simpa using hstart)]
            refine ih _ ?_
            rintro w' ⟨⟩
            exact hless

/-! ### Calls in an interval -/

/-- The calls whose windows start less than a window's length apart. -/
theorem countP_starts (hspan : 0 < span) (hlimit : 1 ≤ limit) (nows : List T) (p : T → Bool)
    (hp : ∀ s s', p s = true → p s' = true → s' < s + span) :
    (trace limit span none nows).countP (fun d => d.allowed && p d.window.startedAt) ≤ limit := by
  by_cases hsome : ∃ d ∈ trace limit span none nows, p d.window.startedAt = true
  · obtain ⟨d, hd, hpd⟩ := hsome
    refine le_trans ?_ (countP_window hspan hlimit d.window.startedAt none nows nofun)
    refine List.countP_mono_left fun d' hd' h => ?_
    rw [Bool.and_eq_true] at h ⊢
    refine ⟨h.1, decide_eq_true ?_⟩
    rcases trace_apart hspan none nows hd hd' with heq | hle | hle
    · exact heq
    · exact absurd (hp _ _ hpd h.2) (not_lt.mpr hle)
    · exact absurd (hp _ _ h.2 hpd) (not_lt.mpr hle)
  · have hnone : (trace limit span none nows).countP (fun d => d.allowed && p d.window.startedAt) = 0 := by
      rw [List.countP_eq_zero]
      intro d hd h
      rw [Bool.and_eq_true] at h
      exact hsome ⟨d, hd, h.2⟩
    omega

/-- An interval of a window's length, with both its ends, meets at most two windows. -/
theorem countP_interval (hspan : 0 < span) (hlimit : 1 ≤ limit) (hsorted : nows.Pairwise (· ≤ ·)) (t : T) :
    (trace limit span none nows).countP
      (fun d => d.allowed && (decide (t ≤ d.time) && decide (d.time ≤ t + span))) ≤ 2 * limit := by
  have hbefore := countP_starts hspan hlimit nows
    (fun s => decide (t - span < s) && decide (s ≤ t)) (by
      intro s s' hs hs'
      simp only [Bool.and_eq_true, decide_eq_true_eq] at hs hs'
      exact hs'.2.trans_lt (sub_lt_iff_lt_add.mp hs.1))
  have hafter := countP_starts hspan hlimit nows
    (fun s => decide (t < s) && decide (s ≤ t + span)) (by
      intro s s' hs hs'
      simp only [Bool.and_eq_true, decide_eq_true_eq] at hs hs'
      exact hs'.2.trans_lt (add_lt_add_of_lt_of_le hs.1 le_rfl))
  have hsplit : (trace limit span none nows).countP
      (fun d => d.allowed && (decide (t ≤ d.time) && decide (d.time ≤ t + span))) ≤
      (trace limit span none nows).countP
        (fun d => d.allowed && (decide (t - span < d.window.startedAt) && decide (d.window.startedAt ≤ t))) +
      (trace limit span none nows).countP
        (fun d => d.allowed && (decide (t < d.window.startedAt) && decide (d.window.startedAt ≤ t + span))) := by
    have hlive := trace_live limit hspan none nows
    have hstarted := @trace_started T _ _ none nows limit span hsorted nofun
    generalize trace limit span none nows = decisions at hlive hstarted ⊢
    induction decisions with
    | nil => exact Nat.zero_le _
    | cons d decisions ih =>
      have ih := ih (fun d hd => hlive d (List.mem_cons_of_mem _ hd))
        (fun d hd => hstarted d (List.mem_cons_of_mem _ hd))
      have hlive := hlive d List.mem_cons_self
      have hstarted := hstarted d List.mem_cons_self
      rw [List.countP_cons, List.countP_cons, List.countP_cons]
      have hcase : d.allowed = true → t ≤ d.time → d.time ≤ t + span →
          t - span < d.window.startedAt ∧ d.window.startedAt ≤ t ∨
            t < d.window.startedAt ∧ d.window.startedAt ≤ t + span := by
        intro _ hle hle'
        by_cases hstart : d.window.startedAt ≤ t
        · refine Or.inl ⟨?_, hstart⟩
          have hlt : d.time - span < d.window.startedAt := sub_lt_comm.mp hlive
          exact (sub_le_sub_right hle span).trans_lt hlt
        · exact Or.inr ⟨not_le.mp hstart, hstarted.trans hle'⟩
      simp only [Bool.and_eq_true, decide_eq_true_eq]
      split_ifs with h₁ h₂ h₃ h₃ h₂ h₃ h₃ <;> first | omega | skip
      exact absurd (hcase h₁.1 h₁.2.1 h₁.2.2) (by tauto)
  omega

end

/-! ### Calls one after another -/

/-- The call behind a call meets the window it left. -/
theorem trace_next {before after : List (Decision T)} {d d' : Decision T}
    (h : trace limit span window nows = before ++ d :: d' :: after) :
    (d'.allowed, d'.window) = enter limit span (some d.window) d'.time := by
  induction nows generalizing window before with
  | nil => exact absurd h (by simp [trace])
  | cons now nows ih =>
    cases before with
    | nil =>
      rw [trace] at h
      obtain ⟨rfl, hrest⟩ := List.cons.inj h
      cases nows with
      | nil => cases hrest
      | cons next nows =>
        rw [trace] at hrest
        obtain ⟨rfl, -⟩ := List.cons.inj hrest
        rfl
    | cons b before =>
      obtain ⟨-, hrest⟩ := List.cons.inj h
      exact ih hrest

end FixedWindow
