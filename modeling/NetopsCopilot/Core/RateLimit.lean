import Mathlib.Algebra.Order.Ring.Rat
import Mathlib.Data.List.AList
import Mathlib.Data.Rat.Floor
import Mathlib.Tactic.Linarith
import NetopsCopilot.Lib.FixedWindow
import NetopsCopilot.Python.Text

/-!
# The rate limiter (`core/rate_limit.py`, `RateLimitMiddleware` in `core/middleware.py`)

The limiter keeps one window per key and drops all windows that have ended on every call. The lock makes a call
atomic, so a run is a sequence of calls; times are seconds, and differences of them are exact. A key's decisions are
those of a limiter without pruning that sees only its own calls (`view_decisions`).
-/

namespace NetopsCopilot

open FixedWindow

/-! ### The limiter -/

/-- The arguments of `FixedWindowRateLimiter`, in the bounds of the settings. -/
structure RateLimits where
  maxRequests : ℕ
  windowSeconds : ℕ
  one_le_maxRequests : 1 ≤ maxRequests
  one_le_windowSeconds : 1 ≤ windowSeconds

/-- `self._windows`. -/
abbrev RateWindows := AList fun _ : PyStr => Window ℚ

/-- `int` on a number. -/
def truncate (q : ℚ) : ℤ := if 0 ≤ q then ⌊q⌋ else ⌈q⌉

namespace RateLimits

variable (limits : RateLimits)

/-- The seconds until a window ends, rounded up to a whole number and beyond. -/
def retryAfter (window : Window ℚ) (now : ℚ) : ℤ :=
  let remaining := limits.windowSeconds - (now - window.startedAt)
  max 1 (truncate remaining + 1)

/-- `_prune`. -/
def prune (now : ℚ) (windows : RateWindows) : RateWindows :=
  let expiredKeys := (windows.entries.filter fun e => (limits.windowSeconds : ℚ) ≤ now - e.2.startedAt).map (·.1)
  expiredKeys.foldl (fun windows key => windows.erase key) windows

/-- `check`, at the time `now`. -/
def check (windows : RateWindows) (key : PyStr) (now : ℚ) : (Bool × ℤ) × RateWindows :=
  let windows := limits.prune now windows
  match windows.lookup key with
  | none => ((true, 0), windows.insert key ⟨now, 1⟩)
  | some window =>
    if limits.windowSeconds ≤ now - window.startedAt then ((true, 0), windows.insert key ⟨now, 1⟩)
    else if limits.maxRequests ≤ window.requests then ((false, limits.retryAfter window now), windows)
    else ((true, 0), windows.insert key { window with requests := window.requests + 1 })

end RateLimits

/-! ### Runs -/

/-- A call of `check`. -/
structure RateCall where
  key : PyStr
  time : ℚ

/-- A call, its result, and the windows stored after it. -/
structure RateDecision where
  key : PyStr
  time : ℚ
  allowed : Bool
  retryAfter : ℤ
  windows : RateWindows

/-- The window of the key after its call. -/
def RateDecision.window (d : RateDecision) : Window ℚ := (d.windows.lookup d.key).getD ⟨d.time, 0⟩

namespace RateLimits

variable (limits : RateLimits)

def decision (windows : RateWindows) (call : RateCall) : RateDecision :=
  let ((allowed, retryAfter), windows) := limits.check windows call.key call.time
  ⟨call.key, call.time, allowed, retryAfter, windows⟩

/-- The calls one after another. -/
def decisions : RateWindows → List RateCall → List RateDecision
  | _, [] => []
  | windows, call :: calls =>
    let d := limits.decision windows call
    d :: decisions d.windows calls

/-- The results of a limiter without pruning that sees the calls of one key only. -/
def ownResults (times : List ℚ) : List (Bool × ℤ) :=
  (trace limits.maxRequests (limits.windowSeconds : ℚ) none times).map fun d =>
    (d.allowed, if d.allowed then 0 else limits.retryAfter d.window d.time)

end RateLimits

/-! ### Pruning -/

section

variable {limits : RateLimits} {windows : RateWindows} {key other : PyStr} {now later : ℚ}

theorem RateLimits.span_pos (limits : RateLimits) : (0 : ℚ) < limits.windowSeconds :=
  Nat.cast_pos.mpr limits.one_le_windowSeconds

/-- A window that has not ended. -/
def RateLimits.live (limits : RateLimits) (now : ℚ) (window : Window ℚ) : Bool :=
  decide (now - window.startedAt < limits.windowSeconds)

theorem lookup_foldl_erase (keys : List PyStr) (windows : RateWindows) (key : PyStr) :
    (keys.foldl (fun windows key => windows.erase key) windows).lookup key =
      if key ∈ keys then none else windows.lookup key := by
  induction keys generalizing windows with
  | nil => rfl
  | cons k keys ih =>
    rw [List.foldl_cons, ih]
    by_cases hkey : key = k
    · rw [hkey, AList.lookup_erase, if_pos List.mem_cons_self, ite_self]
    · rw [AList.lookup_erase_ne hkey]
      simp [hkey]

/-- Pruning drops the windows that have ended. -/
theorem lookup_prune (limits : RateLimits) (now : ℚ) (windows : RateWindows) (key : PyStr) :
    (limits.prune now windows).lookup key = (windows.lookup key).filter (limits.live now) := by
  unfold RateLimits.prune
  rw [lookup_foldl_erase]
  cases hlookup : windows.lookup key with
  | none => exact ite_self _
  | some w =>
    have hmem : (⟨key, w⟩ : Sigma fun _ : PyStr => Window ℚ) ∈ windows.entries :=
      AList.mem_lookup_iff.mp hlookup
    rw [Option.filter_some]
    by_cases hexpired : (limits.windowSeconds : ℚ) ≤ now - w.startedAt
    · rw [if_pos, if_neg]
      · simpa [RateLimits.live] using hexpired
      · exact List.mem_map.mpr ⟨_, List.mem_filter.mpr ⟨hmem, decide_eq_true hexpired⟩, rfl⟩
    · rw [if_neg, if_pos]
      · simpa [RateLimits.live] using hexpired
      · intro hkeys
        obtain ⟨⟨k, w'⟩, he, rfl⟩ := List.mem_map.mp hkeys
        obtain ⟨he, hw'⟩ := List.mem_filter.mp he
        have hsame : some w' = some w := (AList.mem_lookup_iff.mpr he).symm.trans hlookup
        rw [Option.some.inj hsame] at hw'
        exact hexpired (of_decide_eq_true hw')

/-! ### One call -/

/-- What a call answers and stores: the key's window is admitted to, and the others are pruned. -/
theorem check_spec (limits : RateLimits) (windows : RateWindows) (key : PyStr) (now : ℚ) :
    ∃ allowed window, enter limits.maxRequests (limits.windowSeconds : ℚ) (windows.lookup key) now =
        (allowed, window) ∧
      (limits.check windows key now).1 = (allowed, if allowed then 0 else limits.retryAfter window now) ∧
      (limits.check windows key now).2.lookup key = some window ∧
      ∀ other, other ≠ key →
        (limits.check windows key now).2.lookup other = (windows.lookup other).filter (limits.live now) := by
  have hpruned := lookup_prune limits now windows
  have henter := enter_filter limits.maxRequests (limits.windowSeconds : ℚ) now (windows.lookup key)
  have hkey : (limits.prune now windows).lookup key =
      (windows.lookup key).filter fun w => decide (now - w.startedAt < (limits.windowSeconds : ℚ)) := hpruned key
  rw [← hkey] at henter
  have hinsert : ∀ window other, other ≠ key → ((limits.prune now windows).insert key window).lookup other =
      (windows.lookup other).filter (limits.live now) := by
    intro window other hne
    rw [AList.lookup_insert_ne hne, hpruned]
  rw [← henter]
  unfold RateLimits.check
  dsimp only
  cases hlookup : (limits.prune now windows).lookup key with
  | none => exact ⟨true, ⟨now, 1⟩, enter_none, rfl, AList.lookup_insert _, hinsert _⟩
  | some w =>
    by_cases hexpired : (limits.windowSeconds : ℚ) ≤ now - w.startedAt
    · rw [enter_expired hexpired]
      dsimp only
      rw [if_pos hexpired]
      exact ⟨true, ⟨now, 1⟩, rfl, rfl, AList.lookup_insert _, hinsert _⟩
    · have hlt := not_le.mp hexpired
      by_cases hfull : limits.maxRequests ≤ w.requests
      · rw [enter_full hlt hfull]
        dsimp only
        rw [if_neg hexpired, if_pos hfull]
        exact ⟨false, w, rfl, rfl, hlookup, fun other _ => hpruned other⟩
      · rw [enter_room hlt (not_le.mp hfull)]
        dsimp only
        rw [if_neg hexpired, if_neg hfull]
        exact ⟨true, _, rfl, rfl, AList.lookup_insert _, hinsert _⟩

theorem live_of_check {window : Window ℚ} (h : (limits.check windows key now).2.lookup other = some window) :
    now - window.startedAt < limits.windowSeconds := by
  obtain ⟨allowed, w, henter, -, hkey, hothers⟩ := check_spec limits windows key now
  by_cases hother : other = key
  · rw [hother, hkey] at h
    have hlive := enter_live limits.maxRequests limits.span_pos (windows.lookup key) now
    rw [henter] at hlive
    rwa [← Option.some.inj h]
  · rw [hothers other hother] at h
    exact of_decide_eq_true (Option.filter_eq_some_iff.mp h).2

/-! ### All calls -/

/-- The decision as the key's own limiter makes it. -/
def RateDecision.view (d : RateDecision) : Decision ℚ := ⟨d.time, d.allowed, d.window⟩

/-- The windows that have not ended at one of the times are the same. -/
def SameLive (limits : RateLimits) (times : List ℚ) (stored own : Option (Window ℚ)) : Prop :=
  ∀ now ∈ times, stored.filter (limits.live now) = own.filter (limits.live now)

theorem view_decision {call : RateCall} {allowed : Bool} {window : Window ℚ}
    (hresult : (limits.check windows call.key call.time).1.1 = allowed)
    (hkey : (limits.check windows call.key call.time).2.lookup call.key = some window) :
    (limits.decision windows call).view = ⟨call.time, allowed, window⟩ := by
  show (⟨call.time, (limits.check windows call.key call.time).1.1,
    ((limits.check windows call.key call.time).2.lookup call.key).getD ⟨call.time, 0⟩⟩ : Decision ℚ) = _
  rw [hresult, hkey]
  rfl

theorem filter_live (hle : now ≤ later) (window : Option (Window ℚ)) :
    (window.filter (limits.live now)).filter (limits.live later) = window.filter (limits.live later) := by
  cases window with
  | none => rfl
  | some w =>
    rw [Option.filter_some]
    split_ifs with hlive
    · rfl
    · rw [Option.filter_some, if_neg]
      · rfl
      · simp only [RateLimits.live, decide_eq_true_eq] at hlive ⊢
        linarith

theorem enter_congr {stored own : Option (Window ℚ)}
    (h : stored.filter (limits.live now) = own.filter (limits.live now)) :
    enter limits.maxRequests (limits.windowSeconds : ℚ) stored now =
      enter limits.maxRequests (limits.windowSeconds : ℚ) own now := by
  rw [← enter_filter _ _ _ stored, ← enter_filter _ _ _ own]
  exact congrArg (enter _ _ · now) h

/-- **A key's decisions are those of its own limiter.** -/
theorem view_decisions {calls : List RateCall} (hsorted : (calls.map (·.time)).Pairwise (· ≤ ·))
    {own : Option (Window ℚ)} (hsame : SameLive limits (calls.map (·.time)) (windows.lookup key) own) :
    ((limits.decisions windows calls).filter fun d => d.key == key).map RateDecision.view =
      trace limits.maxRequests (limits.windowSeconds : ℚ) own
        ((calls.filter fun call => call.key == key).map (·.time)) := by
  induction calls generalizing windows own with
  | nil => rfl
  | cons call calls ih =>
    rw [List.map_cons, List.pairwise_cons] at hsorted
    obtain ⟨hlater, hsorted⟩ := hsorted
    obtain ⟨allowed, window, henter, hresult, hkey, hothers⟩ := check_spec limits windows call.key call.time
    have hnow := hsame call.time List.mem_cons_self
    rw [RateLimits.decisions]
    by_cases hcall : call.key = key
    · have henter' : enter limits.maxRequests (limits.windowSeconds : ℚ) own call.time = (allowed, window) := by
        rw [← enter_congr hnow, ← hcall, henter]
      have hmine : (limits.decision windows call).key = key := hcall
      rw [List.filter_cons_of_pos (by simpa using hmine), List.filter_cons_of_pos (by simpa using hcall),
        List.map_cons, List.map_cons, trace, henter', view_decision (congrArg Prod.fst hresult) hkey]
      refine congrArg (_ :: ·) (ih hsorted fun _ _ => ?_)
      have hstored : (limits.decision windows call).windows.lookup key = some window := hcall ▸ hkey
      rw [hstored]
    · have hother : (limits.decision windows call).key ≠ key := hcall
      rw [List.filter_cons_of_neg (by simpa using hother), List.filter_cons_of_neg (by simpa using hcall)]
      refine ih hsorted fun later hmem => ?_
      have hstored : (limits.decision windows call).windows.lookup key =
          (windows.lookup key).filter (limits.live call.time) := hothers key (Ne.symm hcall)
      rw [hstored, filter_live (hlater later hmem)]
      exact hsame later (List.mem_cons_of_mem _ hmem)

theorem retryAfter_decisions {calls : List RateCall} :
    ∀ d ∈ limits.decisions windows calls,
      d.retryAfter = if d.allowed then 0 else limits.retryAfter d.window d.time := by
  induction calls generalizing windows with
  | nil => exact nofun
  | cons call calls ih =>
    obtain ⟨allowed, window, -, hresult, hkey, -⟩ := check_spec limits windows call.key call.time
    intro d hd
    rcases List.mem_cons.mp hd with rfl | hd
    · have hview := view_decision (congrArg Prod.fst hresult) hkey
      have hallowed : (limits.decision windows call).allowed = allowed := congrArg Decision.allowed hview
      have hwindow : (limits.decision windows call).window = window := congrArg Decision.window hview
      rw [hallowed, hwindow]
      exact congrArg Prod.snd hresult
    · exact ih d hd

theorem live_of_decision {calls : List RateCall} :
    ∀ d ∈ limits.decisions windows calls, ∀ other window, d.windows.lookup other = some window →
      d.time - window.startedAt < limits.windowSeconds := by
  induction calls generalizing windows with
  | nil => exact nofun
  | cons call calls ih =>
    intro d hd
    rcases List.mem_cons.mp hd with rfl | hd
    · exact fun other window h => live_of_check h
    · exact ih d hd

/-! ### Waiting -/

theorem lt_retryAfter (limits : RateLimits) {window : Window ℚ} (h : now - window.startedAt < limits.windowSeconds) :
    limits.windowSeconds - (now - window.startedAt) < (limits.retryAfter window now : ℚ) := by
  have hpos : 0 ≤ (limits.windowSeconds : ℚ) - (now - window.startedAt) := by linarith
  have hfloor := Int.lt_floor_add_one ((limits.windowSeconds : ℚ) - (now - window.startedAt))
  have hle : truncate (limits.windowSeconds - (now - window.startedAt)) + 1 ≤ limits.retryAfter window now :=
    le_max_right _ _
  rw [truncate, if_pos hpos] at hle
  have hcast : ((⌊(limits.windowSeconds : ℚ) - (now - window.startedAt)⌋ + 1 : ℤ) : ℚ) ≤
      (limits.retryAfter window now : ℚ) := Int.cast_le.mpr hle
  push_cast at hcast
  linarith

/-- The next call of a key that has waited is allowed. -/
theorem allowed_of_wait {calls : List RateCall} (hsorted : (calls.map (·.time)).Pairwise (· ≤ ·))
    {before between after : List RateDecision} {d d' : RateDecision}
    (hsplit : limits.decisions ∅ calls = before ++ d :: (between ++ d' :: after)) (hkey : d'.key = d.key)
    (hbetween : ∀ b ∈ between, b.key ≠ d.key) (hrefused : d.allowed = false)
    (hwait : d.time + d.retryAfter ≤ d'.time) : d'.allowed = true := by
  have hmem : d ∈ limits.decisions ∅ calls := by
    rw [hsplit]
    exact List.mem_append_right _ List.mem_cons_self
  have hretry := retryAfter_decisions d hmem
  rw [hrefused, if_neg Bool.false_ne_true] at hretry
  have hown := @view_decisions limits ∅ d.key calls hsorted none fun _ _ => rfl
  have hnone : between.filter (fun b => b.key == d.key) = [] :=
    List.filter_eq_nil_iff.mpr fun b hb => by simpa using hbetween b hb
  rw [hsplit, List.filter_append, List.filter_cons_of_pos (by simp), List.filter_append, hnone, List.nil_append,
    List.filter_cons_of_pos (by simpa using hkey), List.map_append, List.map_cons, List.map_cons] at hown
  have hnext := trace_next hown.symm
  have hlive : d.view.time - d.view.window.startedAt < limits.windowSeconds := by
    have hcalls := trace_live limits.maxRequests limits.span_pos none
      ((calls.filter fun call => call.key == d.key).map (·.time))
    rw [← hown] at hcalls
    refine hcalls d.view ?_
    exact List.mem_append_right _ List.mem_cons_self
  have hlate := lt_retryAfter limits hlive
  have hexpired : (limits.windowSeconds : ℚ) ≤ d'.view.time - d.view.window.startedAt := by
    rw [hretry] at hwait
    have hwait' : d.view.time + (limits.retryAfter d.view.window d.view.time : ℚ) ≤ d'.view.time := hwait
    linarith
  rw [enter_expired hexpired] at hnext
  exact (Prod.mk.inj hnext).1

end

/-! ### Main result -/

/-- **The limiter, over every run of calls at non-decreasing times.** A key is decided as by a limiter without
pruning that sees its calls only. Of the calls of one key at most `max_requests` are allowed in a window, and at most
twice as many in any interval of a window's length. The windows stored after a call have not ended. The next call
of a key that has been refused is allowed if it comes `retry_after` seconds later. -/
theorem rate_limiter_decisions (limits : RateLimits) (calls : List RateCall)
    (hsorted : (calls.map (·.time)).Pairwise (· ≤ ·)) :
    (∀ key, ((limits.decisions ∅ calls).filter fun d => d.key == key).map (fun d => (d.allowed, d.retryAfter)) =
      limits.ownResults ((calls.filter fun call => call.key == key).map (·.time))) ∧
    (∀ key start, (limits.decisions ∅ calls).countP (fun d =>
      d.key == key && (d.allowed && decide (d.window.startedAt = start))) ≤ limits.maxRequests) ∧
    (∀ key (t : ℚ), (limits.decisions ∅ calls).countP (fun d =>
      d.key == key && (d.allowed && (decide (t ≤ d.time) && decide (d.time ≤ t + limits.windowSeconds)))) ≤
        2 * limits.maxRequests) ∧
    (∀ d ∈ limits.decisions ∅ calls, ∀ key window, d.windows.lookup key = some window →
      d.time - window.startedAt < limits.windowSeconds) ∧
    (∀ before d between d' after, limits.decisions ∅ calls = before ++ d :: (between ++ d' :: after) →
      d'.key = d.key → (∀ b ∈ between, b.key ≠ d.key) → d.allowed = false →
      d.time + (d.retryAfter : ℚ) ≤ d'.time → d'.allowed = true) := by
  have hown : ∀ key, ((limits.decisions ∅ calls).filter fun d => d.key == key).map RateDecision.view =
      trace limits.maxRequests (limits.windowSeconds : ℚ) none
        ((calls.filter fun call => call.key == key).map (·.time)) :=
    fun key => view_decisions hsorted fun _ _ => rfl
  have hcount : ∀ key (p : Decision ℚ → Bool),
      (limits.decisions ∅ calls).countP (fun d => d.key == key && p d.view) =
        (trace limits.maxRequests (limits.windowSeconds : ℚ) none
          ((calls.filter fun call => call.key == key).map (·.time))).countP p := by
    intro key p
    rw [← hown key, List.countP_map, List.countP_filter]
    exact List.countP_congr fun d _ => by simp [and_comm]
  refine ⟨fun key => ?_, fun key start => ?_, fun key t => ?_, live_of_decision, ?_⟩
  · rw [RateLimits.ownResults, ← hown key, List.map_map]
    refine List.map_congr_left fun d hd => ?_
    rw [retryAfter_decisions d (List.mem_filter.mp hd).1]
    rfl
  · refine (hcount key fun d => d.allowed && decide (d.window.startedAt = start)).trans_le ?_
    exact countP_window limits.span_pos limits.one_le_maxRequests start none _ nofun
  · refine (hcount key fun d =>
      d.allowed && (decide (t ≤ d.time) && decide (d.time ≤ t + limits.windowSeconds))).trans_le ?_
    refine countP_interval limits.span_pos limits.one_le_maxRequests ?_ t
    exact hsorted.sublist (List.filter_sublist.map _)
  · exact fun before d between d' after hsplit hkey hbetween hrefused hwait =>
      allowed_of_wait hsorted hsplit hkey hbetween hrefused hwait

/-- Two clients, and a third call exactly at the end of the first one's window. -/
theorem rate_limiter_decisions_sample :
    (RateLimits.decisions ⟨1, 60, by decide, by decide⟩ ∅
      [⟨py "10.0.0.1", 0⟩, ⟨py "10.0.0.2", 1⟩, ⟨py "10.0.0.1", 3 / 2⟩, ⟨py "10.0.0.1", 60⟩]).countP
        (fun d => d.key == py "10.0.0.1" && (d.allowed && (decide (0 ≤ d.time) && decide (d.time ≤ 0 + 60)))) ≤ 2 :=
  (rate_limiter_decisions ⟨1, 60, by decide, by decide⟩
    [⟨py "10.0.0.1", 0⟩, ⟨py "10.0.0.2", 1⟩, ⟨py "10.0.0.1", 3 / 2⟩, ⟨py "10.0.0.1", 60⟩]
    (by norm_num)).2.2.1 (py "10.0.0.1") 0

example : (RateLimits.decisions ⟨1, 60, by decide, by decide⟩ ∅
    [⟨py "10.0.0.1", 0⟩, ⟨py "10.0.0.2", 1⟩, ⟨py "10.0.0.1", 3 / 2⟩, ⟨py "10.0.0.1", 60⟩]).map
      (fun d => (d.allowed, d.retryAfter)) = [(true, 0), (true, 0), (false, 59), (true, 0)] := by
  decide +kernel

/-! ### The middleware -/

/-- `HEALTH_PATHS`. -/
def healthPaths : List PyStr := [py "/healthz", py "/readyz"]

/-- What the middleware reads of a request, and when. -/
structure ClientRequest where
  path : PyStr
  client : Option PyStr
  correlationId : Option PyStr
  time : ℚ

/-- The answer to a client that has sent too many requests. -/
structure RateLimited where
  statusCode : ℕ
  code : PyStr
  message : PyStr
  requestId : PyStr
  retryAfter : ℤ

/-- `RateLimitMiddleware`. -/
structure RateLimitMiddleware where
  enabled : Bool
  limits : RateLimits

namespace RateLimitMiddleware

variable (middleware : RateLimitMiddleware)

/-- The requests that do not count. -/
def skips (request : ClientRequest) : Bool := !middleware.enabled || decide (request.path ∈ healthPaths)

/-- The call of `check` for a request. -/
def call (request : ClientRequest) : RateCall := ⟨request.client.getD (py "unknown"), request.time⟩

/-- The answer in place of the next handler's, if there is one. -/
def answer (request : ClientRequest) (allowed : Bool) (retryAfter : ℤ) : Option RateLimited :=
  if allowed then none
  else some
    { statusCode := 429
      code := py "rate_limited"
      message := py "Too many requests. Please retry later."
      requestId := request.correlationId.getD (py "-")
      retryAfter := retryAfter }

/-- `dispatch`. -/
def dispatch (windows : RateWindows) (request : ClientRequest) : Option RateLimited × RateWindows :=
  if middleware.skips request then (none, windows)
  else
    let ((allowed, retryAfter), windows) := middleware.limits.check windows (call request).key request.time
    (answer request allowed retryAfter, windows)

/-- The requests one after another. -/
def answers : RateWindows → List ClientRequest → List (ClientRequest × Option RateLimited)
  | _, [] => []
  | windows, request :: requests =>
    let (response, windows) := middleware.dispatch windows request
    (request, response) :: answers windows requests

/-- A request that does not count is passed on. -/
theorem answer_skipped (windows : RateWindows) (requests : List ClientRequest) :
    ∀ a ∈ middleware.answers windows requests, middleware.skips a.1 = true → a.2 = none := by
  induction requests generalizing windows with
  | nil => exact nofun
  | cons request requests ih =>
    intro a ha hskips
    rcases List.mem_cons.mp ha with rfl | ha
    · show (middleware.dispatch windows request).1 = none
      rw [dispatch, if_pos hskips]
    · exact ih _ a ha hskips

/-- The other requests are answered by the limiter, which sees them only. -/
theorem answers_decisions (windows : RateWindows) (requests : List ClientRequest) :
    (middleware.answers windows requests).filter (fun a => !middleware.skips a.1) =
      List.zipWith (fun request d => (request, answer request d.allowed d.retryAfter))
        (requests.filter fun request => !middleware.skips request)
        (middleware.limits.decisions windows ((requests.filter fun request => !middleware.skips request).map call)) := by
  induction requests generalizing windows with
  | nil => rfl
  | cons request requests ih =>
    rw [answers]
    cases hskips : middleware.skips request with
    | true =>
      rw [List.filter_cons_of_neg (by simpa using hskips), List.filter_cons_of_neg (by simpa using hskips), ih,
        dispatch, if_pos hskips]
    | false =>
      rw [List.filter_cons_of_pos (by simpa using hskips), List.filter_cons_of_pos (by simpa using hskips), ih,
        dispatch, if_neg (by simpa using hskips)]
      rfl

end RateLimitMiddleware

end NetopsCopilot
