import Mathlib.Logic.Relation
import NetopsCopilot.Python.Json

/-!
# The life of the worker process (`netops_worker/main.py`, `netops_worker/health.py`)

`run_worker` starts a health server, connects to Temporal, proves that it can poll, completes one sweep of its
publisher and is ready. The publisher's task, the stop signals and the health requests interleave with it at every
`await`. The readiness is what the process has proved so far (`worker_readiness`), and a stop request always ends it,
without leaving anything running (`worker_shutdown`).
-/

namespace NetopsCopilot

/-! ### Health -/

/-- `WorkerHealth`, with the settings it reads. -/
structure WorkerHealth where
  serviceName : PyStr
  serviceVersion : PyStr
  ready : Bool := false

/-- `WorkerHealth.response`. -/
def WorkerHealth.response (health : WorkerHealth) (path : PyStr) : Nat × Json :=
  let base := [(py "service", Json.str health.serviceName), (py "version", .str health.serviceVersion)]
  if path = py "/healthz" then (200, .obj ((py "status", .str (py "ok")) :: base))
  else if path = py "/readyz" then
    if health.ready then
      (200, .obj ((py "status", .str (py "ok")) :: base ++
        [(py "components", .obj [(py "temporal", .str (py "ready"))])]))
    else
      (503, .obj ((py "status", .str (py "unavailable")) :: base ++
        [(py "components", .obj [(py "temporal", .str (py "unavailable"))])]))
  else (404, .obj [(py "status", .str (py "not_found"))])

/-! ### The process -/

/-- Where the task of `run_until_stopped` is: before its loop's condition, in a sweep, in `wait_for`, or done. A task
that failed has failed before or after the stop event was set. -/
inductive PublisherTask where
  | checking | sweeping | pausing | finished
  | failed (stopped : Bool)
deriving DecidableEq

def PublisherTask.done : PublisherTask → Bool
  | .finished | .failed _ => true
  | _ => false

def PublisherTask.raised : PublisherTask → Bool
  | .failed _ => true
  | _ => false

/-- The `await` at which `run_worker` is. -/
inductive WorkerStage where
  /-- `start_health_server` -/
  | starting
  /-- `client_connector` and `get_system_info` -/
  | connecting
  /-- `Worker.__aenter__` -/
  | entering
  /-- the runtime probe -/
  | probing
  /-- the sweep before readiness -/
  | sweeping
  /-- `stop.wait`, or `asyncio.wait` in `_wait_for_stop_or_publisher_failure` -/
  | waiting
  /-- the cancelled `stop_waiter`, with or without an exception that is on its way -/
  | unwinding (failure : Bool)
  /-- `Worker.__aexit__` -/
  | leaving
  /-- the publisher's task, in `finally` -/
  | joining
  /-- `server.wait_closed` -/
  | closing
  | ended
deriving DecidableEq

/-- The variables of `run_worker`. -/
structure WorkerProcess where
  stage : WorkerStage := .starting
  ready : Bool := false
  stop : Bool := false
  /-- The health server accepts connections. -/
  listening : Bool := false
  /-- The Temporal worker has been entered and not left. -/
  polling : Bool := false
  /-- The sweep before readiness has returned. -/
  swept : Bool := false
  publisher : Option PublisherTask := none
  /-- A signal has asked for a stop. -/
  signalled : Bool := false
  /-- An exception is on its way out of `run_worker`. -/
  raised : Bool := false
deriving DecidableEq

/-- The task that `asyncio.wait` watches is done. -/
def WorkerProcess.publisherDone (s : WorkerProcess) : Bool := s.publisher.any PublisherTask.done

/-- A step of `run_worker` or of its publisher's task; the publisher is configured or not. -/
inductive WorkerStep (enabled : Bool) : WorkerProcess → WorkerProcess → Prop
  | listen {s} (hstage : s.stage = .starting) :
    WorkerStep enabled s { s with stage := .connecting, listening := true }
  /-- The port is taken, before the `try` block. -/
  | listenFailed {s} (hstage : s.stage = .starting) :
    WorkerStep enabled s { s with stage := .ended, raised := true }
  | connected {s} (hstage : s.stage = .connecting) : WorkerStep enabled s { s with stage := .entering }
  | entered {s} (hstage : s.stage = .entering) :
    WorkerStep enabled s { s with stage := .probing, polling := true }
  /-- Nothing to clean up but what `finally` does. -/
  | connectFailed {s} (hstage : s.stage = .connecting ∨ s.stage = .entering) :
    WorkerStep enabled s { s with stage := .joining, ready := false, stop := true, raised := true }
  | probed {s} (hstage : s.stage = .probing) (hdisabled : enabled = false) :
    WorkerStep enabled s { s with stage := .waiting, ready := true }
  | built {s} (hstage : s.stage = .probing) (henabled : enabled = true) :
    WorkerStep enabled s { s with stage := .sweeping }
  | swept {s} (hstage : s.stage = .sweeping) :
    WorkerStep enabled s
      { s with stage := .waiting, swept := true, publisher := some .checking, ready := true }
  /-- The probe, the factory of the publisher or its first sweep raises. -/
  | probeFailed {s} (hstage : s.stage = .probing ∨ s.stage = .sweeping) :
    WorkerStep enabled s { s with stage := .leaving, raised := true }
  /-- `stop.wait` returns. -/
  | stopped {s} (hstage : s.stage = .waiting) (hpublisher : s.publisher = none) (hstop : s.stop = true) :
    WorkerStep enabled s { s with stage := .leaving, ready := false }
  /-- `asyncio.wait` returns: a task that failed raises, and so does one that finished without a stop. -/
  | woken {s} (task : PublisherTask) (hstage : s.stage = .waiting) (hpublisher : s.publisher = some task)
    (hwake : s.stop = true ∨ task.done = true) :
    WorkerStep enabled s { s with stage := .unwinding (task.raised || task.done && !s.stop) }
  | unwound {s} (failure : Bool) (hstage : s.stage = .unwinding failure) :
    WorkerStep enabled s
      { s with stage := .leaving, ready := false, stop := s.stop || failure, raised := failure }
  /-- `Worker.__aexit__` returns or raises, and `finally` begins. -/
  | left {s} (failure : Bool) (hstage : s.stage = .leaving) :
    WorkerStep enabled s
      { s with stage := .joining, polling := false, ready := false, stop := true, raised := s.raised || failure }
  | joined {s} (hstage : s.stage = .joining) (hdone : s.publisher = none ∨ s.publisherDone = true) :
    WorkerStep enabled s { s with stage := .closing, listening := false }
  | closed {s} (hstage : s.stage = .closing) : WorkerStep enabled s { s with stage := .ended }
  | check {s} (hpublisher : s.publisher = some .checking) :
    WorkerStep enabled s { s with publisher := some (if s.stop then .finished else .sweeping) }
  | sweepReturned {s} (hpublisher : s.publisher = some .sweeping) :
    WorkerStep enabled s { s with publisher := some .pausing }
  | sweepRaised {s} (hpublisher : s.publisher = some .sweeping) :
    WorkerStep enabled s { s with publisher := some (.failed s.stop) }
  | resumed {s} (hpublisher : s.publisher = some .pausing) :
    WorkerStep enabled s { s with publisher := some .checking }

/-- A run with `n` steps of the process, and signals in between. -/
inductive WorkerRun (enabled : Bool) : ℕ → WorkerProcess → WorkerProcess → Prop
  | refl (s : WorkerProcess) : WorkerRun enabled 0 s s
  | step {n : ℕ} {s s' s'' : WorkerProcess} (hrun : WorkerRun enabled n s s') (hstep : WorkerStep enabled s' s'') :
    WorkerRun enabled (n + 1) s s''
  /-- SIGINT or SIGTERM. -/
  | signal {n : ℕ} {s s' : WorkerProcess} (hrun : WorkerRun enabled n s s') :
    WorkerRun enabled n s { s' with stop := true, signalled := true }

/-- The states of a process. -/
def WorkerReachable (enabled : Bool) (s : WorkerProcess) : Prop := ∃ n, WorkerRun enabled n {} s

/-! ### The invariant -/

/-- Before readiness. -/
structure WorkerProcess.Early (s : WorkerProcess) : Prop where
  ready : s.ready = false
  swept : s.swept = false
  publisher : s.publisher = none
  stop : s.stop = true → s.signalled = true
  raised : s.raised = false

/-- While the process is ready. -/
structure WorkerProcess.Up (enabled : Bool) (s : WorkerProcess) : Prop where
  ready : s.ready = true
  listening : s.listening = true
  polling : s.polling = true
  swept : s.swept = enabled
  publisher : s.publisher.isSome = enabled
  stop : s.stop = true → s.signalled = true
  raised : s.raised = false

/-- After readiness; without an exception there was a signal, and the publisher did not fail before it. -/
structure WorkerProcess.Leaving (s : WorkerProcess) : Prop where
  ready : s.ready = false
  clean : s.raised = false → s.stop = true ∧ s.signalled = true ∧ s.publisher ≠ some (.failed false)

/-- The publisher's task does not run. -/
def WorkerProcess.Joined (s : WorkerProcess) : Prop := s.publisher = none ∨ s.publisherDone = true

/-- What holds at each stage. -/
def WorkerProcess.At (enabled : Bool) (s : WorkerProcess) : WorkerStage → Prop
  | .starting => s.Early ∧ s.listening = false ∧ s.polling = false
  | .connecting | .entering => s.Early ∧ s.listening = true ∧ s.polling = false
  | .probing => s.Early ∧ s.listening = true ∧ s.polling = true
  | .sweeping => s.Early ∧ s.listening = true ∧ s.polling = true ∧ enabled = true
  | .waiting => s.Up enabled
  | .unwinding failure => s.Up enabled ∧ (failure = false → s.stop = true) ∧
      (s.publisher = some (.failed false) → failure = true)
  | .leaving => s.Leaving ∧ s.listening = true ∧ s.polling = true
  | .joining => s.Leaving ∧ s.listening = true ∧ s.polling = false ∧ s.stop = true
  | .closing | .ended => s.Leaving ∧ s.listening = false ∧ s.polling = false ∧ s.Joined

def WorkerProcess.Inv (enabled : Bool) (s : WorkerProcess) : Prop := s.At enabled s.stage

section

variable {enabled : Bool} {s s' : WorkerProcess}

/-- A step of the publisher's task, which fails before the stop only if the stop event is not set. -/
theorem WorkerProcess.Inv.task (h : s.Inv enabled) {task task' : PublisherTask} (hpublisher : s.publisher = some task)
    (hrunning : task.done = false) (hfailed : task' = .failed false → s.stop = false) :
    WorkerProcess.Inv enabled { s with publisher := some task' } := by
  have hearly : ¬s.Early := fun h => by
    rw [h.publisher] at hpublisher
    cases hpublisher
  have hjoined : ¬s.Joined := by
    unfold WorkerProcess.Joined WorkerProcess.publisherDone
    rw [hpublisher, Option.any_some, hrunning]
    rintro (h | h) <;> cases h
  have hup : s.Up enabled → WorkerProcess.Up enabled { s with publisher := some task' } := by
    intro hup
    have hsome := hup.publisher
    rw [hpublisher] at hsome
    exact ⟨hup.ready, hup.listening, hup.polling, hup.swept, hsome, hup.stop, hup.raised⟩
  have hleaving : s.Leaving → WorkerProcess.Leaving { s with publisher := some task' } := by
    intro hleaving
    refine ⟨hleaving.ready, fun hraised => ?_⟩
    obtain ⟨hstop, hsignalled, -⟩ := hleaving.clean hraised
    refine ⟨hstop, hsignalled, fun h => ?_⟩
    rw [hfailed (Option.some.inj h)] at hstop
    cases hstop
  suffices hat : ∀ stage, s.At enabled stage →
      WorkerProcess.At enabled { s with publisher := some task' } stage from hat _ h
  intro stage h
  cases stage with
  | starting | connecting | entering | probing | sweeping => exact absurd h.1 hearly
  | waiting => exact hup h
  | unwinding failure =>
    obtain ⟨h, hstop, -⟩ := h
    refine ⟨hup h, hstop, fun htask => ?_⟩
    have hnot := hfailed (Option.some.inj htask)
    cases failure with
    | true => rfl
    | false =>
      rw [hstop rfl] at hnot
      cases hnot
  | leaving | joining => exact ⟨hleaving h.1, h.2⟩
  | closing | ended => exact absurd h.2.2.2 hjoined

theorem WorkerProcess.Inv.signal (h : s.Inv enabled) :
    WorkerProcess.Inv enabled { s with stop := true, signalled := true } := by
  have hearly : s.Early → WorkerProcess.Early { s with stop := true, signalled := true } :=
    fun h => ⟨h.ready, h.swept, h.publisher, fun _ => rfl, h.raised⟩
  have hup : s.Up enabled → WorkerProcess.Up enabled { s with stop := true, signalled := true } :=
    fun h => ⟨h.ready, h.listening, h.polling, h.swept, h.publisher, fun _ => rfl, h.raised⟩
  have hleaving : s.Leaving → WorkerProcess.Leaving { s with stop := true, signalled := true } :=
    fun h => ⟨h.ready, fun hraised => ⟨rfl, rfl, (h.clean hraised).2.2⟩⟩
  suffices hat : ∀ stage, s.At enabled stage →
      WorkerProcess.At enabled { s with stop := true, signalled := true } stage from hat _ h
  intro stage h
  cases stage with
  | starting | connecting | entering | probing | sweeping => exact ⟨hearly h.1, h.2⟩
  | waiting => exact hup h
  | unwinding failure => exact ⟨hup h.1, fun _ => rfl, h.2.2⟩
  | leaving | closing | ended => exact ⟨hleaving h.1, h.2⟩
  | joining => exact ⟨hleaving h.1, h.2.1, h.2.2.1, rfl⟩

theorem WorkerProcess.Inv.step (h : s.Inv enabled) (hstep : WorkerStep enabled s s') : s'.Inv enabled := by
  cases hstep with
  | listen hstage =>
    rw [WorkerProcess.Inv, hstage] at h
    obtain ⟨⟨hready, hswept, hpublisher, hstop, hraised⟩, -, hpolling⟩ := h
    exact ⟨⟨hready, hswept, hpublisher, hstop, hraised⟩, rfl, hpolling⟩
  | listenFailed hstage =>
    rw [WorkerProcess.Inv, hstage] at h
    obtain ⟨⟨hready, hswept, hpublisher, hstop, hraised⟩, hlistening, hpolling⟩ := h
    exact ⟨⟨hready, fun h => (by cases h)⟩, hlistening, hpolling, Or.inl hpublisher⟩
  | connected hstage =>
    rw [WorkerProcess.Inv, hstage] at h
    obtain ⟨⟨hready, hswept, hpublisher, hstop, hraised⟩, hflags⟩ := h
    exact ⟨⟨hready, hswept, hpublisher, hstop, hraised⟩, hflags⟩
  | entered hstage =>
    rw [WorkerProcess.Inv, hstage] at h
    obtain ⟨⟨hready, hswept, hpublisher, hstop, hraised⟩, hlistening, -⟩ := h
    exact ⟨⟨hready, hswept, hpublisher, hstop, hraised⟩, hlistening, rfl⟩
  | connectFailed hstage =>
    rcases hstage with hstage | hstage
    all_goals
      rw [WorkerProcess.Inv, hstage] at h
      obtain ⟨-, hlistening, hpolling⟩ := h
      exact ⟨⟨rfl, fun h => (by cases h)⟩, hlistening, hpolling, rfl⟩
  | probed hstage hdisabled =>
    rw [WorkerProcess.Inv, hstage] at h
    obtain ⟨⟨-, hswept, hpublisher, hstop, hraised⟩, hlistening, hpolling⟩ := h
    refine ⟨rfl, hlistening, hpolling, hswept.trans hdisabled.symm, ?_, hstop, hraised⟩
    show s.publisher.isSome = enabled
    rw [hpublisher, hdisabled]
    rfl
  | built hstage henabled =>
    rw [WorkerProcess.Inv, hstage] at h
    obtain ⟨⟨hready, hswept, hpublisher, hstop, hraised⟩, hlistening, hpolling⟩ := h
    exact ⟨⟨hready, hswept, hpublisher, hstop, hraised⟩, hlistening, hpolling, henabled⟩
  | swept hstage =>
    rw [WorkerProcess.Inv, hstage] at h
    obtain ⟨⟨-, -, -, hstop, hraised⟩, hlistening, hpolling, henabled⟩ := h
    exact ⟨rfl, hlistening, hpolling, henabled.symm, henabled.symm, hstop, hraised⟩
  | probeFailed hstage =>
    rcases hstage with hstage | hstage
    all_goals
      rw [WorkerProcess.Inv, hstage] at h
      exact ⟨⟨h.1.ready, fun h => (by cases h)⟩, h.2.1, by simp only [h.2.2]⟩
  | stopped hstage hpublisher hstop =>
    rw [WorkerProcess.Inv, hstage] at h
    refine ⟨⟨rfl, fun _ => ⟨hstop, h.stop hstop, ?_⟩⟩, h.listening, h.polling⟩
    show s.publisher ≠ _
    rw [hpublisher]
    exact fun h => by cases h
  | woken task hstage hpublisher hwake =>
    rw [WorkerProcess.Inv, hstage] at h
    refine ⟨⟨h.ready, h.listening, h.polling, h.swept, h.publisher, h.stop, h.raised⟩, fun hfailure => ?_, fun hfailed => ?_⟩
    · rcases hwake with hstop | hdone
      · exact hstop
      · cases hstop : s.stop with
        | true => rfl
        | false =>
          rw [hdone, hstop, Bool.not_false, Bool.and_true, Bool.or_true] at hfailure
          cases hfailure
    · have htask : s.publisher = some (.failed false) := hfailed
      rw [hpublisher] at htask
      rw [Option.some.inj htask]
      rfl
  | unwound failure hstage =>
    rw [WorkerProcess.Inv, hstage] at h
    obtain ⟨h, hstop, hfailed⟩ := h
    refine ⟨⟨rfl, fun hraised => ?_⟩, h.listening, h.polling⟩
    have hclean : failure = false := hraised
    have hset := hstop hclean
    refine ⟨?_, h.stop hset, fun htask => ?_⟩
    · show (s.stop || failure) = true
      rw [hset, Bool.true_or]
    · rw [hfailed htask] at hclean
      cases hclean
  | left failure hstage =>
    rw [WorkerProcess.Inv, hstage] at h
    obtain ⟨⟨-, hclean⟩, hlistening, -⟩ := h
    refine ⟨⟨rfl, fun hraised => ?_⟩, hlistening, rfl, rfl⟩
    obtain ⟨-, hsignalled, htask⟩ := hclean (Bool.or_eq_false_iff.mp hraised).1
    exact ⟨rfl, hsignalled, htask⟩
  | joined hstage hdone =>
    rw [WorkerProcess.Inv, hstage] at h
    obtain ⟨⟨hready, hclean⟩, -, hpolling, -⟩ := h
    exact ⟨⟨hready, hclean⟩, rfl, hpolling, hdone⟩
  | closed hstage =>
    rw [WorkerProcess.Inv, hstage] at h
    obtain ⟨⟨hready, hclean⟩, hlistening, hpolling, hjoined⟩ := h
    exact ⟨⟨hready, hclean⟩, hlistening, hpolling, hjoined⟩
  | check hpublisher =>
    refine h.task hpublisher rfl fun hfailed => ?_
    split_ifs at hfailed
  | sweepReturned hpublisher => exact h.task hpublisher rfl fun hfailed => by cases hfailed
  | sweepRaised hpublisher => exact h.task hpublisher rfl fun hfailed => PublisherTask.failed.inj hfailed
  | resumed hpublisher => exact h.task hpublisher rfl fun hfailed => by cases hfailed

theorem WorkerProcess.Inv.run {n : ℕ} (h : s.Inv enabled) (hrun : WorkerRun enabled n s s') : s'.Inv enabled := by
  induction hrun with
  | refl s => exact h
  | step hrun hstep ih => exact (ih h).step hstep
  | signal hrun ih => exact (ih h).signal

theorem inv_of_workerReachable (hs : WorkerReachable enabled s) : s.Inv enabled := by
  obtain ⟨n, hrun⟩ := hs
  have hinit : WorkerProcess.Inv enabled {} :=
    ⟨⟨rfl, rfl, rfl, fun h => (by cases h), rfl⟩, rfl, rfl⟩
  exact hinit.run hrun

/-! ### Readiness -/

def WorkerStage.isReady : WorkerStage → Bool
  | .waiting | .unwinding _ => true
  | _ => false

/-- The exit has begun. -/
def WorkerStage.isLeaving : WorkerStage → Bool
  | .leaving | .joining | .closing | .ended => true
  | _ => false

theorem WorkerProcess.Inv.ready_eq (h : s.Inv enabled) : s.ready = s.stage.isReady := by
  unfold WorkerProcess.Inv at h
  cases hstage : s.stage with
  | starting | connecting | entering | probing | sweeping | leaving | joining | closing | ended =>
    rw [hstage] at h
    exact h.1.ready
  | waiting =>
    rw [hstage] at h
    exact h.ready
  | unwinding failure =>
    rw [hstage] at h
    exact h.1.ready

theorem WorkerProcess.Inv.up (h : s.Inv enabled) (hready : s.ready = true) : s.Up enabled := by
  have hstage := h.ready_eq
  rw [hready] at hstage
  unfold WorkerProcess.Inv at h
  cases hcase : s.stage with
  | starting | connecting | entering | probing | sweeping | leaving | joining | closing | ended =>
    rw [hcase] at hstage
    cases hstage
  | waiting =>
    rw [hcase] at h
    exact h
  | unwinding failure =>
    rw [hcase] at h
    exact h.1

/-- The exit does not turn back. -/
theorem WorkerStep.isLeaving (h : WorkerStep enabled s s') (hleaving : s.stage.isLeaving = true) :
    s'.stage.isLeaving = true := by
  cases h with
  | listen hstage | connected hstage | entered hstage | probed hstage | built hstage | swept hstage
  | woken _ hstage =>
    rw [hstage] at hleaving
    cases hleaving
  | listenFailed | connectFailed | probeFailed | stopped | unwound | left | joined | closed => rfl
  | check | sweepReturned | sweepRaised | resumed => exact hleaving

theorem WorkerRun.isLeaving {n : ℕ} (h : WorkerRun enabled n s s') (hleaving : s.stage.isLeaving = true) :
    s'.stage.isLeaving = true := by
  induction h with
  | refl s => exact hleaving
  | step hrun hstep ih => exact hstep.isLeaving (ih hleaving)
  | signal hrun ih => exact ih hleaving

theorem response_readyz (health : WorkerHealth) :
    (health.response (py "/readyz")).1 = if health.ready then 200 else 503 := by
  unfold WorkerHealth.response
  rw [if_neg (by decide), if_pos rfl]
  split_ifs <;> rfl

/-! ### Shutdown -/

/-- How many steps are left when the stop event is set. -/
def WorkerStage.rank : WorkerStage → ℕ
  | .starting => 11
  | .connecting => 10
  | .entering => 9
  | .probing => 8
  | .sweeping => 7
  | .waiting => 5
  | .unwinding _ => 4
  | .leaving => 3
  | .joining => 2
  | .closing => 1
  | .ended => 0

def PublisherTask.rank : PublisherTask → ℕ
  | .sweeping => 3
  | .pausing => 2
  | .checking => 1
  | .finished | .failed _ => 0

def WorkerProcess.rank (s : WorkerProcess) : ℕ := s.stage.rank + (s.publisher.map PublisherTask.rank).getD 0

/-- With the stop event set, a step keeps it set and brings the end nearer. -/
theorem WorkerStep.rank_lt (h : WorkerStep enabled s s') (hinv : s.Inv enabled) (hstop : s.stop = true) :
    s'.stop = true ∧ s'.rank < s.rank := by
  unfold WorkerProcess.rank
  cases h with
  | listen hstage | listenFailed hstage | connected hstage | entered hstage | probed hstage | built hstage
  | stopped hstage | woken _ hstage | joined hstage | closed hstage =>
    rw [hstage]
    exact ⟨hstop, by simp [WorkerStage.rank]⟩
  | connectFailed hstage =>
    rcases hstage with hstage | hstage
    all_goals
      rw [hstage]
      exact ⟨rfl, by simp [WorkerStage.rank]⟩
  | probeFailed hstage =>
    rcases hstage with hstage | hstage
    all_goals
      rw [hstage]
      exact ⟨hstop, by simp [WorkerStage.rank]⟩
  | swept hstage =>
    rw [WorkerProcess.Inv, hstage] at hinv
    rw [hstage, hinv.1.publisher]
    exact ⟨hstop, by simp [WorkerStage.rank, PublisherTask.rank]⟩
  | unwound failure hstage =>
    rw [hstage]
    refine ⟨?_, by simp [WorkerStage.rank]⟩
    show (s.stop || failure) = true
    rw [hstop, Bool.true_or]
  | left failure hstage =>
    rw [hstage]
    exact ⟨rfl, by simp [WorkerStage.rank]⟩
  | check hpublisher =>
    rw [hpublisher, if_pos hstop]
    exact ⟨hstop, by simp [PublisherTask.rank]⟩
  | sweepReturned hpublisher | sweepRaised hpublisher | resumed hpublisher =>
    rw [hpublisher]
    exact ⟨hstop, by simp [PublisherTask.rank]⟩

/-- With the stop event set, the process can go on until it has ended. -/
theorem WorkerProcess.goes_on (hstop : s.stop = true) (hstage : s.stage ≠ .ended) :
    ∃ s', WorkerStep enabled s s' := by
  cases hcase : s.stage with
  | starting => exact ⟨_, .listen hcase⟩
  | connecting => exact ⟨_, .connected hcase⟩
  | entering => exact ⟨_, .entered hcase⟩
  | probing =>
    cases henabled : enabled with
    | true => exact ⟨_, .built hcase rfl⟩
    | false => exact ⟨_, .probed hcase rfl⟩
  | sweeping => exact ⟨_, .swept hcase⟩
  | waiting =>
    cases hpublisher : s.publisher with
    | none => exact ⟨_, .stopped hcase hpublisher hstop⟩
    | some task => exact ⟨_, .woken task hcase hpublisher (Or.inl hstop)⟩
  | unwinding failure => exact ⟨_, .unwound failure hcase⟩
  | leaving => exact ⟨_, .left false hcase⟩
  | joining =>
    cases hpublisher : s.publisher with
    | none => exact ⟨_, .joined hcase (Or.inl hpublisher)⟩
    | some task =>
      cases task with
      | checking => exact ⟨_, .check hpublisher⟩
      | sweeping => exact ⟨_, .sweepReturned hpublisher⟩
      | pausing => exact ⟨_, .resumed hpublisher⟩
      | finished | failed _ =>
        refine ⟨_, .joined hcase (Or.inr ?_)⟩
        rw [WorkerProcess.publisherDone, hpublisher]
        rfl
  | closing => exact ⟨_, .closed hcase⟩
  | ended => exact absurd hcase hstage

theorem WorkerRun.rank_le {n : ℕ} (h : WorkerRun enabled n s s') (hinv : s.Inv enabled) (hstop : s.stop = true) :
    s'.stop = true ∧ n + s'.rank ≤ s.rank := by
  induction h with
  | refl s => exact ⟨hstop, (Nat.zero_add _).le⟩
  | step hrun hstep ih =>
    obtain ⟨hstop', hle⟩ := ih hinv hstop
    obtain ⟨hstop'', hlt⟩ := hstep.rank_lt (hinv.run hrun) hstop'
    exact ⟨hstop'', by omega⟩
  | signal hrun ih => exact ⟨rfl, (ih hinv hstop).2⟩

theorem WorkerProcess.Inv.rank_le (h : s.Inv enabled) : s.rank ≤ 11 := by
  unfold WorkerProcess.Inv at h
  unfold WorkerProcess.rank
  cases hstage : s.stage with
  | starting | connecting | entering | probing | sweeping =>
    rw [hstage] at h
    rw [h.1.publisher]
    decide
  | waiting | unwinding _ | leaving | joining | closing | ended =>
    have htask : (s.publisher.map PublisherTask.rank).getD 0 ≤ 3 := by
      cases s.publisher with
      | none => exact Nat.zero_le _
      | some task => cases task <;> simp [PublisherTask.rank]
    simp only [WorkerStage.rank]
    omega

end

/-! ### Main results -/

/-- **Readiness.** In every state of the process, `/readyz` answers 200 exactly while it waits for its end or for its
publisher's; then its server listens, its Temporal worker polls, and if a publisher is configured, its first sweep has
returned and its task was started. Once the exit has begun, it answers 503 in every later state. -/
theorem worker_readiness {enabled : Bool} {s : WorkerProcess} (hs : WorkerReachable enabled s)
    (serviceName serviceVersion : PyStr) :
    ((WorkerHealth.response ⟨serviceName, serviceVersion, s.ready⟩ (py "/readyz")).1 = 200 ↔
      s.stage = .waiting ∨ ∃ failure, s.stage = .unwinding failure) ∧
    ((WorkerHealth.response ⟨serviceName, serviceVersion, s.ready⟩ (py "/readyz")).1 = 200 →
      s.listening = true ∧ s.polling = true ∧ s.swept = enabled ∧ s.publisher.isSome = enabled) ∧
    (s.stage.isLeaving = true → ∀ n s', WorkerRun enabled n s s' →
      (WorkerHealth.response ⟨serviceName, serviceVersion, s'.ready⟩ (py "/readyz")).1 = 503) := by
  have hinv := inv_of_workerReachable hs
  have hanswer : (WorkerHealth.response ⟨serviceName, serviceVersion, s.ready⟩ (py "/readyz")).1 = 200 ↔
      s.ready = true := by
    rw [response_readyz]
    cases s.ready <;> simp
  refine ⟨hanswer.trans ?_, fun h => ?_, fun hleaving n s' hrun => ?_⟩
  · rw [hinv.ready_eq]
    cases s.stage <;> simp [WorkerStage.isReady]
  · have hup := hinv.up (hanswer.mp h)
    exact ⟨hup.listening, hup.polling, hup.swept, hup.publisher⟩
  · have hready := (hinv.run hrun).ready_eq
    have hleaving' := hrun.isLeaving hleaving
    have hnot : s'.ready = false := by
      rw [hready]
      cases hstage : s'.stage <;> rw [hstage] at hleaving' <;> first | rfl | cases hleaving'
    rw [response_readyz, hnot]
    rfl

/-- A process with a publisher that has become ready. -/
def readyWorker : WorkerProcess :=
  { stage := .waiting, ready := true, listening := true, polling := true, swept := true, publisher := some .checking }

theorem readyWorker_run : WorkerRun true 5 {} readyWorker :=
  .step (.step (.step (.step (.step (.refl _) (.listen rfl)) (.connected rfl)) (.entered rfl)) (.built rfl rfl))
    (.swept rfl)

theorem worker_readiness_sample :
    (WorkerHealth.response ⟨py "netops-worker", py "0.1.0", readyWorker.ready⟩ (py "/readyz")).1 = 200 ∧
      readyWorker.swept = true := by
  have hready := worker_readiness ⟨5, readyWorker_run⟩ (py "netops-worker") (py "0.1.0")
  have hanswer := hready.1.mpr (Or.inl rfl)
  exact ⟨hanswer, (hready.2.1 hanswer).2.2.1⟩

/-- **Shutdown.** A process that has ended is not ready, does not listen or poll, and its publisher's task is done. If
it has ended without an exception, a signal has asked for it, and its publisher did not fail before the stop event was
set. Once the event is set, the process takes at most eleven more steps, and goes on until it has ended. -/
theorem worker_shutdown {enabled : Bool} {s : WorkerProcess} (hs : WorkerReachable enabled s) :
    (s.stage = .ended → s.ready = false ∧ s.listening = false ∧ s.polling = false ∧
      (s.publisher = none ∨ s.publisherDone = true) ∧
      (s.raised = false → s.signalled = true ∧ s.publisher ≠ some (.failed false))) ∧
    (s.stop = true → ∀ n s', WorkerRun enabled n s s' →
      n ≤ 11 ∧ ((¬∃ s'', WorkerStep enabled s' s'') → s'.stage = .ended)) := by
  have hinv := inv_of_workerReachable hs
  refine ⟨fun hended => ?_, fun hstop n s' hrun => ?_⟩
  · rw [WorkerProcess.Inv, hended] at hinv
    obtain ⟨hleaving, hlistening, hpolling, hjoined⟩ := hinv
    exact ⟨hleaving.ready, hlistening, hpolling, hjoined, fun hraised => (hleaving.clean hraised).2⟩
  · obtain ⟨hstop', hle⟩ := hrun.rank_le hinv hstop
    refine ⟨(Nat.le_of_add_right_le hle).trans hinv.rank_le, fun hstuck => ?_⟩
    by_contra hstage
    exact hstuck (WorkerProcess.goes_on hstop' hstage)

/-- A signal ends the ready process, whose publisher is about to begin a sweep. -/
theorem worker_shutdown_sample : ∃ s', WorkerRun true 6 { readyWorker with stop := true, signalled := true } s' ∧
    s'.stage = .ended ∧ s'.raised = false ∧ s'.publisher = some .finished ∧ 6 ≤ 11 := by
  have hrun : WorkerRun true 6 { readyWorker with stop := true, signalled := true } _ :=
    .step (.step (.step (.step (.step (.step (.refl _) (.woken .checking rfl rfl (Or.inl rfl))) (.unwound false rfl))
      (.left false rfl)) (.check rfl)) (.joined rfl (Or.inr rfl))) (.closed rfl)
  exact ⟨_, hrun, rfl, rfl, rfl, ((worker_shutdown ⟨5, .signal readyWorker_run⟩).2 rfl 6 _ hrun).1⟩

end NetopsCopilot
