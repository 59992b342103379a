import NetopsCopilot.Application.CaseCommands
import NetopsCopilot.Lib.Solo

/-!
# Clients of the case spine

Any number of clients run `create_case` and `CaseService.transition` on one database, in transactions of
any number of commands, every statement of a command being one step that may also fail. Each command
keeps the discipline (`spineSystem_sound`), so in every reachable state the rows of every case agree
with each other (`reachable_consistent`), and a command that raises has undone its writes.
-/

namespace NetopsCopilot

open Txn

/-! ### The system -/

/-- A command of a client. -/
inductive CaseCommand where
  | create (organizationId : Uuid) (command : CreateCaseCommand)
  | transition (organizationId : Uuid) (command : TransitionCommand)

/-- What a command returns, with the command that took effect. -/
inductive CaseReply where
  | created (organizationId : Uuid) (command : CreateCaseCommand) (result : CreateCaseResult)
  | moved (organizationId : Uuid) (command : TransitionCommand) (record : CaseRecord)

/-- The command of a history entry. -/
def HistoryEntry.command : HistoryEntry → CaseCommand
  | .created organizationId c => .create organizationId c
  | .accepted organizationId c => .transition organizationId c

/-- The history a reply leaves: a replay leaves none. -/
def CaseReply.notes : CaseReply → List SpineWrite
  | .created organizationId c result =>
    if result.created then [.note (.created organizationId c)] else []
  | .moved organizationId c _ => [.note (.accepted organizationId c)]

/-- The method a command calls. -/
def CaseCommand.program (sha256 : PyStr → Sha256Hex) : CaseCommand → CaseProg CaseReply
  | .create organizationId c => do
    let result ← createCase sha256 organizationId c
    return .created organizationId c result
  | .transition organizationId c => do
    let record ← NetopsCopilot.transition organizationId c
    return .moved organizationId c record

/-- A system of clients of the case spine. -/
def caseSystem {C : Type} (program : C → CaseProg CaseReply) :
    System CaseStmt CaseStmt.Reply DbError Uuid CaseError CaseReply SpineWrite Key World C where
  store := caseStore
  program := program
  record _
    | .ok reply => reply.notes
    | .error _ => []

/-- The clients whose commands satisfy `allowed`. -/
def spineSystem (sha256 : PyStr → Sha256Hex) (allowed : CaseCommand → Prop) :
    System CaseStmt CaseStmt.Reply DbError Uuid CaseError CaseReply SpineWrite Key World
      { c : CaseCommand // allowed c } :=
  caseSystem fun c => c.val.program sha256

/-! ### Every command keeps the discipline -/

section

variable {sha256 : PyStr → Sha256Hex} {ok : HistoryEntry → Prop} {x : Local SpineWrite World}

/-- How a create command answers. -/
def CreateAnswers (sha256 : PyStr → Sha256Hex) (ok : HistoryEntry → Prop) (base : List SpineWrite)
    (organizationId : Uuid) (c : CreateCaseCommand) (r : Except CaseError CaseReply)
    (y : Local SpineWrite World) : Prop :=
  match r with
  | .ok reply => ∃ result, reply = .created organizationId c result ∧
      (result.created = true ∨ (result.created = false ∧ y.pending = base ∧
        Replays sha256 ok base organizationId c result.case.caseId y.db))
  | .error e => CreateRaises sha256 ok base organizationId c e y.db

/-- How a command ends: an exception leaves its transaction as it was. -/
structure Ends (sha256 : PyStr → Sha256Hex) (ok : HistoryEntry → Prop) (command : CaseCommand)
    (base : List SpineWrite) (r : Except CaseError CaseReply) (y : Local SpineWrite World) : Prop where
  raised : ∀ e, r = .error e → y.pending = base
  create : ∀ organizationId c, command = .create organizationId c →
    CreateAnswers sha256 ok base organizationId c r y

/-- The postcondition of `Sound` for a reply. -/
def Concludes (sha256 : PyStr → Sha256Hex) (ok : HistoryEntry → Prop) (r : Except CaseError CaseReply)
    (y : Local SpineWrite World) : Prop :=
  y.saves = [] ∧ (spineDiscipline sha256 ok).Ready y.db
    (y.pending ++ match r with | .ok reply => reply.notes | .error _ => [])

theorem wp_create (hc : (spineDiscipline sha256 ok).Coherent x.db)
    (hr : (spineDiscipline sha256 ok).Ready x.db x.pending) (hsaves : x.saves = [])
    {organizationId : Uuid} {c : CreateCaseCommand} (hok : ok (.created organizationId c)) :
    (spineDiscipline sha256 ok).wp ((CaseCommand.create organizationId c).program sha256) (fun r y =>
      Concludes sha256 ok r y ∧ Ends sha256 ok (.create organizationId c) x.pending r y) x := by
  simp only [CaseCommand.program, Prog.bind_eq, Prog.pure_eq]
  refine Discipline.wp_map _ (Discipline.wp_mono _ (wp_createCase hc hr hok) ?_)
  rintro (e | result) y ⟨⟨hleft, hready⟩, hanswer⟩
  · refine ⟨⟨hleft.trans hsaves, by simpa [Except.map] using hready.1⟩, fun _ _ => hready.2, ?_⟩
    rintro _ _ ⟨⟩
    exact hanswer
  · refine ⟨⟨hleft.trans hsaves, by simpa [CaseReply.notes, Except.map] using hready⟩, by simp [Except.map], ?_⟩
    rintro _ _ ⟨⟩
    exact ⟨result, rfl, hanswer⟩

theorem wp_move (hc : (spineDiscipline sha256 ok).Coherent x.db)
    (hr : (spineDiscipline sha256 ok).Ready x.db x.pending) (hsaves : x.saves = [])
    {organizationId : Uuid} {c : TransitionCommand}
    (hok : ∀ snapshot, Accepts snapshot c → ok (.accepted organizationId c)) :
    (spineDiscipline sha256 ok).wp ((CaseCommand.transition organizationId c).program sha256)
      (fun r y => Concludes sha256 ok r y ∧
        Ends sha256 ok (.transition organizationId c) x.pending r y) x := by
  simp only [CaseCommand.program, Prog.bind_eq, Prog.pure_eq]
  refine Discipline.wp_map _ (Discipline.wp_mono _ (wp_transition hc hr hok) ?_)
  rintro (e | record) y ⟨hleft, hready⟩
  · exact ⟨⟨hleft.trans hsaves, by simpa [Except.map] using hready.1⟩, fun _ _ => hready.2, nofun⟩
  · exact ⟨⟨hleft.trans hsaves, hready⟩, nofun, nofun⟩

end

/-- The history entries of a system whose commands satisfy `allowed`. -/
def allowedEntries (allowed : CaseCommand → Prop) (e : HistoryEntry) : Prop := allowed e.command

/-- History entries take no locks. -/
theorem recordLocks_caseSystem {C : Type} (program : C → CaseProg CaseReply) (c : C)
    (r : Except CaseError CaseReply) : caseStore.lockedBy ((caseSystem program).record c r) = [] := by
  cases r with
  | error e => rfl
  | ok reply =>
    cases reply with
    | created organizationId c result =>
      change caseStore.lockedBy (if result.created then _ else _) = []
      split_ifs <;> rfl
    | moved organizationId c record => rfl

/-- **Every command of the system keeps the discipline.** -/
theorem spineSystem_sound (sha256 : PyStr → Sha256Hex) (allowed : CaseCommand → Prop) :
    Sound (spineSystem sha256 allowed) (spineDiscipline sha256 (allowedEntries allowed))
      fun c => Ends sha256 (allowedEntries allowed) c.val where
  command := by
    rintro ⟨_ | _, hallowed⟩ db ps hc hr
    · refine Discipline.wp_mono _ (wp_create hc hr rfl hallowed) ?_
      rintro r y ⟨⟨hsaves, hready⟩, hends⟩
      exact ⟨hsaves, hready, hends⟩
    · refine Discipline.wp_mono _ (wp_move hc hr rfl fun _ _ => hallowed) ?_
      rintro r y ⟨⟨hsaves, hready⟩, hends⟩
      exact ⟨hsaves, hready, hends⟩
  recordLocks := recordLocks_caseSystem _

/-- A database without cases is coherent. -/
theorem coherent_of_absent {sha256 : PyStr → Sha256Hex} {ok : HistoryEntry → Prop} {w : World}
    (h : w.Absent) : (spineDiscipline sha256 ok).Coherent w := by
  have hslice : ∀ k, (w.restrict k).Absent := fun k => by
    constructor <;> simp [World.restrict, bearing, h.cases, h.caseInputs, h.transitions, h.events,
      h.outbox, h.history]
  intro k
  change Good sha256 ok k (w.restrict k)
  cases k with
  | case id => exact .absent (hslice _)
  | idempotency org key => exact Or.inl ⟨(hslice _).cases, (hslice _).history⟩
  | transition id => simp [Good, (hslice _).transitions]
  | event id => simp [Good, (hslice _).events]
  | outboxEvent id => simp [Good, (hslice _).outbox]
  | caseInput id | caseVersion id v | eventTransition org id | outbox id | audit id => trivial

/-! ### The rows of a stored case -/

/-- The transitions of a case, oldest first. -/
def transitionsOf (db : Db) (caseId : Uuid) : List TransitionRow :=
  db.transitions.filter (·.caseId == caseId)

/-- The events of a case at a version. -/
def eventsAt (db : Db) (caseId : Uuid) (version : Nat) : List EventRow :=
  db.events.filter fun e => e.caseId == caseId && e.aggregateVersion == version

/-- The outbox rows of an event. -/
def outboxOf (db : Db) (e : EventRow) : List OutboxRow := db.outbox.filter (·.caseEventId == e.id)

/-- The rows of a case agree: as many transitions as its version, numbered and linked from `new` to its
state; one event for each version, of the right kind, and one outbox row for each event. -/
structure ConsistentCase (db : Db) (row : CaseRow) : Prop where
  count : (transitionsOf db row.id).length = row.version
  versions : (transitionsOf db row.id).map (·.version) = List.range' 1 row.version
  linked : Linked .new (transitionsOf db row.id) row.state
  events : ∀ v ≤ row.version, ∃ e, eventsAt db row.id v = [e] ∧
    (v = 0 → CreationEvent row e) ∧ (∀ t ∈ transitionsOf db row.id, t.version = v → EventOf t e) ∧
    ∃ o, outboxOf db e = [o] ∧ OutboxOf e o

section

variable {sha256 : PyStr → Sha256Hex} {ok : HistoryEntry → Prop} {w : World}

theorem restrict_case_transitions (caseId : Uuid) :
    (w.restrict (.case caseId)).db.transitions = transitionsOf w.db caseId := by
  refine List.filter_congr fun t _ => ?_
  simp [TransitionRow.keys, TransitionRow.unique, eq_comm, Bool.beq_eq_decide_eq]

theorem restrict_case_events (caseId : Uuid) :
    (w.restrict (.case caseId)).db.events = w.db.events.filter (·.caseId == caseId) := by
  refine List.filter_congr fun e _ => ?_
  simp [EventRow.keys, EventRow.unique, eq_comm, Bool.beq_eq_decide_eq]

theorem restrict_outboxEvent (e : EventRow) :
    (w.restrict (.outboxEvent e.id)).db.outbox = outboxOf w.db e := by
  refine List.filter_congr fun o _ => ?_
  simp [OutboxRow.keys, OutboxRow.unique, eq_comm, Bool.beq_eq_decide_eq]

/-- The slice of a stored case. -/
theorem slice_of_row (hw : (spineDiscipline sha256 ok).Coherent w) {row : CaseRow}
    (hrow : row ∈ w.db.cases) : Spine sha256 ok row.id (w.restrict (.case row.id)) ∧
      (w.restrict (.case row.id)).db.cases = [row] := by
  have hspine : Spine sha256 ok row.id (w.restrict (.case row.id)) := hw (.case row.id)
  exact ⟨hspine, singleton_of_mem hspine (mem_bearing.mpr ⟨hrow, by simp [CaseRow.keys]⟩)⟩

/-- Coherent slices make consistent cases. -/
theorem consistentCase (hw : (spineDiscipline sha256 ok).Coherent w) {row : CaseRow}
    (hrow : row ∈ w.db.cases) : ConsistentCase w.db row := by
  obtain ⟨hspine, hcases⟩ := slice_of_row hw hrow
  have hchron := hspine.chronicle hcases
  have hversions := hchron.versions
  have hlinked := hchron.linked
  rw [restrict_case_transitions] at hversions hlinked
  obtain ⟨e₀, es, hevents, hcreation, hmatch⟩ := hchron.events
  rw [restrict_case_transitions] at hmatch
  have hlabels : (w.restrict (.case row.id)).db.events.map (·.aggregateVersion) =
      List.range' 0 (row.version + 1) := by
    have htail : es.map (·.aggregateVersion) = List.range' 1 row.version :=
      (Rows.map_eq_of_forall₂ hmatch fun t e h => h.aggregateVersion.symm).symm.trans hversions
    rw [hevents, List.map_cons, htail, hcreation.aggregateVersion, List.range'_succ]
  have hnodup : ((w.restrict (.case row.id)).db.events.map (·.aggregateVersion)).Nodup :=
    hlabels ▸ List.nodup_range'
  have hat : ∀ e ∈ (w.restrict (.case row.id)).db.events,
      eventsAt w.db row.id e.aggregateVersion = [e] := by
    intro e he
    have hone := Rows.filter_label hnodup he
    rw [restrict_case_events, List.filter_filter] at hone
    rw [eventsAt, ← hone]
    exact List.filter_congr fun e' _ => Bool.and_comm _ _
  refine ⟨by simpa using congrArg List.length hversions, hversions, hlinked, fun v hv => ?_⟩
  have hv' : v ∈ (w.restrict (.case row.id)).db.events.map (·.aggregateVersion) := by
    rw [hlabels, List.mem_range'_1]
    omega
  obtain ⟨e, he, rfl⟩ := List.mem_map.mp hv'
  have honly : ∀ e' ∈ (w.restrict (.case row.id)).db.events,
      e'.aggregateVersion = e.aggregateVersion → e' = e := by
    intro e' he' heq
    have hsame := hat e' he'
    rw [heq, hat e he, List.singleton_inj] at hsame
    exact hsame.symm
  refine ⟨e, hat e he, fun hzero => ?_, fun t ht hversion => ?_, ?_⟩
  · have hfirst := honly e₀ (by rw [hevents]; exact List.mem_cons_self)
      (hcreation.aggregateVersion.trans hzero.symm)
    exact hfirst ▸ hcreation
  · obtain ⟨e', he', hof⟩ := Rows.exists_match hmatch ht
    have hmove := honly e' (by rw [hevents]; exact List.mem_cons_of_mem _ he')
      (hof.aggregateVersion.trans hversion)
    exact hmove ▸ hof
  · obtain ⟨o, ho, hof⟩ := Rows.exists_match hchron.outbox he
    have hmem : o ∈ outboxOf w.db e := by
      refine List.mem_filter.mpr ⟨(mem_bearing.mp ho).1, ?_⟩
      simpa using hof.caseEventId
    have hle : (outboxOf w.db e).length ≤ 1 := by
      rw [← restrict_outboxEvent]
      exact hw (.outboxEvent e.id)
    refine ⟨o, ?_, hof⟩
    obtain ⟨o', ho'⟩ := List.length_eq_one_iff.mp (le_antisymm hle (List.length_pos_of_mem hmem))
    rw [ho', List.mem_singleton] at hmem
    rw [ho', hmem]

end

/-! ### A serial run -/

/-- An operator. -/
def sampleOperator : Actor := ⟨1, .human, {.operator}, by decide, by decide⟩

/-- A request for a case. -/
def sampleCreate : CreateCaseCommand where
  caseId := 10
  eventId := 11
  idempotencyKey := py "key-1"
  title := py "Link down"
  category := none
  severity := .high
  assetId := none
  actor := sampleOperator
  correlationId := 12
  occurredAt := 100
  caseInput := none
  idempotencyKeyOk := by decide
  titleOk := by decide
  categoryOk := by simp

/-- Its first move. -/
def sampleMove : TransitionCommand where
  transitionId := 20
  eventId := 21
  caseId := 10
  expectedVersion := 0
  toState := .investigating
  actor := sampleOperator
  correlationId := 22
  occurredAt := 200
  approvalId := none
  verificationNote := none
  knowledgeItemId := none
  note := none
  verificationNoteOk := by simp
  noteOk := by simp

/-- An organization without cases. -/
def sampleWorld : World := { db := { organizations := [7] } }

theorem sampleWorld_absent : sampleWorld.Absent := ⟨rfl, rfl, rfl, rfl, rfl, rfl⟩

/-- The sample commands, in a system that allows every command. -/
def sampleCommands : List ({ _c : CaseCommand // True } × List Uuid) :=
  [(⟨.create 7 sampleCreate, trivial⟩, [30, 31]), (⟨.transition 7 sampleMove, trivial⟩, [32, 33])]

/-- The sample commands run one after the other and commit. -/
theorem exists_sampleRun : ∃ w, (spineSystem (fun _ => zeroSha256) fun _ => True).Reachable sampleWorld
    (System.initial w) ∧ w.db.cases.map (fun r => (r.state, r.version)) = [(.investigating, 1)] := by
  have hrun : ((spineSystem (fun _ => zeroSha256) fun _ => True).serial sampleCommands
      sampleWorld).map (fun w => w.db.cases.map (fun r => (r.state, r.version))) =
        some [(.investigating, 1)] := by
    decide +kernel
  obtain ⟨w, hw, hcases⟩ := Option.map_eq_some_iff.mp hrun
  exact ⟨w, System.reachable_serial hw, hcases⟩

/-! ### Main result -/

/-- **Every reachable state of the case spine is consistent**, and a command that raises has no writes
left: its transaction holds those it held when the command began. -/
theorem reachable_consistent {sha256 : PyStr → Sha256Hex} {w₀ : World} (h₀ : w₀.Absent)
    {s : State CaseStmt CaseStmt.Reply DbError Uuid CaseError CaseReply SpineWrite World
      { _c : CaseCommand // True }}
    (hs : (spineSystem sha256 fun _ => True).Reachable w₀ s) :
    (∀ row ∈ s.committed.db.cases, ConsistentCase s.committed.db row) ∧
    ∀ i c e, (s.client i).running = some (c, .raise e) → (s.client i).pending = (s.client i).mark := by
  have hinv := (spineSystem_sound sha256 _).reachable_inv (coherent_of_absent h₀) hs
  refine ⟨fun row hrow => consistentCase hinv.coherent hrow, fun i _ e hrun => ?_⟩
  have hwp := (Sound.clientInv_running hrun).mp (hinv.client i)
  obtain ⟨-, -, hends⟩ := hwp s.committed (Discipline.Rely.refl _ _)
  exact hends.raised e rfl

/-- Of the sample run. -/
theorem reachable_consistent_sample : ∃ w : World,
    w.db.cases.map (fun r => (r.state, r.version)) = [(.investigating, 1)] ∧
      ∀ row ∈ w.db.cases, ConsistentCase w.db row := by
  obtain ⟨w, hreach, hcases⟩ := exists_sampleRun
  exact ⟨w, hcases, (reachable_consistent sampleWorld_absent hreach).1⟩

end NetopsCopilot
