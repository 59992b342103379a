import NetopsCopilot.Application.CaseSystem

/-!
# Reading a case while it moves (`TenantCaseRepository.get_detail`)

The case and its timeline are read by two statements, and under Read Committed each of them sees the transactions
that are committed by then. The two agree if and only if no transition of the case commits in between
(`detail_consistent_iff`).
-/

namespace NetopsCopilot

open Txn

/-! ### A detail -/

/-- `get_detail` when its first statement sees one committed state, and its second statement another. -/
def detailRead (organizationId caseId : Uuid) (first second : World) : Option (Except CaseError CaseDetail) :=
  (getDetail organizationId caseId).reading caseStore [first, second]

namespace CaseDetail

variable (d : CaseDetail)

/-- The transition entries of the timeline. -/
def moves : List CaseTimelineEntry := d.timeline.filter fun entry => entry.transitionId.isSome

/-- The case and the timeline are of one moment. -/
structure Consistent : Prop where
  version : IsGreatest { v | v ∈ d.timeline.map (·.aggregateVersion) } d.case.version
  state : (d.moves.getLast?.bind (·.toState)).getD .new = d.case.state
  versions : d.moves.map (·.aggregateVersion) = List.range' 1 d.case.version
  linked : d.moves.IsChain fun a b => b.fromState = a.toState

end CaseDetail

/-! ### The timeline of a stored case -/

section

variable {sha256 : PyStr → Sha256Hex} {ok : HistoryEntry → Prop} {w : World} {row : CaseRow}

/-- A row of `_SELECT_TIMELINE` with its transition. -/
structure MoveRow (t : TransitionRow) (r : EventRow × Option TransitionRow) : Prop where
  event : EventOf t r.1
  transition : r.2 = some t

/-- The events of the tenant's case are those of its slice. -/
theorem timeline_events (hchron : Chronicle row (w.restrict (.case row.id))) :
    w.db.events.filter (fun e => e.organizationId == row.organizationId && e.caseId == row.id) =
      (w.restrict (.case row.id)).db.events := by
  obtain ⟨e₀, es, hevents, hcreation, hmatch⟩ := hchron.events
  have howner : ∀ e ∈ (w.restrict (.case row.id)).db.events, e.organizationId = row.organizationId := by
    intro e he
    rw [hevents] at he
    rcases List.mem_cons.mp he with rfl | he
    · exact hcreation.organizationId
    · obtain ⟨t, ht, hof⟩ := Rows.exists_match hmatch.flip he
      exact hof.organizationId.trans (hchron.owner t ht).1
  rw [restrict_case_events] at howner ⊢
  refine List.filter_congr fun e he => ?_
  by_cases hid : e.caseId = row.id
  · have horganization := howner e (List.mem_filter.mpr ⟨he, by simpa using hid⟩)
    simp [hid, horganization]
  · simp [hid]

/-- A transition of the case is found by its id. -/
theorem find_transition (hw : (spineDiscipline sha256 ok).Coherent w) {t : TransitionRow} (ht : t ∈ w.db.transitions)
    {organizationId : Uuid} (horganization : t.organizationId = organizationId) :
    (w.db.transitions.find? fun u => u.organizationId == organizationId && u.id == t.id) = some t := by
  have hone : (w.restrict (.transition t.id)).db.transitions.length ≤ 1 := hw (.transition t.id)
  have hbears : ∀ u ∈ w.db.transitions, u.id = t.id → u ∈ (w.restrict (.transition t.id)).db.transitions := by
    intro u hu hid
    exact mem_bearing.mpr ⟨hu, by simp [TransitionRow.keys, TransitionRow.unique, hid]⟩
  cases hfound : w.db.transitions.find? fun u => u.organizationId == organizationId && u.id == t.id with
  | none =>
    have hnot := List.find?_eq_none.mp hfound t ht
    simp [horganization] at hnot
  | some u =>
    have hu := List.mem_of_find?_eq_some hfound
    have hid : u.id = t.id := by
      have hsome := List.find?_some hfound
      rw [Bool.and_eq_true, beq_iff_eq, beq_iff_eq] at hsome
      exact hsome.2
    obtain ⟨r, hr⟩ : ∃ r, (w.restrict (.transition t.id)).db.transitions = [r] :=
      List.length_eq_one_iff.mp (le_antisymm hone (List.length_pos_of_mem (hbears t ht rfl)))
    have hut := hbears u hu hid
    have htt := hbears t ht rfl
    rw [hr, List.mem_singleton] at hut htt
    rw [hut, htt]

/-- The timeline of a case: its creation, and one row for each transition. -/
theorem timeline_rows (hw : (spineDiscipline sha256 ok).Coherent w) (hrow : row ∈ w.db.cases) :
    ∃ e rows, (CaseStmt.selectTimeline row.organizationId row.id).exec w.db = .ok ((e, none) :: rows, []) ∧
      CreationEvent row e ∧ List.Forall₂ MoveRow (transitionsOf w.db row.id) rows := by
  obtain ⟨hspine, hcases⟩ := slice_of_row hw hrow
  have hchron := hspine.chronicle hcases
  have hversions := hchron.versions
  have howner := hchron.owner
  obtain ⟨e₀, es, hevents, hcreation, hmatch⟩ := hchron.events
  rw [restrict_case_transitions] at hmatch hversions howner
  let joined (e : EventRow) : EventRow × Option TransitionRow := (e, e.transitionId.bind fun t =>
    w.db.transitions.find? fun u => u.organizationId == e.organizationId && u.id == t)
  have hfirst : joined e₀ = (e₀, none) := by
    show (e₀, e₀.transitionId.bind _) = _
    rw [hcreation.transitionId]
    rfl
  have hrows : List.Forall₂ MoveRow (transitionsOf w.db row.id) (es.map joined) := by
    have hmembers : ∀ t ∈ transitionsOf w.db row.id, t ∈ w.db.transitions := fun t ht => (List.mem_filter.mp ht).1
    refine List.forall₂_map_right_iff.mpr ((List.forall₂_and_left _ _).mpr ⟨hmembers, hmatch⟩ |>.imp ?_)
    rintro t e ⟨ht, hof⟩
    refine ⟨hof, ?_⟩
    show e.transitionId.bind _ = some t
    rw [hof.transitionId, Option.bind_some]
    exact find_transition hw ht hof.organizationId.symm
  have hlabels : ((e₀ :: es).map joined).map (·.1.aggregateVersion) = List.range' 0 (row.version + 1) := by
    have htail : es.map (·.aggregateVersion) = List.range' 1 row.version :=
      (Rows.map_eq_of_forall₂ hmatch fun t e h => h.aggregateVersion.symm).symm.trans hversions
    rw [List.map_map]
    show (e₀ :: es).map (·.aggregateVersion) = _
    rw [List.map_cons, htail, hcreation.aggregateVersion, List.range'_succ]
  refine ⟨e₀, es.map joined, ?_, hcreation, hrows⟩
  show Except.ok (List.insertionSort _ (List.map joined _), _) = _
  rw [timeline_events hchron, hevents, List.Pairwise.insertionSort_eq, List.map_cons, hfirst]
  have hsorted : (((e₀ :: es).map joined).map (·.1.aggregateVersion)).Pairwise (· < ·) := by
    rw [hlabels]
    exact List.pairwise_lt_range'
  exact (List.pairwise_map.mp hsorted).imp fun h => Or.inl h

/-- A linked list of transitions is a chain of timeline entries. -/
theorem chain_of_linked {s t : CaseState} {ts : List TransitionRow} {rows : List (EventRow × Option TransitionRow)}
    (hlinked : Linked s ts t) (hrows : List.Forall₂ MoveRow ts rows) :
    (rows.map timelineEntry).IsChain fun a b => b.fromState = a.toState := by
  induction hrows generalizing s with
  | nil => exact .nil
  | @cons t₀ r ts rows hmove hrest ih =>
    cases hrest with
    | nil => exact .singleton _
    | @cons t₁ r' ts rows hmove' hrest =>
      refine .cons_cons ?_ (ih hlinked.2.2)
      show r'.2.map (·.fromState) = r.2.map (·.toState)
      rw [hmove.transition, hmove'.transition]
      exact congrArg some hlinked.2.2.1

/-- Which states of the case the timeline of a stored case agrees with. -/
theorem consistent_of_rows {case : CaseRecord} {e : EventRow} {rows : List (EventRow × Option TransitionRow)}
    {ts : List TransitionRow} {state : CaseState} {version : Nat} (hversions : ts.map (·.version) = List.range' 1 version)
    (hlinked : Linked .new ts state) (he : CreationEvent row e) (hrows : List.Forall₂ MoveRow ts rows) :
    CaseDetail.Consistent ⟨case, ((e, none) :: rows).map timelineEntry⟩ ↔
      case.version = version ∧ case.state = state := by
  have hmoves : CaseDetail.moves ⟨case, ((e, none) :: rows).map timelineEntry⟩ = rows.map timelineEntry := by
    have hfirst : (timelineEntry (e, none)).transitionId.isSome = false := by
      show e.transitionId.isSome = false
      rw [he.transitionId]
      rfl
    unfold CaseDetail.moves
    rw [List.map_cons, List.filter_cons_of_neg (by simp [hfirst])]
    refine List.filter_eq_self.mpr fun entry hentry => ?_
    obtain ⟨r, hr, rfl⟩ := List.mem_map.mp hentry
    obtain ⟨t, -, hmove⟩ := Rows.exists_match hrows.flip hr
    show r.1.transitionId.isSome = true
    rw [hmove.event.transitionId]
    rfl
  have hlabels : (rows.map timelineEntry).map (·.aggregateVersion) = List.range' 1 version := by
    rw [List.map_map, ← hversions]
    exact (Rows.map_eq_of_forall₂ hrows fun t r h => h.event.aggregateVersion.symm).symm
  have hgreatest : IsGreatest { v | v ∈ (((e, none) :: rows).map timelineEntry).map (·.aggregateVersion) } version := by
    have hzero : (timelineEntry (e, none)).aggregateVersion = 0 := he.aggregateVersion
    rw [List.map_cons, List.map_cons, hlabels, hzero]
    constructor
    · show version ∈ 0 :: List.range' 1 version
      rw [List.mem_cons, List.mem_range'_1]
      omega
    · intro v hv
      have hv' : v ∈ 0 :: List.range' 1 version := hv
      rw [List.mem_cons, List.mem_range'_1] at hv'
      omega
  have hstate : (((rows.map timelineEntry).getLast?.bind (·.toState)).getD .new) = state := by
    have hstates : rows.map (fun r => (timelineEntry r).toState) = ts.map fun t => some t.toState :=
      (Rows.map_eq_of_forall₂ hrows fun t r h => by
        show some t.toState = r.2.map (·.toState)
        rw [h.transition]
        rfl).symm
    have hlast := congrArg List.getLast? hstates
    rw [List.getLast?_map, List.getLast?_map] at hlast
    rw [← hlinked.last, List.getLast?_map]
    cases hrow : rows.getLast? with
    | none =>
      rw [hrow] at hlast
      cases hts : ts.getLast? with
      | none => rfl
      | some t =>
        rw [hts] at hlast
        cases hlast
    | some r =>
      rw [hrow] at hlast
      cases hts : ts.getLast? with
      | none =>
        rw [hts] at hlast
        cases hlast
      | some t =>
        rw [hts, Option.map_some, Option.map_some, Option.some_inj] at hlast
        show (timelineEntry r).toState.getD .new = t.toState
        rw [hlast]
        rfl
  constructor
  · intro h
    have hstate' := h.state
    rw [hmoves, hstate] at hstate'
    exact ⟨h.version.unique hgreatest, hstate'.symm⟩
  · rintro ⟨hversion, hstate'⟩
    refine ⟨?_, ?_, ?_, ?_⟩
    · show IsGreatest _ case.version
      rw [hversion]
      exact hgreatest
    · rw [hmoves, hstate, hstate']
    · rw [hmoves, hlabels, hversion]
    · rw [hmoves]
      exact chain_of_linked hlinked hrows

end

/-! ### Two statements -/

section

variable {organizationId caseId : Uuid} {w w' : World}

/-- A detail has the case of the first state, and the timeline of the second. -/
theorem detailRead_ok {d : CaseDetail} (h : detailRead organizationId caseId w w' = some (.ok d)) :
    ∃ row ∈ w.db.cases, row.organizationId = organizationId ∧ row.id = caseId ∧ ∃ rows ws,
      (CaseStmt.selectTimeline organizationId caseId).exec w'.db = .ok (rows, ws) ∧
      d = ⟨caseRecord row, rows.map timelineEntry⟩ := by
  have hrow : ∀ row ∈ w.db.cases.filter (fun c => c.organizationId == organizationId && c.id == caseId),
      row ∈ w.db.cases ∧ row.organizationId = organizationId ∧ row.id = caseId := by
    intro row hrow
    simpa using hrow
  have hread : detailRead organizationId caseId w w' =
      (match oneOrNone (w.db.cases.filter fun c => c.organizationId == organizationId && c.id == caseId) with
        | .error e => some (.error e)
        | .ok none => some (.error (.caseNotFound caseId))
        | .ok (some row) => (Prog.reading caseStore (do
            let timeline ← execute (.selectTimeline organizationId caseId)
            return { case := caseRecord row, timeline := timeline.map timelineEntry }) [w'])) := by
    have hselect : caseStore.exec (.selectCase organizationId caseId) w =
        .ok (w.db.cases.filter fun c => c.organizationId == organizationId && c.id == caseId, []) := rfl
    unfold detailRead getDetail
    simp only [Prog.bind_eq, execute, Prog.execute, Prog.elim, Prog.reading, hselect, Except.map]
    generalize oneOrNone (w.db.cases.filter fun c => c.organizationId == organizationId && c.id == caseId) = found
    rcases found with e | _ | row <;> rfl
  rw [hread] at h
  generalize w.db.cases.filter (fun c => c.organizationId == organizationId && c.id == caseId) = found at h hrow
  rcases found with _ | ⟨row, _ | ⟨other, rest⟩⟩
  · cases h
  · obtain ⟨hmem, horganization, hid⟩ := hrow row (by simp)
    refine ⟨row, hmem, horganization, hid, _, _, rfl, ?_⟩
    cases h
    rfl
  · cases h

/-- What no write takes away: the case, and the transitions it has. -/
structure CaseKept (organizationId caseId : Uuid) (moves : List TransitionRow) (w : World) : Prop where
  row : ∃ row ∈ w.db.cases, row.organizationId = organizationId ∧ row.id = caseId
  moves : moves <+: transitionsOf w.db caseId

theorem CaseKept.apply {moves : List TransitionRow} (x : SpineWrite) (h : CaseKept organizationId caseId moves w) :
    CaseKept organizationId caseId moves (x.apply w) := by
  obtain ⟨row, hrow, horganization, hid⟩ := h.row
  cases x with
  | note e => exact ⟨h.row, h.moves⟩
  | row x =>
    cases x with
    | insertCase r => exact ⟨⟨row, List.mem_append_left _ hrow, horganization, hid⟩, h.moves⟩
    | updateCase old state version updatedAt =>
      refine ⟨⟨_, List.mem_map_of_mem hrow, ?_, ?_⟩, h.moves⟩
      · split_ifs
        · exact horganization
        · exact horganization
      · split_ifs
        · exact hid
        · exact hid
    | insertTransition r =>
      refine ⟨h.row, h.moves.trans ?_⟩
      show transitionsOf w.db caseId <+: (w.db.transitions ++ [r]).filter _
      rw [List.filter_append]
      exact List.prefix_append _ _
    | insertCaseInput r | insertEvent r | insertOutbox r | insertAudit r => exact ⟨h.row, h.moves⟩

end

/-! ### Main result -/

section

variable {sha256 : PyStr → Sha256Hex} {w₀ : World} {organizationId caseId : Uuid} {d : CaseDetail}
  {s s' : State CaseStmt CaseStmt.Reply DbError Uuid CaseError CaseReply SpineWrite World { _c : CaseCommand // True }}

/-- **A detail is consistent exactly if no transition of its case commits between the two statements.** -/
theorem detail_consistent_iff (h₀ : w₀.Absent) (hs : (spineSystem sha256 fun _ => True).Reachable w₀ s)
    (hsteps : Relation.ReflTransGen (spineSystem sha256 fun _ => True).Step s s')
    (hread : detailRead organizationId caseId s.committed s'.committed = some (.ok d)) :
    d.Consistent ↔ transitionsOf s'.committed.db caseId = transitionsOf s.committed.db caseId := by
  have hsound := spineSystem_sound sha256 fun _ => True
  have hw := (hsound.reachable_inv (coherent_of_absent h₀) hs).coherent
  have hw' := (hsound.reachable_inv (coherent_of_absent h₀) (hs.trans hsteps)).coherent
  obtain ⟨row, hrow, rfl, rfl, rows, ws, hselect, rfl⟩ := detailRead_ok hread
  have hcase := consistentCase hw hrow
  have hkept : CaseKept row.organizationId row.id (transitionsOf s.committed.db row.id) s'.committed :=
    Sound.committed_steps (fun x w h => h.apply x) hsteps ⟨⟨row, hrow, rfl, rfl⟩, List.prefix_rfl⟩
  obtain ⟨row', hrow', horganization, hid⟩ := hkept.row
  have hcase' := consistentCase hw' hrow'
  obtain ⟨e, rows', htimeline, he, hmoves⟩ := timeline_rows hw' hrow'
  rw [horganization, hid, hselect] at htimeline
  cases htimeline
  have hversions := hcase'.versions
  have hlinked := hcase'.linked
  rw [hid] at hversions hlinked hmoves
  refine (consistent_of_rows hversions hlinked he hmoves).trans ?_
  have hcount : (transitionsOf s.committed.db row.id).length = row.version := hcase.count
  have hcount' : (transitionsOf s'.committed.db row.id).length = row'.version := by
    have hlength := hcase'.count
    rwa [hid] at hlength
  show row.version = row'.version ∧ row.state = row'.state ↔ _
  constructor
  · rintro ⟨hversion, -⟩
    exact (hkept.moves.eq_of_length (by rw [hcount, hcount', hversion])).symm
  · intro hsame
    rw [hsame] at hcount' hlinked
    exact ⟨hcount.symm.trans hcount', hcase.linked.last.symm.trans hlinked.last⟩

end

/-- The versions that a detail shows: that of its case, and those of its timeline. -/
def shownVersions : Except CaseError CaseDetail → Option (Nat × List Nat)
  | .ok d => some (d.case.version, d.timeline.map (·.aggregateVersion))
  | .error _ => none

/-- The sample case is created in `w` and moved in `w'`. -/
theorem exists_sampleReads : ∃ w w' d d', (spineSystem (fun _ => zeroSha256) fun _ => True).Reachable sampleWorld
      (System.initial w) ∧
    (spineSystem (fun _ => zeroSha256) fun _ => True).Reachable w (System.initial w') ∧
    detailRead 7 10 w w' = some (.ok d) ∧ shownVersions (.ok d) = some (0, [0, 1]) ∧
    detailRead 7 10 w' w' = some (.ok d') ∧ shownVersions (.ok d') = some (1, [0, 1]) := by
  let system := spineSystem (fun _ => zeroSha256) fun _ => True
  have hrun : ((system.serial (sampleCommands.take 1) sampleWorld).bind fun w =>
      (system.serial (sampleCommands.drop 1) w).bind fun w' =>
        ((detailRead 7 10 w w').bind shownVersions).bind fun first =>
          ((detailRead 7 10 w' w').bind shownVersions).map fun second => (first, second)) =
      some ((0, [0, 1]), (1, [0, 1])) := by
    decide +kernel
  obtain ⟨w, hw, hrun⟩ := Option.bind_eq_some_iff.mp hrun
  obtain ⟨w', hw', hrun⟩ := Option.bind_eq_some_iff.mp hrun
  obtain ⟨first, hfirst, hrun⟩ := Option.bind_eq_some_iff.mp hrun
  obtain ⟨second, hsecond, hboth⟩ := Option.map_eq_some_iff.mp hrun
  cases hboth
  have hok : ∀ {w w' : World} {shown}, (detailRead 7 10 w w').bind shownVersions = some shown →
      ∃ d, detailRead 7 10 w w' = some (.ok d) ∧ shownVersions (.ok d) = some shown := by
    intro w w' shown h
    obtain ⟨r, hr, hshown⟩ := Option.bind_eq_some_iff.mp h
    cases r with
    | error e => cases hshown
    | ok d => exact ⟨d, hr, hshown⟩
  obtain ⟨d, hd, hshown⟩ := hok hfirst
  obtain ⟨d', hd', hshown'⟩ := hok hsecond
  exact ⟨w, w', d, d', System.reachable_serial hw, System.reachable_serial hw', hd, hshown, hd', hshown'⟩

/-- Nothing commits while the moved case is read. -/
theorem detail_consistent_sample : ∃ w d, detailRead 7 10 w w = some (.ok d) ∧
    shownVersions (.ok d) = some (1, [0, 1]) ∧ d.Consistent := by
  obtain ⟨w, w', -, d, hw, hw', -, -, hread, hshown⟩ := exists_sampleReads
  exact ⟨w', d, hread, hshown,
    (detail_consistent_iff sampleWorld_absent (hw.trans hw') .refl hread).mpr rfl⟩

/-- The case is read at version 0, then its transition commits, and the timeline is read at version 1. -/
theorem detail_torn : ¬∀ (w₀ : World) (s s' : State CaseStmt CaseStmt.Reply DbError Uuid CaseError CaseReply SpineWrite
      World { _c : CaseCommand // True }) (d : CaseDetail), w₀.Absent →
    (spineSystem (fun _ => zeroSha256) fun _ => True).Reachable w₀ s →
    Relation.ReflTransGen (spineSystem (fun _ => zeroSha256) fun _ => True).Step s s' →
    detailRead 7 10 s.committed s'.committed = some (.ok d) → d.Consistent := by
  intro hall
  obtain ⟨w, w', d, -, hw, hw', hread, hshown, -, -⟩ := exists_sampleReads
  have hversion := (hall sampleWorld _ _ d sampleWorld_absent hw hw' hread).version
  cases hshown' : d.timeline.map (·.aggregateVersion) with
  | nil => simp [shownVersions, hshown'] at hshown
  | cons v vs =>
    have hboth : d.case.version = 0 ∧ v :: vs = [0, 1] := by
      simpa [shownVersions, hshown'] using hshown
    have hle : 1 ≤ d.case.version := hversion.2 (by rw [hshown', hboth.2]; simp)
    omega

end NetopsCopilot
