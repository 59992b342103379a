import NetopsCopilot.Api.AssetScope
import NetopsCopilot.Api.CaseRequests

/-!
# Hidden cases

A request about a case outside the caller's asset scope ends like one about a case that does not exist
(`eval_denied`), and every other request acts within the part of the database that its caller sees
(`CaseRequest.sameOn`). So two databases that differ in what is hidden from a principal answer it the same, and
change the rows it sees in the same way (`hidden_cases_indistinguishable`).
-/

namespace NetopsCopilot

open Txn

/-! ### A hidden case -/

section

variable {p : AuthenticatedPrincipal} {caseId : Uuid} {draws : Nat → Uuid} {w : Work}

theorem Work.record_nil (w : Work) : w.record [] = w := by
  simp [Work.record]

/-- **Denial.** What is done with the detail does not show whether the case exists, if it answers both with
`case_not_found`. -/
theorem eval_denied {A : Type} (hdenies : w.db.Denies p caseId) {f : CaseDetail → CaseProg A}
    {h : CaseError → CaseProg A}
    (hf : ∀ detail assetId, detail.case.assetId = some assetId → assetId ∉ p.assetIds →
      f detail = .raise caseNotFound)
    (hh : h (.caseNotFound caseId) = .raise caseNotFound) :
    ((getDetail p.organizationId caseId).elim f h).eval CaseStmt.onWork draws w [] =
      (.error caseNotFound, w) := by
  have hselect : CaseStmt.onWork (.selectCase p.organizationId caseId) w =
      .ok (w.db.caseRows p.organizationId caseId, w) :=
    congrArg (fun w' => Except.ok (_, w')) w.record_nil
  have htimeline : ∃ rows, CaseStmt.onWork (.selectTimeline p.organizationId caseId) w = .ok (rows, w) :=
    ⟨_, congrArg (fun w' => Except.ok (_, w')) w.record_nil⟩
  unfold getDetail
  show (Prog.exec (.selectCase p.organizationId caseId) _ : CaseProg A).eval CaseStmt.onWork draws w [] = _
  rw [Prog.eval, hselect]
  rcases hdenies with hrows | ⟨c, assetId, hrows, hassetId, hasset⟩
  · rw [hrows]
    show (h (.caseNotFound caseId)).eval CaseStmt.onWork draws w [] = _
    rw [hh]
    rfl
  · rw [hrows]
    obtain ⟨rows, htimeline⟩ := htimeline
    show (Prog.exec (.selectTimeline p.organizationId caseId) _ : CaseProg A).eval CaseStmt.onWork draws w [] = _
    rw [Prog.eval, htimeline]
    show (f { case := caseRecord c, timeline := rows.map timelineEntry }).eval CaseStmt.onWork draws w [] = _
    rw [hf _ assetId hassetId hasset]
    rfl

/-- The program ends in the same way on every database that denies the case. -/
def Blind (p : AuthenticatedPrincipal) (caseId : Uuid) (draws : Nat → Uuid) {A : Type} (prog : CaseProg A) :
    Prop :=
  ∃ r, ∀ w : Work, w.db.Denies p caseId → prog.eval CaseStmt.onWork draws w [] = (r, w)

theorem Blind.lift {A B : Type} {x : Except CaseError A} {k : A → CaseProg B}
    (hk : ∀ a, Blind p caseId draws (k a)) : Blind p caseId draws ((Prog.lift x).elim k .raise) := by
  cases x with
  | ok a => exact hk a
  | error e => exact ⟨.error e, fun _ _ => rfl⟩

/-- `_visible_case_or_not_found` on a hidden case. -/
theorem visibleCaseOrNotFound_hidden {case : CaseRecord} {assetId : Uuid} (hassetId : case.assetId = some assetId)
    (hasset : assetId ∉ p.assetIds) : visibleCaseOrNotFound case p = .error caseNotFound := by
  have hvisible : isVisibleToPrincipal case p = false := by
    simp [isVisibleToPrincipal, hassetId, hasset]
  rw [visibleCaseOrNotFound, hvisible]
  rfl

theorem blind_visibleDetail {A : Type} (k : CaseRecord × CaseDetail → CaseProg A) :
    Blind p caseId draws ((mapErrors (visibleDetail p caseId)).elim k .raise) := by
  refine ⟨.error caseNotFound, fun w hdenies => ?_⟩
  simp only [mapErrors, visibleDetail, Prog.bind_eq, Prog.elim_elim]
  refine eval_denied hdenies (fun detail assetId hassetId hasset => ?_) rfl
  rw [visibleCaseOrNotFound_hidden hassetId hasset]
  rfl

theorem blind_getCase : Blind p caseId draws (getCaseRoute p caseId) :=
  .lift fun _ => blind_visibleDetail _

theorem blind_getCaseTimeline : Blind p caseId draws (getCaseTimelineRoute p caseId) :=
  .lift fun _ => blind_visibleDetail _

theorem eval_requireVisibleCase (hdenies : w.db.Denies p caseId) :
    (requireVisibleCase p caseId).eval CaseStmt.onWork draws w [] = (.error caseNotFound, w) := by
  refine eval_denied hdenies (fun detail assetId hassetId hasset => ?_) rfl
  rw [hassetId]
  exact if_pos hasset

theorem blind_applyTransition {uuid5 : PyStr → Uuid} {context : RequestContext} {t : TransitionParameters} :
    Blind p t.caseId draws (applyTransitionRoute uuid5 p context t) := by
  have hmoves : ∀ k : TransitionCommand × CaseRecord → CaseProg CaseResponse, Blind p t.caseId draws
      ((mapErrors do
        let command ← transitionCommand uuid5 p context t
        let updated ← transition p.organizationId command
        return (command, updated)).elim k .raise) := by
    intro k
    refine ⟨.error caseNotFound, fun w hdenies => ?_⟩
    simp only [mapErrors, transitionCommand, Prog.bind_eq, Prog.elim_elim]
    refine eval_denied hdenies (fun detail assetId hassetId hasset => ?_) rfl
    rw [visibleCaseOrNotFound_hidden hassetId hasset]
    rfl
  unfold applyTransitionRoute applyTransitionRequest
  cases requireCaseReadAccess p with
  | error e => exact ⟨.error e, fun _ _ => rfl⟩
  | ok _ =>
    cases requireCaseCreateAccess p with
    | error e => exact ⟨.error e, fun _ _ => rfl⟩
    | ok _ => exact hmoves _

end

/-! ### Programs of the routes -/

section

variable {sc : Scope} {out : RowId → Prop} {outside : Db} {p : AuthenticatedPrincipal} {caseId : Uuid}

theorem confined_mapErrors {A : Type} {Q : A → Prop} {prog : CaseProg A}
    (hprog : prog.Confined (caseConfinement sc out outside) Q) :
    (mapErrors prog).Confined (caseConfinement sc out outside) Q :=
  hprog.elim (fun _ ha => ha) fun _ => trivial

/-- A check before the statements. -/
theorem confined_lift_bind {A B : Type} {x : Except CaseError A} {k : A → CaseProg B} {Q : B → Prop}
    (hk : ∀ a, (k a).Confined (caseConfinement sc out outside) Q) :
    ((Prog.lift x : CaseProg A) >>= k).Confined (caseConfinement sc out outside) Q :=
  (Prog.confined_lift (Q := fun _ => True) fun _ _ => trivial).bind fun a _ => hk a

theorem confined_visibleDetail (hcase : sc.case p.organizationId caseId = true) :
    (visibleDetail p caseId).Confined (caseConfinement sc out outside) fun _ => True := by
  unfold visibleDetail
  refine (confined_getDetail hcase).bind fun detail _ => ?_
  generalize visibleCaseOrNotFound detail.case p = visible
  exact confined_lift_bind fun case => True.intro

theorem confined_getCaseRoute (hcase : sc.case p.organizationId caseId = true) :
    (getCaseRoute p caseId).Confined (caseConfinement sc out outside) fun _ => True :=
  confined_lift_bind fun _ => (confined_mapErrors (confined_visibleDetail hcase)).bind fun _ _ => trivial

theorem confined_getCaseTimelineRoute (hcase : sc.case p.organizationId caseId = true) :
    (getCaseTimelineRoute p caseId).Confined (caseConfinement sc out outside) fun _ => True :=
  confined_lift_bind fun _ => (confined_mapErrors (confined_visibleDetail hcase)).bind fun _ _ => trivial

theorem confined_requireVisibleCase (hcase : sc.case p.organizationId caseId = true) :
    (requireVisibleCase p caseId).Confined (caseConfinement sc out outside) fun _ => True := by
  refine (confined_getDetail hcase).elim (fun detail _ => ?_) fun e => ?_
  · cases detail.case.assetId with
    | none => trivial
    | some assetId =>
      dsimp only
      split_ifs <;> trivial
  · cases e <;> trivial

/-- The command of a route names its case, and draws its identifiers. -/
theorem confined_transitionCommand {uuid5 : PyStr → Uuid} {context : RequestContext} {t : TransitionParameters}
    (hcase : sc.case p.organizationId t.caseId = true) :
    (transitionCommand uuid5 p context t).Confined (caseConfinement sc out outside) fun command =>
      command.caseId = t.caseId ∧ ¬out (.transition command.transitionId) ∧ ¬out (.event command.eventId) := by
  unfold transitionCommand
  refine (confined_getDetail hcase).bind fun detail _ => ?_
  generalize visibleCaseOrNotFound detail.case p = visible
  refine confined_lift_bind fun _ => ?_
  refine confined_lift_bind fun actor => ?_
  refine Prog.confined_draw_bind fun transitionId htransition => ?_
  refine Prog.confined_draw_bind fun eventId hevent => ?_
  refine Prog.confined_lift fun command hmade => ?_
  have hmade := Raising.mapError_ok hmade
  obtain ⟨hid, hevent'⟩ := TransitionCommand.make_ids hmade
  refine ⟨(TransitionCommand.make_ok hmade).1, ?_, ?_⟩
  · rw [hid]
    exact htransition _ rfl
  · rw [hevent']
    exact hevent _ rfl

theorem confined_applyTransitionRoute {uuid5 : PyStr → Uuid} {context : RequestContext} {t : TransitionParameters}
    (hserves : sc.Serves out p.organizationId) (hcase : sc.case p.organizationId t.caseId = true) :
    (applyTransitionRoute uuid5 p context t).Confined (caseConfinement sc out outside) fun _ => True := by
  have hmoves : (do
        let command ← transitionCommand uuid5 p context t
        let updated ← transition p.organizationId command
        return (command, updated)).Confined (caseConfinement sc out outside) fun _ => True := by
    refine (confined_transitionCommand hcase).bind fun command hcommand => ?_
    have hcase' : sc.case p.organizationId command.caseId = true := by
      rw [hcommand.1]
      exact hcase
    exact (confined_transition hserves hcase' hcommand.2.1 hcommand.2.2).bind fun _ _ => trivial
  refine Prog.Confined.bind (Q := fun _ => True) ?_ fun _ _ => trivial
  exact confined_lift_bind fun _ => confined_lift_bind fun _ => confined_mapErrors hmoves

theorem confined_createUploadIntent {binds : PyStr → List PyStr} {call : UploadCall}
    (hserves : sc.Serves out call.organizationId) (hcase : sc.case call.organizationId call.caseId = true)
    (hstorage : ∀ artifactId, ¬out (.artifact artifactId) →
      ¬out (.storage call.organizationId (storageKey call.organizationId call.caseId artifactId))) :
    (createUploadIntent binds call).Confined (intentConfinement sc out outside) fun _ => True := by
  refine Prog.confined_draw_bind fun artifactId hartifact => ?_
  refine Prog.confined_draw_bind fun intentId hintent => ?_
  refine Prog.Confined.bind (Prog.confined_lift (Q := fun _ => True) fun _ _ => trivial) fun request _ => ?_
  refine Prog.Confined.bind (Prog.confined_lift (Q := fun _ => True) fun _ _ => trivial) fun capability _ => ?_
  have hunused : (call.intent artifactId intentId capability.expiresAt).Unused out call.organizationId :=
    ⟨hintent _ rfl, hartifact _ rfl, hstorage artifactId (hartifact _ rfl)⟩
  exact (confined_createIntent hserves hcase hunused).bind fun _ _ => trivial

end

/-! ### Routes on the part of a principal -/

namespace Route

variable {α β : Type}

theorem bind_apply (r : Route α) (k : α → Route β) (w : Work) :
    (r >>= k) w = match r w with
      | (.ok a, w') => k a w'
      | (.error e, w') => (.error e, w') := by
  have hbind : (r >>= k) w = (ExceptT.bindCont k (r w).1) (r w).2 := rfl
  rw [hbind]
  rcases r w with ⟨e | a, w'⟩ <;> rfl

theorem map_apply (f : α → β) (r : Route α) (w : Work) : (f <$> r) w = ((r w).1.map f, (r w).2) := by
  have hmap : (f <$> r) w = (r >>= fun a => pure (f a)) w := rfl
  rw [hmap, bind_apply]
  rcases r w with ⟨e | a, w'⟩ <;> rfl

section

variable {sc : Scope} {out : RowId → Prop} {outside : Db} {w : Work}

/-- The route acts on the part as on the database, and leaves the other rows alone. -/
def Scoped (sc : Scope) (out : RowId → Prop) (outside : Db) (r : Route α) (w : Work) : Prop :=
  SameOn sc out outside (r (w.within sc)) (r w)

theorem Scoped.bind {r : Route α} {k : α → Route β} (hr : r.Scoped sc out outside w)
    (hk : ∀ a w', r w = (.ok a, w') → w'.Confined sc out outside → (k a).Scoped sc out outside w') :
    (r >>= k).Scoped sc out outside w := by
  obtain ⟨hsame, hconfined⟩ := hr
  unfold Scoped
  rw [bind_apply, bind_apply, hsame]
  rcases hrun : r w with ⟨e | a, w'⟩
  · rw [hrun] at hconfined
    exact ⟨rfl, hconfined⟩
  · rw [hrun] at hconfined
    exact hk a w' hrun hconfined

theorem Scoped.map {r : Route α} (hr : r.Scoped sc out outside w) (f : α → β) :
    (f <$> r).Scoped sc out outside w := by
  obtain ⟨hsame, hconfined⟩ := hr
  unfold Scoped
  rw [map_apply, map_apply, hsame]
  exact ⟨rfl, hconfined⟩

theorem scoped_query {f : Db → Except RouteError α} (hf : f (w.db.within sc) = f w.db)
    (hw : w.Confined sc out outside) : (ofQuery f).Scoped sc out outside w := sameOn_query hf hw

/-- A check before the rest of a route. -/
theorem Scoped.check {x : Except CaseError Unit} {k : Unit → Route β} (hw : w.Confined sc out outside)
    (hk : (k ()).Scoped sc out outside w) : (Route.check x >>= k).Scoped sc out outside w := by
  refine Scoped.bind (sameOn_query rfl hw) fun _ w' hrun _ => ?_
  cases congrArg Prod.snd hrun
  exact hk

theorem scoped_ofCase {Q : α → Prop} {prog : CaseProg α} (hprog : prog.Confined (caseConfinement sc out outside) Q)
    {draws : Nat → Uuid} (hdraws : ∀ n, Unused out (draws n)) (hw : w.Confined sc out outside) :
    (ofCase draws prog).Scoped sc out outside w := by
  obtain ⟨hsame, hconfined⟩ := sameOn_eval_case hprog hdraws hw
  unfold Scoped ofCase
  rw [hsame]
  exact ⟨rfl, hconfined⟩

theorem scoped_ofIntent {Q : α → Prop} {prog : IntentProg α}
    (hprog : prog.Confined (intentConfinement sc out outside) Q) {mapped : IntentError → RouteError}
    {draws : Nat → Uuid} (hdraws : ∀ n, Unused out (draws n)) (hw : w.Confined sc out outside) :
    (ofIntent draws mapped prog).Scoped sc out outside w := by
  obtain ⟨hsame, hconfined⟩ := sameOn_eval_intent hprog hdraws hw
  unfold Scoped ofIntent
  rw [hsame]
  exact ⟨rfl, hconfined⟩

end

section

variable {p : AuthenticatedPrincipal} {db : Db} {audits : List Uuid} {caseId : Uuid} {draws : Nat → Uuid}

/-- The transaction at its start. -/
theorem start_confined (h : db.Coherent) : ({ db := db } : Work).Confined (.ofPrincipal p db audits)
    (db.concealed p audits) (db.outside (.ofPrincipal p db audits)) :=
  ⟨divided_ofPrincipal h p audits, rfl, fun _ hchange => absurd hchange List.not_mem_nil⟩

/-- A program about one case, visible or not. -/
theorem scoped_aboutCase (h : db.Coherent) {prog : CaseProg α} {Q : α → Prop}
    (hconfined : (Scope.ofPrincipal p db audits).case p.organizationId caseId = true →
      prog.Confined (caseConfinement (.ofPrincipal p db audits) (db.concealed p audits)
        (db.outside (.ofPrincipal p db audits))) Q)
    (hblind : Blind p caseId draws prog) (hdraws : ∀ n, Unused (db.concealed p audits) (draws n)) :
    (ofCase draws prog).Scoped (.ofPrincipal p db audits) (db.concealed p audits)
      (db.outside (.ofPrincipal p db audits)) { db := db } := by
  by_cases hhides : db.hides p caseId = true
  · obtain ⟨r, hr⟩ := hblind
    have hpart := hr (Work.within (.ofPrincipal p db audits) { db := db }) (denies_within hhides)
    have hwhole := hr { db := db } (denies_of_hides h hhides)
    unfold Scoped ofCase
    rw [hpart, hwhole]
    exact ⟨rfl, start_confined h⟩
  · refine scoped_ofCase (hconfined ?_) hdraws (start_confined h)
    show db.shows p (p.organizationId, caseId) = true
    rw [Db.shows, beq_self_eq_true, Bool.eq_false_iff.mpr hhides]
    rfl

/-- A route behind `_require_visible_case`. -/
theorem scoped_behindVisible (h : db.Coherent) (hdraws : ∀ n, Unused (db.concealed p audits) (draws n))
    {k : Unit → Route β}
    (hk : ∀ w' : Work, (Scope.ofPrincipal p db audits).case p.organizationId caseId = true →
      w'.Confined (.ofPrincipal p db audits) (db.concealed p audits) (db.outside (.ofPrincipal p db audits)) →
      (k ()).Scoped (.ofPrincipal p db audits) (db.concealed p audits)
        (db.outside (.ofPrincipal p db audits)) w') :
    (ofCase draws (requireVisibleCase p caseId) >>= k).Scoped (.ofPrincipal p db audits)
      (db.concealed p audits) (db.outside (.ofPrincipal p db audits)) { db := db } := by
  refine (scoped_aboutCase h confined_requireVisibleCase ⟨_, fun _ => eval_requireVisibleCase⟩ hdraws).bind
    fun _ w' hrun hw' => hk w' ?_ hw'
  have hshows : db.hides p caseId = false := by
    refine Bool.eq_false_iff.mpr fun hhides => ?_
    have hdenied := @eval_requireVisibleCase p caseId draws { db := db } (denies_of_hides h hhides)
    unfold ofCase at hrun
    rw [hdenied] at hrun
    cases hrun
  show db.shows p (p.organizationId, caseId) = true
  rw [Db.shows, beq_self_eq_true, hshows]
  rfl

end

end Route

/-! ### Requests -/

section

variable (env : ApiEnvironment) {p : AuthenticatedPrincipal} (context : RequestContext) {draws : Nat → Uuid}
  {db : Db} {audits : List Uuid}

/-- **A request on the part of its principal.** -/
theorem CaseRequest.scoped (h : db.Coherent) (hdraws : ∀ n, Unused (db.concealed p audits) (draws n))
    (request : CaseRequest) :
    (request.route env p context draws).Scoped (.ofPrincipal p db audits) (db.concealed p audits)
      (db.outside (.ofPrincipal p db audits)) { db := db } := by
  have hstart := @Route.start_confined p db audits h
  have hshows := shows_ofPrincipal h p audits
  have hserves := serves_ofPrincipal p db audits
  cases request with
  | listCases query =>
    refine Route.Scoped.map (Route.scoped_query ?_ hstart) _
    have hlist : ∀ cursor, NetopsCopilot.listCases env.ilike p.organizationId (query.args p cursor)
          (db.within (.ofPrincipal p db audits)) =
        NetopsCopilot.listCases env.ilike p.organizationId (query.args p cursor) db := fun cursor => by
      have hshows' : (Scope.ofPrincipal p db audits).Shows p.organizationId (query.args p cursor).assetIds db := hshows
      exact listCases_within hshows'
    simp only [listCasesRoute, hlist]
  | getCase caseId =>
    exact (Route.scoped_aboutCase h confined_getCaseRoute blind_getCase hdraws).map _
  | getCaseTimeline caseId =>
    exact (Route.scoped_aboutCase h confined_getCaseTimelineRoute blind_getCaseTimeline hdraws).map _
  | replayCaseEvents lastEventId limit =>
    refine Route.Scoped.map (Route.scoped_query ?_ hstart) _
    simp only [replayCaseEventsRoute, readAfter_within hshows]
  | listCaseArtifactStatuses caseId =>
    refine Route.Scoped.map (Route.Scoped.check hstart ?_) _
    refine Route.scoped_behindVisible h hdraws fun w' hcase hw' => ?_
    exact Route.scoped_query (congrArg Except.ok (listForCase_within hw'.divided hcase)) hw'
  | previewCaseConfig caseId config =>
    refine Route.Scoped.map (Route.Scoped.check hstart ?_) _
    exact Route.scoped_behindVisible h hdraws fun w' _ hw' => Route.scoped_query rfl hw'
  | applyTransition request =>
    exact (Route.scoped_aboutCase h (confined_applyTransitionRoute hserves) blind_applyTransition hdraws).map _
  | createUploadIntent caseId body =>
    refine Route.Scoped.map (Route.Scoped.bind (Route.scoped_query rfl hstart) fun store w' hrun _ => ?_) _
    cases congrArg Prod.snd hrun
    refine Route.Scoped.check hstart (Route.scoped_behindVisible h hdraws fun w' hcase hw' => ?_)
    refine Route.Scoped.check hw' (Route.scoped_ofIntent (confined_createUploadIntent hserves hcase ?_) hdraws hw')
    exact fun artifactId hartifact => storage_not_concealed h hartifact
  | completeUploadIntent caseId intentId =>
    refine Route.Scoped.map (Route.Scoped.bind (Route.scoped_query rfl hstart) fun store w' hrun _ => ?_) _
    cases congrArg Prod.snd hrun
    refine Route.Scoped.check hstart (Route.scoped_behindVisible h hdraws fun w' hcase hw' => ?_)
    exact Route.scoped_ofIntent (confined_complete hserves hcase) hdraws hw'

/-- A request is answered as if no hidden row existed, and leaves the hidden rows as they are. -/
theorem CaseRequest.serve_within (h : db.Coherent) (hdraws : ∀ n, Unused (db.concealed p audits) (draws n))
    (request : CaseRequest) :
    request.serve env p context draws (db.within (.ofPrincipal p db audits)) =
        ((request.serve env p context draws db).1,
          (request.serve env p context draws db).2.within (.ofPrincipal p db audits)) ∧
      (request.serve env p context draws db).2.outside (.ofPrincipal p db audits) =
        db.outside (.ofPrincipal p db audits) := by
  obtain ⟨hsame, hconfined⟩ := request.scoped env context h hdraws
  have hstart : ({ db := db.within (.ofPrincipal p db audits) } : Work) =
      Work.within (.ofPrincipal p db audits) { db := db } := rfl
  unfold CaseRequest.serve
  rw [hstart, hsame]
  rcases hrun : request.route env p context draws { db := db } with ⟨e | reply, w⟩
  · exact ⟨rfl, rfl⟩
  · rw [hrun] at hconfined
    have hpasses : ((Work.within (.ofPrincipal p db audits) w).changes.all fun change =>
          change.passes (Work.within (.ofPrincipal p db audits) w).db) =
        w.changes.all fun change => change.passes w.db := hconfined.passes
    simp only [hpasses]
    by_cases htriggers : (w.changes.all fun change => change.passes w.db) = true
    · rw [if_pos htriggers, if_pos htriggers]
      exact ⟨rfl, hconfined.outside⟩
    · rw [if_neg htriggers, if_neg htriggers]
      exact ⟨rfl, rfl⟩

end

/-! ### Main result -/

/-- **Hidden cases are indistinguishable from none.** Two databases that agree on what a principal sees answer each
of its requests the same and change what it sees in the same way, like a database without the hidden rows; the
hidden rows stay as they were. -/
theorem hidden_cases_indistinguishable (env : ApiEnvironment) {p : AuthenticatedPrincipal} {db₁ db₂ : Db}
    (h₁ : db₁.Coherent) (h₂ : db₂.Coherent) {audits₁ audits₂ : List Uuid}
    (hagree : db₁.within (.ofPrincipal p db₁ audits₁) = db₂.within (.ofPrincipal p db₂ audits₂))
    (request : CaseRequest) (context : RequestContext) {draws : Nat → Uuid}
    (hdraws₁ : ∀ n, Unused (db₁.concealed p audits₁) (draws n))
    (hdraws₂ : ∀ n, Unused (db₂.concealed p audits₂) (draws n)) :
    let serve := request.serve env p context draws
    (serve db₁).1 = (serve db₂).1 ∧
      (serve db₁).2.within (.ofPrincipal p db₁ audits₁) = (serve db₂).2.within (.ofPrincipal p db₂ audits₂) ∧
      serve (db₁.within (.ofPrincipal p db₁ audits₁)) =
        ((serve db₁).1, (serve db₁).2.within (.ofPrincipal p db₁ audits₁)) ∧
      (serve db₁).2.outside (.ofPrincipal p db₁ audits₁) = db₁.outside (.ofPrincipal p db₁ audits₁) ∧
      (serve db₂).2.outside (.ofPrincipal p db₂ audits₂) = db₂.outside (.ofPrincipal p db₂ audits₂) := by
  intro serve
  obtain ⟨hsame₁, hhidden₁⟩ := request.serve_within env context h₁ hdraws₁
  obtain ⟨hsame₂, hhidden₂⟩ := request.serve_within env context h₂ hdraws₂
  have hboth := hsame₁
  rw [hagree, hsame₂, Prod.mk.injEq] at hboth
  exact ⟨hboth.1.symm, hboth.2.symm, hsame₁, hhidden₁, hhidden₂⟩

/-- An operator of the organization 7 without assets. -/
def sampleViewer : AuthenticatedPrincipal where
  subject := py "operator"
  organizationId := 7
  roles := {.operator}
  assetIds := ∅
  issuer := py "issuer"

/-- A case of an asset, and its event. -/
def sampleHiddenCase : CaseRow :=
  { sampleFeedCase with id := 20, assetId := some 9, idempotencyKey := py "hidden" }

def sampleHiddenEvent : EventRow := { sampleFeedEvent 31 60 with caseId := 20 }

/-- A visible case, with or without the hidden one. -/
def sampleCases (hidden : Bool) : Db where
  organizations := [7]
  assets := [(7, 9)]
  cases := sampleFeedCase :: if hidden then [sampleHiddenCase] else []
  events := sampleFeedEvent 5 200 :: if hidden then [sampleHiddenEvent] else []

/-- `UUID` reads the identifier of the hidden event; the request does not read a time. -/
def sampleEnvironment : ApiEnvironment where
  cursors :=
    { decodeOther := fun _ => none
      floatOf := fun _ => ⟨py "0.0", by decide, by decide, by decide⟩
      fromIsoFormat := fun _ => none
      uuid := fun s => if s = Uuid.str 31 then some 31 else none }
  times := ⟨fun _ => ⟨2026, 7, 17, 12, 0, 0, 0, by decide, by decide⟩, fun _ => 0⟩
  ilike := fun _ _ => true
  sha256 := Hashlib.sha256
  uuid5 := fun _ => 3
  unicode := .ascii
  binds := bindNames
  store := none

theorem sampleCases_coherent (hidden : Bool) : (sampleCases hidden).Coherent := by
  have hintegrity : (sampleCases hidden).Integrity := by
    constructor <;> cases hidden <;>
      simp [sampleCases, sampleHiddenCase, sampleHiddenEvent, sampleFeedCase, sampleFeedEvent]
  have hkeys : py "k" ≠ py "hidden" := by decide
  refine ⟨hintegrity, ?_, ?_, ?_, ?_, ?_, ?_⟩ <;> cases hidden <;>
    simp [sampleCases, sampleHiddenCase, sampleHiddenEvent, sampleFeedCase, sampleFeedEvent, hkeys]

theorem sampleCases_unused (hidden : Bool) : Unused ((sampleCases hidden).concealed sampleViewer []) 1000 := by
  have hnone : ∀ k : RowId, k.uuid = some 1000 → (sampleCases hidden).caseOf k = none := by
    intro k hk
    cases k <;> cases hk <;> cases hidden <;> rfl
  rintro k hk (⟨q, hq, -⟩ | ⟨r, hr, -⟩)
  · rw [hnone k hk] at hq
    cases hq
  · cases hidden <;> cases hr

/-- A replay behind the event of the hidden case is refused, as behind no event. -/
theorem hidden_cases_indistinguishable_sample :
    ((CaseRequest.replayCaseEvents (some (Uuid.str 31)) 100).serve sampleEnvironment sampleViewer ⟨12, 300⟩
        (fun _ => 1000) (sampleCases true)).1 =
      ((CaseRequest.replayCaseEvents (some (Uuid.str 31)) 100).serve sampleEnvironment sampleViewer ⟨12, 300⟩
        (fun _ => 1000) (sampleCases false)).1 := by
  have hagree : (sampleCases true).within (.ofPrincipal sampleViewer (sampleCases true) []) =
      (sampleCases false).within (.ofPrincipal sampleViewer (sampleCases false) []) := by
    rfl
  exact (hidden_cases_indistinguishable sampleEnvironment (sampleCases_coherent true) (sampleCases_coherent false)
    hagree (.replayCaseEvents (some (Uuid.str 31)) 100) ⟨12, 300⟩ (fun _ => sampleCases_unused true)
    fun _ => sampleCases_unused false).1

end NetopsCopilot
