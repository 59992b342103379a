import NetopsCopilot.Api.CaseCreation
import NetopsCopilot.Api.CaseSystem
import NetopsCopilot.Application.CaseIdempotency
import NetopsCopilot.Lib.Partial
import NetopsCopilot.Web.NewCase

/-!
# Retries of a new case

The API serves the submissions of the forms, each any number of times and in any order, among requests of other clients
and whatever fails. Two submissions with one key build the same command, so the key never meets another request: a
submission is answered by the case that its key has, and never by an idempotency conflict (`intake_retries_safe`).
-/

namespace NetopsCopilot

open Txn

/-! ### The command of a body -/

/-- The input command of a body. -/
def BuildsInput (sha256 : PyStr → Sha256Hex) : Option CaseInputRequest → Option CaseInputCommand → Prop
  | none, none => True
  | some i, some c =>
    c.inputKind = i.inputKind ∧ c.content = i.content ∧ c.contentSha256 = sha256 (Json.obj i.content).dumps
  | _, _ => False

/-- The command carries what the body says. -/
structure Builds (sha256 : PyStr → Sha256Hex) (body : CreateCaseRequest) (c : CreateCaseCommand) : Prop where
  title : c.title = body.title
  category : c.category = body.category
  severity : c.severity = body.severity
  assetId : c.assetId = body.assetId
  input : BuildsInput sha256 body.input c.caseInput

section

variable {sha256 : PyStr → Sha256Hex} {body : CreateCaseRequest} {c c' : CreateCaseCommand}

theorem BuildsInput.payload {input : Option CaseInputRequest} {i i' : Option CaseInputCommand}
    (h : BuildsInput sha256 input i) (h' : BuildsInput sha256 input i') :
    CaseInputCommand.payload i = CaseInputCommand.payload i' := by
  cases input <;> cases i <;> cases i' <;> simp only [BuildsInput] at h h'
  · rfl
  · obtain ⟨hkind, hcontent, hdigest⟩ := h
    obtain ⟨hkind', hcontent', hdigest'⟩ := h'
    simp only [CaseInputCommand.payload, hkind, hcontent, hdigest, hkind', hcontent', hdigest']

/-- The commands of one body have one fingerprint. -/
theorem Builds.requestSha256 (h : Builds sha256 body c) (h' : Builds sha256 body c') :
    c.requestSha256 sha256 = c'.requestSha256 sha256 := by
  have hpayload : c.payload = c'.payload := by
    unfold CreateCaseCommand.payload
    rw [h.title, h.category, h.severity, h.assetId, h.input.payload h'.input, h'.title, h'.category, h'.severity,
      h'.assetId]
  unfold CreateCaseCommand.requestSha256
  rw [hpayload]

theorem builds_make {a : CreateCaseArgs} (h : CreateCaseCommand.make a = .ok c) :
    c.title = a.title ∧ c.category = a.category ∧ c.severity = a.severity ∧ c.assetId = a.assetId := by
  unfold CreateCaseCommand.make at h
  split_ifs at h
  cases h
  exact ⟨rfl, rfl, rfl, rfl⟩

theorem inputKind_make {inputId : Uuid} {inputKind : PyStr} {contentSha256 : Sha256Hex} {content : List (PyStr × Json)}
    {contentDict : (Json.obj content).Dict} {i : CaseInputCommand}
    (h : CaseInputCommand.make inputId inputKind contentSha256 content contentDict = .ok i) :
    i.inputKind = inputKind := by
  unfold CaseInputCommand.make at h
  split_ifs at h
  cases h
  rfl

end

/-! ### Conflicts -/

/-- It is no answer `409`. -/
def NotConflict (e : CaseError) : Prop := ∀ code message, e ≠ .api 409 code message

section

variable {sha256 : PyStr → Sha256Hex} {ok : HistoryEntry → Prop} {uuid5 : PyStr → Uuid} {x : Local SpineWrite World}

theorem notConflict_domain (e : DomainError) : NotConflict (.domain e) := fun _ _ h => by cases h

theorem notConflict_db (d : DbError) : NotConflict (.db d) := fun _ _ h => by cases h

theorem notConflict_api {status : Nat} (h : status ≠ 409) (code message : PyStr) :
    NotConflict (.api status code message) := fun _ _ heq => h (CaseError.api.inj heq).1

theorem notConflict_valueError (message : PyStr) : NotConflict (mapCaseError (.domain (.valueError message))) := by
  unfold mapCaseError
  exact notConflict_api (by decide) _ _

theorem Gate.notConflict {α : Type} {y : Except CaseError α} (h : Gate y) {e : CaseError} (he : y = .error e) :
    NotConflict e := by
  obtain ⟨code, message, rfl⟩ := h e he
  exact notConflict_api (by decide) code message

/-- No command is refused as a conflict before it runs. -/
theorem raises_createCaseCommand (p : AuthenticatedPrincipal) (context : RequestContext) (idempotencyKey : PyStr)
    (body : CreateCaseRequest) :
    (createCaseCommand sha256 uuid5 p context idempotencyKey body).Raises NotConflict := by
  have hdomain : ∀ {α : Type} (y : Except DomainError α) (e : CaseError), y.mapError CaseError.domain = .error e →
      NotConflict e := by
    intro α y e he
    cases y with
    | ok a => cases he
    | error e' =>
      cases he
      exact notConflict_domain e'
  unfold createCaseCommand
  split_ifs
  · exact notConflict_valueError _
  have haccess := fun e => (gate_createAccess (p := p)).notConflict (e := e)
  have hscope := fun e => (gate_assetScope (p := p) body.assetId).notConflict (e := e)
  have hactor : ∀ e, actorFromPrincipal uuid5 p = .error e → NotConflict e := fun e => gate_actor.notConflict
  generalize requireCaseCreateAccess p = access at haccess ⊢
  generalize requireCreateAssetScope p body.assetId = scope at hscope ⊢
  generalize actorFromPrincipal uuid5 p = actor? at hactor ⊢
  refine (Prog.raises_lift haccess).bind fun _ => ?_
  refine (Prog.raises_lift hscope).bind fun _ => ?_
  refine (Prog.raises_lift hactor).bind fun actor => ?_
  refine Prog.Raises.bind ?_ fun caseInput => ?_
  · cases body.input with
    | none => trivial
    | some input => exact fun _ => (Prog.raises_lift (hdomain _)).bind fun _ => trivial
  · exact fun _ _ => Prog.raises_lift (hdomain _)

/-- The command of a request carries its body and its key. -/
theorem wp_createCaseCommand_builds (p : AuthenticatedPrincipal) (context : RequestContext) (idempotencyKey : PyStr)
    (body : CreateCaseRequest) :
    (spineDiscipline sha256 ok).wp (createCaseCommand sha256 uuid5 p context idempotencyKey body)
      ((spineDiscipline sha256 ok).Quietly x fun c => Builds sha256 body c ∧ c.idempotencyKey = idempotencyKey) x := by
  have hx := Discipline.Later.refl (δ := spineDiscipline sha256 ok) x
  unfold createCaseCommand
  split_ifs
  · exact Discipline.wp_raise _ fun y hy => hy
  simp only [Prog.bind_eq]
  generalize requireCaseCreateAccess p = access
  generalize requireCreateAssetScope p body.assetId = scope
  generalize actorFromPrincipal uuid5 p = actor?
  refine Discipline.wp_bind_quietly _ (Q := fun _ => True)
    (Discipline.wp_lift_quietly _ hx fun _ _ => trivial) fun _ y hy _ => ?_
  refine Discipline.wp_bind_quietly _ (Q := fun _ => True)
    (Discipline.wp_lift_quietly _ hy fun _ _ => trivial) fun _ y hy _ => ?_
  refine Discipline.wp_bind_quietly _ (Q := fun _ => True)
    (Discipline.wp_lift_quietly _ hy fun _ _ => trivial) fun actor y hy _ => ?_
  refine Discipline.wp_bind_quietly _ (Q := BuildsInput sha256 body.input) ?_ fun caseInput y hy hinput => ?_
  · cases body.input with
    | none => exact Discipline.wp_ret _ fun z hz => ⟨hy.trans hz, trivial⟩
    | some input =>
      simp only [requestInput, Prog.bind_eq, Prog.pure_eq]
      intro inputId
      simp only [Prog.elim]
      refine Discipline.wp_bind_quietly _ (Q := fun i => BuildsInput sha256 (some input) (some i))
        (Discipline.wp_lift_quietly _ hy fun i hi => ?_) fun i z hz hbuilds =>
          Discipline.wp_ret _ fun z' hz' => ⟨hz.trans hz', hbuilds⟩
      have hmake := Raising.mapError_ok hi
      obtain ⟨hdigest, hcontent⟩ := CaseInputCommand.make_ok hmake
      exact ⟨inputKind_make hmake, hcontent, hdigest⟩
  · intro caseId eventId
    refine Discipline.wp_lift_quietly _ hy fun c hc => ?_
    have hmake := Raising.mapError_ok hc
    obtain ⟨htitle, hcategory, hseverity, hassetId⟩ := builds_make hmake
    obtain ⟨hcaseInput, hkey, -⟩ := CreateCaseCommand.make_ok hmake
    exact ⟨⟨htitle, hcategory, hseverity, hassetId, by rw [hcaseInput]; exact hinput⟩, hkey⟩

end

/-! ### The system of the forms -/

section

variable (lib : IntakeLibrary) (sha256 : PyStr → Sha256Hex) (uuid5 : PyStr → Uuid) (sent : List Submission)

/-- The request of a submission. -/
def Submitted (idempotencyKey : PyStr) (body : CreateCaseRequest) : Prop :=
  ∃ d ∈ sent, apiRequest lib d.formData = some (idempotencyKey, body)

/-- A request that a submission makes, one of another client with a key of its own, or one that moves a case. -/
def FromForms (c : CaseCall) : Prop :=
  ∀ idempotencyKey body, c.request = .inl (idempotencyKey, body) →
    Submitted lib sent idempotencyKey body ∨ ∀ d ∈ sent, idempotencyKey ≠ Uuid.str d.idempotencyKey

/-- The clients of the API, when the forms have submitted `sent`. -/
def formSystem :
    System CaseStmt CaseStmt.Reply DbError Uuid CaseError CaseReply SpineWrite Key World
      { c : CaseCall // FromForms lib sent c } :=
  caseSystem fun c => c.val.program sha256 uuid5

/-- A case whose key is that of a submission was created from it. -/
def SentEntry : HistoryEntry → Prop
  | .created _ c => ∀ body, Submitted lib sent c.idempotencyKey body → Builds sha256 body c
  | .accepted _ _ => True

/-- How a request of a submission ends. -/
def FormEnds (c : CaseCall) (base : List SpineWrite) (r : Except CaseError CaseReply) (y : Local SpineWrite World) :
    Prop :=
  ∀ idempotencyKey body, c.request = .inl (idempotencyKey, body) → Submitted lib sent idempotencyKey body →
    match r with
    | .ok reply => ∃ command result, reply = .created c.principal.organizationId command result ∧
        command.idempotencyKey = idempotencyKey ∧ Builds sha256 body command ∧
        (result.created = true ∨ (result.created = false ∧ y.pending = base ∧
          Replays sha256 (SentEntry lib sha256 sent) base c.principal.organizationId command result.case.caseId y.db))
    | .error e => y.pending = base ∧ NotConflict e

/-- One body for each key. -/
def OneBody : Prop :=
  ∀ idempotencyKey body body', Submitted lib sent idempotencyKey body → Submitted lib sent idempotencyKey body' →
    body = body'

end

section

variable {lib : IntakeLibrary} {sha256 : PyStr → Sha256Hex} {uuid5 : PyStr → Uuid} {sent : List Submission}
  {x : Local SpineWrite World}

theorem Submitted.key {idempotencyKey : PyStr} {body : CreateCaseRequest}
    (h : Submitted lib sent idempotencyKey body) : ∃ d ∈ sent, idempotencyKey = Uuid.str d.idempotencyKey := by
  obtain ⟨d, hd, hrequest⟩ := h
  exact ⟨d, hd, apiRequest_key hrequest⟩

theorem IntakeReachable.oneBody {s : Intakes} (h : IntakeReachable s) : OneBody lib s.sent := by
  rintro idempotencyKey body body' ⟨d, hd, hbody⟩ ⟨d', hd', hbody'⟩
  have hkey := (apiRequest_key hbody).symm.trans (apiRequest_key hbody')
  obtain rfl := submission_of_key h hd hd' (Uuid.str_inj hkey)
  rw [hbody] at hbody'
  cases hbody'
  rfl

theorem key_of_creation {w : World} {organizationId : Uuid} {idempotencyKey : PyStr} {c : CreateCaseCommand}
    (h : c ∈ creations w organizationId idempotencyKey) : c.idempotencyKey = idempotencyKey := by
  obtain ⟨e, -, he⟩ := List.mem_filterMap.mp h
  cases e with
  | accepted org c' => cases he
  | created org c' =>
    dsimp only at he
    split_ifs at he with hkey
    cases he
    exact hkey.2

/-- The command of a request that the forms allow may enter the history. -/
theorem sentEntry_created (hone : OneBody lib sent) {c : CaseCall} (hc : FromForms lib sent c)
    {idempotencyKey : PyStr} {body : CreateCaseRequest} (hrequest : c.request = .inl (idempotencyKey, body))
    {command : CreateCaseCommand} (hbuilds : Builds sha256 body command)
    (hkey : command.idempotencyKey = idempotencyKey) (organizationId : Uuid) :
    SentEntry lib sha256 sent (.created organizationId command) := by
  intro body' hbody'
  rw [hkey] at hbody'
  rcases hc idempotencyKey body hrequest with hbody | hother
  · rwa [hone idempotencyKey body' body hbody' hbody]
  · obtain ⟨d, hd, hd'⟩ := hbody'.key
    exact absurd hd' (hother d hd)

/-- A command of a submission meets no other request under its key. -/
theorem notConflict_createRaises {base : List SpineWrite} {organizationId : Uuid} {command : CreateCaseCommand}
    {body : CreateCaseRequest} {e : CaseError} {w : World} (hbuilds : Builds sha256 body command)
    (hbody : Submitted lib sent command.idempotencyKey body)
    (h : CreateRaises sha256 (SentEntry lib sha256 sent) base organizationId command e w) :
    NotConflict (mapCaseError e) := by
  rcases h with ⟨d, rfl⟩ | ⟨id, -, original, -, hkey, hentry, -, hdigest⟩
  · exact notConflict_db d
  · have hfrom : Builds sha256 body original := hentry body (by rwa [hkey])
    exact absurd (hfrom.requestSha256 hbuilds) hdigest

theorem wp_createCaseRequest_form (hc : (spineDiscipline sha256 (SentEntry lib sha256 sent)).Coherent x.db)
    (hr : (spineDiscipline sha256 (SentEntry lib sha256 sent)).Ready x.db x.pending) (hsaves : x.saves = [])
    (hone : OneBody lib sent) {c : CaseCall} (hallowed : FromForms lib sent c) {idempotencyKey : PyStr}
    {body : CreateCaseRequest} (hrequest : c.request = .inl (idempotencyKey, body)) :
    (spineDiscipline sha256 (SentEntry lib sha256 sent)).wp (c.program sha256 uuid5) (fun r y =>
      Concludes sha256 (SentEntry lib sha256 sent) r y ∧ FormEnds lib sha256 sent c x.pending r y) x := by
  unfold CaseCall.program
  rw [hrequest]
  simp only [createCaseRequest, mapErrors, Prog.bind_eq, Prog.pure_eq]
  refine Discipline.wp_map _ (Discipline.wp_elim _ (Discipline.wp_mono _
    (Discipline.wp_and _ (wp_createCaseCommand_builds c.principal c.context idempotencyKey body)
      (Discipline.wp_raises _ (raises_createCaseCommand c.principal c.context idempotencyKey body))) ?_))
  rintro (e | command) y ⟨hy, hraises⟩
  · refine Discipline.wp_raise _ fun z hz => ⟨concludes_later hc hr hsaves (hy.trans hz) e, ?_⟩
    exact fun _ _ _ _ => ⟨(hy.trans hz).pending, hraises e rfl⟩
  obtain ⟨hy, hbuilds, hkey⟩ := hy
  simp only [Prog.elim_elim, Prog.elim]
  refine Discipline.wp_bimap _ (Discipline.wp_mono _ (wp_createCase (hy.coherent hc) (hy.ready hc hr)
    (sentEntry_created hone hallowed hrequest hbuilds hkey c.principal.organizationId)) ?_)
  rintro (e | result) z ⟨⟨hleft, hready⟩, hanswer⟩
  · refine ⟨⟨hleft.trans (hy.saves.trans hsaves), by simpa [Except.map, Except.mapError] using hready.1⟩, ?_⟩
    intro key' body' hrequest' hbody'
    obtain ⟨rfl, rfl⟩ : idempotencyKey = key' ∧ body = body' := by
      rw [hrequest] at hrequest'
      exact Prod.mk.inj (Sum.inl.inj hrequest')
    exact ⟨hready.2.trans hy.pending, notConflict_createRaises hbuilds (by rwa [hkey]) hanswer⟩
  · refine ⟨⟨hleft.trans (hy.saves.trans hsaves), hready⟩, ?_⟩
    intro key' body' hrequest' hbody'
    obtain ⟨rfl, rfl⟩ : idempotencyKey = key' ∧ body = body' := by
      rw [hrequest] at hrequest'
      exact Prod.mk.inj (Sum.inl.inj hrequest')
    refine ⟨command, result, rfl, hkey, hbuilds, hanswer.imp_right fun h => ?_⟩
    rw [hy.pending] at h
    exact h

/-- **Every request keeps the discipline**, and those of the forms end as they should. -/
theorem formSystem_sound (hone : OneBody lib sent) :
    Sound (formSystem lib sha256 uuid5 sent) (spineDiscipline sha256 (SentEntry lib sha256 sent))
      fun c => FormEnds lib sha256 sent c.val where
  command := by
    rintro ⟨c, hallowed⟩ db ps hc hr
    cases hrequest : c.request with
    | inl request =>
      obtain ⟨idempotencyKey, body⟩ := request
      refine Discipline.wp_mono _ (wp_createCaseRequest_form hc hr rfl hone hallowed hrequest) ?_
      exact fun r y hy => ⟨hy.1.1, hy.1.2, hy.2⟩
    | inr request =>
      have hprogram : (formSystem lib sha256 uuid5 sent).program ⟨c, hallowed⟩ =
          (applyTransitionRequest uuid5 c.principal c.context request.parameters).elim
            (fun p => .ret (.moved c.principal.organizationId p.1 p.2)) .raise := by
        show c.program sha256 uuid5 = _
        unfold CaseCall.program
        rw [hrequest]
        rfl
      rw [hprogram]
      refine Discipline.wp_map _ (Discipline.wp_mono _ (wp_applyTransitionRequest hc hr rfl
        (fun _ _ _ _ _ => trivial) c.principal c.context request.parameters) ?_)
      refine fun r y hy => ⟨hy.1, hy.2, fun key' body' hrequest' => ?_⟩
      rw [hrequest] at hrequest'
      cases hrequest'
  recordLocks := fun c r => recordLocks_caseSystem _ c r

/-- The case is new, or an earlier request of the submission created it and this one wrote nothing. -/
def CaseOfSubmission {C : Type} (sha256 : PyStr → Sha256Hex)
    (s : State CaseStmt CaseStmt.Reply DbError Uuid CaseError CaseReply SpineWrite World C) (i : ℕ)
    (organizationId : Uuid) (idempotencyKey : PyStr) (body : CreateCaseRequest) (result : CreateCaseResult) : Prop :=
  (result.created = true ∧ creations (viewOf s i) organizationId idempotencyKey = []) ∨
    (result.created = false ∧ (s.client i).pending = (s.client i).mark ∧
      ∃ original, creations (viewOf s i) organizationId idempotencyKey = [original] ∧
        result.case.caseId = original.caseId ∧ Builds sha256 body original)

/-- **A submission of the form can be repeated safely.** However the forms are opened, changed, submitted, answered and
left, and however the API serves their submissions among the requests of others, a key has at most one case, a request
of a submission returns that case with what was submitted, and none is refused as a conflict. -/
theorem intake_retries_safe {intakes : Intakes} (hforms : IntakeReachable intakes) {w₀ : World} (h₀ : w₀.Absent)
    {s : State CaseStmt CaseStmt.Reply DbError Uuid CaseError CaseReply SpineWrite World
      { c : CaseCall // FromForms lib intakes.sent c }}
    (hs : (formSystem lib sha256 uuid5 intakes.sent).Reachable w₀ s) :
    (∀ organizationId idempotencyKey, OneCase s.committed organizationId idempotencyKey) ∧
    ∀ i c hc idempotencyKey body, c.request = .inl (idempotencyKey, body) →
      Submitted lib intakes.sent idempotencyKey body →
      (∀ reply, (s.client i).running = some (⟨c, hc⟩, .ret reply) → ∃ command result,
        reply = .created c.principal.organizationId command result ∧ Builds sha256 body command ∧
        CaseOfSubmission sha256 s i c.principal.organizationId idempotencyKey body result) ∧
      ∀ e, (s.client i).running = some (⟨c, hc⟩, .raise e) →
        (s.client i).pending = (s.client i).mark ∧ NotConflict e := by
  have hinv := (formSystem_sound hforms.oneBody).reachable_inv (coherent_of_absent h₀) hs
  refine ⟨oneCase hinv.coherent, fun i c hc idempotencyKey body hrequest hbody => ⟨?_, ?_⟩⟩
  · intro reply hrun
    have hwp := (Sound.clientInv_running hrun).mp (hinv.client i)
    obtain ⟨-, hready, hends⟩ := hwp s.committed (Discipline.Rely.refl _ _)
    obtain ⟨command, result, rfl, hkey, hbuilds, hcreated | ⟨hcreated, hpending, hreplay⟩⟩ :=
      hends idempotencyKey body hrequest hbody
    · have hnotes : (formSystem lib sha256 uuid5 intakes.sent).record ⟨c, hc⟩
          (.ok (.created c.principal.organizationId command result)) =
            [.note (.created c.principal.organizationId command)] := if_pos hcreated
      rw [hnotes] at hready
      refine ⟨command, result, rfl, hbuilds, Or.inl ⟨hcreated, ?_⟩⟩
      rw [← hkey]
      exact creations_before hready.coherent
    · have hview : (spineDiscipline sha256 (SentEntry lib sha256 intakes.sent)).Coherent (viewOf s i) := by
        have hnotes : (formSystem lib sha256 uuid5 intakes.sent).record ⟨c, hc⟩
            (.ok (.created c.principal.organizationId command result)) = [] :=
          if_neg (by rw [hcreated]; exact Bool.false_ne_true)
        rw [hnotes, List.append_nil] at hready
        exact hready.coherent
      have hsees := viewOf_eq hpending
      obtain ⟨original, hone, hentry, hid, -⟩ := creations_of_hasOriginal (hsees ▸ hview) hreplay
      rw [← hsees, hkey] at hone
      refine ⟨command, result, rfl, hbuilds, Or.inr ⟨hcreated, hpending, original, hone, hid.symm, ?_⟩⟩
      have hmem : original ∈ creations (viewOf s i) c.principal.organizationId idempotencyKey := by
        rw [hone]
        exact List.mem_singleton_self _
      exact hentry body (by rwa [key_of_creation hmem])
  · intro e hrun
    have hwp := (Sound.clientInv_running hrun).mp (hinv.client i)
    obtain ⟨-, -, hends⟩ := hwp s.committed (Discipline.Rely.refl _ _)
    exact hends idempotencyKey body hrequest hbody

end

def sampleIntake : NewCaseIntake := { values := { title := js " Link down" }, idempotencyKey := 5 }

/-- A form that is filled in, submitted and, when no answer has come, submitted again. -/
theorem exists_sampleIntakes : ∃ s, IntakeReachable s ∧
    s.sent = [sampleIntake.submission, sampleIntake.submission] := by
  have hfilled : ∃ s, IntakeReachable s ∧ s.form 0 = some sampleIntake ∧ s.sent = [] := by
    have hopened := IntakeStep.opened (s := {}) 0 5 ⟨.idle, [], none⟩ (by decide)
    have hchanged := IntakeStep.changed 0 _ sampleIntake.values 6
      (Intakes.set_form_self {} 0 (some { idempotencyKey := 5 })) (s := { ({} : Intakes).set 0 _ with drawn := [5] })
      (by decide)
    exact ⟨_, (Relation.ReflTransGen.single hopened).tail hchanged, Intakes.set_form_self _ 0 _, rfl⟩
  obtain ⟨s, hs, hform, hsent⟩ := hfilled
  have hlost := (hs.tail (.submitted 0 sampleIntake hform rfl)).tail
    (.lost 0 { sampleIntake with hasSubmitted := true, pending := true } (Intakes.set_form_self s 0 _) rfl)
  refine ⟨_, hlost.tail (.submitted 0 _ (Intakes.set_form_self _ 0 _) rfl), ?_⟩
  show [_, _] ++ s.sent = _
  rw [hsent]
  rfl

theorem submitted_sample : Submitted sampleIntakeLibrary [sampleIntake.submission, sampleIntake.submission]
    (Uuid.str 5) sampleIntakeBody := by
  have hread : (apiRequest sampleIntakeLibrary sampleIntake.submission.formData).isSome = true := by decide +kernel
  obtain ⟨⟨key, body⟩, hrequest⟩ := Option.isSome_iff_exists.mp hread
  refine ⟨sampleIntake.submission, List.mem_cons_self, ?_⟩
  have hkey := apiRequest_key hrequest
  have hid : sampleIntake.submission.idempotencyKey = 5 := rfl
  rw [hid] at hkey
  have hbody : body = sampleIntakeBody := by
    unfold apiRequest at hrequest
    split at hrequest
    · cases hrequest
    · obtain ⟨body', hfound, heq⟩ := Option.map_eq_some_iff.mp hrequest
      obtain ⟨_, -, hsame⟩ := Option.bind_eq_some_iff.mp hfound
      obtain ⟨-, rfl⟩ := Prod.mk.inj heq
      exact (Option.some.inj hsame).symm
  rw [hrequest, hkey, hbody]

/-- A request of the sample form. -/
def sampleCall (context : RequestContext) : CaseCall :=
  ⟨sampleCreator, context, .inl (Uuid.str 5, sampleIntakeBody)⟩

theorem fromForms_sampleCall (context : RequestContext) : FromForms sampleIntakeLibrary
    [sampleIntake.submission, sampleIntake.submission] (sampleCall context) := by
  rintro _ _ ⟨⟩
  exact Or.inl submitted_sample

theorem program_created (sha256 : PyStr → Sha256Hex) (uuid5 : PyStr → Uuid) (p : AuthenticatedPrincipal)
    (context : RequestContext) (idempotencyKey : PyStr) (body : CreateCaseRequest) :
    CaseCall.program sha256 uuid5 ⟨p, context, .inl (idempotencyKey, body)⟩ =
      (createCaseRequest sha256 uuid5 p context idempotencyKey body).elim
        (fun q => .ret (.created p.organizationId q.1 q.2)) .raise := rfl

/-- What a request of the sample form leaves when it runs alone. -/
def sampleRun (context : RequestContext) (w : World) (draws : List Uuid) :
    Option (Except CaseError CaseReply × List SpineWrite) :=
  ((sampleCall context).program (fun _ => zeroSha256) (fun _ => 3)).solo caseStore w draws [] []

/-- The history that a reply leaves. -/
def sampleNotes : Except CaseError CaseReply → List SpineWrite
  | .ok reply => reply.notes
  | .error _ => []

theorem sampleRun_twice : ((sampleRun ⟨12, 300⟩ sampleWorld [10, 11, 30, 31]).bind fun q =>
    if caseStore.deferred (q.2 ++ sampleNotes q.1) sampleWorld then
      (sampleRun ⟨13, 400⟩ (caseStore.applyAll (q.2 ++ sampleNotes q.1) sampleWorld) [20, 21, 32, 33]).map fun q' =>
        q'.1.isOk
    else none) = some true := by
  have hscope : requireCreateAssetScope sampleCreator sampleIntakeBody.assetId = .ok () :=
    if_pos fun _ h => by cases h
  unfold sampleRun sampleCall
  rw [program_created, program_created]
  unfold createCaseRequest createCaseCommand
  rw [hscope]
  decide +kernel

theorem solo_formSystem (lib : IntakeLibrary) (sha256 : PyStr → Sha256Hex) (uuid5 : PyStr → Uuid)
    (sent : List Submission) (c : CaseCall) (hc : FromForms lib sent c) (w : World) (draws : List Uuid) :
    ((formSystem lib sha256 uuid5 sent).program ⟨c, hc⟩).solo (formSystem lib sha256 uuid5 sent).store w draws [] [] =
      (c.program sha256 uuid5).solo caseStore w draws [] [] := rfl

/-- A request that runs alone and commits. -/
theorem serial_formSystem {lib : IntakeLibrary} {sha256 : PyStr → Sha256Hex} {uuid5 : PyStr → Uuid}
    {sent : List Submission} {c : CaseCall} (hc : FromForms lib sent c) {w : World} {draws : List Uuid}
    {r : Except CaseError CaseReply} {ps : List SpineWrite}
    (hsolo : (c.program sha256 uuid5).solo caseStore w draws [] [] = some (r, ps))
    (hdeferred : caseStore.deferred (ps ++ sampleNotes r) w = true) :
    (formSystem lib sha256 uuid5 sent).serial [(⟨c, hc⟩, draws)] w =
      some (caseStore.applyAll (ps ++ sampleNotes r) w) := by
  have hnotes : (formSystem lib sha256 uuid5 sent).record ⟨c, hc⟩ r = sampleNotes r := by
    cases r <;> rfl
  rw [System.serial, solo_formSystem, hsolo]
  dsimp only
  rw [hnotes]
  exact if_pos hdeferred

/-- Of the second request of the sample form. -/
theorem intake_retries_safe_sample : ∃ (s : _) (hc : FromForms _ _ (sampleCall ⟨13, 400⟩)) (reply : CaseReply),
    (formSystem sampleIntakeLibrary (fun _ => zeroSha256) (fun _ => 3)
      [sampleIntake.submission, sampleIntake.submission]).Reachable sampleWorld s ∧
    (s.client 0).running = some (⟨sampleCall ⟨13, 400⟩, hc⟩, .ret reply) ∧
    ∃ command result, reply = .created 7 command result ∧ Builds (fun _ => zeroSha256) sampleIntakeBody command ∧
      CaseOfSubmission (fun _ => zeroSha256) s 0 7 (Uuid.str 5) sampleIntakeBody result := by
  obtain ⟨⟨form, sent, drawn⟩, hforms, hsent⟩ := exists_sampleIntakes
  obtain rfl : sent = [sampleIntake.submission, sampleIntake.submission] := hsent
  obtain ⟨⟨r, ps⟩, hfirst, hsecond⟩ := Option.bind_eq_some_iff.mp sampleRun_twice
  split_ifs at hsecond with hdeferred
  obtain ⟨⟨r', ps'⟩, hsolo, hok⟩ := Option.map_eq_some_iff.mp hsecond
  unfold sampleRun at hfirst hsolo
  have hserial := serial_formSystem (fromForms_sampleCall ⟨12, 300⟩) hfirst hdeferred
  cases r' with
  | error e => cases hok
  | ok reply =>
    rw [← solo_formSystem sampleIntakeLibrary _ _ _ _ (fromForms_sampleCall ⟨13, 400⟩)] at hsolo
    obtain ⟨s, hreach, hrunning, -⟩ := System.reachable_solo hsolo
    have hs := (System.reachable_serial hserial).trans hreach
    refine ⟨s, fromForms_sampleCall _, reply, hs, hrunning, ?_⟩
    exact ((intake_retries_safe hforms sampleWorld_absent hs).2 0 _ (fromForms_sampleCall _) (Uuid.str 5)
      sampleIntakeBody rfl submitted_sample).1 reply hrunning

end NetopsCopilot
