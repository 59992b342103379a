import NetopsCopilot.Api.MoveAnswers
import NetopsCopilot.Web.NewCaseRetries

/-!
# The case workbench (`web/app/cases/[caseId]/case-workbench.tsx`)

The workbench offers the forms that fit the state it shows. A submission meets the case as it is by then: the request
names the version that was shown, and a version has one state, so the case moves as the form says, or the form is
refused, but not as an invalid operation. Before that a form can fail in the action, and the API refuses a body with
an approval id that is no UUID or with half of a surrogate pair (`offered_form_answered`).
-/

namespace NetopsCopilot

open Txn

/-! ### The forms -/

/-- `CASE_WRITE_ROLES` of `session.ts`. -/
def caseWriteRoleTexts : List JsStr := [js "org_admin", js "operator", js "approver", js "platform_admin"]

/-- `canWriteCases`. -/
def canWriteCases (roles : List JsStr) : Bool := roles.any fun role => caseWriteRoleTexts.contains role

/-- `transitionTargets`. -/
def transitionTargets : CaseState → List CaseState
  | .new => [.investigating]
  | .investigating => [.diagnosed]
  | .diagnosed => [.fixProposed]
  | .fixProposed => [.confirmed]
  | .needsInformation => [.investigating]
  | .confirmed | .resolved | .learned => []

/-- What an operator enters in one of the forms. -/
inductive CaseForm where
  | transitionForm (target : CaseState) (approvalId note : JsStr)
  | resolutionForm (verificationNote : JsStr)
  | feedbackForm (note : JsStr)

/-- The forms that `CaseActions` shows. -/
def CaseForm.Offered (roles : List JsStr) (state : CaseState) : CaseForm → Prop
  | .transitionForm target _ _ => canWriteCases roles = true ∧ target ∈ transitionTargets state
  | .resolutionForm _ => canWriteCases roles = true ∧ state = .confirmed
  | .feedbackForm _ => canWriteCases roles = true ∧ state = .investigating

/-- The text of a form. -/
def CaseForm.text : CaseForm → JsStr
  | .transitionForm _ _ note | .resolutionForm note | .feedbackForm note => note

/-- The state that a form leads to. -/
def CaseForm.target : CaseForm → CaseState
  | .transitionForm target _ _ => target
  | .resolutionForm _ => .resolved
  | .feedbackForm _ => .needsInformation

/-- `new FormData(form)`, where `version` is that of the case that is shown. -/
def CaseForm.formData (version : Nat) : CaseForm → FormData
  | .transitionForm target approvalId note =>
    [(js "expected_version", .text (jsText (natText version))), (js "to_state", .text (jsText target.value))] ++
      (if target = .confirmed then [(js "approval_id", .text approvalId)] else []) ++ [(js "note", .text note)]
  | .resolutionForm verificationNote =>
    [(js "expected_version", .text (jsText (natText version))), (js "verification_note", .text verificationNote)]
  | .feedbackForm note => [(js "expected_version", .text (jsText (natText version))), (js "note", .text note)]

/-! ### The requests -/

/-- A text as Pydantic takes it: no surrogates, and 1 to 10000 characters. -/
def readNote (text : JsStr) : Option { s : PyStr // 1 ≤ s.length ∧ s.length ≤ 10000 } :=
  if h : 1 ≤ (codePoints text).length ∧ (codePoints text).length ≤ 10000 then
    if (codePoints text).all fun c => !(0xD800 ≤ c.val && c.val ≤ 0xDFFF) then some ⟨codePoints text, h⟩ else none
  else none

/-- A member that may be left out. -/
def readOptional {A B : Type} (read : A → Option B) : Option A → Option (Option B)
  | none => some none
  | some a => (read a).map some

theorem bounds_of_readNote (note : Option { s : PyStr // 1 ≤ s.length ∧ s.length ≤ 10000 }) :
    ∀ s ∈ note.map Subtype.val, 1 ≤ s.length ∧ s.length ≤ 10000 := by
  intro s hs
  obtain ⟨s', -, rfl⟩ := Option.mem_map.mp hs
  exact s'.property

section

variable (readUuid : PyStr → Option Uuid) (caseId : Uuid)

/-- What `transition_case` gets. -/
def readTransition (body : TransitionBody) : Option TransitionRequest :=
  match readOptional readNote body.note, readOptional (fun t => readUuid (codePoints t)) body.approvalId with
  | some note, some approvalId => some (.transitionCase caseId
      { expectedVersion := body.expectedVersion, toState := body.toState, approvalId := approvalId,
        verificationNote := none, knowledgeItemId := none, note := note.map Subtype.val,
        verificationNoteOk := bounds_of_readNote none, noteOk := bounds_of_readNote note })
  | _, _ => none

/-- What `resolve_case` gets. -/
def readResolution (body : NotedBody) : Option TransitionRequest :=
  (readNote body.note).map fun note => .resolveCase caseId ⟨body.expectedVersion, note.val, note.property⟩

/-- What `request_case_feedback` gets. -/
def readFeedback (body : NotedBody) : Option TransitionRequest :=
  (readNote body.note).map fun note => .requestCaseFeedback caseId ⟨body.expectedVersion, note.val, note.property⟩

/-- What becomes of a form that is submitted. -/
inductive FormOutcome where
  /-- The action returns without a request. -/
  | failed (result : CaseActionResult)
  /-- The body of the request is not valid, and is answered with 422. -/
  | unprocessable
  | read (request : TransitionRequest)

/-- An action with a session, and what the API reads of the body that it sends. -/
def submitForm {B : Type} (action : ActionCall B → JsStr → FormData → ActionRun B)
    (read : B → Option TransitionRequest) (formData : FormData) : FormOutcome :=
  let run := action (some fun _ _ => .ok ()) (jsText caseId.str) formData
  match run.sent with
  | none => .failed run.result
  | some body => (read body).elim .unprocessable .read

/-- A form is submitted for a case that is shown with a version. -/
def CaseForm.submit (version : Nat) (form : CaseForm) : FormOutcome :=
  match form with
  | .transitionForm _ _ _ =>
    submitForm caseId transitionCaseAction (readTransition readUuid caseId) (form.formData version)
  | .resolutionForm _ => submitForm caseId resolveCaseAction (readResolution caseId) (form.formData version)
  | .feedbackForm _ => submitForm caseId requestFeedbackAction (readFeedback caseId) (form.formData version)

end

/-- What was entered is not valid in the body of a request: the approval id is no UUID, or the text has half of a
surrogate pair. -/
def CaseForm.Unreadable (readUuid : PyStr → Option Uuid) (form : CaseForm) : Prop :=
  (∃ approvalId note, form = .transitionForm .confirmed approvalId note ∧
    readUuid (codePoints (jsTrim approvalId)) = none) ∨ ∃ c ∈ codePoints (jsTrim form.text), c.IsSurrogate

/-- A request is that of a form. -/
structure CaseForm.Fills (form : CaseForm) (caseId : Uuid) (version : Nat) (t : TransitionParameters) : Prop where
  caseId : t.caseId = caseId
  expectedVersion : t.expectedVersion = version
  toState : t.toState = form.target
  approval : form.target = .confirmed → t.approvalId ≠ none
  verification : ∀ note, form = .resolutionForm note → t.verificationNote ≠ none
  information : form.target = .needsInformation → t.note ≠ none

section

variable {readUuid : PyStr → Option Uuid} {caseId : Uuid} {version : Nat} {form : CaseForm}
  {request : TransitionRequest}

theorem readOptional_some {A B : Type} {read : A → Option B} {o : Option A} {o' : Option B}
    (h : readOptional read o = some o') (ho : o ≠ none) : o' ≠ none := by
  cases o with
  | none => exact absurd rfl ho
  | some a =>
    obtain ⟨b, -, rfl⟩ := Option.map_eq_some_iff.mp h
    exact Option.some_ne_none b

theorem lookup_expectedVersion (form : CaseForm) (version : Nat) :
    (form.formData version).lookup (js "expected_version") = some (.text (jsText (natText version))) := by
  cases form <;> exact List.lookup_cons_self

theorem natText_bounds (n : Nat) : ∀ c ∈ natText n, 48 ≤ c.val ∧ c.val ≤ 57 := by
  intro c hc
  have hdigit := natText_digits n c hc
  unfold isDigit at hdigit
  rwa [Bool.and_eq_true, decide_eq_true_eq, decide_eq_true_eq] at hdigit

theorem natText_link (n : Nat) : IsLinkText (natText n) := by
  intro c hc
  have hbounds := natText_bounds n c hc
  omega

/-- The version that is sent is the one that was shown. -/
theorem expectedVersion_formData {v : Nat} (h : expectedVersion (form.formData version) = some v) : v = version := by
  have hlink := natText_link version
  have hvalue : (jsText (natText version)).foldl (fun n c => 10 * n + (c.val - 48)) 0 = version := by
    rw [jsText_eq_map hlink, List.foldl_map]
    refine Eq.trans ?_ (decimalValue_natText version)
    unfold decimalValue
    refine List.foldl_ext _ _ 0 fun n c hc => ?_
    have hbounds := natText_bounds version c hc
    rw [digitValue, Fin.val_ofNat, Nat.mod_eq_of_lt (by omega), if_pos (by omega)]
  unfold expectedVersion requiredText at h
  rw [lookup_expectedVersion] at h
  dsimp only at h
  rw [jsTrim_link hlink] at h
  split_ifs at h
  all_goals dsimp only at h
  all_goals split_ifs at h
  rw [hvalue] at h
  exact (Option.some.inj h).symm

theorem toState_formData {target s : CaseState} {approvalId note : JsStr}
    (h : (requiredText ((CaseForm.transitionForm target approvalId note).formData version) (js "to_state") 40).bind
      caseStateOf = some s) : s = target := by
  have hlookup : ((CaseForm.transitionForm target approvalId note).formData version).lookup (js "to_state") =
      some (.text (jsText target.value)) := by
    have hne : (js "to_state" == js "expected_version") = false := by decide
    simp only [CaseForm.formData, List.cons_append, List.nil_append, List.lookup_cons, hne, beq_self_eq_true]
  have hread : (requiredText [(js "to_state", .text (jsText target.value))] (js "to_state") 40).bind caseStateOf =
      some target := by
    cases target <;> decide +kernel
  unfold requiredText at h hread
  rw [hlookup] at h
  rw [List.lookup_cons_self] at hread
  rw [hread] at h
  exact (Option.some.inj h).symm

/-- The action sends what the check of its fields returns. -/
def Sends {B : Type} (action : ActionCall B → JsStr → FormData → ActionRun B)
    (checked : FormData → Except CaseActionResult B) : Prop :=
  ∃ message, ∀ call caseId formData, action call caseId formData = submitRequest call caseId message (checked formData)

theorem sends_transition : Sends transitionCaseAction transitionBody := ⟨_, fun _ _ _ => rfl⟩

theorem sends_resolution : Sends resolveCaseAction fun formData =>
    notedBody formData (js "verification_note") "A verification note is required to resolve this case." :=
  ⟨_, fun _ _ _ => rfl⟩

theorem sends_feedback : Sends requestFeedbackAction fun formData =>
    notedBody formData (js "note") "Write the information needed before sending the request." := ⟨_, fun _ _ _ => rfl⟩

section

variable {B : Type} {action : ActionCall B → JsStr → FormData → ActionRun B} {formData : FormData}
  {checked : FormData → Except CaseActionResult B} {read : B → Option TransitionRequest}

theorem Sends.submitForm_eq (h : Sends action checked) (caseId : Uuid) :
    submitForm caseId action read formData =
      match checked formData with
      | .error result => .failed result
      | .ok body => (read body).elim .unprocessable .read := by
  obtain ⟨message, haction⟩ := h
  unfold submitForm
  rw [haction]
  cases checked formData with
  | error result => rfl
  | ok body =>
    dsimp only
    rw [submitRequest_ok]

theorem Sends.failed (h : Sends action checked) {result : CaseActionResult}
    (hsubmit : submitForm caseId action read formData = .failed result) : checked formData = .error result := by
  rw [h.submitForm_eq] at hsubmit
  split at hsubmit
  · cases hsubmit
    assumption
  next body _ => cases hbody : read body <;> rw [hbody] at hsubmit <;> cases hsubmit

theorem Sends.unprocessable (h : Sends action checked)
    (hsubmit : submitForm caseId action read formData = .unprocessable) :
    ∃ body, checked formData = .ok body ∧ read body = none := by
  rw [h.submitForm_eq] at hsubmit
  split at hsubmit
  · cases hsubmit
  next body hchecked =>
    refine ⟨body, hchecked, ?_⟩
    cases hbody : read body with
    | none => rfl
    | some request' =>
      rw [hbody] at hsubmit
      cases hsubmit

theorem Sends.reads (h : Sends action checked)
    (hsubmit : submitForm caseId action read formData = .read request) :
    ∃ body, checked formData = .ok body ∧ read body = some request := by
  rw [h.submitForm_eq] at hsubmit
  split at hsubmit
  · cases hsubmit
  next body hchecked =>
    refine ⟨body, hchecked, ?_⟩
    cases hbody : read body with
    | none =>
      rw [hbody] at hsubmit
      cases hsubmit
    | some request' =>
      rw [hbody] at hsubmit
      cases hsubmit
      rfl

end

theorem transitionBody_ok {formData : FormData} {body : TransitionBody} (h : transitionBody formData = .ok body) :
    expectedVersion formData = some body.expectedVersion ∧
      (requiredText formData (js "to_state") 40).bind caseStateOf = some body.toState ∧
      (body.toState = .needsInformation → body.note ≠ none) ∧ (body.toState = .confirmed → body.approvalId ≠ none) := by
  unfold transitionBody at h
  split at h
  next version target hversion htarget =>
    dsimp only at h
    split_ifs at h with hnote happroval
    cases h
    exact ⟨hversion, htarget, fun ht hn => hnote ⟨ht, hn⟩, fun ht hn => happroval ⟨ht, hn⟩⟩
  · cases h

theorem notedBody_ok {formData : FormData} {name : JsStr} {message : String} {body : NotedBody}
    (h : notedBody formData name message = .ok body) : expectedVersion formData = some body.expectedVersion ∧
      requiredText formData name maximumText = some body.note := by
  unfold notedBody at h
  split at h
  next version note hversion hnote =>
    cases h
    exact ⟨hversion, hnote⟩
  · cases h

theorem notedBody_status {formData : FormData} {name : JsStr} {message : String} {result : CaseActionResult}
    (h : notedBody formData name message = .error result) : result.status = .error := by
  unfold notedBody at h
  split at h
  · cases h
  · cases h
    rfl

/-- A form that sends no request returns an error. -/
theorem submit_failed {result : CaseActionResult} (h : form.submit readUuid caseId version = .failed result) :
    result.status = .error := by
  cases form with
  | transitionForm target approvalId note => exact transitionBody_status (sends_transition.failed h)
  | resolutionForm note => exact notedBody_status (sends_resolution.failed h)
  | feedbackForm note => exact notedBody_status (sends_feedback.failed h)

/-- The request of a form names the case and the version that were shown, and has what its target asks for. -/
theorem fills_request (h : form.submit readUuid caseId version = .read request) :
    form.Fills caseId version request.parameters := by
  cases form with
  | transitionForm target approvalId note =>
    obtain ⟨body, hbody, hread⟩ := sends_transition.reads h
    obtain ⟨hversion, htarget, hinformation, happroval⟩ := transitionBody_ok hbody
    have hto := toState_formData htarget
    unfold readTransition at hread
    split at hread
    next note' approvalId' hnote' happroval' =>
      cases hread
      refine ⟨rfl, expectedVersion_formData hversion, hto, fun ht => ?_, nofun, fun ht => ?_⟩
      · exact readOptional_some happroval' (happroval (hto.trans ht))
      · have hsome := readOptional_some hnote' (hinformation (hto.trans ht))
        cases note' with
        | none => exact absurd rfl hsome
        | some s => exact Option.some_ne_none _
    · cases hread
  | resolutionForm verificationNote =>
    obtain ⟨body, hbody, hread⟩ := sends_resolution.reads h
    obtain ⟨note, -, rfl⟩ := Option.map_eq_some_iff.mp hread
    exact ⟨rfl, expectedVersion_formData (notedBody_ok hbody).1, rfl, nofun, fun _ _ => Option.some_ne_none _, nofun⟩
  | feedbackForm note =>
    obtain ⟨body, hbody, hread⟩ := sends_feedback.reads h
    obtain ⟨note', -, rfl⟩ := Option.map_eq_some_iff.mp hread
    exact ⟨rfl, expectedVersion_formData (notedBody_ok hbody).1, rfl, nofun, nofun, fun _ => Option.some_ne_none _⟩

/-! ### Bodies that are not valid -/

theorem length_codePoints (t : JsStr) : (codePoints t).length ≤ t.length := by
  induction t using codePoints.induct with
  | case1 => exact Nat.le_refl 0
  | case2 u => exact Nat.le_refl 1
  | case3 u v t h ih =>
    rw [codePoints, if_pos h, List.length_cons, List.length_cons, List.length_cons]
    omega
  | case4 u v t h ih =>
    rw [codePoints, if_neg h, List.length_cons, List.length_cons]
    omega

theorem codePoints_ne_nil {t : JsStr} (h : t ≠ []) : codePoints t ≠ [] := by
  intro hnil
  have hunits := codePoints_units t
  rw [hnil] at hunits
  exact h hunits.symm

/-- A text that was entered is refused for half of a surrogate pair alone. -/
theorem surrogate_of_readNote {t : JsStr} (hne : t ≠ []) (hlength : t.length ≤ maximumText)
    (h : readNote t = none) : ∃ c ∈ codePoints t, c.IsSurrogate := by
  have hbounds : 1 ≤ (codePoints t).length ∧ (codePoints t).length ≤ 10000 :=
    ⟨List.length_pos_of_ne_nil (codePoints_ne_nil hne), (length_codePoints t).trans hlength⟩
  unfold readNote at h
  rw [dif_pos hbounds] at h
  split_ifs at h with hall
  obtain ⟨c, hc, hsurrogate⟩ : ∃ c ∈ codePoints t, ¬(!(0xD800 ≤ c.val && c.val ≤ 0xDFFF)) = true := by
    simpa using hall
  refine ⟨c, hc, ?_⟩
  rw [Bool.not_eq_true, Bool.not_eq_false', Bool.and_eq_true, decide_eq_true_eq, decide_eq_true_eq] at hsurrogate
  unfold PyChar.IsSurrogate
  omega

/-- A field that is submitted has the trimmed text that was entered. -/
theorem submittedText_of_lookup {formData : FormData} {name value t : JsStr}
    (hlookup : formData.lookup name = some (.text value)) (h : submittedText formData name = some t) :
    t = jsTrim value ∧ t ≠ [] := by
  unfold submittedText at h
  rw [hlookup] at h
  dsimp only at h
  split_ifs at h with hblank
  exact ⟨(Option.some.inj h).symm, fun hnil => hblank ((Option.some.inj h).trans hnil)⟩

theorem surrogate_of_field {formData : FormData} {name value t : JsStr}
    (hlookup : formData.lookup name = some (.text value)) (hfield : optionalText formData name maximumText = some t)
    (h : readNote t = none) : ∃ c ∈ codePoints (jsTrim value), c.IsSurrogate := by
  rw [optionalText_eq, Option.filter_eq_some_iff, decide_eq_true_eq] at hfield
  obtain ⟨rfl, hne⟩ := submittedText_of_lookup hlookup hfield.1
  exact surrogate_of_readNote hne hfield.2 h

theorem readOptional_none {A B : Type} {read : A → Option B} {o : Option A} (h : readOptional read o = none) :
    ∃ a, o = some a ∧ read a = none := by
  cases o with
  | none => cases h
  | some a => exact ⟨a, rfl, Option.map_eq_none_iff.mp h⟩

theorem lookup_note (target : CaseState) (approvalId note : JsStr) :
    ((CaseForm.transitionForm target approvalId note).formData version).lookup (js "note") = some (.text note) := by
  have hversion : (js "note" == js "expected_version") = false := by decide
  have hstate : (js "note" == js "to_state") = false := by decide
  have happroval : (js "note" == js "approval_id") = false := by decide
  unfold CaseForm.formData
  by_cases ht : target = .confirmed
  · simp only [ht, if_true, List.cons_append, List.nil_append, List.lookup_cons, hversion, hstate, happroval,
      beq_self_eq_true]
  · simp only [ht, if_false, List.cons_append, List.nil_append, List.lookup_cons, hversion, hstate, beq_self_eq_true]

/-- Only a confirmation has an approval id. -/
theorem submitted_approvalId {target : CaseState} {approvalId note t : JsStr}
    (h : submittedText ((CaseForm.transitionForm target approvalId note).formData version) (js "approval_id") = some t) :
    target = .confirmed ∧ t = jsTrim approvalId := by
  have hversion : (js "approval_id" == js "expected_version") = false := by decide
  have hstate : (js "approval_id" == js "to_state") = false := by decide
  have hnote : (js "approval_id" == js "note") = false := by decide
  by_cases ht : target = .confirmed
  · have hlookup : ((CaseForm.transitionForm target approvalId note).formData version).lookup (js "approval_id") =
        some (.text approvalId) := by
      simp only [CaseForm.formData, ht, if_true, List.cons_append, List.nil_append, List.lookup_cons, hversion, hstate,
        beq_self_eq_true]
    exact ⟨ht, (submittedText_of_lookup hlookup h).1⟩
  · have hlookup : ((CaseForm.transitionForm target approvalId note).formData version).lookup (js "approval_id") =
        none := by
      simp only [CaseForm.formData, ht, if_false, List.cons_append, List.nil_append, List.lookup_cons, hversion, hstate,
        hnote, List.lookup_nil]
    unfold submittedText at h
    rw [hlookup] at h
    cases h

/-- **A body is not valid** only for an approval id that is no UUID or for half of a surrogate pair. -/
theorem submit_unprocessable (h : form.submit readUuid caseId version = .unprocessable) :
    form.Unreadable readUuid := by
  cases form with
  | transitionForm target approvalId note =>
    obtain ⟨body, hbody, hread⟩ := sends_transition.unprocessable h
    obtain ⟨-, -, -, hnote, happroval⟩ := transitionBody_ok_iff.mp hbody
    have hnone : readOptional readNote body.note = none ∨
        readOptional (fun t => readUuid (codePoints t)) body.approvalId = none := by
      unfold readTransition at hread
      split at hread
      · cases hread
      next hno =>
        by_contra hsome
        push Not at hsome
        obtain ⟨note', hnote'⟩ := Option.ne_none_iff_exists'.mp hsome.1
        obtain ⟨approvalId', happroval'⟩ := Option.ne_none_iff_exists'.mp hsome.2
        exact hno _ _ hnote' happroval'
    rcases hnone with hnone | hnone
    · obtain ⟨t, ht, hread⟩ := readOptional_none hnone
      exact Or.inr (surrogate_of_field (lookup_note target approvalId note) (hnote.symm.trans ht) hread)
    · obtain ⟨t, ht, hread⟩ := readOptional_none hnone
      have hfield := happroval.symm.trans ht
      rw [optionalText_eq, Option.filter_eq_some_iff] at hfield
      obtain ⟨rfl, rfl⟩ := submitted_approvalId hfield.1
      exact Or.inl ⟨approvalId, note, rfl, hread⟩
  | resolutionForm note =>
    obtain ⟨body, hbody, hread⟩ := sends_resolution.unprocessable h
    have hfield := (notedBody_ok hbody).2
    have hlookup : ((CaseForm.resolutionForm note).formData version).lookup (js "verification_note") =
        some (.text note) := by
      have hversion : (js "verification_note" == js "expected_version") = false := by decide
      simp only [CaseForm.formData, List.lookup_cons, hversion, beq_self_eq_true]
    rw [requiredText_eq] at hfield
    exact Or.inr (surrogate_of_field hlookup hfield (Option.map_eq_none_iff.mp hread))
  | feedbackForm note =>
    obtain ⟨body, hbody, hread⟩ := sends_feedback.unprocessable h
    have hfield := (notedBody_ok hbody).2
    have hlookup : ((CaseForm.feedbackForm note).formData version).lookup (js "note") = some (.text note) := by
      have hversion : (js "note" == js "expected_version") = false := by decide
      simp only [CaseForm.formData, List.lookup_cons, hversion, beq_self_eq_true]
    rw [requiredText_eq] at hfield
    exact Or.inr (surrogate_of_field hlookup hfield (Option.map_eq_none_iff.mp hread))

/-! ### Forms in a run -/

/-- What is offered leads along an edge, and neither to `learned` nor, but for the resolution, to `resolved`. -/
theorem offered_edge {roles : List JsStr} {state : CaseState} (h : form.Offered roles state) :
    form.target ∈ allowedTransitions state ∧ form.target ≠ .learned ∧
      (form.target = .resolved → ∃ note, form = .resolutionForm note) := by
  cases form with
  | transitionForm target approvalId note =>
    have hall : ∀ state target, target ∈ transitionTargets state →
        target ∈ allowedTransitions state ∧ target ≠ .learned ∧ target ≠ .resolved := by
      intro state target ht
      cases state <;> cases target <;> first | decide | exact absurd ht (by decide)
    obtain ⟨hedge, hlearned, hresolved⟩ := hall state target h.2
    exact ⟨hedge, hlearned, fun ht => absurd ht hresolved⟩
  | resolutionForm verificationNote =>
    obtain ⟨-, rfl⟩ := h
    exact ⟨(by decide : CaseState.resolved ∈ allowedTransitions .confirmed), nofun, fun _ => ⟨verificationNote, rfl⟩⟩
  | feedbackForm note =>
    obtain ⟨-, rfl⟩ := h
    exact ⟨(by decide : CaseState.needsInformation ∈ allowedTransitions .investigating), nofun, nofun⟩

/-- The answer to a form: the case moves as the form says, or the form is refused for a reason of its own. -/
structure FormAnswered (form : CaseForm) (p : AuthenticatedPrincipal) (row : CaseRow) (t : TransitionParameters)
    (r : Except CaseError CaseReply) : Prop where
  fills : form.Fills row.id row.version t
  moved : ∀ reply, r = .ok reply → ∃ command record, reply = .moved p.organizationId command record ∧
    CarriesRequest p t command
  invalid : r = .error invalidCaseTransition → t.Blank
  forbidden : r = .error caseTransitionForbidden → form.target = .confirmed ∧ p.roles ∩ confirmRoles = ∅

/-- **What was offered is not refused as invalid.** Whenever a case has been shown with a state and a version, a form
that is offered for this state and submitted at any later time, whatever other clients do and whatever fails, returns an
error without a request, or has a body that is not valid, for an approval id that is no UUID or for half of a surrogate
pair; or its request moves this case from this version as the form says, or is refused: as an invalid operation only for
a text that is blank to Python, and for the role of its actor only where an approver is needed. -/
theorem offered_form_answered {sha256 : PyStr → Sha256Hex} {uuid5 : PyStr → Uuid} {w₀ : World} (h₀ : w₀.Absent)
    {s s' : State CaseStmt CaseStmt.Reply DbError Uuid CaseError CaseReply SpineWrite World CaseCall}
    (hs : (httpSystem sha256 uuid5).Reachable w₀ s) (hlater : Relation.ReflTransGen (httpSystem sha256 uuid5).Step s s')
    {row : CaseRow} (hrow : row ∈ s.committed.db.cases) {roles : List JsStr}
    (hoffered : form.Offered roles row.state) :
    (∀ result, form.submit readUuid row.id row.version = .failed result → result.status = .error) ∧
    (form.submit readUuid row.id row.version = .unprocessable → form.Unreadable readUuid) ∧
    ∀ request, form.submit readUuid row.id row.version = .read request →
      ∀ (i : ℕ) (p : AuthenticatedPrincipal) (context : RequestContext) (r : Except CaseError CaseReply),
        (s'.client i).running = some (⟨p, context, .inr request⟩, Prog.ended r) →
        FormAnswered form p row request.parameters r := by
  refine ⟨fun result => submit_failed, submit_unprocessable, fun request hrequest i p context r hrun => ?_⟩
  have hsound : Sound (httpSystem sha256 uuid5) (spineDiscipline sha256 fun _ => True) _ := httpSystem_answered
  have hinv := hsound.reachable_inv (coherent_of_absent h₀) (hs.trans hlater)
  have hwp := (Sound.clientInv_running hrun).mp (hinv.client i)
  have hanswered : Answered p request.parameters r (Sound.localOf s' i) := by
    cases r with
    | ok reply => exact (hwp s'.committed (Discipline.Rely.refl _ _)).2.2 request rfl
    | error e => exact (hwp s'.committed (Discipline.Rely.refl _ _)).2.2 request rfl
  have hfills := fills_request hrequest
  obtain ⟨hedge, hlearned, hresolved⟩ := offered_edge hoffered
  refine ⟨hfills, hanswered.moved, fun he => ?_, fun he => ?_⟩
  · rcases (hanswered.refused _ he).invalid rfl with hblank | ⟨state, hrec, hno⟩ | hmissing
    · exact hblank
    · rw [hfills.caseId, hfills.expectedVersion] at hrec
      -- the version that was shown has the state that was shown
      obtain rfl := (recorded_since h₀ hs hlater hrow _).unique hrec
      exact absurd (hfills.toState ▸ hedge) hno
    · refine absurd ⟨?_, ?_, ?_, ?_⟩ hmissing
      · exact fun ht => hfills.approval (hfills.toState ▸ ht)
      · intro ht
        obtain ⟨note, hform⟩ := hresolved (hfills.toState ▸ ht)
        exact hfills.verification note hform
      · exact fun ht => absurd (hfills.toState ▸ ht) hlearned
      · exact fun ht => hfills.information (hfills.toState ▸ ht)
  · rcases (hanswered.refused _ he).forbidden rfl with ht | ⟨ht, hroles⟩
    · exact absurd (hfills.toState ▸ ht) hlearned
    · exact ⟨hfills.toState ▸ ht, hroles⟩

end

/-- A form for the case with the id `10`. -/
def sampleForm : CaseForm := .transitionForm .investigating [] (js " Checked the uplink")

/-- The request that an outcome has. -/
def FormOutcome.request? : FormOutcome → Option TransitionRequest
  | .read request => some request
  | _ => none

theorem sampleForm_read : (sampleForm.submit (fun _ => none) 10 0).request?.isSome = true := by decide +kernel

/-- Its request. -/
def sampleFormRequest : TransitionRequest := (sampleForm.submit (fun _ => none) 10 0).request?.get sampleForm_read

/-- A ticket number is no approval id. -/
example : ((CaseForm.transitionForm .confirmed (js "CHG-1234") []).submit (fun _ => none) 10 3 matches
    .unprocessable) = true := by
  decide +kernel

/-- The clients of the sample. -/
def sampleCaseClients : System CaseStmt CaseStmt.Reply DbError Uuid CaseError CaseReply SpineWrite Key World CaseCall :=
  httpSystem (fun _ => zeroSha256) fun _ => 3

/-- The request of the sample form at a time. -/
def sampleFormCall (now : Instant) : CaseCall := ⟨sampleCreator, ⟨12, now⟩, .inr sampleFormRequest⟩

theorem program_moved (sha256 : PyStr → Sha256Hex) (uuid5 : PyStr → Uuid) (p : AuthenticatedPrincipal)
    (context : RequestContext) (request : TransitionRequest) :
    CaseCall.program sha256 uuid5 ⟨p, context, .inr request⟩ =
      (applyTransitionRequest uuid5 p context request.parameters).elim
        (fun q => .ret (.moved p.organizationId q.1 q.2)) .raise := rfl

/-- The scope of a principal, without a search through all ids. -/
theorem visibleCaseOrNotFound_eq (case : CaseRecord) (p : AuthenticatedPrincipal) :
    visibleCaseOrNotFound case p =
      if case.assetId.all (fun a => decide (a ∈ p.assetIds)) then .ok case else .error caseNotFound := by
  unfold visibleCaseOrNotFound isVisibleToPrincipal
  cases case.assetId <;> simp

/-- What a request of the sample form leaves when it runs alone. -/
def sampleFormRun (now : Instant) (w : World) (draws : List Uuid) :
    Option (Except CaseError CaseReply × List SpineWrite) :=
  ((sampleFormCall now).program (fun _ => zeroSha256) fun _ => 3).solo caseStore w draws [] []

/-- What is committed of a request that runs alone. -/
def committedBy (w : World) (q : Except CaseError CaseReply × List SpineWrite) : Option World :=
  if caseStore.deferred (q.2 ++ sampleNotes q.1) w then some (caseStore.applyAll (q.2 ++ sampleNotes q.1) w) else none

/-- A case is created and shown, and the form is submitted twice. -/
theorem sampleForm_twice :
    (((sampleRun ⟨12, 300⟩ sampleWorld [10, 11, 30, 31]).bind (committedBy sampleWorld)).bind fun w =>
    ((sampleFormRun 400 w [20, 21, 32, 33]).bind (committedBy w)).bind fun w' =>
      (sampleFormRun 500 w' [22, 23]).map fun q =>
        (w.db.cases.map fun row => (row.id, row.state, row.version), q.1.toOption.isNone)) =
      some ([(10, .new, 0)], true) := by
  have hscope : requireCreateAssetScope sampleCreator sampleIntakeBody.assetId = .ok () :=
    if_pos fun _ h => by cases h
  unfold sampleRun sampleCall sampleFormRun sampleFormCall
  rw [program_created]
  unfold createCaseRequest createCaseCommand
  rw [hscope]
  simp only [program_moved]
  unfold applyTransitionRequest transitionCommand
  simp only [visibleCaseOrNotFound_eq]
  decide +kernel

theorem reachable_committed {c : CaseCall} {draws : List Uuid} {w w' : World}
    (h : ((c.program (fun _ => zeroSha256) fun _ => 3).solo caseStore w draws [] []).bind (committedBy w) = some w') :
    sampleCaseClients.Reachable w (System.initial w') := by
  obtain ⟨⟨r, ps⟩, hsolo, hcommit⟩ := Option.bind_eq_some_iff.mp h
  have hrun : (sampleCaseClients.program c).solo sampleCaseClients.store w draws [] [] = some (r, ps) := hsolo
  have hnotes : sampleCaseClients.record c r = sampleNotes r := by cases r <;> rfl
  have hserial : sampleCaseClients.serial [(c, draws)] w = some w' := by
    rw [System.serial, hrun]
    dsimp only
    rw [hnotes]
    exact hcommit
  exact System.reachable_serial hserial

/-- Of the second submission of the sample form. -/
theorem offered_form_answered_sample : ∃ (s s' : _) (row : CaseRow) (e : CaseError),
    sampleCaseClients.Reachable sampleWorld s ∧ Relation.ReflTransGen sampleCaseClients.Step s s' ∧
    row ∈ s.committed.db.cases ∧ sampleForm.Offered [js "operator"] row.state ∧
    (s'.client 0).running = some (sampleFormCall 500, .raise e) ∧
    FormAnswered sampleForm sampleCreator row sampleFormRequest.parameters (.error e) := by
  obtain ⟨w, hcreated, hrest⟩ := Option.bind_eq_some_iff.mp sampleForm_twice
  obtain ⟨w', hmoved, hlast⟩ := Option.bind_eq_some_iff.mp hrest
  obtain ⟨⟨r, ps⟩, hsolo, heq⟩ := Option.map_eq_some_iff.mp hlast
  obtain ⟨hcases, hraised⟩ := Prod.mk.inj heq
  obtain ⟨row, hrows, hrow⟩ := List.map_eq_singleton_iff.mp hcases
  obtain ⟨hid, hstate, hversion⟩ : row.id = 10 ∧ row.state = .new ∧ row.version = 0 := by simpa using hrow
  cases r with
  | ok reply => cases hraised
  | error e =>
    have hrun : (sampleCaseClients.program (sampleFormCall 500)).solo sampleCaseClients.store w' [22, 23] [] [] =
        some (.error e, ps) := hsolo
    obtain ⟨s', hreach, hrunning, -⟩ := System.reachable_solo hrun
    have hs := reachable_committed hcreated
    have hlater := (reachable_committed hmoved).trans hreach
    have hmem : row ∈ (System.initial w : State CaseStmt CaseStmt.Reply DbError Uuid CaseError CaseReply SpineWrite
        World CaseCall).committed.db.cases := by
      show row ∈ w.db.cases
      rw [hrows]
      exact List.mem_singleton_self row
    have hoffered : sampleForm.Offered [js "operator"] row.state := by
      rw [hstate]
      exact ⟨by decide, List.mem_singleton_self _⟩
    have hrequest : sampleForm.submit (fun _ => none) row.id row.version = .read sampleFormRequest := by
      have hread : (sampleForm.submit (fun _ => none) 10 0).request? = some sampleFormRequest :=
        (Option.some_get sampleForm_read).symm
      rw [hid, hversion]
      cases houtcome : sampleForm.submit (fun _ => none) 10 0 with
      | read request =>
        rw [houtcome] at hread
        rw [← Option.some.inj hread]
      | failed result =>
        rw [houtcome] at hread
        cases hread
      | unprocessable =>
        rw [houtcome] at hread
        cases hread
    exact ⟨_, s', row, e, hs, hlater, hmem, hoffered, hrunning,
      (offered_form_answered sampleWorld_absent hs hlater hmem hoffered).2.2 _ hrequest _ _ _ _ hrunning⟩

end NetopsCopilot
