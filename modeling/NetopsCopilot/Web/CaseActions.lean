import NetopsCopilot.Web.CaseQueue

/-!
# Case actions (`web/app/cases/[caseId]/actions.ts`)

An action reads the fields of a form and sends one request to the API, or returns an error. A required field that
is missing, blank or too long is an error. An optional field in the same condition is left out, so a note that is too
long is not sent and the transition is recorded without it (`transition_carries_input_iff`).
-/

namespace NetopsCopilot

/-! ### Forms -/

/-- A value of a form. -/
inductive FormValue where
  | text (t : JsStr)
  | file
deriving DecidableEq

/-- The entries of a form. -/
abbrev FormData := List (JsStr × FormValue)

/-- `requiredText`. -/
def requiredText (formData : FormData) (name : JsStr) (maximum : Nat) : Option JsStr :=
  match formData.lookup name with
  | some (.text value) =>
    let trimmed := jsTrim value
    if 0 < trimmed.length ∧ trimmed.length ≤ maximum then some trimmed else none
  | _ => none

/-- `optionalText`. -/
def optionalText (formData : FormData) (name : JsStr) (maximum : Nat) : Option JsStr :=
  match formData.lookup name with
  | some (.text value) =>
    let trimmed := jsTrim value
    if trimmed.length = 0 then none
    else if trimmed.length ≤ maximum then some trimmed else none
  | _ => none

/-- The length of a text, by default. -/
def maximumText : Nat := 10000

def maximumApprovalId : Nat := 100

/-- `Number.MAX_SAFE_INTEGER`. -/
def maxSafeInteger : Nat := 9007199254740991

/-- `expectedVersion`. -/
def expectedVersion (formData : FormData) : Option Nat :=
  match requiredText formData (js "expected_version") 16 with
  | some value =>
    if value.all fun c => 48 ≤ c.val && c.val ≤ 57 then
      -- a number beyond the safe integers is rounded to one beyond them
      let parsed := value.foldl (fun n c => 10 * n + (c.val - 48)) 0
      if parsed ≤ maxSafeInteger then some parsed else none
    else none
  | none => none

/-- `isCaseState`, with the state. -/
def caseStateOf (value : JsStr) : Option CaseState := knownStates.find? fun s => jsText s.value == value

/-! ### Results -/

inductive CaseActionStatus where
  | idle | success | conflict | error
deriving DecidableEq, Repr

/-- `CaseActionResult`. -/
structure CaseActionResult where
  status : CaseActionStatus
  message : JsStr
deriving DecidableEq

def actionError (message : String) : CaseActionResult := ⟨.error, js message⟩

/-- What the API client throws. -/
inductive ActionFault where
  /-- `NetOpsApiError`. -/
  | api (status : Nat)
  | other
deriving DecidableEq

/-- `actionFailure`. -/
def actionFailure : ActionFault → CaseActionResult
  | .api status =>
    if status = 409 then
      ⟨.conflict, js ("This case changed while you were working. Refresh the case, review the new timeline, " ++
        "then reapply the action.")⟩
    else if status = 403 then actionError "Your verified role cannot perform this action."
    else if status = 404 then actionError "This case is no longer available in your organization scope."
    else actionError "The action was not recorded. Check your connection and try again."
  | .other => actionError "The action was not recorded. Check your connection and try again."

/-- A call of the API for a request; `none` if there is no session to call it with. -/
abbrev ActionCall (β : Type) := Option (JsStr → β → Except ActionFault Unit)

/-- What an action returns, and the request it has sent. -/
structure ActionRun (β : Type) where
  result : CaseActionResult
  sent : Option β

/-- The end of every action: the request is sent, unless a check has failed. -/
def submitRequest {β : Type} (call : ActionCall β) (caseId : JsStr) (message : String) :
    Except CaseActionResult β → ActionRun β
  | .error result => ⟨result, none⟩
  | .ok request =>
    match call with
    | none => ⟨actionFailure .other, none⟩
    | some call =>
      match call caseId request with
      | .ok _ => ⟨⟨.success, js message⟩, some request⟩
      | .error fault => ⟨actionFailure fault, some request⟩

/-! ### The actions -/

/-- `TransitionCaseRequest`, as the action fills it. -/
structure TransitionBody where
  expectedVersion : Nat
  toState : CaseState
  note : Option JsStr
  approvalId : Option JsStr
deriving DecidableEq

def transitionBody (formData : FormData) : Except CaseActionResult TransitionBody :=
  match expectedVersion formData, (requiredText formData (js "to_state") 40).bind caseStateOf with
  | some version, some target =>
    let note := optionalText formData (js "note") maximumText
    let approvalId := optionalText formData (js "approval_id") maximumApprovalId
    if target = .needsInformation ∧ note = none then
      .error (actionError "A clear request for information is required.")
    else if target = .confirmed ∧ approvalId = none then
      .error (actionError "Confirmation requires the immutable approval record ID.")
    else .ok ⟨version, target, note, approvalId⟩
  | _, _ => .error (actionError "Choose a valid state before continuing.")

/-- `transitionCaseAction`. -/
def transitionCaseAction (call : ActionCall TransitionBody) (caseId : JsStr) (formData : FormData) :
    ActionRun TransitionBody :=
  submitRequest call caseId "State transition recorded. Refreshing the case timeline…" (transitionBody formData)

/-- `ResolveCaseRequest` and `CaseFeedbackRequest`: a version and a required text. -/
structure NotedBody where
  expectedVersion : Nat
  note : JsStr
deriving DecidableEq

def notedBody (formData : FormData) (name : JsStr) (message : String) : Except CaseActionResult NotedBody :=
  match expectedVersion formData, requiredText formData name maximumText with
  | some version, some note => .ok ⟨version, note⟩
  | _, _ => .error (actionError message)

/-- `resolveCaseAction`. -/
def resolveCaseAction (call : ActionCall NotedBody) (caseId : JsStr) (formData : FormData) : ActionRun NotedBody :=
  submitRequest call caseId "Resolution recorded. Refreshing the case timeline…"
    (notedBody formData (js "verification_note") "A verification note is required to resolve this case.")

/-- `requestFeedbackAction`. -/
def requestFeedbackAction (call : ActionCall NotedBody) (caseId : JsStr) (formData : FormData) : ActionRun NotedBody :=
  submitRequest call caseId "Feedback request recorded. Refreshing the case timeline…"
    (notedBody formData (js "note") "Write the information needed before sending the request.")

/-! ### What was submitted -/

/-- The trimmed text of a field, if it is not blank. -/
def submittedText (formData : FormData) (name : JsStr) : Option JsStr :=
  match formData.lookup name with
  | some (.text value) => if jsTrim value = [] then none else some (jsTrim value)
  | _ => none

/-- A field that is not too long to be sent. -/
def FieldFits (formData : FormData) (name : JsStr) (maximum : Nat) : Prop :=
  ∀ t ∈ submittedText formData name, t.length ≤ maximum

section

variable {formData : FormData} {name : JsStr} {maximum : Nat}

theorem optionalText_eq (formData : FormData) (name : JsStr) (maximum : Nat) :
    optionalText formData name maximum =
      (submittedText formData name).filter fun t => decide (t.length ≤ maximum) := by
  unfold optionalText submittedText
  cases formData.lookup name with
  | none => rfl
  | some value =>
    cases value with
    | file => rfl
    | text t =>
      dsimp only
      by_cases hblank : jsTrim t = []
      · rw [if_pos hblank, if_pos (List.length_eq_zero_iff.mpr hblank)]
        rfl
      · rw [if_neg hblank, if_neg (mt List.length_eq_zero_iff.mp hblank), Option.filter_some]
        by_cases hlong : (jsTrim t).length ≤ maximum
        · rw [if_pos hlong, if_pos (decide_eq_true hlong)]
        · rw [if_neg hlong, if_neg (by simpa using hlong)]

/-- An optional field is sent as it was submitted exactly if it is not too long. -/
theorem optionalText_submitted_iff :
    optionalText formData name maximum = submittedText formData name ↔ FieldFits formData name maximum := by
  unfold FieldFits
  rw [optionalText_eq]
  cases submittedText formData name with
  | none => simp
  | some t =>
    rw [Option.filter_some]
    by_cases hlong : t.length ≤ maximum
    · simp [hlong]
    · simp [hlong]

theorem requiredText_eq (formData : FormData) (name : JsStr) (maximum : Nat) :
    requiredText formData name maximum = optionalText formData name maximum := by
  unfold requiredText optionalText
  cases formData.lookup name with
  | none => rfl
  | some value =>
    cases value with
    | file => rfl
    | text t =>
      dsimp only
      by_cases hblank : (jsTrim t).length = 0
      · rw [if_neg (by omega), if_pos hblank]
      · by_cases hlong : (jsTrim t).length ≤ maximum
        · rw [if_pos ⟨by omega, hlong⟩, if_neg hblank, if_pos hlong]
        · rw [if_neg (fun h => hlong h.2), if_neg hblank, if_neg hlong]

/-- A required field is submitted text that is not too long. -/
theorem requiredText_eq_some {t : JsStr} :
    requiredText formData name maximum = some t ↔ submittedText formData name = some t ∧ t.length ≤ maximum := by
  rw [requiredText_eq, optionalText_eq, Option.filter_eq_some_iff, decide_eq_true_eq]

end

/-! ### Sending -/

section

variable {β : Type} {call : ActionCall β} {caseId : JsStr} {message : String} {checked : Except CaseActionResult β}

theorem submitRequest_sent {request : β} (h : (submitRequest call caseId message checked).sent = some request) :
    checked = .ok request := by
  cases checked with
  | error result => cases h
  | ok request' =>
    cases call with
    | none => cases h
    | some call =>
      unfold submitRequest at h
      dsimp only at h
      split at h
      · rw [Option.some.inj h]
      · rw [Option.some.inj h]

/-- A request that passes the checks is sent, if there is a session. -/
theorem submitRequest_ok (call : JsStr → β → Except ActionFault Unit) (caseId : JsStr) (message : String) (request : β) :
    (submitRequest (some call) caseId message (.ok request)).sent = some request := by
  unfold submitRequest
  dsimp only
  split <;> rfl

/-- An action that sends nothing returns an error. -/
theorem submitRequest_unsent (hchecked : ∀ result, checked = .error result → result.status = .error)
    (h : (submitRequest call caseId message checked).sent = none) :
    (submitRequest call caseId message checked).result.status = .error := by
  cases checked with
  | error result => exact hchecked result rfl
  | ok request =>
    cases call with
    | none => rfl
    | some call =>
      rw [submitRequest_ok] at h
      cases h

end

/-! ### The transition -/

section

variable {formData : FormData}

/-- The submission is refused before the call. -/
def TransitionRefused (formData : FormData) : Prop :=
  expectedVersion formData = none ∨ (requiredText formData (js "to_state") 40).bind caseStateOf = none ∨
    (requiredText formData (js "to_state") 40).bind caseStateOf = some .needsInformation ∧
      ¬(∃ t, submittedText formData (js "note") = some t ∧ t.length ≤ maximumText) ∨
    (requiredText formData (js "to_state") 40).bind caseStateOf = some .confirmed ∧
      ¬∃ t, submittedText formData (js "approval_id") = some t ∧ t.length ≤ maximumApprovalId

/-- The note and the approval id can be sent. -/
def TransitionFits (formData : FormData) : Prop :=
  FieldFits formData (js "note") maximumText ∧ FieldFits formData (js "approval_id") maximumApprovalId

/-- A transition is requested with the operator's input, or not at all and with an error. -/
structure CarriesInput (formData : FormData) : Prop where
  sent : ∀ call caseId request, (transitionCaseAction call caseId formData).sent = some request →
    request.note = submittedText formData (js "note") ∧
      request.approvalId = submittedText formData (js "approval_id")
  unsent : ∀ call caseId, (transitionCaseAction call caseId formData).sent = none →
    (transitionCaseAction call caseId formData).result.status = .error

theorem optionalText_eq_none {name : JsStr} {maximum : Nat} : optionalText formData name maximum = none ↔
    ¬∃ t, submittedText formData name = some t ∧ t.length ≤ maximum := by
  rw [optionalText_eq]
  cases submittedText formData name with
  | none => simp
  | some t => simp [Option.filter_some]

theorem transitionBody_status {result : CaseActionResult} (h : transitionBody formData = .error result) :
    result.status = .error := by
  unfold transitionBody at h
  split at h
  · dsimp only at h
    split_ifs at h
    · cases h
      rfl
    · cases h
      rfl
  · cases h
    rfl

/-- The request of a submission that is not refused. -/
theorem transitionBody_ok_iff {body : TransitionBody} : transitionBody formData = .ok body ↔
    ¬TransitionRefused formData ∧ expectedVersion formData = some body.expectedVersion ∧
      (requiredText formData (js "to_state") 40).bind caseStateOf = some body.toState ∧
      body.note = optionalText formData (js "note") maximumText ∧
      body.approvalId = optionalText formData (js "approval_id") maximumApprovalId := by
  unfold transitionBody TransitionRefused
  rw [← optionalText_eq_none, ← optionalText_eq_none]
  cases expectedVersion formData with
  | none => simp
  | some version =>
    cases (requiredText formData (js "to_state") 40).bind caseStateOf with
    | none => simp
    | some target =>
      generalize optionalText formData (js "note") maximumText = note
      generalize optionalText formData (js "approval_id") maximumApprovalId = approvalId
      obtain ⟨version', target', note', approvalId'⟩ := body
      dsimp only
      by_cases hnote : target = .needsInformation ∧ note = none
      · simp [hnote]
      · by_cases happroval : target = .confirmed ∧ approvalId = none
        · simp [happroval]
        · rw [if_neg hnote, if_neg happroval]
          simp only [Except.ok.injEq, TransitionBody.mk.injEq, reduceCtorEq, Option.some.injEq, hnote, happroval, or_self,
            not_false_eq_true, true_and]
          constructor
          · rintro ⟨rfl, rfl, rfl, rfl⟩
            exact ⟨rfl, rfl, rfl, rfl⟩
          · rintro ⟨rfl, rfl, rfl, rfl⟩
            exact ⟨rfl, rfl, rfl, rfl⟩

/-- A submission that reaches the API with the operator's input has fields that can be sent. -/
theorem CarriesInput.fits (h : CarriesInput formData) (hrefused : ¬TransitionRefused formData) :
    TransitionFits formData := by
  obtain ⟨version, hversion⟩ : ∃ version, expectedVersion formData = some version :=
    Option.ne_none_iff_exists'.mp fun hnone => hrefused (Or.inl hnone)
  obtain ⟨target, htarget⟩ : ∃ target, (requiredText formData (js "to_state") 40).bind caseStateOf = some target :=
    Option.ne_none_iff_exists'.mp fun hnone => hrefused (Or.inr (Or.inl hnone))
  have hbody : transitionBody formData = .ok ⟨version, target, optionalText formData (js "note") maximumText,
      optionalText formData (js "approval_id") maximumApprovalId⟩ :=
    transitionBody_ok_iff.mpr ⟨hrefused, hversion, htarget, rfl, rfl⟩
  have hsent := submitRequest_ok (fun _ _ => .ok ()) []
    "State transition recorded. Refreshing the case timeline…" (⟨version, target,
      optionalText formData (js "note") maximumText,
      optionalText formData (js "approval_id") maximumApprovalId⟩ : TransitionBody)
  rw [← hbody] at hsent
  obtain ⟨hnote, happroval⟩ := h.sent _ _ _ hsent
  exact ⟨optionalText_submitted_iff.mp hnote, optionalText_submitted_iff.mp happroval⟩

/-- **No note is dropped, exactly.** A submission is requested with the operator's input, or refused with an error,
if and only if its note and its approval id are not too long, or it is refused anyway. -/
theorem transition_carries_input_iff (formData : FormData) :
    CarriesInput formData ↔ TransitionFits formData ∨ TransitionRefused formData := by
  constructor
  · intro h
    by_cases hrefused : TransitionRefused formData
    · exact Or.inr hrefused
    · exact Or.inl (h.fits hrefused)
  · intro h
    refine ⟨fun call caseId request hsent => ?_, fun call caseId => submitRequest_unsent fun _ => transitionBody_status⟩
    obtain ⟨hrefused, -, -, hnote, happroval⟩ := transitionBody_ok_iff.mp (submitRequest_sent hsent)
    obtain ⟨hfits, hfits'⟩ := h.resolve_right hrefused
    rw [hnote, happroval]
    exact ⟨optionalText_submitted_iff.mpr hfits, optionalText_submitted_iff.mpr hfits'⟩

end

theorem jsTrim_replicate {c : JsChar} (hc : isJsSpace c = false) (n : Nat) :
    jsTrim (List.replicate n c) = List.replicate n c := by
  have hall : ∀ d ∈ List.replicate n c, ¬isJsSpace d = true := by
    intro d hd
    rw [List.eq_of_mem_replicate hd, hc]
    exact Bool.false_ne_true
  unfold jsTrim
  rw [List.dropWhile_eq_self_iff.mpr fun hpos => hall _ (List.getElem_mem hpos)]
  exact List.rdropWhile_eq_self_iff.mpr fun hne => hall _ (List.getLast_mem hne)

/-- A transition with a note of `n` letters. -/
private def noteForm (n : Nat) : FormData :=
  [(js "expected_version", .text (js "3")), (js "to_state", .text (js "investigating")),
    (js "note", .text (List.replicate n 97))]

private theorem lookup_noteForm (n : Nat) :
    (noteForm n).lookup (js "expected_version") = some (.text (js "3")) ∧
      (noteForm n).lookup (js "to_state") = some (.text (js "investigating")) ∧
      (noteForm n).lookup (js "note") = some (.text (List.replicate n 97)) := by
  have hstate : (js "to_state" == js "expected_version") = false := by decide +kernel
  have hnote : (js "note" == js "expected_version") = false := by decide +kernel
  have hnote' : (js "note" == js "to_state") = false := by decide +kernel
  unfold noteForm
  refine ⟨?_, ?_, ?_⟩
  · rw [List.lookup_cons, beq_self_eq_true]
  · rw [List.lookup_cons, hstate, List.lookup_cons, beq_self_eq_true]
  · rw [List.lookup_cons, hnote, List.lookup_cons, hnote', List.lookup_cons, beq_self_eq_true]

private theorem noteForm_drops {n : Nat} (hn : maximumText < n) : ¬CarriesInput (noteForm n) := by
  intro hcarries
  obtain ⟨hversion, hstate, hnote⟩ := lookup_noteForm n
  have hrefused : ¬TransitionRefused (noteForm n) := by
    have hversion' : expectedVersion (noteForm n) = some 3 := by
      unfold expectedVersion requiredText
      rw [hversion]
      decide +kernel
    have hstate' : (requiredText (noteForm n) (js "to_state") 40).bind caseStateOf = some .investigating := by
      unfold requiredText
      rw [hstate]
      decide +kernel
    unfold TransitionRefused
    rw [hversion', hstate']
    simp
  have hsubmitted : submittedText (noteForm n) (js "note") = some (List.replicate n 97) := by
    unfold submittedText
    rw [hnote]
    dsimp only
    rw [jsTrim_replicate (by decide), if_neg]
    rw [List.replicate_eq_nil_iff]
    omega
  have hlength := (hcarries.fits hrefused).1 _ hsubmitted
  rw [List.length_replicate] at hlength
  omega

/-- A note of 10001 letters is dropped. -/
theorem transition_drops_note : ¬∀ formData, CarriesInput formData :=
  fun hall => noteForm_drops (by decide) (hall (noteForm 10001))

/-! ### The other actions -/

/-- A required text is requested as it was submitted, or the action returns an error. -/
theorem noted_carries_input (formData : FormData) (name : JsStr) (error success : String) (call : ActionCall NotedBody)
    (caseId : JsStr) :
    (∀ request, (submitRequest call caseId success (notedBody formData name error)).sent = some request →
      submittedText formData name = some request.note) ∧
    ((submitRequest call caseId success (notedBody formData name error)).sent = none →
      (submitRequest call caseId success (notedBody formData name error)).result.status = .error) := by
  constructor
  · intro request hsent
    have hbody := submitRequest_sent hsent
    unfold notedBody at hbody
    split at hbody
    next version note _ hnote =>
      rw [← Except.ok.inj hbody]
      exact (requiredText_eq_some.mp hnote).1
    next => cases hbody
  · refine submitRequest_unsent fun result hbody => ?_
    unfold notedBody at hbody
    split at hbody
    · cases hbody
    · cases hbody
      rfl

end NetopsCopilot
