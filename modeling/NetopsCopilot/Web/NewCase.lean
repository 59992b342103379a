import NetopsCopilot.Api.Cases
import NetopsCopilot.JavaScript.JsonReaders
import NetopsCopilot.Lib.Except
import NetopsCopilot.Web.CaseActions

/-!
# New cases (`web/app/cases/new/actions.ts`, `web/app/cases/new/new-case-intake.tsx`)

The form for a new case draws an idempotency key, sends it with every submission and draws another one when the user
changes a form that has been submitted. However the forms are opened, changed, submitted and answered, two submissions
with one key are the same submission (`submission_of_key`). The server reads a submission with `requestFrom`; what the
API reads of the evidence is what was typed (`evidence_read`).
-/

namespace NetopsCopilot

/-! ### Fields -/

/-- What a check of `createCaseFields` finds. -/
inductive FieldIssue where
  | tooSmall (minimum : Nat)
  | tooBig (maximum : Nat)
  | invalidOption
deriving DecidableEq

/-- What the intake takes from Zod, JavaScript, Python and Pydantic. -/
structure IntakeLibrary where
  zodMessage : FieldIssue → JsStr
  zodUuid : JsStr → Bool
  otherNumber : PyStr → JsNum
  floatOf : PyStr → PyFloat
  createCaseBody : Json → Option CreateCaseRequest

/-- `field`. -/
def field (formData : FormData) (name : String) : JsStr :=
  match formData.lookup (js name) with
  | some (.text value) => value
  | _ => []

/-- `parsed.data`. -/
structure CreateCaseFields where
  idempotencyKey : JsStr
  title : JsStr
  severity : Severity
  category : JsStr
  assetId : JsStr
  inputKind : JsStr
  inputContent : JsStr

/-- `CreateCaseRequest`, as the action fills it, with the idempotency key. -/
structure NewCaseRequest where
  idempotencyKey : JsStr
  title : JsStr
  severity : Severity
  category : Option JsStr
  assetId : Option JsStr
  input : Option (JsStr × List (JsStr × JsValue))

/-- The value of a field that is left out when it is blank. -/
def unlessBlank (t : JsStr) : Option JsStr := if t = [] then none else some t

section

variable (lib : IntakeLibrary)

/-- `z.string().trim().min(minimum).max(maximum)`; the message of the schema goes before the one of Zod. -/
def trimmedField (minimum : Nat) (maximum : Option Nat) (message : Option String) (value : JsStr) :
    Except JsStr JsStr :=
  let trimmed := jsTrim value
  if trimmed.length < minimum then .error ((message.map js).getD (lib.zodMessage (.tooSmall minimum)))
  else if maximum.any (· < trimmed.length) then .error (lib.zodMessage (.tooBig (maximum.getD 0)))
  else .ok trimmed

/-- `z.enum(["low", "medium", "high", "critical"])`. -/
def severityField (value : JsStr) : Except JsStr Severity :=
  match [Severity.low, .medium, .high, .critical].find? fun s => jsText s.value == value with
  | some severity => .ok severity
  | none => .error (lib.zodMessage .invalidOption)

/-- `createCaseFields.safeParse`, up to its first issue. -/
def createCaseFields (formData : FormData) : Except JsStr CreateCaseFields := do
  let idempotencyKey ← trimmedField lib 1 (some 255) none (field formData "idempotency_key")
  let title ← trimmedField lib 1 (some 500) (some "Enter a case title.") (field formData "title")
  let severity ← severityField lib (field formData "severity")
  let category ← trimmedField lib 0 (some 100) none (field formData "category")
  let assetId ← trimmedField lib 0 none none (field formData "asset_id")
  let inputKind ← trimmedField lib 0 (some 100) none (field formData "input_kind")
  let inputContent ← trimmedField lib 0 none none (field formData "input_content")
  return ⟨idempotencyKey, title, severity, category, assetId, inputKind, inputContent⟩

/-- The `input` of a request. -/
def evidenceInput (inputKind inputContent : JsStr) : Except JsStr (Option (JsStr × List (JsStr × JsValue))) :=
  if (inputKind = []) ≠ (inputContent = []) then
    .error (js "Provide both an input kind and a JSON object, or leave both evidence fields blank.")
  else if inputContent = [] then .ok none
  else
    match parseJson lib.otherNumber inputContent with
    | none => .error (js "Evidence content must be valid JSON.")
    | some (.obj members) => .ok (some (inputKind, members))
    | some _ => .error (js "Evidence content must be a JSON object, not a list or scalar value.")

def requestFrom (formData : FormData) : Except JsStr NewCaseRequest := do
  let fields ← createCaseFields lib formData
  if fields.assetId ≠ [] ∧ lib.zodUuid fields.assetId = false then
    .error (js "Asset ID must be a valid UUID, or left blank for an organization-wide case.")
  else do
    let input ← evidenceInput lib fields.inputKind fields.inputContent
    return ⟨fields.idempotencyKey, fields.title, fields.severity, unlessBlank fields.category,
      unlessBlank fields.assetId, input⟩

end

/-- The `input` member. -/
def inputValue (input : JsStr × List (JsStr × JsValue)) : JsValue :=
  .obj [(js "input_kind", .str input.1), (js "content", .obj input.2)]

/-- The members in front of `input`. -/
def NewCaseRequest.facts (request : NewCaseRequest) : List (JsStr × JsValue) :=
  [(js "title", .str request.title), (js "severity", .str (jsText request.severity.value))] ++
    request.category.toList.map (fun t => (js "category", .str t)) ++
    request.assetId.toList.map (fun t => (js "asset_id", .str t))

/-- The object that `JSON.stringify` gets. -/
def NewCaseRequest.body (request : NewCaseRequest) : JsValue :=
  .obj (request.facts ++ request.input.toList.map (fun input => (js "input", inputValue input)))

/-- The JSON text that the API receives. -/
def NewCaseRequest.text (request : NewCaseRequest) : PyStr := scalarValues request.body.stringify

/-- The key and the body that `create_case` gets for a submission. -/
def apiRequest (lib : IntakeLibrary) (formData : FormData) : Option (PyStr × CreateCaseRequest) :=
  match requestFrom lib formData with
  | .error _ => none
  | .ok request => ((loadsText lib.floatOf request.text).bind lib.createCaseBody).map fun body =>
      (codePoints request.idempotencyKey, body)

/-! ### Answers -/

/-- What `createCaseAction` catches. -/
inductive CreateFault where
  /-- `CaseQueueAccessError`. -/
  | access
  /-- `NetOpsApiError`. -/
  | api (status : Nat)
  | other
deriving DecidableEq

inductive CreateCaseStatus where
  | idle | success | error
deriving DecidableEq, Repr

/-- `CreateCaseActionResult`. -/
structure CreateCaseActionResult where
  status : CreateCaseStatus
  message : JsStr
  caseId : Option JsStr := none
deriving DecidableEq

/-- `failure`. -/
def createFailure : CreateFault → CreateCaseActionResult
  | .access => ⟨.error, js "Your session has expired. Sign in again before creating a case.", none⟩
  | .api status =>
    if status = 401 then ⟨.error, js "Your session has expired. Sign in again before creating a case.", none⟩
    else if status = 403 then ⟨.error, js "Your verified role or asset scope cannot create this case.", none⟩
    else if status = 409 then
      ⟨.error, js ("This idempotency key is already associated with a different request. " ++
        "Edit the form, then submit again."), none⟩
    else if status = 422 then
      ⟨.error, js "The API rejected these case details. Review the fields and try again.", none⟩
    else
      ⟨.error, js ("The case may not have reached the API. " ++
        "Keep this form unchanged and retry to safely recover the submission."), none⟩
  | .other =>
    ⟨.error, js ("The case may not have reached the API. " ++
      "Keep this form unchanged and retry to safely recover the submission."), none⟩

/-- `createCaseAction`, where `createCase` returns the id of the case. -/
def createCaseAction (lib : IntakeLibrary) (createCase : NewCaseRequest → Except CreateFault JsStr)
    (formData : FormData) : CreateCaseActionResult :=
  match requestFrom lib formData with
  | .error message => ⟨.error, message, none⟩
  | .ok request =>
    match createCase request with
    | .ok caseId =>
      ⟨.success, js "The API accepted this case. Opening the immutable case record…", some caseId⟩
    | .error fault => createFailure fault

/-! ### Forms -/

/-- What the user enters. -/
structure IntakeValues where
  title : JsStr := []
  severity : JsStr := js "high"
  category : JsStr := []
  assetId : JsStr := []
  inputKind : JsStr := []
  inputContent : JsStr := []

/-- What a submission carries. -/
structure Submission where
  idempotencyKey : Uuid
  values : IntakeValues

/-- `new FormData(form)`. -/
def Submission.formData (d : Submission) : FormData :=
  [(js "idempotency_key", .text (jsText (Uuid.str d.idempotencyKey))), (js "title", .text d.values.title),
    (js "severity", .text d.values.severity), (js "category", .text d.values.category),
    (js "asset_id", .text d.values.assetId), (js "input_kind", .text d.values.inputKind),
    (js "input_content", .text d.values.inputContent)]

/-- The state of `NewCaseIntake`. -/
structure NewCaseIntake where
  values : IntakeValues := {}
  idempotencyKey : Uuid
  hasSubmitted : Bool := false
  pending : Bool := false
  result : CreateCaseActionResult := ⟨.idle, [], none⟩

/-- What the form would send. -/
def NewCaseIntake.submission (f : NewCaseIntake) : Submission := ⟨f.idempotencyKey, f.values⟩

/-- `rotateKeyForChangedIntent`. -/
def NewCaseIntake.rotateKeyForChangedIntent (f : NewCaseIntake) (newKey : Uuid) : NewCaseIntake :=
  if f.hasSubmitted then { f with idempotencyKey := newKey, hasSubmitted := false } else f

/-- The result when no answer arrives. -/
def unreachedResult : CreateCaseActionResult :=
  ⟨.error, js ("The case could not reach the local application. " ++
    "Keep this form unchanged and retry safely."), none⟩

/-- The open forms, what they have submitted, and the keys that `newIdempotencyKey` has returned. -/
structure Intakes where
  form : Nat → Option NewCaseIntake := fun _ => none
  sent : List Submission := []
  drawn : List Uuid := []

def Intakes.set (s : Intakes) (i : Nat) (f : Option NewCaseIntake) : Intakes :=
  { s with form := Function.update s.form i f }

/-- A step of one form; no key is drawn twice. -/
inductive IntakeStep : Intakes → Intakes → Prop where
  | opened {s : Intakes} (i : Nat) (newKey : Uuid) (result : CreateCaseActionResult) (hnew : newKey ∉ s.drawn) :
      IntakeStep s { s.set i (some { idempotencyKey := newKey, result := result }) with drawn := newKey :: s.drawn }
  | changed {s : Intakes} (i : Nat) (f : NewCaseIntake) (values : IntakeValues) (newKey : Uuid)
      (hform : s.form i = some f) (hnew : newKey ∉ s.drawn) :
      IntakeStep s { s.set i (some ({ f with values := values }.rotateKeyForChangedIntent newKey)) with
        drawn := if f.hasSubmitted then newKey :: s.drawn else s.drawn }
  | submitted {s : Intakes} (i : Nat) (f : NewCaseIntake) (hform : s.form i = some f) (hidle : f.pending = false) :
      IntakeStep s { s.set i (some { f with hasSubmitted := true, pending := true }) with
        sent := f.submission :: s.sent }
  | answered {s : Intakes} (i : Nat) (f : NewCaseIntake) (result : CreateCaseActionResult)
      (hform : s.form i = some f) (hpending : f.pending = true) :
      IntakeStep s (s.set i (some { f with pending := false, result := result }))
  | lost {s : Intakes} (i : Nat) (f : NewCaseIntake) (hform : s.form i = some f) (hpending : f.pending = true) :
      IntakeStep s (s.set i (some { f with pending := false, result := unreachedResult }))
  | closed {s : Intakes} (i : Nat) : IntakeStep s (s.set i none)

/-- The states that the forms reach. -/
def IntakeReachable : Intakes → Prop := Relation.ReflTransGen IntakeStep {}

/-! ### One submission for each key -/

/-- The keys of the forms are apart, and what was submitted with the key of a form is what it holds. -/
structure Intakes.Keyed (s : Intakes) : Prop where
  drawn : ∀ i f, s.form i = some f → f.idempotencyKey ∈ s.drawn
  sentDrawn : ∀ d ∈ s.sent, d.idempotencyKey ∈ s.drawn
  apart : ∀ i j f g, s.form i = some f → s.form j = some g → f.idempotencyKey = g.idempotencyKey → i = j
  held : ∀ i f, s.form i = some f → ∀ d ∈ s.sent, d.idempotencyKey = f.idempotencyKey →
    f.hasSubmitted = true ∧ d = f.submission
  same : ∀ d ∈ s.sent, ∀ d' ∈ s.sent, d.idempotencyKey = d'.idempotencyKey → d = d'

section

variable {s : Intakes} {i : Nat} {f : NewCaseIntake}

@[simp] theorem Intakes.set_form_self (s : Intakes) (i : Nat) (f : Option NewCaseIntake) :
    (s.set i f).form i = f := by
  simp [Intakes.set]

theorem Intakes.set_form_ne {j : Nat} (h : j ≠ i) (f : Option NewCaseIntake) :
    (s.set i f).form j = s.form j := by
  simp [Intakes.set, h]

/-- A new key is the key of nothing that was submitted. -/
theorem Intakes.Keyed.unsent (hs : s.Keyed) {newKey : Uuid} (hnew : newKey ∉ s.drawn) {d : Submission}
    (hd : d ∈ s.sent) : d.idempotencyKey ≠ newKey := by
  rintro rfl
  exact hnew (hs.sentDrawn d hd)

/-- A form that keeps its key and what it holds may change otherwise, and a new form comes with a new key. -/
theorem Intakes.Keyed.replace (hs : s.Keyed) {drawn : List Uuid} (hdrawn : s.drawn ⊆ drawn)
    (hkey : f.idempotencyKey ∈ drawn)
    (hown : f.idempotencyKey ∉ s.drawn ∨ ∃ f₀, s.form i = some f₀ ∧ f₀.idempotencyKey = f.idempotencyKey)
    (hheld : ∀ d ∈ s.sent, d.idempotencyKey = f.idempotencyKey → f.hasSubmitted = true ∧ d = f.submission) :
    ({ s.set i (some f) with drawn := drawn } : Intakes).Keyed := by
  have hother : ∀ j g, j ≠ i → (s.set i (some f)).form j = some g →
      s.form j = some g ∧ g.idempotencyKey ≠ f.idempotencyKey := by
    intro j g hne hg
    rw [Intakes.set_form_ne hne] at hg
    refine ⟨hg, fun heq => ?_⟩
    rcases hown with hnew | ⟨f₀, hf₀, hkey₀⟩
    · exact hnew (heq ▸ hs.drawn j g hg)
    · exact hne (hs.apart j i g f₀ hg hf₀ (heq.trans hkey₀.symm))
  have hself : ∀ g, (s.set i (some f)).form i = some g → g = f := by
    intro g hg
    rw [Intakes.set_form_self] at hg
    exact (Option.some.inj hg).symm
  refine ⟨fun j g hg => ?_, fun d hd => hdrawn (hs.sentDrawn d hd), fun j k g h hg hh heq => ?_,
    fun j g hg d hd hk => ?_, hs.same⟩
  · by_cases hj : j = i
    · subst hj
      rw [hself g hg]
      exact hkey
    · exact hdrawn (hs.drawn j g (hother j g hj hg).1)
  · by_cases hj : j = i <;> by_cases hk : k = i
    · rw [hj, hk]
    · subst hj
      exact ((hother k h hk hh).2 (heq.symm.trans (congrArg _ (hself g hg)))).elim
    · subst hk
      exact ((hother j g hj hg).2 (heq.trans (congrArg _ (hself h hh)))).elim
    · exact hs.apart j k g h (hother j g hj hg).1 (hother k h hk hh).1 heq
  · by_cases hj : j = i
    · subst hj
      obtain rfl := hself g hg
      exact hheld d hd hk
    · exact hs.held j g (hother j g hj hg).1 d hd hk

/-- A form that has been submitted. -/
theorem Intakes.Keyed.submit (hs : s.Keyed) (hform : s.form i = some f) (hsubmitted : f.hasSubmitted = true) :
    ({ s with sent := f.submission :: s.sent } : Intakes).Keyed := by
  have hkey := hs.drawn i f hform
  have hsame : ∀ d ∈ s.sent, d.idempotencyKey = f.idempotencyKey → d = f.submission := fun d hd hk =>
    (hs.held i f hform d hd hk).2
  refine ⟨hs.drawn, ?_, hs.apart, fun j g hg => ?_, ?_⟩
  · exact List.forall_mem_cons.mpr ⟨hkey, hs.sentDrawn⟩
  · refine List.forall_mem_cons.mpr ⟨fun hk => ?_, hs.held j g hg⟩
    obtain rfl := hs.apart i j f g hform hg hk
    obtain rfl : f = g := Option.some.inj (hform.symm.trans hg)
    exact ⟨hsubmitted, rfl⟩
  · refine List.forall_mem_cons.mpr ⟨?_, fun d hd => ?_⟩
    · exact List.forall_mem_cons.mpr ⟨fun _ => rfl, fun d hd hk => (hsame d hd hk.symm).symm⟩
    · exact List.forall_mem_cons.mpr ⟨fun hk => hsame d hd hk, fun d' hd' => hs.same d hd d' hd'⟩

theorem keyed_empty : ({} : Intakes).Keyed where
  drawn := fun _ _ h => by cases h
  sentDrawn := fun _ h => by cases h
  apart := fun _ _ _ _ h => by cases h
  held := fun _ _ h => by cases h
  same := fun _ h => by cases h

/-- A changed form: it has the key that it had and was not submitted, or it has a new one. -/
theorem Intakes.Keyed.change (hs : s.Keyed) (hform : s.form i = some f) (values : IntakeValues) {newKey : Uuid}
    (hnew : newKey ∉ s.drawn) :
    ({ s.set i (some ({ f with values := values }.rotateKeyForChangedIntent newKey)) with
      drawn := if f.hasSubmitted then newKey :: s.drawn else s.drawn } : Intakes).Keyed := by
  unfold NewCaseIntake.rotateKeyForChangedIntent
  split_ifs with hsubmitted
  · refine hs.replace (List.subset_cons_self _ _) List.mem_cons_self (Or.inl hnew) fun d hd hk => ?_
    exact (hs.unsent hnew hd hk).elim
  · refine hs.replace (List.Subset.refl _) (hs.drawn i f hform) (Or.inr ⟨f, hform, rfl⟩) fun d hd hk => ?_
    exact (hsubmitted (hs.held i f hform d hd hk).1).elim

/-- Every step keeps the keys. -/
theorem Intakes.Keyed.step {s' : Intakes} (hs : s.Keyed) (h : IntakeStep s s') : s'.Keyed := by
  cases h with
  | opened i newKey result hnew =>
    refine hs.replace (List.subset_cons_self _ _) List.mem_cons_self (Or.inl hnew) fun d hd hk => ?_
    exact (hs.unsent hnew hd hk).elim
  | changed i f values newKey hform hnew => exact hs.change hform values hnew
  | submitted i f hform hidle =>
    have hset : (s.set i (some { f with hasSubmitted := true, pending := true })).Keyed :=
      hs.replace (List.Subset.refl _) (hs.drawn i f hform) (Or.inr ⟨f, hform, rfl⟩) fun d hd hk =>
        ⟨rfl, (hs.held i f hform d hd hk).2⟩
    exact hset.submit (f := { f with hasSubmitted := true, pending := true }) (s.set_form_self i _) rfl
  | answered i f result hform hpending =>
    exact hs.replace (List.Subset.refl _) (hs.drawn i f hform) (Or.inr ⟨f, hform, rfl⟩) (hs.held i f hform)
  | lost i f hform hpending =>
    exact hs.replace (List.Subset.refl _) (hs.drawn i f hform) (Or.inr ⟨f, hform, rfl⟩) (hs.held i f hform)
  | closed i =>
    have hform : ∀ j g, (s.set i none).form j = some g → s.form j = some g := by
      intro j g hg
      by_cases hj : j = i
      · subst hj
        rw [Intakes.set_form_self] at hg
        cases hg
      · rwa [Intakes.set_form_ne hj] at hg
    exact ⟨fun j g hg => hs.drawn j g (hform j g hg), hs.sentDrawn,
      fun j k g h hg hh => hs.apart j k g h (hform j g hg) (hform k h hh), fun j g hg => hs.held j g (hform j g hg),
      hs.same⟩

theorem IntakeReachable.keyed (h : IntakeReachable s) : s.Keyed := by
  induction h with
  | refl => exact keyed_empty
  | tail _ hstep ih => exact ih.step hstep

/-- Two submissions with one key are the same submission. -/
theorem submission_of_key (h : IntakeReachable s) {d d' : Submission} (hd : d ∈ s.sent) (hd' : d' ∈ s.sent)
    (hkey : d.idempotencyKey = d'.idempotencyKey) : d = d' :=
  h.keyed.same d hd d' hd' hkey

end

/-! ### The key of a request -/

theorem uuidText_link (id : Uuid) : IsLinkText (Uuid.str id) := by
  have hall : (py "-0123456789abcdef").all (fun c => 32 < c.val && c.val < 128) = true := by decide
  intro c hc
  have hchar := List.all_eq_true.mp hall c (uuid_chars id c hc)
  rwa [Bool.and_eq_true, decide_eq_true_eq, decide_eq_true_eq] at hchar

theorem jsTrim_link {s : PyStr} (hs : IsLinkText s) : jsTrim (jsText s) = jsText s := by
  have htake := take_jsTrim hs (max (jsTrim (jsText s)).length s.length)
  rwa [List.take_of_length_le (le_max_left _ _), List.take_of_length_le (le_max_right _ _)] at htake

theorem field_key (d : Submission) : field d.formData "idempotency_key" = jsText (Uuid.str d.idempotencyKey) := by
  unfold field Submission.formData
  rw [List.lookup_cons_self]

theorem trimmedField_ok {lib : IntakeLibrary} {minimum : Nat} {maximum : Option Nat} {message : Option String}
    {value t : JsStr} (h : trimmedField lib minimum maximum message value = .ok t) : t = jsTrim value := by
  unfold trimmedField at h
  dsimp only at h
  split_ifs at h
  cases h
  rfl

open Raising in
/-- The fields are the trimmed entries of the form. -/
theorem createCaseFields_ok {lib : IntakeLibrary} {formData : FormData} {fields : CreateCaseFields}
    (h : createCaseFields lib formData = .ok fields) :
    fields.idempotencyKey = jsTrim (field formData "idempotency_key") ∧
      fields.inputKind = jsTrim (field formData "input_kind") ∧
      fields.inputContent = jsTrim (field formData "input_content") := by
  obtain ⟨key, hkey, h⟩ := bind_ok h
  obtain ⟨title, -, h⟩ := bind_ok h
  obtain ⟨severity, -, h⟩ := bind_ok h
  obtain ⟨category, -, h⟩ := bind_ok h
  obtain ⟨assetId, -, h⟩ := bind_ok h
  obtain ⟨inputKind, hkind, h⟩ := bind_ok h
  obtain ⟨inputContent, hcontent, h⟩ := bind_ok h
  cases h
  exact ⟨trimmedField_ok hkey, trimmedField_ok hkind, trimmedField_ok hcontent⟩

open Raising in
/-- The key and the input that the action sends. -/
theorem requestFrom_ok {lib : IntakeLibrary} {formData : FormData} {request : NewCaseRequest}
    (h : requestFrom lib formData = .ok request) :
    request.idempotencyKey = jsTrim (field formData "idempotency_key") ∧
      evidenceInput lib (jsTrim (field formData "input_kind")) (jsTrim (field formData "input_content")) =
        .ok request.input := by
  obtain ⟨fields, hfields, h⟩ := bind_ok h
  obtain ⟨hkey, hkind, hcontent⟩ := createCaseFields_ok hfields
  split_ifs at h
  obtain ⟨input, hinput, h⟩ := bind_ok h
  cases h
  rw [hkind, hcontent] at hinput
  exact ⟨hkey, hinput⟩

/-- What `create_case` gets for a submission bears the key of the form. -/
theorem apiRequest_key {lib : IntakeLibrary} {d : Submission} {idempotencyKey : PyStr} {body : CreateCaseRequest}
    (h : apiRequest lib d.formData = some (idempotencyKey, body)) : idempotencyKey = Uuid.str d.idempotencyKey := by
  unfold apiRequest at h
  split at h
  · cases h
  next request hrequest =>
    obtain ⟨_, -, heq⟩ := Option.map_eq_some_iff.mp h
    have hkey := (requestFrom_ok hrequest).1
    rw [field_key, jsTrim_link (uuidText_link _)] at hkey
    have hfirst : codePoints request.idempotencyKey = idempotencyKey := congrArg Prod.fst heq
    rw [← hfirst, hkey, codePoints_jsText]
    intro c hc
    have hchar := uuidText_link d.idempotencyKey c hc
    unfold Utf8.IsScalar
    omega

/-! ### The evidence -/

section

variable {lib : IntakeLibrary} {formData : FormData} {request : NewCaseRequest}

/-- The key of a member that may be left out. -/
theorem optionalMember_keys {α : Type} (o : Option α) (key : JsStr) (f : α → JsValue) :
    List.Sublist ((o.toList.map fun a => (key, f a)).map Prod.fst) [key] := by
  cases o with
  | none => exact List.nil_sublist _
  | some a => exact List.Sublist.refl _

theorem facts_keys (request : NewCaseRequest) : List.Sublist (request.facts.map Prod.fst)
    ([js "title", js "severity"] ++ [js "category"] ++ [js "asset_id"]) := by
  unfold NewCaseRequest.facts
  rw [List.map_append, List.map_append]
  exact ((List.Sublist.refl _).append (optionalMember_keys request.category _ _)).append
    (optionalMember_keys request.assetId _ _)

theorem facts_exact (request : NewCaseRequest) : ∀ m ∈ request.facts, m.2.Exact := by
  intro m hm
  unfold NewCaseRequest.facts at hm
  simp only [List.mem_append, List.mem_cons, List.not_mem_nil, or_false, List.mem_map] at hm
  rcases hm with ((rfl | rfl) | ⟨t, -, rfl⟩) | ⟨t, -, rfl⟩
  all_goals trivial

theorem exact_body (h : ∀ input ∈ request.input, (JsValue.obj input.2).Exact) : request.body.Exact := by
  have hkeys : ([js "title", js "severity"] ++ [js "category"] ++ [js "asset_id"] ++ [js "input"]).Nodup := by decide
  refine ⟨?_, (exactMembers_iff _).mpr fun m hm => ?_⟩
  · rw [List.map_append]
    exact hkeys.sublist ((facts_keys request).append (optionalMember_keys request.input _ _))
  · rcases List.mem_append.mp hm with hm | hm
    · exact facts_exact request m hm
    · obtain ⟨input, hinput, rfl⟩ := List.mem_map.mp hm
      have hdistinct : [js "input_kind", js "content"].Nodup := by decide
      exact ⟨hdistinct, trivial, h input (Option.mem_toList.mp hinput), trivial⟩

theorem facts_key {key : JsStr} (h : key ∈ request.facts.map Prod.fst) :
    key ∈ [js "title", js "severity"] ++ [js "category"] ++ [js "asset_id"] := (facts_keys request).subset h

theorem facts_ordered (request : NewCaseRequest) : request.facts.map orderedMember = request.facts := by
  refine (List.map_congr_left fun m hm => ?_).trans (List.map_id _)
  unfold NewCaseRequest.facts at hm
  simp only [List.mem_append, List.mem_cons, List.not_mem_nil, or_false, List.mem_map] at hm
  rcases hm with ((rfl | rfl) | ⟨t, -, rfl⟩) | ⟨t, -, rfl⟩
  all_goals rfl

/-- The evidence in the order of its keys. -/
theorem body_ordered {kind : JsStr} {members : List (JsStr × JsValue)} (hinput : request.input = some (kind, members)) :
    request.body.ordered = .obj (request.facts ++ [(js "input",
      .obj [(js "input_kind", .str kind), (js "content", (JsValue.obj members).ordered)])]) := by
  have hkeys : ∀ key ∈ [js "title", js "severity"] ++ [js "category"] ++ [js "asset_id"], isArrayIndex key = false := by
    decide
  have hinner : (inputValue (kind, members)).ordered =
      .obj [(js "input_kind", .str kind), (js "content", (JsValue.obj members).ordered)] := by
    have hnames : ∀ key ∈ [js "input_kind", js "content"], isArrayIndex key = false := by decide
    have hkeys : ∀ m ∈ [(js "input_kind", JsValue.str kind), (js "content", (JsValue.obj members).ordered)],
        isArrayIndex m.1 = false := fun m hm => hnames m.1 (List.mem_map_of_mem (f := Prod.fst) hm)
    exact congrArg JsValue.obj (ownProperties_eq_self hkeys)
  rw [NewCaseRequest.body, hinput, JsValue.ordered, orderedMembers_eq, List.map_append, facts_ordered]
  show JsValue.obj (ownProperties (request.facts ++ [(js "input", (inputValue (kind, members)).ordered)])) = _
  rw [hinner, ownProperties_eq_self]
  intro m hm
  rcases List.mem_append.mp hm with hm | hm
  · exact hkeys _ (facts_key (List.mem_map_of_mem hm))
  · rw [List.mem_singleton.mp hm]
    show isArrayIndex (js "input") = false
    decide

/-- The input of a request is what `JSON.parse` makes of the trimmed text. -/
theorem requestFrom_input {v : JsValue} (h : requestFrom lib formData = .ok request)
    (hread : parseJson lib.otherNumber (jsTrim (field formData "input_content")) = some v) :
    ∃ members, v = .obj members ∧ request.input = some (jsTrim (field formData "input_kind"), members) := by
  have hinput := (requestFrom_ok h).2
  unfold evidenceInput at hinput
  split_ifs at hinput with hpair hblank
  · rw [hblank] at hread
    cases hread
  · rw [hread] at hinput
    cases v with
    | obj members => exact ⟨members, rfl, (Except.ok.inj hinput).symm⟩
    | null | bool | num | str | arr => cases hinput

/-- What is not nested too deeply: for other values `JSON.stringify` raises a `RangeError`, for other texts
`json.loads` raises a `RecursionError`. -/
structure NestingLimits where
  stringify : JsValue → Bool
  loads : PyStr → Bool

/-- The body that is sent for a request. -/
def NewCaseRequest.sent (limits : NestingLimits) (request : NewCaseRequest) : Option PyStr :=
  if limits.stringify request.body then some request.text else none

/-- `json.loads(text)`, where `none` is a `ValueError` or a `RecursionError`. -/
def loadsWithin (limits : NestingLimits) (floatOf : PyStr → PyFloat) (text : PyStr) : Option Json :=
  if limits.loads text then loadsText floatOf text else none

/-- **The API reads the evidence that was typed.** For evidence whose numbers are written as safe integers, the content
that the API reads in a request is the value that Python reads in the text itself, with the members of its objects in
the order of their keys in JavaScript. A body is not sent, or not read, only if it is nested too deeply. -/
theorem evidence_read {s : PyStr} (hs : Decoded s) (h : requestFrom lib formData = .ok request)
    (htext : jsTrim (field formData "input_content") = jsText s) {v : JsValue}
    (hread : parseJson .other (jsText s) = some v) (hv : v.Exact) (hdigits : ¬LongDigits s) (limits : NestingLimits) :
    (limits.stringify request.body = false ∧ request.sent limits = none) ∨
    ∃ body, request.sent limits = some body ∧ ((limits.loads body = false ∧ loadsWithin limits lib.floatOf body = none) ∨
      ∃ front content sent, loadsText lib.floatOf s = some (.obj content) ∧ (Json.obj content).Same (.obj sent) ∧
        loadsWithin limits lib.floatOf body = some (.obj (front ++ [(py "input",
          .obj [(py "input_kind", .str (codePoints (jsTrim (field formData "input_kind")))),
            (py "content", .obj sent)])])) ∧ py "input" ∉ front.map Prod.fst) := by
  obtain ⟨members, rfl, hinput⟩ := requestFrom_input h (htext ▸ parseJson_exact hread hv)
  have hexact : request.body.Exact := exact_body fun input hmem => by
    rw [hinput] at hmem
    cases hmem
    exact hv
  have htyped : loadsText lib.floatOf s = some ((JsValue.obj members).toJson lib.floatOf) := by
    rcases loadsText_parseJson hs hread with hread | ⟨-, hlong⟩
    · exact hread
    · exact absurd hlong hdigits
  have hnames : ∀ name : String, (py name).all (fun c => c.val < 128) = true → codePoints (js name) = py name := by
    intro name hname
    refine codePoints_jsText fun c hc => ?_
    have hc := of_decide_eq_true (List.all_eq_true.mp hname c hc)
    unfold Utf8.IsScalar
    omega
  have hinputName := hnames "input" (by decide)
  unfold NewCaseRequest.sent loadsWithin
  cases hstringify : limits.stringify request.body with
  | false => exact Or.inl ⟨rfl, if_neg Bool.false_ne_true⟩
  | true =>
    refine Or.inr ⟨request.text, if_pos rfl, ?_⟩
    cases hloads : limits.loads request.text with
    | false => exact Or.inl ⟨rfl, if_neg Bool.false_ne_true⟩
    | true =>
      refine Or.inr ⟨request.facts.map (memberToJson lib.floatOf), membersToJson lib.floatOf members,
        membersToJson lib.floatOf (ownProperties (orderedMembers members)), htyped,
        same_ordered lib.floatOf (.obj members), ?_, ?_⟩
      · rw [if_pos rfl, NewCaseRequest.text, loadsText_stringify lib.floatOf hexact, body_ordered hinput,
          JsValue.toJson, membersToJson_eq, List.map_append]
        simp only [List.map_cons, List.map_nil, memberToJson, JsValue.toJson, JsValue.ordered, membersToJson,
          hinputName, hnames "input_kind" (by decide), hnames "content" (by decide)]
      · intro hmem
        obtain ⟨j, hj, hkey⟩ := List.mem_map.mp hmem
        obtain ⟨m, hm, rfl⟩ := List.mem_map.mp hj
        have hkeys := facts_key (List.mem_map_of_mem hm)
        have hinputKey : m.1 = js "input" := codePoints_injective (hkey.trans hinputName.symm)
        rw [hinputKey] at hkeys
        exact absurd hkeys (by decide)

end

theorem not_longDigits {s : PyStr} (h : s.length ≤ 4300) : ¬LongDigits s := by
  rintro ⟨digits, hinfix, -, hlong⟩
  have := hinfix.length_le
  omega

theorem sampleTitle_length : 1 ≤ (py "Link down").length ∧ (py "Link down").length ≤ 500 := by decide

theorem category_of_none : ∀ s ∈ (none : Option PyStr), 1 ≤ s.length ∧ s.length ≤ 100 := by simp

/-- A body with a title. -/
def sampleIntakeBody : CreateCaseRequest where
  title := py "Link down"
  category := none
  severity := .high
  assetId := none
  input := none
  titleOk := sampleTitle_length
  categoryOk := category_of_none

/-- Libraries for which every body is the sample body. -/
def sampleIntakeLibrary : IntakeLibrary where
  zodMessage := fun _ => js "Invalid input"
  zodUuid := fun _ => true
  otherNumber := .other
  floatOf := fun _ => sampleFloat
  createCaseBody := fun _ => some sampleIntakeBody

/-- Evidence with an array index behind another key. -/
def typedEvidence : JsValue := .obj [(js "b", .arr [.bool true]), (js "1", .num (.int ⟨2, by decide⟩))]

theorem typedEvidence_exact : typedEvidence.Exact := ⟨by decide, ⟨trivial, trivial⟩, trivial, trivial⟩

/-- A submission with evidence. -/
def sampleEvidenceForm : FormData :=
  [(js "idempotency_key", .text (js "key")), (js "title", .text (js "Link down")), (js "severity", .text (js "high")),
    (js "input_kind", .text (js "note ")), (js "input_content", .text (js " " ++ jsText typedEvidence.text))]

/-- No limits. -/
def sampleLimits : NestingLimits := ⟨fun _ => true, fun _ => true⟩

/-- The index goes first in the body, and the content is the same object. -/
theorem evidence_read_sample : ∃ request body front content sent,
    requestFrom sampleIntakeLibrary sampleEvidenceForm = .ok request ∧ request.sent sampleLimits = some body ∧
    (request.text.drop 78).take 18 = py "\x7b\"1\":2,\"b\":[true]\x7d" ∧
    loadsText sampleIntakeLibrary.floatOf typedEvidence.text = some (.obj content) ∧
    (Json.obj content).Same (.obj sent) ∧
    loadsWithin sampleLimits sampleIntakeLibrary.floatOf body = some (.obj (front ++ [(py "input",
      .obj [(py "input_kind", .str (codePoints (jsTrim (field sampleEvidenceForm "input_kind")))),
        (py "content", .obj sent)])])) := by
  have hread : (requestFrom sampleIntakeLibrary sampleEvidenceForm).toOption.map
      (fun request => decide ((request.text.drop 78).take 18 = py "\x7b\"1\":2,\"b\":[true]\x7d")) = some true := by
    decide +kernel
  obtain ⟨request, hrequest, hbody⟩ := Option.map_eq_some_iff.mp hread
  have hok : requestFrom sampleIntakeLibrary sampleEvidenceForm = .ok request := by
    cases hfrom : requestFrom sampleIntakeLibrary sampleEvidenceForm with
    | error message =>
      rw [hfrom] at hrequest
      cases hrequest
    | ok request' =>
      rw [hfrom] at hrequest
      cases hrequest
      rfl
  have htext : jsTrim (field sampleEvidenceForm "input_content") = jsText typedEvidence.text := by decide +kernel
  have hshort : typedEvidence.text.length ≤ 4300 := by decide +kernel
  rcases evidence_read (decoded_text typedEvidence_exact) hok htext (parseJson_text .other typedEvidence_exact)
    typedEvidence_exact (not_longDigits hshort) sampleLimits with ⟨hlimit, -⟩ | ⟨body, hsent, ⟨hlimit, -⟩ | h⟩
  · cases hlimit
  · cases hlimit
  · obtain ⟨front, content, sent, htyped, hsame, hloads, -⟩ := h
    exact ⟨request, body, front, content, sent, hok, hsent, of_decide_eq_true hbody, htyped, hsame, hloads⟩

end NetopsCopilot
