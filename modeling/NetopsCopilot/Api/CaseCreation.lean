import NetopsCopilot.Api.CaseRequests

/-!
# Answers of `create_case`

The request models bound the length of a text, and the commands also refuse a text of blanks. The route builds its
commands in front of the `try` that maps the errors of the repository, so a blank title, category or input kind
leaves it as a `ValueError` (`create_case_answered_iff`).
-/

namespace NetopsCopilot

open Txn

/-! ### The route -/

/-- `IdempotencyKey`, with the bounds of the header. -/
structure IdempotencyKey where
  text : PyStr
  ok : 1 ≤ text.length ∧ text.length ≤ 255

/-- `CaseRepository.create_case`. -/
abbrev CreatesCases := CreateCaseCommand → CaseProg CreateCaseResult

/-- The case errors that a repository documents: those that `_map_case_error` expects. -/
def CaseError.documented : CaseError → Bool
  | .domain (.caseIdentityMismatch _ _) => false
  | .domain _ | .caseNotFound _ | .idempotencyConflict _ _ _ => true
  | _ => false

/-- A repository raises only the errors that it documents. -/
def CreatesCases.Documented (repository : CreatesCases) : Prop :=
  ∀ command draws w e, ((repository command).eval CaseStmt.onWork draws w []).1 = .error e → e.documented = true

section

variable (sha256 : PyStr → Sha256Hex) (uuid5 : PyStr → Uuid) (repository : CreatesCases) (p : AuthenticatedPrincipal)
  (context : RequestContext) (draws : Nat → Uuid) (idempotencyKey : IdempotencyKey) (body : CreateCaseRequest)

/-- `create_case` with a repository. -/
def createCaseWith : CaseProg (CaseResponse × Bool) := do
  let command ← createCaseCommand sha256 uuid5 p context idempotencyKey.text body
  let result ← mapErrors (repository command)
  return (caseResponse result.case, !result.created)

/-- The route is that of the tenant's repository. -/
theorem createCaseRoute_eq : createCaseRoute sha256 uuid5 p context idempotencyKey.text body =
    createCaseWith sha256 uuid5 (createCase sha256 p.organizationId) p context idempotencyKey body := by
  simp only [createCaseRoute, createCaseRequest, createCaseWith, Prog.bind_eq, Prog.pure_eq, Prog.elim_elim, Prog.elim]

/-- A request in its transaction, which is rolled back when the route raises. -/
def serveCreateCase (db : Db) : Except RouteError (CaseResponse × Bool) × Db :=
  match Route.ofCase draws (createCaseWith sha256 uuid5 repository p context idempotencyKey body) { db := db } with
  | (.ok reply, w) => (.ok reply, w.db)
  | (.error e, _) => (.error e, db)

end

/-- The route returned, or raised an `ApiError` of the client and left the database as it was. -/
def CreateCaseAnswered (db : Db) (r : Except RouteError (CaseResponse × Bool) × Db) : Prop :=
  (∃ reply, r.1 = .ok reply) ∨ ∃ statusCode code message, r.1 = .error (.case (.api statusCode code message)) ∧
    400 ≤ statusCode ∧ statusCode < 500 ∧ r.2 = db

/-- The checks of the route that come before its commands. -/
structure ReachesCommand (uuid5 : PyStr → Uuid) (p : AuthenticatedPrincipal) (idempotencyKey : IdempotencyKey)
    (body : CreateCaseRequest) : Prop where
  key : isBlank idempotencyKey.text = false
  role : requireCaseCreateAccess p = .ok ()
  scope : requireCreateAssetScope p body.assetId = .ok ()
  actor : ∃ actor, actorFromPrincipal uuid5 p = .ok actor

/-- A text of the body that is not empty, but blank. -/
def CreateCaseRequest.HasBlank (body : CreateCaseRequest) : Prop :=
  isBlank body.title = true ∨ (∃ category ∈ body.category, isBlank category = true) ∨
    ∃ input ∈ body.input, isBlank input.inputKind = true

/-! ### The checks -/

section

variable {sha256 : PyStr → Sha256Hex} {uuid5 : PyStr → Uuid} {repository : CreatesCases} {p : AuthenticatedPrincipal}
  {context : RequestContext} {draws : Nat → Uuid} {idempotencyKey : IdempotencyKey} {body : CreateCaseRequest}

/-- A gate raises errors of 403 only. -/
def Gate {α : Type} (x : Except CaseError α) : Prop := ∀ e, x = .error e → ∃ code message, e = .api 403 code message

theorem gate_createAccess : Gate (requireCaseCreateAccess p) := by
  intro e h
  unfold requireCaseCreateAccess at h
  split_ifs at h
  cases h
  exact ⟨_, _, rfl⟩

theorem gate_assetScope (assetId : Option Uuid) : Gate (requireCreateAssetScope p assetId) := by
  intro e h
  unfold requireCreateAssetScope at h
  split_ifs at h
  cases h
  exact ⟨_, _, rfl⟩

theorem gate_actor : Gate (actorFromPrincipal uuid5 p) := by
  intro e h
  unfold actorFromPrincipal at h
  dsimp only at h
  split at h
  · cases h
  · cases h
    exact ⟨_, _, rfl⟩

/-- Which input commands are made. -/
theorem inputMake_ok_iff (inputId : Uuid) (input : CaseInputRequest) :
    (∃ i, caseInputCommand sha256 inputId input = .ok i) ↔ isBlank input.inputKind = false := by
  unfold caseInputCommand CaseInputCommand.make
  by_cases hblank : isBlank input.inputKind = false
  · rw [dif_pos ⟨hblank, input.inputKindOk.2⟩]
    exact ⟨fun _ => hblank, fun _ => ⟨_, rfl⟩⟩
  · rw [dif_neg fun h => hblank h.1]
    exact ⟨fun ⟨_, h⟩ => (by cases h), fun h => absurd h hblank⟩

/-- Which commands are made of a body. -/
theorem commandMake_ok_iff (hkey : isBlank idempotencyKey.text = false) {caseId eventId correlationId : Uuid}
    {actor : Actor} {occurredAt : Instant} {caseInput : Option CaseInputCommand} :
    (∃ c, CreateCaseCommand.make
      { caseId := caseId, eventId := eventId, idempotencyKey := idempotencyKey.text, title := body.title,
        category := body.category, severity := body.severity, assetId := body.assetId, actor := actor,
        correlationId := correlationId, occurredAt := occurredAt, caseInput := caseInput } = .ok c) ↔
      isBlank body.title = false ∧ ∀ category ∈ body.category, isBlank category = false := by
  unfold CreateCaseCommand.make
  dsimp only
  rw [dif_pos ⟨hkey, idempotencyKey.ok.2⟩]
  by_cases htitle : isBlank body.title = false
  · rw [dif_pos ⟨htitle, body.titleOk.2⟩]
    by_cases hcategory : ∀ category ∈ body.category, isBlank category = false
    · rw [dif_pos fun s hs => ⟨hcategory s hs, (body.categoryOk s hs).2⟩]
      exact ⟨fun _ => ⟨htitle, hcategory⟩, fun _ => ⟨_, rfl⟩⟩
    · rw [dif_neg fun h => hcategory fun s hs => (h s hs).1]
      exact ⟨fun ⟨_, h⟩ => (by cases h), fun h => absurd h.2 hcategory⟩
  · rw [dif_neg fun h => htitle h.1]
    exact ⟨fun ⟨_, h⟩ => (by cases h), fun h => absurd h.1 htitle⟩

/-! ### The outcome -/

/-- What is answered when no command is made: a `ValueError` leaves the route. -/
theorem not_answered {db : Db} {e : DomainError} : ¬CreateCaseAnswered db (.error (.case (.domain e)), db) := by
  rintro (⟨reply, h⟩ | ⟨statusCode, code, message, h, -⟩)
  · cases h
  · cases h

/-- The errors of a repository are mapped to those of the client. -/
theorem mapCaseError_documented {e : CaseError} (h : e.documented = true) :
    ∃ statusCode code message, mapCaseError e = .api statusCode code message ∧ 400 ≤ statusCode ∧ statusCode < 500 := by
  cases e with
  | domain e =>
    cases e with
    | caseIdentityMismatch _ _ => cases h
    | _ => exact ⟨_, _, _, rfl, by decide, by decide⟩
  | caseNotFound caseId => exact ⟨_, _, _, rfl, by decide, by decide⟩
  | idempotencyConflict key existing requested => exact ⟨_, _, _, rfl, by decide, by decide⟩
  | _ => cases h

/-- What the rest of the route answers to a command. -/
theorem answered_of_command (hrepository : repository.Documented) (command : CreateCaseCommand) (draws : Nat → Uuid)
    (db : Db) : CreateCaseAnswered db
      (match Route.ofCase draws (do
          let result ← mapErrors (repository command)
          return (caseResponse result.case, !result.created)) { db := db } with
        | (.ok reply, w) => (.ok reply, w.db)
        | (.error e, _) => (.error e, db)) := by
  have heval : Route.ofCase draws (do
      let result ← mapErrors (repository command)
      return (caseResponse result.case, !result.created)) { db := db } =
      ((((((repository command).eval CaseStmt.onWork draws { db := db } []).1.map fun result =>
          (caseResponse result.case, !result.created)).mapError mapCaseError).mapError RouteError.case,
        ((repository command).eval CaseStmt.onWork draws { db := db } []).2)) := by
    unfold Route.ofCase mapErrors
    simp only [Prog.bind_eq, Prog.pure_eq, Prog.elim_elim, Prog.elim]
    rw [Prog.eval_bimap]
  rw [heval]
  cases hresult : ((repository command).eval CaseStmt.onWork draws { db := db } []).1 with
  | ok result => exact Or.inl ⟨_, rfl⟩
  | error e =>
    obtain ⟨statusCode, code, message, hmap, hlow, hhigh⟩ :=
      mapCaseError_documented (hrepository command draws { db := db } e hresult)
    refine Or.inr ⟨statusCode, code, message, ?_, hlow, hhigh, rfl⟩
    show Except.error (RouteError.case (mapCaseError e)) = _
    rw [hmap]

/-- A gate that raises. -/
theorem Gate.answered {α : Type} {x : Except CaseError α} (hx : Gate x) {e : CaseError} (h : x = .error e) (db : Db) :
    CreateCaseAnswered db (.error (.case e), db) := by
  obtain ⟨code, message, rfl⟩ := hx e h
  exact Or.inr ⟨403, code, message, rfl, by decide, by decide, rfl⟩

/-- Behind the gates, with an input command. -/
theorem answered_of_input (hrepository : repository.Documented) (context : RequestContext) (draws : Nat → Uuid)
    (hkey : isBlank idempotencyKey.text = false) (body : CreateCaseRequest) (actor : Actor)
    (caseInput : Option CaseInputCommand) (db : Db) : CreateCaseAnswered db
      (match Route.ofCase draws (do
          let caseId ← uuid4
          let eventId ← uuid4
          let command ← Prog.lift ((CreateCaseCommand.make
            { caseId := caseId, eventId := eventId, idempotencyKey := idempotencyKey.text, title := body.title,
              category := body.category, severity := body.severity, assetId := body.assetId, actor := actor,
              correlationId := context.correlationId, occurredAt := context.now,
              caseInput := caseInput }).mapError .domain)
          let result ← mapErrors (repository command)
          return (caseResponse result.case, !result.created)) { db := db } with
        | (.ok reply, w) => (.ok reply, w.db)
        | (.error e, _) => (.error e, db)) ↔
      isBlank body.title = false ∧ ∀ category ∈ body.category, isBlank category = false := by
  let args : CreateCaseArgs :=
    { caseId := draws 0, eventId := draws 1, idempotencyKey := idempotencyKey.text, title := body.title,
      category := body.category, severity := body.severity, assetId := body.assetId, actor := actor,
      correlationId := context.correlationId, occurredAt := context.now, caseInput := caseInput }
  have hmake : (∃ c, CreateCaseCommand.make args = .ok c) ↔ _ := commandMake_ok_iff hkey
  rw [← hmake]
  show CreateCaseAnswered db (match Route.ofCase (fun n => draws (n + 1 + 1))
      ((Prog.lift ((CreateCaseCommand.make args).mapError .domain)).elim _ .raise) { db := db } with
    | (.ok reply, w) => (.ok reply, w.db)
    | (.error e, _) => (.error e, db)) ↔ _
  cases hcommand : CreateCaseCommand.make args with
  | error e => exact iff_of_false not_answered fun ⟨_, h⟩ => by cases h
  | ok command => exact iff_of_true (answered_of_command hrepository command _ db) ⟨command, rfl⟩

/-- The input command is made of the first identifier. -/
theorem ofCase_requestInput {α β : Type} (input : CaseInputRequest) (f : Option CaseInputCommand → CaseProg α)
    (g : α → CaseProg β) (w : Work) :
    Route.ofCase draws (((requestInput sha256 (some input)).elim f .raise).elim g .raise) w =
      match caseInputCommand sha256 (draws 0) input with
      | .ok caseInput => Route.ofCase (fun n => draws (n + 1)) ((f (some caseInput)).elim g .raise) w
      | .error e => (.error (.case (.domain e)), w) := by
  show Route.ofCase (fun n => draws (n + 1)) ((((Prog.lift ((caseInputCommand sha256 (draws 0) input).mapError
    .domain)).elim (fun caseInput => .ret (some caseInput)) .raise).elim f .raise).elim g .raise) w = _
  cases caseInputCommand sha256 (draws 0) input with
  | error e => rfl
  | ok caseInput => rfl

/-- Behind the gates. -/
theorem answered_of_reaches (hrepository : repository.Documented) (context : RequestContext) (draws : Nat → Uuid)
    (hreaches : ReachesCommand uuid5 p idempotencyKey body) (db : Db) :
    CreateCaseAnswered db (serveCreateCase sha256 uuid5 repository p context draws idempotencyKey body db) ↔
      ¬body.HasBlank := by
  obtain ⟨hkey, hrole, hscope, actor, hactor⟩ := hreaches
  have hblank : ¬body.HasBlank ↔
      (isBlank body.title = false ∧ ∀ category ∈ body.category, isBlank category = false) ∧
        ∀ input ∈ body.input, isBlank input.inputKind = false := by
    unfold CreateCaseRequest.HasBlank
    simp [and_assoc]
  rw [hblank]
  unfold serveCreateCase createCaseWith createCaseCommand
  rw [if_neg (by rw [hkey]; exact Bool.false_ne_true), hrole, hscope, hactor]
  cases hinput : body.input with
  | none =>
    refine (answered_of_input hrepository context draws hkey body actor none db).trans ?_
    simp
  | some input =>
    have hmake : (∃ i, caseInputCommand sha256 (draws 0) input = .ok i) ↔ _ := inputMake_ok_iff (draws 0) input
    simp only [Prog.lift, Prog.bind_eq, Prog.elim]
    rw [ofCase_requestInput]
    cases hcommand : caseInputCommand sha256 (draws 0) input with
    | error e =>
      refine iff_of_false not_answered fun h => ?_
      obtain ⟨i, hok⟩ := hmake.mpr (h.2 input rfl)
      rw [hcommand] at hok
      cases hok
    | ok caseInput =>
      have hkind := hmake.mp ⟨caseInput, hcommand⟩
      refine (answered_of_input hrepository context _ hkey body actor (some caseInput) db).trans ?_
      simp [hkind]

/-- In front of a gate that is closed. -/
theorem answered_of_not_reaches (context : RequestContext) (draws : Nat → Uuid)
    (hreaches : ¬ReachesCommand uuid5 p idempotencyKey body) (db : Db) :
    CreateCaseAnswered db (serveCreateCase sha256 uuid5 repository p context draws idempotencyKey body db) := by
  unfold serveCreateCase createCaseWith createCaseCommand
  by_cases hkey : isBlank idempotencyKey.text = true
  · rw [if_pos hkey]
    exact Or.inr ⟨422, _, _, rfl, by decide, by decide, rfl⟩
  rw [if_neg hkey]
  rw [Bool.not_eq_true] at hkey
  cases hrole : requireCaseCreateAccess p with
  | error e => exact gate_createAccess.answered hrole db
  | ok =>
    cases hscope : requireCreateAssetScope p body.assetId with
    | error e => exact (gate_assetScope _).answered hscope db
    | ok =>
      cases hactor : actorFromPrincipal uuid5 p with
      | error e => exact gate_actor.answered hactor db
      | ok actor => exact absurd ⟨hkey, hrole, hscope, actor, hactor⟩ hreaches

/-- **`create_case` answers every admitted request, except one that passes the gates with a blank text.** -/
theorem create_case_answered_iff (hrepository : repository.Documented) (context : RequestContext)
    (draws : Nat → Uuid) (idempotencyKey : IdempotencyKey) (body : CreateCaseRequest) (db : Db) :
    CreateCaseAnswered db (serveCreateCase sha256 uuid5 repository p context draws idempotencyKey body db) ↔
      ¬(ReachesCommand uuid5 p idempotencyKey body ∧ body.HasBlank) := by
  by_cases hreaches : ReachesCommand uuid5 p idempotencyKey body
  · rw [answered_of_reaches hrepository context draws hreaches db]
    simp [hreaches]
  · exact iff_of_true (answered_of_not_reaches context draws hreaches db) fun h => hreaches h.1

end

/-- A repository that stores nothing and reports the case as created. -/
def sampleRepository : CreatesCases := fun command =>
  .ret { case := caseRecord (insertCaseRow (fun _ => zeroSha256) 7 command), created := true }

/-- An operator without assets. -/
def sampleCreator : AuthenticatedPrincipal where
  subject := py "operator"
  organizationId := 7
  roles := {.operator}
  assetIds := ∅
  issuer := py "issuer"

/-- A request with a title and an input kind. -/
def sampleBody (title inputKind : PyStr) (htitle : 1 ≤ title.length ∧ title.length ≤ 500)
    (hinputKind : 1 ≤ inputKind.length ∧ inputKind.length ≤ 100) : CreateCaseRequest where
  title := title
  category := none
  severity := .high
  assetId := none
  input := some ⟨inputKind, [], hinputKind, by simp [Json.Dict, dictMembers]⟩
  titleOk := htitle
  categoryOk := by simp

theorem sampleRepository_documented : sampleRepository.Documented := by
  intro command draws w e h
  cases h

/-- With texts that are not blank. -/
theorem create_case_answered_sample : CreateCaseAnswered {}
    (serveCreateCase (fun _ => zeroSha256) (fun _ => 3) sampleRepository sampleCreator ⟨12, 300⟩ (fun _ => 1000)
      ⟨py "key", by decide⟩ (sampleBody (py "Link down") (py "note") (by decide) (by decide)) {}) := by
  refine (create_case_answered_iff sampleRepository_documented ⟨12, 300⟩ _ _ _ _).mpr ?_
  rintro ⟨-, htitle | ⟨category, hcategory, -⟩ | ⟨input, hinput, hblank⟩⟩
  · exact absurd htitle (by decide)
  · cases hcategory
  · cases hinput
    exact absurd hblank (by decide)

/-- A title of one blank is admitted, and not answered. -/
theorem create_case_blank_title : ¬∀ (repository : CreatesCases) (p : AuthenticatedPrincipal)
    (idempotencyKey : IdempotencyKey) (body : CreateCaseRequest) (db : Db), repository.Documented →
    CreateCaseAnswered db (serveCreateCase (fun _ => zeroSha256) (fun _ => 3) repository p ⟨12, 300⟩ (fun _ => 1000)
      idempotencyKey body db) := by
  intro hall
  refine (answered_of_reaches sampleRepository_documented _ _ ?_ _).mp (hall sampleRepository sampleCreator
    ⟨py "key", by decide⟩ (sampleBody (py " ") (py "note") (by decide) (by decide)) {}
    sampleRepository_documented) (Or.inl (by decide))
  refine ⟨by decide, rfl, if_pos (fun a ha => by cases ha), ?_⟩
  unfold actorFromPrincipal encodeUtf8
  dsimp only
  rw [if_pos (by decide)]
  exact ⟨_, rfl⟩

end NetopsCopilot
