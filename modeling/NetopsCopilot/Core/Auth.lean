import Mathlib.Data.List.ReduceOption
import NetopsCopilot.Api.Cases
import NetopsCopilot.Api.Errors
import NetopsCopilot.Core.SigningKeys
import NetopsCopilot.Lib.Except
import NetopsCopilot.Lib.Rows
import NetopsCopilot.Python.Uuid

/-!
# Access tokens (`core/auth.py`, `get_current_principal` in `core/dependencies.py`)

`verify` reads the header of a token, takes the key that the header names from the resolver, has the token decoded with
it, and reads the principal out of the claims. PyJWT is a parameter: what it reads and accepts is not interpreted, but
for the arguments it gets. A run is a sequence of verifications that share the resolver.
-/

namespace NetopsCopilot

/-! ### Settings -/

/-- `require_supported_asymmetric_algorithms`. -/
def asymmetricAlgorithms : List PyStr := [py "RS256", py "RS384", py "RS512", py "ES256", py "ES384", py "ES512"]

/-- `AuthSettings`. -/
structure AuthSettings where
  issuer : PyStr := py "http://localhost:8080/realms/netops-dev"
  audience : PyStr := py "netops-api"
  allowedAlgorithms : List PyStr := [py "RS256"]
  clockSkewSeconds : Nat := 30
  organizationClaim : PyStr := py "organization_id"
  assetIdsClaim : PyStr := py "asset_ids"
  algorithms : allowedAlgorithms ≠ [] ∧ ∀ a ∈ allowedAlgorithms, a ∈ asymmetricAlgorithms := by decide
  clockSkew : clockSkewSeconds ≤ 300 := by decide
  claimNames : isBlank organizationClaim = false ∧ isBlank assetIdsClaim = false := by decide

/-- `CaseRole.value`. -/
def CaseRole.value : CaseRole → PyStr
  | .orgAdmin => py "org_admin"
  | .operator => py "operator"
  | .approver => py "approver"
  | .auditor => py "auditor"
  | .integrationAdmin => py "integration_admin"
  | .platformAdmin => py "platform_admin"

def CaseRole.all : List CaseRole := [.orgAdmin, .operator, .approver, .auditor, .integrationAdmin, .platformAdmin]

/-- `CaseRole(text)`, where `none` is a `ValueError`. -/
def CaseRole.ofValue (text : PyStr) : Option CaseRole := CaseRole.all.find? fun role => role.value == text

theorem CaseRole.ofValue_eq_some {text : PyStr} {role : CaseRole} :
    CaseRole.ofValue text = some role ↔ text = role.value := by
  constructor
  · intro h
    exact (beq_iff_eq.mp (List.find?_some (p := fun r : CaseRole => r.value == text) h)).symm
  · rintro rfl
    cases role <;> decide

/-! ### Claims -/

/-- `AuthenticationError` with its code, and `AuthenticationServiceError`. -/
inductive AuthError where
  | authentication (code : PyStr)
  | authenticationService (message : PyStr)
deriving DecidableEq

/-- `AuthenticationError()`. -/
def invalidToken : AuthError := .authentication (py "invalid_token")

/-- `AuthenticatedPrincipal`, with the `client_id` that no route reads. -/
structure TokenPrincipal extends AuthenticatedPrincipal where
  clientId : Option PyStr

section

variable (U : UnicodeData) (settings : AuthSettings) (claims : JsonObject)

/-- `_required_string`. -/
def requiredString (claimName : PyStr) : Except AuthError PyStr :=
  match claims.lookup claimName with
  | some (.str value) => if isBlank value then .error invalidToken else .ok value
  | _ => .error invalidToken

/-- `_optional_string`. -/
def optionalString (claimName : PyStr) : Except AuthError (Option PyStr) :=
  match claims.lookup claimName with
  | none | some .null => .ok none
  | some (.str value) => if isBlank value then .error invalidToken else .ok (some value)
  | _ => .error invalidToken

/-- A text that `UUID` takes. -/
def uuidItem : Json → Except AuthError Uuid
  | .str text =>
    match uuidOfText U text with
    | some id => .ok id
    | none => .error invalidToken
  | _ => .error invalidToken

/-- `_uuid_claim(…, required=True)`. -/
def uuidClaim (claimName : PyStr) : Except AuthError Uuid :=
  match claims.lookup claimName with
  | some value => uuidItem U value
  | none => .error invalidToken

/-- `_uuid_list_claim`. -/
def uuidListClaim (claimName : PyStr) : Except AuthError (Finset Uuid) :=
  match claims.lookup claimName with
  | none | some .null => .ok ∅
  | some (.arr items) => (items.mapM (uuidItem U)).map List.toFinset
  | _ => .error invalidToken

/-- One round of the loop in `_realm_roles`: what is not a product role is passed over. -/
def roleItem : Json → Except AuthError (Option CaseRole)
  | .str text => .ok (CaseRole.ofValue text)
  | _ => .error invalidToken

/-- `_realm_roles`. -/
def realmRoles : Except AuthError (Finset CaseRole) :=
  match claims.lookup (py "realm_access") with
  | some (.obj realmAccess) =>
    match realmAccess.lookup (py "roles") with
    | some (.arr rawRoles) => (rawRoles.mapM roleItem).map fun roles => roles.reduceOption.toFinset
    | _ => .error invalidToken
  | _ => .error invalidToken

/-- `principal_from_claims`. -/
def principalFromClaims : Except AuthError TokenPrincipal := do
  let subject ← requiredString claims (py "sub")
  let issuer ← requiredString claims (py "iss")
  let organizationId ← uuidClaim U claims settings.organizationClaim
  let assetIds ← uuidListClaim U claims settings.assetIdsClaim
  let roles ← realmRoles claims
  let clientId ← optionalString claims (py "azp")
  return { subject, organizationId, roles, assetIds, issuer, clientId }

end

/-! ### What the claims say about a principal -/

/-- Texts of a list of JSON strings. -/
def jsonTexts (texts : List PyStr) : Json := .arr (texts.map .str)

/-- The principal that claims describe: nothing of it comes from anywhere else. -/
structure PrincipalClaims (U : UnicodeData) (settings : AuthSettings) (claims : JsonObject) (p : TokenPrincipal) :
    Prop where
  subject : claims.lookup (py "sub") = some (.str p.subject) ∧ isBlank p.subject = false
  issuer : claims.lookup (py "iss") = some (.str p.issuer) ∧ isBlank p.issuer = false
  organizationId : ∃ text, claims.lookup settings.organizationClaim = some (.str text) ∧
    uuidOfText U text = some p.organizationId
  /-- No claim grants no asset, and not every asset. -/
  assetIds : ((claims.lookup settings.assetIdsClaim).getD .null = .null ∧ p.assetIds = ∅) ∨
    ∃ texts, claims.lookup settings.assetIdsClaim = some (jsonTexts texts) ∧
      (∀ text ∈ texts, (uuidOfText U text).isSome = true) ∧
      ∀ id, id ∈ p.assetIds ↔ ∃ text ∈ texts, uuidOfText U text = some id
  /-- Realm roles that are no product roles grant nothing. -/
  roles : ∃ realmAccess texts, claims.lookup (py "realm_access") = some (.obj realmAccess) ∧
    realmAccess.lookup (py "roles") = some (jsonTexts texts) ∧ ∀ role, role ∈ p.roles ↔ role.value ∈ texts
  clientId : ((claims.lookup (py "azp")).getD .null = .null ∧ p.clientId = none) ∨
    ∃ text, claims.lookup (py "azp") = some (.str text) ∧ isBlank text = false ∧ p.clientId = some text

section

variable {U : UnicodeData} {settings : AuthSettings} {claims : JsonObject} {claimName : PyStr}

theorem requiredString_iff {value : PyStr} : requiredString claims claimName = .ok value ↔
    claims.lookup claimName = some (.str value) ∧ isBlank value = false := by
  unfold requiredString
  split
  next found hfound =>
    rw [hfound, Option.some_inj, Json.str.injEq]
    split_ifs with hblank
    · refine iff_of_false (fun h => by cases h) ?_
      rintro ⟨rfl, hvalue⟩
      rw [hblank] at hvalue
      cases hvalue
    · rw [Except.ok.injEq]
      constructor
      · rintro rfl
        exact ⟨rfl, (Bool.not_eq_true _).mp hblank⟩
      · exact And.left
  next hother =>
    refine iff_of_false (fun h => by cases h) ?_
    rintro ⟨h, -⟩
    exact hother _ h

theorem optionalString_iff {value : Option PyStr} : optionalString claims claimName = .ok value ↔
    ((claims.lookup claimName).getD .null = .null ∧ value = none) ∨
      ∃ text, claims.lookup claimName = some (.str text) ∧ isBlank text = false ∧ value = some text := by
  unfold optionalString
  constructor
  · intro h
    split at h
    next hnone =>
      cases h
      exact .inl ⟨by rw [hnone]; rfl, rfl⟩
    next hnull =>
      cases h
      exact .inl ⟨by rw [hnull]; rfl, rfl⟩
    next text htext =>
      split_ifs at h with hblank
      cases h
      exact .inr ⟨text, htext, (Bool.not_eq_true _).mp hblank, rfl⟩
    · cases h
  · rintro (⟨hnull, rfl⟩ | ⟨text, htext, hblank, rfl⟩)
    · cases hfound : claims.lookup claimName with
      | none => rfl
      | some found =>
        rw [hfound, Option.getD_some] at hnull
        rw [hnull]
    · simp [htext, hblank]

theorem uuidItem_iff {item : Json} {id : Uuid} :
    uuidItem U item = .ok id ↔ ∃ text, item = .str text ∧ uuidOfText U text = some id := by
  cases item with
  | str text => cases h : uuidOfText U text <;> simp [uuidItem, h]
  | null | bool b | int n | float f | arr items | obj members => simp [uuidItem]

theorem roleItem_iff {item : Json} {role : Option CaseRole} :
    roleItem item = .ok role ↔ ∃ text, item = .str text ∧ CaseRole.ofValue text = role := by
  cases item with
  | str text => simp [roleItem]
  | null | bool b | int n | float f | arr items | obj members => simp [roleItem]

/-- A loop over a list of JSON strings. -/
theorem mapM_texts_iff {β : Type} {f : Json → Except AuthError β} {r : PyStr → β → Prop}
    (hf : ∀ item b, f item = .ok b ↔ ∃ text, item = .str text ∧ r text b) {items : List Json} {bs : List β} :
    items.mapM f = .ok bs ↔ ∃ texts : List PyStr, items = texts.map .str ∧ List.Forall₂ r texts bs := by
  rw [Raising.mapM_ok_iff]
  constructor
  · intro h
    induction h with
    | nil => exact ⟨[], rfl, .nil⟩
    | cons hab _ ih =>
      obtain ⟨text, rfl, hr⟩ := (hf _ _).mp hab
      obtain ⟨texts, rfl, htexts⟩ := ih
      exact ⟨text :: texts, rfl, .cons hr htexts⟩
  · rintro ⟨texts, rfl, h⟩
    rw [List.forall₂_map_left_iff]
    exact h.imp fun text b hr => (hf _ _).mpr ⟨text, rfl, hr⟩

theorem mem_of_forall₂_eq {α β : Type} {g : α → Option β} {xs : List α} {ys : List β}
    (h : List.Forall₂ (fun x y => g x = some y) xs ys) {y : β} : y ∈ ys ↔ ∃ x ∈ xs, g x = some y := by
  constructor
  · intro hy
    obtain ⟨x, hx, hxy⟩ := Rows.exists_match h.flip hy
    exact ⟨x, hx, hxy⟩
  · rintro ⟨x, hx, hxy⟩
    obtain ⟨y', hy', hxy'⟩ := Rows.exists_match h hx
    rwa [← Option.some_inj.mp (hxy'.symm.trans hxy)]

theorem exists_forall₂_eq {α β : Type} {g : α → Option β} {xs : List α} (h : ∀ x ∈ xs, (g x).isSome = true) :
    ∃ ys, List.Forall₂ (fun x y => g x = some y) xs ys := by
  induction xs with
  | nil => exact ⟨[], .nil⟩
  | cons x xs ih =>
    obtain ⟨hx, hrest⟩ := List.forall_mem_cons.mp h
    obtain ⟨y, hy⟩ := Option.isSome_iff_exists.mp hx
    obtain ⟨ys, hys⟩ := ih hrest
    exact ⟨y :: ys, .cons hy hys⟩

theorem map_ok_iff {α β : Type} {x : Except AuthError α} {f : α → β} {b : β} :
    x.map f = .ok b ↔ ∃ a, x = .ok a ∧ f a = b := by
  cases x <;> simp [Except.map]

theorem uuidListClaim_iff {ids : Finset Uuid} : uuidListClaim U claims claimName = .ok ids ↔
    ((claims.lookup claimName).getD .null = .null ∧ ids = ∅) ∨
      ∃ texts, claims.lookup claimName = some (jsonTexts texts) ∧
        (∀ text ∈ texts, (uuidOfText U text).isSome = true) ∧
        ∀ id, id ∈ ids ↔ ∃ text ∈ texts, uuidOfText U text = some id := by
  unfold uuidListClaim
  constructor
  · intro h
    split at h
    next hnone =>
      cases h
      exact .inl ⟨by rw [hnone]; rfl, rfl⟩
    next hnull =>
      cases h
      exact .inl ⟨by rw [hnull]; rfl, rfl⟩
    next items hitems =>
      obtain ⟨found, hfound, rfl⟩ := map_ok_iff.mp h
      obtain ⟨texts, rfl, htexts⟩ := (mapM_texts_iff fun _ _ => uuidItem_iff).mp hfound
      refine .inr ⟨texts, hitems, fun text htext => ?_, fun id => ?_⟩
      · obtain ⟨id, -, hid⟩ := Rows.exists_match htexts htext
        exact Option.isSome_iff_exists.mpr ⟨id, hid⟩
      · rw [List.mem_toFinset, mem_of_forall₂_eq htexts]
    · cases h
  · rintro (⟨hnull, rfl⟩ | ⟨texts, htexts, hread, hids⟩)
    · cases hfound : claims.lookup claimName with
      | none => rfl
      | some found =>
        rw [hfound, Option.getD_some] at hnull
        rw [hnull]
    · obtain ⟨found, hfound⟩ := exists_forall₂_eq hread
      have hitems : (texts.map Json.str).mapM (uuidItem U) = .ok found :=
        (mapM_texts_iff fun _ _ => uuidItem_iff).mpr ⟨texts, rfl, hfound⟩
      rw [htexts]
      refine map_ok_iff.mpr ⟨found, hitems, Finset.ext fun id => ?_⟩
      rw [List.mem_toFinset, mem_of_forall₂_eq hfound, hids]

/-- A text is the value of a role, or of none. -/
theorem mem_roles_iff {texts : List PyStr} {roles : List (Option CaseRole)} {role : CaseRole}
    (h : List.Forall₂ (fun text role => CaseRole.ofValue text = role) texts roles) :
    role ∈ roles.reduceOption.toFinset ↔ role.value ∈ texts := by
  rw [List.mem_toFinset, List.reduceOption_mem_iff]
  constructor
  · intro hrole
    obtain ⟨text, htext, hvalue⟩ := Rows.exists_match h.flip hrole
    rwa [← CaseRole.ofValue_eq_some.mp hvalue]
  · intro htext
    obtain ⟨found, hfound, hvalue⟩ := Rows.exists_match h htext
    rwa [← CaseRole.ofValue_eq_some.mpr rfl, hvalue]

theorem realmRoles_iff {roles : Finset CaseRole} : realmRoles claims = .ok roles ↔
    ∃ realmAccess texts, claims.lookup (py "realm_access") = some (.obj realmAccess) ∧
      realmAccess.lookup (py "roles") = some (jsonTexts texts) ∧ ∀ role, role ∈ roles ↔ role.value ∈ texts := by
  unfold realmRoles
  constructor
  · intro h
    split at h
    next realmAccess haccess =>
      split at h
      next items hitems =>
        obtain ⟨found, hfound, rfl⟩ := map_ok_iff.mp h
        obtain ⟨texts, rfl, htexts⟩ := (mapM_texts_iff fun _ _ => roleItem_iff).mp hfound
        exact ⟨realmAccess, texts, haccess, hitems, fun role => mem_roles_iff htexts⟩
      · cases h
    · cases h
  · rintro ⟨realmAccess, texts, haccess, htexts, hroles⟩
    have hfound : List.Forall₂ (fun text role => CaseRole.ofValue text = role) texts (texts.map CaseRole.ofValue) :=
      List.forall₂_map_right_iff.mpr (List.forall₂_same.mpr fun _ _ => rfl)
    have hitems : (texts.map Json.str).mapM roleItem = .ok (texts.map CaseRole.ofValue) :=
      (mapM_texts_iff fun _ _ => roleItem_iff).mpr ⟨texts, rfl, hfound⟩
    rw [haccess]
    dsimp only
    rw [htexts]
    refine map_ok_iff.mpr ⟨_, hitems, Finset.ext fun role => ?_⟩
    rw [mem_roles_iff hfound, hroles]

/-- Claims are accepted exactly if they describe the principal that is returned. -/
theorem principalFromClaims_ok_iff {p : TokenPrincipal} :
    principalFromClaims U settings claims = .ok p ↔ PrincipalClaims U settings claims p := by
  unfold principalFromClaims
  simp only [Raising.bind_ok_iff, requiredString_iff, optionalString_iff, uuidListClaim_iff, realmRoles_iff]
  constructor
  · rintro ⟨subject, hsubject, issuer, hissuer, organizationId, horganization, assetIds, hassets, roles, hroles,
      clientId, hclient, hp⟩
    cases hp
    refine ⟨hsubject, hissuer, ?_, hassets, hroles, hclient⟩
    unfold uuidClaim at horganization
    split at horganization
    next value hvalue =>
      obtain ⟨text, rfl, hread⟩ := uuidItem_iff.mp horganization
      exact ⟨text, hvalue, hread⟩
    · cases horganization
  · rintro ⟨hsubject, hissuer, ⟨text, htext, hread⟩, hassets, hroles, hclient⟩
    refine ⟨_, hsubject, _, hissuer, p.organizationId, ?_, _, hassets, _, hroles, _, hclient, rfl⟩
    rw [uuidClaim, htext]
    exact uuidItem_iff.mpr ⟨text, rfl, hread⟩

end

/-! ### Claims that are refused -/

/-- Nothing but `AuthenticationError()` is raised. -/
def RaisesInvalid {α : Type} (x : Except AuthError α) : Prop := ∀ e, x = .error e → e = invalidToken

section

variable {α β : Type} {U : UnicodeData} {settings : AuthSettings} {claims : JsonObject} {claimName : PyStr}

theorem raisesInvalid_ok (a : α) : RaisesInvalid (.ok a) := fun _ h => by cases h

theorem raisesInvalid_error : RaisesInvalid (.error invalidToken : Except AuthError α) := fun _ h => by
  cases h
  rfl

theorem RaisesInvalid.bind {x : Except AuthError α} {f : α → Except AuthError β} (hx : RaisesInvalid x)
    (hf : ∀ a, RaisesInvalid (f a)) : RaisesInvalid (x >>= f) := by
  intro e h
  rcases Raising.bind_error h with h | ⟨a, -, h⟩
  · exact hx e h
  · exact hf a e h

theorem RaisesInvalid.map {x : Except AuthError α} (hx : RaisesInvalid x) (f : α → β) : RaisesInvalid (x.map f) := by
  cases x with
  | ok a => exact raisesInvalid_ok _
  | error e =>
    rw [hx e rfl]
    exact raisesInvalid_error

theorem raisesInvalid_mapM {f : α → Except AuthError β} (hf : ∀ a, RaisesInvalid (f a)) (l : List α) :
    RaisesInvalid (l.mapM f) := by
  induction l with
  | nil => exact raisesInvalid_ok _
  | cons a l ih =>
    rw [List.mapM_cons]
    exact (hf a).bind fun _ => ih.bind fun _ => raisesInvalid_ok _

theorem raisesInvalid_requiredString : RaisesInvalid (requiredString claims claimName) := by
  unfold requiredString
  split
  · split_ifs
    · exact raisesInvalid_error
    · exact raisesInvalid_ok _
  · exact raisesInvalid_error

theorem raisesInvalid_optionalString : RaisesInvalid (optionalString claims claimName) := by
  unfold optionalString
  split
  · exact raisesInvalid_ok _
  · exact raisesInvalid_ok _
  · split_ifs
    · exact raisesInvalid_error
    · exact raisesInvalid_ok _
  · exact raisesInvalid_error

theorem raisesInvalid_uuidItem (item : Json) : RaisesInvalid (uuidItem U item) := by
  unfold uuidItem
  split
  · split
    · exact raisesInvalid_ok _
    · exact raisesInvalid_error
  · exact raisesInvalid_error

theorem raisesInvalid_uuidClaim : RaisesInvalid (uuidClaim U claims claimName) := by
  unfold uuidClaim
  split
  · exact raisesInvalid_uuidItem _
  · exact raisesInvalid_error

theorem raisesInvalid_uuidListClaim : RaisesInvalid (uuidListClaim U claims claimName) := by
  unfold uuidListClaim
  split
  · exact raisesInvalid_ok _
  · exact raisesInvalid_ok _
  · exact (raisesInvalid_mapM raisesInvalid_uuidItem _).map _
  · exact raisesInvalid_error

theorem raisesInvalid_roleItem (item : Json) : RaisesInvalid (roleItem item) := by
  unfold roleItem
  split
  · exact raisesInvalid_ok _
  · exact raisesInvalid_error

theorem raisesInvalid_realmRoles : RaisesInvalid (realmRoles claims) := by
  unfold realmRoles
  split
  · split
    · exact (raisesInvalid_mapM raisesInvalid_roleItem _).map _
    · exact raisesInvalid_error
  · exact raisesInvalid_error

theorem raisesInvalid_principalFromClaims : RaisesInvalid (principalFromClaims U settings claims) := by
  unfold principalFromClaims
  exact raisesInvalid_requiredString.bind fun _ => raisesInvalid_requiredString.bind fun _ =>
    raisesInvalid_uuidClaim.bind fun _ => raisesInvalid_uuidListClaim.bind fun _ => raisesInvalid_realmRoles.bind
      fun _ => raisesInvalid_optionalString.bind fun _ => raisesInvalid_ok _

/-- **The claims decide the principal.** `principal_from_claims` returns a principal exactly if the claims describe it,
whatever JSON value each of them holds; where they describe none it raises `AuthenticationError()`, and nothing else. -/
theorem principal_from_claims_decides (U : UnicodeData) (settings : AuthSettings) (claims : JsonObject) :
    (∀ p, principalFromClaims U settings claims = .ok p ↔ PrincipalClaims U settings claims p) ∧
      (principalFromClaims U settings claims = .error invalidToken ↔ ∀ p, ¬PrincipalClaims U settings claims p) := by
  refine ⟨fun p => principalFromClaims_ok_iff, fun h p hp => ?_, fun h => ?_⟩
  · rw [principalFromClaims_ok_iff.mpr hp] at h
    cases h
  · cases hclaims : principalFromClaims U settings claims with
    | ok p => exact absurd (principalFromClaims_ok_iff.mp hclaims) (h p)
    | error e => rw [raisesInvalid_principalFromClaims e hclaims]

end

/-! ### Verification -/

/-- The arguments of `jwt.decode` beside the token and its key. -/
structure DecodeOptions where
  algorithms : List PyStr
  audience : PyStr
  issuer : PyStr
  require : List PyStr
  leeway : Nat
deriving DecidableEq

def AuthSettings.decodeOptions (settings : AuthSettings) : DecodeOptions where
  algorithms := settings.allowedAlgorithms
  audience := settings.audience
  issuer := settings.issuer
  require := [py "exp", py "iat", py "sub", py "iss", py "aud"]
  leeway := settings.clockSkewSeconds

/-- PyJWT: `get_unverified_header`, `PyJWK.from_dict(…).key` and `decode` at a time, where `none` is an exception. -/
structure PyJwt (Key : Type) where
  getUnverifiedHeader : PyStr → Option JsonObject
  loadKey : JsonObject → Option Key
  decode : PyStr → Key → DecodeOptions → ℚ → Option Json

/-- A call of `verify`: what its call of `get_signing_key` finds, and when the token is decoded. -/
structure VerifyCall where
  token : PyStr
  checkedAt : ℚ
  first : Refresh
  second : Refresh
  decodedAt : ℚ

/-- The call of `get_signing_key` for a key. -/
def VerifyCall.keyCall (call : VerifyCall) (keyId : PyStr) : SigningKeyCall :=
  ⟨keyId, call.checkedAt, call.first, call.second⟩

section

variable {Key : Type} (U : UnicodeData) (jwt : PyJwt Key) (settings : AuthSettings)

/-- The key identifier of a token whose header names an allowed algorithm. -/
def keyIdOf (token : PyStr) : Option PyStr :=
  match jwt.getUnverifiedHeader token with
  | some header =>
    match header.lookup (py "alg"), header.lookup (py "kid") with
    | some (.str algorithm), some (.str keyId) =>
      if algorithm ∈ settings.allowedAlgorithms ∧ keyId ≠ [] then some keyId else none
    | _, _ => none
  | none => none

/-- What is made of the key for a token; an exception that `get_signing_key` does not expect counts as the token's. -/
def decodeWith (call : VerifyCall) : Except SigningKeyError Key → Except AuthError TokenPrincipal
  | .error (.authenticationService message) => .error (.authenticationService message)
  | .error .authentication | .error .other => .error invalidToken
  | .ok key =>
    match jwt.decode call.token key settings.decodeOptions call.decodedAt with
    | some (.obj claims) => principalFromClaims U settings claims
    | _ => .error invalidToken

/-- `JwtTokenVerifier.verify`: its result, the resolver behind it, and the downloads it made. -/
def verify (r : RemoteJwksResolver) (call : VerifyCall) :
    Except AuthError TokenPrincipal × RemoteJwksResolver × List Refresh :=
  match keyIdOf jwt settings call.token with
  | none => (.error invalidToken, r, [])
  | some keyId =>
    let reply := r.getSigningKey jwt.loadKey (call.keyCall keyId)
    (decodeWith U jwt settings call reply.outcome, reply.resolver, reply.refreshes)

/-- The resolver and the downloads behind a sequence of verifications. -/
def verifyRun : RemoteJwksResolver → List VerifyCall → RemoteJwksResolver × List Refresh
  | r, [] => (r, [])
  | r, call :: calls =>
    let (_, after, made) := verify U jwt settings r call
    let (last, rest) := verifyRun after calls
    (last, made ++ rest)

/-! ### `get_current_principal` -/

/-- An answer with its `WWW-Authenticate` header. -/
structure AuthenticationAnswer extends ErrorAnswer where
  wwwAuthenticate : Option PyStr
deriving DecidableEq

def authenticationRequired : AuthenticationAnswer where
  statusCode := 401
  code := py "authentication_required"
  message := py "A signed access token is required."
  wwwAuthenticate := some (py "Bearer")

/-- The answer to an error of `verify`. -/
def AuthError.answer : AuthError → AuthenticationAnswer
  | .authentication code =>
    ⟨⟨401, code, py "The access token is invalid or expired."⟩, some (py "Bearer error=\"invalid_token\"")⟩
  | .authenticationService _ =>
    ⟨⟨503, py "authentication_unavailable", py "Authentication verification is temporarily unavailable."⟩, none⟩

/-- `get_current_principal`, where the call's token is the credentials; without credentials there is no call. -/
def getCurrentPrincipal (r : RemoteJwksResolver) : Option VerifyCall → Except AuthenticationAnswer TokenPrincipal
  | none => .error authenticationRequired
  | some call =>
    if call.token = [] then .error authenticationRequired else (verify U jwt settings r call).1.mapError AuthError.answer

end

section

variable {Key : Type} {U : UnicodeData} {jwt : PyJwt Key} {settings : AuthSettings} {r : RemoteJwksResolver}

theorem keyIdOf_some {token keyId : PyStr} (h : keyIdOf jwt settings token = some keyId) :
    ∃ header algorithm, jwt.getUnverifiedHeader token = some header ∧
      header.lookup (py "alg") = some (.str algorithm) ∧ algorithm ∈ settings.allowedAlgorithms ∧
      header.lookup (py "kid") = some (.str keyId) := by
  unfold keyIdOf at h
  split at h
  next header hheader =>
    split at h
    next algorithm found halgorithm hfound =>
      split_ifs at h with hallowed
      cases h
      exact ⟨header, algorithm, hheader, halgorithm, hallowed.1, hfound⟩
    · cases h
  · cases h

/-- A verification leaves the resolver with the newest document of its downloads. -/
theorem verify_resolver (httl : 0 < r.cacheTtlSeconds) (call : VerifyCall) :
    (verify U jwt settings r call).2.1 = r.holding (newestDocument (verify U jwt settings r call).2.2) := by
  unfold verify
  split
  · rfl
  next keyId _ => exact (getSigningKey_sound httl (call.keyCall keyId)).resolver

theorem verifyRun_resolver (httl : 0 < r.cacheTtlSeconds) (calls : List VerifyCall) :
    (verifyRun U jwt settings r calls).1 = r.holding (newestDocument (verifyRun U jwt settings r calls).2) := by
  induction calls generalizing r with
  | nil => rfl
  | cons call calls ih =>
    have hstep : (verify U jwt settings r call).2.1 =
        r.holding (newestDocument (verify U jwt settings r call).2.2) := verify_resolver httl call
    have hkept : 0 < (verify U jwt settings r call).2.1.cacheTtlSeconds := by
      rw [hstep, holding_ttl]
      exact httl
    rw [verifyRun]
    dsimp only
    rw [ih hkept, hstep, ← holding_append]

end

/-- The resolver and the downloads of a verification that follows others. -/
structure VerifyHistory where
  before : RemoteJwksResolver
  made : List Refresh
  own : List Refresh

section

variable {Key : Type} (U : UnicodeData) (jwt : PyJwt Key) (settings : AuthSettings) (ttl : Int)

def verifyHistory (calls : List VerifyCall) (call : VerifyCall) : VerifyHistory :=
  let (before, made) := verifyRun U jwt settings { cacheTtlSeconds := ttl } calls
  ⟨before, made, (verify U jwt settings before call).2.2⟩

/-- How a principal comes out of a verification: the header of the token names an algorithm that is allowed, and
asymmetric, and a key of the newest key document, which has not expired when the key is looked up; the token is
accepted under this key and the settings, and its claims describe the principal. -/
def VerifiedToken (calls : List VerifyCall) (call : VerifyCall) (p : TokenPrincipal) : Prop :=
  ∃ header algorithm keyId keys storedAt jwk key claims,
    jwt.getUnverifiedHeader call.token = some header ∧ header.lookup (py "alg") = some (.str algorithm) ∧
    algorithm ∈ settings.allowedAlgorithms ∧ algorithm ∈ asymmetricAlgorithms ∧
    header.lookup (py "kid") = some (.str keyId) ∧
    newestDocument ((verifyHistory U jwt settings ttl calls call).made ++
      (verifyHistory U jwt settings ttl calls call).own) = some (keys, storedAt) ∧
    keys.lookup keyId = some jwk ∧ jwt.loadKey jwk = some key ∧
    (call.keyCall keyId).lookedUpAt (verifyHistory U jwt settings ttl calls call).own < storedAt + ttl ∧
    jwt.decode call.token key settings.decodeOptions call.decodedAt = some (.obj claims) ∧
    PrincipalClaims U settings claims p

/-- The signing keys for a token cannot be had. -/
def KeysUnavailable (calls : List VerifyCall) (call : VerifyCall) : Prop :=
  ∃ keyId message, keyIdOf jwt settings call.token = some keyId ∧
    ((verifyHistory U jwt settings ttl calls call).before.getSigningKey jwt.loadKey (call.keyCall keyId)).outcome =
      .error (.authenticationService message)

variable {U jwt settings ttl}

theorem verify_ok (httl : 0 < ttl) {calls : List VerifyCall} {call : VerifyCall} {p : TokenPrincipal}
    (h : (verify U jwt settings (verifyHistory U jwt settings ttl calls call).before call).1 = .ok p) :
    VerifiedToken U jwt settings ttl calls call p := by
  have hbefore : (verifyHistory U jwt settings ttl calls call).before = RemoteJwksResolver.holding
      { cacheTtlSeconds := ttl } (newestDocument (verifyHistory U jwt settings ttl calls call).made) :=
    verifyRun_resolver httl calls
  have hpos : 0 < (verifyHistory U jwt settings ttl calls call).before.cacheTtlSeconds := by
    rw [hbefore, holding_ttl]
    exact httl
  have hown : (verifyHistory U jwt settings ttl calls call).own =
      (verify U jwt settings (verifyHistory U jwt settings ttl calls call).before call).2.2 := rfl
  unfold verify at h hown
  cases hkey : keyIdOf jwt settings call.token with
  | none =>
    rw [hkey] at h
    cases h
  | some keyId =>
    rw [hkey] at h hown
    dsimp only at h hown
    have hsound : ((verifyHistory U jwt settings ttl calls call).before.getSigningKey jwt.loadKey
        (call.keyCall keyId)).Sound jwt.loadKey (verifyHistory U jwt settings ttl calls call).before
          (call.keyCall keyId).keyId (call.keyCall keyId).checkedAt := getSigningKey_sound hpos _
    generalize hreply : (verifyHistory U jwt settings ttl calls call).before.getSigningKey jwt.loadKey
      (call.keyCall keyId) = reply at h hown hsound
    obtain ⟨header, algorithm, hheader, halgorithm, hallowed, hkid⟩ := keyIdOf_some hkey
    have hresolver : reply.resolver = RemoteJwksResolver.holding { cacheTtlSeconds := ttl }
        (newestDocument ((verifyHistory U jwt settings ttl calls call).made ++
          (verifyHistory U jwt settings ttl calls call).own)) := by
      rw [hsound.resolver, hown, hbefore, holding_append]
    unfold decodeWith at h
    split at h
    · cases h
    · cases h
    · cases h
    next key houtcome =>
      split at h
      next claims hclaims =>
        obtain ⟨jwk, hjwk, hload, hvalid⟩ := hsound.served key houtcome
        rw [hresolver] at hjwk hvalid
        cases hdocument : newestDocument ((verifyHistory U jwt settings ttl calls call).made ++
            (verifyHistory U jwt settings ttl calls call).own) with
        | none =>
          rw [hdocument] at hjwk
          cases hjwk
        | some document =>
          rw [hdocument] at hjwk hvalid
          rw [← hown] at hvalid
          exact ⟨header, algorithm, keyId, document.1, document.2, jwk, key, claims, hheader, halgorithm, hallowed,
            settings.algorithms.2 algorithm hallowed, hkid, hdocument, hjwk, hload, hvalid, hclaims,
            principalFromClaims_ok_iff.mp h⟩
      · cases h

/-- The errors of a verification. -/
theorem verify_error {calls : List VerifyCall} {call : VerifyCall} {e : AuthError}
    (h : (verify U jwt settings (verifyHistory U jwt settings ttl calls call).before call).1 = .error e) :
    (∃ message, e = .authenticationService message) ∧ KeysUnavailable U jwt settings ttl calls call ∨
      e = invalidToken ∧ ¬KeysUnavailable U jwt settings ttl calls call := by
  unfold KeysUnavailable
  unfold verify at h
  cases hkey : keyIdOf jwt settings call.token with
  | none =>
    rw [hkey] at h
    cases h
    refine .inr ⟨rfl, ?_⟩
    rintro ⟨keyId, message, hsome, -⟩
    cases hsome
  | some keyId =>
    rw [hkey] at h
    dsimp only at h
    generalize hreply : ((verifyHistory U jwt settings ttl calls call).before.getSigningKey jwt.loadKey
      (call.keyCall keyId)).outcome = outcome at h
    have hiff : (∃ keyId' message, some keyId = some keyId' ∧ ((verifyHistory U jwt settings ttl calls
        call).before.getSigningKey jwt.loadKey (call.keyCall keyId')).outcome = .error (.authenticationService message)) ↔
        ∃ message, outcome = .error (.authenticationService message) := by
      constructor
      · rintro ⟨keyId', message, hsome, houtcome⟩
        cases hsome
        exact ⟨message, hreply ▸ houtcome⟩
      · rintro ⟨message, rfl⟩
        exact ⟨keyId, message, rfl, hreply⟩
    rw [hiff]
    unfold decodeWith at h
    split at h
    next message =>
      cases h
      exact .inl ⟨⟨message, rfl⟩, message, rfl⟩
    · cases h
      exact .inr ⟨rfl, fun hservice => by obtain ⟨_, hservice⟩ := hservice; cases hservice⟩
    · cases h
      exact .inr ⟨rfl, fun hservice => by obtain ⟨_, hservice⟩ := hservice; cases hservice⟩
    next key =>
      refine .inr ⟨?_, fun hservice => by obtain ⟨_, hservice⟩ := hservice; cases hservice⟩
      split at h
      · exact raisesInvalid_principalFromClaims e h
      · cases h
        rfl

/-- **Bearer tokens over a run.** Behind any sequence of verifications: a principal is the one that the claims of a
verified token describe; without credentials the answer is 401 `authentication_required`; and with credentials that
are refused it is 503 exactly if the signing keys cannot be had, and 401 `invalid_token` otherwise. -/
theorem current_principal_answers (httl : 0 < ttl) (calls : List VerifyCall) (call : VerifyCall) :
    let r := (verifyHistory U jwt settings ttl calls call).before
    getCurrentPrincipal U jwt settings r none = .error authenticationRequired ∧
      match getCurrentPrincipal U jwt settings r (some call) with
      | .ok p => call.token ≠ [] ∧ VerifiedToken U jwt settings ttl calls call p
      | .error answer => (call.token = [] ∧ answer = authenticationRequired) ∨
          (call.token ≠ [] ∧ KeysUnavailable U jwt settings ttl calls call ∧
            answer = AuthError.answer (.authenticationService [])) ∨
          (call.token ≠ [] ∧ ¬KeysUnavailable U jwt settings ttl calls call ∧ answer = AuthError.answer invalidToken) := by
  intro r
  refine ⟨rfl, ?_⟩
  unfold getCurrentPrincipal
  dsimp only
  by_cases htoken : call.token = []
  · rw [if_pos htoken]
    exact .inl ⟨htoken, rfl⟩
  · rw [if_neg htoken]
    cases h : (verify U jwt settings r call).1 with
    | ok p => exact ⟨htoken, verify_ok httl h⟩
    | error e =>
      rcases verify_error h with ⟨⟨message, rfl⟩, hkeys⟩ | ⟨rfl, hkeys⟩
      · exact .inr (.inl ⟨htoken, hkeys, rfl⟩)
      · exact .inr (.inr ⟨htoken, hkeys, rfl⟩)

end

/-- Claims as the realm issues them, with a role that is no product role. -/
def sampleClaims : JsonObject :=
  [(py "sub", .str (py "keycloak-subject-1")), (py "iss", .str (py "http://localhost:8080/realms/netops-dev")),
    (py "azp", .str (py "netops-web")), (py "organization_id", .str (Uuid.str 7)),
    (py "asset_ids", jsonTexts [Uuid.str 9]),
    (py "realm_access", .obj [(py "roles", jsonTexts [py "operator", py "offline_access"])])]

/-- One token that is accepted, with the key of `sampleJwks`. -/
def sampleJwt : PyJwt Json where
  getUnverifiedHeader token :=
    if token = py "header.payload.signature" then some [(py "alg", .str (py "RS256")), (py "kid", .str (py "a"))] else none
  loadKey jwk := jwk.lookup (py "kty")
  decode _ key options _ :=
    match key with
    | .str name => if name = py "RSA" ∧ options.audience = py "netops-api" then some (.obj sampleClaims) else none
    | _ => none

def samplePrincipal : TokenPrincipal where
  subject := py "keycloak-subject-1"
  organizationId := 7
  roles := {.operator}
  assetIds := {9}
  issuer := py "http://localhost:8080/realms/netops-dev"
  clientId := some (py "netops-web")

/-- A verification that downloads the keys, and one that finds them expired and the endpoint unavailable. -/
def sampleVerifications : VerifyCall × VerifyCall :=
  (⟨py "header.payload.signature", 10, ⟨.document sampleJwks, 11⟩, ⟨.unavailable, 12⟩, 12⟩,
    ⟨py "header.payload.signature", 400, ⟨.unavailable, 401⟩, ⟨.unavailable, 402⟩, 402⟩)

theorem sampleClaims_principal : PrincipalClaims .ascii {} sampleClaims samplePrincipal where
  subject := ⟨rfl, by decide⟩
  issuer := ⟨rfl, by decide⟩
  organizationId := ⟨Uuid.str 7, rfl, uuidOfText_str 7⟩
  assetIds := by
    refine .inr ⟨[Uuid.str 9], rfl, ?_, fun id => ?_⟩
    · intro text htext
      rw [List.mem_singleton.mp htext, uuidOfText_str]
      rfl
    · simp [uuidOfText_str, samplePrincipal, eq_comm]
  roles := ⟨_, [py "operator", py "offline_access"], rfl, rfl, fun role => by cases role <;> decide⟩
  clientId := .inr ⟨py "netops-web", rfl, by decide, rfl⟩

/-- The first call is accepted; behind it, the second one is answered 503. -/
theorem current_principal_answers_sample :
    VerifiedToken .ascii sampleJwt {} 300 [] sampleVerifications.1 samplePrincipal ∧
      KeysUnavailable .ascii sampleJwt {} 300 [sampleVerifications.1] sampleVerifications.2 := by
  obtain ⟨-, hfirst⟩ := @current_principal_answers _ .ascii sampleJwt {} 300 (by decide) [] sampleVerifications.1
  have hprincipal : principalFromClaims .ascii {} sampleClaims = .ok samplePrincipal :=
    principalFromClaims_ok_iff.mpr sampleClaims_principal
  have hverified : getCurrentPrincipal .ascii sampleJwt {} (verifyHistory .ascii sampleJwt {} 300 []
      sampleVerifications.1).before (some sampleVerifications.1) = .ok samplePrincipal := by
    rw [← show (principalFromClaims .ascii {} sampleClaims).mapError AuthError.answer = .ok samplePrincipal by
      rw [hprincipal]; rfl]
    rfl
  rw [hverified] at hfirst
  have hexpired : (verifyHistory .ascii sampleJwt {} 300 [sampleVerifications.1] sampleVerifications.2).before.expiresAt ≤
      (sampleVerifications.2.keyCall (py "a")).checkedAt := by
    decide +kernel
  refine ⟨hfirst.2, py "a", py "The signing-key endpoint is unavailable.", rfl, ?_⟩
  unfold RemoteJwksResolver.getSigningKey
  rw [if_pos hexpired]
  rfl

end NetopsCopilot
