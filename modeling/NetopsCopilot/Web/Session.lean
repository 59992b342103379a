import Mathlib.Logic.Relation
import NetopsCopilot.Api.CaseListCursor
import NetopsCopilot.JavaScript.Json
import NetopsCopilot.Lib.Except

/-!
# Sessions in sealed cookies (`lib/auth/session.ts`)

Sessions and login transactions are sealed with one key, in one format without a tag. AES-GCM is a parameter that
knows what the key has encrypted so far: it decrypts that, and nothing else (`AesGcm.Authentic`). The key itself,
the names of the cookies and their options are left out, as are the authorization URL and the public part of a
session.
-/

namespace NetopsCopilot

/-! ### AES-GCM -/

/-- `subtle.encrypt` and `subtle.decrypt` under one key, the second after the encryptions `history` of plaintexts
under their IVs; `none` is an `OperationError`. -/
structure AesGcm where
  encrypt : (iv plaintext : List Utf8.Byte) → List Utf8.Byte
  decrypt : (history : List (List Utf8.Byte × List Utf8.Byte)) → (iv ciphertext : List Utf8.Byte) →
    Option (List Utf8.Byte)

/-- What was encrypted is decrypted, anything else fails; a ciphertext ends in a tag of sixteen bytes. -/
structure AesGcm.Authentic (gcm : AesGcm) : Prop where
  inverts : ∀ history iv plaintext, (iv, plaintext) ∈ history →
    gcm.decrypt history iv (gcm.encrypt iv plaintext) = some plaintext
  rejects : ∀ history iv ciphertext,
    (∀ plaintext, (iv, plaintext) ∈ history → gcm.encrypt iv plaintext ≠ ciphertext) →
    gcm.decrypt history iv ciphertext = none
  length : ∀ iv plaintext, (gcm.encrypt iv plaintext).length = plaintext.length + 16

/-! ### Values -/

/-- A time value in milliseconds, `Date.now()`. -/
structure TimeValue where
  ms : Int
  range : -8640000000000000 ≤ ms ∧ ms ≤ 8640000000000000

structure AuthenticatedSession where
  subject : JsStr
  displayName : JsStr
  organizationName : JsStr
  roles : List JsStr
deriving DecidableEq

structure StoredSession extends AuthenticatedSession where
  accessToken : JsStr
  expiresAt : SafeInteger
deriving DecidableEq

structure OidcTransaction where
  state : JsStr
  codeVerifier : JsStr
  expiresAt : SafeInteger
deriving DecidableEq

/-- What the module seals. -/
inductive SealedValue where
  | transaction (t : OidcTransaction)
  | session (s : StoredSession)
deriving DecidableEq

def OidcTransaction.json (t : OidcTransaction) : JsValue :=
  .obj [(js "state", .str t.state), (js "codeVerifier", .str t.codeVerifier), (js "expiresAt", .num (.int t.expiresAt))]

def StoredSession.json (s : StoredSession) : JsValue :=
  .obj [(js "subject", .str s.subject), (js "displayName", .str s.displayName),
    (js "organizationName", .str s.organizationName), (js "roles", .arr (s.roles.map .str)),
    (js "accessToken", .str s.accessToken), (js "expiresAt", .num (.int s.expiresAt))]

def SealedValue.json : SealedValue → JsValue
  | .transaction t => t.json
  | .session s => s.json

/-- `new TextEncoder().encode(JSON.stringify(value))`. -/
def SealedValue.plaintext (v : SealedValue) : List Utf8.Byte := encodeText v.json.stringify

/-- `getRandomValues(new Uint8Array(12))`. -/
structure Iv where
  bytes : List Utf8.Byte
  length : bytes.length = 12
deriving DecidableEq

/-- What has been sealed so far, the latest first. -/
abbrev Seals := List (Iv × SealedValue)

def Seals.history (seals : Seals) : List (List Utf8.Byte × List Utf8.Byte) :=
  seals.map fun e => (e.1.bytes, e.2.plaintext)

/-! ### `base64UrlEncode`, `base64UrlDecode` -/

/-- What the module throws. -/
inductive SessionError where
  | invalidBase64Url
  | operationError
  | syntaxError
  | typeError
  | unavailable
deriving DecidableEq

def base64UrlUnit (d : Base64.Sextet) : JsChar := Fin.ofNat _ (base64Char d).val

def base64UrlEncode (value : List Utf8.Byte) : JsStr := (Base64.encode value).map base64UrlUnit

/-- The place of a character in the alphabet, which has 64 of them. -/
def base64UrlPosition (u : JsChar) : Nat := base64Alphabet.idxOf (Fin.ofNat _ u.val)

/-- `/^[A-Za-z0-9_-]+$/` in front of `Buffer.from(value, "base64url")`. -/
def base64UrlDecode (value : JsStr) : Except SessionError (List Utf8.Byte) :=
  if !value.isEmpty && value.all (fun u => base64UrlPosition u < 64) then
    .ok (Base64.decodeDigits (value.map fun u => Base64.sextet (base64UrlPosition u)))
  else .error .invalidBase64Url

/-! ### `seal`, `unseal` -/

def sealValue (gcm : AesGcm) (iv : Iv) (value : SealedValue) : JsStr :=
  base64UrlEncode iv.bytes ++ 46 :: base64UrlEncode (gcm.encrypt iv.bytes value.plaintext)

/-- `new TextDecoder().decode(bytes)`. -/
def decodeText (bytes : List Utf8.Byte) : JsStr :=
  let (text, decoder) := TextDecoder.decode {} bytes
  text ++ decoder.finish

/-- AES-GCM, and what the module takes from the language on values that it never seals: numbers that are no safe
integers, and the comparison `value <= now`. -/
structure SessionLibrary where
  gcm : AesGcm
  otherNumber : PyStr → JsNum
  atMost : JsValue → Int → Bool

section

variable (lib : SessionLibrary) (seals : Seals)

/-- `JSON.parse(new TextDecoder().decode(plaintext))` of what is decrypted. -/
def openBytes (iv ciphertext : List Utf8.Byte) : Except SessionError JsValue :=
  match lib.gcm.decrypt seals.history iv ciphertext with
  | none => throw .operationError
  | some plaintext =>
    match parseJson lib.otherNumber (decodeText plaintext) with
    | none => throw .syntaxError
    | some value => pure value

/-- The block that `unseal` tries. -/
def openCookie (encodedIv encodedCiphertext : JsStr) : Except SessionError JsValue := do
  let iv ← base64UrlDecode encodedIv
  let ciphertext ← base64UrlDecode encodedCiphertext
  openBytes lib seals iv ciphertext

def unsealValue (value : JsStr) : Except SessionError JsValue :=
  match value.splitOn 46 with
  | [encodedIv, encodedCiphertext] => tryCatch (openCookie lib seals encodedIv encodedCiphertext) fun _ => pure .null
  | _ => pure .null

/-! ### `getStoredSession` -/

def JsValue.isNull : JsValue → Bool
  | .null => true
  | _ => false

/-- `typeof value === "string"`. -/
def isString : Option JsValue → Bool
  | some (.str _) => true
  | _ => false

/-- `typeof value === "string" && value.length > 0`. -/
def isNonEmptyString : Option JsValue → Bool
  | some (.str t) => !t.isEmpty
  | _ => false

/-- `value <= Date.now()`. -/
def isAtMost (value : Option JsValue) (now : TimeValue) : Bool :=
  match value with
  | some (.num (.int n)) => n.val ≤ now.ms
  | some value => lib.atMost value now.ms
  -- `undefined` is no number
  | none => false

/-- `isPublicSession`. -/
def isPublicSession (value : JsValue) : Bool :=
  isNonEmptyString (value.property (js "subject")) && isString (value.property (js "displayName")) &&
    isString (value.property (js "organizationName")) &&
    match value.property (js "roles") with
    | some (.arr roles) => roles.all fun role => isString (some role)
    | _ => false

/-- Why `getStoredSession` returns `null` for a value that has been unsealed. -/
def refusesSession (now : TimeValue) (session : JsValue) : Bool :=
  session.isNull || isAtMost lib (session.property (js "expiresAt")) now ||
    !isNonEmptyString (session.property (js "accessToken")) || !isPublicSession session

def getStoredSession (now : TimeValue) : Option JsStr → Except SessionError JsValue
  | none => pure .null
  | some value => do
    let session ← unsealValue lib seals value
    if refusesSession lib now session then pure .null else pure session

/-! ### `beginOidcLogin`, `completeOidcCallback` -/

/-- `Date.now() + seconds * 1000`. -/
def expiry (now : TimeValue) (seconds : Nat) (hseconds : seconds ≤ 43200) : SafeInteger where
  val := now.ms + seconds * 1000
  safe := by
    have hrange := now.range
    omega

/-- The transaction that `beginOidcLogin` seals: 32 and 64 random bytes, and ten minutes. -/
def loginTransaction (state codeVerifier : List Utf8.Byte) (now : TimeValue) : OidcTransaction where
  state := base64UrlEncode state
  codeVerifier := base64UrlEncode codeVerifier
  expiresAt := expiry now 600 (by decide)

/-- What the other parties answer: the discovery; the token endpoint to a code and its verifier, `none` if the
response is not `ok`; `/v1/auth/me` to an access token, `none` if there is no JSON. -/
structure OidcReplies where
  configuration : Except SessionError Unit
  token : JsStr → JsValue → Except SessionError (Option JsValue)
  identity : JsStr → Option JsValue

/-- `roles.every((role) => typeof role === "string")`, with the roles. -/
def stringItems : List JsValue → Option (List JsStr)
  | [] => some []
  | .str t :: items => (stringItems items).map (t :: ·)
  | _ :: _ => none

/-- `fetchVerifiedIdentity`. -/
def fetchVerifiedIdentity (replies : OidcReplies) (accessToken : JsStr) :
    Except SessionError (Option AuthenticatedSession) :=
  match replies.identity accessToken with
  | none => pure none
  | some .null => throw .typeError
  | some identity =>
    match identity.property (js "subject"), identity.property (js "organization_id"),
      identity.property (js "roles") with
    | some (.str subject), some (.str organizationId), some (.arr roles) =>
      if subject.isEmpty || organizationId.isEmpty then pure none
      else match stringItems roles with
        | none => pure none
        | some roles =>
          pure (some { subject := subject, displayName := subject, organizationName := organizationId, roles := roles })
    | _, _, _ => pure none

def isText (text : JsStr) : Option JsValue → Bool
  | some (.str t) => t == text
  | _ => false

/-- `value.length === 0`. -/
def lengthIsZero : Option JsValue → Except SessionError Bool
  | none | some .null => throw .typeError
  | some (.str t) => pure t.isEmpty
  | some (.arr items) => pure items.isEmpty
  | some (.obj members) =>
    match members.lookup (js "length") with
    | some (.num (.int n)) => pure (decide (n.val = 0))
    | _ => pure false
  | some _ => pure false

/-- `value.toLowerCase()`, as far as a comparison with `bearer` tells: no other letter becomes one of these. -/
def lowerAscii (t : JsStr) : JsStr := t.map fun u => if 65 ≤ u.val ∧ u.val ≤ 90 then u + 32 else u

/-- `saneExpiresIn`. -/
def saneExpiresIn : Option JsValue → Nat
  | some (.num (.int n)) => if n.val ≤ 0 then 60 else n.val.toNat
  | _ => 60

/-- The session that a token and the identity behind it give, with the cookie's `maxAge`. -/
def sessionOf (identity : AuthenticatedSession) (accessToken : JsStr) (expiresIn : Nat) (now : TimeValue) :
    StoredSession × Nat :=
  ({ identity with
      accessToken := accessToken
      expiresAt := expiry now (min expiresIn 43200) (min_le_right _ _) }, min expiresIn 43200)

/-- From the token response on. -/
def completeLogin (replies : OidcReplies) (later : TimeValue) (token : JsValue) :
    Except SessionError (Option (StoredSession × Nat)) :=
  match token, token.property (js "access_token"), token.property (js "token_type") with
  | .null, _, _ => throw .typeError
  | token, some (.str accessToken), some (.str tokenType) =>
    if accessToken.isEmpty || lowerAscii tokenType != js "bearer" then pure none
    else do
      match ← fetchVerifiedIdentity replies accessToken with
      | none => pure none
      | some identity =>
        pure (some (sessionOf identity accessToken (saneExpiresIn (token.property (js "expires_in"))) later))
  | _, _, _ => pure none

/-- Why `completeOidcCallback` returns `null` in front of the code verifier's check. -/
def refusesTransaction (now : TimeValue) (state : JsStr) (transaction : JsValue) : Bool :=
  transaction.isNull || isAtMost lib (transaction.property (js "expiresAt")) now ||
    !isText state (transaction.property (js "state"))

/-- `completeOidcCallback`: the session that it seals for the cookie, and `maxAge`. -/
def completeOidcCallback (replies : OidcReplies) (now later : TimeValue) (code state cookie : Option JsStr) :
    Except SessionError (Option (StoredSession × Nat)) :=
  match code, state, cookie with
  | some code, some state, some cookie => do
    let transaction ← unsealValue lib seals cookie
    if refusesTransaction lib now state transaction then
      return none
    if ← lengthIsZero (transaction.property (js "codeVerifier")) then
      return none
    replies.configuration
    match ← replies.token code ((transaction.property (js "codeVerifier")).getD .null) with
    | none => return none
    | some token => completeLogin replies later token
  | _, _, _ => pure none

end

/-! ### The bytes of a cookie -/

theorem base64UrlPosition_unit (d : Base64.Sextet) : base64UrlPosition (base64UrlUnit d) = d.val := by
  revert d
  decide

theorem base64UrlUnit_ne_dot (d : Base64.Sextet) : base64UrlUnit d ≠ 46 := by
  revert d
  decide

theorem base64UrlDecode_encode {bytes : List Utf8.Byte} (h : bytes ≠ []) :
    base64UrlDecode (base64UrlEncode bytes) = .ok bytes := by
  have hne : (base64UrlEncode bytes).isEmpty = false := by
    rw [List.isEmpty_eq_false_iff]
    exact fun hnil => Base64.encode_ne_nil h (List.map_eq_nil_iff.mp hnil)
  have hall : (base64UrlEncode bytes).all (fun u => base64UrlPosition u < 64) = true := by
    rw [base64UrlEncode, List.all_map, List.all_eq_true]
    intro d _
    rw [Function.comp_apply, base64UrlPosition_unit]
    exact decide_eq_true d.isLt
  have hdigits : (base64UrlEncode bytes).map (fun u => Base64.sextet (base64UrlPosition u)) = Base64.encode bytes := by
    rw [base64UrlEncode, List.map_map]
    calc (Base64.encode bytes).map _ = (Base64.encode bytes).map id := by
          refine List.map_congr_left fun d _ => ?_
          rw [Function.comp_apply, base64UrlPosition_unit]
          exact Fin.ofNat_val_eq_self d
      _ = Base64.encode bytes := List.map_id _
  unfold base64UrlDecode
  rw [hne, hall, if_pos (by rfl), hdigits, Base64.decodeDigits_encode]

theorem dot_not_mem (bytes : List Utf8.Byte) : (46 : JsChar) ∉ base64UrlEncode bytes := by
  intro h
  obtain ⟨d, -, hd⟩ := List.mem_map.mp h
  exact base64UrlUnit_ne_dot d hd

theorem SealedValue.exact (v : SealedValue) : v.json.Exact := by
  have hroles : ∀ roles : List JsStr, exactItems (roles.map .str) := by
    intro roles
    induction roles with
    | nil => trivial
    | cons role roles ih => exact ⟨trivial, ih⟩
  cases v with
  | transaction t =>
    have hkeys : [js "state", js "codeVerifier", js "expiresAt"].Nodup := by decide
    exact ⟨hkeys, trivial, trivial, trivial, trivial⟩
  | session s =>
    have hkeys : [js "subject", js "displayName", js "organizationName", js "roles", js "accessToken",
        js "expiresAt"].Nodup := by decide
    exact ⟨hkeys, trivial, trivial, trivial, hroles s.roles, trivial, trivial, trivial⟩

/-- None of the keys is an array index. -/
theorem SealedValue.ordered (v : SealedValue) : v.json.ordered = v.json := by
  have hroles : ∀ roles : List JsStr, orderedItems (roles.map .str) = roles.map .str := by
    intro roles
    rw [orderedItems_eq, List.map_map]
    rfl
  have hobject : ∀ members : List (JsStr × JsValue), (∀ m ∈ members, isArrayIndex m.1 = false) →
      orderedMembers members = members → (JsValue.obj members).ordered = .obj members := by
    intro members hkeys hmembers
    rw [JsValue.ordered, hmembers, ownProperties_eq_self hkeys]
  cases v with
  | transaction t =>
    have hkeys : ∀ key ∈ [js "state", js "codeVerifier", js "expiresAt"], isArrayIndex key = false := by decide
    exact hobject _ (fun m hm => hkeys m.1 (List.mem_map_of_mem (f := Prod.fst) hm)) rfl
  | session s =>
    have hkeys : ∀ key ∈ [js "subject", js "displayName", js "organizationName", js "roles", js "accessToken",
        js "expiresAt"], isArrayIndex key = false := by decide
    refine hobject _ (fun m hm => hkeys m.1 (List.mem_map_of_mem (f := Prod.fst) hm)) ?_
    simp only [orderedMembers, JsValue.ordered, hroles]

/-- The text is decoded as it was encoded; an object's text begins with no byte order mark. -/
theorem decodeText_plaintext (v : SealedValue) : decodeText v.plaintext = v.json.stringify := by
  have hplain := v.json.plain_text v.exact
  have hscalar : ∀ c ∈ v.json.text, Utf8.IsScalar c := fun c hc => (hplain c hc).1
  have hhead : v.json.text.head? = some 123 := by cases v <;> rfl
  have hmark : (!false && v.json.text.head? == some 0xFEFF) = false := by
    rw [hhead]
    rfl
  unfold SealedValue.plaintext encodeText JsValue.stringify
  rw [v.ordered]
  rw [scalarValues_jsText hscalar]
  unfold decodeText TextDecoder.decode
  rw [Utf8.decode_encode hscalar]
  dsimp only
  rw [hmark, if_neg Bool.false_ne_true]
  exact List.append_nil _

/-! ### What a cookie carries -/

section

variable {lib : SessionLibrary} {seals : Seals} {value : JsStr} {iv : Iv} {v : SealedValue}

variable (lib) in
/-- The two parts of a cookie decode to the IV and the ciphertext of a seal. -/
def CarriesSeal (value : JsStr) (iv : Iv) (v : SealedValue) : Prop :=
  ∃ encodedIv encodedCiphertext, value.splitOn 46 = [encodedIv, encodedCiphertext] ∧
    base64UrlDecode encodedIv = .ok iv.bytes ∧
    base64UrlDecode encodedCiphertext = .ok (lib.gcm.encrypt iv.bytes v.plaintext)

theorem carries_sealValue (hgcm : lib.gcm.Authentic) (iv : Iv) (v : SealedValue) :
    CarriesSeal lib (sealValue lib.gcm iv v) iv v := by
  have hiv : iv.bytes ≠ [] := by
    intro hnil
    have hlength := iv.length
    rw [hnil] at hlength
    cases hlength
  have hciphertext : lib.gcm.encrypt iv.bytes v.plaintext ≠ [] := by
    intro hnil
    have hlength := hgcm.length iv.bytes v.plaintext
    rw [hnil, List.length_nil] at hlength
    omega
  refine ⟨_, _, ?_, base64UrlDecode_encode hiv, base64UrlDecode_encode hciphertext⟩
  rw [sealValue, List.splitOn_append_cons_self, List.splitOn_eq_singleton (dot_not_mem _),
    List.splitOn_eq_singleton (dot_not_mem _)]
  rfl

theorem mem_history (h : (iv, v) ∈ seals) : (iv.bytes, v.plaintext) ∈ seals.history :=
  List.mem_map.mpr ⟨(iv, v), h, rfl⟩

/-- What was sealed is opened. -/
theorem openBytes_sealed (hgcm : lib.gcm.Authentic) (hseal : (iv, v) ∈ seals) :
    openBytes lib seals iv.bytes (lib.gcm.encrypt iv.bytes v.plaintext) = .ok v.json := by
  unfold openBytes
  rw [hgcm.inverts _ _ _ (mem_history hseal)]
  dsimp only
  rw [decodeText_plaintext, parseJson_stringify _ v.exact, v.ordered]
  rfl

/-- A cookie that carries a seal is opened. -/
theorem unsealValue_carries (hgcm : lib.gcm.Authentic) (hseal : (iv, v) ∈ seals)
    (hvalue : CarriesSeal lib value iv v) : unsealValue lib seals value = .ok v.json := by
  obtain ⟨encodedIv, encodedCiphertext, hsplit, hiv, hciphertext⟩ := hvalue
  have hopen : openCookie lib seals encodedIv encodedCiphertext = .ok v.json := by
    unfold openCookie
    rw [hiv, hciphertext]
    exact openBytes_sealed hgcm hseal
  unfold unsealValue
  rw [hsplit]
  dsimp only
  rw [hopen]
  rfl

theorem openCookie_forged (hgcm : lib.gcm.Authentic) {encodedIv encodedCiphertext : JsStr}
    (hsplit : value.splitOn 46 = [encodedIv, encodedCiphertext])
    (h : ∀ e ∈ seals, ¬CarriesSeal lib value e.1 e.2) :
    ∃ e, openCookie lib seals encodedIv encodedCiphertext = .error e := by
  unfold openCookie
  cases hiv : base64UrlDecode encodedIv with
  | error e => exact ⟨e, rfl⟩
  | ok ivBytes =>
    cases hciphertext : base64UrlDecode encodedCiphertext with
    | error e => exact ⟨e, rfl⟩
    | ok ciphertext =>
      have hreject : lib.gcm.decrypt seals.history ivBytes ciphertext = none := by
        refine hgcm.rejects _ _ _ fun plaintext hmem heq => ?_
        obtain ⟨e, he, hpair⟩ := List.mem_map.mp hmem
        obtain ⟨rfl, rfl⟩ := Prod.mk.inj hpair
        exact h e he ⟨_, _, hsplit, hiv, by rw [hciphertext, heq]⟩
      refine ⟨.operationError, ?_⟩
      show openBytes lib seals ivBytes ciphertext = _
      rw [openBytes, hreject]
      rfl

/-- **Any other cookie unseals to `null`**: what is thrown is caught. -/
theorem unsealValue_forged (hgcm : lib.gcm.Authentic) (h : ∀ e ∈ seals, ¬CarriesSeal lib value e.1 e.2) :
    unsealValue lib seals value = .ok .null := by
  unfold unsealValue
  split
  next encodedIv encodedCiphertext hsplit =>
    obtain ⟨e, he⟩ := openCookie_forged hgcm hsplit h
    rw [he]
    rfl
  next => rfl

/-! ### The two kinds of values -/

theorem isPublicSession_json (s : StoredSession) : isPublicSession s.json = !s.subject.isEmpty := by
  have hroles : (s.roles.map JsValue.str).all (fun role => isString (some role)) = true := by
    rw [List.all_map, List.all_eq_true]
    exact fun _ _ => rfl
  show (!s.subject.isEmpty && true && true && (s.roles.map JsValue.str).all fun role => isString (some role)) = _
  rw [hroles, Bool.and_true, Bool.and_true, Bool.and_true]

theorem refusesSession_json {s : StoredSession} (hsubject : s.subject ≠ []) (htoken : s.accessToken ≠ [])
    (now : TimeValue) : refusesSession lib now s.json = decide (s.expiresAt.val ≤ now.ms) := by
  have hpublic : isPublicSession s.json = true := by
    rw [isPublicSession_json, List.isEmpty_eq_false_iff.mpr hsubject]
    rfl
  have haccess : isNonEmptyString (s.json.property (js "accessToken")) = true := by
    show (!s.accessToken.isEmpty) = true
    rw [List.isEmpty_eq_false_iff.mpr htoken]
    rfl
  have hexpires : isAtMost lib (s.json.property (js "expiresAt")) now = decide (s.expiresAt.val ≤ now.ms) := rfl
  have hnull : s.json.isNull = false := rfl
  unfold refusesSession
  rw [hnull, hexpires, haccess, hpublic, Bool.false_or, Bool.not_true, Bool.or_false, Bool.or_false]

/-- A transaction has no access token. -/
theorem refusesSession_transaction (t : OidcTransaction) (now : TimeValue) :
    refusesSession lib now t.json = true := by
  have htoken : isNonEmptyString (t.json.property (js "accessToken")) = false := rfl
  unfold refusesSession
  rw [htoken, Bool.not_false, Bool.or_true, Bool.true_or]

/-- A session has no state. -/
theorem refusesTransaction_session (s : StoredSession) (now : TimeValue) (state : JsStr) :
    refusesTransaction lib now state s.json = true := by
  have hstate : isText state (s.json.property (js "state")) = false := rfl
  unfold refusesTransaction
  rw [hstate, Bool.not_false, Bool.or_true]

theorem getStoredSession_of_unseal {json : JsValue} (h : unsealValue lib seals value = .ok json) (now : TimeValue) :
    getStoredSession lib seals now (some value) = .ok (if refusesSession lib now json then .null else json) := by
  unfold getStoredSession
  dsimp only
  rw [h]
  show (if refusesSession lib now json = true then pure JsValue.null else pure json) = _
  split_ifs <;> rfl

/-- A session is accepted while it has not expired. -/
theorem getStoredSession_session (hgcm : lib.gcm.Authentic) {s : StoredSession} (hseal : (iv, .session s) ∈ seals)
    (hvalue : CarriesSeal lib value iv (.session s)) (hsubject : s.subject ≠ []) (htoken : s.accessToken ≠ [])
    (now : TimeValue) :
    getStoredSession lib seals now (some value) = .ok (if now.ms < s.expiresAt.val then s.json else .null) := by
  have hunseal : unsealValue lib seals value = .ok s.json := unsealValue_carries hgcm hseal hvalue
  rw [getStoredSession_of_unseal hunseal, refusesSession_json hsubject htoken]
  by_cases hnow : now.ms < s.expiresAt.val
  · rw [if_pos hnow, decide_eq_false (by omega), if_neg Bool.false_ne_true]
  · rw [if_neg hnow, decide_eq_true (by omega), if_pos rfl]

theorem getStoredSession_transaction (hgcm : lib.gcm.Authentic) {t : OidcTransaction}
    (hseal : (iv, .transaction t) ∈ seals) (hvalue : CarriesSeal lib value iv (.transaction t)) (now : TimeValue) :
    getStoredSession lib seals now (some value) = .ok .null := by
  have hunseal : unsealValue lib seals value = .ok t.json := unsealValue_carries hgcm hseal hvalue
  rw [getStoredSession_of_unseal hunseal, refusesSession_transaction, if_pos rfl]

theorem completeOidcCallback_session (hgcm : lib.gcm.Authentic) {s : StoredSession} (hseal : (iv, .session s) ∈ seals)
    (hvalue : CarriesSeal lib value iv (.session s)) (replies : OidcReplies) (now later : TimeValue)
    (code state : Option JsStr) :
    completeOidcCallback lib seals replies now later code state (some value) = .ok none := by
  have hunseal : unsealValue lib seals value = .ok s.json := unsealValue_carries hgcm hseal hvalue
  unfold completeOidcCallback
  cases code with
  | none => rfl
  | some code =>
    cases state with
    | none => rfl
    | some state =>
      dsimp only
      rw [hunseal]
      show (if refusesTransaction lib now state s.json = true then pure none else _) = _
      rw [refusesTransaction_session, if_pos rfl]
      rfl

/-- From the check of the transaction on. -/
def exchangeCode (replies : OidcReplies) (later : TimeValue) (code : JsStr) (t : OidcTransaction) :
    Except SessionError (Option (StoredSession × Nat)) := do
  replies.configuration
  match ← replies.token code (.str t.codeVerifier) with
  | none => return none
  | some token => completeLogin replies later token

/-- A callback with the cookie of a login. -/
theorem completeOidcCallback_transaction (hgcm : lib.gcm.Authentic) {iv : Iv} {t : OidcTransaction}
    (hseal : (iv, .transaction t) ∈ seals) (replies : OidcReplies) (now later : TimeValue) (code state : JsStr) :
    completeOidcCallback lib seals replies now later (some code) (some state)
      (some (sealValue lib.gcm iv (.transaction t))) =
    if now.ms < t.expiresAt.val ∧ t.state = state ∧ t.codeVerifier ≠ [] then exchangeCode replies later code t
    else .ok none := by
  have hunseal : unsealValue lib seals (sealValue lib.gcm iv (.transaction t)) = .ok t.json :=
    unsealValue_carries hgcm hseal (carries_sealValue hgcm iv _)
  have hrefuses : refusesTransaction lib now state t.json =
      (decide (t.expiresAt.val ≤ now.ms) || !(t.state == state)) := rfl
  unfold completeOidcCallback
  dsimp only
  rw [hunseal]
  show (if refusesTransaction lib now state t.json = true then pure none
    else if t.codeVerifier.isEmpty = true then pure none else exchangeCode replies later code t) = _
  rw [hrefuses]
  by_cases hnow : now.ms < t.expiresAt.val
  · rw [decide_eq_false (not_le.mpr hnow), Bool.false_or]
    by_cases hstate : t.state = state
    · by_cases hverifier : t.codeVerifier = []
      · simp [hverifier, hstate, pure, Except.pure]
      · simp [hverifier, hnow, hstate]
    · simp [hstate, pure, Except.pure]
  · simp [hnow, not_lt.mp hnow, pure, Except.pure]

end

/-! ### Runs -/

section

variable (lib : SessionLibrary)

/-- What the module seals next: a transaction at a login, a session at the end of a callback. -/
inductive SealStep : Seals → Seals → Prop
  | login (seals : Seals) (iv : Iv) (state codeVerifier : List Utf8.Byte) (now : TimeValue) :
    SealStep seals ((iv, .transaction (loginTransaction state codeVerifier now)) :: seals)
  | callback (seals : Seals) (iv : Iv) (replies : OidcReplies) (now later : TimeValue)
    (code state cookie : Option JsStr) (session : StoredSession) (maxAge : Nat)
    (completed : completeOidcCallback lib seals replies now later code state cookie = .ok (some (session, maxAge))) :
    SealStep seals ((iv, .session session) :: seals)

/-- The seals of a run. -/
def SealsReachable (seals : Seals) : Prop := Relation.ReflTransGen (SealStep lib) [] seals

end

section

variable {lib : SessionLibrary} {seals : Seals}

theorem fetchVerifiedIdentity_subject {replies : OidcReplies} {accessToken : JsStr} {identity : AuthenticatedSession}
    (h : fetchVerifiedIdentity replies accessToken = .ok (some identity)) : identity.subject ≠ [] := by
  unfold fetchVerifiedIdentity at h
  split at h
  next => cases h
  next => cases h
  next reply =>
    split at h
    next subject organizationId roles _ _ _ =>
      split_ifs at h with hempty
      · cases h
      · split at h
        next => cases h
        next =>
          cases h
          rw [Bool.or_eq_true, not_or, Bool.not_eq_true, List.isEmpty_eq_false_iff] at hempty
          exact hempty.1
    next => cases h

/-- A callback ends in a session with a subject and an access token. -/
theorem completeLogin_session {replies : OidcReplies} {later : TimeValue} {token : JsValue} {session : StoredSession}
    {maxAge : Nat} (h : completeLogin replies later token = .ok (some (session, maxAge))) :
    session.subject ≠ [] ∧ session.accessToken ≠ [] := by
  unfold completeLogin at h
  split at h
  next => cases h
  next accessToken tokenType _ _ _ =>
    split_ifs at h with hrefused
    · cases h
    · obtain ⟨identity, hidentity, h⟩ := Raising.bind_ok h
      cases identity with
      | none => cases h
      | some identity =>
        cases h
        rw [Bool.or_eq_true, not_or, Bool.not_eq_true, List.isEmpty_eq_false_iff] at hrefused
        exact ⟨fetchVerifiedIdentity_subject hidentity, hrefused.1⟩
  next => cases h

theorem completeOidcCallback_issued {replies : OidcReplies} {now later : TimeValue} {code state cookie : Option JsStr}
    {session : StoredSession} {maxAge : Nat}
    (h : completeOidcCallback lib seals replies now later code state cookie = .ok (some (session, maxAge))) :
    session.subject ≠ [] ∧ session.accessToken ≠ [] := by
  unfold completeOidcCallback at h
  split at h
  next code state cookie =>
    obtain ⟨transaction, -, h⟩ := Raising.bind_ok h
    split_ifs at h
    · cases h
    · obtain ⟨empty, -, h⟩ := Raising.bind_ok h
      split_ifs at h
      · cases h
      · obtain ⟨-, -, h⟩ := Raising.bind_ok h
        obtain ⟨token, -, h⟩ := Raising.bind_ok h
        cases token with
        | none => cases h
        | some token => exact completeLogin_session h
  next => cases h

/-- **In every run the sealed sessions have a subject and an access token.** -/
theorem reachable_issued (h : SealsReachable lib seals) {iv : Iv} {s : StoredSession}
    (hseal : (iv, .session s) ∈ seals) : s.subject ≠ [] ∧ s.accessToken ≠ [] := by
  induction h with
  | refl => cases hseal
  | tail _ hstep ih =>
    cases hstep with
    | login iv' state codeVerifier now =>
      rcases List.mem_cons.mp hseal with heq | hmem
      · cases heq
      · exact ih hmem
    | callback iv' replies now later code state cookie session maxAge completed =>
      rcases List.mem_cons.mp hseal with heq | hmem
      · cases heq
        exact completeOidcCallback_issued completed
      · exact ih hmem

/-- **Sealed cookies.** Every sealed value is unsealed again, and nothing else is: a cookie that carries no seal
gives `null`. In every run a sealed session is accepted until it expires; a sealed transaction is no session, and a
sealed session completes no login. -/
theorem sealed_cookies (lib : SessionLibrary) (hgcm : lib.gcm.Authentic) :
    (∀ iv v, CarriesSeal lib (sealValue lib.gcm iv v) iv v) ∧
    (∀ seals iv v, (iv, v) ∈ seals → unsealValue lib seals (sealValue lib.gcm iv v) = .ok v.json) ∧
    (∀ seals value, (∀ e ∈ seals, ¬CarriesSeal lib value e.1 e.2) → unsealValue lib seals value = .ok .null) ∧
    (∀ seals, SealsReachable lib seals → ∀ iv value,
      (∀ s, (iv, .session s) ∈ seals → CarriesSeal lib value iv (.session s) →
        (∀ now, getStoredSession lib seals now (some value) =
          .ok (if now.ms < s.expiresAt.val then s.json else .null)) ∧
        ∀ replies now later code state,
          completeOidcCallback lib seals replies now later code state (some value) = .ok none) ∧
      ∀ t, (iv, .transaction t) ∈ seals → CarriesSeal lib value iv (.transaction t) →
        ∀ now, getStoredSession lib seals now (some value) = .ok .null) := by
  refine ⟨carries_sealValue hgcm,
    fun seals iv v hseal => unsealValue_carries hgcm hseal (carries_sealValue hgcm iv v),
    fun seals value => unsealValue_forged hgcm,
    fun seals hreachable iv value => ⟨fun s hseal hvalue => ⟨?_, ?_⟩, ?_⟩⟩
  · obtain ⟨hsubject, htoken⟩ := reachable_issued hreachable hseal
    exact getStoredSession_session hgcm hseal hvalue hsubject htoken
  · exact completeOidcCallback_session hgcm hseal hvalue
  · exact fun t hseal hvalue => getStoredSession_transaction hgcm hseal hvalue

/-- Only what was sealed as a session is accepted as one. -/
theorem accepted_is_sealed (hgcm : lib.gcm.Authentic) {value : JsStr} {now : TimeValue} {json : JsValue}
    (h : getStoredSession lib seals now (some value) = .ok json) (hjson : json.isNull = false) :
    ∃ iv s, (iv, .session s) ∈ seals ∧ CarriesSeal lib value iv (.session s) ∧ json = s.json := by
  by_cases hcarries : ∃ e ∈ seals, CarriesSeal lib value e.1 e.2
  · obtain ⟨⟨iv, v⟩, hseal, hvalue⟩ := hcarries
    cases v with
    | transaction t =>
      rw [getStoredSession_transaction hgcm hseal hvalue] at h
      cases h
      cases hjson
    | session s =>
      have hunseal : unsealValue lib seals value = .ok s.json := unsealValue_carries hgcm hseal hvalue
      refine ⟨iv, s, hseal, hvalue, ?_⟩
      rw [getStoredSession_of_unseal hunseal] at h
      cases h
      split_ifs at hjson ⊢
      · cases hjson
      · rfl
  · push Not at hcarries
    rw [getStoredSession_of_unseal (unsealValue_forged hgcm hcarries)] at h
    cases h
    cases hjson

end

/-! ### A run -/

/-- A cipher that appends the tag, and knows what it has encrypted. -/
def sampleGcm : AesGcm where
  encrypt _ plaintext := plaintext ++ List.replicate 16 0
  decrypt history iv ciphertext :=
    (history.find? fun e => e.1 == iv && e.2 ++ List.replicate 16 0 == ciphertext).map Prod.snd

theorem sampleGcm_authentic : sampleGcm.Authentic where
  inverts history iv plaintext hmem := by
    show (history.find? fun e => e.1 == iv && e.2 ++ List.replicate 16 0 == plaintext ++ List.replicate 16 0).map
      Prod.snd = some plaintext
    cases hfind : history.find? fun e =>
      e.1 == iv && e.2 ++ List.replicate 16 0 == plaintext ++ List.replicate 16 0 with
    | none =>
      have hne := List.find?_eq_none.mp hfind _ hmem
      simp at hne
    | some e =>
      have hfound := List.find?_some hfind
      rw [Bool.and_eq_true, beq_iff_eq, beq_iff_eq] at hfound
      exact congrArg some (List.append_cancel_right hfound.2)
  rejects history iv ciphertext h := by
    show (history.find? fun e => e.1 == iv && e.2 ++ List.replicate 16 0 == ciphertext).map Prod.snd = none
    rw [Option.map_eq_none_iff, List.find?_eq_none]
    rintro ⟨iv', plaintext⟩ hmem hfound
    rw [Bool.and_eq_true, beq_iff_eq, beq_iff_eq] at hfound
    obtain ⟨rfl, heq⟩ := hfound
    exact h plaintext hmem heq
  length iv plaintext := by
    show (plaintext ++ List.replicate 16 0).length = _
    rw [List.length_append, List.length_replicate]

def sampleLibrary : SessionLibrary where
  gcm := sampleGcm
  otherNumber text := .other text
  atMost _ _ := false

def sampleIv : Iv := ⟨List.replicate 12 7, rfl⟩

def sampleNow : TimeValue := ⟨1784449800000, by decide⟩

def sampleTransaction : OidcTransaction := loginTransaction (List.replicate 32 1) (List.replicate 64 2) sampleNow

/-- A login has begun. -/
def sampleSeals : Seals := [(sampleIv, .transaction sampleTransaction)]

/-- The other parties sign a user in. -/
def sampleReplies : OidcReplies where
  configuration := .ok ()
  token _ _ := .ok (some (.obj [(js "access_token", .str (js "t")), (js "token_type", .str (js "Bearer"))]))
  identity _ := some (.obj [(js "subject", .str (js "u")), (js "organization_id", .str (js "o")),
    (js "roles", .arr [])])

def sampleSignIn : StoredSession where
  subject := js "u"
  displayName := js "u"
  organizationName := js "o"
  roles := []
  accessToken := js "t"
  expiresAt := expiry sampleNow 60 (by decide)

def sampleCookie : JsStr := sealValue sampleGcm sampleIv (.transaction sampleTransaction)

/-- The login's callback. -/
theorem sampleCallback : completeOidcCallback sampleLibrary sampleSeals sampleReplies sampleNow sampleNow
    (some (js "c")) (some sampleTransaction.state) (some sampleCookie) = .ok (some (sampleSignIn, 60)) := by
  have hgcm : sampleLibrary.gcm.Authentic := sampleGcm_authentic
  have hmem : (sampleIv, .transaction sampleTransaction) ∈ sampleSeals := List.mem_singleton.mpr rfl
  have hchecks : sampleNow.ms < sampleTransaction.expiresAt.val ∧
      sampleTransaction.state = sampleTransaction.state ∧ sampleTransaction.codeVerifier ≠ [] :=
    ⟨by decide, rfl, by decide⟩
  exact (completeOidcCallback_transaction hgcm hmem _ _ _ _ _).trans ((if_pos hchecks).trans (by rfl))

/-- A minute later. -/
def sampleLater : TimeValue := ⟨1784449860000, by decide⟩

/-- A login and its callback: the session is accepted, and a minute later it is not. The login's cookie never is. -/
theorem sealed_cookies_sample :
    let seals := (sampleIv, .session sampleSignIn) :: sampleSeals
    let cookie := sealValue sampleGcm sampleIv (.session sampleSignIn)
    unsealValue sampleLibrary sampleSeals sampleCookie = .ok sampleTransaction.json ∧
    unsealValue sampleLibrary sampleSeals (js "a.b.c") = .ok .null ∧
    getStoredSession sampleLibrary seals sampleNow (some cookie) = .ok sampleSignIn.json ∧
    getStoredSession sampleLibrary seals sampleLater (some cookie) = .ok .null ∧
    getStoredSession sampleLibrary seals sampleNow (some sampleCookie) = .ok .null := by
  intro seals cookie
  obtain ⟨hcarries, hround, hforged, hkinds⟩ := sealed_cookies sampleLibrary sampleGcm_authentic
  have hlogin : SealsReachable sampleLibrary sampleSeals := Relation.ReflTransGen.single (.login _ _ _ _ _)
  have hreachable : SealsReachable sampleLibrary seals :=
    hlogin.tail (.callback _ sampleIv _ _ _ _ _ _ _ _ sampleCallback)
  have htransaction : (sampleIv, .transaction sampleTransaction) ∈ seals := by simp [seals, sampleSeals]
  obtain ⟨haccepted, -⟩ := (hkinds seals hreachable sampleIv cookie).1 sampleSignIn List.mem_cons_self (hcarries _ _)
  refine ⟨hround _ _ _ (List.mem_singleton.mpr rfl), hforged _ _ ?_, ?_, ?_, ?_⟩
  · rintro e - ⟨encodedIv, encodedCiphertext, hsplit, -⟩
    have hparts : (js "a.b.c").splitOn 46 = [js "a", js "b", js "c"] := by decide
    rw [hparts] at hsplit
    cases hsplit
  · exact (haccepted sampleNow).trans (congrArg _ (if_pos (by decide)))
  · exact (haccepted sampleLater).trans (congrArg _ (if_neg (by decide)))
  · exact (hkinds seals hreachable sampleIv _).2 _ htransaction (hcarries _ _) sampleNow

end NetopsCopilot
