import NetopsCopilot.Web.Session

/-!
# Signing in (`app/auth/login`, `app/auth/callback`, `app/auth/logout`)

The routes keep nothing but cookies: a login leaves a sealed transaction in the browser, a callback exchanges it for a
sealed session. The system has any number of browsers and one server. A callback reads its cookie when it begins and
seals when it ends, and a response is on its way until its cookies are stored, so that requests overlap. A browser
drops a cookie at its `maxAge`, earlier or later; one that is not honest may present any cookie, and any browser may be
led to call back with any code and state.
-/

namespace NetopsCopilot

/-! ### The routes -/

/-- `SESSION_COOKIE_NAME` and `OIDC_TRANSACTION_COOKIE_NAME`. -/
inductive CookieName where
  | session | oidcTransaction
deriving DecidableEq

/-- A `Set-Cookie` header. -/
inductive SetCookie where
  | set (name : CookieName) (value : JsStr) (maxAge : Nat)
  | delete (name : CookieName)

/-- Where a response redirects to. -/
inductive Location where
  | canonicalLogin
  | authorization (state : JsStr)
  | cases
  | home
deriving DecidableEq

structure RouteResponse where
  status : Nat
  location : Option Location := none
  cookies : List SetCookie := []

/-- `NETOPS_COOKIE_SECURE` is not `"false"`, and the host of the redirect URI. -/
structure LoginEnvironment where
  useSecureCookies : Bool
  redirectHost : JsStr

/-- The headers that `canonicalLoginOrigin` reads. -/
structure LoginRequest where
  forwardedHost : Option JsStr
  host : Option JsStr

/-- `canonicalLoginOrigin` redirects. -/
def redirectsToCanonical (environment : LoginEnvironment) (request : LoginRequest) : Bool :=
  environment.useSecureCookies && (request.forwardedHost.or request.host != some environment.redirectHost)

/-- `GET /auth/login`, with what it seals. -/
def loginRoute (gcm : AesGcm) (environment : LoginEnvironment) (request : LoginRequest)
    (configuration : Except SessionError Unit) (iv : Iv) (state codeVerifier : List Utf8.Byte) (now : TimeValue) :
    RouteResponse × Option OidcTransaction :=
  if redirectsToCanonical environment request then ({ status := 307, location := some .canonicalLogin }, none)
  else match configuration with
    | .error _ => ({ status := 503 }, none)
    | .ok () =>
      let transaction := loginTransaction state codeVerifier now
      ({ status := 307
         location := some (.authorization transaction.state)
         cookies := [.set .oidcTransaction (sealValue gcm iv (.transaction transaction)) 600] }, some transaction)

/-- `failedAuthentication`. -/
def failedAuthentication : RouteResponse where
  status := 307
  location := some .home
  cookies := [.delete .oidcTransaction]

/-- `GET /auth/callback`, with the session it seals and the cookie's `maxAge`. -/
def callbackRoute (lib : SessionLibrary) (seals : Seals) (replies : OidcReplies) (now later : TimeValue) (iv : Iv)
    (code state cookie : Option JsStr) : RouteResponse × Option (StoredSession × Nat) :=
  match completeOidcCallback lib seals replies now later code state cookie with
  | .ok (some (session, maxAge)) =>
    ({ status := 307
       location := some .cases
       cookies := [.set .session (sealValue lib.gcm iv (.session session)) maxAge, .delete .oidcTransaction] },
      some (session, maxAge))
  | .ok none | .error _ => (failedAuthentication, none)

/-- `POST /auth/logout`. -/
def logoutRoute : RouteResponse where
  status := 303
  location := some .home
  cookies := [.delete .session]

/-! ### Browsers -/

/-- The cookies of a browser. -/
abbrev CookieJar := CookieName → Option JsStr

def CookieJar.store (jar : CookieJar) : SetCookie → CookieJar
  | .set name value _ => Function.update jar name (some value)
  | .delete name => Function.update jar name none

/-- A login that a browser has begun. -/
structure LoginRecord (B : Type) where
  browser : B
  transaction : OidcTransaction
  startedAt : TimeValue

/-- A callback that has begun, with the cookie that came along and what had been sealed by then. -/
structure CallbackRequest (B : Type) where
  browser : B
  code : Option JsStr
  state : Option JsStr
  cookie : Option JsStr
  seals : Seals
  now : TimeValue

/-- A callback that was completed. -/
structure CallbackRecord (B : Type) extends CallbackRequest B where
  replies : OidcReplies
  later : TimeValue
  session : StoredSession
  maxAge : Nat

/-- The server's seals, the browsers' cookies, the callbacks under way and the responses on their way; and, as history,
the logins that were begun and the callbacks that were completed. -/
structure LoginWorld (B : Type) where
  now : TimeValue
  seals : Seals := []
  jars : B → CookieJar := fun _ _ => none
  pending : List (CallbackRequest B) := []
  inFlight : List (B × List SetCookie) := []
  logins : List (LoginRecord B) := []
  callbacks : List (CallbackRecord B) := []

section

variable {B : Type} [DecidableEq B] (lib : SessionLibrary) (honest : B → Prop)

/-- What can happen. -/
inductive LoginStep (s : LoginWorld B) : LoginWorld B → Prop
  | tick (later : TimeValue) (hlater : s.now.ms ≤ later.ms) : LoginStep s { s with now := later }
  | login (b : B) (environment : LoginEnvironment) (request : LoginRequest) (configuration : Except SessionError Unit)
    (iv : Iv) (state codeVerifier : List Utf8.Byte) (response : RouteResponse) (sealed : Option OidcTransaction)
    (hroute : loginRoute lib.gcm environment request configuration iv state codeVerifier s.now = (response, sealed)) :
    LoginStep s { s with
      seals := (sealed.map fun t => (iv, .transaction t)).toList ++ s.seals
      inFlight := (b, response.cookies) :: s.inFlight
      logins := (sealed.map fun t => ⟨b, t, s.now⟩).toList ++ s.logins }
  | request (b : B) (code state : Option JsStr) :
    LoginStep s { s with
      pending := ⟨b, code, state, s.jars b .oidcTransaction, s.seals, s.now⟩ :: s.pending }
  | callback (before after : List (CallbackRequest B)) (r : CallbackRequest B) (replies : OidcReplies) (iv : Iv)
    (response : RouteResponse) (sealed : Option (StoredSession × Nat)) (hpending : s.pending = before ++ r :: after)
    (hroute : callbackRoute lib r.seals replies r.now s.now iv r.code r.state r.cookie = (response, sealed)) :
    LoginStep s { s with
      seals := (sealed.map fun e => (iv, .session e.1)).toList ++ s.seals
      pending := before ++ after
      inFlight := (r.browser, response.cookies) :: s.inFlight
      callbacks := (sealed.map fun e => ⟨r, replies, s.now, e.1, e.2⟩).toList ++ s.callbacks }
  | logout (b : B) : LoginStep s { s with inFlight := (b, logoutRoute.cookies) :: s.inFlight }
  /-- A response arrives. -/
  | deliver (before after : List (B × List SetCookie)) (b : B) (cookies : List SetCookie)
    (hflight : s.inFlight = before ++ (b, cookies) :: after) :
    LoginStep s { s with
      inFlight := before ++ after
      jars := Function.update s.jars b (cookies.foldl CookieJar.store (s.jars b)) }
  | drop (b : B) (name : CookieName) :
    LoginStep s { s with jars := Function.update s.jars b (Function.update (s.jars b) name none) }
  | plant (b : B) (name : CookieName) (value : JsStr) (hplant : ¬honest b) :
    LoginStep s { s with jars := Function.update s.jars b (Function.update (s.jars b) name (some value)) }

/-- The worlds of a run in which no browser has a cookie at first. -/
def LoginReachable (start : TimeValue) (s : LoginWorld B) : Prop :=
  Relation.ReflTransGen (LoginStep lib honest) { now := start } s

end

/-! ### What the routes answer -/

section

variable {lib : SessionLibrary} {seals : Seals}

theorem loginRoute_cases {gcm : AesGcm} {environment : LoginEnvironment} {request : LoginRequest}
    {configuration : Except SessionError Unit} {iv : Iv} {state codeVerifier : List Utf8.Byte} {now : TimeValue}
    {response : RouteResponse} {sealed : Option OidcTransaction}
    (h : loginRoute gcm environment request configuration iv state codeVerifier now = (response, sealed)) :
    (response.cookies = [] ∧ sealed = none) ∨
    ∃ t, sealed = some t ∧ t.expiresAt.val = now.ms + 600000 ∧
      response.cookies = [.set .oidcTransaction (sealValue gcm iv (.transaction t)) 600] := by
  unfold loginRoute at h
  split_ifs at h
  · cases h
    exact .inl ⟨rfl, rfl⟩
  · cases configuration with
    | error e =>
      cases h
      exact .inl ⟨rfl, rfl⟩
    | ok =>
      cases h
      exact .inr ⟨_, rfl, rfl, rfl⟩

theorem callbackRoute_cases {replies : OidcReplies} {now later : TimeValue} {iv : Iv}
    {code state cookie : Option JsStr} {response : RouteResponse} {sealed : Option (StoredSession × Nat)}
    (h : callbackRoute lib seals replies now later iv code state cookie = (response, sealed)) :
    (response.cookies = [.delete .oidcTransaction] ∧ sealed = none) ∨
    ∃ session maxAge, sealed = some (session, maxAge) ∧
      completeOidcCallback lib seals replies now later code state cookie = .ok (some (session, maxAge)) ∧
      response.cookies =
        [.set .session (sealValue lib.gcm iv (.session session)) maxAge, .delete .oidcTransaction] := by
  unfold callbackRoute at h
  split at h
  next session maxAge hcompleted =>
    cases h
    exact .inr ⟨session, maxAge, rfl, hcompleted, rfl⟩
  next =>
    cases h
    exact .inl ⟨rfl, rfl⟩
  next =>
    cases h
    exact .inl ⟨rfl, rfl⟩

/-- What a session says: it holds a token that the token endpoint answered with and the identity that `/v1/auth/me`
answered to this token, for twelve hours at most from when it was sealed. -/
structure SessionIssued (replies : OidcReplies) (later : TimeValue) (token : JsValue) (session : StoredSession)
    (maxAge : Nat) : Prop where
  accessToken : token.property (js "access_token") = some (.str session.accessToken)
  identity : fetchVerifiedIdentity replies session.accessToken = .ok (some session.toAuthenticatedSession)
  expiresAt : session.expiresAt.val = later.ms + maxAge * 1000
  maxAge_le : maxAge ≤ 43200

theorem completeLogin_issued {replies : OidcReplies} {later : TimeValue} {token : JsValue} {session : StoredSession}
    {maxAge : Nat} (h : completeLogin replies later token = .ok (some (session, maxAge))) :
    SessionIssued replies later token session maxAge := by
  unfold completeLogin at h
  split at h
  next => cases h
  next accessToken tokenType _ haccess _ =>
    split_ifs at h with hrefused
    · cases h
    · obtain ⟨identity, hidentity, h⟩ := Raising.bind_ok h
      cases identity with
      | none => cases h
      | some identity =>
        cases h
        exact ⟨haccess, hidentity, rfl, min_le_right _ _⟩
  next => cases h

/-- The login that a completed callback ends: the callback came with its state within ten minutes of it, and its
verifier was exchanged with the code for the session's token. -/
structure CompletesLogin (t : OidcTransaction) (replies : OidcReplies) (now later : TimeValue)
    (code state : Option JsStr) (session : StoredSession) (maxAge : Nat) : Prop where
  state : state = some t.state
  alive : now.ms < t.expiresAt.val
  exchanged : ∃ code' token, code = some code' ∧ replies.token code' (.str t.codeVerifier) = .ok (some token) ∧
    SessionIssued replies later token session maxAge

/-- A callback with the cookie of a login completes this login only. -/
theorem completeOidcCallback_sealed (hgcm : lib.gcm.Authentic) {iv : Iv} {t : OidcTransaction}
    (hseal : (iv, .transaction t) ∈ seals) {replies : OidcReplies} {now later : TimeValue} {code state : Option JsStr}
    {session : StoredSession} {maxAge : Nat}
    (h : completeOidcCallback lib seals replies now later code state
      (some (sealValue lib.gcm iv (.transaction t))) = .ok (some (session, maxAge))) :
    CompletesLogin t replies now later code state session maxAge := by
  cases code with
  | none => cases h
  | some code =>
    cases state with
    | none => cases h
    | some state =>
      rw [completeOidcCallback_transaction hgcm hseal] at h
      split_ifs at h with hchecks
      · obtain ⟨-, -, h⟩ := Raising.bind_ok h
        obtain ⟨token, htoken, h⟩ := Raising.bind_ok h
        cases token with
        | none => cases h
        | some token => exact ⟨by rw [hchecks.2.1], hchecks.1, code, token, rfl, htoken, completeLogin_issued h⟩
      · cases h

end

/-! ### The invariant -/

section

variable {B : Type} {lib : SessionLibrary} {honest : B → Prop}

/-- A cookie that the server has set in this browser: the transaction of a login that this browser has begun, or the
session of a callback of this browser that was completed. -/
def OwnCookie (lib : SessionLibrary) (s : LoginWorld B) (b : B) (value : JsStr) : CookieName → Prop
  | .oidcTransaction => ∃ l ∈ s.logins, l.browser = b ∧ l.startedAt.ms ≤ s.now.ms ∧
      ∃ iv, (iv, .transaction l.transaction) ∈ s.seals ∧ value = sealValue lib.gcm iv (.transaction l.transaction)
  | .session => ∃ c ∈ s.callbacks, c.browser = b ∧
      ∃ iv, (iv, .session c.session) ∈ s.seals ∧ value = sealValue lib.gcm iv (.session c.session)

/-- The history of `s'` continues that of `s`. -/
structure LoginWorld.Extends (s s' : LoginWorld B) : Prop where
  now : s.now.ms ≤ s'.now.ms
  seals : s.seals ⊆ s'.seals
  logins : s.logins ⊆ s'.logins
  callbacks : s.callbacks ⊆ s'.callbacks

theorem OwnCookie.extends {s s' : LoginWorld B} (h : s.Extends s') {b : B} {value : JsStr} {name : CookieName}
    (hown : OwnCookie lib s b value name) : OwnCookie lib s' b value name := by
  cases name with
  | oidcTransaction =>
    obtain ⟨l, hl, hbrowser, hstarted, iv, hseal, hvalue⟩ := hown
    exact ⟨l, h.logins hl, hbrowser, hstarted.trans h.now, iv, h.seals hseal, hvalue⟩
  | session =>
    obtain ⟨c, hc, hbrowser, iv, hseal, hvalue⟩ := hown
    exact ⟨c, h.callbacks hc, hbrowser, iv, h.seals hseal, hvalue⟩

/-- The cookie of a callback under way was set in this browser at a login that had been begun by then. -/
def CallbackRequest.Own (lib : SessionLibrary) (s : LoginWorld B) (r : CallbackRequest B) : Prop :=
  ∀ value, r.cookie = some value → ∃ l ∈ s.logins, l.browser = r.browser ∧ l.startedAt.ms ≤ r.now.ms ∧
    ∃ iv, (iv, .transaction l.transaction) ∈ r.seals ∧ value = sealValue lib.gcm iv (.transaction l.transaction)

/-- A completed callback ends a login of its browser. -/
def CallbackRecord.Own (s : LoginWorld B) (c : CallbackRecord B) : Prop :=
  ∃ l ∈ s.logins, l.browser = c.browser ∧ l.startedAt.ms ≤ c.now.ms ∧
    CompletesLogin l.transaction c.replies c.now c.later c.code c.state c.session c.maxAge

structure LoginInvariant (lib : SessionLibrary) (honest : B → Prop) (s : LoginWorld B) : Prop where
  expiry : ∀ l ∈ s.logins, l.transaction.expiresAt.val = l.startedAt.ms + 600000
  issued : ∀ iv session, (iv, .session session) ∈ s.seals → session.subject ≠ [] ∧ session.accessToken ≠ []
  jars : ∀ b, honest b → ∀ name value, s.jars b name = some value → OwnCookie lib s b value name
  inFlight : ∀ b cookies, (b, cookies) ∈ s.inFlight → honest b → ∀ name value maxAge,
    .set name value maxAge ∈ cookies → OwnCookie lib s b value name
  pending : ∀ r ∈ s.pending, honest r.browser → r.Own lib s
  callbacks : ∀ c ∈ s.callbacks, honest c.browser → c.Own s

/-- A step that only adds history keeps what held of the cookies that were there. -/
theorem LoginInvariant.extends {s s' : LoginWorld B} (hinv : LoginInvariant lib honest s) (h : s.Extends s') :
    (∀ b, honest b → ∀ name value, s.jars b name = some value → OwnCookie lib s' b value name) ∧
    (∀ b cookies, (b, cookies) ∈ s.inFlight → honest b → ∀ name value maxAge,
      .set name value maxAge ∈ cookies → OwnCookie lib s' b value name) ∧
    (∀ r ∈ s.pending, honest r.browser → r.Own lib s') ∧
    ∀ c ∈ s.callbacks, honest c.browser → c.Own s' := by
  refine ⟨fun b hb name value hjar => (hinv.jars b hb name value hjar).extends h,
    fun b cookies hmem hb name value maxAge hset => (hinv.inFlight b cookies hmem hb name value maxAge hset).extends h,
    fun r hr hb value hcookie => ?_, fun c hc hb => ?_⟩
  · obtain ⟨l, hl, hown⟩ := hinv.pending r hr hb value hcookie
    exact ⟨l, h.logins hl, hown⟩
  · obtain ⟨l, hl, hown⟩ := hinv.callbacks c hc hb
    exact ⟨l, h.logins hl, hown⟩

/-- The cookies of a response are stored one after another. -/
theorem foldl_store {P : CookieName → JsStr → Prop} {cookies : List SetCookie}
    (hcookies : ∀ name value maxAge, .set name value maxAge ∈ cookies → P name value) {jar : CookieJar}
    (hjar : ∀ name value, jar name = some value → P name value) (name : CookieName) (value : JsStr)
    (h : cookies.foldl CookieJar.store jar name = some value) : P name value := by
  induction cookies generalizing jar with
  | nil => exact hjar name value h
  | cons cookie cookies ih =>
    refine ih (fun name value maxAge hmem => hcookies name value maxAge (List.mem_cons_of_mem _ hmem)) ?_ h
    intro name value hstored
    cases cookie with
    | set name' value' maxAge =>
      by_cases hname : name = name'
      · subst hname
        have heq : value' = value := by
          rw [CookieJar.store, Function.update_self] at hstored
          exact Option.some.inj hstored
        exact heq ▸ hcookies name value' maxAge List.mem_cons_self
      · rw [CookieJar.store, Function.update_of_ne hname] at hstored
        exact hjar name value hstored
    | delete name' =>
      by_cases hname : name = name'
      · subst hname
        rw [CookieJar.store, Function.update_self] at hstored
        cases hstored
      · rw [CookieJar.store, Function.update_of_ne hname] at hstored
        exact hjar name value hstored

theorem LoginInvariant.start (now : TimeValue) : LoginInvariant lib honest ({ now := now } : LoginWorld B) where
  expiry _ h := absurd h List.not_mem_nil
  issued _ _ h := absurd h List.not_mem_nil
  jars _ _ _ _ h := absurd h (Option.some_ne_none _).symm
  inFlight _ _ h := absurd h List.not_mem_nil
  pending _ h := absurd h List.not_mem_nil
  callbacks _ h := absurd h List.not_mem_nil

theorem LoginInvariant.tick {s : LoginWorld B} (hinv : LoginInvariant lib honest s) {later : TimeValue}
    (hlater : s.now.ms ≤ later.ms) : LoginInvariant lib honest { s with now := later } := by
  have hextends : s.Extends { s with now := later } := ⟨hlater, fun _ => id, fun _ => id, fun _ => id⟩
  obtain ⟨hjars, hflight, hpending, hcallbacks⟩ := hinv.extends hextends
  exact ⟨hinv.expiry, hinv.issued, hjars, hflight, hpending, hcallbacks⟩

/-- A response without cookies changes nothing that the invariant speaks about. -/
theorem LoginInvariant.respond {s : LoginWorld B} (hinv : LoginInvariant lib honest s) {b : B}
    {cookies : List SetCookie} (hcookies : ∀ name value maxAge, .set name value maxAge ∉ cookies) :
    LoginInvariant lib honest { s with inFlight := (b, cookies) :: s.inFlight } where
  expiry := hinv.expiry
  issued := hinv.issued
  jars := hinv.jars
  inFlight b' cookies' hmem hb name value maxAge hset := by
    rcases List.mem_cons.mp hmem with heq | hmem
    · cases heq
      exact absurd hset (hcookies name value maxAge)
    · exact hinv.inFlight b' cookies' hmem hb name value maxAge hset
  pending := hinv.pending
  callbacks := hinv.callbacks

theorem LoginInvariant.login {s : LoginWorld B} (hinv : LoginInvariant lib honest s) {b : B} {iv : Iv}
    {t : OidcTransaction} (ht : t.expiresAt.val = s.now.ms + 600000) :
    LoginInvariant lib honest { s with
      seals := (iv, .transaction t) :: s.seals
      inFlight := (b, [.set .oidcTransaction (sealValue lib.gcm iv (.transaction t)) 600]) :: s.inFlight
      logins := ⟨b, t, s.now⟩ :: s.logins } := by
  have hextends : s.Extends { s with
      seals := (iv, .transaction t) :: s.seals
      inFlight := (b, [.set .oidcTransaction (sealValue lib.gcm iv (.transaction t)) 600]) :: s.inFlight
      logins := ⟨b, t, s.now⟩ :: s.logins } :=
    ⟨le_rfl, List.subset_cons_self _ _, List.subset_cons_self _ _, fun _ => id⟩
  obtain ⟨hjars, hflight, hpending, hcallbacks⟩ := hinv.extends hextends
  refine ⟨?_, ?_, hjars, ?_, hpending, hcallbacks⟩
  · intro l hl
    rcases List.mem_cons.mp hl with rfl | hl
    · exact ht
    · exact hinv.expiry l hl
  · intro iv' session hmem
    rcases List.mem_cons.mp hmem with heq | hmem
    · cases heq
    · exact hinv.issued iv' session hmem
  · intro b' cookies hmem hb name value maxAge hset
    rcases List.mem_cons.mp hmem with heq | hmem
    · cases heq
      cases List.mem_singleton.mp hset
      exact ⟨_, List.mem_cons_self, rfl, le_rfl, iv, List.mem_cons_self, rfl⟩
    · exact hflight b' cookies hmem hb name value maxAge hset

theorem LoginInvariant.request {s : LoginWorld B} (hinv : LoginInvariant lib honest s) (b : B)
    (code state : Option JsStr) :
    LoginInvariant lib honest { s with
      pending := ⟨b, code, state, s.jars b .oidcTransaction, s.seals, s.now⟩ :: s.pending } where
  expiry := hinv.expiry
  issued := hinv.issued
  jars := hinv.jars
  inFlight := hinv.inFlight
  pending r hr hb := by
    rcases List.mem_cons.mp hr with rfl | hr
    · exact fun value hcookie => hinv.jars b hb .oidcTransaction value hcookie
    · exact hinv.pending r hr hb
  callbacks := hinv.callbacks

/-- The rest of a list, after one of its members was taken out. -/
theorem mem_of_mem_rest {α : Type} {list before after : List α} {a : α} (h : list = before ++ a :: after) {x : α}
    (hx : x ∈ before ++ after) : x ∈ list := by
  rw [h, List.mem_append, List.mem_cons]
  rcases List.mem_append.mp hx with hx | hx
  · exact .inl hx
  · exact .inr (.inr hx)

theorem LoginInvariant.take {s : LoginWorld B} (hinv : LoginInvariant lib honest s)
    {before after : List (CallbackRequest B)} {r : CallbackRequest B} (h : s.pending = before ++ r :: after) :
    LoginInvariant lib honest { s with pending := before ++ after } :=
  ⟨hinv.expiry, hinv.issued, hinv.jars, hinv.inFlight, fun r' hr' => hinv.pending r' (mem_of_mem_rest h hr'),
    hinv.callbacks⟩

/-- A callback that completes ends the login whose transaction its browser holds. -/
theorem CallbackRequest.Own.completes (hgcm : lib.gcm.Authentic) {s : LoginWorld B} {r : CallbackRequest B}
    (hown : r.Own lib s) {replies : OidcReplies} {later : TimeValue} {session : StoredSession} {maxAge : Nat}
    (h : completeOidcCallback lib r.seals replies r.now later r.code r.state r.cookie = .ok (some (session, maxAge))) :
    CallbackRecord.Own s ⟨r, replies, later, session, maxAge⟩ := by
  cases hcookie : r.cookie with
  | none =>
    rw [hcookie] at h
    unfold completeOidcCallback at h
    split at h
    next heq => cases heq
    next => cases h
  | some value =>
    obtain ⟨l, hl, hbrowser, hstarted, iv, hseal, rfl⟩ := hown value hcookie
    rw [hcookie] at h
    exact ⟨l, hl, hbrowser, hstarted, completeOidcCallback_sealed hgcm hseal h⟩

theorem LoginInvariant.callback {s : LoginWorld B} (hinv : LoginInvariant lib honest s) {r : CallbackRequest B}
    {replies : OidcReplies} {iv : Iv} {session : StoredSession} {maxAge : Nat}
    (hissued : session.subject ≠ [] ∧ session.accessToken ≠ [])
    (hown : honest r.browser → CallbackRecord.Own s ⟨r, replies, s.now, session, maxAge⟩) :
    LoginInvariant lib honest { s with
      seals := (iv, .session session) :: s.seals
      inFlight := (r.browser, [.set .session (sealValue lib.gcm iv (.session session)) maxAge,
        .delete .oidcTransaction]) :: s.inFlight
      callbacks := ⟨r, replies, s.now, session, maxAge⟩ :: s.callbacks } := by
  have hextends : s.Extends { s with
      seals := (iv, .session session) :: s.seals
      inFlight := (r.browser, [.set .session (sealValue lib.gcm iv (.session session)) maxAge,
        .delete .oidcTransaction]) :: s.inFlight
      callbacks := ⟨r, replies, s.now, session, maxAge⟩ :: s.callbacks } :=
    ⟨le_rfl, List.subset_cons_self _ _, fun _ => id, List.subset_cons_self _ _⟩
  obtain ⟨hjars, hflight, hpending, hcallbacks⟩ := hinv.extends hextends
  refine ⟨hinv.expiry, ?_, hjars, ?_, hpending, ?_⟩
  · intro iv' session' hmem
    rcases List.mem_cons.mp hmem with heq | hmem
    · cases heq
      exact hissued
    · exact hinv.issued iv' session' hmem
  · intro b cookies hmem hb name value maxAge' hset
    rcases List.mem_cons.mp hmem with heq | hmem
    · cases heq
      rcases List.mem_cons.mp hset with heq | hset
      · cases heq
        exact ⟨_, List.mem_cons_self, rfl, iv, List.mem_cons_self, rfl⟩
      · cases List.mem_singleton.mp hset
    · exact hflight b cookies hmem hb name value maxAge' hset
  · intro c hc hb
    rcases List.mem_cons.mp hc with rfl | hc
    · exact hown hb
    · exact hcallbacks c hc hb

/-- What a browser stores is either its own or the browser is not honest. -/
theorem LoginInvariant.store [DecidableEq B] {s : LoginWorld B} (hinv : LoginInvariant lib honest s) {b : B}
    {jar : CookieJar} (hjar : honest b → ∀ name value, jar name = some value → OwnCookie lib s b value name) :
    LoginInvariant lib honest { s with jars := Function.update s.jars b jar } where
  expiry := hinv.expiry
  issued := hinv.issued
  jars b' hb name value h := by
    by_cases hsame : b' = b
    · subst hsame
      have hstored : jar name = some value := by simpa only [Function.update_self] using h
      exact hjar hb name value hstored
    · have hstored : s.jars b' name = some value := by simpa only [Function.update_of_ne hsame] using h
      exact hinv.jars b' hb name value hstored
  inFlight := hinv.inFlight
  pending := hinv.pending
  callbacks := hinv.callbacks

theorem LoginStep.invariant [DecidableEq B] (hgcm : lib.gcm.Authentic) {s s' : LoginWorld B}
    (hstep : LoginStep lib honest s s') (hinv : LoginInvariant lib honest s) : LoginInvariant lib honest s' := by
  cases hstep with
  | tick later hlater => exact hinv.tick hlater
  | login b environment request configuration iv state codeVerifier response sealed hroute =>
    obtain ⟨hcookies, rfl⟩ | ⟨t, rfl, ht, hcookies⟩ := loginRoute_cases hroute
    · rw [hcookies]
      exact hinv.respond fun _ _ _ => List.not_mem_nil
    · rw [hcookies]
      exact hinv.login ht
  | request b code state => exact hinv.request b code state
  | callback before after r replies iv response sealed hpending hroute =>
    have hmem : r ∈ s.pending := by
      rw [hpending]
      exact List.mem_append_right _ List.mem_cons_self
    have hrest := hinv.take hpending
    obtain ⟨hcookies, rfl⟩ | ⟨session, maxAge, rfl, hcompleted, hcookies⟩ := callbackRoute_cases hroute
    · rw [hcookies]
      exact hrest.respond fun _ _ _ h => by cases List.mem_singleton.mp h
    · rw [hcookies]
      refine hrest.callback (completeOidcCallback_issued hcompleted) fun hb => ?_
      exact (hinv.pending r hmem hb).completes hgcm hcompleted
  | logout b => exact hinv.respond fun _ _ _ h => by cases List.mem_singleton.mp h
  | deliver before after b cookies hflight =>
    have hmem : (b, cookies) ∈ s.inFlight := by
      rw [hflight]
      exact List.mem_append_right _ List.mem_cons_self
    have hrest : LoginInvariant lib honest { s with inFlight := before ++ after } :=
      ⟨hinv.expiry, hinv.issued, hinv.jars, fun b' cookies' h => hinv.inFlight b' cookies' (mem_of_mem_rest hflight h),
        hinv.pending, hinv.callbacks⟩
    exact hrest.store fun hb name value hstored =>
      foldl_store (P := fun name value => OwnCookie lib s b value name) (hinv.inFlight b cookies hmem hb)
        (hinv.jars b hb) name value hstored
  | drop b name =>
    refine hinv.store fun hb name' value hstored => ?_
    by_cases hname : name' = name
    · rw [hname, Function.update_self] at hstored
      cases hstored
    · rw [Function.update_of_ne hname] at hstored
      exact hinv.jars b hb name' value hstored
  | plant b name value hplant => exact hinv.store fun hb => absurd hb hplant

theorem LoginReachable.invariant [DecidableEq B] (hgcm : lib.gcm.Authentic) {start : TimeValue} {s : LoginWorld B}
    (h : LoginReachable lib honest start s) : LoginInvariant lib honest s := by
  induction h with
  | refl => exact LoginInvariant.start start
  | tail _ hstep ih => exact hstep.invariant hgcm ih

/-- **An honest browser is signed in by its own login only.** Whenever it holds a session, it had begun a login and
called back with this login's state less than ten minutes after, and the code that came along was exchanged with this
login's verifier for the session's token. The session is accepted from then until it expires, and not after. -/
theorem session_from_own_login [DecidableEq B] (hgcm : lib.gcm.Authentic) {start : TimeValue} {s : LoginWorld B}
    (h : LoginReachable lib honest start s) {b : B} (hb : honest b) {value : JsStr}
    (hcookie : s.jars b .session = some value) :
    ∃ l ∈ s.logins, ∃ c ∈ s.callbacks, l.browser = b ∧ c.browser = b ∧
      l.startedAt.ms ≤ c.now.ms ∧ c.now.ms < l.startedAt.ms + 600000 ∧
      CompletesLogin l.transaction c.replies c.now c.later c.code c.state c.session c.maxAge ∧
      ∀ now, getStoredSession lib s.seals now (some value) =
        .ok (if now.ms < c.later.ms + c.maxAge * 1000 then c.session.json else .null) := by
  have hinv := h.invariant hgcm
  obtain ⟨c, hc, rfl, iv, hseal, rfl⟩ := hinv.jars b hb .session value hcookie
  obtain ⟨l, hl, hbrowser, hstarted, hcompletes⟩ := hinv.callbacks c hc hb
  have halive := hcompletes.alive
  rw [hinv.expiry l hl] at halive
  refine ⟨l, hl, c, hc, hbrowser, rfl, hstarted, halive, hcompletes, fun now => ?_⟩
  obtain ⟨hsubject, htoken⟩ := hinv.issued iv c.session hseal
  obtain ⟨code, token, -, -, hissued⟩ := hcompletes.exchanged
  rw [getStoredSession_session hgcm hseal (carries_sealValue hgcm iv _) hsubject htoken, hissued.expiresAt]

end

/-! ### A run -/

def sampleRequest : CallbackRequest Bool :=
  ⟨true, some (js "c"), some sampleTransaction.state, some sampleCookie, sampleSeals, sampleNow⟩

def sampleCompleted : RouteResponse where
  status := 307
  location := some .cases
  cookies := [.set .session (sealValue sampleGcm sampleIv (.session sampleSignIn)) 60, .delete .oidcTransaction]

theorem sampleCompleted_answers : callbackRoute sampleLibrary sampleSeals sampleReplies sampleNow sampleNow sampleIv
    (some (js "c")) (some sampleTransaction.state) (some sampleCookie) = (sampleCompleted, some (sampleSignIn, 60)) := by
  unfold callbackRoute
  rw [sampleCallback]
  rfl

/-- The browser `true` begins a login, calls back and is signed in. -/
theorem sampleSignedIn : ∃ s : LoginWorld Bool, LoginReachable sampleLibrary (· = true) sampleNow s ∧
    s.callbacks = [⟨sampleRequest, sampleReplies, sampleNow, sampleSignIn, 60⟩] ∧
    s.jars true .session = some (sealValue sampleGcm sampleIv (.session sampleSignIn)) := by
  let begun : RouteResponse :=
    { status := 307
      location := some (.authorization sampleTransaction.state)
      cookies := [.set .oidcTransaction sampleCookie 600] }
  have hlogin := (Relation.ReflTransGen.refl (r := LoginStep sampleLibrary (· = true))
    (a := { now := sampleNow })).tail (.login true ⟨false, []⟩ ⟨none, none⟩ (.ok ()) sampleIv (List.replicate 32 1)
      (List.replicate 64 2) begun (some sampleTransaction) rfl)
  have hrequest := (hlogin.tail (.deliver [] [] true begun.cookies rfl)).tail
    (.request true (some (js "c")) (some sampleTransaction.state))
  have hcallback := hrequest.tail (.callback [] [] sampleRequest sampleReplies sampleIv sampleCompleted
    (some (sampleSignIn, 60)) rfl sampleCompleted_answers)
  exact ⟨_, hcallback.tail (.deliver [] [] true sampleCompleted.cookies rfl), rfl, rfl⟩

theorem session_from_own_login_sample : ∃ s : LoginWorld Bool, LoginReachable sampleLibrary (· = true) sampleNow s ∧
    ∃ value, s.jars true .session = some value ∧
      getStoredSession sampleLibrary s.seals sampleNow (some value) = .ok sampleSignIn.json := by
  obtain ⟨s, hreachable, hcallbacks, hjar⟩ := sampleSignedIn
  obtain ⟨l, -, c, hc, -, -, -, -, -, haccepted⟩ :=
    session_from_own_login sampleGcm_authentic hreachable (b := true) rfl hjar
  rw [hcallbacks, List.mem_singleton] at hc
  subst hc
  exact ⟨s, hreachable, _, hjar, (haccepted sampleNow).trans (congrArg _ (if_pos (by decide)))⟩

end NetopsCopilot
