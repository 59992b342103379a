import Mathlib.Algebra.Order.Ring.Rat
import Mathlib.Data.List.Pairwise
import Mathlib.Tactic.Linarith
import NetopsCopilot.Python.Json

/-!
# Signing keys (`RemoteJwksResolver` in `core/auth.py`)

The resolver keeps the keys of one JWKS document and the time at which they expire. The lock makes a call atomic up
to the lookup of its key, so a run is a sequence of calls; a call reads the clock once before its lookup, and once
behind each download that it stores. Times are seconds, and sums of them are exact.
-/

namespace NetopsCopilot

/-- A JSON object. -/
abbrev JsonObject := List (PyStr × Json)

/-- `dict[str, Mapping[str, object]]`. -/
abbrev KeyMap := List (PyStr × JsonObject)

/-- What a call raises. -/
inductive SigningKeyError where
  | authentication
  | authenticationService (message : PyStr)
  /-- An exception of the download that `_download_jwks` does not catch. -/
  | other
deriving DecidableEq

/-- What `urlopen` and `json.load` do. -/
inductive Download where
  | unavailable
  | raises
  | document (payload : Json)

/-! ### A document -/

def malformedResponse : SigningKeyError := .authenticationService (py "The signing-key response is malformed.")

/-- `_download_jwks`. -/
def Download.downloadJwks : Download → Except SigningKeyError JsonObject
  | .unavailable => .error (.authenticationService (py "The signing-key endpoint is unavailable."))
  | .raises => .error .other
  | .document (.obj payload) => .ok payload
  | .document _ => .error malformedResponse

/-- One round of the loop in `_refresh`. -/
def addRawKey (keys : KeyMap) : Json → Except SigningKeyError KeyMap
  | .obj rawKey =>
    match rawKey.lookup (py "kid") with
    | some (.str keyId) =>
      if keyId = [] ∨ (keys.lookup keyId).isSome = true then .error malformedResponse
      else .ok (keys ++ [(keyId, rawKey)])
    | _ => .error malformedResponse
  | _ => .error malformedResponse

/-- The keys of a document. -/
def validatedKeys (payload : JsonObject) : Except SigningKeyError KeyMap :=
  match payload.lookup (py "keys") with
  | some (.arr rawKeys) => rawKeys.foldlM addRawKey []
  | _ => .error malformedResponse

/-! ### The resolver -/

/-- `RemoteJwksResolver`. -/
structure RemoteJwksResolver where
  cacheTtlSeconds : Int := 300
  keys : KeyMap := []
  expiresAt : ℚ := 0

/-- A download, and what `time.monotonic()` shows behind it. -/
structure Refresh where
  download : Download
  storedAt : ℚ

/-- The keys of a download that is stored. -/
def Refresh.keys (x : Refresh) : Except SigningKeyError KeyMap := x.download.downloadJwks >>= validatedKeys

/-- `_refresh`. -/
def RemoteJwksResolver.refresh (r : RemoteJwksResolver) (x : Refresh) :
    Except SigningKeyError Unit × RemoteJwksResolver :=
  match x.keys with
  | .ok keys => (.ok (), { r with keys := keys, expiresAt := x.storedAt + r.cacheTtlSeconds })
  | .error e => (.error e, r)

/-- A call of `get_signing_key`: the clock at its check, and the downloads that it may make. -/
structure SigningKeyCall where
  keyId : PyStr
  checkedAt : ℚ
  first : Refresh
  second : Refresh

/-- What a call answers, the resolver behind it, and the downloads it made. -/
structure SigningKeyReply (Key : Type) where
  outcome : Except SigningKeyError Key
  resolver : RemoteJwksResolver
  refreshes : List Refresh

section

variable {Key : Type} (load : JsonObject → Option Key) (r : RemoteJwksResolver)

/-- `PyJWK.from_dict(dict(jwk)).key`. -/
def loadSigningKey (jwk : JsonObject) : Except SigningKeyError Key :=
  match load jwk with
  | some key => .ok key
  | none => .error (.authenticationService (py "The signing key could not be loaded."))

/-- The lookup of a key: a key that is missing is looked up again behind one more download. -/
def RemoteJwksResolver.lookupKey (keyId : PyStr) (made : List Refresh) (next : Refresh) : SigningKeyReply Key :=
  match r.keys.lookup keyId with
  | some jwk => ⟨loadSigningKey load jwk, r, made⟩
  | none =>
    match r.refresh next with
    | (.error e, r) => ⟨.error e, r, made ++ [next]⟩
    | (.ok (), r) =>
      match r.keys.lookup keyId with
      | some jwk => ⟨loadSigningKey load jwk, r, made ++ [next]⟩
      | none => ⟨.error .authentication, r, made ++ [next]⟩

/-- `get_signing_key`. -/
def RemoteJwksResolver.getSigningKey (call : SigningKeyCall) : SigningKeyReply Key :=
  if r.expiresAt ≤ call.checkedAt then
    match r.refresh call.first with
    | (.error e, r) => ⟨.error e, r, [call.first]⟩
    | (.ok (), r) => r.lookupKey load call.keyId [call.first] call.second
  else r.lookupKey load call.keyId [] call.first

end

/-! ### Runs -/

/-- The clock, as a call reads it: at its check, and behind each download. -/
def SigningKeyCall.readings (call : SigningKeyCall) (refreshes : List Refresh) : List ℚ :=
  call.checkedAt :: refreshes.map Refresh.storedAt

/-- The last reading: the lookup that decides the answer follows it. -/
def SigningKeyCall.lookedUpAt (call : SigningKeyCall) (refreshes : List Refresh) : ℚ :=
  (refreshes.map Refresh.storedAt).getLastD call.checkedAt

/-- A sequence of calls: the resolver behind it, the downloads and the readings of the clock. -/
structure SigningKeyRun where
  resolver : RemoteJwksResolver
  refreshes : List Refresh
  readings : List ℚ

def RemoteJwksResolver.run {Key : Type} (load : JsonObject → Option Key) (r : RemoteJwksResolver) :
    List SigningKeyCall → SigningKeyRun
  | [] => ⟨r, [], []⟩
  | call :: calls =>
    let reply := r.getSigningKey load call
    let rest := reply.resolver.run load calls
    ⟨rest.resolver, reply.refreshes ++ rest.refreshes, call.readings reply.refreshes ++ rest.readings⟩

/-! ### The newest document -/

/-- A document that passed validation, and when it was stored. -/
def Refresh.validated (x : Refresh) : Option (KeyMap × ℚ) :=
  match x.keys with
  | .ok keys => some (keys, x.storedAt)
  | .error _ => none

/-- The most recent document that passed validation. -/
def newestDocument (made : List Refresh) : Option (KeyMap × ℚ) := (made.filterMap Refresh.validated).getLast?

/-- A resolver that has stored a document. -/
def RemoteJwksResolver.holding (r : RemoteJwksResolver) : Option (KeyMap × ℚ) → RemoteJwksResolver
  | none => r
  | some (keys, storedAt) => { r with keys := keys, expiresAt := storedAt + r.cacheTtlSeconds }

section

variable {Key : Type} {load : JsonObject → Option Key} {r : RemoteJwksResolver}

theorem newestDocument_append (a b : List Refresh) :
    newestDocument (a ++ b) = (newestDocument b).or (newestDocument a) := by
  unfold newestDocument
  rw [List.filterMap_append, List.getLast?_append]

theorem holding_append (a b : List Refresh) :
    r.holding (newestDocument (a ++ b)) = (r.holding (newestDocument a)).holding (newestDocument b) := by
  rw [newestDocument_append]
  cases newestDocument b with
  | none => rfl
  | some document =>
    cases newestDocument a <;> rfl

/-- A refresh stores a document that passes validation, and otherwise nothing. -/
theorem refresh_resolver (x : Refresh) : (r.refresh x).2 = r.holding (newestDocument [x]) := by
  unfold RemoteJwksResolver.refresh newestDocument
  rw [List.filterMap_cons, Refresh.validated]
  cases x.keys <;> rfl

theorem refresh_error {x : Refresh} {e : SigningKeyError} (h : (r.refresh x).1 = .error e) : (r.refresh x).2 = r := by
  unfold RemoteJwksResolver.refresh at h ⊢
  cases hkeys : x.keys with
  | error e => rfl
  | ok keys =>
    rw [hkeys] at h
    cases h

/-- A refresh that succeeds gives its document the whole lifetime. -/
theorem refresh_ok {x : Refresh} (h : (r.refresh x).1 = .ok ()) :
    (r.refresh x).2.expiresAt = x.storedAt + r.cacheTtlSeconds := by
  unfold RemoteJwksResolver.refresh at h ⊢
  cases hkeys : x.keys with
  | ok keys => rfl
  | error e =>
    rw [hkeys] at h
    cases h

/-! ### One call -/

theorem loadSigningKey_ok {jwk : JsonObject} {key : Key} (h : loadSigningKey load jwk = .ok key) :
    load jwk = some key := by
  unfold loadSigningKey at h
  cases hload : load jwk with
  | none =>
    rw [hload] at h
    cases h
  | some loaded =>
    rw [hload] at h
    cases h
    rfl

/-- What a reply says about the resolver it was given: `made` has happened to it, and the lookup follows `checkedAt`
and the downloads. -/
structure SigningKeyReply.Sound (load : JsonObject → Option Key) (r : RemoteJwksResolver) (keyId : PyStr)
    (checkedAt : ℚ) (reply : SigningKeyReply Key) : Prop where
  resolver : reply.resolver = r.holding (newestDocument reply.refreshes)
  served : ∀ key, reply.outcome = .ok key → ∃ jwk, reply.resolver.keys.lookup keyId = some jwk ∧ load jwk = some key ∧
    (reply.refreshes.map Refresh.storedAt).getLastD checkedAt < reply.resolver.expiresAt

/-- A lookup in a resolver whose keys are valid. -/
theorem lookupKey_sound {start : RemoteJwksResolver} {made : List Refresh} {checkedAt : ℚ} (keyId : PyStr)
    (next : Refresh) (httl : 0 < r.cacheTtlSeconds) (hmade : r = start.holding (newestDocument made))
    (hvalid : (made.map Refresh.storedAt).getLastD checkedAt < r.expiresAt) :
    (r.lookupKey load keyId made next).Sound load start keyId checkedAt := by
  have hafter : (r.refresh next).2 = start.holding (newestDocument (made ++ [next])) := by
    rw [holding_append, ← hmade, refresh_resolver]
  unfold RemoteJwksResolver.lookupKey
  cases hkey : r.keys.lookup keyId with
  | some jwk =>
    exact ⟨hmade, fun key hok => ⟨jwk, hkey, loadSigningKey_ok hok, hvalid⟩⟩
  | none =>
    dsimp only
    have hexpires := @refresh_ok r next
    rcases hrefresh : r.refresh next with ⟨outcome, r'⟩
    rw [hrefresh] at hafter hexpires
    cases outcome with
    | error e => exact ⟨hafter, fun key hok => by cases hok⟩
    | ok =>
      dsimp only at hafter hexpires ⊢
      cases hkey' : r'.keys.lookup keyId with
      | none => exact ⟨hafter, fun key hok => by cases hok⟩
      | some jwk =>
        refine ⟨hafter, fun key hok => ⟨jwk, hkey', loadSigningKey_ok hok, ?_⟩⟩
        have hlast : ((made ++ [next]).map Refresh.storedAt).getLastD checkedAt = next.storedAt := by
          simp
        have hpos : (0 : ℚ) < r.cacheTtlSeconds := by exact_mod_cast httl
        dsimp only
        rw [hlast, hexpires rfl]
        linarith

theorem getSigningKey_sound (httl : 0 < r.cacheTtlSeconds) (call : SigningKeyCall) :
    (r.getSigningKey load call).Sound load r call.keyId call.checkedAt := by
  unfold RemoteJwksResolver.getSigningKey
  by_cases hexpired : r.expiresAt ≤ call.checkedAt
  · rw [if_pos hexpired]
    have hafter := @refresh_resolver r call.first
    have hexpires := @refresh_ok r call.first
    rcases hrefresh : r.refresh call.first with ⟨outcome, r'⟩
    rw [hrefresh] at hafter hexpires
    cases outcome with
    | error e => exact ⟨hafter, fun key hok => by cases hok⟩
    | ok =>
      dsimp only at hafter hexpires ⊢
      have hkept : r'.cacheTtlSeconds = r.cacheTtlSeconds := by
        rw [hafter]
        cases newestDocument [call.first] <;> rfl
      have hpos : (0 : ℚ) < r.cacheTtlSeconds := by exact_mod_cast httl
      refine lookupKey_sound call.keyId call.second (by omega) hafter ?_
      show call.first.storedAt < r'.expiresAt
      rw [hexpires rfl]
      linarith
  · rw [if_neg hexpired]
    exact lookupKey_sound call.keyId call.first httl rfl (not_le.mp hexpired)

theorem length_lookupKey (keyId : PyStr) (made : List Refresh) (next : Refresh) :
    (r.lookupKey load keyId made next).refreshes.length ≤ made.length + 1 := by
  unfold RemoteJwksResolver.lookupKey
  split
  · simp
  · split
    · simp
    · split <;> simp

theorem length_getSigningKey (call : SigningKeyCall) : (r.getSigningKey load call).refreshes.length ≤ 2 := by
  unfold RemoteJwksResolver.getSigningKey
  split
  · split
    · simp
    · exact length_lookupKey _ _ _
  · exact (length_lookupKey _ _ _).trans (by simp)

/-! ### A run -/

theorem run_append (calls calls' : List SigningKeyCall) : r.run load (calls ++ calls') =
    ⟨((r.run load calls).resolver.run load calls').resolver,
      (r.run load calls).refreshes ++ ((r.run load calls).resolver.run load calls').refreshes,
      (r.run load calls).readings ++ ((r.run load calls).resolver.run load calls').readings⟩ := by
  induction calls generalizing r with
  | nil => rfl
  | cons call calls ih =>
    rw [List.cons_append, RemoteJwksResolver.run, RemoteJwksResolver.run, ih]
    simp only [List.append_assoc]

theorem run_singleton (call : SigningKeyCall) : r.run load [call] =
    ⟨(r.getSigningKey load call).resolver, (r.getSigningKey load call).refreshes,
      call.readings (r.getSigningKey load call).refreshes⟩ := by
  simp [RemoteJwksResolver.run]

theorem holding_ttl (document : Option (KeyMap × ℚ)) : (r.holding document).cacheTtlSeconds = r.cacheTtlSeconds := by
  cases document <;> rfl

/-- A run leaves the resolver with the newest document of its downloads. -/
theorem run_resolver (httl : 0 < r.cacheTtlSeconds) (calls : List SigningKeyCall) :
    (r.run load calls).resolver = r.holding (newestDocument (r.run load calls).refreshes) := by
  induction calls generalizing r with
  | nil => rfl
  | cons call calls ih =>
    have hstep : (r.getSigningKey load call).resolver = _ := (getSigningKey_sound httl call).resolver
    rw [RemoteJwksResolver.run]
    dsimp only
    rw [ih (by rw [hstep, holding_ttl]; exact httl), holding_append, ← hstep]

theorem le_lookedUpAt {before : List ℚ} {call : SigningKeyCall} {refreshes : List Refresh} {t : ℚ}
    (hclock : (before ++ call.readings refreshes).Pairwise (· ≤ ·)) (ht : t ∈ before ++ call.readings refreshes) :
    t ≤ call.lookedUpAt refreshes := by
  have hlast : (before ++ call.readings refreshes).getLast? = some (call.lookedUpAt refreshes) := by
    rw [List.getLast?_append, SigningKeyCall.readings, List.getLast?_cons, SigningKeyCall.lookedUpAt,
      List.getLastD_eq_getLast?]
    rfl
  have h := hclock.rel_getLast ht
  rw [List.getLast?_eq_some_getLast (List.ne_nil_of_mem ht), Option.some_inj] at hlast
  rwa [hlast] at h

end

/-! ### Which keys are served -/

section

variable {Key : Type} (load : JsonObject → Option Key) (ttl : Int)

/-- What `calls` leave for the next call. -/
def signingKeyRun (calls : List SigningKeyCall) : SigningKeyRun :=
  RemoteJwksResolver.run load { cacheTtlSeconds := ttl } calls

/-- The answer to a call that follows others. -/
def signingKeyReply (calls : List SigningKeyCall) (call : SigningKeyCall) : SigningKeyReply Key :=
  (signingKeyRun load ttl calls).resolver.getSigningKey load call

/-- The newest document at the lookup of a call. -/
def documentAtLookup (calls : List SigningKeyCall) (call : SigningKeyCall) : Option (KeyMap × ℚ) :=
  newestDocument ((signingKeyRun load ttl calls).refreshes ++ (signingKeyReply load ttl calls call).refreshes)

/-- A call that follows others serves the newest document. -/
structure ServesNewest (calls : List SigningKeyCall) (call : SigningKeyCall) : Prop where
  /-- A key is the entry of the newest document, which is valid at the check and at the lookup. -/
  served : ∀ key, (signingKeyReply load ttl calls call).outcome = .ok key →
    ∃ keys storedAt jwk, documentAtLookup load ttl calls call = some (keys, storedAt) ∧
      keys.lookup call.keyId = some jwk ∧ load jwk = some key ∧ call.checkedAt < storedAt + ttl ∧
      call.lookedUpAt (signingKeyReply load ttl calls call).refreshes < storedAt + ttl
  /-- A key that the newest document does not have is not served. -/
  absent : ∀ keys storedAt, documentAtLookup load ttl calls call = some (keys, storedAt) →
    keys.lookup call.keyId = none → ∀ key, (signingKeyReply load ttl calls call).outcome ≠ .ok key
  /-- The resolver holds the newest document, whatever failed before or after it. -/
  kept : (signingKeyRun load ttl calls).resolver =
    RemoteJwksResolver.holding { cacheTtlSeconds := ttl } (newestDocument (signingKeyRun load ttl calls).refreshes)
  /-- A refresh that fails leaves the resolver as it is. -/
  failed : ∀ x e, ((signingKeyRun load ttl calls).resolver.refresh x).1 = .error e →
    ((signingKeyRun load ttl calls).resolver.refresh x).2 = (signingKeyRun load ttl calls).resolver
  /-- From the check that finds the keys expired no key is served, unless a refresh succeeds. -/
  expired : ∀ earlier first later, calls ++ [call] = earlier ++ first :: later →
    (signingKeyRun load ttl earlier).resolver.expiresAt ≤ first.checkedAt →
    newestDocument ((signingKeyRun load ttl earlier).resolver.run load (first :: later)).refreshes = none →
    ∀ key, (signingKeyReply load ttl calls call).outcome ≠ .ok key
  downloads : (signingKeyReply load ttl calls call).refreshes.length ≤ 2

variable {load ttl}

theorem signingKeyRun_concat (calls : List SigningKeyCall) (call : SigningKeyCall) :
    signingKeyRun load ttl (calls ++ [call]) =
      ⟨(signingKeyReply load ttl calls call).resolver,
        (signingKeyRun load ttl calls).refreshes ++ (signingKeyReply load ttl calls call).refreshes,
        (signingKeyRun load ttl calls).readings ++ call.readings (signingKeyReply load ttl calls call).refreshes⟩ := by
  unfold signingKeyRun signingKeyReply
  rw [run_append, run_singleton]
  rfl

/-- **In every run whose clock does not go back, a call serves the newest document.** -/
theorem get_signing_key_serves_newest (httl : 0 < ttl) (calls : List SigningKeyCall) (call : SigningKeyCall)
    (hclock : (signingKeyRun load ttl (calls ++ [call])).readings.Pairwise (· ≤ ·)) :
    ServesNewest load ttl calls call := by
  let start : RemoteJwksResolver := { cacheTtlSeconds := ttl }
  have hbefore : (signingKeyRun load ttl calls).resolver =
      start.holding (newestDocument (signingKeyRun load ttl calls).refreshes) := run_resolver httl calls
  have hpos : 0 < (signingKeyRun load ttl calls).resolver.cacheTtlSeconds := by
    rw [hbefore, holding_ttl]
    exact httl
  have hsound : (signingKeyReply load ttl calls call).Sound load (signingKeyRun load ttl calls).resolver call.keyId
      call.checkedAt := getSigningKey_sound hpos call
  have hafter : (signingKeyReply load ttl calls call).resolver =
      start.holding (documentAtLookup load ttl calls call) := by
    have hrun : (signingKeyRun load ttl (calls ++ [call])).resolver =
        start.holding (newestDocument (signingKeyRun load ttl (calls ++ [call])).refreshes) := run_resolver httl _
    rw [signingKeyRun_concat] at hrun
    exact hrun
  have hserved : ∀ key, (signingKeyReply load ttl calls call).outcome = .ok key →
      ∃ keys storedAt jwk, documentAtLookup load ttl calls call = some (keys, storedAt) ∧
        keys.lookup call.keyId = some jwk ∧ load jwk = some key ∧
        call.lookedUpAt (signingKeyReply load ttl calls call).refreshes < storedAt + ttl := by
    intro key hok
    obtain ⟨jwk, hjwk, hload, hvalid⟩ := hsound.served key hok
    change (signingKeyReply load ttl calls call).resolver.keys.lookup call.keyId = some jwk at hjwk
    change call.lookedUpAt _ < (signingKeyReply load ttl calls call).resolver.expiresAt at hvalid
    rw [hafter] at hjwk hvalid
    cases hdocument : documentAtLookup load ttl calls call with
    | none =>
      rw [hdocument] at hjwk
      cases hjwk
    | some document =>
      rw [hdocument] at hjwk hvalid
      exact ⟨document.1, document.2, jwk, rfl, hjwk, hload, hvalid⟩
  rw [signingKeyRun_concat] at hclock
  refine ⟨fun key hok => ?_, fun keys storedAt hdocument habsent key hok => ?_, hbefore,
    fun x e herror => refresh_error herror, fun earlier first later hcalls hexpired hnone key hok => ?_,
    length_getSigningKey call⟩
  · obtain ⟨keys, storedAt, jwk, hdocument, hjwk, hload, hvalid⟩ := hserved key hok
    refine ⟨keys, storedAt, jwk, hdocument, hjwk, hload, lt_of_le_of_lt ?_ hvalid, hvalid⟩
    exact le_lookedUpAt hclock (by simp [SigningKeyCall.readings])
  · obtain ⟨keys', storedAt', jwk, hdocument', hjwk, -, -⟩ := hserved key hok
    rw [hdocument, Option.some_inj, Prod.mk_inj] at hdocument'
    rw [← hdocument'.1, habsent] at hjwk
    cases hjwk
  · -- the resolver of the last lookup is the one that the first check found expired
    have hconcat : signingKeyRun load ttl (calls ++ [call]) = _ := signingKeyRun_concat calls call
    have hsplit : signingKeyRun load ttl (earlier ++ first :: later) = _ := run_append earlier (first :: later)
    rw [hcalls, hsplit, SigningKeyRun.mk.injEq] at hconcat
    obtain ⟨hresolver, -, hreadings⟩ := hconcat
    have hearlier : (signingKeyRun load ttl earlier).resolver =
        start.holding (newestDocument (signingKeyRun load ttl earlier).refreshes) := run_resolver httl earlier
    have hkeptTtl : 0 < (signingKeyRun load ttl earlier).resolver.cacheTtlSeconds := by
      rw [hearlier, holding_ttl]
      exact httl
    have hunchanged : ((signingKeyRun load ttl earlier).resolver.run load (first :: later)).resolver = _ :=
      run_resolver hkeptTtl (first :: later)
    rw [hnone] at hunchanged
    obtain ⟨jwk, -, -, hvalid⟩ := hsound.served key hok
    change call.lookedUpAt _ < (signingKeyReply load ttl calls call).resolver.expiresAt at hvalid
    rw [← hresolver] at hvalid
    have hfirst : first.checkedAt ≤ call.lookedUpAt (signingKeyReply load ttl calls call).refreshes := by
      refine le_lookedUpAt hclock ?_
      rw [← hreadings]
      simp [RemoteJwksResolver.run, SigningKeyCall.readings]
    have hkept : ((signingKeyRun load ttl earlier).resolver.run load (first :: later)).resolver.expiresAt =
        (signingKeyRun load ttl earlier).resolver.expiresAt := by
      rw [hunchanged]
      rfl
    have hvalid' : call.lookedUpAt (signingKeyReply load ttl calls call).refreshes <
        (signingKeyRun load ttl earlier).resolver.expiresAt := by
      rw [← hkept]
      exact hvalid
    linarith

end

/-- A document with one key. -/
def sampleJwks : Json :=
  .obj [(py "keys", .arr [.obj [(py "kid", .str (py "a")), (py "kty", .str (py "RSA"))]])]

/-- The first call stores a document; the second finds its key in it, and the third asks for another key. -/
theorem get_signing_key_serves_newest_sample :
    ServesNewest (fun jwk => jwk.lookup (py "kty")) 300
      [⟨py "a", 10, ⟨.document sampleJwks, 11⟩, ⟨.unavailable, 12⟩⟩, ⟨py "a", 20, ⟨.raises, 21⟩, ⟨.raises, 22⟩⟩]
      ⟨py "b", 30, ⟨.document sampleJwks, 31⟩, ⟨.unavailable, 32⟩⟩ := by
  refine get_signing_key_serves_newest (by decide) _ _ ?_
  have hreadings : (signingKeyRun (fun jwk => jwk.lookup (py "kty")) 300
      ([⟨py "a", 10, ⟨.document sampleJwks, 11⟩, ⟨.unavailable, 12⟩⟩, ⟨py "a", 20, ⟨.raises, 21⟩, ⟨.raises, 22⟩⟩] ++
        [⟨py "b", 30, ⟨.document sampleJwks, 31⟩, ⟨.unavailable, 32⟩⟩])).readings = [10, 11, 20, 30, 31] := by
    decide +kernel
  rw [hreadings]
  decide

end NetopsCopilot
