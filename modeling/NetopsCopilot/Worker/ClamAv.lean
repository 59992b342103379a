import NetopsCopilot.Lib.Framing
import NetopsCopilot.Python.Streams
import NetopsCopilot.Worker.ArtifactProcessing

/-!
# Scanning with clamd (`netops_worker/clamav.py`)

The scanner sends a stream in chunks, each behind its length, and reads an answer up to its first NUL. What is
sent decodes to the whole stream however the stream is cut, and the answer is read alike however it is cut, so
the verdict is a function of the two byte sequences (`scan_spec`).
-/

namespace NetopsCopilot

/-! ### The scanner -/

def chunkSize : Nat := 64 * 1024

def maxResponseBytes : Nat := 4 * 1024

/-- `b"zINSTREAM\0"`. -/
def instreamCommand : Bytes := ascii "zINSTREAM" ++ [0]

/-- `struct.pack("!I", n)`. -/
def packLength (n : Nat) : Bytes := Framing.bigEndian 4 n

def ScanResult.sizeLimitExceeded : ScanResult := ⟨.rejected, py "scan.size_limit_exceeded", by decide⟩

def ScanResult.unavailable : ScanResult := ⟨.unavailable, py "scan.unavailable", by decide⟩

theorem safeCode_clean : validateSafeCode (py "scan.clean") = true := by decide

theorem safeCode_malwareDetected : validateSafeCode (py "scan.malware_detected") = true := by decide

/-- `_parse_response`. -/
def parseResponse (response : Bytes) : ScanResult :=
  let normalized := stripBytes response
  if ascii ": OK" <:+ normalized then ⟨.clean, py "scan.clean", safeCode_clean⟩
  else if ascii " FOUND" <:+ normalized then
    ⟨.rejected, py "scan.malware_detected", safeCode_malwareDetected⟩
  else .unavailable

section

variable {σ κ : Type} (source : ByteStream σ) (connection : Connection κ) (maxScanBytes : Nat)

/-- The loop that sends the chunks: whether the whole stream was within the limit. -/
def sendChunks (scanned : Nat) (s : σ) (k : κ) : Except StreamError Bool × σ × κ :=
  match _h : source.read chunkSize s with
  | (.error e, s') => (.error e, s', k)
  | (.ok chunk, s') =>
    if _hne : chunk = [] then (.ok true, s', k)
    else if maxScanBytes < scanned + chunk.length then (.ok false, s', k)
    else
      match connection.sendall (packLength chunk.length) k with
      | (.error e, k') => (.error e, s', k')
      | (.ok (), k') =>
        match connection.sendall chunk k' with
        | (.error e, k'') => (.error e, s', k'')
        | (.ok (), k'') => sendChunks (scanned + chunk.length) s' k''
termination_by (source.remaining s).length
decreasing_by
  have hread := (source.read_ok _h).1
  rw [hread, List.length_append]
  have hpos := List.length_pos_iff.mpr _hne
  omega

/-- `_scan_stream` up to the end of the request. -/
def sendRequest (s : σ) (k : κ) : Except StreamError Bool × σ × κ :=
  match connection.sendall instreamCommand k with
  | (.error e, k') => (.error e, s, k')
  | (.ok (), k') =>
    match sendChunks source connection maxScanBytes 0 s k' with
    | (.error e, s', k'') => (.error e, s', k'')
    | (.ok false, s', k'') => (.ok false, s', k'')
    | (.ok true, s', k'') =>
      match connection.sendall (packLength 0) k'' with
      | (.error e, k''') => (.error e, s', k''')
      | (.ok (), k''') => (.ok true, s', k''')

/-- `_read_response`, with what has been received. -/
def readResponse (response : Bytes) (k : κ) : Except StreamError Bytes × κ :=
  if _hroom : response.length < maxResponseBytes then
    match connection.read (min 512 (maxResponseBytes - response.length)) k with
    | (.error e, k') => (.error e, k')
    | (.ok fragment, k') =>
      if _hne : fragment = [] then (.error .osError, k')
      else if 0 ∈ fragment then (.ok ((response ++ fragment).takeWhile (· != 0)), k')
      else readResponse (response ++ fragment) k'
  else (.error .osError, k)
termination_by maxResponseBytes - response.length
decreasing_by
  have hpos := List.length_pos_iff.mpr _hne
  rw [List.length_append]
  omega

/-- `_scan_stream`. -/
def scanStream (s : σ) (k : κ) : Except StreamError ScanResult × σ × κ :=
  match sendRequest source connection maxScanBytes s k with
  | (.error e, s', k') => (.error e, s', k')
  | (.ok false, s', k') => (.ok .sizeLimitExceeded, s', k')
  | (.ok true, s', k') =>
    match readResponse connection [] k' with
    | (.error e, k'') => (.error e, s', k'')
    | (.ok response, k'') => (.ok (parseResponse response), s', k'')

/-- The `try` statement of `scan`. -/
def failClosed : Except StreamError ScanResult → Except StreamError ScanResult
  | .error .osError | .error .valueError => .ok .unavailable
  | result => result

/-- `scan`, with what opening the artifact and the connection gives. -/
def scan (opened : Except StreamError σ) (connected : Except StreamError κ) : Except StreamError ScanResult :=
  failClosed <|
    match opened with
    | .error e => .error e
    | .ok s =>
      match connected with
      | .error e => closing (source.close s) (.error e)
      | .ok k =>
        match scanStream source connection maxScanBytes s k with
        | (result, s', k') => closing (source.close s') (closing (connection.close k') result)

end

/-! ### What the scanner is for -/

/-- The stream that an `INSTREAM` request carries. -/
def decodeInstream (request : Bytes) : Option Bytes :=
  if instreamCommand <+: request then Framing.unframe 4 (request.drop instreamCommand.length) else none

/-- The text of an answer: what stands before its first NUL, which is among the first 4096 bytes. -/
def responseText (response : Bytes) : Option Bytes :=
  if 0 ∈ response.take maxResponseBytes then some (response.takeWhile (· != 0)) else none

/-- The verdict on a stream and the daemon's answer. -/
def verdict (maxScanBytes : Nat) (contents response : Bytes) : ScanResult :=
  if maxScanBytes < contents.length then .sizeLimitExceeded
  else match responseText response with
    | none => .unavailable
    | some text => parseResponse text

/-! ### Sending -/

section

variable {σ κ : Type} {source : ByteStream σ} {connection : Connection κ} {maxScanBytes : Nat}

theorem chunk_fits {chunk : Bytes} (hne : chunk ≠ []) (hlength : chunk.length ≤ chunkSize) :
    Framing.Fits 4 chunk := by
  refine ⟨hne, Nat.lt_of_le_of_lt hlength ?_⟩
  decide

/-- The chunks of a stream that is within the limit are sent behind their lengths. -/
theorem sendChunks_ok {scanned : Nat} {s s' : σ} {k k' : κ}
    (h : sendChunks source connection maxScanBytes scanned s k = (.ok true, s', k'))
    (hscanned : scanned ≤ maxScanBytes) :
    ∃ chunks : List Bytes, (∀ chunk ∈ chunks, Framing.Fits 4 chunk) ∧ source.remaining s = chunks.flatten ∧
      connection.sent k' = connection.sent k ++ chunks.flatMap (Framing.frame 4) ∧
      scanned + (source.remaining s).length ≤ maxScanBytes := by
  fun_induction sendChunks source connection maxScanBytes scanned s k with
  | case1 => cases h
  | case2 scanned s k s₁ hread =>
    cases h
    have hnil := (source.read_ok hread).2.2 (by decide) rfl
    refine ⟨[], nofun, hnil, (List.append_nil _).symm, ?_⟩
    rw [hnil]
    exact hscanned
  | case3 => cases h
  | case4 => cases h
  | case5 => cases h
  | case6 scanned s k chunk s₁ hread hne hlimit k₁ hlength k₂ hchunk ih =>
    obtain ⟨hremaining, hsize, -⟩ := source.read_ok hread
    obtain ⟨chunks, hfits, hrest, hsent, hle⟩ := ih h (by omega)
    refine ⟨chunk :: chunks, List.forall_mem_cons.mpr ⟨chunk_fits hne hsize, hfits⟩, ?_, ?_, ?_⟩
    · rw [hremaining, hrest, List.flatten_cons]
    · rw [hsent, connection.sendall_ok hchunk, connection.sendall_ok hlength, List.flatMap_cons, Framing.frame,
        packLength]
      simp only [List.append_assoc]
    · rw [hremaining, List.length_append]
      omega

/-- Without faults the loop sends the stream unless it crosses the limit. -/
theorem sendChunks_reliable (maxScanBytes : Nat) (hsource : source.Reliable) (hconnection : connection.Reliable) {scanned : Nat}
    (s : σ) (k : κ) (hscanned : scanned ≤ maxScanBytes) :
    ∃ s' k', sendChunks source connection maxScanBytes scanned s k =
        (.ok (decide (scanned + (source.remaining s).length ≤ maxScanBytes)), s', k') ∧
      connection.remaining k' = connection.remaining k := by
  fun_induction sendChunks source connection maxScanBytes scanned s k with
  | case1 scanned s k e s₁ hread =>
    obtain ⟨v, s', hok⟩ := hsource.read chunkSize s
    rw [hread] at hok
    cases hok
  | case2 scanned s k s₁ hread =>
    have hnil := (source.read_ok hread).2.2 (by decide) rfl
    refine ⟨s₁, k, ?_, rfl⟩
    rw [hnil, List.length_nil, Nat.add_zero, decide_eq_true hscanned]
  | case3 scanned s k chunk s₁ hread hne hlimit =>
    obtain ⟨hremaining, -, -⟩ := source.read_ok hread
    have hexceeds : ¬scanned + (source.remaining s).length ≤ maxScanBytes := by
      rw [hremaining, List.length_append]
      omega
    exact ⟨s₁, k, by rw [decide_eq_false hexceeds], rfl⟩
  | case4 scanned s k chunk s₁ hread hne hlimit e k₁ hlength =>
    obtain ⟨k', hok, -⟩ := hconnection.sends (packLength chunk.length) k
    rw [hlength] at hok
    cases hok
  | case5 scanned s k chunk s₁ hread hne hlimit k₁ hlength e k₂ hchunk =>
    obtain ⟨k', hok, -⟩ := hconnection.sends chunk k₁
    rw [hchunk] at hok
    cases hok
  | case6 scanned s k chunk s₁ hread hne hlimit k₁ hlength k₂ hchunk ih =>
    obtain ⟨s', k', hrun, hkeeps⟩ := ih (by omega)
    obtain ⟨k₁', hok₁, hkeeps₁⟩ := hconnection.sends (packLength chunk.length) k
    obtain ⟨k₂', hok₂, hkeeps₂⟩ := hconnection.sends chunk k₁
    rw [hlength] at hok₁
    rw [hchunk] at hok₂
    cases hok₁
    cases hok₂
    refine ⟨s', k', ?_, by rw [hkeeps, hkeeps₂, hkeeps₁]⟩
    rw [hrun, (source.read_ok hread).1, List.length_append, Nat.add_assoc]

/-- What has been sent with the end of the request decodes to the stream. -/
theorem sendRequest_ok {s s' : σ} {k k' : κ}
    (h : sendRequest source connection maxScanBytes s k = (.ok true, s', k')) :
    ∃ request, connection.sent k' = connection.sent k ++ request ∧
      decodeInstream request = some (source.remaining s) ∧ (source.remaining s).length ≤ maxScanBytes := by
  unfold sendRequest at h
  split at h
  · cases h
  next k₁ hcommand =>
    split at h
    · cases h
    · cases h
    next s₂ k₂ hchunks =>
      split at h
      · cases h
      next k₃ hend =>
        cases h
        obtain ⟨chunks, hfits, hstream, hsent, hle⟩ := sendChunks_ok hchunks (Nat.zero_le _)
        refine ⟨instreamCommand ++ Framing.frames 4 chunks, ?_, ?_, by omega⟩
        · rw [connection.sendall_ok hend, hsent, connection.sendall_ok hcommand, Framing.frames, packLength]
          simp only [List.append_assoc]
        · unfold decodeInstream
          rw [if_pos (List.prefix_append _ _), List.drop_left, Framing.unframe_frames hfits, hstream]

theorem sendRequest_reliable (maxScanBytes : Nat) (hsource : source.Reliable) (hconnection : connection.Reliable) (s : σ) (k : κ) :
    ∃ s' k', sendRequest source connection maxScanBytes s k =
        (.ok (decide ((source.remaining s).length ≤ maxScanBytes)), s', k') ∧
      connection.remaining k' = connection.remaining k := by
  obtain ⟨k₁, hcommand, hkeeps₁⟩ := hconnection.sends instreamCommand k
  obtain ⟨s₂, k₂, hchunks, hkeeps₂⟩ := sendChunks_reliable maxScanBytes hsource hconnection s k₁
    (Nat.zero_le _)
  obtain ⟨k₃, hend, hkeeps₃⟩ := hconnection.sends (packLength 0) k₂
  unfold sendRequest
  rw [hcommand]
  dsimp only
  rw [hchunks, Nat.zero_add]
  by_cases hle : (source.remaining s).length ≤ maxScanBytes
  · rw [decide_eq_true hle]
    dsimp only
    rw [hend]
    exact ⟨s₂, k₃, rfl, by rw [hkeeps₃, hkeeps₂, hkeeps₁]⟩
  · rw [decide_eq_false hle]
    exact ⟨s₂, k₂, rfl, by rw [hkeeps₂, hkeeps₁]⟩

/-! ### Receiving -/

/-- A NUL among the first bytes of an answer is where it has been found. -/
theorem responseText_of_mem {received rest : Bytes} (hlength : received.length ≤ maxResponseBytes)
    (hmem : 0 ∈ received) : responseText (received ++ rest) = some (received.takeWhile (· != 0)) := by
  have htake : 0 ∈ (received ++ rest).take maxResponseBytes := by
    rw [List.take_append]
    refine List.mem_append_left _ ?_
    rwa [List.take_of_length_le hlength]
  have hwhile : (received ++ rest).takeWhile (· != 0) = received.takeWhile (· != 0) := by
    rw [List.takeWhile_append, if_neg]
    intro hall
    have hself : received.takeWhile (· != 0) = received := (List.takeWhile_prefix _).eq_of_length hall
    have hzero := List.mem_takeWhile_imp (hself.symm ▸ hmem)
    simp at hzero
  unfold responseText
  rw [if_pos htake, hwhile]

/-- The answer is cut at its first NUL, wherever the fragments are cut. -/
theorem readResponse_ok {response text : Bytes} {k k' : κ}
    (h : readResponse connection response k = (.ok text, k')) (hlength : response.length ≤ maxResponseBytes) :
    responseText (response ++ connection.remaining k) = some text ∧ connection.sent k' = connection.sent k := by
  fun_induction readResponse connection response k with
  | case1 => cases h
  | case2 => cases h
  | case3 response k hroom fragment k₁ hread hne hmem =>
    cases h
    obtain ⟨hremaining, hsize, -⟩ := connection.read_ok hread
    refine ⟨?_, connection.read_sent hread⟩
    rw [hremaining, ← List.append_assoc]
    refine responseText_of_mem ?_ (List.mem_append_right _ hmem)
    rw [List.length_append]
    omega
  | case4 response k hroom fragment k₁ hread hne hmem ih =>
    obtain ⟨hremaining, hsize, -⟩ := connection.read_ok hread
    obtain ⟨htext, hsent⟩ := ih h (by rw [List.length_append]; omega)
    rw [hremaining, ← List.append_assoc]
    exact ⟨htext, hsent.trans (connection.read_sent hread)⟩
  | case5 => cases h

/-- Without faults the answer has a text unless it has no NUL within the limit. -/
theorem readResponse_reliable (hconnection : connection.Reliable) {response : Bytes} (k : κ)
    (hlength : response.length ≤ maxResponseBytes) (hresponse : 0 ∉ response) :
    ∃ k', readResponse connection response k =
      ((match responseText (response ++ connection.remaining k) with
        | none => .error .osError
        | some text => .ok text), k') := by
  fun_induction readResponse connection response k with
  | case1 response k hroom e k₁ hread =>
    obtain ⟨v, s', hok⟩ := hconnection.receives.read (min 512 (maxResponseBytes - response.length)) k
    rw [hread] at hok
    cases hok
  | case2 response k hroom k₁ hread =>
    have hnil := (connection.read_ok hread).2.2 (by omega) rfl
    refine ⟨k₁, ?_⟩
    rw [hnil, List.append_nil, responseText, if_neg fun hmem => hresponse (List.mem_of_mem_take hmem)]
  | case3 response k hroom fragment k₁ hread hne hmem =>
    obtain ⟨hremaining, hsize, -⟩ := connection.read_ok hread
    refine ⟨k₁, ?_⟩
    rw [hremaining, ← List.append_assoc, responseText_of_mem _ (List.mem_append_right _ hmem)]
    rw [List.length_append]
    omega
  | case4 response k hroom fragment k₁ hread hne hmem ih =>
    obtain ⟨hremaining, hsize, -⟩ := connection.read_ok hread
    rw [hremaining, ← List.append_assoc]
    refine ih (by rw [List.length_append]; omega) fun h => ?_
    exact (List.mem_append.mp h).elim hresponse hmem
  | case5 response k hroom =>
    have htake : (response ++ connection.remaining k).take maxResponseBytes = response :=
      List.take_left' (by omega)
    refine ⟨k, ?_⟩
    rw [responseText, htake, if_neg hresponse]

/-! ### Main result -/

theorem failClosed_clean {result : Except StreamError ScanResult} {r : ScanResult}
    (h : failClosed result = .ok r) (hr : r.disposition = .clean) : result = .ok r := by
  unfold failClosed at h
  split at h
  · cases h
    cases hr
  · cases h
    cases hr
  · exact h

theorem closing_ok {A : Type} {close : Option StreamError} {body : Except StreamError A} {a : A}
    (h : closing close body = .ok a) : close = none ∧ body = .ok a := by
  unfold closing at h
  split at h
  · cases h
  · exact ⟨rfl, h⟩

theorem parseResponse_clean {text : Bytes} (h : (parseResponse text).disposition = .clean) :
    ascii ": OK" <:+ stripBytes text := by
  unfold parseResponse at h
  dsimp only at h
  split_ifs at h with hok
  · exact hok
  · cases h

/-- A verdict of the stream in the middle of `scan`. -/
theorem scanStream_clean {s s' : σ} {k k' : κ} {r : ScanResult}
    (h : scanStream source connection maxScanBytes s k = (.ok r, s', k')) (hr : r.disposition = .clean) :
    ∃ k₀ text, sendRequest source connection maxScanBytes s k = (.ok true, s', k₀) ∧
      connection.sent k' = connection.sent k₀ ∧ responseText (connection.remaining k₀) = some text ∧
      ascii ": OK" <:+ stripBytes text := by
  unfold scanStream at h
  split at h
  · cases h
  · cases h
    cases hr
  next s₁ k₁ hrequest =>
    split at h
    · cases h
    next response k₂ hread =>
      cases h
      obtain ⟨htext, hsent⟩ := readResponse_ok hread (Nat.zero_le _)
      exact ⟨k₁, response, hrequest, hsent, htext, parseResponse_clean hr⟩

theorem scanStream_reliable (maxScanBytes : Nat) (hsource : source.Reliable) (hconnection : connection.Reliable) (s : σ) (k : κ) :
    ∃ result s' k', scanStream source connection maxScanBytes s k = (result, s', k') ∧
      failClosed result = .ok (verdict maxScanBytes (source.remaining s) (connection.remaining k)) := by
  obtain ⟨s₁, k₁, hrequest, hkeeps⟩ :=
    sendRequest_reliable maxScanBytes hsource hconnection s k
  unfold scanStream verdict
  rw [hrequest]
  by_cases hle : (source.remaining s).length ≤ maxScanBytes
  · obtain ⟨k₂, hread⟩ := readResponse_reliable hconnection k₁
      (show ([] : Bytes).length ≤ maxResponseBytes from Nat.zero_le _) List.not_mem_nil
    rw [decide_eq_true hle, if_neg (Nat.not_lt.mpr hle)]
    dsimp only
    rw [hread, hkeeps, List.nil_append]
    cases responseText (connection.remaining k) with
    | none => exact ⟨_, s₁, k₂, rfl, rfl⟩
    | some text => exact ⟨_, s₁, k₂, rfl, rfl⟩
  · rw [decide_eq_false hle, if_pos (Nat.lt_of_not_le hle)]
    exact ⟨_, s₁, k₁, rfl, rfl⟩

/-- **The scan is sound and does not depend on how its bytes are cut.** Whatever the streams do, a clean verdict
means that an `INSTREAM` request has been sent that decodes to the whole stream, that the stream is within the
limit, and that the daemon's answer, up to a NUL among its first 4096 bytes, ends in `: OK`. Without faults the
verdict is a function of the stream's bytes, the answer's bytes and the limit. -/
theorem scan_spec (source : ByteStream σ) (connection : Connection κ) (maxScanBytes : Nat)
    (opened : Except StreamError σ) (connected : Except StreamError κ) :
    (∀ r, scan source connection maxScanBytes opened connected = .ok r → r.disposition = .clean →
      ∃ s k s' k₀ k' request text, opened = .ok s ∧ connected = .ok k ∧
        sendRequest source connection maxScanBytes s k = (.ok true, s', k₀) ∧
        scanStream source connection maxScanBytes s k = (.ok r, s', k') ∧
        connection.sent k' = connection.sent k ++ request ∧
        decodeInstream request = some (source.remaining s) ∧
        (source.remaining s).length ≤ maxScanBytes ∧
        responseText (connection.remaining k₀) = some text ∧ ascii ": OK" <:+ stripBytes text) ∧
    (source.Reliable → connection.Reliable → ∀ s k, opened = .ok s → connected = .ok k →
      scan source connection maxScanBytes opened connected =
        .ok (verdict maxScanBytes (source.remaining s) (connection.remaining k))) := by
  constructor
  · intro r h hr
    have hbody := failClosed_clean h hr
    split at hbody
    · cases hbody
    next s =>
      split at hbody
      · exact absurd (closing_ok hbody).2 nofun
      next k =>
        rcases hrun : scanStream source connection maxScanBytes s k with ⟨result, s', k'⟩
        rw [hrun] at hbody
        obtain ⟨-, hresult⟩ := closing_ok hbody
        obtain ⟨-, rfl⟩ := closing_ok hresult
        obtain ⟨k₀, text, hrequest, hsent, htext, hok⟩ := scanStream_clean hrun hr
        obtain ⟨request, hrequestSent, hdecode, hle⟩ := sendRequest_ok hrequest
        exact ⟨s, k, s', k₀, k', request, text, rfl, rfl, hrequest, hrun, hsent.trans hrequestSent, hdecode, hle,
          htext, hok⟩
  · rintro hsource hconnection s k rfl rfl
    obtain ⟨result, s', k', hrun, hverdict⟩ :=
      scanStream_reliable maxScanBytes hsource hconnection s k
    unfold scan
    dsimp only
    rw [hrun]
    dsimp only
    rw [hsource.close, hconnection.receives.close]
    exact hverdict

end

/-- A stream in pieces of four bytes and an answer in pieces of two. -/
theorem scan_sample : ∃ r request,
    scan (.paced 3) (.scripted 1) 100 (.ok (ascii "router config")) (.ok ([], ascii "stream: OK" ++ [0])) = .ok r ∧
      r.disposition = .clean ∧ decodeInstream request = some (ascii "router config") := by
  have hspec := scan_spec (.paced 3) (.scripted 1) 100 (.ok (ascii "router config"))
    (.ok ([], ascii "stream: OK" ++ [0]))
  have hscan := hspec.2 (ByteStream.paced_reliable 3) (Connection.scripted_reliable 1) _ _ rfl rfl
  have hclean : (verdict 100 (ascii "router config") (ascii "stream: OK" ++ [0])).disposition = .clean := by
    decide +kernel
  obtain ⟨s, k, s', k₀, k', request, text, hs, -, -, -, -, hdecode, -⟩ := hspec.1 _ hscan hclean
  rw [← Except.ok.inj hs] at hdecode
  exact ⟨_, request, hscan, hclean, hdecode⟩

end NetopsCopilot
