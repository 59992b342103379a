import NetopsCopilot.Worker.ClamAv
import NetopsCopilot.Worker.ConfigRedaction

/-!
# Processing an artifact (`ArtifactProcessor` in `netops_worker/artifact_processing.py`)

The processor scans an artifact, and redacts it behind a clean verdict only. With the scanner and the redactor of the
worker, nothing is written of an artifact unless the daemon was sent the whole of it and passed it
(`derivative_behind_scan`), and what is written is what the preview shows of the same text (`stored_is_previewed`).
-/

namespace NetopsCopilot

/-! ### The processor -/

/-- `ArtifactProcessingResult`, with its redaction. -/
structure ProcessedArtifact extends ArtifactProcessingResult where
  redaction : Option DerivativeResult

/-- What `process` raises. -/
inductive ProcessError where
  | scanner (e : StreamError)
  | redactor (e : RedactError)

/-- The ports of `ArtifactProcessor`; `redact` comes with the calls of the private writer. -/
structure ArtifactProcessor where
  scan : ConfigRedactionJob → Except StreamError ScanResult
  redact : ConfigRedactionJob → Except RedactError DerivativeResult × List DerivativeWrite

/-- `ArtifactProcessor.process`. -/
def ArtifactProcessor.process (processor : ArtifactProcessor) (job : ConfigRedactionJob) :
    Except ProcessError ProcessedArtifact × List DerivativeWrite :=
  match processor.scan job with
  | .error e => (.error (.scanner e), [])
  | .ok scan =>
    if scan.disposition ≠ .clean then (.ok ⟨⟨job.artifactId, scan⟩, none⟩, [])
    else
      match processor.redact job with
      | (.error e, calls) => (.error (.redactor e), calls)
      | (.ok redaction, calls) => (.ok ⟨⟨job.artifactId, scan⟩, some redaction⟩, calls)

/-- What `ClamAvArtifactScanner` and `ConfigDerivativeRedactor` are built with. -/
structure WorkerPorts (σ κ : Type) where
  source : ByteStream σ
  connection : Connection κ
  openForScan : ConfigRedactionJob → Except StreamError σ
  createConnection : Except StreamError κ
  openForRedaction : ConfigRedactionJob → Except StreamError σ
  writeRedactedConfig : DerivativeWrite → Except RedactError RedactedDerivativeMetadata
  maxScanBytes : Nat
  maxSourceBytes : Nat

section

variable (U : UnicodeData) (sha256Hex : Bytes → PyStr) {σ κ : Type} (ports : WorkerPorts σ κ)

/-- The processor with the scanner and the redactor of the worker. -/
def WorkerPorts.processor : ArtifactProcessor where
  scan job := scan ports.source ports.connection ports.maxScanBytes (ports.openForScan job) ports.createConnection
  redact job := redact U sha256Hex ports.source ports.writeRedactedConfig ports.maxSourceBytes
    (ports.openForRedaction job) job

/-- The daemon was sent the whole stream, within the limit, and has answered with `: OK`. -/
def WorkerPorts.Passed (job : ConfigRedactionJob) : Prop :=
  ∃ s k s' k₀ request text, ports.openForScan job = .ok s ∧ ports.createConnection = .ok k ∧
    sendRequest ports.source ports.connection ports.maxScanBytes s k = (.ok true, s', k₀) ∧
    ports.connection.sent k₀ = ports.connection.sent k ++ request ∧
    decodeInstream request = some (ports.source.remaining s) ∧
    (ports.source.remaining s).length ≤ ports.maxScanBytes ∧
    responseText (ports.connection.remaining k₀) = some text ∧ ascii ": OK" <:+ stripBytes text

/-- A call of the writer with the derivative of a text. -/
structure DerivesFrom (job : ConfigRedactionJob) (text : PyStr) (call : DerivativeWrite) : Prop where
  job : call.job = job
  derivative : encodeUtf8 (redactCiscoConfig U text).content = some call.derivative
  digest : call.derivativeSha256Hex = sha256Hex call.derivative
  byteSize : call.byteSize = call.derivative.length
  version : call.redactionVersion = configRedactionVersion
  report : call.report = (redactCiscoConfig U text).report

/-- The text of what the redactor has read of the artifact. -/
def WorkerPorts.ReadText (job : ConfigRedactionJob) (text : PyStr) : Prop :=
  ∃ s s' value, ports.openForRedaction job = .ok s ∧
    ports.source.read (ports.maxSourceBytes + 1) s = (.ok value, s') ∧ ports.source.close s' = none ∧ value ≠ [] ∧
    value.length ≤ ports.maxSourceBytes ∧ decodeUtf8 value = some text

/-- How a run of the redactor ends: with an exception and no call, or with one call of the writer; it returns what the
writer has stored if this is what it was given. -/
inductive RedactionEnds (job : ConfigRedactionJob) : Except RedactError DerivativeResult × List DerivativeWrite → Prop
  | refused (e : RedactError) : RedactionEnds job (.error e, [])
  | written (text : PyStr) (call : DerivativeWrite) (result : Except RedactError DerivativeResult)
      (hkind : job.artifactKind = .networkConfiguration) (hclass : job.classification = .raw)
      (htext : ports.ReadText job text) (hcall : DerivesFrom U sha256Hex job text call)
      (hresult : ∀ d, result = .ok d → d = ⟨call.derivativeSha256Hex, call.redactionVersion⟩ ∧
        ∃ stored, ports.writeRedactedConfig call = .ok stored ∧
          stored.derivativeSha256Hex = call.derivativeSha256Hex ∧ stored.byteSize = call.byteSize ∧
          stored.redactionVersion = call.redactionVersion) :
      RedactionEnds job (result, [call])

end

/-! ### The redactor -/

section

variable {U : UnicodeData} {sha256Hex : Bytes → PyStr} {σ κ : Type} {ports : WorkerPorts σ κ} {job : ConfigRedactionJob}

theorem readBoundedSource_ok {source : ByteStream σ} {maxSourceBytes : Nat} {opened : Except StreamError σ}
    {value : Bytes} : readBoundedSource source maxSourceBytes opened = .ok value ↔
      ∃ s s', opened = .ok s ∧ source.read (maxSourceBytes + 1) s = (.ok value, s') ∧ source.close s' = none ∧
        value ≠ [] ∧ value.length ≤ maxSourceBytes := by
  constructor
  · intro h
    unfold readBoundedSource at h
    split at h
    · cases h
    · cases h
    next found hfound =>
      split_ifs at h with hlimit hnil
      cases h
      cases opened with
      | error e => cases hfound
      | ok s =>
        obtain ⟨hclose, hbody⟩ := closing_ok hfound
        exact ⟨s, _, rfl, Prod.ext hbody rfl, hclose, hnil, Nat.le_of_not_lt hlimit⟩
  · rintro ⟨s, s', rfl, hread, hclose, hnil, hlimit⟩
    have honce : readOnce source (maxSourceBytes + 1) (.ok s) = .ok value := by
      simp only [readOnce, hread, hclose, closing]
    simp only [readBoundedSource, honce, if_neg (Nat.not_lt.mpr hlimit), if_neg hnil]

/-- What a run of the redactor leaves. -/
theorem redactionEnds (U : UnicodeData) (sha256Hex : Bytes → PyStr) (ports : WorkerPorts σ κ)
    (job : ConfigRedactionJob) : RedactionEnds U sha256Hex ports job ((ports.processor U sha256Hex).redact job) := by
  simp only [WorkerPorts.processor, redact]
  split_ifs with hjob
  · exact .refused _
  obtain ⟨hkind, hclass⟩ := not_or.mp hjob
  split
  · exact .refused _
  next value hvalue =>
    obtain ⟨s, s', hopened, hread, hclose, hne, hlimit⟩ := readBoundedSource_ok.mp hvalue
    split
    · exact .refused _
    next text hdecode =>
      have htext : ports.ReadText job text := ⟨s, s', value, hopened, hread, hclose, hne, hlimit, hdecode⟩
      split
      · exact .refused _
      next derivative hderivative =>
        split_ifs with hnil
        · exact .refused _
        split
        · exact .written text _ _ (not_not.mp hkind) (not_not.mp hclass) htext
            ⟨rfl, hderivative, rfl, rfl, rfl, rfl⟩ (by simp)
        next stored hstored =>
          split_ifs with hsame
          · exact .written text _ _ (not_not.mp hkind) (not_not.mp hclass) htext
              ⟨rfl, hderivative, rfl, rfl, rfl, rfl⟩ (by simp)
          · obtain ⟨hdigest, hrest⟩ := not_or.mp hsame
            obtain ⟨hsize, hversion⟩ := not_or.mp hrest
            refine .written text _ _ (not_not.mp hkind) (not_not.mp hclass) htext
              ⟨rfl, hderivative, rfl, rfl, rfl, rfl⟩ fun d hd => ?_
            cases hd
            rw [not_not.mp hdigest, not_not.mp hversion]
            exact ⟨rfl, stored, hstored, not_not.mp hdigest, not_not.mp hsize, not_not.mp hversion⟩

/-! ### Behind the scan -/

/-- A clean verdict of the scanner. -/
theorem passed_of_clean {r : ScanResult} (h : (ports.processor U sha256Hex).scan job = .ok r)
    (hr : r.disposition = .clean) : ports.Passed job := by
  have hbody := failClosed_clean h hr
  split at hbody
  · cases hbody
  next s hopened =>
    split at hbody
    · exact absurd (closing_ok hbody).2 (by simp)
    next k hconnected =>
      rcases hrun : scanStream ports.source ports.connection ports.maxScanBytes s k with ⟨result, s', k'⟩
      rw [hrun] at hbody
      obtain ⟨-, hresult⟩ := closing_ok hbody
      obtain ⟨-, rfl⟩ := closing_ok hresult
      obtain ⟨k₀, text, hrequest, -, htext, hok⟩ := scanStream_clean hrun hr
      obtain ⟨request, hsent, hdecode, hle⟩ := sendRequest_ok hrequest
      exact ⟨s, k, s', k₀, request, text, hopened, hconnected, hrequest, hsent, hdecode, hle, htext, hok⟩

/-- How a run of the processor ends. -/
structure ProcessEnds (U : UnicodeData) (sha256Hex : Bytes → PyStr) (ports : WorkerPorts σ κ) (job : ConfigRedactionJob)
    (run : Except ProcessError ProcessedArtifact × List DerivativeWrite) : Prop where
  calls : run.2.length ≤ 1
  written : ∀ call ∈ run.2, job.artifactKind = .networkConfiguration ∧ job.classification = .raw ∧ ports.Passed job ∧
    ∃ text, ports.ReadText job text ∧ DerivesFrom U sha256Hex job text call
  result : ∀ processed, run.1 = .ok processed → processed.artifactId = job.artifactId ∧
    (processed.redaction = none ↔ processed.scan.disposition ≠ .clean)
  redaction : ∀ processed, run.1 = .ok processed → ∀ d ∈ processed.redaction, ∃ call stored, run.2 = [call] ∧
    d = ⟨call.derivativeSha256Hex, call.redactionVersion⟩ ∧ ports.writeRedactedConfig call = .ok stored ∧
    stored.derivativeSha256Hex = call.derivativeSha256Hex ∧ stored.byteSize = call.byteSize ∧
    stored.redactionVersion = call.redactionVersion

/-- **Nothing is written in front of the scan.** Whatever the private readers, the daemon, its connection and the writer
do, the processor calls the writer at most once, for a raw configuration that the daemon was sent as a whole and has
passed, with the derivative of the text that the redactor has read; a result has a redaction exactly behind a clean
verdict, and then names what the writer has stored. -/
theorem derivative_behind_scan (U : UnicodeData) (sha256Hex : Bytes → PyStr) (ports : WorkerPorts σ κ)
    (job : ConfigRedactionJob) :
    ProcessEnds U sha256Hex ports job ((ports.processor U sha256Hex).process job) := by
  unfold ArtifactProcessor.process
  split
  · exact ⟨by simp, by simp, by simp, by simp⟩
  next verdict hscan =>
    split_ifs with hclean
    · refine ⟨by simp, by simp, fun processed h => ?_, fun processed h => ?_⟩
      · cases h
        exact ⟨rfl, by simpa using hclean⟩
      · cases h
        simp
    rw [not_not] at hclean
    have hpassed := passed_of_clean hscan hclean
    have hends := redactionEnds U sha256Hex ports job
    split
    next e calls hredact =>
      rw [hredact] at hends
      cases hends with
      | refused e => exact ⟨by simp, by simp, by simp, by simp⟩
      | written text call result hkind hclass htext hcall hresult =>
        refine ⟨by simp, fun c hc => ?_, by simp, by simp⟩
        rw [List.mem_singleton.mp hc]
        exact ⟨hkind, hclass, hpassed, text, htext, hcall⟩
    next d calls hredact =>
      rw [hredact] at hends
      cases hends with
      | written text call result hkind hclass htext hcall hresult =>
        obtain ⟨hd, stored, hstored, hdigest, hsize⟩ := hresult d rfl
        refine ⟨by simp, fun c hc => ?_, fun processed h => ?_, fun processed h => ?_⟩
        · rw [List.mem_singleton.mp hc]
          exact ⟨hkind, hclass, hpassed, text, htext, hcall⟩
        · cases h
          simp [hclean]
        · cases h
          rintro _ ⟨⟩
          exact ⟨call, stored, rfl, hd, hstored, hdigest, hsize⟩

/-! ### What is written -/

/-- An eligible text is written. -/
theorem redact_written (U : UnicodeData) (sha256Hex : Bytes → PyStr) (hkind : job.artifactKind = .networkConfiguration)
    (hclass : job.classification = .raw) {text : PyStr} (htext : ports.ReadText job text) :
    ∃ call, ((ports.processor U sha256Hex).redact job).2 = [call] ∧ DerivesFrom U sha256Hex job text call := by
  obtain ⟨s, s', value, hopened, hread, hclose, hne, hlimit, hdecode⟩ := htext
  have hvalue := readBoundedSource_ok.mpr ⟨s, s', hopened, hread, hclose, hne, hlimit⟩
  obtain ⟨hscalar, hencode⟩ := decodeUtf8_eq_some_iff.mp hdecode
  have hnonempty : text ≠ [] := by
    rintro rfl
    exact hne hencode.symm
  obtain ⟨derivative, hderivative, hnil⟩ := encodeUtf8_content (U := U) hscalar hnonempty
  simp only [WorkerPorts.processor, redact, hkind, hclass, hvalue, hdecode, hderivative, if_neg hnil, ne_eq,
    not_true_eq_false, or_self, if_false]
  split
  · exact ⟨_, rfl, rfl, hderivative, rfl, rfl, rfl, rfl⟩
  · split_ifs
    · exact ⟨_, rfl, rfl, hderivative, rfl, rfl, rfl, rfl⟩
    · exact ⟨_, rfl, rfl, hderivative, rfl, rfl, rfl, rfl⟩

/-- Behind a clean verdict the calls are those of the redactor. -/
theorem process_calls {processor : ArtifactProcessor} (hclean : (processor.scan job).map (·.disposition) = .ok .clean) :
    (processor.process job).2 = (processor.redact job).2 := by
  cases hscan : processor.scan job with
  | error e => simp [hscan, Except.map] at hclean
  | ok verdict =>
    have hdisposition : verdict.disposition = .clean := by simpa [hscan, Except.map] using hclean
    rcases hredact : processor.redact job with ⟨e | d, calls⟩
    · simp [ArtifactProcessor.process, hscan, hdisposition, hredact]
    · simp [ArtifactProcessor.process, hscan, hdisposition, hredact]

/-- The preview of a text shows what the writer is given. -/
structure PreviewShows (preview : ConfigPreview) (call : DerivativeWrite) : Prop where
  content : encodeUtf8 preview.redactedContent = some call.derivative
  digest : preview.redactedContentSha256.text = call.derivativeSha256Hex
  version : preview.redactionVersion = call.redactionVersion
  report : preview.report = call.report

/-- The preview refuses a text for its size. -/
def PreviewTooLarge (text : PyStr) : Prop :=
  configPreviewMaxBytes < (Utf8.encode text).length ∨ configPreviewMaxLines < (splitLines text).length

/-- The preview of a text shows what the writer is given, or the text is too large for it. -/
def PreviewAgrees (U : UnicodeData) (sha256Of : Bytes → Sha256Hex) (text : PyStr) (call : DerivativeWrite) : Prop :=
  match previewCiscoConfig U (fun content => sha256Of (Utf8.encode content)) text with
  | .ok preview => PreviewShows preview call
  | .error _ => PreviewTooLarge text

theorem previewAgrees {sha256Of : Bytes → Sha256Hex} {text : PyStr} (hscalar : ∀ c ∈ text, Utf8.IsScalar c)
    {call : DerivativeWrite} (hcall : DerivesFrom U (fun bytes => (sha256Of bytes).text) job text call) :
    PreviewAgrees U sha256Of text call := by
  have hencode := encodeUtf8_of_scalar hscalar
  unfold PreviewAgrees previewCiscoConfig PreviewTooLarge
  rw [hencode]
  dsimp only
  split_ifs with hbytes hlines
  · exact .inl hbytes
  · exact .inr hlines
  · refine ⟨hcall.derivative, ?_, hcall.version.symm, hcall.report.symm⟩
    have hderivative : Utf8.encode (redactCiscoConfig U text).content = call.derivative := by
      have hcontent := hcall.derivative
      unfold encodeUtf8 at hcontent
      split_ifs at hcontent
      exact Option.some.inj hcontent
    rw [hcall.digest, hderivative]

/-- **What is stored is what the preview shows.** Behind a clean verdict the processor writes one derivative of an
eligible artifact if the redactor can read its text, and none otherwise; it has the content, the digest, the version and
the report that the preview returns for this text, unless the text is too large for the preview. -/
theorem stored_is_previewed (U : UnicodeData) (sha256Of : Bytes → Sha256Hex) (ports : WorkerPorts σ κ)
    (job : ConfigRedactionJob) (hkind : job.artifactKind = .networkConfiguration) (hclass : job.classification = .raw)
    (hclean : ((ports.processor U fun bytes => (sha256Of bytes).text).scan job).map (·.disposition) = .ok .clean) :
    (∀ text, ports.ReadText job text →
      ∃ call, ((ports.processor U fun bytes => (sha256Of bytes).text).process job).2 = [call] ∧
        PreviewAgrees U sha256Of text call) ∧
    ((∀ text, ¬ports.ReadText job text) →
      ((ports.processor U fun bytes => (sha256Of bytes).text).process job).2 = []) := by
  rw [process_calls hclean]
  constructor
  · intro text htext
    obtain ⟨call, hcalls, hcall⟩ := redact_written U (fun bytes => (sha256Of bytes).text) hkind hclass htext
    obtain ⟨-, -, value, -, -, -, -, -, hdecode⟩ := htext
    exact ⟨call, hcalls, previewAgrees (decodeUtf8_eq_some_iff.mp hdecode).1 hcall⟩
  · intro hnone
    have hends := redactionEnds U (fun bytes => (sha256Of bytes).text) ports job
    rcases hredact : (ports.processor U fun bytes => (sha256Of bytes).text).redact job with ⟨result, calls⟩
    rw [hredact] at hends
    cases hends with
    | refused e => rfl
    | written text call result hkind hclass htext => exact absurd htext (hnone text)

/-- Without faults the verdict is that on the bytes. -/
theorem scan_of_reliable (U : UnicodeData) (sha256Hex : Bytes → PyStr) (ports : WorkerPorts σ κ)
    (job : ConfigRedactionJob) (hsource : ports.source.Reliable) (hconnection : ports.connection.Reliable) {s : σ} {k : κ}
    (hopened : ports.openForScan job = .ok s) (hconnected : ports.createConnection = .ok k) : (ports.processor U sha256Hex).scan job =
      .ok (verdict ports.maxScanBytes (ports.source.remaining s) (ports.connection.remaining k)) := by
  obtain ⟨result, s', k', hrun, hverdict⟩ := scanStream_reliable ports.maxScanBytes hsource hconnection s k
  simp only [WorkerPorts.processor, scan, hopened, hconnected, hrun, hsource.close, hconnection.receives.close, closing]
  exact hverdict

end

/-- A short configuration that the daemon passes. -/
def samplePorts : WorkerPorts Bytes (Bytes × Bytes) where
  source := .paced 100
  connection := .scripted 1
  openForScan _ := .ok (ascii "username ops password hunter2")
  createConnection := .ok ([], ascii "stream: OK" ++ [0])
  openForRedaction _ := .ok (ascii "username ops password hunter2")
  writeRedactedConfig call := .ok ⟨call.derivativeSha256Hex, call.byteSize, call.redactionVersion⟩
  maxScanBytes := 100
  maxSourceBytes := 60

/-- Its job. -/
def samplePipelineJob : ConfigRedactionJob := ⟨⟨1, 2⟩, .networkConfiguration, .raw⟩

/-- The digest of the bytes. -/
def sampleSha256 (bytes : Bytes) : Sha256Hex := Hashlib.sha256 (bytes.map fun b => Fin.ofNat _ b.val)

/-- Of the sample configuration. -/
theorem stored_is_previewed_sample : ∃ call,
    ((samplePorts.processor .ascii fun bytes => (sampleSha256 bytes).text).process samplePipelineJob).2 = [call] ∧
    PreviewAgrees .ascii sampleSha256 (py "username ops password hunter2") call := by
  have hscan := scan_of_reliable .ascii (fun bytes => (sampleSha256 bytes).text) samplePorts samplePipelineJob
    (ByteStream.paced_reliable 100) (Connection.scripted_reliable 1) rfl rfl
  refine (stored_is_previewed .ascii sampleSha256 samplePorts samplePipelineJob rfl rfl ?_).1
    (py "username ops password hunter2") ⟨_, _, ascii "username ops password hunter2", rfl, rfl, rfl, ?_, ?_, ?_⟩
  · rw [hscan]
    have hverdict : (verdict 100 (ascii "username ops password hunter2")
        (ascii "stream: OK" ++ [0])).disposition = .clean := by decide +kernel
    exact congrArg Except.ok hverdict
  · decide +kernel
  · decide +kernel
  · decide +kernel

end NetopsCopilot
