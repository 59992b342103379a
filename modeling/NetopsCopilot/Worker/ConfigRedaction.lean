import NetopsCopilot.Application.ConfigPreview
import NetopsCopilot.Ingestion.RedactionLines
import NetopsCopilot.Python.Hashlib
import NetopsCopilot.Python.Streams
import NetopsCopilot.Worker.ArtifactProcessing

/-!
# The redacted derivative of a configuration (`netops_worker/config_redaction.py`)

The redactor reads its source with one `read(max + 1)`, which may give any prefix of it, and the derivative is that
of the prefix. So it covers the source if that read gives the whole of it, or more than the limit; after a shorter
read it does not where only one of the two is refused, or where a line of the source is missing (`redact_covers`).
-/

namespace NetopsCopilot

/-! ### The redactor -/

/-- `ArtifactClassification` of the worker. -/
inductive ArtifactClassification where
  | raw | redacted | derived
deriving DecidableEq, Repr

/-- The fields of an `ArtifactProcessingJob` that the redactor reads or passes on. -/
structure ConfigRedactionJob extends ArtifactProcessingJob where
  artifactKind : ArtifactKind
  classification : ArtifactClassification

/-- The arguments of `write_redacted_config`. -/
structure DerivativeWrite where
  job : ConfigRedactionJob
  derivative : Bytes
  derivativeSha256Hex : PyStr
  byteSize : Nat
  redactionVersion : PyStr
  report : RedactionReport

/-- The fields of `RedactedDerivativeMetadata` that the redactor compares. -/
structure RedactedDerivativeMetadata where
  derivativeSha256Hex : PyStr
  byteSize : Nat
  redactionVersion : PyStr

/-- The worker's `RedactionResult`. -/
structure DerivativeResult where
  derivativeSha256Hex : PyStr
  redactionVersion : PyStr

/-- What redacting raises. -/
inductive RedactError where
  | valueError (message : PyStr)
  | runtimeError (message : PyStr)
  | unicodeEncodeError
  /-- An exception of the source stream other than `OSError`. -/
  | source (e : StreamError)
  /-- An exception of the private writer. -/
  | writer

section

variable (U : UnicodeData) (sha256Hex : Bytes → PyStr) {σ : Type} (source : ByteStream σ)

/-- The `with` statement around the read. -/
def readOnce (size : Nat) : Except StreamError σ → Except StreamError Bytes
  | .error e => .error e
  | .ok s =>
    let (result, s') := source.read size s
    closing (source.close s') result

/-- `_read_bounded_source`, with what opening the source gives. -/
def readBoundedSource (maxSourceBytes : Nat) (opened : Except StreamError σ) : Except RedactError Bytes :=
  match readOnce source (maxSourceBytes + 1) opened with
  | .error .osError => .error (.runtimeError (py "private source artifact is unavailable."))
  | .error e => .error (.source e)
  | .ok value =>
    if maxSourceBytes < value.length then
      .error (.valueError (py "configuration exceeds the redaction size limit."))
    else if value = [] then .error (.valueError (py "configuration must not be empty."))
    else .ok value

/-- `ConfigDerivativeRedactor.redact`: its result, and the calls of the writer. -/
def redact (writer : DerivativeWrite → Except RedactError RedactedDerivativeMetadata) (maxSourceBytes : Nat)
    (opened : Except StreamError σ) (job : ConfigRedactionJob) :
    Except RedactError DerivativeResult × List DerivativeWrite :=
  if job.artifactKind ≠ .networkConfiguration ∨ job.classification ≠ .raw then
    (.error (.valueError (py "only raw network-configuration artifacts may be redacted.")), [])
  else
    match readBoundedSource source maxSourceBytes opened with
    | .error e => (.error e, [])
    | .ok value =>
      match decodeUtf8 value with
      | none => (.error (.valueError (py "configuration encoding is not valid UTF-8.")), [])
      | some decoded =>
        let redaction := redactCiscoConfig U decoded
        match encodeUtf8 redaction.content with
        | none => (.error .unicodeEncodeError, [])
        | some derivativeBytes =>
          if derivativeBytes = [] then
            (.error (.valueError (py "redacted configuration must not be empty.")), [])
          else
            let call : DerivativeWrite :=
              { job := job
                derivative := derivativeBytes
                derivativeSha256Hex := sha256Hex derivativeBytes
                byteSize := derivativeBytes.length
                redactionVersion := configRedactionVersion
                report := redaction.report }
            match writer call with
            | .error e => (.error e, [call])
            | .ok stored =>
              if stored.derivativeSha256Hex ≠ sha256Hex derivativeBytes ∨
                  stored.byteSize ≠ derivativeBytes.length ∨ stored.redactionVersion ≠ configRedactionVersion then
                (.error (.runtimeError (py "private derivative writer returned inconsistent metadata.")), [call])
              else (.ok ⟨stored.derivativeSha256Hex, stored.redactionVersion⟩, [call])

end

/-! ### What the redactor is for -/

/-- A source without a derivative: empty, longer than the limit, or not UTF-8. -/
def Refused (maxSourceBytes : Nat) (contents : Bytes) : Prop :=
  contents = [] ∨ maxSourceBytes < contents.length ∨ decodeUtf8 contents = none

instance (maxSourceBytes : Nat) (contents : Bytes) : Decidable (Refused maxSourceBytes contents) :=
  inferInstanceAs (Decidable (_ ∨ _ ∨ _))

/-- The text of the derivative of a source. -/
def derivativeText (U : UnicodeData) (contents : Bytes) : Option PyStr :=
  (decodeUtf8 contents).map fun text => (redactCiscoConfig U text).content

/-- The derivative covers the source: the redactor raises without a call of the writer if the source has no
derivative, and else calls it once, with the derivative of the whole source. -/
structure Covers (U : UnicodeData) (sha256Hex : Bytes → PyStr) (maxSourceBytes : Nat) (contents : Bytes)
    (job : ConfigRedactionJob) (run : Except RedactError DerivativeResult × List DerivativeWrite) : Prop where
  refused : Refused maxSourceBytes contents → run.2 = [] ∧ ∃ e, run.1 = .error e
  written : ¬Refused maxSourceBytes contents → ∃ call text, run.2 = [call] ∧ call.job = job ∧
    derivativeText U contents = some text ∧ encodeUtf8 text = some call.derivative ∧
    call.derivativeSha256Hex = sha256Hex call.derivative ∧ call.byteSize = call.derivative.length

/-- The read gives the whole source, or enough of it to see that it is longer than the limit. -/
def WholeRead (maxSourceBytes : Nat) (value contents : Bytes) : Prop :=
  value = contents ∨ maxSourceBytes < value.length

/-- The prefix has fewer line endings than the source, of which redaction keeps every line. -/
def MissesLine (value contents : Bytes) : Prop :=
  ∃ text whole, decodeUtf8 value = some text ∧ decodeUtf8 contents = some whole ∧
    EndingsKept false (splitLines whole) ∧ endingCount (splitLines text) < endingCount (splitLines whole)

/-! ### What is written -/

section

variable {U : UnicodeData} {sha256Hex : Bytes → PyStr} {σ : Type} {source : ByteStream σ}
  {writer : DerivativeWrite → Except RedactError RedactedDerivativeMetadata} {maxSourceBytes : Nat}
  {job : ConfigRedactionJob}

theorem encodeUtf8_content {text : PyStr} (htext : ∀ c ∈ text, Utf8.IsScalar c) (hne : text ≠ []) :
    ∃ derivative, encodeUtf8 (redactCiscoConfig U text).content = some derivative ∧ derivative ≠ [] := by
  have hscalar : ∀ c ∈ (redactCiscoConfig U text).content, Utf8.IsScalar c := by
    intro c hc
    rcases mem_content U text c hc with hc | ⟨rule, hc⟩
    · exact htext c hc
    · refine isScalar_of_ascii ?_ c hc
      cases rule <;> decide
  refine ⟨_, encodeUtf8_of_scalar hscalar, fun hnil => ?_⟩
  have hdecode := Utf8.decode_encode hscalar
  rw [hnil] at hdecode
  exact content_ne_nil U hne (Prod.mk.inj hdecode).1.symm

theorem encodeUtf8_inj {s s' : PyStr} {bytes : Bytes} (h : encodeUtf8 s = some bytes)
    (h' : encodeUtf8 s' = some bytes) : s = s' := by
  unfold encodeUtf8 at h h'
  split_ifs at h h' with hs hs'
  rw [List.all_eq_true] at hs hs'
  have hdecode := Utf8.decode_encode fun c hc => of_decide_eq_true (hs c hc)
  have hdecode' := Utf8.decode_encode fun c hc => of_decide_eq_true (hs' c hc)
  rw [Option.some.inj h] at hdecode
  rw [Option.some.inj h'] at hdecode'
  exact (Prod.mk.inj (hdecode.symm.trans hdecode')).1

/-- The derivative is that of the prefix that has been read. -/
theorem redact_covers_value (U : UnicodeData) (sha256Hex : Bytes → PyStr)
    (writer : DerivativeWrite → Except RedactError RedactedDerivativeMetadata) (hkind : job.artifactKind = .networkConfiguration)
    (hclass : job.classification = .raw) {s s' : σ} {value : Bytes}
    (hread : source.read (maxSourceBytes + 1) s = (.ok value, s')) (hclose : source.close s' = none) :
    Covers U sha256Hex maxSourceBytes value job
      (redact U sha256Hex source writer maxSourceBytes (.ok s) job) := by
  have hvalue : readBoundedSource source maxSourceBytes (.ok s) =
      if maxSourceBytes < value.length then
        .error (.valueError (py "configuration exceeds the redaction size limit."))
      else if value = [] then .error (.valueError (py "configuration must not be empty."))
      else .ok value := by
    have honce : readOnce source (maxSourceBytes + 1) (.ok s) = .ok value := by
      rw [readOnce, hread]
      dsimp only
      rw [hclose]
      rfl
    unfold readBoundedSource
    rw [honce]
  unfold redact
  rw [if_neg (by simp [hkind, hclass]), hvalue]
  by_cases hlimit : maxSourceBytes < value.length
  · rw [if_pos hlimit]
    exact ⟨fun _ => ⟨rfl, _, rfl⟩, fun h => absurd (Or.inr (Or.inl hlimit)) h⟩
  · by_cases hnil : value = []
    · rw [if_neg hlimit, if_pos hnil]
      exact ⟨fun _ => ⟨rfl, _, rfl⟩, fun h => absurd (Or.inl hnil) h⟩
    · rw [if_neg hlimit, if_neg hnil]
      dsimp only
      cases hdecode : decodeUtf8 value with
      | none => exact ⟨fun _ => ⟨rfl, _, rfl⟩, fun h => absurd (Or.inr (Or.inr hdecode)) h⟩
      | some text =>
        obtain ⟨hscalar, hencode⟩ := decodeUtf8_eq_some_iff.mp hdecode
        have htext : text ≠ [] := by
          rintro rfl
          exact hnil hencode.symm
        obtain ⟨derivative, hderivative, hne⟩ := encodeUtf8_content (U := U) hscalar htext
        have hderived : derivativeText U value = some (redactCiscoConfig U text).content := by
          unfold derivativeText
          rw [hdecode]
          rfl
        have hnot : ¬Refused maxSourceBytes value := by
          rintro (h | h | h)
          · exact hnil h
          · exact hlimit h
          · rw [hdecode] at h
            cases h
        dsimp only
        rw [hderivative]
        dsimp only
        rw [if_neg hne]
        refine ⟨fun h => absurd h hnot, fun _ => ?_⟩
        split
        · exact ⟨_, _, rfl, rfl, hderived, hderivative, rfl, rfl⟩
        · split_ifs
          · exact ⟨_, _, rfl, rfl, hderived, hderivative, rfl, rfl⟩
          · exact ⟨_, _, rfl, rfl, hderived, hderivative, rfl, rfl⟩

/-- A run that covers one source covers another if both are refused or both have the same derivative. -/
theorem Covers.iff_same {value contents : Bytes} {run : Except RedactError DerivativeResult × List DerivativeWrite}
    (h : Covers U sha256Hex maxSourceBytes value job run) :
    Covers U sha256Hex maxSourceBytes contents job run ↔
      (Refused maxSourceBytes value ∧ Refused maxSourceBytes contents) ∨
      (¬Refused maxSourceBytes value ∧ ¬Refused maxSourceBytes contents ∧
        derivativeText U value = derivativeText U contents) := by
  constructor
  · intro h'
    by_cases hvalue : Refused maxSourceBytes value
    · refine Or.inl ⟨hvalue, ?_⟩
      by_contra hcontents
      obtain ⟨call, text, hcalls, -⟩ := h'.written hcontents
      rw [(h.refused hvalue).1] at hcalls
      cases hcalls
    · obtain ⟨call, text, hcalls, -, htext, hencode, -⟩ := h.written hvalue
      have hcontents : ¬Refused maxSourceBytes contents := by
        intro hcontents
        rw [(h'.refused hcontents).1] at hcalls
        cases hcalls
      obtain ⟨call', text', hcalls', -, htext', hencode', -⟩ := h'.written hcontents
      rw [hcalls] at hcalls'
      obtain rfl := List.head_eq_of_cons_eq hcalls'
      exact Or.inr ⟨hvalue, hcontents, by rw [htext, htext', encodeUtf8_inj hencode hencode']⟩
  · rintro (⟨hvalue, hcontents⟩ | ⟨hvalue, hcontents, hsame⟩)
    · exact ⟨fun _ => h.refused hvalue, fun hnot => absurd hcontents hnot⟩
    · refine ⟨fun hrefused => absurd hrefused hcontents, fun _ => ?_⟩
      have hwritten := h.written hvalue
      rwa [hsame] at hwritten

/-- A source with a line is refused for its length alone. -/
theorem MissesLine.not_refused {value contents : Bytes} (h : MissesLine value contents)
    (hlength : contents.length ≤ maxSourceBytes) : ¬Refused maxSourceBytes contents := by
  obtain ⟨text, whole, -, hwhole, -, hcount⟩ := h
  rintro (rfl | hlimit | hdecode)
  · obtain rfl : whole = [] := by
      have hempty : decodeUtf8 [] = some [] := by decide +kernel
      rw [hempty] at hwhole
      exact (Option.some.inj hwhole).symm
    have hnone : endingCount (splitLines []) = 0 := rfl
    omega
  · omega
  · rw [hdecode] at hwhole
    cases hwhole

/-- A derivative without some line of the source is not that of the source. -/
theorem MissesLine.derivativeText_ne {value contents : Bytes} (h : MissesLine value contents) :
    derivativeText U value ≠ derivativeText U contents := by
  obtain ⟨text, whole, htext, hwhole, hkept, hcount⟩ := h
  obtain ⟨hok, -⟩ := splitLines_spec text
  obtain ⟨hokWhole, -⟩ := splitLines_spec whole
  have hadded : endingCount (splitLines (redactCiscoConfig U text).content) ≤ endingCount (splitLines text) :=
    @endingCount_redactedText U false _ [] hok (List.forall_mem_nil _)
  have hlines : List.Forall₂ SameLine (splitLines whole) (splitLines (redactCiscoConfig U whole).content) :=
    @sameLine_of_endingsKept U false _ [] hokWhole hkept (Or.inl rfl)
  have hcontent := endingCount_eq hlines
  unfold derivativeText
  rw [htext, hwhole]
  intro hsame
  rw [Option.map_some, Option.map_some, Option.some.injEq] at hsame
  rw [hsame] at hadded
  omega

/-- **The derivative covers what the one read gives.** For an eligible job and a stream that does not raise, the
derivative covers the whole source, and is refused with it, if the one `read(max + 1)` gives the whole source, or more
than the limit. It does not if only one of the prefix and the source is refused, or if the prefix has fewer lines. -/
theorem redact_covers (U : UnicodeData) (sha256Hex : Bytes → PyStr) (source : ByteStream σ)
    (writer : DerivativeWrite → Except RedactError RedactedDerivativeMetadata) (maxSourceBytes : Nat)
    (job : ConfigRedactionJob) (hkind : job.artifactKind = .networkConfiguration)
    (hclass : job.classification = .raw) (hsource : source.Reliable) (s : σ) (value : Bytes)
    (hread : (source.read (maxSourceBytes + 1) s).1 = .ok value) :
    (WholeRead maxSourceBytes value (source.remaining s) →
      Covers U sha256Hex maxSourceBytes (source.remaining s) job
        (redact U sha256Hex source writer maxSourceBytes (.ok s) job)) ∧
    (¬(Refused maxSourceBytes value ↔ Refused maxSourceBytes (source.remaining s)) ∨
        MissesLine value (source.remaining s) ∧ (source.remaining s).length ≤ maxSourceBytes →
      ¬Covers U sha256Hex maxSourceBytes (source.remaining s) job
        (redact U sha256Hex source writer maxSourceBytes (.ok s) job)) := by
  have hread' : source.read (maxSourceBytes + 1) s = (.ok value, (source.read (maxSourceBytes + 1) s).2) :=
    Prod.ext hread rfl
  obtain ⟨hremaining, -, -⟩ := source.read_ok hread'
  have hvalue := redact_covers_value U sha256Hex writer hkind hclass hread'
    (hsource.close _)
  constructor
  · rintro (hwhole | hlimit)
    · rwa [← hwhole]
    · refine hvalue.iff_same.mpr (Or.inl ⟨Or.inr (Or.inl hlimit), Or.inr (Or.inl ?_)⟩)
      rw [hremaining, List.length_append]
      omega
  · intro hshort hcovers
    rcases hvalue.iff_same.mp hcovers with ⟨hrefused, hrefused'⟩ | ⟨hnot, hnot', hsame⟩
    · rcases hshort with hapart | ⟨hmisses, hlength⟩
      · exact hapart ⟨fun _ => hrefused', fun _ => hrefused⟩
      · exact hmisses.not_refused hlength hrefused'
    · rcases hshort with hapart | ⟨hmisses, -⟩
      · exact hapart ⟨fun h => absurd h hnot, fun h => absurd h hnot'⟩
      · exact hmisses.derivativeText_ne hsame

end

/-- An eligible job. -/
private def configJob : ConfigRedactionJob := ⟨⟨1, 2⟩, .networkConfiguration, .raw⟩

/-- A writer that stores what it is given. -/
private def storingWriter (call : DerivativeWrite) : Except RedactError RedactedDerivativeMetadata :=
  .ok ⟨call.derivativeSha256Hex, call.byteSize, call.redactionVersion⟩

/-- The whole configuration in one piece. -/
theorem redact_covers_sample :
    Covers .ascii (fun bytes => (Hashlib.digest (bytes.map (·.val))).hex) 8 (ascii "end\n") configJob
      (redact .ascii (fun bytes => (Hashlib.digest (bytes.map (·.val))).hex) (.paced 100) storingWriter 8
        (.ok (ascii "end\n")) configJob) :=
  (redact_covers .ascii _ (.paced 100) storingWriter 8 configJob rfl rfl (ByteStream.paced_reliable 100) _
    (ascii "end\n") (by decide +kernel)).1 (Or.inl rfl)

/-- A stream that gives one byte at a time: the derivative is that of the first byte. -/
theorem redact_covers_first_byte : ¬∀ (U : UnicodeData) (sha256Hex : Bytes → PyStr) (source : ByteStream Bytes)
    (writer : DerivativeWrite → Except RedactError RedactedDerivativeMetadata) (s : Bytes), source.Reliable →
    Covers U sha256Hex 8 (source.remaining s) configJob (redact U sha256Hex source writer 8 (.ok s) configJob) := by
  intro hall
  have hvalue : Covers .ascii (fun _ => []) 8 [101] configJob
      (redact .ascii (fun _ => []) (.paced 0) storingWriter 8 (.ok (ascii "end")) configJob) :=
    @redact_covers_value _ (.paced 0) 8 configJob .ascii (fun _ => []) storingWriter rfl rfl _ (ascii "nd") _ rfl rfl
  have hwhole := hall .ascii (fun _ => []) (.paced 0) storingWriter (ascii "end")
    (ByteStream.paced_reliable 0)
  have hsame := hvalue.iff_same.mp hwhole
  have hnot : ¬((Refused 8 [101] ∧ Refused 8 (ascii "end")) ∨ (¬Refused 8 [101] ∧ ¬Refused 8 (ascii "end") ∧
      derivativeText .ascii [101] = derivativeText .ascii (ascii "end"))) := by
    decide +kernel
  exact hnot hsame

end NetopsCopilot
