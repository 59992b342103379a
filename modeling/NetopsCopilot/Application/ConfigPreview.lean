import NetopsCopilot.Ingestion.Redaction
import NetopsCopilot.Postgres.Schema
import NetopsCopilot.Python.Codecs

/-!
# The configuration preview (`application/config_preview.py`)

A pasted configuration is redacted and returned; nothing is stored. Its size is bounded before it is redacted.
-/

namespace NetopsCopilot

/-- `CONFIG_PREVIEW_MAX_BYTES`. -/
def configPreviewMaxBytes : Nat := 256 * 1024

/-- `CONFIG_PREVIEW_MAX_LINES`. -/
def configPreviewMaxLines : Nat := 10000

/-- `CONFIG_REDACTION_VERSION`. -/
def configRedactionVersion : PyStr := py "cisco-redaction-v1"

/-- `ConfigPreview`. -/
structure ConfigPreview where
  redactedContent : PyStr
  redactedContentSha256 : Sha256Hex
  redactionVersion : PyStr
  report : RedactionReport

/-- What `preview_cisco_config` raises: `ConfigPreviewLimitError`, or the `UnicodeEncodeError` of a surrogate. -/
inductive ConfigPreviewError where
  | limit (message : PyStr)
  | unicodeEncodeError
deriving DecidableEq

section

variable (U : UnicodeData) (sha256 : PyStr → Sha256Hex)

/-- `preview_cisco_config`. -/
def previewCiscoConfig (source : PyStr) : Except ConfigPreviewError ConfigPreview :=
  match encodeUtf8 source with
  | none => .error .unicodeEncodeError
  | some sourceBytes =>
    if configPreviewMaxBytes < sourceBytes.length then
      .error (.limit (py "config input exceeds the byte limit"))
    else if configPreviewMaxLines < (splitLines source).length then
      .error (.limit (py "config input exceeds the line limit"))
    else
      let redaction := redactCiscoConfig U source
      .ok { redactedContent := redaction.content
            redactedContentSha256 := sha256 redaction.content
            redactionVersion := configRedactionVersion
            report := redaction.report }

end

end NetopsCopilot
