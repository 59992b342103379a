import NetopsCopilot.Python.Lines
import NetopsCopilot.Python.Re

/-!
# Redaction of Cisco configuration (`netops_api/ingestion/redaction.py`)

Each line is rewritten by ten inline rules one after another, or replaced as a whole inside a private-key
block. A rule keeps what its pattern's `prefix` group read and puts a marker in place of the secret.
-/

namespace NetopsCopilot

/-! ### Rules and reports -/

/-- `RedactionRule`, in the order of the rule ids. -/
inductive RedactionRule where
  | ciscoIkev1PreSharedKey
  | ciscoIkev2PreSharedKey
  | ciscoPassword
  | ciscoSnmpCommunity
  | ciscoUsernameSecret
  | apiKey
  | bearerToken
  | privateKeyBlock
deriving DecidableEq, Repr

def RedactionRule.value : RedactionRule → PyStr
  | .ciscoIkev1PreSharedKey => py "cisco.ikev1_pre_shared_key"
  | .ciscoIkev2PreSharedKey => py "cisco.ikev2_pre_shared_key"
  | .ciscoUsernameSecret => py "cisco.username_secret"
  | .ciscoPassword => py "cisco.password"
  | .ciscoSnmpCommunity => py "cisco.snmp_community"
  | .privateKeyBlock => py "credential.private_key_block"
  | .bearerToken => py "credential.bearer_token"
  | .apiKey => py "credential.api_key"

def RedactionRule.all : List RedactionRule :=
  [.ciscoIkev1PreSharedKey, .ciscoIkev2PreSharedKey, .ciscoPassword, .ciscoSnmpCommunity,
    .ciscoUsernameSecret, .apiKey, .bearerToken, .privateKeyBlock]

/-- `RedactionRuleSummary`. -/
structure RedactionRuleSummary where
  ruleId : PyStr
  lineCount : Nat
  occurrenceCount : Nat
deriving DecidableEq

/-- `RedactionReport`. -/
structure RedactionReport where
  sourceLineCount : Nat
  redactedLineCount : Nat
  rules : List RedactionRuleSummary
deriving DecidableEq

/-- `RedactionResult`. -/
structure RedactionResult where
  content : PyStr
  report : RedactionReport
deriving DecidableEq

/-- `f"<redacted:{rule.value}>"`. -/
def RedactionRule.marker (rule : RedactionRule) : PyStr := py "<redacted:" ++ rule.value ++ py ">"

/-! ### The inline rules -/

/-- The groups of an inline pattern. -/
inductive InlineGroup where
  | prefixText
  | secret
deriving DecidableEq

section

open Re

abbrev InlinePattern := Regex InlineGroup PyChar

/-- A text in quotes `q`. -/
def quoted (q : PyChar) : InlinePattern :=
  .cat [.char (· == q), .many true fun c => c != q && c != 13 && c != 10, .char (· == q)]

/-- `[^\s\r\n]+`. -/
def bareToken : InlinePattern := .many1 fun c => !c.isSpace && c != 13 && c != 10

/-- `_SECRET`. -/
def secretPattern : InlinePattern :=
  .seq (.notAhead (lit "<redacted:")) (oneOf [quoted 34, quoted 39, bareToken])

variable (U : UnicodeData)

/-- `(?:\d+\s+)?`. -/
def encryptionType : InlinePattern := .opt (.seq (digits1 U) spaces1)

/-- `(?:password|secret)`. -/
def passwordOrSecret : InlinePattern := oneOf [lit "password", lit "secret"]

/-- `\s*(?:=|:)\s*`. -/
def assignment : InlinePattern := .cat [spaces, oneOf [lit "=", lit ":"], spaces]

def isakmpKeyPrefix : InlinePattern :=
  .cat [start, spaces, lit "crypto", spaces1, lit "isakmp", spaces1, lit "key", spaces1, encryptionType U]

def preSharedKeyPrefix : InlinePattern :=
  .cat [start, spaces, lit "pre-shared-key", .opt (.seq spaces1 (oneOf [lit "local", lit "remote"])), spaces1,
    encryptionType U]

def usernamePrefix : InlinePattern :=
  .cat [boundary U, lit "username", spaces1, nonSpaces1, anyLazy, boundary U, passwordOrSecret, spaces1,
    encryptionType U]

def communityPrefix : InlinePattern :=
  .cat [start, spaces, lit "snmp-server", spaces1, lit "community", spaces1]

def passwordPrefix : InlinePattern :=
  .cat [start, spaces,
    .opt (.cat [lit "enable", .opt (.cat [spaces1, lit "algorithm-type", spaces1, nonSpaces1]), spaces1]),
    passwordOrSecret, spaces1, encryptionType U]

/-- `(?!(?:encryption|policy)\b)` before `_SECRET`. -/
def passwordSecret : InlinePattern :=
  .seq (.notAhead (.seq (oneOf [lit "encryption", lit "policy"]) (boundary U))) secretPattern

def neighborPrefix : InlinePattern :=
  .cat [start, spaces, lit "neighbor", spaces1, nonSpaces1, spaces1, lit "password", spaces1,
    encryptionType U]

def assignedPasswordPrefix : InlinePattern := .cat [boundary U, lit "password", assignment]

def authorizationPrefix : InlinePattern :=
  .cat [boundary U, .opt (lit "proxy-"), lit "authorization", spaces, lit ":", spaces, lit "bearer", spaces1]

def bearerPrefix : InlinePattern := .cat [start, spaces, lit "bearer", spaces1]

/-- `[-_]`. -/
def hyphen : InlinePattern := .char fun c => c == 45 || c == 95

def apiKeyPrefix : InlinePattern :=
  .cat [boundary U,
    oneOf [.cat [lit "x", hyphen, lit "api", hyphen, lit "key"], .cat [lit "api", hyphen, lit "key"]],
    assignment]

/-- `_InlineRule`. -/
structure InlineRule where
  rule : RedactionRule
  pattern : InlinePattern

/-- `(?P<prefix>…)(?P<secret>…)`. -/
def InlineRule.of (rule : RedactionRule) (before : InlinePattern) (secret : InlinePattern := secretPattern) :
    InlineRule where
  rule := rule
  pattern := .seq (.group .prefixText before) (.group .secret secret)

/-- `_INLINE_RULES`. -/
def inlineRules : List InlineRule :=
  [.of .ciscoIkev1PreSharedKey (isakmpKeyPrefix U),
    .of .ciscoIkev2PreSharedKey (preSharedKeyPrefix U),
    .of .ciscoUsernameSecret (usernamePrefix U),
    .of .ciscoSnmpCommunity communityPrefix,
    .of .ciscoPassword (passwordPrefix U) (passwordSecret U),
    .of .ciscoPassword (neighborPrefix U),
    .of .ciscoPassword (assignedPasswordPrefix U),
    .of .bearerToken (authorizationPrefix U),
    .of .bearerToken bearerPrefix,
    .of .apiKey (apiKeyPrefix U)]

/-- `rule.pattern.subn(_replacement_for(rule.rule), body)`. -/
def InlineRule.subn (rule : InlineRule) (body : PyStr) : PyStr × Nat :=
  rule.pattern.subn (fun k => k.text .prefixText ++ rule.rule.marker) body

/-! ### Lines -/

/-- ` [A-Z0-9]+`. -/
def keyKind : InlinePattern :=
  .seq (lit " ") (.many1 fun c => (97 ≤ c.fold.val && c.fold.val ≤ 122) || (48 ≤ c.val && c.val ≤ 57))

/-- `_PRIVATE_KEY_BEGIN`. -/
def privateKeyBegin : InlinePattern :=
  .cat [start, spaces, lit "-----BEGIN", .opt keyKind, lit " PRIVATE KEY-----", spaces, finish]

/-- `_PRIVATE_KEY_END`. -/
def privateKeyEnd : InlinePattern :=
  .cat [start, spaces, lit "-----END", .opt keyKind, lit " PRIVATE KEY-----", spaces, finish]

def beginsPrivateKey (body : PyStr) : Bool := (privateKeyBegin.matchText body).isSome

def endsPrivateKey (body : PyStr) : Bool := (privateKeyEnd.matchText body).isSome

/-- `_redact_entire_line`. -/
def redactEntireLine (line : PyStr) (rule : RedactionRule) : PyStr := indentation line ++ rule.marker

/-- `_split_line_ending`. -/
def splitLineEnding (line : PyStr) : PyStr × PyStr :=
  if line.drop (line.length - 2) = [13, 10] then (line.take (line.length - 2), [13, 10])
  else if line.getLast? = some 10 ∨ line.getLast? = some 13 then
    (line.dropLast, line.drop (line.length - 1))
  else (line, [])

/-- What becomes of a source line, and the matches recorded for it. -/
structure RedactedLine where
  text : PyStr
  records : List (RedactionRule × Nat)
deriving DecidableEq

/-- The body of the loop over the rules. -/
def applyRule (line : RedactedLine) (rule : InlineRule) : RedactedLine :=
  let (text, replacements) := rule.subn line.text
  { text := text
    records := if replacements = 0 then line.records else line.records ++ [(rule.rule, replacements)] }

/-- The inline rules one after another. -/
def applyRules (rules : List InlineRule) (body : PyStr) : RedactedLine :=
  rules.foldl applyRule { text := body, records := [] }

/-- The body of the loop: the line, and whether a private-key block is open after it. -/
def redactLine (privateKeyOpen : Bool) (sourceLine : PyStr) : RedactedLine × Bool :=
  let (body, ending) := splitLineEnding sourceLine
  if privateKeyOpen || beginsPrivateKey body then
    ({ text := redactEntireLine body .privateKeyBlock ++ ending
       records := [(.privateKeyBlock, if beginsPrivateKey body then 1 else 0)] },
      !endsPrivateKey body)
  else
    let line := applyRules (inlineRules U) body
    ({ line with text := line.text ++ ending }, false)

/-- The loop. -/
def redactLines : Bool → List PyStr → List RedactedLine
  | _, [] => []
  | privateKeyOpen, sourceLine :: rest =>
    let (line, privateKeyOpen) := redactLine U privateKeyOpen sourceLine
    line :: redactLines privateKeyOpen rest

/-! ### The result -/

/-- The records of one rule on one line. -/
def RedactedLine.recordsOf (rule : RedactionRule) (line : RedactedLine) : List Nat :=
  (line.records.filter fun r => r.1 == rule).map (·.2)

/-- The summary of a rule that was recorded. -/
def ruleSummary (lines : List RedactedLine) (rule : RedactionRule) : Option RedactionRuleSummary :=
  let lineCount := lines.countP fun line => !(line.recordsOf rule).isEmpty
  if lineCount = 0 then none
  else some
    { ruleId := rule.value
      lineCount := lineCount
      occurrenceCount := (lines.map fun line => (line.recordsOf rule).sum).sum }

/-- `redact_cisco_config`. -/
def redactCiscoConfig (source : PyStr) : RedactionResult :=
  let lines := redactLines U false ((splitLines source).map TextLine.whole)
  { content := lines.flatMap (·.text)
    report :=
      { sourceLineCount := lines.length
        redactedLineCount := lines.countP fun line => !line.records.isEmpty
        rules := RedactionRule.all.filterMap (ruleSummary lines) } }

end

end NetopsCopilot
