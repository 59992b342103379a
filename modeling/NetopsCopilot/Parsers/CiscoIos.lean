import NetopsCopilot.Python.Convert
import NetopsCopilot.Python.Lines

/-!
# The Cisco IOS parser (`netops_api/parsers/cisco_ios/models.py`, `parser.py`)

One pass over the lines. A line without indentation closes the open block and is a global lifetime, a
declaration that opens a block, or nothing; an indented line adds to the open block. The parser itself raises
nothing, but `int` and `LifetimeUnit` do: on a sequence number of more than 4300 digits, and on a unit whose
lower case is not the one of ASCII.
-/

namespace NetopsCopilot

/-! ### The parsed form -/

/-- `LifetimeUnit`. -/
inductive LifetimeUnit where
  | seconds | kilobytes
deriving DecidableEq, Repr

def LifetimeUnit.value : LifetimeUnit → PyStr
  | .seconds => py "seconds"
  | .kilobytes => py "kilobytes"

/-- `AssociationKind`. -/
inductive AssociationKind where
  | cryptoMap | ipsecProfile
deriving DecidableEq, Repr

def AssociationKind.value : AssociationKind → PyStr
  | .cryptoMap => py "crypto_map"
  | .ipsecProfile => py "ipsec_profile"

/-- `SourceLine`. -/
structure SourceLine where
  number : Nat
  text : PyStr
  indentation : Nat
  tokens : List PyStr
deriving DecidableEq

/-- `ParseWarning`. -/
structure ParseWarning where
  code : PyStr
  message : PyStr
  lineNumber : Nat
deriving DecidableEq

/-- `Phase2LifetimeSetting`. -/
structure Phase2LifetimeSetting where
  unit : LifetimeUnit
  value : Nat
  lineNumber : Nat
deriving DecidableEq

/-- `PeerAddress`. -/
structure PeerAddress where
  value : PyStr
  lineNumber : Nat
deriving DecidableEq

/-- `IpsecAssociation`; while a block is open it is the `_AssociationBuilder` that `freeze` copies. -/
structure IpsecAssociation where
  kind : AssociationKind
  name : PyStr
  declarationLine : Nat
  sequence : Option Nat
  peerAddresses : List PeerAddress := []
  lifetimeSettings : List Phase2LifetimeSetting := []
deriving DecidableEq

/-- `IpsecAssociation.identifier`. -/
def IpsecAssociation.identifier (a : IpsecAssociation) : PyStr :=
  match a.sequence with
  | none => a.kind.value ++ py ":" ++ a.name
  | some sequence => a.kind.value ++ py ":" ++ a.name ++ py ":" ++ natText sequence

/-- The last setting of a unit. -/
def lastSetting (unit : LifetimeUnit) (settings : List Phase2LifetimeSetting) :
    Option Phase2LifetimeSetting :=
  settings.reverse.find? fun setting => setting.unit == unit

/-- `IpsecAssociation.effective_override`. -/
def IpsecAssociation.effectiveOverride (a : IpsecAssociation) (unit : LifetimeUnit) :
    Option Phase2LifetimeSetting :=
  lastSetting unit a.lifetimeSettings

/-- `CiscoIosConfig`. -/
structure CiscoIosConfig where
  sourceLines : List SourceLine
  globalPhase2Lifetimes : List Phase2LifetimeSetting
  ipsecAssociations : List IpsecAssociation
  warnings : List ParseWarning
deriving DecidableEq

/-- `CiscoIosConfig.global_lifetime`. -/
def CiscoIosConfig.globalLifetime (c : CiscoIosConfig) (unit : LifetimeUnit) :
    Option Phase2LifetimeSetting :=
  lastSetting unit c.globalPhase2Lifetimes

/-! ### Patterns -/

/-- The groups of the command patterns. -/
inductive CommandGroup where
  | name | dynamic | sequence | unit | value | peer
deriving DecidableEq

abbrev CommandPattern := Regex CommandGroup PyChar

section

open Re

variable (U : UnicodeData)

/-- `_PROFILE_DECLARATION`. -/
def profileDeclaration : CommandPattern :=
  .cat [start, lit "crypto", spaces1, lit "ipsec", spaces1, lit "profile", spaces1, .group .name nonSpaces1,
    spaces, finish]

/-- `_CRYPTO_MAP_DECLARATION`. -/
def cryptoMapDeclaration : CommandPattern :=
  .cat [start, lit "crypto", spaces1, .opt (.group .dynamic (lit "dynamic-")), lit "map", spaces1,
    .group .name nonSpaces1, spaces1, .group .sequence (digits1 U), boundary U]

/-- `(?P<unit>seconds|kilobytes)\s+(?P<value>\S+)\s*$`. -/
def unitAndValue : List CommandPattern :=
  [.group .unit (oneOf [lit "seconds", lit "kilobytes"]), spaces1, .group .value nonSpaces1, spaces, finish]

/-- `_GLOBAL_LIFETIME`. -/
def globalLifetimePattern : CommandPattern :=
  .cat ([start, lit "crypto", spaces1, lit "ipsec", spaces1, lit "security-association", spaces1,
    lit "lifetime", spaces1] ++ unitAndValue)

/-- `_SET_LIFETIME`. -/
def setLifetimePattern : CommandPattern :=
  .cat ([start, lit "set", spaces1, lit "security-association", spaces1, lit "lifetime", spaces1] ++
    unitAndValue)

/-- `_SET_PEER`. -/
def setPeerPattern : CommandPattern :=
  .cat [start, lit "set", spaces1, lit "peer", spaces1, .group .peer nonSpaces1]

/-- `_LIFETIME_PREFIX`. -/
def lifetimePrefixPattern : CommandPattern :=
  .cat [start, .opt (.cat [lit "crypto", spaces1, lit "ipsec", spaces1]), .opt (.cat [lit "set", spaces1]),
    lit "security-association", spaces1, lit "lifetime", boundary U]

/-! ### Lines -/

/-- `_to_source_line`. -/
def toSourceLine (number : Nat) (rawLine : PyStr) : SourceLine :=
  let text := rawLine.rdropWhile fun c => c == 13 || c == 10
  let withoutIndent := text.dropWhile fun c => c == 32 || c == 9
  { number := number
    text := text
    indentation := text.length - withoutIndent.length
    tokens := splitSpaces withoutIndent }

/-- `tuple(_to_source_line(number, raw_line) for … in enumerate(configuration.splitlines(), start=1))`. -/
def sourceLines (configuration : PyStr) : List SourceLine :=
  ((splitLines configuration).zipIdx 1).map fun l => toSourceLine l.2 l.1.text

/-- `line.text.strip()`. -/
def SourceLine.command (line : SourceLine) : PyStr := strip line.text

/-- `not command or command.startswith("!")`. -/
def SourceLine.skipped (line : SourceLine) : Bool := line.command.isEmpty || line.command.head? == some 33

/-- What the builtins raise. -/
inductive ParserError where
  | notALifetimeUnit (text : PyStr)
  | tooManyDigits (text : PyStr)
deriving DecidableEq

/-- `LifetimeUnit(text)`. -/
def lifetimeUnit (text : PyStr) : Except ParserError LifetimeUnit :=
  if text = LifetimeUnit.seconds.value then .ok .seconds
  else if text = LifetimeUnit.kilobytes.value then .ok .kilobytes
  else .error (.notALifetimeUnit text)

/-- `_parse_lifetime`: the setting, and the warning it appends. -/
def parseLifetime (line : SourceLine) (command : PyStr) (found : Option (Cursor CommandGroup PyChar)) :
    Except ParserError (Option Phase2LifetimeSetting × List ParseWarning) :=
  match found with
  | none => .ok (none,
      [{ code := py "cisco_ios.ipsec.malformed_phase2_lifetime"
         message := py "IPsec Phase 2 lifetime command is malformed and was not applied."
         lineNumber := line.number }])
  | some found =>
    let valueText := found.text .value
    let value := (pyInt U valueText).getD 0
    if value ≤ 0 then .ok (none,
      [{ code := py "cisco_ios.ipsec.invalid_phase2_lifetime"
         message := py "IPsec Phase 2 " ++ lowerLetters (found.text .unit) ++ py " lifetime " ++
           reprStr U valueText ++ py " in " ++ command ++ py " must be a positive integer."
         lineNumber := line.number }])
    else do
      let unit ← lifetimeUnit (lowerLetters (found.text .unit))
      return (some { unit := unit, value := value.toNat, lineNumber := line.number }, [])

/-- `_top_level_declaration`. -/
def topLevelDeclaration (command : PyStr) (lineNumber : Nat) :
    Except ParserError (Option IpsecAssociation) :=
  match profileDeclaration.fullmatch command with
  | some found => .ok (some
      { kind := .ipsecProfile, name := found.text .name, declarationLine := lineNumber, sequence := none })
  | none =>
    match (cryptoMapDeclaration U).matchText command with
    | some found =>
      match pyInt U (found.text .sequence) with
      | some sequence => .ok (some
          { kind := .cryptoMap, name := found.text .name, declarationLine := lineNumber,
            sequence := some sequence.toNat })
      | none => .error (.tooManyDigits (found.text .sequence))
    | none => .ok none

/-! ### The loop -/

/-- The variables of `parse_cisco_ios_config`. -/
structure ParserState where
  warnings : List ParseWarning := []
  globalLifetimes : List Phase2LifetimeSetting := []
  associations : List IpsecAssociation := []
  current : Option IpsecAssociation := none
deriving DecidableEq

/-- `associations.append(current.freeze())`, if a block is open. -/
def ParserState.close (s : ParserState) : ParserState :=
  { s with associations := s.associations ++ s.current.toList, current := none }

/-- A lifetime command, of either form or malformed. -/
def isLifetime (found : Option (Cursor CommandGroup PyChar)) (command : PyStr) : Bool :=
  found.isSome || ((lifetimePrefixPattern U).matchText command).isSome

/-- A line without indentation. -/
def parseTopLevel (s : ParserState) (line : SourceLine) : Except ParserError ParserState :=
  let closed := s.close
  let globalMatch := globalLifetimePattern.fullmatch line.command
  if isLifetime U globalMatch line.command then do
    let (setting, warnings) ← parseLifetime U line (py "global configuration") globalMatch
    return { closed with
      warnings := closed.warnings ++ warnings
      globalLifetimes := closed.globalLifetimes ++ setting.toList }
  else do
    let current ← topLevelDeclaration U line.command line.number
    return { closed with current := current }

/-- An indented line of an open block. -/
def parseInBlock (s : ParserState) (current : IpsecAssociation) (line : SourceLine) :
    Except ParserError ParserState :=
  let lifetimeMatch := setLifetimePattern.fullmatch line.command
  if isLifetime U lifetimeMatch line.command then do
    let (setting, warnings) ← parseLifetime U line current.name lifetimeMatch
    return { s with
      warnings := s.warnings ++ warnings
      current := some { current with lifetimeSettings := current.lifetimeSettings ++ setting.toList } }
  else match setPeerPattern.matchText line.command with
    | some found => .ok { s with
        current := some { current with
          peerAddresses := current.peerAddresses ++ [⟨found.text .peer, line.number⟩] } }
    | none => .ok s

/-- The body of the loop. -/
def parseLine (s : ParserState) (line : SourceLine) : Except ParserError ParserState :=
  if line.skipped then .ok s
  else if line.indentation = 0 then parseTopLevel U s line
  else match s.current with
    | none => .ok s
    | some current => parseInBlock U s current line

/-- `parse_cisco_ios_config`. -/
def parseCiscoIosConfig (configuration : PyStr) : Except ParserError CiscoIosConfig := do
  let lines := sourceLines configuration
  let s ← lines.foldlM (parseLine U) {}
  return { sourceLines := lines
           globalPhase2Lifetimes := s.globalLifetimes
           ipsecAssociations := s.close.associations
           warnings := s.warnings }

end

/-- A source line keeps the text of its line. -/
theorem toSourceLine_text {t : PyStr} (ht : NoBreak t) (number : Nat) : (toSourceLine number t).text = t := by
  refine List.rdropWhile_eq_self_iff.mpr fun hne hlast => ?_
  have hbreak := ht _ (List.getLast_mem hne)
  rw [Bool.or_eq_true, beq_iff_eq, beq_iff_eq] at hlast
  rcases hlast with hlast | hlast <;> rw [hlast] at hbreak <;> exact absurd hbreak (by decide)

end NetopsCopilot
