import NetopsCopilot.Parsers.BlockSemantics

/-!
# Lines inserted into a configuration

Blank lines, comments and indented lines that the parser does not recognise (`neutral`) leave its state as it
is, wherever they stand, and the parser uses the number of a line only to name it (`parseLine_renumber`). So a
text with such lines inserted is parsed like the text without them, up to line numbers (`parse_insert`).

With the block semantics this is what the parser is for, and it does it exactly on the texts whose units and
sequence numbers convert (`blockFaithful_iff`).
-/

namespace NetopsCopilot

/-! ### Other line numbers -/

/-- A line that the parser passes over: blank, a comment, or indented and not recognised. -/
def neutral (U : UnicodeData) (line : SourceLine) : Bool :=
  line.skipped || (decide (0 < line.indentation) &&
    !isLifetime U (setLifetimePattern.fullmatch line.command) line.command &&
    (setPeerPattern.matchText line.command).isNone)

section

variable (f : Nat → Nat)

def SourceLine.renumber (line : SourceLine) : SourceLine := { line with number := f line.number }

def ParseWarning.renumber (w : ParseWarning) : ParseWarning := { w with lineNumber := f w.lineNumber }

def Phase2LifetimeSetting.renumber (s : Phase2LifetimeSetting) : Phase2LifetimeSetting :=
  { s with lineNumber := f s.lineNumber }

def PeerAddress.renumber (p : PeerAddress) : PeerAddress := { p with lineNumber := f p.lineNumber }

def IpsecAssociation.renumber (a : IpsecAssociation) : IpsecAssociation :=
  { a with
    declarationLine := f a.declarationLine
    peerAddresses := a.peerAddresses.map (PeerAddress.renumber f)
    lifetimeSettings := a.lifetimeSettings.map (Phase2LifetimeSetting.renumber f) }

def ParserState.renumber (s : ParserState) : ParserState where
  warnings := s.warnings.map (ParseWarning.renumber f)
  globalLifetimes := s.globalLifetimes.map (Phase2LifetimeSetting.renumber f)
  associations := s.associations.map (IpsecAssociation.renumber f)
  current := s.current.map (IpsecAssociation.renumber f)

def CiscoIosConfig.renumber (c : CiscoIosConfig) : CiscoIosConfig where
  sourceLines := c.sourceLines.map (SourceLine.renumber f)
  globalPhase2Lifetimes := c.globalPhase2Lifetimes.map (Phase2LifetimeSetting.renumber f)
  ipsecAssociations := c.ipsecAssociations.map (IpsecAssociation.renumber f)
  warnings := c.warnings.map (ParseWarning.renumber f)

end

section

variable {U : UnicodeData} (f : Nat → Nat) (s : ParserState) (line : SourceLine)

theorem close_renumber : (s.renumber f).close = s.close.renumber f := by
  unfold ParserState.close ParserState.renumber
  cases s.current <;> simp

theorem parseLifetime_renumber (command : PyStr) (found : Option (Cursor CommandGroup PyChar)) :
    parseLifetime U (line.renumber f) command found = (parseLifetime U line command found).map fun r =>
      (r.1.map (Phase2LifetimeSetting.renumber f), r.2.map (ParseWarning.renumber f)) := by
  unfold parseLifetime
  cases found with
  | none => rfl
  | some found =>
    dsimp only
    split_ifs
    · rfl
    · cases lifetimeUnit (lowerLetters (found.text .unit)) <;> rfl

theorem topLevelDeclaration_renumber (command : PyStr) (n : Nat) :
    topLevelDeclaration U command (f n) =
      (topLevelDeclaration U command n).map (Option.map (IpsecAssociation.renumber f)) := by
  unfold topLevelDeclaration
  cases profileDeclaration.fullmatch command with
  | some found => rfl
  | none =>
    cases (cryptoMapDeclaration U).matchText command with
    | none => rfl
    | some found =>
      dsimp only
      cases pyInt U (found.text .sequence) <;> rfl

theorem parseTopLevel_renumber : parseTopLevel U (s.renumber f) (line.renumber f) =
    (parseTopLevel U s line).map (ParserState.renumber f) := by
  have hcommand : (line.renumber f).command = line.command := rfl
  unfold parseTopLevel
  dsimp only
  rw [hcommand, close_renumber, parseLifetime_renumber]
  split_ifs with hlifetime
  · cases parseLifetime U line (py "global configuration") (globalLifetimePattern.fullmatch line.command) with
    | error e => rfl
    | ok r =>
      obtain ⟨setting, warnings⟩ := r
      show Except.ok _ = Except.ok _
      cases setting <;> simp [ParserState.renumber, ParserState.close]
  · show (topLevelDeclaration U line.command (f line.number) >>= _) = _
    rw [topLevelDeclaration_renumber]
    cases topLevelDeclaration U line.command line.number <;> rfl

theorem parseInBlock_renumber (a : IpsecAssociation) :
    parseInBlock U (s.renumber f) (a.renumber f) (line.renumber f) =
      (parseInBlock U s a line).map (ParserState.renumber f) := by
  have hcommand : (line.renumber f).command = line.command := rfl
  have hname : (a.renumber f).name = a.name := rfl
  unfold parseInBlock
  dsimp only
  rw [hcommand, hname, parseLifetime_renumber]
  split_ifs with hlifetime
  · cases parseLifetime U line a.name (setLifetimePattern.fullmatch line.command) with
    | error e => rfl
    | ok r =>
      obtain ⟨setting, warnings⟩ := r
      show Except.ok _ = Except.ok _
      cases setting <;> simp [ParserState.renumber, IpsecAssociation.renumber]
  · cases setPeerPattern.matchText line.command with
    | none => rfl
    | some found =>
      show Except.ok _ = Except.ok _
      simp [ParserState.renumber, IpsecAssociation.renumber, PeerAddress.renumber, SourceLine.renumber]

theorem parseLine_renumber : parseLine U (s.renumber f) (line.renumber f) =
    (parseLine U s line).map (ParserState.renumber f) := by
  have hskipped : (line.renumber f).skipped = line.skipped := rfl
  have hindentation : (line.renumber f).indentation = line.indentation := rfl
  unfold parseLine
  rw [hskipped, hindentation, parseTopLevel_renumber]
  split_ifs
  · rfl
  · rfl
  · cases hcurrent : s.current with
    | none =>
      have hnone : (s.renumber f).current = none := by rw [ParserState.renumber, hcurrent, Option.map_none]
      rw [hnone]
      rfl
    | some a =>
      have hsome : (s.renumber f).current = some (a.renumber f) := by
        rw [ParserState.renumber, hcurrent, Option.map_some]
      rw [hsome]
      exact parseInBlock_renumber f s line a

theorem parseLines_renumber (lines : List SourceLine) :
    (lines.map (SourceLine.renumber f)).foldlM (parseLine U) (s.renumber f) =
      (lines.foldlM (parseLine U) s).map (ParserState.renumber f) := by
  induction lines generalizing s with
  | nil => rfl
  | cons line lines ih =>
    rw [List.map_cons, List.foldlM_cons, List.foldlM_cons, parseLine_renumber]
    cases parseLine U s line with
    | error e => rfl
    | ok s' => exact ih s'

theorem parseLine_neutral {line : SourceLine} (h : neutral U line = true) : parseLine U s line = .ok s := by
  unfold parseLine
  by_cases hskipped : line.skipped = true
  · rw [if_pos hskipped]
  · simp only [neutral, hskipped, Bool.false_or, Bool.and_eq_true, decide_eq_true_eq, Bool.not_eq_true',
      Option.isNone_iff_eq_none] at h
    obtain ⟨⟨hindentation, hlifetime⟩, hpeer⟩ := h
    rw [if_neg hskipped, if_neg (by omega)]
    cases s.current with
    | none => rfl
    | some a =>
      show parseInBlock U s a line = .ok s
      unfold parseInBlock
      dsimp only
      rw [hlifetime, if_neg Bool.false_ne_true, hpeer]

theorem parseLines_neutral {lines : List SourceLine} (h : ∀ line ∈ lines, neutral U line = true) :
    lines.foldlM (parseLine U) s = .ok s := by
  induction lines with
  | nil => rfl
  | cons line lines ih =>
    obtain ⟨hline, hlines⟩ := List.forall_mem_cons.mp h
    rw [List.foldlM_cons, parseLine_neutral s hline]
    exact ih hlines

end

/-- Lines numbered from `n`. -/
def numbered (n : Nat) (texts : List PyStr) : List SourceLine :=
  (texts.zipIdx n).map fun l => toSourceLine l.2 l.1

theorem sourceLines_eq (configuration : PyStr) :
    sourceLines configuration = numbered 1 ((splitLines configuration).map (·.text)) := by
  unfold sourceLines numbered
  rw [List.zipIdx_map, List.map_map]
  rfl

theorem numbered_append (n : Nat) (texts texts' : List PyStr) :
    numbered n (texts ++ texts') = numbered n texts ++ numbered (n + texts.length) texts' := by
  unfold numbered
  rw [List.zipIdx_append, List.map_append]

theorem numbered_renumber (f : Nat → Nat) (n m : Nat) (texts : List PyStr)
    (h : ∀ i < texts.length, f (n + i) = m + i) :
    (numbered n texts).map (SourceLine.renumber f) = numbered m texts := by
  induction texts generalizing n m with
  | nil => rfl
  | cons t texts ih =>
    have hfirst : f n = m := h 0 (Nat.zero_lt_succ _)
    have hrest := ih (n + 1) (m + 1) fun i hi => by
      have hnext := h (i + 1) (Nat.succ_lt_succ hi)
      rw [show n + 1 + i = n + (i + 1) by omega, hnext]
      omega
    show (toSourceLine n t).renumber f :: (numbered (n + 1) texts).map (SourceLine.renumber f) =
      toSourceLine m t :: numbered (m + 1) texts
    rw [hrest, ← hfirst]
    rfl

/-- The number of a line after `inserted` lines are inserted behind the first `before` lines. -/
def shifted (before inserted n : Nat) : Nat := if n ≤ before then n else n + inserted

/-- Lines that are passed over change nothing but the numbers of the lines after them. -/
theorem parse_insert (U : UnicodeData) {configuration configuration' : PyStr}
    {before inserted after : List PyStr}
    (h : (splitLines configuration).map (·.text) = before ++ after)
    (h' : (splitLines configuration').map (·.text) = before ++ (inserted ++ after))
    (hneutral : ∀ text ∈ inserted, ∀ n, neutral U (toSourceLine n text) = true) :
    parseCiscoIosConfig U configuration' = (parseCiscoIosConfig U configuration).map fun c =>
      { c.renumber (shifted before.length inserted.length) with sourceLines := sourceLines configuration' } := by
  let f := shifted before.length inserted.length
  have hbefore : (numbered 1 before).map (SourceLine.renumber f) = numbered 1 before :=
    numbered_renumber f 1 1 before fun i hi => if_pos (by omega)
  have hafter : (numbered (1 + before.length) after).map (SourceLine.renumber f) =
      numbered (1 + before.length + inserted.length) after :=
    numbered_renumber f _ _ after fun i _ => by
      have hshift : f (1 + before.length + i) = 1 + before.length + i + inserted.length := if_neg (by omega)
      rw [hshift]
      omega
  have hinserted : ∀ line ∈ numbered (1 + before.length) inserted, neutral U line = true := by
    intro line hline
    obtain ⟨⟨text, n⟩, hmem, rfl⟩ := List.mem_map.mp hline
    exact hneutral text (List.fst_mem_of_mem_zipIdx hmem) n
  have hrun : (sourceLines configuration').foldlM (parseLine U) {} =
      ((sourceLines configuration).foldlM (parseLine U) {}).map (ParserState.renumber f) := by
    have hempty : ({} : ParserState).renumber f = {} := rfl
    rw [← parseLines_renumber, hempty, sourceLines_eq configuration, sourceLines_eq configuration', h, h',
      numbered_append, numbered_append, numbered_append, List.map_append, hbefore, hafter, List.foldlM_append,
      List.foldlM_append]
    refine congrArg (_ >>= ·) (funext fun s => ?_)
    rw [List.foldlM_append, parseLines_neutral s hinserted]
    rfl
  unfold parseCiscoIosConfig
  dsimp only
  rw [hrun]
  cases (sourceLines configuration).foldlM (parseLine U) {} with
  | error e => rfl
  | ok s =>
    show Except.ok _ = Except.ok _
    rw [close_renumber]
    rfl

/-! ### Main result -/

/-- What the parser should do on a text: it returns what the blocks of its lines mean, the source lines are
those of `splitlines` numbered from 1, and lines that it passes over change nothing but line numbers. -/
structure BlockFaithful (U : UnicodeData) (configuration : PyStr) : Prop where
  meaning : parseCiscoIosConfig U configuration = .ok (blockSemantics U (sourceLines configuration))
  lines : (sourceLines configuration).map (fun line => (line.text, line.number)) =
    ((splitLines configuration).map (·.text)).zipIdx 1
  insertion : ∀ configuration' before inserted after,
    (splitLines configuration).map (·.text) = before ++ after →
    (splitLines configuration').map (·.text) = before ++ (inserted ++ after) →
    (∀ text ∈ inserted, ∀ n, neutral U (toSourceLine n text) = true) →
    parseCiscoIosConfig U configuration' = .ok
      { (blockSemantics U (sourceLines configuration)).renumber (shifted before.length inserted.length) with
        sourceLines := sourceLines configuration' }

theorem sourceLines_texts (configuration : PyStr) :
    (sourceLines configuration).map (fun line => (line.text, line.number)) =
      ((splitLines configuration).map (·.text)).zipIdx 1 := by
  rw [sourceLines_eq]
  unfold numbered
  rw [List.map_map]
  conv_rhs => rw [← List.map_id (((splitLines configuration).map (·.text)).zipIdx 1)]
  refine List.map_congr_left fun l hl => ?_
  obtain ⟨line, hline, htext⟩ := List.mem_map.mp (List.fst_mem_of_mem_zipIdx hl)
  have hbreak := (splitLines_spec configuration).1.noBreak line hline
  rw [htext] at hbreak
  exact Prod.ext (toSourceLine_text hbreak l.2) rfl

/-- **The block semantics.** The parser does what it should on a text if and only if every block has lifetime
units and sequence numbers that convert; otherwise it raises. -/
theorem blockFaithful_iff (U : UnicodeData) (configuration : PyStr) :
    BlockFaithful U configuration ↔ ∀ b ∈ blocks (sourceLines configuration), Convertible U b := by
  constructor
  · intro h
    rcases parse_spec U configuration with ⟨-, e, he⟩ | ⟨hall, -⟩
    · have hmeaning := h.meaning
      rw [he] at hmeaning
      cases hmeaning
    · exact hall
  · intro h
    rcases parse_spec U configuration with ⟨hnot, -⟩ | ⟨-, hparse⟩
    · exact absurd h hnot
    · refine ⟨hparse, sourceLines_texts configuration, ?_⟩
      intro configuration' before inserted after hbefore hafter hneutral
      rw [parse_insert U hbefore hafter hneutral, hparse]
      rfl

/-- The parser raises on a lifetime in `ſeconds`. -/
theorem foreign_seconds :
    ¬BlockFaithful .ascii (py "crypto ipsec security-association lifetime \u017Feconds 3600") := by
  intro h
  have hraises : (parseCiscoIosConfig .ascii
      (py "crypto ipsec security-association lifetime \u017Feconds 3600")).toOption = none := by
    decide +kernel
  rw [h.meaning] at hraises
  cases hraises

end NetopsCopilot
