import NetopsCopilot.Validators.Phase2Lifetime

/-!
# The block semantics of a configuration

What `parse_cisco_ios_config` should return, read off the lines without a state: a line without indentation
that is neither blank nor a comment heads a block, which has the indented, blank and comment lines that
follow it. A head that declares an association and is no lifetime command opens it; its settings and peers
are those of the well-formed lines of its block (`blockSemantics`).

The parser returns exactly that if the lifetime units of the lines it applies and the sequence numbers of its
declarations pass the builtins that convert them (`Convertible`), and raises otherwise (`parse_spec`).
-/

namespace NetopsCopilot

open Raising

/-! ### Blocks -/

/-- The heads of the blocks with the lines inside them. -/
def blocks : List SourceLine → List (SourceLine × List SourceLine)
  | [] => []
  | line :: lines =>
    if line.inside then blocks lines else (line, lines.takeWhile SourceLine.inside) :: blocks lines

section

variable (U : UnicodeData)

/-- The association that a head declares. -/
def declared (head : SourceLine) : Option IpsecAssociation :=
  if isLifetime U (globalLifetimePattern.fullmatch head.command) head.command then none
  else (topLevelDeclaration U head.command head.number).toOption.join

/-- The peer of a line of a block. -/
def blockPeer (line : SourceLine) : Option PeerAddress :=
  if line.skipped || isLifetime U (setLifetimePattern.fullmatch line.command) line.command then none
  else (setPeerPattern.matchText line.command).map fun found => ⟨found.text .peer, line.number⟩

/-- The association of a block. -/
def blockAssociation (block : SourceLine × List SourceLine) : Option IpsecAssociation :=
  (declared U block.1).map fun a => { a with
    peerAddresses := block.2.filterMap (blockPeer U)
    lifetimeSettings := block.2.filterMap (blockSetting U) }

/-- The warning of a line that starts as a lifetime command and has not its form. -/
def malformedWarning (line : SourceLine) : ParseWarning where
  code := py "cisco_ios.ipsec.malformed_phase2_lifetime"
  message := py "IPsec Phase 2 lifetime command is malformed and was not applied."
  lineNumber := line.number

/-- The warning of a lifetime command without a positive integer. -/
def invalidWarning (command : PyStr) (line : SourceLine) (found : Cursor CommandGroup PyChar) :
    ParseWarning where
  code := py "cisco_ios.ipsec.invalid_phase2_lifetime"
  message := py "IPsec Phase 2 " ++ lowerLetters (found.text .unit) ++ py " lifetime " ++
    reprStr U (found.text .value) ++ py " in " ++ command ++ py " must be a positive integer."
  lineNumber := line.number

/-- One warning for a line that starts as a lifetime command and is not applied. -/
def unappliedWarning (pattern : CommandPattern) (command : PyStr) (line : SourceLine) : List ParseWarning :=
  if isLifetime U (pattern.fullmatch line.command) line.command && (lifetimeSetting U pattern line).isNone then
    [(pattern.fullmatch line.command).elim (malformedWarning line) (invalidWarning U command line)]
  else []

/-- The warnings of a block. -/
def blockWarnings (block : SourceLine × List SourceLine) : List ParseWarning :=
  unappliedWarning U globalLifetimePattern (py "global configuration") block.1 ++
    match declared U block.1 with
    | some a => (block.2.filter fun line => !line.skipped).flatMap (unappliedWarning U setLifetimePattern a.name)
    | none => []

/-- What the lines of a configuration mean. -/
def blockSemantics (lines : List SourceLine) : CiscoIosConfig where
  sourceLines := lines
  globalPhase2Lifetimes := lines.filterMap (globalSetting U)
  ipsecAssociations := (blocks lines).filterMap (blockAssociation U)
  warnings := (blocks lines).flatMap (blockWarnings U)

/-! ### Conversions that raise -/

/-- A well-formed lifetime command with a positive value whose unit is not one of `LifetimeUnit` in lower
case. -/
def ForeignUnit (pattern : CommandPattern) (line : SourceLine) : Prop :=
  ∃ found, pattern.fullmatch line.command = some found ∧ 0 < (pyInt U (found.text .value)).getD 0 ∧
    ∀ unit : LifetimeUnit, lowerLetters (found.text .unit) ≠ unit.value

/-- A declaration of a crypto map whose sequence number has more than 4300 digits. -/
def LongSequence (line : SourceLine) : Prop :=
  isLifetime U (globalLifetimePattern.fullmatch line.command) line.command = false ∧
    profileDeclaration.fullmatch line.command = none ∧
    ∃ found, (cryptoMapDeclaration U).matchText line.command = some found ∧
      maxStrDigits < (found.text .sequence).length

/-- A block none of whose lines has a number or a unit that its conversion refuses. -/
structure Convertible (block : SourceLine × List SourceLine) : Prop where
  head_unit : ¬ForeignUnit U globalLifetimePattern block.1
  head_sequence : ¬LongSequence U block.1
  units : (declared U block.1).isSome = true → ∀ line ∈ block.2, line.skipped = false →
    ¬ForeignUnit U setLifetimePattern line

end

/-! ### One line -/

section

variable {U : UnicodeData} {line : SourceLine} {pattern : CommandPattern}

theorem lifetimeUnit_error {text : PyStr} (h : ∀ unit : LifetimeUnit, text ≠ unit.value) :
    lifetimeUnit text = .error (.notALifetimeUnit text) := by
  unfold lifetimeUnit
  rw [if_neg (h .seconds), if_neg (h .kilobytes)]

theorem lifetimeUnit_value (unit : LifetimeUnit) : lifetimeUnit unit.value = .ok unit := by
  cases unit <;> rfl

/-- `_parse_lifetime` raises on a foreign unit, and else returns the setting or one warning. -/
theorem parseLifetime_spec (command : PyStr)
    (hlifetime : isLifetime U (pattern.fullmatch line.command) line.command = true) :
    ForeignUnit U pattern line ∧
        (∃ e, parseLifetime U line command (pattern.fullmatch line.command) = .error e) ∨
      ¬ForeignUnit U pattern line ∧ parseLifetime U line command (pattern.fullmatch line.command) =
        .ok (lifetimeSetting U pattern line, unappliedWarning U pattern command line) := by
  unfold unappliedWarning
  rw [hlifetime, Bool.true_and]
  cases hfound : pattern.fullmatch line.command with
  | none =>
    have hsetting : lifetimeSetting U pattern line = none := by
      unfold lifetimeSetting
      rw [hfound]
    refine Or.inr ⟨?_, ?_⟩
    · rintro ⟨found, hsome, -⟩
      rw [hfound] at hsome
      cases hsome
    · rw [hsetting]
      rfl
  | some found =>
    by_cases hpositive : 0 < (pyInt U (found.text .value)).getD 0
    · obtain ⟨value, hvalue⟩ : ∃ value, pyInt U (found.text .value) = some value := by
        cases hint : pyInt U (found.text .value) with
        | none =>
          rw [hint] at hpositive
          exact absurd hpositive (lt_irrefl _)
        | some value => exact ⟨value, rfl⟩
      rw [hvalue, Option.getD_some] at hpositive
      by_cases hunit : ∃ unit : LifetimeUnit, lowerLetters (found.text .unit) = unit.value
      · obtain ⟨unit, hunit⟩ := hunit
        have hsetting : lifetimeSetting U pattern line =
            some { unit := unit, value := value.toNat, lineNumber := line.number } := by
          unfold lifetimeSetting
          rw [hfound]
          dsimp only
          rw [hvalue, hunit, lifetimeUnit_value]
          exact if_pos hpositive
        refine Or.inr ⟨?_, ?_⟩
        · rintro ⟨found', hsome, -, hforeign⟩
          rw [hfound] at hsome
          cases hsome
          exact hforeign unit hunit
        · unfold parseLifetime
          dsimp only
          rw [hvalue, Option.getD_some, if_neg (not_le.mpr hpositive), hunit, lifetimeUnit_value, hsetting]
          rfl
      · have hforeign : ∀ unit : LifetimeUnit, lowerLetters (found.text .unit) ≠ unit.value :=
          fun unit heq => hunit ⟨unit, heq⟩
        refine Or.inl ⟨⟨found, hfound, ?_, hforeign⟩, .notALifetimeUnit (lowerLetters (found.text .unit)), ?_⟩
        · rwa [hvalue, Option.getD_some]
        · unfold parseLifetime
          dsimp only
          rw [hvalue, Option.getD_some, if_neg (not_le.mpr hpositive), lifetimeUnit_error hforeign]
          rfl
    · have hsetting : lifetimeSetting U pattern line = none := by
        unfold lifetimeSetting
        rw [hfound]
        dsimp only
        split
        next unit value hunit hvalue =>
          rw [hvalue, Option.getD_some] at hpositive
          exact if_neg hpositive
        next => rfl
      refine Or.inr ⟨?_, ?_⟩
      · rintro ⟨found', hsome, hpositive', -⟩
        rw [hfound] at hsome
        cases hsome
        exact hpositive hpositive'
      · unfold parseLifetime
        dsimp only
        rw [if_pos (not_lt.mp hpositive), hsetting]
        rfl

/-- The digits of a sequence number. -/
theorem sequence_digits {command : PyStr} {found : Cursor CommandGroup PyChar}
    (h : (cryptoMapDeclaration U).matchText command = some found) :
    found.text .sequence ≠ [] ∧ ∀ c ∈ found.text .sequence, (U.decimal c).isSome = true := by
  have hmem : found ∈ (cryptoMapDeclaration U).ends (Regex.startOf command) := List.mem_of_head? h
  have hlang : (Re.digits1 U : CommandPattern).Lang (found.text .sequence) :=
    @Regex.lang_text _ _ _ _ _ _ _ _ [Re.start, Re.lit "crypto", Re.spaces1,
      .opt (.group .dynamic (Re.lit "dynamic-")), Re.lit "map", Re.spaces1, .group .name Re.nonSpaces1,
      Re.spaces1] [Re.boundary U] rfl hmem
  obtain ⟨u, v, huv, ⟨c, rfl, hc⟩, hv⟩ := hlang
  rw [huv]
  exact ⟨List.cons_ne_nil c v, List.forall_mem_cons.mpr ⟨hc, hv⟩⟩

/-- `_top_level_declaration` raises on a long sequence number only. -/
theorem topLevelDeclaration_spec
    (hlifetime : isLifetime U (globalLifetimePattern.fullmatch line.command) line.command = false) :
    LongSequence U line ∧ (∃ e, topLevelDeclaration U line.command line.number = .error e) ∨
      ¬LongSequence U line ∧ topLevelDeclaration U line.command line.number = .ok (declared U line) := by
  unfold declared
  rw [if_neg (by rw [hlifetime]; exact Bool.false_ne_true)]
  cases hprofile : profileDeclaration.fullmatch line.command with
  | some found =>
    have hdeclaration : topLevelDeclaration U line.command line.number = .ok (some
        { kind := .ipsecProfile, name := found.text .name, declarationLine := line.number, sequence := none }) := by
      unfold topLevelDeclaration
      rw [hprofile]
    refine Or.inr ⟨?_, ?_⟩
    · rintro ⟨-, hnone, -⟩
      rw [hprofile] at hnone
      cases hnone
    · rw [hdeclaration]
      rfl
  | none =>
    cases hmap : (cryptoMapDeclaration U).matchText line.command with
    | none =>
      have hdeclaration : topLevelDeclaration U line.command line.number = .ok none := by
        unfold topLevelDeclaration
        rw [hprofile, hmap]
      refine Or.inr ⟨?_, ?_⟩
      · rintro ⟨-, -, found, hsome, -⟩
        rw [hmap] at hsome
        cases hsome
      · rw [hdeclaration]
        rfl
    | some found =>
      obtain ⟨hne, hdigits⟩ := sequence_digits hmap
      have hint := pyInt_of_decimal hdigits hne
      by_cases hlong : maxStrDigits < (found.text .sequence).length
      · rw [if_neg (not_le.mpr hlong)] at hint
        refine Or.inl ⟨⟨hlifetime, hprofile, found, hmap, hlong⟩, .tooManyDigits (found.text .sequence), ?_⟩
        unfold topLevelDeclaration
        rw [hprofile, hmap]
        dsimp only
        rw [hint]
      · rw [if_pos (not_lt.mp hlong)] at hint
        refine Or.inr ⟨?_, ?_⟩
        · rintro ⟨-, -, found', hsome, hlong'⟩
          rw [hmap] at hsome
          cases hsome
          exact hlong hlong'
        · unfold topLevelDeclaration
          rw [hprofile, hmap]
          dsimp only
          rw [hint]
          rfl

/-- What a head does to the state. -/
def ParserState.head (U : UnicodeData) (s : ParserState) (line : SourceLine) : ParserState where
  warnings := s.warnings ++ unappliedWarning U globalLifetimePattern (py "global configuration") line
  globalLifetimes := s.globalLifetimes ++ (globalSetting U line).toList
  associations := s.close.associations
  current := declared U line

/-- A head raises, or does that. -/
theorem parseLine_head (s : ParserState) (hline : line.inside = false) :
    (ForeignUnit U globalLifetimePattern line ∨ LongSequence U line) ∧ (∃ e, parseLine U s line = .error e) ∨
      ¬ForeignUnit U globalLifetimePattern line ∧ ¬LongSequence U line ∧
        parseLine U s line = .ok (s.head U line) := by
  have hglobal : globalSetting U line = lifetimeSetting U globalLifetimePattern line :=
    if_neg (by simp [hline])
  simp only [SourceLine.inside, Bool.or_eq_false_iff, decide_eq_false_iff_not, Nat.not_lt, Nat.le_zero] at hline
  have hparse : parseLine U s line = parseTopLevel U s line := by
    unfold parseLine
    rw [hline.1, if_neg Bool.false_ne_true, if_pos hline.2]
  rw [hparse]
  unfold parseTopLevel ParserState.head
  dsimp only
  rw [hglobal]
  cases hlifetime : isLifetime U (globalLifetimePattern.fullmatch line.command) line.command with
  | true =>
    have hlong : ¬LongSequence U line := by
      rintro ⟨hnot, -⟩
      rw [hlifetime] at hnot
      cases hnot
    have hdeclared : declared U line = none := if_pos hlifetime
    rw [if_pos rfl, hdeclared]
    rcases parseLifetime_spec (py "global configuration") hlifetime with ⟨hforeign, e, he⟩ | ⟨hforeign, hok⟩
    · rw [he]
      exact Or.inl ⟨Or.inl hforeign, e, rfl⟩
    · rw [hok]
      exact Or.inr ⟨hforeign, hlong, rfl⟩
  | false =>
    have hforeign : ¬ForeignUnit U globalLifetimePattern line := by
      rintro ⟨found, hfound, -⟩
      rw [hfound] at hlifetime
      cases hlifetime
    have hwarnings : unappliedWarning U globalLifetimePattern (py "global configuration") line = [] := by
      unfold unappliedWarning
      rw [hlifetime]
      rfl
    have hsetting : lifetimeSetting U globalLifetimePattern line = none :=
      lifetimeSetting_of_not_lifetime (U := U) (by rw [hlifetime]; exact Bool.false_ne_true)
    rw [if_neg Bool.false_ne_true, hwarnings, hsetting, Option.toList_none, List.append_nil, List.append_nil]
    rcases topLevelDeclaration_spec hlifetime with ⟨hlong, e, he⟩ | ⟨hlong, hok⟩
    · rw [he]
      exact Or.inl ⟨Or.inr hlong, e, rfl⟩
    · rw [hok]
      exact Or.inr ⟨hforeign, hlong, rfl⟩

/-- What the lines of a block do to the state in which it is open. -/
def ParserState.block (U : UnicodeData) (s : ParserState) (a : IpsecAssociation) (lines : List SourceLine) :
    ParserState :=
  { s with
    warnings := s.warnings ++
      (lines.filter fun line => !line.skipped).flatMap (unappliedWarning U setLifetimePattern a.name)
    current := some { a with
      peerAddresses := a.peerAddresses ++ lines.filterMap (blockPeer U)
      lifetimeSettings := a.lifetimeSettings ++ lines.filterMap (blockSetting U) } }

/-- A line inside a block raises, or does that. -/
theorem parseLine_block {s : ParserState} {a : IpsecAssociation} (hs : s.current = some a)
    (hline : line.inside = true) :
    (line.skipped = false ∧ ForeignUnit U setLifetimePattern line) ∧ (∃ e, parseLine U s line = .error e) ∨
      (line.skipped = false → ¬ForeignUnit U setLifetimePattern line) ∧
        parseLine U s line = .ok (s.block U a [line]) := by
  cases hskipped : line.skipped with
  | true =>
    refine Or.inr ⟨nofun, ?_⟩
    have hpeer : blockPeer U line = none := if_pos (by rw [hskipped]; rfl)
    have hsetting : blockSetting U line = none := if_pos hskipped
    unfold parseLine ParserState.block
    rw [hskipped, if_pos rfl, List.filter_singleton, hskipped, List.filterMap_cons, List.filterMap_cons, hpeer,
      hsetting]
    simp [← hs]
  | false =>
    have hindentation : line.indentation ≠ 0 := by
      simp only [SourceLine.inside, hskipped, Bool.false_or, decide_eq_true_eq] at hline
      omega
    have hparse : parseLine U s line = parseInBlock U s a line := by
      unfold parseLine
      rw [hskipped, if_neg Bool.false_ne_true, if_neg hindentation, hs]
    have hsetting : blockSetting U line = lifetimeSetting U setLifetimePattern line :=
      if_neg (by rw [hskipped]; exact Bool.false_ne_true)
    rw [hparse]
    unfold parseInBlock ParserState.block
    dsimp only
    rw [List.filter_singleton, hskipped, Bool.not_false, cond_true, List.flatMap_singleton]
    cases hlifetime : isLifetime U (setLifetimePattern.fullmatch line.command) line.command with
    | true =>
      have hpeer : blockPeer U line = none := if_pos (by rw [hlifetime, Bool.or_true])
      rw [if_pos rfl]
      rcases parseLifetime_spec a.name hlifetime with ⟨hforeign, e, he⟩ | ⟨hforeign, hok⟩
      · rw [he]
        exact Or.inl ⟨⟨rfl, hforeign⟩, e, rfl⟩
      · rw [hok]
        refine Or.inr ⟨fun _ => hforeign, ?_⟩
        simp only [List.filterMap_cons, List.filterMap_nil, hpeer, hsetting, List.append_nil]
        cases lifetimeSetting U setLifetimePattern line <;> rfl
    | false =>
      have hforeign : ¬ForeignUnit U setLifetimePattern line := by
        rintro ⟨found, hfound, -⟩
        rw [hfound] at hlifetime
        cases hlifetime
      have hwarnings : unappliedWarning U setLifetimePattern a.name line = [] := by
        unfold unappliedWarning
        rw [hlifetime]
        rfl
      have hnone : lifetimeSetting U setLifetimePattern line = none :=
        lifetimeSetting_of_not_lifetime (U := U) (by rw [hlifetime]; exact Bool.false_ne_true)
      have hpeer : blockPeer U line =
          (setPeerPattern.matchText line.command).map fun found => ⟨found.text .peer, line.number⟩ :=
        if_neg (by rw [hskipped, hlifetime]; exact Bool.false_ne_true)
      refine Or.inr ⟨fun _ => hforeign, ?_⟩
      rw [if_neg Bool.false_ne_true, hwarnings, List.append_nil]
      simp only [List.filterMap_cons, List.filterMap_nil, hpeer, hsetting, hnone, List.append_nil]
      cases setPeerPattern.matchText line.command with
      | none =>
        simp [← hs]
      | some found => rfl

end

/-- A declaration has no settings and no peers yet, and names its line. -/
theorem declared_empty {U : UnicodeData} {head : SourceLine} {a : IpsecAssociation}
    (h : declared U head = some a) :
    a.peerAddresses = [] ∧ a.lifetimeSettings = [] ∧ a.declarationLine = head.number := by
  unfold declared topLevelDeclaration at h
  split_ifs at h
  split at h
  · cases h
    exact ⟨rfl, rfl, rfl⟩
  · split at h
    · split at h
      · cases h
        exact ⟨rfl, rfl, rfl⟩
      · cases h
    · cases h

/-! ### The loop -/

theorem blocks_inside {lines : List SourceLine} (h : ∀ line ∈ lines, line.inside = true)
    (rest : List SourceLine) : blocks (lines ++ rest) = blocks rest := by
  induction lines with
  | nil => rfl
  | cons line lines ih =>
    obtain ⟨hline, hlines⟩ := List.forall_mem_cons.mp h
    rw [List.cons_append, blocks, if_pos hline, ih hlines]

section

variable {U : UnicodeData}

/-- Lines outside any block are passed over. -/
theorem parseLines_outside {lines : List SourceLine} {s : ParserState} (hs : s.current = none)
    (hinside : ∀ line ∈ lines, line.inside = true) : lines.foldlM (parseLine U) s = .ok s := by
  induction lines with
  | nil => rfl
  | cons line lines ih =>
    obtain ⟨hline, hlines⟩ := List.forall_mem_cons.mp hinside
    have hstep : parseLine U s line = .ok s := by
      unfold parseLine
      by_cases hskipped : line.skipped = true
      · rw [if_pos hskipped]
      · simp only [SourceLine.inside, hskipped, Bool.false_or, decide_eq_true_eq] at hline
        rw [if_neg hskipped, if_neg (by omega), hs]
    rw [List.foldlM_cons, hstep]
    exact ih hlines

/-- The lines of an open block. -/
theorem parseLines_block {lines : List SourceLine} {s : ParserState} {a : IpsecAssociation}
    (hs : s.current = some a) (hinside : ∀ line ∈ lines, line.inside = true) :
    (¬∀ line ∈ lines, line.skipped = false → ¬ForeignUnit U setLifetimePattern line) ∧
        (∃ e, lines.foldlM (parseLine U) s = .error e) ∨
      (∀ line ∈ lines, line.skipped = false → ¬ForeignUnit U setLifetimePattern line) ∧
        lines.foldlM (parseLine U) s = .ok (s.block U a lines) := by
  induction lines generalizing s a with
  | nil =>
    refine Or.inr ⟨nofun, ?_⟩
    unfold ParserState.block
    simp [← hs]
    rfl
  | cons line lines ih =>
    obtain ⟨hline, hlines⟩ := List.forall_mem_cons.mp hinside
    rw [List.foldlM_cons, List.forall_mem_cons]
    rcases parseLine_block hs hline with ⟨⟨hskipped, hforeign⟩, e, he⟩ | ⟨hunit, hok⟩
    · rw [he]
      exact Or.inl ⟨fun h => h.1 hskipped hforeign, e, rfl⟩
    · rw [hok]
      have hnext : (s.block U a [line]).current = some { a with
          peerAddresses := a.peerAddresses ++ [line].filterMap (blockPeer U)
          lifetimeSettings := a.lifetimeSettings ++ [line].filterMap (blockSetting U) } := rfl
      rcases ih hnext hlines with ⟨hnot, e, he⟩ | ⟨hunits, hrest⟩
      · exact Or.inl ⟨fun h => hnot h.2, e, he⟩
      · refine Or.inr ⟨⟨hunit, hunits⟩, hrest.trans ?_⟩
        have hsplit : line :: lines = [line] ++ lines := rfl
        unfold ParserState.block
        rw [hsplit, List.filter_append, List.flatMap_append, List.filterMap_append, List.filterMap_append]
        simp only [List.append_assoc]

/-- The loop over whole blocks raises, or collects what they mean. -/
theorem parseLines_blocks (lines : List SourceLine) (s : ParserState)
    (hhead : ∀ first ∈ lines.head?, first.inside = false) :
    (¬∀ b ∈ blocks lines, Convertible U b) ∧ (∃ e, lines.foldlM (parseLine U) s = .error e) ∨
      (∀ b ∈ blocks lines, Convertible U b) ∧ ∃ s', lines.foldlM (parseLine U) s = .ok s' ∧
        s'.close.associations = s.close.associations ++ (blocks lines).filterMap (blockAssociation U) ∧
        s'.globalLifetimes = s.globalLifetimes ++ lines.filterMap (globalSetting U) ∧
        s'.warnings = s.warnings ++ (blocks lines).flatMap (blockWarnings U) := by
  induction hn : lines.length using Nat.strongRecOn generalizing lines s with
  | ind n ih =>
    cases lines with
    | nil => exact Or.inr ⟨nofun, s, rfl, by simp [blocks], by simp, by simp [blocks]⟩
    | cons head lines =>
      have hline : head.inside = false := hhead head rfl
      -- the block of the head, and the lines from the next head on
      obtain ⟨body, hbody⟩ : ∃ body, lines.takeWhile SourceLine.inside = body := ⟨_, rfl⟩
      obtain ⟨rest, hrest⟩ : ∃ rest, lines.dropWhile SourceLine.inside = rest := ⟨_, rfl⟩
      have hlines : lines = body ++ rest := by
        rw [← hbody, ← hrest, List.takeWhile_append_dropWhile]
      have hinside : ∀ line ∈ body, line.inside = true := by
        intro line hmem
        rw [← hbody] at hmem
        exact List.mem_takeWhile_imp hmem
      have hnext : ∀ first ∈ rest.head?, first.inside = false := by
        intro first hfirst
        have hnot := List.head?_dropWhile_not SourceLine.inside lines
        rw [hrest, hfirst] at hnot
        exact hnot
      have hblocks : blocks (head :: lines) = (head, body) :: blocks rest := by
        rw [blocks, if_neg (by simp [hline]), hbody, hlines, blocks_inside hinside]
      have hglobals : (head :: lines).filterMap (globalSetting U) =
          (globalSetting U head).toList ++ rest.filterMap (globalSetting U) := by
        have hnone : body.filterMap (globalSetting U) = [] :=
          List.filterMap_eq_nil_iff.mpr fun line hmem => globalSetting_inside (hinside line hmem)
        rw [List.filterMap_cons, hlines, List.filterMap_append, hnone, List.nil_append]
        cases globalSetting U head <;> rfl
      have hrec := fun s => ih rest.length
        (by rw [← hn, hlines, List.length_cons, List.length_append]; omega) rest s hnext rfl
      rw [hblocks, List.forall_mem_cons, List.foldlM_cons, hglobals, List.flatMap_cons]
      rcases parseLine_head s hline with ⟨hraises, e, he⟩ | ⟨hunit, hsequence, hok⟩
      · rw [he]
        refine Or.inl ⟨fun h => ?_, e, rfl⟩
        rcases hraises with hraises | hraises
        · exact h.1.head_unit hraises
        · exact h.1.head_sequence hraises
      · rw [hok]
        show (¬(_ ∧ _) ∧ ∃ e, lines.foldlM (parseLine U) (s.head U head) = .error e) ∨
          (_ ∧ _) ∧ ∃ s', lines.foldlM (parseLine U) (s.head U head) = .ok s' ∧ _
        rw [hlines, List.foldlM_append]
        -- what the block and the blocks after it come to, from a state that the block leads to
        have hjoin : ∀ s₁ : ParserState, body.foldlM (parseLine U) (s.head U head) = .ok s₁ →
            Convertible U (head, body) →
            s₁.close.associations = s.close.associations ++ (blockAssociation U (head, body)).toList →
            s₁.globalLifetimes = s.globalLifetimes ++ (globalSetting U head).toList →
            s₁.warnings = s.warnings ++ blockWarnings U (head, body) →
            (¬(Convertible U (head, body) ∧ ∀ b ∈ blocks rest, Convertible U b) ∧
              ∃ e, (body.foldlM (parseLine U) (s.head U head) >>= fun s₁ => rest.foldlM (parseLine U) s₁) =
                .error e) ∨
            (Convertible U (head, body) ∧ ∀ b ∈ blocks rest, Convertible U b) ∧
              ∃ s', (body.foldlM (parseLine U) (s.head U head) >>= fun s₁ => rest.foldlM (parseLine U) s₁) =
                  .ok s' ∧
                s'.close.associations = s.close.associations ++
                  ((head, body) :: blocks rest).filterMap (blockAssociation U) ∧
                s'.globalLifetimes = s.globalLifetimes ++
                  ((globalSetting U head).toList ++ rest.filterMap (globalSetting U)) ∧
                s'.warnings = s.warnings ++
                  (blockWarnings U (head, body) ++ (blocks rest).flatMap (blockWarnings U)) := by
          intro s₁ hbodyrun hconvertible hassociations hlifetimes hwarnings
          rw [hbodyrun]
          rcases hrec s₁ with ⟨hnot, e, he⟩ | ⟨hall, s', hrun, hassociations', hlifetimes', hwarnings'⟩
          · exact Or.inl ⟨fun h => hnot h.2, e, he⟩
          · refine Or.inr ⟨⟨hconvertible, hall⟩, s', hrun, ?_, ?_, ?_⟩
            · rw [hassociations', hassociations, List.append_assoc, List.filterMap_cons]
              cases blockAssociation U (head, body) <;> rfl
            · rw [hlifetimes', hlifetimes, List.append_assoc]
            · rw [hwarnings', hwarnings, List.append_assoc]
        cases hdeclared : declared U head with
        | none =>
          have hcurrent : (s.head U head).current = none := hdeclared
          refine hjoin _ (parseLines_outside hcurrent hinside) ⟨hunit, hsequence, ?_⟩ ?_ rfl ?_
          · intro hsome
            rw [hdeclared] at hsome
            cases hsome
          · show s.close.associations ++ (declared U head).toList = _
            unfold blockAssociation
            rw [hdeclared]
            rfl
          · show s.warnings ++ _ = _
            unfold blockWarnings
            rw [hdeclared, List.append_nil]
        | some a =>
          have hcurrent : (s.head U head).current = some a := hdeclared
          rcases parseLines_block hcurrent hinside with ⟨hnot, e, he⟩ | ⟨hunits, hrun⟩
          · rw [he]
            refine Or.inl ⟨fun h => hnot (h.1.units ?_), e, rfl⟩
            rw [hdeclared]
            rfl
          · refine hjoin _ hrun ⟨hunit, hsequence, fun _ => hunits⟩ ?_ rfl ?_
            · show s.close.associations ++ [_] = _
              unfold blockAssociation
              rw [hdeclared]
              have hempty := declared_empty hdeclared
              rw [hempty.1, hempty.2.1]
              rfl
            · show (s.warnings ++ _) ++ _ = _
              unfold blockWarnings
              rw [hdeclared, List.append_assoc]

/-- The parser returns what the blocks mean, or raises. -/
theorem parse_spec (U : UnicodeData) (configuration : PyStr) :
    (¬∀ b ∈ blocks (sourceLines configuration), Convertible U b) ∧
        (∃ e, parseCiscoIosConfig U configuration = .error e) ∨
      (∀ b ∈ blocks (sourceLines configuration), Convertible U b) ∧
        parseCiscoIosConfig U configuration = .ok (blockSemantics U (sourceLines configuration)) := by
  -- the lines before the first head
  obtain ⟨before, rest, hlines, hinside, hhead⟩ : ∃ before rest, sourceLines configuration = before ++ rest ∧
      (∀ line ∈ before, line.inside = true) ∧ ∀ first ∈ rest.head?, first.inside = false := by
    refine ⟨_, _, (@List.takeWhile_append_dropWhile _ SourceLine.inside _).symm,
      fun line hline => List.mem_takeWhile_imp hline, fun first hfirst => ?_⟩
    have hnot := List.head?_dropWhile_not SourceLine.inside (sourceLines configuration)
    rw [hfirst] at hnot
    exact hnot
  have hblocks : blocks (sourceLines configuration) = blocks rest := by
    rw [hlines, blocks_inside hinside]
  have hglobals : (sourceLines configuration).filterMap (globalSetting U) = rest.filterMap (globalSetting U) := by
    rw [hlines, List.filterMap_append,
      List.filterMap_eq_nil_iff.mpr fun line hmem => globalSetting_inside (hinside line hmem), List.nil_append]
  have hrun : (sourceLines configuration).foldlM (parseLine U) {} = rest.foldlM (parseLine U) {} := by
    rw [hlines, List.foldlM_append, parseLines_outside rfl hinside]
    rfl
  unfold parseCiscoIosConfig blockSemantics
  dsimp only
  rw [hrun, hblocks, hglobals]
  rcases parseLines_blocks rest {} hhead with ⟨hnot, e, he⟩ | ⟨hall, s', hs', hassociations, hlifetimes, hwarnings⟩
  · rw [he]
    exact Or.inl ⟨hnot, e, rfl⟩
  · rw [hs']
    refine Or.inr ⟨hall, ?_⟩
    show Except.ok (CiscoIosConfig.mk _ s'.globalLifetimes s'.close.associations s'.warnings) = _
    rw [hassociations, hlifetimes, hwarnings]
    rfl

end

end NetopsCopilot
