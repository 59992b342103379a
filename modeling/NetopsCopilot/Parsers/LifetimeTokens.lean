import NetopsCopilot.Lib.Rows
import NetopsCopilot.Parsers.BlockSemantics
import NetopsCopilot.Python.JsonText

/-!
# The numbers of lifetime commands

The value of a lifetime command is any token for the pattern, and what `int` makes of it for the parser. A
device takes ASCII digits only, so a positive number in ASCII digits should be recorded with that value, and
any other token should give one warning (`TokenTaken`).

`int` also reads a sign, underscores between digits and the decimal digits of all scripts, and refuses more
than 4300 digits. The parser does what it should exactly where that makes no difference (`tokenTaken_iff`).
-/

namespace NetopsCopilot

/-! ### Lifetime commands -/

/-- A line that the parser matches with a pattern for a whole lifetime command: a line without indentation,
or a line of the block of a declaration. -/
inductive LifetimeLine (U : UnicodeData) (lines : List SourceLine) : CommandPattern → SourceLine → Prop where
  | global {line : SourceLine} (hline : line ∈ lines) (hhead : line.inside = false) :
      LifetimeLine U lines globalLifetimePattern line
  | block {b : SourceLine × List SourceLine} {line : SourceLine} (hb : b ∈ blocks lines)
      (hdeclared : (declared U b.1).isSome = true) (hline : line ∈ b.2) (hskipped : line.skipped = false) :
      LifetimeLine U lines setLifetimePattern line

/-- The settings recorded for a line. -/
def settingsAt (c : CiscoIosConfig) (n : Nat) : List Phase2LifetimeSetting :=
  (c.globalPhase2Lifetimes ++ c.ipsecAssociations.flatMap (·.lifetimeSettings)).filter fun s => s.lineNumber == n

/-- The warnings about a line. -/
def warningsAt (c : CiscoIosConfig) (n : Nat) : List ParseWarning :=
  c.warnings.filter fun w => w.lineNumber == n

/-- A non-empty text of ASCII digits. -/
def plainDigits (token : PyStr) : Bool := !token.isEmpty && token.all isDigit

/-- The number of a text of ASCII digits. -/
def plainNumber (token : PyStr) : Nat := token.foldl (fun n c => 10 * n + (c.val - 48)) 0

/-- What a lifetime command should come to: a setting with the value of its token if that is a positive number
in ASCII digits, and one warning otherwise. -/
def TokenTaken (U : UnicodeData) (configuration : PyStr) (line : SourceLine)
    (found : Cursor CommandGroup PyChar) : Prop :=
  ∃ c, parseCiscoIosConfig U configuration = .ok c ∧
    if plainDigits (found.text .value) = true ∧ 0 < plainNumber (found.text .value) then
      (∃ unit : LifetimeUnit, lowerLetters (found.text .unit) = unit.value ∧ settingsAt c line.number =
        [{ unit := unit, value := plainNumber (found.text .value), lineNumber := line.number }]) ∧
      warningsAt c line.number = []
    else settingsAt c line.number = [] ∧ (warningsAt c line.number).length = 1

/-- A token that `int` reads as a device does: a positive number in ASCII digits with at most 4300 of them, or
no positive number. -/
def TokenPlain (U : UnicodeData) (token : PyStr) : Prop :=
  if plainDigits token = true ∧ 0 < plainNumber token then token.length ≤ maxStrDigits
  else (pyInt U token).getD 0 ≤ 0

/-! ### What is recorded for a line -/

section

variable {U : UnicodeData} {lines : List SourceLine}

/-- The blocks have lines of the text, one after the other. -/
theorem blocks_sublist (lines : List SourceLine) :
    ((blocks lines).flatMap fun b => b.1 :: b.2).Sublist lines := by
  induction hn : lines.length using Nat.strongRecOn generalizing lines with
  | ind n ih =>
    cases lines with
    | nil => exact List.Sublist.refl []
    | cons line lines =>
      rw [blocks]
      split_ifs with hline
      · exact (ih lines.length (by rw [← hn]; exact Nat.lt_succ_self _) lines rfl).cons line
      · have hsplit := @List.takeWhile_append_dropWhile _ SourceLine.inside lines
        have hrest : blocks lines = blocks (lines.dropWhile SourceLine.inside) := by
          conv_lhs => rw [← hsplit]
          exact blocks_inside (fun line hmem => List.mem_takeWhile_imp hmem) _
        rw [List.flatMap_cons, hrest]
        conv_rhs => rw [← hsplit]
        have hdrop := (List.dropWhile_sublist SourceLine.inside (l := lines)).length_le
        exact (List.Sublist.refl _).append (ih _ (by rw [← hn, List.length_cons]; omega) _ rfl)

/-- A line that is not inside a block heads one. -/
theorem exists_block {line : SourceLine} (hline : line ∈ lines) (hhead : line.inside = false) :
    ∃ b ∈ blocks lines, b.1 = line := by
  induction lines with
  | nil => cases hline
  | cons first lines ih =>
    rw [blocks]
    rcases List.mem_cons.mp hline with rfl | hline
    · rw [if_neg (by simp [hhead])]
      exact ⟨_, List.mem_cons_self, rfl⟩
    · obtain ⟨b, hb, heq⟩ := ih hline
      split_ifs
      · exact ⟨b, hb, heq⟩
      · exact ⟨b, List.mem_cons_of_mem _ hb, heq⟩

/-- The lines of a block are inside it. -/
theorem inside_of_block {b : SourceLine × List SourceLine} (hb : b ∈ blocks lines) {line : SourceLine}
    (hline : line ∈ b.2) : line.inside = true := by
  induction lines with
  | nil => cases hb
  | cons first lines ih =>
    rw [blocks] at hb
    split_ifs at hb
    · exact ih hb
    · rcases List.mem_cons.mp hb with rfl | hb
      · exact List.mem_takeWhile_imp hline
      · exact ih hb

theorem numberedFrom_le {n : Nat} (h : NumberedFrom n lines) : ∀ line ∈ lines, n ≤ line.number := by
  induction lines generalizing n with
  | nil => exact nofun
  | cons first lines ih =>
    refine List.forall_mem_cons.mpr ⟨h.1.ge, fun line hline => ?_⟩
    have hle := ih h.2 line hline
    omega

/-- Lines have different numbers. -/
theorem nodup_numbers {n : Nat} (h : NumberedFrom n lines) : (lines.map (·.number)).Nodup := by
  induction lines generalizing n with
  | nil => exact List.nodup_nil
  | cons first lines ih =>
    rw [List.map_cons, List.nodup_cons]
    refine ⟨fun hmem => ?_, ih h.2⟩
    obtain ⟨line, hline, heq⟩ := List.mem_map.mp hmem
    have hle := numberedFrom_le h.2 line hline
    have hfirst := h.1
    omega

theorem lineNumber_unapplied {pattern : CommandPattern} {command : PyStr} {line : SourceLine}
    {w : ParseWarning} (h : w ∈ unappliedWarning U pattern command line) : w.lineNumber = line.number := by
  unfold unappliedWarning at h
  split_ifs at h
  · rw [List.mem_singleton.mp h]
    cases pattern.fullmatch line.command <;> rfl
  · cases h

/-- The settings of a block. -/
def settingsOf (U : UnicodeData) (b : SourceLine × List SourceLine) : List Phase2LifetimeSetting :=
  if (declared U b.1).isSome then b.2.flatMap fun line => (blockSetting U line).toList else []

theorem filterMap_eq_flatMap {α β : Type} (f : α → Option β) (l : List α) :
    l.filterMap f = l.flatMap fun a => (f a).toList := by
  induction l with
  | nil => rfl
  | cons a l ih =>
    rw [List.filterMap_cons, List.flatMap_cons, ← ih]
    cases f a <;> rfl

theorem settings_blockSemantics : (blockSemantics U lines).ipsecAssociations.flatMap (·.lifetimeSettings) =
    (blocks lines).flatMap (settingsOf U) := by
  show ((blocks lines).filterMap (blockAssociation U)).flatMap _ = _
  rw [filterMap_eq_flatMap, List.flatMap_assoc]
  refine List.flatMap_congr fun b _ => ?_
  unfold blockAssociation settingsOf
  rw [filterMap_eq_flatMap (blockSetting U)]
  cases declared U b.1 with
  | none => rfl
  | some a => simp

/-- The numbers of a block. -/
def blockNumbers (b : SourceLine × List SourceLine) : List Nat := (b.1 :: b.2).map (·.number)

theorem nodup_blockNumbers (hnumbers : NumberedFrom 1 lines) : ((blocks lines).flatMap blockNumbers).Nodup := by
  have hsub := (blocks_sublist lines).map (·.number)
  rw [List.map_flatMap] at hsub
  exact hsub.nodup (nodup_numbers hnumbers)

theorem lineNumber_settingsOf {b : SourceLine × List SourceLine} {s : Phase2LifetimeSetting}
    (h : s ∈ settingsOf U b) : ∃ line ∈ b.2, s.lineNumber = line.number := by
  unfold settingsOf at h
  split_ifs at h
  · obtain ⟨line, hline, hs⟩ := List.mem_flatMap.mp h
    exact ⟨line, hline, numbers_blockSetting line s (Option.mem_toList.mp hs)⟩
  · cases h

theorem lineNumber_blockWarnings {b : SourceLine × List SourceLine} {w : ParseWarning}
    (h : w ∈ blockWarnings U b) : w.lineNumber ∈ blockNumbers b := by
  rcases List.mem_append.mp h with h | h
  · rw [lineNumber_unapplied h]
    exact List.mem_cons_self
  · split at h
    · obtain ⟨line, hline, hw⟩ := List.mem_flatMap.mp h
      rw [lineNumber_unapplied hw]
      exact List.mem_cons_of_mem _ (List.mem_map_of_mem (List.mem_filter.mp hline).1)
    · cases h

/-- What is recorded for a line of the text. -/
theorem settingsAt_blockSemantics (hnumbers : NumberedFrom 1 lines) {b : SourceLine × List SourceLine}
    (hb : b ∈ blocks lines) {line : SourceLine} (hline : line ∈ b.1 :: b.2) :
    settingsAt (blockSemantics U lines) line.number =
        (globalSetting U line).toList ++ (settingsOf U b).filter (fun s => s.lineNumber == line.number) ∧
      warningsAt (blockSemantics U lines) line.number =
        (blockWarnings U b).filter fun w => w.lineNumber == line.number := by
  have hmem : line ∈ lines :=
    (blocks_sublist lines).subset (List.mem_flatMap.mpr ⟨b, hb, hline⟩)
  have hnumber : line.number ∈ blockNumbers b := List.mem_map_of_mem hline
  have hself : ∀ l : List Phase2LifetimeSetting, (∀ s ∈ l, s.lineNumber = line.number) →
      l.filter (fun s => s.lineNumber == line.number) = l := by
    intro l hl
    exact List.filter_eq_self.mpr fun s hs => by simp [hl s hs]
  constructor
  · unfold settingsAt
    rw [List.filter_append, settings_blockSemantics]
    congr 1
    · have hlabels : (lines.flatMap fun l => [l.number]).Nodup := by
        have hmap : (lines.flatMap fun l => [l.number]) = lines.map (·.number) :=
          List.flatMap_pure_eq_map _ lines
        rw [hmap]
        exact nodup_numbers hnumbers
      have hsetting : ∀ l ∈ lines, ∀ s ∈ (globalSetting U l).toList, s.lineNumber ∈ [l.number] := by
        intro l _ s hs
        rw [numbers_globalSetting l s (Option.mem_toList.mp hs)]
        exact List.mem_singleton_self _
      show (lines.filterMap (globalSetting U)).filter _ = _
      rw [filterMap_eq_flatMap,
        Rows.filter_flatMap_label hsetting hlabels hmem (List.mem_singleton_self _)]
      exact hself _ fun s hs => numbers_globalSetting line s (Option.mem_toList.mp hs)
    · refine Rows.filter_flatMap_label (fun b' _ s hs => ?_) (nodup_blockNumbers hnumbers) hb hnumber
      obtain ⟨line', hline', heq⟩ := lineNumber_settingsOf hs
      rw [heq]
      exact List.mem_cons_of_mem _ (List.mem_map_of_mem hline')
  · exact Rows.filter_flatMap_label (fun b' _ w hw => lineNumber_blockWarnings hw)
      (nodup_blockNumbers hnumbers) hb hnumber

/-- A lifetime command gives its setting, or one warning. -/
theorem recorded_lifetime (hnumbers : NumberedFrom 1 lines) {pattern : CommandPattern} {line : SourceLine}
    (hline : LifetimeLine U lines pattern line) :
    settingsAt (blockSemantics U lines) line.number = (lifetimeSetting U pattern line).toList ∧
      ∃ command, warningsAt (blockSemantics U lines) line.number = unappliedWarning U pattern command line := by
  cases hline with
  | global hmem hhead =>
    obtain ⟨b, hb, rfl⟩ := exists_block hmem hhead
    obtain ⟨hsettings, hwarnings⟩ := settingsAt_blockSemantics (U := U) hnumbers hb List.mem_cons_self
    -- the lines of the block have other numbers
    have hother : ∀ line ∈ b.2, line.number ≠ b.1.number := by
      have hnd := (List.nodup_flatMap.mp (nodup_blockNumbers hnumbers)).1 b hb
      unfold blockNumbers at hnd
      rw [List.map_cons, List.nodup_cons] at hnd
      exact fun line hline heq => hnd.1 (List.mem_map.mpr ⟨line, hline, heq⟩)
    have hglobal : globalSetting U b.1 = lifetimeSetting U globalLifetimePattern b.1 :=
      if_neg (by simp [hhead])
    refine ⟨?_, py "global configuration", ?_⟩
    · have hnone : (settingsOf U b).filter (fun s => s.lineNumber == b.1.number) = [] := by
        refine List.filter_eq_nil_iff.mpr fun s hs heq => ?_
        obtain ⟨line, hline, hnumber⟩ := lineNumber_settingsOf hs
        rw [beq_iff_eq, hnumber] at heq
        exact hother line hline heq
      rw [hsettings, hnone, List.append_nil, hglobal]
    · rw [hwarnings, blockWarnings, List.filter_append]
      have hkeep : (unappliedWarning U globalLifetimePattern (py "global configuration") b.1).filter
          (fun w => w.lineNumber == b.1.number) =
          unappliedWarning U globalLifetimePattern (py "global configuration") b.1 :=
        List.filter_eq_self.mpr fun w hw => by simp [lineNumber_unapplied hw]
      rw [hkeep, List.append_right_eq_self, List.filter_eq_nil_iff]
      intro w hw heq
      split at hw
      · obtain ⟨line, hline, hw⟩ := List.mem_flatMap.mp hw
        rw [beq_iff_eq, lineNumber_unapplied hw] at heq
        exact hother line (List.mem_filter.mp hline).1 heq
      · cases hw
  | @block b line hb hdeclared hmem hskipped =>
    obtain ⟨hsettings, hwarnings⟩ :=
      settingsAt_blockSemantics (U := U) hnumbers hb (List.mem_cons_of_mem _ hmem)
    obtain ⟨a, ha⟩ := Option.isSome_iff_exists.mp hdeclared
    have hnd := (List.nodup_flatMap.mp (nodup_blockNumbers hnumbers)).1 b hb
    unfold blockNumbers at hnd
    rw [List.map_cons, List.nodup_cons] at hnd
    have hlabels : (b.2.flatMap fun l => [l.number]).Nodup := by
      have hmap : (b.2.flatMap fun l => [l.number]) = b.2.map (·.number) := List.flatMap_pure_eq_map _ b.2
      rw [hmap]
      exact hnd.2
    have hglobal : globalSetting U line = none := globalSetting_inside (inside_of_block hb hmem)
    have hblock : blockSetting U line = lifetimeSetting U setLifetimePattern line :=
      if_neg (by rw [hskipped]; exact Bool.false_ne_true)
    refine ⟨?_, a.name, ?_⟩
    · have hsetting : ∀ l ∈ b.2, ∀ s ∈ (blockSetting U l).toList, s.lineNumber ∈ [l.number] := by
        intro l _ s hs
        rw [numbers_blockSetting l s (Option.mem_toList.mp hs)]
        exact List.mem_singleton_self _
      rw [hsettings, hglobal, Option.toList_none, List.nil_append, settingsOf, if_pos hdeclared,
        Rows.filter_flatMap_label hsetting hlabels hmem (List.mem_singleton_self _), ← hblock]
      exact List.filter_eq_self.mpr fun s hs => by
        simp [numbers_blockSetting line s (Option.mem_toList.mp hs)]
    · have hwarning : ∀ l ∈ b.2, ∀ w ∈ (if l.skipped then [] else unappliedWarning U setLifetimePattern a.name l),
          w.lineNumber ∈ [l.number] := by
        intro l _ w hw
        split_ifs at hw
        · cases hw
        · rw [lineNumber_unapplied hw]
          exact List.mem_singleton_self _
      have hflat : (b.2.filter fun line => !line.skipped).flatMap (unappliedWarning U setLifetimePattern a.name) =
          b.2.flatMap fun l => if l.skipped then [] else unappliedWarning U setLifetimePattern a.name l := by
        generalize b.2 = body
        induction body with
        | nil => rfl
        | cons l body ih =>
          rw [List.flatMap_cons, ← ih]
          cases hl : l.skipped <;> simp [hl]
      have hhead : (unappliedWarning U globalLifetimePattern (py "global configuration") b.1).filter
          (fun w => w.lineNumber == line.number) = [] := by
        refine List.filter_eq_nil_iff.mpr fun w hw heq => hnd.1 ?_
        rw [beq_iff_eq, lineNumber_unapplied hw] at heq
        exact List.mem_map.mpr ⟨line, hmem, heq.symm⟩
      rw [hwarnings, blockWarnings, List.filter_append, hhead, List.nil_append, ha]
      dsimp only
      rw [hflat, Rows.filter_flatMap_label hwarning hlabels hmem (List.mem_singleton_self _), hskipped,
        if_neg Bool.false_ne_true]
      exact List.filter_eq_self.mpr fun w hw => by simp [lineNumber_unapplied hw]

/-- No two blocks share a line of a lifetime command, so the conversions of all blocks cover it. -/
theorem not_foreign {pattern : CommandPattern} {line : SourceLine} (hline : LifetimeLine U lines pattern line)
    (hconvertible : ∀ b ∈ blocks lines, Convertible U b) : ¬ForeignUnit U pattern line := by
  cases hline with
  | global hmem hhead =>
    obtain ⟨b, hb, rfl⟩ := exists_block hmem hhead
    exact (hconvertible b hb).head_unit
  | block hb hdeclared hmem hskipped => exact (hconvertible _ hb).units hdeclared _ hmem hskipped

/-! ### Tokens -/

theorem isDigit_iff_decimal {c : PyChar} (h : isDigit c = true) :
    ∃ d, U.decimal c = some d ∧ d.val = c.val - 48 := by
  simp only [isDigit, Bool.and_eq_true, decide_eq_true_eq] at h
  rw [U.decimal_ascii c (by omega), dif_pos h]
  exact ⟨_, rfl, rfl⟩

/-- `int` on ASCII digits. -/
theorem pyInt_plain {token : PyStr} (h : plainDigits token = true) :
    pyInt U token = if token.length ≤ maxStrDigits then some (Int.ofNat (plainNumber token)) else none := by
  simp only [plainDigits, Bool.and_eq_true, Bool.not_eq_true', List.isEmpty_eq_false_iff,
    List.all_eq_true] at h
  obtain ⟨hne, hdigits⟩ := h
  have hnumber : digitsNumber (token.filterMap U.decimal) = plainNumber token := by
    unfold digitsNumber plainNumber
    generalize 0 = n
    clear hne
    induction token generalizing n with
    | nil => rfl
    | cons c token ih =>
      obtain ⟨hc, htoken⟩ := List.forall_mem_cons.mp hdigits
      obtain ⟨d, hd, hvalue⟩ := @isDigit_iff_decimal U c hc
      rw [List.filterMap_cons, hd, List.foldl_cons, List.foldl_cons, hvalue]
      exact ih htoken _
  rw [pyInt_of_decimal (fun c hc => ?_) hne, hnumber]
  obtain ⟨d, hd, -⟩ := @isDigit_iff_decimal U c (hdigits c hc)
  rw [hd]
  rfl

/-- **Lifetime tokens.** A lifetime command comes to what it should if and only if the text converts and the
token is read as a device reads it. -/
theorem tokenTaken_iff {configuration : PyStr} {pattern : CommandPattern} {line : SourceLine}
    {found : Cursor CommandGroup PyChar} (hline : LifetimeLine U (sourceLines configuration) pattern line)
    (hfound : pattern.fullmatch line.command = some found) :
    TokenTaken U configuration line found ↔
      (∀ b ∈ blocks (sourceLines configuration), Convertible U b) ∧ TokenPlain U (found.text .value) := by
  rcases parse_spec U configuration with ⟨hnot, e, he⟩ | ⟨hall, hparse⟩
  · refine ⟨?_, fun h => absurd h.1 hnot⟩
    rintro ⟨c, hc, -⟩
    rw [he] at hc
    cases hc
  · obtain ⟨hsettings, command, hwarnings⟩ :=
      recorded_lifetime (U := U) (numberedFrom_sourceLines configuration) hline
    have hiff : TokenTaken U configuration line found ↔
        if plainDigits (found.text .value) = true ∧ 0 < plainNumber (found.text .value) then
          (∃ unit : LifetimeUnit, lowerLetters (found.text .unit) = unit.value ∧
            (lifetimeSetting U pattern line).toList =
              [{ unit := unit, value := plainNumber (found.text .value), lineNumber := line.number }]) ∧
          unappliedWarning U pattern command line = []
        else (lifetimeSetting U pattern line).toList = [] ∧
          (unappliedWarning U pattern command line).length = 1 := by
      rw [← hsettings, ← hwarnings]
      constructor
      · rintro ⟨c, hc, htaken⟩
        rw [hparse] at hc
        cases hc
        exact htaken
      · exact fun htaken => ⟨_, hparse, htaken⟩
    have hlifetime : isLifetime U (pattern.fullmatch line.command) line.command = true := by
      rw [hfound]
      rfl
    rw [hiff, and_iff_right hall]
    unfold TokenPlain unappliedWarning
    rw [hlifetime, Bool.true_and]
    by_cases hpositive : 0 < (pyInt U (found.text .value)).getD 0
    · -- the command is applied, with the number that `int` reads
      obtain ⟨unit, hunit⟩ : ∃ unit : LifetimeUnit, lowerLetters (found.text .unit) = unit.value := by
        by_contra hnone
        exact not_foreign hline hall ⟨found, hfound, hpositive, fun unit heq => hnone ⟨unit, heq⟩⟩
      obtain ⟨value, hvalue⟩ : ∃ value, pyInt U (found.text .value) = some value := by
        cases hint : pyInt U (found.text .value) with
        | none =>
          rw [hint] at hpositive
          exact absurd hpositive (lt_irrefl _)
        | some value => exact ⟨value, rfl⟩
      rw [hvalue, Option.getD_some] at hpositive
      have hsetting : lifetimeSetting U pattern line =
          some { unit := unit, value := value.toNat, lineNumber := line.number } := by
        unfold lifetimeSetting
        rw [hfound]
        dsimp only
        rw [hvalue, hunit, lifetimeUnit_value]
        exact if_pos hpositive
      rw [hsetting, hvalue, Option.getD_some, Option.isNone_some, if_neg Bool.false_ne_true]
      split_ifs with hplain
      · have hint := @pyInt_plain U _ hplain.1
        rw [hvalue] at hint
        split_ifs at hint with hlength
        · refine ⟨fun _ => hlength, fun _ => ⟨⟨unit, hunit, ?_⟩, rfl⟩⟩
          rw [Option.some.inj hint]
          rfl
      · refine ⟨fun h => ?_, fun h => absurd h (not_le.mpr hpositive)⟩
        cases h.1
    · -- it is not applied
      have hsetting : lifetimeSetting U pattern line = none := by
        unfold lifetimeSetting
        rw [hfound]
        dsimp only
        split
        next unit value hunit hvalue =>
          rw [hvalue, Option.getD_some] at hpositive
          exact if_neg hpositive
        next => rfl
      rw [hsetting, Option.isNone_none, if_pos rfl]
      split_ifs with hplain
      · refine ⟨?_, fun hlength => absurd ?_ hpositive⟩
        · rintro ⟨⟨unit, -, hnil⟩, -⟩
          cases hnil
        · rw [@pyInt_plain U _ hplain.1, if_pos hlength]
          exact Int.natCast_pos.mpr hplain.2
      · exact ⟨fun _ => not_lt.mp hpositive, fun _ => ⟨rfl, rfl⟩⟩

end

/-- A global lifetime of that many seconds. -/
def secondsText (token : String) : PyStr :=
  py "crypto ipsec security-association lifetime seconds " ++ py token

theorem secondsText_line {token : PyStr} {text : PyStr}
    (h : ((globalLifetimePattern.fullmatch (toSourceLine 1 text).command).map (·.text .value)) = some token) :
    ∃ found, globalLifetimePattern.fullmatch (toSourceLine 1 text).command = some found ∧
      found.text .value = token :=
  Option.map_eq_some_iff.mp h

/-- On a lifetime of 3600 seconds. -/
theorem tokenTaken_sample : ∃ found,
    globalLifetimePattern.fullmatch (toSourceLine 1 (secondsText "3600")).command = some found ∧
    found.text .value = py "3600" ∧
    TokenTaken .ascii (secondsText "3600") (toSourceLine 1 (secondsText "3600")) found := by
  obtain ⟨found, hfound, htoken⟩ := @secondsText_line (py "3600") (secondsText "3600") (by decide +kernel)
  have hline : LifetimeLine .ascii (sourceLines (secondsText "3600")) globalLifetimePattern
      (toSourceLine 1 (secondsText "3600")) := .global (by decide +kernel) (by decide +kernel)
  have hall : ∀ b ∈ blocks (sourceLines (secondsText "3600")), Convertible .ascii b := by
    rcases parse_spec .ascii (secondsText "3600") with ⟨-, e, he⟩ | ⟨hall, -⟩
    · have hok : (parseCiscoIosConfig .ascii (secondsText "3600")).isOk = true := by decide +kernel
      rw [he] at hok
      cases hok
    · exact hall
  refine ⟨found, hfound, htoken, (tokenTaken_iff hline hfound).mpr ⟨hall, ?_⟩⟩
  rw [htoken]
  unfold TokenPlain
  rw [if_pos (by decide +kernel)]
  decide

/-- A lifetime of `+3_600` seconds is recorded. -/
theorem signed_token_taken : ¬∀ U configuration pattern line found,
    LifetimeLine U (sourceLines configuration) pattern line → pattern.fullmatch line.command = some found →
      TokenTaken U configuration line found := by
  intro h
  obtain ⟨found, hfound, htoken⟩ := @secondsText_line (py "+3_600") (secondsText "+3_600") (by decide +kernel)
  have hline : LifetimeLine .ascii (sourceLines (secondsText "+3_600")) globalLifetimePattern
      (toSourceLine 1 (secondsText "+3_600")) := .global (by decide +kernel) (by decide +kernel)
  obtain ⟨c, hc, htaken⟩ := h _ _ _ _ found hline hfound
  rw [htoken, if_neg (by decide)] at htaken
  have hrecorded : (parseCiscoIosConfig .ascii (secondsText "+3_600")).map (fun c => settingsAt c 1) =
      .ok [{ unit := .seconds, value := 3600, lineNumber := 1 }] := by
    decide +kernel
  rw [hc] at hrecorded
  have hnone : settingsAt c 1 = [] := htaken.1
  have hone : settingsAt c 1 = [{ unit := .seconds, value := 3600, lineNumber := 1 }] :=
    Except.ok.inj hrecorded
  rw [hnone] at hone
  cases hone

end NetopsCopilot
