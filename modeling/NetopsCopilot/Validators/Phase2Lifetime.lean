import NetopsCopilot.Lib.Except
import NetopsCopilot.Validators.CiscoIosIpsec

/-!
# What the Phase 2 validator reports

A seconds lifetime is effective for an association if it is the last well-formed `set` line of the block or,
where the block has none, the last global line (`EffectiveSeconds`). The parser's pass over the lines collects
exactly the settings of each block and the global ones (`ParserState.Inv`), so the validator's values are the
effective lifetimes and its evidence lines carry them (`phase2_lifetime`).
-/

namespace NetopsCopilot

open Raising

/-! ### Lifetime lines -/

section

variable (U : UnicodeData)

/-- The setting of a well-formed lifetime command. -/
def lifetimeSetting (pattern : CommandPattern) (line : SourceLine) : Option Phase2LifetimeSetting :=
  match pattern.fullmatch line.command with
  | none => none
  | some found =>
    match lifetimeUnit (lowerLetters (found.text .unit)), pyInt U (found.text .value) with
    | .ok unit, some value =>
      if 0 < value then some { unit := unit, value := value.toNat, lineNumber := line.number } else none
    | _, _ => none

/-- A line that leaves the block open. -/
def SourceLine.inside (line : SourceLine) : Bool := line.skipped || decide (0 < line.indentation)

/-- The setting of a global lifetime line. -/
def globalSetting (line : SourceLine) : Option Phase2LifetimeSetting :=
  if line.inside then none else lifetimeSetting U globalLifetimePattern line

/-- The setting of a lifetime line of a block. -/
def blockSetting (line : SourceLine) : Option Phase2LifetimeSetting :=
  if line.skipped then none else lifetimeSetting U setLifetimePattern line

/-- The lines of the block that a line declares. -/
def associationBlock (lines : List SourceLine) (declarationLine : Nat) : List SourceLine :=
  (lines.drop declarationLine).takeWhile SourceLine.inside

/-- A line carries a seconds lifetime. -/
def CarriesSeconds (setting : SourceLine → Option Phase2LifetimeSetting) (line : SourceLine) (value : Nat) : Prop :=
  setting line = some { unit := .seconds, value := value, lineNumber := line.number }

/-- The last of some lines that carries a seconds lifetime. -/
def LastSeconds (setting : SourceLine → Option Phase2LifetimeSetting) (lines : List SourceLine)
    (line : SourceLine) (value : Nat) : Prop :=
  ∃ before after, lines = before ++ line :: after ∧ CarriesSeconds setting line value ∧
    ∀ later ∈ after, ∀ v, ¬CarriesSeconds setting later v

/-- The effective seconds lifetime of the association declared on a line. -/
def EffectiveSeconds (lines : List SourceLine) (declarationLine : Nat) (line : SourceLine) (value : Nat) :
    Prop :=
  LastSeconds (blockSetting U) (associationBlock lines declarationLine) line value ∨
    (∀ other ∈ associationBlock lines declarationLine, ∀ v, ¬CarriesSeconds (blockSetting U) other v) ∧
      LastSeconds (globalSetting U) lines line value

end

/-! ### The last setting -/

section

variable {setting : SourceLine → Option Phase2LifetimeSetting} {lines : List SourceLine}

/-- Settings name their line. -/
def Numbers (setting : SourceLine → Option Phase2LifetimeSetting) : Prop :=
  ∀ line s, setting line = some s → s.lineNumber = line.number

theorem carries_iff (hnumbers : Numbers setting) {line : SourceLine} {value : Nat} :
    CarriesSeconds setting line value ↔ ∃ s, setting line = some s ∧ s.unit = .seconds ∧ s.value = value := by
  constructor
  · exact fun h => ⟨_, h, rfl, rfl⟩
  · rintro ⟨s, hs, hunit, rfl⟩
    have hline := hnumbers line s hs
    obtain ⟨unit, value, lineNumber⟩ := s
    subst hunit hline
    exact hs

theorem lastSetting_concat (unit : LifetimeUnit) (settings : List Phase2LifetimeSetting)
    (s : Phase2LifetimeSetting) : lastSetting unit (settings ++ [s]) =
      if s.unit = unit then some s else lastSetting unit settings := by
  unfold lastSetting
  rw [List.reverse_append, List.reverse_singleton, List.singleton_append, List.find?_cons]
  by_cases h : s.unit = unit
  · simp [h]
  · rw [if_neg h, beq_false_of_ne h]

/-- The last setting is the one of the last line that carries a seconds lifetime. -/
theorem lastSetting_spec (hnumbers : Numbers setting) (lines : List SourceLine) :
    (∀ s, lastSetting .seconds (lines.filterMap setting) = some s →
      ∃ line, LastSeconds setting lines line s.value ∧ s.lineNumber = line.number) ∧
    (lastSetting .seconds (lines.filterMap setting) = none →
      ∀ line ∈ lines, ∀ v, ¬CarriesSeconds setting line v) := by
  induction lines using List.reverseRecOn with
  | nil => exact ⟨nofun, fun _ => nofun⟩
  | append_singleton lines x ih =>
    obtain ⟨ihsome, ihnone⟩ := ih
    -- a line without a seconds lifetime changes nothing
    have hskip : (∀ v, ¬CarriesSeconds setting x v) →
        (∀ s, lastSetting .seconds (lines.filterMap setting) = some s →
          ∃ line, LastSeconds setting (lines ++ [x]) line s.value ∧ s.lineNumber = line.number) ∧
        (lastSetting .seconds (lines.filterMap setting) = none →
          ∀ line ∈ lines ++ [x], ∀ v, ¬CarriesSeconds setting line v) := by
      intro hx
      refine ⟨fun s hs => ?_, fun hnone line hline => ?_⟩
      · obtain ⟨line, ⟨before, after, rfl, hcarries, hafter⟩, hnumber⟩ := ihsome s hs
        refine ⟨line, ⟨before, after ++ [x], by simp, hcarries, fun later hlater => ?_⟩, hnumber⟩
        rcases List.mem_append.mp hlater with hlater | hlater
        · exact hafter later hlater
        · rw [List.mem_singleton.mp hlater]
          exact hx
      · rcases List.mem_append.mp hline with hline | hline
        · exact ihnone hnone line hline
        · rw [List.mem_singleton.mp hline]
          exact hx
    rw [List.filterMap_append, List.filterMap_cons, List.filterMap_nil]
    cases hx : setting x with
    | none =>
      rw [List.append_nil]
      refine hskip fun v hv => ?_
      have hv' : setting x = some _ := hv
      rw [hx] at hv'
      cases hv'
    | some s =>
      dsimp only
      rw [lastSetting_concat]
      split_ifs with hunit
      · refine ⟨fun s' hs' => ?_, nofun⟩
        cases hs'
        refine ⟨x, ⟨lines, [], rfl, (carries_iff hnumbers).mpr ⟨s, hx, hunit, rfl⟩, nofun⟩, hnumbers x s hx⟩
      · refine hskip fun v hv => ?_
        obtain ⟨s', hs', hunit', -⟩ := (carries_iff hnumbers).mp hv
        rw [hx] at hs'
        cases hs'
        exact hunit hunit'

/-- The value of the last such line is unique. -/
theorem LastSeconds.unique {line line' : SourceLine} {v v' : Nat} (h : LastSeconds setting lines line v)
    (h' : LastSeconds setting lines line' v') : line = line' ∧ v = v' := by
  obtain ⟨before, after, rfl, hcarries, hafter⟩ := h
  obtain ⟨before', after', heq, hcarries', hafter'⟩ := h'
  have hsame : line = line' := by
    rcases List.append_eq_append_iff.mp heq with ⟨w, rfl, hw⟩ | ⟨w, rfl, hw⟩
    · cases w with
      | nil => exact List.head_eq_of_cons_eq hw
      | cons x w =>
        obtain ⟨rfl, rfl⟩ := List.cons.inj hw
        exact absurd hcarries' (hafter _ (List.mem_append_right _ List.mem_cons_self) v')
    · cases w with
      | nil => exact (List.head_eq_of_cons_eq hw).symm
      | cons x w =>
        obtain ⟨rfl, rfl⟩ := List.cons.inj hw
        exact absurd hcarries (hafter' _ (List.mem_append_right _ List.mem_cons_self) v)
  subst hsame
  have hv : setting line = some _ := hcarries
  rw [show setting line = some _ from hcarries'] at hv
  cases hv
  exact ⟨rfl, rfl⟩

end

/-! ### What the parser collects -/

section

variable {U : UnicodeData}

theorem numbers_lifetimeSetting (pattern : CommandPattern) : Numbers (lifetimeSetting U pattern) := by
  intro line s hs
  unfold lifetimeSetting at hs
  split at hs
  · cases hs
  · split at hs
    · split_ifs at hs
      cases hs
      rfl
    · cases hs

theorem numbers_globalSetting : Numbers (globalSetting U) := by
  intro line s hs
  unfold globalSetting at hs
  split_ifs at hs
  exact numbers_lifetimeSetting _ line s hs

theorem numbers_blockSetting : Numbers (blockSetting U) := by
  intro line s hs
  unfold blockSetting at hs
  split_ifs at hs
  exact numbers_lifetimeSetting _ line s hs

/-- `_parse_lifetime` returns the setting of the line. -/
theorem parseLifetime_ok {line : SourceLine} {command : PyStr} {pattern : CommandPattern}
    {setting : Option Phase2LifetimeSetting} {warnings : List ParseWarning}
    (h : parseLifetime U line command (pattern.fullmatch line.command) = .ok (setting, warnings)) :
    setting = lifetimeSetting U pattern line := by
  unfold parseLifetime at h
  unfold lifetimeSetting
  cases hfound : pattern.fullmatch line.command with
  | none =>
    rw [hfound] at h
    cases h
    rfl
  | some found =>
    rw [hfound] at h
    dsimp only at h ⊢
    cases hint : pyInt U (found.text .value) with
    | none =>
      rw [hint] at h
      cases h
      cases lifetimeUnit (lowerLetters (found.text .unit)) <;> rfl
    | some value =>
      rw [hint] at h
      dsimp only [Option.getD_some] at h
      split_ifs at h with hvalue
      · cases h
        cases lifetimeUnit (lowerLetters (found.text .unit)) with
        | error e => rfl
        | ok unit => exact (if_neg (by omega)).symm
      · obtain ⟨unit, hunit, hret⟩ := bind_ok h
        cases hret
        rw [hunit]
        exact (if_pos (by omega)).symm

/-- A block of an association whose lines are the last of `lines`. -/
structure OpenBlock (U : UnicodeData) (lines : List SourceLine) (a : IpsecAssociation)
    (before block : List SourceLine) (declaration : SourceLine) : Prop where
  lines : lines = before ++ declaration :: block
  declarationLine : a.declarationLine = before.length + 1
  inside : ∀ line ∈ block, line.inside = true
  lifetimeSettings : a.lifetimeSettings = block.filterMap (blockSetting U)

/-- The settings of an association are those of its block. -/
def Collected (U : UnicodeData) (lines : List SourceLine) (a : IpsecAssociation) : Prop :=
  a.lifetimeSettings = (associationBlock lines a.declarationLine).filterMap (blockSetting U)

/-- The block ends where the next line does not continue it. -/
theorem OpenBlock.collected {lines : List SourceLine} {a : IpsecAssociation}
    {before block : List SourceLine} {declaration : SourceLine}
    (h : OpenBlock U lines a before block declaration) {rest : List SourceLine}
    (hrest : ∀ next ∈ rest.head?, next.inside = false) : Collected U (lines ++ rest) a := by
  have hlines : lines ++ rest = (before ++ [declaration]) ++ (block ++ rest) := by
    rw [h.lines]
    simp
  have hlength : a.declarationLine = (before ++ [declaration]).length := by
    rw [h.declarationLine, List.length_append, List.length_singleton]
  have hblock : associationBlock (lines ++ rest) a.declarationLine = block := by
    unfold associationBlock
    rw [hlines, hlength, List.drop_left, List.takeWhile_append_of_pos h.inside]
    cases rest with
    | nil => exact List.append_nil block
    | cons next rest =>
      have hnext : ¬next.inside = true := by simp [hrest next rfl]
      rw [List.takeWhile_cons_of_neg hnext, List.append_nil]
  unfold Collected
  rw [hblock, h.lifetimeSettings]

/-- A line inside the block. -/
theorem OpenBlock.extend {lines : List SourceLine} {a a' : IpsecAssociation}
    {before block : List SourceLine} {declaration line : SourceLine}
    (h : OpenBlock U lines a before block declaration) (hline : line.inside = true)
    (hdeclaration : a'.declarationLine = a.declarationLine)
    (hsettings : a'.lifetimeSettings = a.lifetimeSettings ++ (blockSetting U line).toList) :
    OpenBlock U (lines ++ [line]) a' before (block ++ [line]) declaration := by
  refine ⟨?_, hdeclaration.trans h.declarationLine, fun other hother => ?_, ?_⟩
  · rw [h.lines, List.append_assoc, List.cons_append]
  · rcases List.mem_append.mp hother with hother | hother
    · exact h.inside other hother
    · rw [List.mem_singleton.mp hother]
      exact hline
  · rw [hsettings, h.lifetimeSettings, List.filterMap_append]
    cases hsetting : blockSetting U line <;> simp [hsetting]

/-- The invariant of the loop, after the lines `lines`. -/
structure ParserState.Inv (U : UnicodeData) (lines : List SourceLine) (s : ParserState) : Prop where
  globals : s.globalLifetimes = lines.filterMap (globalSetting U)
  closed : ∀ a ∈ s.associations, ∀ rest, Collected U (lines ++ rest) a
  current : ∀ a, s.current = some a → ∃ before block declaration,
    OpenBlock U lines a before block declaration

variable {lines : List SourceLine} {line : SourceLine} {s s' : ParserState}

theorem filterMap_concat (setting : SourceLine → Option Phase2LifetimeSetting) (lines : List SourceLine)
    (line : SourceLine) :
    (lines ++ [line]).filterMap setting = lines.filterMap setting ++ (setting line).toList := by
  rw [List.filterMap_append]
  cases hsetting : setting line <;> simp [hsetting]

theorem ParserState.Inv.closed_concat (h : s.Inv U lines) (line : SourceLine) :
    ∀ a ∈ s.associations, ∀ rest, Collected U ((lines ++ [line]) ++ rest) a := by
  intro a ha rest
  rw [List.append_assoc]
  exact h.closed a ha _

/-- A line without indentation closes the block. -/
theorem ParserState.Inv.close_concat (h : s.Inv U lines) (hline : line.inside = false) :
    ∀ a ∈ s.close.associations, ∀ rest, Collected U ((lines ++ [line]) ++ rest) a := by
  intro a ha rest
  rcases List.mem_append.mp ha with ha | ha
  · exact h.closed_concat line a ha rest
  · obtain ⟨before, block, declaration, hopen⟩ := h.current a (Option.mem_toList.mp ha)
    rw [List.append_assoc]
    refine hopen.collected fun next hnext => ?_
    cases hnext
    exact hline

theorem globalSetting_inside (h : line.inside = true) : globalSetting U line = none := if_pos h

theorem topLevelDeclaration_ok {command : PyStr} {lineNumber : Nat} {a : IpsecAssociation}
    (h : topLevelDeclaration U command lineNumber = .ok (some a)) :
    a.declarationLine = lineNumber ∧ a.lifetimeSettings = [] := by
  unfold topLevelDeclaration at h
  split at h
  · cases h
    exact ⟨rfl, rfl⟩
  · split at h
    · split at h
      · cases h
        exact ⟨rfl, rfl⟩
      · cases h
    · cases h

theorem lifetimeSetting_of_not_lifetime {pattern : CommandPattern}
    (h : ¬isLifetime U (pattern.fullmatch line.command) line.command = true) :
    lifetimeSetting U pattern line = none := by
  unfold isLifetime at h
  rw [Bool.or_eq_true, not_or, Bool.not_eq_true, Option.isSome_eq_false_iff, Option.isNone_iff_eq_none] at h
  unfold lifetimeSetting
  rw [h.1]

theorem parseTopLevel_inv (h : s.Inv U lines) (hline : line.inside = false)
    (hnumber : line.number = lines.length + 1) (hstep : parseTopLevel U s line = .ok s') :
    s'.Inv U (lines ++ [line]) := by
  have hglobal : globalSetting U line = lifetimeSetting U globalLifetimePattern line :=
    if_neg (by simp [hline])
  unfold parseTopLevel at hstep
  dsimp only at hstep
  split_ifs at hstep with hlifetime
  · obtain ⟨⟨setting, warnings⟩, hparse, hret⟩ := bind_ok hstep
    cases hret
    refine ⟨?_, h.close_concat hline, nofun⟩
    show s.globalLifetimes ++ setting.toList = _
    rw [filterMap_concat, hglobal, ← parseLifetime_ok hparse, h.globals]
  · obtain ⟨current, hdeclaration, hret⟩ := bind_ok hstep
    cases hret
    refine ⟨?_, h.close_concat hline, fun a ha => ⟨lines, [], line, rfl, ?_, nofun, ?_⟩⟩
    · show s.globalLifetimes = _
      rw [filterMap_concat, hglobal, lifetimeSetting_of_not_lifetime hlifetime, h.globals]
      exact (List.append_nil _).symm
    · rw [show current = some a from ha] at hdeclaration
      rw [(topLevelDeclaration_ok hdeclaration).1, hnumber]
    · rw [show current = some a from ha] at hdeclaration
      exact (topLevelDeclaration_ok hdeclaration).2

/-- A line that the loop passes over inside a block. -/
theorem ParserState.Inv.inside (h : s.Inv U lines) (hline : line.inside = true)
    (hblock : ∀ a, s'.current = some a → ∃ a₀, s.current = some a₀ ∧
      a.declarationLine = a₀.declarationLine ∧
      a.lifetimeSettings = a₀.lifetimeSettings ++ (blockSetting U line).toList)
    (hglobals : s'.globalLifetimes = s.globalLifetimes) (hassociations : s'.associations = s.associations) :
    s'.Inv U (lines ++ [line]) := by
  refine ⟨?_, ?_, fun a ha => ?_⟩
  · rw [hglobals, filterMap_concat, globalSetting_inside hline, h.globals]
    exact (List.append_nil _).symm
  · rw [hassociations]
    exact h.closed_concat line
  · obtain ⟨a₀, ha₀, hdeclaration, hsettings⟩ := hblock a ha
    obtain ⟨before, block, declaration, hopen⟩ := h.current a₀ ha₀
    exact ⟨before, _, declaration, hopen.extend hline hdeclaration hsettings⟩

theorem parseInBlock_inv (h : s.Inv U lines) (hskipped : line.skipped = false) (hline : line.inside = true)
    {current : IpsecAssociation} (hcurrent : s.current = some current)
    (hstep : parseInBlock U s current line = .ok s') : s'.Inv U (lines ++ [line]) := by
  have hblock : blockSetting U line = lifetimeSetting U setLifetimePattern line :=
    if_neg (by simp [hskipped])
  unfold parseInBlock at hstep
  dsimp only at hstep
  split_ifs at hstep with hlifetime
  · obtain ⟨⟨setting, warnings⟩, hparse, hret⟩ := bind_ok hstep
    cases hret
    refine h.inside hline (fun a ha => ⟨current, hcurrent, ?_⟩) rfl rfl
    cases ha
    rw [hblock, ← parseLifetime_ok hparse]
    exact ⟨rfl, rfl⟩
  · have hnone : blockSetting U line = none := hblock.trans (lifetimeSetting_of_not_lifetime hlifetime)
    split at hstep
    · cases hstep
      refine h.inside hline (fun a ha => ⟨current, hcurrent, ?_⟩) rfl rfl
      cases ha
      rw [hnone]
      exact ⟨rfl, (List.append_nil _).symm⟩
    · cases hstep
      refine h.inside hline (fun a ha => ⟨a, ha, rfl, ?_⟩) rfl rfl
      rw [hnone]
      exact (List.append_nil _).symm

/-- One line keeps the invariant. -/
theorem parseLine_inv (h : s.Inv U lines) (hnumber : line.number = lines.length + 1)
    (hstep : parseLine U s line = .ok s') : s'.Inv U (lines ++ [line]) := by
  unfold parseLine at hstep
  split_ifs at hstep with hskipped hindentation
  · cases hstep
    refine h.inside (by simp [SourceLine.inside, hskipped]) (fun a ha => ⟨a, ha, rfl, ?_⟩) rfl rfl
    rw [blockSetting, if_pos hskipped]
    exact (List.append_nil _).symm
  · have hline : line.inside = false := by simp [SourceLine.inside, hskipped, hindentation]
    exact parseTopLevel_inv h hline hnumber hstep
  · have hline : line.inside = true := by
      simp only [SourceLine.inside, Bool.or_eq_true, decide_eq_true_eq]
      exact Or.inr (Nat.pos_of_ne_zero hindentation)
    split at hstep
    next hcurrent =>
      cases hstep
      refine h.inside hline (fun a ha => ?_) rfl rfl
      rw [hcurrent] at ha
      cases ha
    next current hcurrent =>
      exact parseInBlock_inv h (by simpa using hskipped) hline hcurrent hstep

/-- Lines are numbered from `n`. -/
def NumberedFrom : Nat → List SourceLine → Prop
  | _, [] => True
  | n, line :: rest => line.number = n ∧ NumberedFrom (n + 1) rest

theorem numberedFrom_sourceLines (text : PyStr) : NumberedFrom 1 (sourceLines text) := by
  unfold sourceLines
  generalize splitLines text = ls
  generalize 1 = n
  induction ls generalizing n with
  | nil => trivial
  | cons l ls ih => exact ⟨rfl, ih (n + 1)⟩

/-- The loop keeps the invariant. -/
theorem parseLines_inv {rest : List SourceLine} (h : s.Inv U lines)
    (hnumbers : NumberedFrom (lines.length + 1) rest) (hrun : rest.foldlM (parseLine U) s = .ok s') :
    s'.Inv U (lines ++ rest) := by
  induction rest generalizing lines s with
  | nil =>
    cases hrun
    rwa [List.append_nil]
  | cons line rest ih =>
    obtain ⟨hnumber, hnumbers⟩ := hnumbers
    rw [List.foldlM_cons] at hrun
    obtain ⟨s₁, hstep, hrun⟩ := bind_ok hrun
    have hinv := ih (parseLine_inv h hnumber hstep) (by rwa [List.length_append]) hrun
    rwa [List.append_assoc] at hinv

/-- What a parsed configuration holds. -/
theorem parse_ok {text : PyStr} {c : CiscoIosConfig} (h : parseCiscoIosConfig U text = .ok c) :
    c.globalPhase2Lifetimes = (sourceLines text).filterMap (globalSetting U) ∧
      ∀ a ∈ c.ipsecAssociations, Collected U (sourceLines text) a := by
  obtain ⟨s, hrun, hret⟩ := bind_ok h
  cases hret
  have hinit : ParserState.Inv U [] {} := ⟨rfl, nofun, nofun⟩
  have hinv := parseLines_inv hinit (numberedFrom_sourceLines text) hrun
  rw [List.nil_append] at hinv
  refine ⟨hinv.globals, fun a ha => ?_⟩
  rw [← List.append_nil (sourceLines text)]
  rcases List.mem_append.mp ha with ha | ha
  · exact hinv.closed a ha []
  · obtain ⟨before, block, declaration, hopen⟩ := hinv.current a (Option.mem_toList.mp ha)
    exact hopen.collected nofun

/-! ### Effective lifetimes -/

/-- The effective lifetime is the one of a line. -/
theorem effectiveLifetime_some {text : PyStr} {c : CiscoIosConfig} (hparse : parseCiscoIosConfig U text = .ok c)
    {a : IpsecAssociation} (ha : a ∈ c.ipsecAssociations) {setting : Phase2LifetimeSetting}
    (h : effectiveLifetime c a .seconds = some setting) :
    ∃ line, EffectiveSeconds U (sourceLines text) a.declarationLine line setting.value ∧
      setting.lineNumber = line.number := by
  obtain ⟨hglobals, hcollected⟩ := parse_ok hparse
  have hblock := lastSetting_spec (numbers_blockSetting (U := U))
    (associationBlock (sourceLines text) a.declarationLine)
  rw [← hcollected a ha] at hblock
  unfold effectiveLifetime IpsecAssociation.effectiveOverride at h
  split at h
  next s' hs' =>
    cases h
    obtain ⟨line, hlast, hnumber⟩ := hblock.1 _ hs'
    exact ⟨line, Or.inl hlast, hnumber⟩
  next hnone =>
    have hglobal := lastSetting_spec (numbers_globalSetting (U := U)) (sourceLines text)
    rw [← hglobals] at hglobal
    obtain ⟨line, hlast, hnumber⟩ := hglobal.1 _ h
    exact ⟨line, Or.inr ⟨hblock.2 hnone, hlast⟩, hnumber⟩

theorem LastSeconds.carries {setting : SourceLine → Option Phase2LifetimeSetting} {value : Nat}
    (h : LastSeconds setting lines line value) : line ∈ lines ∧ CarriesSeconds setting line value := by
  obtain ⟨before, after, rfl, hcarries, -⟩ := h
  exact ⟨List.mem_append_right _ List.mem_cons_self, hcarries⟩

/-- A line has one value, and one line is effective. -/
theorem EffectiveSeconds.unique {declarationLine v v' : Nat} {line line' : SourceLine}
    (h : EffectiveSeconds U lines declarationLine line v)
    (h' : EffectiveSeconds U lines declarationLine line' v') : v = v' := by
  rcases h with h | ⟨hnone, h⟩ <;> rcases h' with h' | ⟨hnone', h'⟩
  · exact (h.unique h').2
  · exact absurd h.carries.2 (hnone' _ h.carries.1 _)
  · exact absurd h'.carries.2 (hnone _ h'.carries.1 _)
  · exact (h.unique h').2

/-- An effective line is found. -/
theorem effectiveLifetime_of_line {text : PyStr} {c : CiscoIosConfig}
    (hparse : parseCiscoIosConfig U text = .ok c) {a : IpsecAssociation} (ha : a ∈ c.ipsecAssociations)
    {line : SourceLine} {v : Nat} (h : EffectiveSeconds U (sourceLines text) a.declarationLine line v) :
    ∃ setting, effectiveLifetime c a .seconds = some setting ∧ setting.value = v := by
  cases heffective : effectiveLifetime c a .seconds with
  | some setting =>
    obtain ⟨line', h', -⟩ := effectiveLifetime_some hparse ha heffective
    exact ⟨setting, rfl, h'.unique h⟩
  | none =>
    obtain ⟨hglobals, hcollected⟩ := parse_ok hparse
    have hblock := lastSetting_spec (numbers_blockSetting (U := U))
      (associationBlock (sourceLines text) a.declarationLine)
    have hglobal := lastSetting_spec (numbers_globalSetting (U := U)) (sourceLines text)
    rw [← hcollected a ha] at hblock
    rw [← hglobals] at hglobal
    unfold effectiveLifetime IpsecAssociation.effectiveOverride at heffective
    split at heffective
    · cases heffective
    next hnone =>
      rcases h with h | ⟨-, h⟩
      · exact absurd h.carries.2 (hblock.2 hnone _ h.carries.1 _)
      · exact absurd h.carries.2 (hglobal.2 heffective _ h.carries.1 _)

end

/-! ### Results -/

/-- The map pairs a local association with the only peer association that bears the identifier. -/
def Paired (associationMap : Option (PyStr → Option PyStr)) (peerConfig : CiscoIosConfig)
    (a p : IpsecAssociation) : Prop :=
  ∃ f identifier, associationMap = some f ∧ f a.identifier = some identifier ∧
    peerConfig.ipsecAssociations.filter (fun x => x.identifier == identifier) = [p]

theorem peerAssociation_eq_some {a p : IpsecAssociation} {peerConfig : CiscoIosConfig}
    {associationMap : Option (PyStr → Option PyStr)} :
    peerAssociation a peerConfig associationMap = some p ↔ Paired associationMap peerConfig a p := by
  constructor
  · intro h
    unfold peerAssociation at h
    split at h
    · cases h
    next f =>
      split at h
      · cases h
      next identifier hidentifier =>
        split at h
        next p' hfilter =>
          cases h
          exact ⟨f, identifier, rfl, hidentifier, hfilter⟩
        · cases h
  · rintro ⟨f, identifier, rfl, hidentifier, hfilter⟩
    unfold peerAssociation
    dsimp only
    rw [hidentifier]
    dsimp only
    rw [hfilter]

theorem Paired.mem {associationMap : Option (PyStr → Option PyStr)} {peerConfig : CiscoIosConfig}
    {a p : IpsecAssociation} (h : Paired associationMap peerConfig a p) : p ∈ peerConfig.ipsecAssociations := by
  obtain ⟨f, identifier, -, -, hfilter⟩ := h
  exact (List.mem_filter.mp (hfilter ▸ List.mem_singleton_self p)).1

section

variable (U : UnicodeData) (localText : PyStr) (peer : Option (PyStr × CiscoIosConfig))
  (associationMap : Option (PyStr → Option PyStr)) (a : IpsecAssociation)

/-- A peer is given and paired, both sides have an effective seconds lifetime, and these are related. -/
def Compared (related : Nat → Nat → Prop) : Prop :=
  ∃ text c p line v line' v', peer = some (text, c) ∧ Paired associationMap c a p ∧
    EffectiveSeconds U (sourceLines localText) a.declarationLine line v ∧
    EffectiveSeconds U (sourceLines text) p.declarationLine line' v' ∧ related v v'

/-- The evidence of a document is one line. -/
def OnlyEvidence (r : ValidatorResult) (document : EvidenceDocument) (line : SourceLine) : Prop :=
  (r.evidence.filter fun e => e.document == document).map (·.lineNumber) = [line.number]

/-- What the validator reports for an association. -/
structure Phase2Result (r : ValidatorResult) : Prop where
  association : r.associationId = some a.identifier
  pass : r.status = .pass ↔ Compared U localText peer associationMap a fun v v' => v = v'
  fail : r.status = .fail ↔ Compared U localText peer associationMap a fun v v' => v ≠ v'
  otherwise : r.status = .pass ∨ r.status = .fail ∨ r.status = .insufficientContext
  observed : ∀ v, r.observedValue = some v → ∃ line, OnlyEvidence r .local line ∧
    EffectiveSeconds U (sourceLines localText) a.declarationLine line v
  expected : ∀ v, r.expectedValue = some v → ∃ text c p line, peer = some (text, c) ∧
    Paired associationMap c a p ∧ OnlyEvidence r .peer line ∧
    EffectiveSeconds U (sourceLines text) p.declarationLine line v

end

section

variable {U : UnicodeData} {localText : PyStr} {localConfig : CiscoIosConfig}
  {peer : Option (PyStr × CiscoIosConfig)} {associationMap : Option (PyStr → Option PyStr)}
  {a : IpsecAssociation}

/-- The lifetimes that a comparison compares. -/
theorem Compared.lifetimes (hlocal : parseCiscoIosConfig U localText = .ok localConfig)
    (hpeer : ∀ p ∈ peer, parseCiscoIosConfig U p.1 = .ok p.2) (ha : a ∈ localConfig.ipsecAssociations)
    {related : Nat → Nat → Prop} (h : Compared U localText peer associationMap a related) :
    ∃ text c p l l', peer = some (text, c) ∧ peerAssociation a c associationMap = some p ∧
      effectiveLifetime localConfig a .seconds = some l ∧ effectiveLifetime c p .seconds = some l' ∧
      related l.value l'.value := by
  obtain ⟨text, c, p, line, v, line', v', rfl, hpaired, hv, hv', hrelated⟩ := h
  obtain ⟨l, hl, rfl⟩ := effectiveLifetime_of_line hlocal ha hv
  obtain ⟨l', hl', rfl⟩ := effectiveLifetime_of_line (hpeer _ rfl) hpaired.mem hv'
  exact ⟨text, c, p, l, l', rfl, peerAssociation_eq_some.mpr hpaired, hl, hl', hrelated⟩

/-- Evidence and values of a result. -/
theorem resultOf_values (hlocal : parseCiscoIosConfig U localText = .ok localConfig)
    (ha : a ∈ localConfig.ipsecAssociations) (status : ValidatorStatus) (severity : FindingSeverity)
    (peerLifetime : Option Phase2LifetimeSetting) (explanation : PyStr) :
    ∀ v, (resultOf status severity (some a) (effectiveLifetime localConfig a .seconds) peerLifetime
        explanation).observedValue = some v →
      ∃ line, OnlyEvidence (resultOf status severity (some a)
          (effectiveLifetime localConfig a .seconds) peerLifetime explanation) .local line ∧
        EffectiveSeconds U (sourceLines localText) a.declarationLine line v := by
  intro v hv
  obtain ⟨l, hl, rfl⟩ := Option.map_eq_some_iff.mp hv
  obtain ⟨line, hline, hnumber⟩ := effectiveLifetime_some hlocal ha hl
  refine ⟨line, ?_, hline⟩
  unfold OnlyEvidence resultOf evidenceOf
  rw [hl, ← hnumber]
  cases peerLifetime <;> rfl

theorem resultOf_expected {text : PyStr} {c : CiscoIosConfig} (hparse : parseCiscoIosConfig U text = .ok c)
    {p : IpsecAssociation} (hp : p ∈ c.ipsecAssociations) (status : ValidatorStatus)
    (severity : FindingSeverity) (localLifetime : Option Phase2LifetimeSetting) (explanation : PyStr) :
    ∀ v, (resultOf status severity (some a) localLifetime (effectiveLifetime c p .seconds)
        explanation).expectedValue = some v →
      ∃ line, OnlyEvidence (resultOf status severity (some a) localLifetime
          (effectiveLifetime c p .seconds) explanation) .peer line ∧
        EffectiveSeconds U (sourceLines text) p.declarationLine line v := by
  intro v hv
  obtain ⟨l, hl, rfl⟩ := Option.map_eq_some_iff.mp hv
  obtain ⟨line, hline, hnumber⟩ := effectiveLifetime_some hparse hp hl
  refine ⟨line, ?_, hline⟩
  unfold OnlyEvidence resultOf evidenceOf
  rw [hl, ← hnumber]
  cases localLifetime <;> rfl

/-- A result without a comparison. -/
theorem phase2Result_of_insufficient {r : ValidatorResult} (hstatus : r.status = .insufficientContext)
    (hassociation : r.associationId = some a.identifier)
    (hnot : ∀ related, ¬Compared U localText peer associationMap a related)
    (hobserved : ∀ v, r.observedValue = some v → ∃ line, OnlyEvidence r .local line ∧
      EffectiveSeconds U (sourceLines localText) a.declarationLine line v)
    (hexpected : ∀ v, r.expectedValue = some v → ∃ text c p line, peer = some (text, c) ∧
      Paired associationMap c a p ∧ OnlyEvidence r .peer line ∧
      EffectiveSeconds U (sourceLines text) p.declarationLine line v) :
    Phase2Result U localText peer associationMap a r := by
  refine ⟨hassociation, ⟨fun h => ?_, fun h => absurd h (hnot _)⟩,
    ⟨fun h => ?_, fun h => absurd h (hnot _)⟩, Or.inr (Or.inr hstatus), hobserved, hexpected⟩
  · rw [hstatus] at h
    cases h
  · rw [hstatus] at h
    cases h

theorem validateAssociation_result (hlocal : parseCiscoIosConfig U localText = .ok localConfig)
    (hpeer : ∀ p ∈ peer, parseCiscoIosConfig U p.1 = .ok p.2) (ha : a ∈ localConfig.ipsecAssociations) :
    Phase2Result U localText peer associationMap a
      (validateAssociation localConfig (peer.map (·.2)) associationMap a) := by
  have hlifetimes := fun (related : Nat → Nat → Prop)
      (h : Compared U localText peer associationMap a related) => h.lifetimes hlocal hpeer ha
  unfold validateAssociation
  dsimp only
  cases peer with
  | none =>
    refine phase2Result_of_insufficient rfl rfl (fun related h => ?_) (resultOf_values hlocal ha _ _ _ _) nofun
    obtain ⟨text, c, -, -, -, hnone, -⟩ := hlifetimes related h
    cases hnone
  | some pair =>
    obtain ⟨text, c⟩ := pair
    have hparse := hpeer _ rfl
    dsimp only [Option.map_some]
    cases hpaired : peerAssociation a c associationMap with
    | none =>
      refine phase2Result_of_insufficient rfl rfl (fun related h => ?_) (resultOf_values hlocal ha _ _ _ _)
        nofun
      obtain ⟨text', c', p, -, -, hsame, hpaired', -⟩ := hlifetimes related h
      cases hsame
      rw [hpaired] at hpaired'
      cases hpaired'
    | some p =>
      have hpaired' := peerAssociation_eq_some.mp hpaired
      have hexpected : ∀ status severity explanation v,
          (resultOf status severity (some a) (effectiveLifetime localConfig a .seconds)
            (effectiveLifetime c p .seconds) explanation).expectedValue = some v →
          ∃ text' c' p' line, some (text, c) = some (text', c') ∧ Paired associationMap c' a p' ∧
            OnlyEvidence (resultOf status severity (some a) (effectiveLifetime localConfig a .seconds)
              (effectiveLifetime c p .seconds) explanation) .peer line ∧
            EffectiveSeconds U (sourceLines text') p'.declarationLine line v := by
        intro status severity explanation v hv
        obtain ⟨line, hline⟩ := resultOf_expected hparse hpaired'.mem status severity _ explanation v hv
        exact ⟨text, c, p, line, rfl, hpaired', hline⟩
      dsimp only
      split
      next l l' hl hl' =>
        obtain ⟨line, hline, -⟩ := effectiveLifetime_some hlocal ha hl
        obtain ⟨line', hline', -⟩ := effectiveLifetime_some hparse hpaired'.mem hl'
        have hcompared : ∀ related, Compared U localText (some (text, c)) associationMap a related ↔
            related l.value l'.value := by
          refine fun related => ⟨fun h => ?_, fun h =>
            ⟨text, c, p, line, _, line', _, rfl, hpaired', hline, hline', h⟩⟩
          obtain ⟨text', c', p', l₁, l₁', hsame, hpaired'', hl₁, hl₁', hrelated⟩ := hlifetimes related h
          cases hsame
          rw [hpaired] at hpaired''
          cases hpaired''
          rw [hl] at hl₁
          rw [hl'] at hl₁'
          cases hl₁
          cases hl₁'
          exact hrelated
        split_ifs with heq
        · exact ⟨rfl, ⟨fun _ => (hcompared _).mpr heq, fun _ => rfl⟩,
            ⟨fun h => (by cases h), fun h => absurd heq ((hcompared _).mp h)⟩, Or.inl rfl,
            resultOf_values hlocal ha _ _ _ _, hexpected _ _ _⟩
        · exact ⟨rfl, ⟨fun h => (by cases h), fun h => absurd ((hcompared _).mp h) heq⟩,
            ⟨fun _ => (hcompared _).mpr heq, fun _ => rfl⟩, Or.inr (Or.inl rfl),
            resultOf_values hlocal ha _ _ _ _, hexpected _ _ _⟩
      next hnone =>
        refine phase2Result_of_insufficient rfl rfl (fun related h => ?_) (resultOf_values hlocal ha _ _ _ _)
          (hexpected _ _ _)
        obtain ⟨text', c', p', l, l', hsame, hpaired'', hl, hl', -⟩ := hlifetimes related h
        cases hsame
        rw [hpaired] at hpaired''
        cases hpaired''
        exact hnone l l' hl hl'

end

/-! ### Main result -/

/-- **Phase 2 lifetimes.** For every local text, every peer text or none, and every association map, the
validator returns one result for each parsed association in order, or the single `not_applicable` result: it
passes (fails) exactly if a peer is given, paired by the map, and both effective seconds lifetimes exist and are
equal (different), and otherwise says that the context is insufficient. A reported value has one evidence line,
and that line is the effective one and carries the value. -/
theorem phase2_lifetime {U : UnicodeData} {localText : PyStr} {localConfig : CiscoIosConfig}
    {peer : Option (PyStr × CiscoIosConfig)} {associationMap : Option (PyStr → Option PyStr)}
    (hlocal : parseCiscoIosConfig U localText = .ok localConfig)
    (hpeer : ∀ p ∈ peer, parseCiscoIosConfig U p.1 = .ok p.2) :
    if localConfig.ipsecAssociations = [] then
      (validatePhase2Lifetime localConfig (peer.map (·.2)) associationMap).map (·.status) = [.notApplicable]
    else
      List.Forall₂ (Phase2Result U localText peer associationMap) localConfig.ipsecAssociations
        (validatePhase2Lifetime localConfig (peer.map (·.2)) associationMap) := by
  unfold validatePhase2Lifetime
  simp only [List.isEmpty_iff]
  split_ifs with hnone
  · rfl
  · rw [List.forall₂_map_right_iff, List.forall₂_same]
    exact fun a ha => validateAssociation_result hlocal hpeer ha

/-- A crypto map with a lifetime of its own. -/
def sampleCryptoMap (seconds : String) : PyStr :=
  py "crypto map M 10" ++ 10 :: (py " set security-association lifetime seconds " ++ py seconds)

/-- Its association. -/
def sampleAssociation (seconds : Nat) : IpsecAssociation where
  kind := .cryptoMap
  name := py "M"
  declarationLine := 1
  sequence := some 10
  lifetimeSettings := [⟨.seconds, seconds, 2⟩]

def sampleConfig (text : PyStr) (seconds : Nat) : CiscoIosConfig where
  sourceLines := sourceLines text
  globalPhase2Lifetimes := []
  ipsecAssociations := [sampleAssociation seconds]
  warnings := []

theorem parse_sampleCryptoMap : ∀ e ∈ [("3600", 3600), ("2700", 2700)],
    parseCiscoIosConfig .ascii (sampleCryptoMap e.1) = .ok (sampleConfig (sampleCryptoMap e.1) e.2) := by
  have hcheck : ([("3600", 3600), ("2700", 2700)].all fun e =>
      match parseCiscoIosConfig .ascii (sampleCryptoMap e.1) with
      | .ok c => c == sampleConfig (sampleCryptoMap e.1) e.2
      | .error _ => false) = true := by decide +kernel
  intro e he
  have hparsed := List.all_eq_true.mp hcheck e he
  split at hparsed
  next c hc => rw [hc, beq_iff_eq.mp hparsed]
  next => cases hparsed

/-- What the validator says of a lifetime of 3600 seconds against one of 2700. -/
def sampleMismatch : ValidatorResult where
  status := .fail
  severity := .error
  associationId := some (py "crypto_map:M:10")
  observedValue := some 3600
  expectedValue := some 2700
  evidence :=
    [{ document := .local, lineNumber := 2, role := py "observed_phase2_lifetime" },
     { document := .peer, lineNumber := 2, role := py "expected_phase2_lifetime" }]
  explanation := py "Local and peer Phase 2 seconds lifetimes do not match."

/-- On two such texts, paired by the map. -/
theorem phase2_lifetime_sample :
    let peer := (sampleCryptoMap "2700", sampleConfig (sampleCryptoMap "2700") 2700)
    validatePhase2Lifetime (sampleConfig (sampleCryptoMap "3600") 3600) (some peer.2) (some some) =
      [sampleMismatch] ∧
    Phase2Result .ascii (sampleCryptoMap "3600") (some peer) (some some) (sampleAssociation 3600) sampleMismatch := by
  intro peer
  have hlocal : parseCiscoIosConfig .ascii (sampleCryptoMap "3600") = .ok (sampleConfig (sampleCryptoMap "3600") 3600) :=
    parse_sampleCryptoMap ("3600", 3600) (by simp)
  have hne : (sampleConfig (sampleCryptoMap "3600") 3600).ipsecAssociations ≠ [] := List.cons_ne_nil _ _
  have hpeer : ∀ p ∈ some peer, parseCiscoIosConfig .ascii p.1 = .ok p.2 := by
    rintro p ⟨⟩
    exact parse_sampleCryptoMap ("2700", 2700) (by simp)
  have hresults : validatePhase2Lifetime (sampleConfig (sampleCryptoMap "3600") 3600) (some peer.2) (some some) =
      [sampleMismatch] := by decide +kernel
  have hspec := @phase2_lifetime .ascii _ _ _ (some some) hlocal hpeer
  rw [if_neg hne, Option.map_some, hresults] at hspec
  exact ⟨hresults, (List.forall₂_cons.mp hspec).1⟩

end NetopsCopilot
