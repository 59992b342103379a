import Mathlib.Data.List.Forall2
import NetopsCopilot.Lib.Except
import NetopsCopilot.Ingestion.RedactionLines
import NetopsCopilot.Validators.CiscoIosIpsec

/-!
# Parsing the redacted derivative

Outside private-key blocks a redacted line keeps its number, its leading whitespace and its first visible
character. These decide whether the parser skips the line, opens or closes a block with it, or reads it inside
one. So a redacted line that the parser does not recognise does to the parser's state what its source line
does, and the parse of the derivative is that of the source (`redaction_transparent`).
-/

namespace NetopsCopilot

open Re

/-! ### Lines the parser recognises -/

section

variable (U : UnicodeData)

/-- A command that opens a block. -/
def declares (command : PyStr) : Bool :=
  (profileDeclaration.fullmatch command).isSome || ((cryptoMapDeclaration U).matchText command).isSome

/-- A line that the parser takes for a lifetime, profile, crypto map or peer command. -/
def recognised (blockOpen : Bool) (line : SourceLine) : Bool :=
  !line.skipped &&
    if line.indentation = 0 then
      isLifetime U (globalLifetimePattern.fullmatch line.command) line.command || declares U line.command
    else
      blockOpen && (isLifetime U (setLifetimePattern.fullmatch line.command) line.command ||
        (setPeerPattern.matchText line.command).isSome)

/-- Whether a block is open after a line. -/
def blockAfter (blockOpen : Bool) (line : SourceLine) : Bool :=
  if line.skipped then blockOpen
  else if line.indentation = 0 then
    !isLifetime U (globalLifetimePattern.fullmatch line.command) line.command && declares U line.command
  else blockOpen

/-- The parser recognises line `i` where it stands. -/
def recognisedAt (blockOpen : Bool) (lines : List SourceLine) (i : Nat) : Bool :=
  lines[i]?.any (recognised U ((lines.take i).foldl (blockAfter U) blockOpen))

end

/-- No line that differs is recognised, in neither of the two texts. -/
def AlteredUnrecognised (U : UnicodeData) (blockOpen : Bool) (lines lines' : List SourceLine) : Prop :=
  ∀ i, lines[i]? ≠ lines'[i]? →
    recognisedAt U blockOpen lines i = false ∧ recognisedAt U blockOpen lines' i = false

/-! ### One line -/

/-- What stays of a line in the derivative. -/
structure SameFrame (line line' : SourceLine) : Prop where
  number : line'.number = line.number
  indentation : line'.indentation = line.indentation
  skipped : line'.skipped = line.skipped

/-- What the parser does on a line that it does not recognise. -/
def ParserState.pass (s : ParserState) (line : SourceLine) : ParserState :=
  if line.skipped then s else if line.indentation = 0 then s.close else s

theorem SameFrame.pass {line line' : SourceLine} (h : SameFrame line line') (s : ParserState) :
    s.pass line' = s.pass line := by
  unfold ParserState.pass
  rw [h.skipped, h.indentation]

section

variable {U : UnicodeData} {s : ParserState} {line line' : SourceLine}

/-- A command that opens no block. -/
theorem topLevelDeclaration_none {command : PyStr} (h : declares U command = false) (number : Nat) :
    topLevelDeclaration U command number = .ok none := by
  unfold declares at h
  rw [Bool.or_eq_false_iff] at h
  obtain ⟨hprofile, hmap⟩ := h
  rw [Option.isSome_eq_false_iff, Option.isNone_iff_eq_none] at hprofile hmap
  unfold topLevelDeclaration
  rw [hprofile, hmap]

theorem isSome_topLevelDeclaration {command : PyStr} {number : Nat} {current : Option IpsecAssociation}
    (h : topLevelDeclaration U command number = .ok current) : current.isSome = declares U command := by
  unfold topLevelDeclaration at h
  unfold declares
  cases hprofile : profileDeclaration.fullmatch command with
  | some found =>
    rw [hprofile] at h
    cases h
    rfl
  | none =>
    rw [hprofile] at h
    cases hmap : (cryptoMapDeclaration U).matchText command with
    | none =>
      rw [hmap] at h
      cases h
      rfl
    | some found =>
      rw [hmap] at h
      dsimp only at h
      split at h
      · cases h
        rfl
      · cases h

theorem isSome_parseInBlock {current : IpsecAssociation} {s' : ParserState}
    (h : parseInBlock U s current line = .ok s') (hs : s.current = some current) :
    s'.current.isSome = true := by
  unfold parseInBlock at h
  dsimp only at h
  split_ifs at h with hlifetime
  · obtain ⟨⟨setting, warnings⟩, -, h⟩ := Raising.bind_ok h
    cases h
    rfl
  · split at h
    · cases h
      rfl
    · cases h
      rw [hs]
      rfl

theorem parseLine_unrecognised (h : recognised U s.current.isSome line = false) :
    parseLine U s line = .ok (s.pass line) := by
  unfold parseLine ParserState.pass
  cases hskipped : line.skipped with
  | true => rfl
  | false =>
    rw [recognised, hskipped, Bool.not_false, Bool.true_and] at h
    by_cases hindentation : line.indentation = 0
    · rw [if_pos hindentation, Bool.or_eq_false_iff] at h
      rw [if_neg Bool.false_ne_true, if_neg Bool.false_ne_true, if_pos hindentation, if_pos hindentation]
      unfold parseTopLevel
      rw [if_neg (by rw [h.1]; exact Bool.false_ne_true), topLevelDeclaration_none h.2]
      rfl
    · rw [if_neg hindentation] at h
      rw [if_neg Bool.false_ne_true, if_neg Bool.false_ne_true, if_neg hindentation, if_neg hindentation]
      cases hcurrent : s.current with
      | none => rfl
      | some current =>
        rw [hcurrent, Option.isSome_some, Bool.true_and, Bool.or_eq_false_iff, Option.isSome_eq_false_iff,
          Option.isNone_iff_eq_none] at h
        show parseInBlock U s current line = .ok s
        unfold parseInBlock
        rw [if_neg (by rw [h.1]; exact Bool.false_ne_true), h.2]

/-- The parser opens and closes blocks as `blockAfter` says. -/
theorem current_parseLine {s' : ParserState} (h : parseLine U s line = .ok s') :
    s'.current.isSome = blockAfter U s.current.isSome line := by
  unfold parseLine at h
  unfold blockAfter
  split_ifs at h ⊢ with hskipped hindentation
  · cases h
    rfl
  · unfold parseTopLevel at h
    dsimp only at h
    split_ifs at h with hlifetime
    · obtain ⟨⟨setting, warnings⟩, -, h⟩ := Raising.bind_ok h
      cases h
      rw [hlifetime]
      rfl
    · obtain ⟨current, hcurrent, h⟩ := Raising.bind_ok h
      cases h
      rw [Bool.not_eq_true] at hlifetime
      rw [hlifetime, Bool.not_false, Bool.true_and]
      exact isSome_topLevelDeclaration hcurrent
  · cases hcurrent : s.current with
    | none =>
      rw [hcurrent] at h
      cases h
      rw [hcurrent]
    | some current =>
      rw [hcurrent] at h
      exact isSome_parseInBlock h hcurrent

/-! ### All lines -/

/-- The two loops stay in step. -/
theorem foldlM_parseLine {lines lines' : List SourceLine} (hframes : List.Forall₂ SameFrame lines lines')
    (haltered : AlteredUnrecognised U s.current.isSome lines lines') :
    lines'.foldlM (parseLine U) s = lines.foldlM (parseLine U) s := by
  induction hframes generalizing s with
  | nil => rfl
  | @cons line line' lines lines' hframe _ ih =>
    have hfirst : line ≠ line' → recognised U s.current.isSome line = false ∧
        recognised U s.current.isSome line' = false := by
      intro hne
      have h := haltered 0 fun heq => hne (Option.some.inj heq)
      exact h
    -- the two lines do the same
    have hline : parseLine U s line' = parseLine U s line := by
      by_cases heq : line = line'
      · rw [heq]
      · obtain ⟨h, h'⟩ := hfirst heq
        rw [parseLine_unrecognised h, parseLine_unrecognised h', hframe.pass]
    rw [List.foldlM_cons, List.foldlM_cons, hline]
    cases hs' : parseLine U s line with
    | error e => rfl
    | ok s' =>
      show lines'.foldlM (parseLine U) s' = lines.foldlM (parseLine U) s'
      refine ih fun i hi => ?_
      have h := haltered (i + 1) hi
      unfold recognisedAt at h ⊢
      rw [List.getElem?_cons_succ, List.getElem?_cons_succ, List.take_succ_cons, List.take_succ_cons,
        List.foldl_cons, List.foldl_cons, ← current_parseLine hs',
        ← current_parseLine (hline.trans hs')] at h
      exact h

end

/-! ### The lines of the derivative -/

/-- `" \t"`. -/
def isBlankOrTab (c : PyChar) : Bool := c == 32 || c == 9

/-- The leading blanks and tabs are in the leading whitespace. -/
theorem takeWhile_isBlankOrTab (t : PyStr) :
    (indentation t).takeWhile isBlankOrTab = t.takeWhile isBlankOrTab := by
  unfold indentation
  rw [List.takeWhile_takeWhile]
  refine congrArg (t.takeWhile ·) (funext fun c => ?_)
  cases hc : isBlankOrTab c with
  | false => simp
  | true =>
    have hspace : c.isSpace = true := by
      rw [isBlankOrTab, Bool.or_eq_true, beq_iff_eq, beq_iff_eq] at hc
      rcases hc with rfl | rfl <;> decide
    simp [hspace]

theorem toSourceLine_indentation {t : PyStr} (ht : NoBreak t) (number : Nat) :
    (toSourceLine number t).indentation = ((indentation t).takeWhile isBlankOrTab).length := by
  have hindentation : (toSourceLine number t).indentation =
      (toSourceLine number t).text.length - ((toSourceLine number t).text.dropWhile isBlankOrTab).length := rfl
  have hlength := congrArg List.length (List.takeWhile_append_dropWhile (p := isBlankOrTab) (l := t))
  rw [List.length_append] at hlength
  rw [hindentation, toSourceLine_text ht, takeWhile_isBlankOrTab]
  omega

theorem head?_strip (s : PyStr) : (strip s).head? = (s.dropWhile PyChar.isSpace).head? := by
  unfold strip stripBy
  have hvisible := List.head?_dropWhile_not PyChar.isSpace s
  cases hdrop : s.dropWhile PyChar.isSpace with
  | nil => rfl
  | cons c rest =>
    rw [hdrop] at hvisible
    have hne : (c :: rest).rdropWhile PyChar.isSpace ≠ [] := by
      intro hnil
      have hc := List.rdropWhile_eq_nil_iff.mp hnil c List.mem_cons_self
      rw [hvisible] at hc
      cases hc
    obtain ⟨tail, htail⟩ := List.rdropWhile_prefix PyChar.isSpace (l := c :: rest)
    have hhead := @List.head?_append_of_ne_nil _ _ tail hne
    rw [← hhead, htail]

/-- Lines with the same first visible character are skipped alike. -/
theorem skipped_of_first {line line' : SourceLine}
    (h : (line'.text.dropWhile PyChar.isSpace).head? = (line.text.dropWhile PyChar.isSpace).head?) :
    line'.skipped = line.skipped := by
  have hhead : line'.command.head? = line.command.head? := by
    unfold SourceLine.command
    rw [head?_strip, head?_strip, h]
  unfold SourceLine.skipped
  rw [hhead]
  cases hcommand : line.command with
  | nil =>
    rw [hcommand] at hhead
    rw [List.head?_eq_none_iff.mp hhead]
  | cons c rest =>
    cases hcommand' : line'.command with
    | nil =>
      rw [hcommand, hcommand'] at hhead
      cases hhead
    | cons c' rest' => rfl

/-- What stays of a line of the source. -/
structure SameStart (l l' : TextLine) : Prop where
  noBreak : NoBreak l.text ∧ NoBreak l'.text
  indentation : indentation l'.text = indentation l.text
  first : (l'.text.dropWhile PyChar.isSpace).head? = (l.text.dropWhile PyChar.isSpace).head?

theorem SameStart.frame {l l' : TextLine} (h : SameStart l l') (number : Nat) :
    SameFrame (toSourceLine number l.text) (toSourceLine number l'.text) where
  number := rfl
  indentation := by
    rw [toSourceLine_indentation h.noBreak.1, toSourceLine_indentation h.noBreak.2, h.indentation]
  skipped := by
    apply skipped_of_first
    rw [toSourceLine_text h.noBreak.1, toSourceLine_text h.noBreak.2, h.first]

theorem sameFrame_sourceLines {source content : PyStr}
    (h : List.Forall₂ SameStart (splitLines source) (splitLines content)) :
    List.Forall₂ SameFrame (sourceLines source) (sourceLines content) := by
  unfold sourceLines
  generalize splitLines source = ls, splitLines content = ls' at h
  generalize 1 = number
  induction h generalizing number with
  | nil => exact .nil
  | cons hstart _ ih => exact .cons (hstart.frame number) (ih (number + 1))

/-- The lines of the derivative of a text without private keys. -/
theorem sameStart_redactedText (U : UnicodeData) {ls : List TextLine} (hok : LinesOk ls)
    (hkeys : ∀ l ∈ ls, beginsPrivateKey l.body = false) :
    List.Forall₂ SameStart ls (splitLines (redactedText U false ls)) := by
  induction ls with
  | nil => exact .nil
  | cons l ls ih =>
    obtain ⟨hl, hls⟩ := List.forall_mem_cons.mp hkeys
    have he : IsEnding l.ending ∨ l.ending = [] := hok.2.1.imp And.left And.left
    obtain ⟨t, htext, hbreak, hindentation, hfirst⟩ := applyRules_text U hok.1 he
    have hline : redactLine U false l.whole =
        ({ applyRules (inlineRules U) l.body with text := t ++ l.ending }, false) := by
      rw [← htext]
      exact if_neg (by rw [Bool.false_or]; exact ne_true_of_eq_false hl)
    have hcons : redactedText U false (l :: ls) = (t ++ l.ending) ++ redactedText U false ls := by
      show (redactLines U false (l.whole :: ls.map TextLine.whole)).flatMap (·.text) = _
      rw [redactLines, hline]
      rfl
    have hsplit := @splitLines_kept U false l ls [] t hok (fun _ h => absurd h List.not_mem_nil) hbreak
      fun hnil => eq_nil_of_shape (hnil ▸ hindentation) (hnil ▸ hfirst)
    rw [hcons, ← List.nil_append ((t ++ l.ending) ++ _), hsplit]
    exact .cons ⟨⟨hok.1, hbreak⟩, hindentation, hfirst⟩ (ih hok.2.2 hls)

/-! ### Main result -/

/-- **Redaction is transparent to the parser.** If no line of the text begins a private key, and the parser
recognises no line that redaction alters, neither before nor after, then the derivative has as many source lines
as the text and its parse is that of the text with its own source lines: the same lifetimes, associations and
warnings, or the same exception. The validator's results are the same on either side of a comparison. -/
theorem redaction_transparent (U : UnicodeData) (source : PyStr)
    (hkeys : ∀ l ∈ splitLines source, beginsPrivateKey l.body = false)
    (haltered : AlteredUnrecognised U false (sourceLines source)
      (sourceLines (redactCiscoConfig U source).content)) :
    (sourceLines (redactCiscoConfig U source).content).length = (sourceLines source).length ∧
    parseCiscoIosConfig U (redactCiscoConfig U source).content =
      (parseCiscoIosConfig U source).map (fun c =>
        { c with sourceLines := sourceLines (redactCiscoConfig U source).content }) ∧
    ∀ c c', parseCiscoIosConfig U source = .ok c →
      parseCiscoIosConfig U (redactCiscoConfig U source).content = .ok c' →
      ∀ other peer associationMap,
        validatePhase2Lifetime c' peer associationMap = validatePhase2Lifetime c peer associationMap ∧
        validatePhase2Lifetime other (some c') associationMap =
          validatePhase2Lifetime other (some c) associationMap := by
  have hlines := sameStart_redactedText U (splitLines_spec source).1 hkeys
  have hframes : List.Forall₂ SameFrame (sourceLines source) (sourceLines (redactCiscoConfig U source).content) :=
    sameFrame_sourceLines hlines
  have hparse : parseCiscoIosConfig U (redactCiscoConfig U source).content =
      (parseCiscoIosConfig U source).map (fun c =>
        { c with sourceLines := sourceLines (redactCiscoConfig U source).content }) := by
    unfold parseCiscoIosConfig
    have hloop := foldlM_parseLine (U := U) (s := {}) hframes haltered
    dsimp only
    rw [hloop]
    cases (sourceLines source).foldlM (parseLine U) {} <;> rfl
  refine ⟨hframes.length_eq.symm, hparse, fun c c' hc hc' other peer associationMap => ?_⟩
  rw [hparse, hc] at hc'
  cases hc'
  exact ⟨rfl, rfl⟩

/-- A profile with a password in it. -/
def sampleProfile : PyStr :=
  py "crypto ipsec profile P\n" ++ py " password hunter2\n" ++
    py " set security-association lifetime seconds 3600"

/-- The password is redacted inside the block. -/
theorem redaction_transparent_sample :
    (sourceLines (redactCiscoConfig .ascii sampleProfile).content).length = (sourceLines sampleProfile).length ∧
    parseCiscoIosConfig .ascii (redactCiscoConfig .ascii sampleProfile).content =
      (parseCiscoIosConfig .ascii sampleProfile).map (fun c =>
        { c with sourceLines := sourceLines (redactCiscoConfig .ascii sampleProfile).content }) ∧
    (redactCiscoConfig .ascii sampleProfile).content ≠ sampleProfile := by
  have hkeys : ∀ l ∈ splitLines sampleProfile, beginsPrivateKey l.body = false := by decide +kernel
  have haltered : AlteredUnrecognised .ascii false (sourceLines sampleProfile)
      (sourceLines (redactCiscoConfig .ascii sampleProfile).content) := by
    have hlength : (sourceLines sampleProfile).length = 3 ∧
        (sourceLines (redactCiscoConfig .ascii sampleProfile).content).length = 3 := by decide +kernel
    have hlines : ∀ i < 3, (sourceLines sampleProfile)[i]? ≠
        (sourceLines (redactCiscoConfig .ascii sampleProfile).content)[i]? →
        recognisedAt .ascii false (sourceLines sampleProfile) i = false ∧
        recognisedAt .ascii false (sourceLines (redactCiscoConfig .ascii sampleProfile).content) i = false := by
      decide +kernel
    intro i hi
    by_cases hlt : i < 3
    · exact hlines i hlt hi
    · refine absurd ?_ hi
      rw [List.getElem?_eq_none (by omega), List.getElem?_eq_none (by omega)]
  have h := redaction_transparent .ascii sampleProfile hkeys haltered
  exact ⟨h.1, h.2.1, by decide +kernel⟩

end NetopsCopilot
