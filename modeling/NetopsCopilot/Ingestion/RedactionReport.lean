import Mathlib.Algebra.Order.BigOperators.Group.List
import Mathlib.Algebra.Order.Group.Nat
import NetopsCopilot.Ingestion.PrivateKeyBlocks

/-!
# The redaction report

A rule replaces a secret that does not begin like a marker, and it stands behind a delimiter (`scan_first`). So
where the rules have replaced something for the first time from the left, the text begins like a marker and the
line does not (`Marked`): a line that is recorded differs from its source, and the report counts exactly the lines
that lie in a private-key block or differ (`report_exact`).
-/

namespace NetopsCopilot

open Re

/-! ### Replacements -/

/-- What a marker begins with. -/
abbrev markerOpening : PyStr := py "<redacted:"

/-- The characters in front of a secret. -/
def PyChar.delimits (c : PyChar) : Bool := c.isSpace || c.fold == 61 || c.fold == 58

/-- A word that ends in a delimiter. -/
def EndsDelimited (w : PyStr) : Prop := ∃ v c, w = v ++ [c] ∧ c.delimits = true

theorem endsDelimited_of_all {w : PyStr} (hne : w ≠ []) (hall : ∀ c ∈ w, c.delimits = true) :
    EndsDelimited w :=
  ⟨_, _, (List.dropLast_append_getLast hne).symm, hall _ (List.getLast_mem hne)⟩

theorem EndsDelimited.append {v : PyStr} (u : PyStr) (h : EndsDelimited v) : EndsDelimited (u ++ v) := by
  obtain ⟨v, c, rfl, hc⟩ := h
  exact ⟨u ++ v, c, (List.append_assoc ..).symm, hc⟩

theorem EndsDelimited.of_append {u v : PyStr} (h : EndsDelimited (u ++ v)) (hv : v ≠ []) : EndsDelimited v := by
  obtain ⟨w, c, heq, hc⟩ := h
  obtain ⟨v', d, rfl⟩ := (List.eq_nil_or_concat v).resolve_left hv
  rw [List.concat_eq_append, ← List.append_assoc] at heq
  obtain ⟨-, hd⟩ := List.append_inj' heq rfl
  refine ⟨v', d, List.concat_eq_append .., ?_⟩
  rwa [List.head_eq_of_cons_eq hd]

/-- No delimiter stands in front of the end of the opening of a marker. -/
theorem EndsDelimited.opening {z r : PyStr} (hz : EndsDelimited z) (h : markerOpening <+: z ++ r) :
    markerOpening <+: z := by
  rcases List.prefix_or_prefix_of_prefix h (List.prefix_append z r) with hle | ⟨rest, hrest⟩
  · exact hle
  · cases rest with
    | nil =>
      rw [List.append_nil] at hrest
      exact hrest ▸ List.prefix_rfl
    | cons d rest =>
      obtain ⟨v, c, rfl, hc⟩ := hz
      have hmem : c ∈ markerOpening.dropLast := by
        rw [← hrest, List.dropLast_append_of_ne_nil (List.cons_ne_nil d rest)]
        exact List.mem_append_left _ (List.mem_append_right _ List.mem_cons_self)
      have hall : markerOpening.dropLast.all (fun c => !c.delimits) = true := by decide
      have hc' := List.all_eq_true.mp hall c hmem
      rw [hc] at hc'
      cases hc'

theorem opening_prefix_marker (rule : RedactionRule) (rest : PyStr) : markerOpening <+: rule.marker ++ rest := by
  unfold RedactionRule.marker
  rw [List.append_assoc, List.append_assoc]
  exact List.prefix_append _ _

section

variable {γ : Type} {w : PyStr}

theorem delimits_of_isSpace {c : PyChar} (hc : c.isSpace = true) : c.delimits = true := by
  rw [PyChar.delimits, hc, Bool.true_or, Bool.true_or]

theorem delimited_spaces1 (h : (spaces1 : Regex γ PyChar).Lang w) : EndsDelimited w := by
  obtain ⟨u, v, rfl, ⟨c, rfl, hc⟩, hv⟩ := h
  refine endsDelimited_of_all (List.cons_ne_nil c v) fun d hd => delimits_of_isSpace ?_
  rcases List.mem_cons.mp hd with rfl | hd
  · exact hc
  · exact hv d hd

theorem cat_append {rs ss : List (Regex γ PyChar)} (h : (Regex.cat (rs ++ ss)).Lang w) :
    ∃ u v, w = u ++ v ∧ (Regex.cat ss).Lang v := by
  induction rs generalizing w with
  | nil => exact ⟨[], w, rfl, h⟩
  | cons r rs ih =>
    obtain ⟨u, v, rfl, -, hv⟩ := h
    obtain ⟨u', v', rfl, hv'⟩ := ih hv
    exact ⟨u ++ u', v', (List.append_assoc ..).symm, hv'⟩

/-- A sequence ends as its last parts do. -/
theorem delimited_cat {rs ss : List (Regex γ PyChar)} (hss : ∀ w, (Regex.cat ss).Lang w → EndsDelimited w)
    (h : (Regex.cat (rs ++ ss)).Lang w) : EndsDelimited w := by
  obtain ⟨u, v, rfl, hv⟩ := cat_append h
  exact (hss v hv).append u

end

theorem delimited_spaces {w : PyStr} (h : (Regex.cat [spaces1] : InlinePattern).Lang w) : EndsDelimited w := by
  obtain ⟨u, v, rfl, hu, rfl⟩ := h
  rw [List.append_nil]
  exact delimited_spaces1 hu

theorem delimited_encryptionType (U : UnicodeData) {w : PyStr}
    (h : (Regex.cat [spaces1, encryptionType U]).Lang w) : EndsDelimited w := by
  obtain ⟨u, v, rfl, hu, v', v'', rfl, htype, rfl⟩ := h
  rw [List.append_nil]
  rcases htype with ⟨a, b, rfl, -, hb⟩ | rfl
  · exact ((delimited_spaces1 hb).append a).append u
  · rw [List.append_nil]
    exact delimited_spaces1 hu

theorem delimits_sign {w : PyStr} (h : (oneOf [lit "=", lit ":"] : InlinePattern).Lang w) :
    ∃ c, w = [c] ∧ c.delimits = true := by
  have hsign : ∀ sign : PyChar, (sign.fold == 61 || sign.fold == 58) = true →
      List.Forall₂ (fun l c => PyChar.sameLetter l c = true) [sign] w → ∃ c, w = [c] ∧ c.delimits = true := by
    intro sign hsign hw
    obtain ⟨c, rest, hc, hrest, rfl⟩ := List.forall₂_cons_left_iff.mp hw
    rw [List.forall₂_nil_left_iff.mp hrest]
    have hfold : sign.fold = c.fold := beq_iff_eq.mp hc
    rw [hfold] at hsign
    exact ⟨c, rfl, by rw [PyChar.delimits, Bool.or_assoc, hsign, Bool.or_true]⟩
  rcases h with h | h
  · exact hsign 61 (by decide) (lang_lit h)
  · exact hsign 58 (by decide) (lang_lit h)

theorem delimited_assignment {w : PyStr} (h : (Regex.cat [assignment] : InlinePattern).Lang w) :
    EndsDelimited w := by
  obtain ⟨u, v, rfl, ⟨a, b, rfl, -, c, d, rfl, hsign, e, f, rfl, he, rfl⟩, rfl⟩ := h
  rw [List.append_nil, List.append_nil]
  obtain ⟨c, rfl, hc⟩ := delimits_sign hsign
  refine (endsDelimited_of_all (List.cons_ne_nil c e) fun d hd => ?_).append a
  rcases List.mem_cons.mp hd with rfl | hd
  · exact hc
  · exact delimits_of_isSpace (he d hd)

/-! ### One rule -/

/-- The form of the inline patterns around the secret. -/
structure InlineRule.Guarded (rule : InlineRule) (before secret : InlinePattern) : Prop where
  pattern : rule.pattern = .seq (.group .prefixText before) (.group .secret secret)
  delimited : ∀ w, before.Lang w → EndsDelimited w
  fresh : ∀ k, (secret.ends k).isEmpty = false → ¬markerOpening <+: k.ahead
  free : secret.groupFree = true

/-- Literal text is matched where it stands. -/
theorem ends_lit {γ : Type} {s : PyStr} {k : Cursor γ PyChar} (h : s <+: k.ahead) :
    ((Regex.cat (s.map fun c => .char c.sameLetter)).ends k).isEmpty = false := by
  obtain ⟨rest, hrest⟩ := h
  induction s generalizing k with
  | nil => rfl
  | cons c s ih =>
    have hends : (Regex.cat ((c :: s).map fun c => .char c.sameLetter)).ends k =
        (Regex.cat (s.map fun c => .char c.sameLetter)).ends
          { k with behind := c :: k.behind, ahead := s ++ rest } := by
      show (Regex.ends (.char c.sameLetter) k).flatMap _ = _
      rw [Regex.ends, ← hrest]
      simp [PyChar.sameLetter]
      rfl
    rw [hends]
    exact ih rfl

theorem secretPattern_fresh (k : Cursor InlineGroup PyChar) (h : (secretPattern.ends k).isEmpty = false) :
    ¬markerOpening <+: k.ahead := by
  intro hopening
  have hlit : ((lit "<redacted:" : InlinePattern).ends k).isEmpty = false := ends_lit hopening
  have hnone : secretPattern.ends k = [] := by
    show ((Regex.notAhead (lit "<redacted:")).ends k).flatMap _ = []
    rw [Regex.ends, hlit, if_neg Bool.false_ne_true]
    rfl
  rw [hnone] at h
  cases h

theorem passwordSecret_fresh (U : UnicodeData) (k : Cursor InlineGroup PyChar)
    (h : ((passwordSecret U).ends k).isEmpty = false) : ¬markerOpening <+: k.ahead := by
  apply secretPattern_fresh k
  cases hends : secretPattern.ends k with
  | cons k' ks => rfl
  | nil =>
    have hnone : (passwordSecret U).ends k = [] := by
      show (Regex.ends (.notAhead _) k).flatMap secretPattern.ends = []
      rw [Regex.ends]
      split_ifs
      · simp [hends]
      · rfl
    rw [hnone] at h
    cases h

/-- The ten rules. -/
theorem inlineRule_guarded {U : UnicodeData} {rule : InlineRule} (hrule : rule ∈ inlineRules U) :
    ∃ before secret, rule.Guarded before secret := by
  have hplain : ∀ (id : RedactionRule) (before : InlinePattern), (∀ w, before.Lang w → EndsDelimited w) →
      ∃ before' secret, (InlineRule.of id before).Guarded before' secret :=
    fun id before hbefore => ⟨before, secretPattern, rfl, hbefore, secretPattern_fresh, by decide⟩
  have htype : ∀ parts, ∀ w, (Regex.cat (parts ++ [spaces1, encryptionType U])).Lang w → EndsDelimited w :=
    fun parts w => delimited_cat fun _ => delimited_encryptionType U
  have hspaces : ∀ (parts : List InlinePattern) w, (Regex.cat (parts ++ [spaces1])).Lang w → EndsDelimited w :=
    fun parts w => delimited_cat fun _ => delimited_spaces
  have hassigned : ∀ (parts : List InlinePattern) w, (Regex.cat (parts ++ [assignment])).Lang w →
      EndsDelimited w :=
    fun parts w => delimited_cat fun _ => delimited_assignment
  simp only [inlineRules, List.mem_cons, List.not_mem_nil, or_false] at hrule
  rcases hrule with rfl | rfl | rfl | rfl | rfl | rfl | rfl | rfl | rfl | rfl
  · exact hplain _ _ (htype [start, spaces, lit "crypto", spaces1, lit "isakmp", spaces1, lit "key"])
  · exact hplain _ _ (htype [start, spaces, lit "pre-shared-key",
      .opt (.seq spaces1 (oneOf [lit "local", lit "remote"]))])
  · exact hplain _ _ (htype [boundary U, lit "username", spaces1, nonSpaces1, anyLazy, boundary U,
      passwordOrSecret])
  · exact hplain _ _ (hspaces [start, spaces, lit "snmp-server", spaces1, lit "community"])
  · refine ⟨passwordPrefix U, passwordSecret U, rfl, ?_, passwordSecret_fresh U, rfl⟩
    exact htype [start, spaces,
      .opt (.cat [lit "enable", .opt (.cat [spaces1, lit "algorithm-type", spaces1, nonSpaces1]), spaces1]),
      passwordOrSecret]
  · exact hplain _ _ (htype [start, spaces, lit "neighbor", spaces1, nonSpaces1, spaces1, lit "password"])
  · exact hplain _ _ (hassigned [boundary U, lit "password"])
  · exact hplain _ _ (hspaces [boundary U, .opt (lit "proxy-"), lit "authorization", spaces, lit ":", spaces,
      lit "bearer"])
  · exact hplain _ _ (hspaces [start, spaces, lit "bearer"])
  · exact hplain _ _ (hassigned [boundary U,
      oneOf [.cat [lit "x", hyphen, lit "api", hyphen, lit "key"], .cat [lit "api", hyphen, lit "key"]]])

/-- A rule leaves a text as it is, or puts its marker behind the prefix of its first match, where a secret is ahead. -/
theorem subnBehind_first {U : UnicodeData} {rule : InlineRule} (hrule : rule ∈ inlineRules U)
    {before secret : InlinePattern} (hpattern : rule.pattern = .seq (.group .prefixText before) (.group .secret secret))
    (hfree : secret.groupFree = true) (behind text : PyStr) :
    rule.subnBehind behind text = (text, 0) ∨
      ∃ copied u rest k, text = copied ++ (u ++ k.ahead) ∧ before.Lang u ∧ (secret.ends k).isEmpty = false ∧
        (rule.pattern.ends ⟨copied.reverse ++ behind, u ++ k.ahead, []⟩).isEmpty = false ∧
        (rule.subnBehind behind text).1 = copied ++ (u ++ (rule.rule.marker ++ rest)) ∧
        (rule.subnBehind behind text).2 ≠ 0 := by
  obtain ⟨_, _, hshape⟩ := inlineRule_shaped hrule
  have hfirst := @Regex.scan_first _ _ rule.pattern (fun k => k.text .prefixText ++ rule.rule.marker)
    hshape.consumes behind text
  rcases hfirst with h | ⟨copied, ahead, rest, k, rfl, hk, hresult, hcount⟩
  · exact Or.inl h
  · have hmatch : (rule.pattern.ends ⟨copied.reverse ++ behind, ahead, []⟩).isEmpty = false :=
      List.isEmpty_eq_false_iff_exists_mem.mpr ⟨k, hk⟩
    rw [hpattern] at hk
    obtain ⟨k₁, h₁, h₂⟩ := List.mem_flatMap.mp hk
    obtain ⟨k₁', -, u, hu, ⟨hahead, -⟩, rfl⟩ := Regex.group_of_mem_ends h₁
    obtain ⟨k₂, hk₂, v, -, -, rfl⟩ := Regex.group_of_mem_ends h₂
    have hgroups := Regex.groups_of_mem_ends hfree hk₂
    have hbefore : Cursor.text { k₂ with groups := (InlineGroup.secret, v) :: k₂.groups } .prefixText = u := by
      show ((((InlineGroup.secret, v) :: k₂.groups).lookup .prefixText).getD []) = u
      rw [hgroups]
      rfl
    dsimp only at hahead
    refine Or.inr ⟨copied, u, rest, { k₁' with groups := (InlineGroup.prefixText, u) :: k₁'.groups }, ?_, hu, ?_, ?_, ?_,
      hcount⟩
    · rw [hahead]
    · exact List.isEmpty_eq_false_iff_exists_mem.mpr ⟨k₂, hk₂⟩
    · rwa [hahead] at hmatch
    · rw [hbefore, List.append_assoc] at hresult
      exact hresult

/-- The marker is put behind a delimiter where the text does not begin like a marker. -/
theorem subnBehind_guarded {U : UnicodeData} {rule : InlineRule} (hrule : rule ∈ inlineRules U)
    (behind text : PyStr) :
    rule.subnBehind behind text = (text, 0) ∨
      ∃ before ahead rest, text = before ++ ahead ∧ EndsDelimited before ∧ ¬markerOpening <+: ahead ∧
        (rule.subnBehind behind text).1 = before ++ (rule.rule.marker ++ rest) ∧
        (rule.subnBehind behind text).2 ≠ 0 := by
  obtain ⟨before, secret, hguarded⟩ := inlineRule_guarded hrule
  rcases subnBehind_first hrule hguarded.pattern hguarded.free behind text with
    h | ⟨copied, u, rest, k, htext, hu, hsecret, -, hresult, hcount⟩
  · exact Or.inl h
  · refine Or.inr ⟨copied ++ u, k.ahead, rest, ?_, (hguarded.delimited u hu).append copied, hguarded.fresh k hsecret,
      ?_, hcount⟩
    · rw [htext, List.append_assoc]
    · rw [hresult, List.append_assoc]

theorem subn_guarded {U : UnicodeData} {rule : InlineRule} (hrule : rule ∈ inlineRules U) (text : PyStr) :
    rule.subn text = (text, 0) ∨
      ∃ before ahead rest, text = before ++ ahead ∧ EndsDelimited before ∧ ¬markerOpening <+: ahead ∧
        (rule.subn text).1 = before ++ (rule.rule.marker ++ rest) ∧ (rule.subn text).2 ≠ 0 :=
  subnBehind_guarded hrule [] text

/-! ### The rules one after another -/

/-- Behind a delimiter the text begins like a marker, and the line does not. -/
def Marked (body text : PyStr) : Prop :=
  ∃ before rest rest', body = before ++ rest ∧ text = before ++ rest' ∧ EndsDelimited before ∧
    ¬markerOpening <+: rest ∧ markerOpening <+: rest'

theorem Marked.ne {body text : PyStr} (h : Marked body text) : text ≠ body := by
  obtain ⟨before, rest, rest', rfl, rfl, -, hrest, hrest'⟩ := h
  intro heq
  rw [List.append_cancel_left heq] at hrest'
  exact hrest hrest'

/-- A further marker leaves the line marked. -/
theorem Marked.replace {body before ahead rest : PyStr} (h : Marked body (before ++ ahead))
    (hbefore : EndsDelimited before) (hahead : ¬markerOpening <+: ahead) (rule : RedactionRule) :
    Marked body (before ++ (rule.marker ++ rest)) := by
  obtain ⟨first, old, new, rfl, hnew, hfirst, hold, hopening⟩ := h
  rcases List.append_eq_append_iff.mp hnew with ⟨z, rfl, rfl⟩ | ⟨z, rfl, rfl⟩
  · -- the marker stands in front of the first one
    by_cases hz : z = []
    · subst hz
      exact absurd hopening hahead
    · have hdelimited := hfirst.of_append hz
      refine ⟨before, z ++ old, rule.marker ++ rest, by rw [List.append_assoc], rfl, hbefore, fun h => ?_,
        opening_prefix_marker _ _⟩
      exact hahead ((hdelimited.opening h).trans (List.prefix_append z new))
  · -- the marker stands behind the opening of the first one
    by_cases hz : z = []
    · subst hz
      exact absurd hopening hahead
    · have hdelimited := hbefore.of_append hz
      refine ⟨first, old, z ++ (rule.marker ++ rest), rfl, by rw [List.append_assoc], hfirst, hold, ?_⟩
      exact (hdelimited.opening hopening).trans (List.prefix_append z _)

section

variable {U : UnicodeData}

/-- A rule that replaces something changes the text. -/
theorem subn_ne_iff {rule : InlineRule} (hrule : rule ∈ inlineRules U) (text : PyStr) :
    (rule.subn text).1 ≠ text ↔ (rule.subn text).2 ≠ 0 := by
  rcases subn_guarded hrule text with h | ⟨before, ahead, rest, rfl, -, hahead, hresult, hcount⟩
  · rw [h]
    simp
  · refine iff_of_true (fun heq => hahead ?_) hcount
    rw [hresult] at heq
    rw [← List.append_cancel_left heq]
    exact opening_prefix_marker _ _

/-- What is recorded is what has been changed. -/
def RecordsExact (body : PyStr) (line : RedactedLine) : Prop :=
  line.records = [] ∧ line.text = body ∨ line.records ≠ [] ∧ Marked body line.text

theorem RecordsExact.applyRule {body : PyStr} {line : RedactedLine} (h : RecordsExact body line) {rule : InlineRule}
    (hrule : rule ∈ inlineRules U) : RecordsExact body (applyRule line rule) := by
  unfold NetopsCopilot.applyRule
  rcases subn_guarded hrule line.text with hsame | ⟨before, ahead, rest, htext, hbefore, hahead, hresult, hcount⟩
  · rw [hsame]
    exact h
  · dsimp only
    rw [if_neg hcount, hresult]
    refine Or.inr ⟨List.append_ne_nil_of_right_ne_nil _ (List.cons_ne_nil _ _), ?_⟩
    dsimp only
    rcases h with ⟨-, hbody⟩ | ⟨-, hmarked⟩
    · exact ⟨before, ahead, _, by rw [← hbody, htext], rfl, hbefore, hahead, opening_prefix_marker _ _⟩
    · rw [htext] at hmarked
      exact hmarked.replace hbefore hahead rule.rule

theorem applyRules_exact (U : UnicodeData) (body : PyStr) :
    RecordsExact body (applyRules (inlineRules U) body) :=
  applyRules_induction (fun _ hrule _ h => h.applyRule hrule) (Or.inl ⟨rfl, rfl⟩)

/-- A line differs from its source exactly if something is recorded for it. -/
theorem applyRules_ne_iff (U : UnicodeData) (body : PyStr) :
    (applyRules (inlineRules U) body).text ≠ body ↔ (applyRules (inlineRules U) body).records ≠ [] := by
  rcases applyRules_exact U body with ⟨hrecords, htext⟩ | ⟨hrecords, hmarked⟩
  · rw [htext, hrecords]
    simp
  · exact iff_of_true hmarked.ne hrecords

end

/-! ### What the report says -/

section

variable (U : UnicodeData)

/-- A pattern of the rule changes the text that the patterns before it leave. -/
def replacesIn (id : RedactionRule) : List InlineRule → PyStr → Bool
  | [], _ => false
  | rule :: rules, text => (rule.rule == id && (rule.subn text).1 != text) || replacesIn id rules (rule.subn text).1

/-- A source line, whether it lies in a private-key block, and what becomes of it. -/
structure LineRun where
  line : TextLine
  inBlock : Bool
  redacted : RedactedLine

/-- One turn of the loop. -/
def LineRun.of (privateKeyOpen : Bool) (l : TextLine) : LineRun :=
  ⟨l, inKeyBlock privateKeyOpen l, (redactLine U privateKeyOpen l.whole).1⟩

/-- The loop, line by line. -/
def lineRuns : Bool → List TextLine → List LineRun
  | _, [] => []
  | privateKeyOpen, l :: ls => .of U privateKeyOpen l :: lineRuns (keyBlockAfter privateKeyOpen l) ls

/-- The line lies in a private-key block, or its output differs from it. -/
def LineRun.touched (run : LineRun) : Bool := run.inBlock || run.redacted.text != run.line.whole

/-- The rule replaces something on the line. -/
def LineRun.replacedBy (id : RedactionRule) (run : LineRun) : Bool :=
  if run.inBlock then id == .privateKeyBlock else replacesIn id (inlineRules U) run.line.body

/-- The summary of a rule that replaces something. -/
structure SummaryExact (runs : List LineRun) (id : RedactionRule) (summary : RedactionRuleSummary) : Prop where
  ruleId : summary.ruleId = id.value
  lineCount : summary.lineCount = runs.countP (LineRun.replacedBy U id)
  occurs : 0 < summary.lineCount
  occurrences : id ≠ .privateKeyBlock → summary.lineCount ≤ summary.occurrenceCount
  begins : id = .privateKeyBlock →
    summary.occurrenceCount = runs.countP fun run => beginsPrivateKey run.line.body

/-- What the report says about a run of the loop. -/
structure ReportExact (report : RedactionReport) (runs : List LineRun) : Prop where
  sourceLineCount : report.sourceLineCount = runs.length
  redactedLineCount : report.redactedLineCount = runs.countP LineRun.touched
  increasing : (report.rules.map (·.ruleId)).Pairwise (· < ·)
  summaries : ∀ summary ∈ report.rules, ∃ id, SummaryExact U runs id summary
  reported : ∀ id, (∃ run ∈ runs, run.replacedBy U id = true) → ∃ summary ∈ report.rules, summary.ruleId = id.value
  max_le : ∀ summary ∈ report.rules, summary.lineCount ≤ report.redactedLineCount
  le_sum : report.redactedLineCount ≤ (report.rules.map (·.lineCount)).sum

end

/-! ### The records of one line -/

section

variable {U : UnicodeData}

/-- The records of the rules that come later are added behind. -/
theorem foldl_applyRule (rules : List InlineRule) (line : RedactedLine) :
    rules.foldl applyRule line = ⟨(applyRules rules line.text).text,
      line.records ++ (applyRules rules line.text).records⟩ := by
  unfold applyRules
  induction rules generalizing line with
  | nil => simp
  | cons rule rules ih =>
    rw [List.foldl_cons, List.foldl_cons, ih, ih (applyRule ⟨line.text, []⟩ rule)]
    unfold applyRule
    dsimp only
    split_ifs <;> simp

theorem applyRules_cons (rule : InlineRule) (rules : List InlineRule) (body : PyStr) :
    applyRules (rule :: rules) body =
      ⟨(applyRules rules (rule.subn body).1).text,
        (if (rule.subn body).2 = 0 then [] else [(rule.rule, (rule.subn body).2)]) ++
          (applyRules rules (rule.subn body).1).records⟩ := by
  show rules.foldl applyRule (applyRule ⟨body, []⟩ rule) = _
  rw [foldl_applyRule]
  unfold applyRule
  dsimp only
  rw [List.nil_append]

/-- A rule is recorded where one of its patterns changes the text, with what it has replaced. -/
theorem recordsOf_applyRules (id : RedactionRule) {rules : List InlineRule}
    (hrules : ∀ rule ∈ rules, rule ∈ inlineRules U) (body : PyStr) :
    ((applyRules rules body).recordsOf id ≠ [] ↔ replacesIn id rules body = true) ∧
      ∀ n ∈ (applyRules rules body).recordsOf id, 0 < n := by
  induction rules generalizing body with
  | nil => exact ⟨by simp [applyRules, RedactedLine.recordsOf, replacesIn], nofun⟩
  | cons rule rules ih =>
    obtain ⟨hrule, hrules⟩ := List.forall_mem_cons.mp hrules
    obtain ⟨ihempty, ihpos⟩ := ih hrules (rule.subn body).1
    have hchanged := subn_ne_iff hrule body
    have hsplit : (applyRules (rule :: rules) body).recordsOf id =
        (if rule.rule == id && (rule.subn body).1 != body then [(rule.subn body).2] else []) ++
          (applyRules rules (rule.subn body).1).recordsOf id := by
      rw [applyRules_cons]
      unfold RedactedLine.recordsOf
      rw [List.filter_append, List.map_append]
      congr 1
      by_cases hcount : (rule.subn body).2 = 0
      · have hsame : (rule.subn body).1 = body := by
          by_contra hne
          exact hchanged.mp hne hcount
        simp [hcount, hsame]
      · have hne := hchanged.mpr hcount
        by_cases hid : rule.rule = id <;> simp [hcount, hne, hid]
    rw [hsplit, replacesIn]
    split_ifs with h
    · refine ⟨by simp [h], fun n hn => ?_⟩
      rcases List.mem_append.mp hn with hn | hn
      · rw [List.mem_singleton.mp hn]
        rw [Bool.and_eq_true, bne_iff_ne] at h
        exact Nat.pos_of_ne_zero (hchanged.mp h.2)
      · exact ihpos n hn
    · rw [Bool.not_eq_true] at h
      rw [h, Bool.false_or, List.nil_append]
      exact ⟨ihempty, ihpos⟩

theorem replacesIn_of_forall_ne {id : RedactionRule} {rules : List InlineRule}
    (hrules : ∀ rule ∈ rules, rule.rule ≠ id) (text : PyStr) : replacesIn id rules text = false := by
  induction rules generalizing text with
  | nil => rfl
  | cons rule rules ih =>
    obtain ⟨hrule, hrules⟩ := List.forall_mem_cons.mp hrules
    rw [replacesIn, ih hrules, Bool.or_false, beq_eq_false_iff_ne.mpr hrule, Bool.false_and]

/-- No inline rule is the private-key rule. -/
theorem replacesIn_privateKeyBlock (U : UnicodeData) (text : PyStr) :
    replacesIn .privateKeyBlock (inlineRules U) text = false := by
  refine replacesIn_of_forall_ne (fun rule hrule => ?_) text
  simp only [inlineRules, List.mem_cons, List.not_mem_nil, or_false] at hrule
  rcases hrule with rfl | rfl | rfl | rfl | rfl | rfl | rfl | rfl | rfl | rfl <;> simp [InlineRule.of]

theorem recordsOf_singleton (text : PyStr) (rule id : RedactionRule) (n : Nat) :
    RedactedLine.recordsOf id ⟨text, [(rule, n)]⟩ = if rule = id then [n] else [] := by
  unfold RedactedLine.recordsOf
  by_cases hid : rule = id
  · rw [if_pos hid, hid]
    simp
  · rw [if_neg hid]
    simp [hid]

theorem recordsOf_text (line : RedactedLine) (text : PyStr) (id : RedactionRule) :
    RedactedLine.recordsOf id { line with text := text } = line.recordsOf id := rfl

/-- The records of a line say what has become of it. -/
structure LineRun.Faithful (U : UnicodeData) (run : LineRun) : Prop where
  touched : run.touched = !run.redacted.records.isEmpty
  replacedBy : ∀ id, run.replacedBy U id = !(run.redacted.recordsOf id).isEmpty
  pos : ∀ id, id ≠ .privateKeyBlock → ∀ n ∈ run.redacted.recordsOf id, 0 < n
  begins : (run.redacted.recordsOf .privateKeyBlock).sum = if beginsPrivateKey run.line.body then 1 else 0

theorem LineRun.of_faithful (U : UnicodeData) (privateKeyOpen : Bool) (l : TextLine) :
    (LineRun.of U privateKeyOpen l).Faithful U := by
  have hrun : LineRun.of U privateKeyOpen l =
      ⟨l, inKeyBlock privateKeyOpen l, (redactLine U privateKeyOpen l.whole).1⟩ := rfl
  cases hblock : inKeyBlock privateKeyOpen l with
  | true =>
    rw [hrun, hblock, redactLine_of_inKeyBlock U hblock]
    refine ⟨rfl, fun id => ?_, fun id hid n hn => ?_, ?_⟩
    · rw [recordsOf_singleton]
      by_cases hid : id = .privateKeyBlock
      · rw [if_pos hid.symm]
        exact beq_iff_eq.mpr hid
      · rw [if_neg (Ne.symm hid)]
        exact beq_eq_false_iff_ne.mpr hid
    · rw [recordsOf_singleton, if_neg (Ne.symm hid)] at hn
      cases hn
    · rw [recordsOf_singleton, if_pos rfl]
      exact List.sum_singleton
  | false =>
    rw [hrun, hblock, redactLine_of_not_inKeyBlock U hblock]
    have hrecords := fun id => recordsOf_applyRules (U := U) id (fun _ h => h) l.body
    refine ⟨?_, fun id => ?_, fun id _ => ?_, ?_⟩
    · have hwhole : l.body ++ (splitLineEnding l.whole).2 = l.whole := splitLineEnding_append l.whole
      have hne := applyRules_ne_iff U l.body
      unfold LineRun.touched
      dsimp only
      rw [Bool.false_or, Bool.eq_iff_iff, bne_iff_ne, Bool.not_eq_true', List.isEmpty_eq_false_iff, ← hne,
        not_iff_not]
      constructor
      · exact fun heq => List.append_cancel_right (heq.trans hwhole.symm)
      · intro heq
        rw [heq]
        exact hwhole
    · unfold LineRun.replacedBy
      dsimp only
      rw [if_neg Bool.false_ne_true, recordsOf_text, Bool.eq_iff_iff, Bool.not_eq_true',
        List.isEmpty_eq_false_iff]
      exact (hrecords id).1.symm
    · rw [recordsOf_text]
      exact (hrecords id).2
    · have hempty : (applyRules (inlineRules U) l.body).recordsOf .privateKeyBlock = [] := by
        by_contra hne
        have htrue := (hrecords .privateKeyBlock).1.mp hne
        rw [replacesIn_privateKeyBlock] at htrue
        cases htrue
      have hbegin : beginsPrivateKey l.body = false := (Bool.or_eq_false_iff.mp hblock).2
      rw [recordsOf_text, hempty, hbegin]
      rfl

/-! ### All lines -/

theorem lineRuns_faithful (U : UnicodeData) (privateKeyOpen : Bool) (ls : List TextLine) :
    ∀ run ∈ lineRuns U privateKeyOpen ls, run.Faithful U := by
  induction ls generalizing privateKeyOpen with
  | nil => exact nofun
  | cons l ls ih => exact List.forall_mem_cons.mpr ⟨LineRun.of_faithful U privateKeyOpen l, ih _⟩

theorem map_redacted_lineRuns (U : UnicodeData) (privateKeyOpen : Bool) (ls : List TextLine) :
    (lineRuns U privateKeyOpen ls).map (·.redacted) = redactLines U privateKeyOpen (ls.map TextLine.whole) := by
  induction ls generalizing privateKeyOpen with
  | nil => rfl
  | cons l ls ih =>
    rw [redactLines_cons, ← ih]
    rfl

theorem map_line_lineRuns (U : UnicodeData) (privateKeyOpen : Bool) (ls : List TextLine) :
    (lineRuns U privateKeyOpen ls).map (·.line) = ls := by
  induction ls generalizing privateKeyOpen with
  | nil => rfl
  | cons l ls ih => exact congrArg (l :: ·) (ih _)

/-- The loop finds the blocks. -/
theorem inBlock_lineRuns {privateKeyOpen : Bool} {ls : List TextLine} {i : Nat} {run : LineRun}
    (h : (lineRuns U privateKeyOpen ls)[i]? = some run) :
    run.inBlock = true ↔ InKeyBlock privateKeyOpen ls i := by
  induction ls generalizing privateKeyOpen i with
  | nil => cases h
  | cons l ls ih =>
    cases i with
    | zero =>
      obtain rfl : LineRun.of U privateKeyOpen l = run := Option.some.inj h
      exact inKeyBlock_zero.symm
    | succ i =>
      rw [inKeyBlock_succ]
      exact ih h

/-- A count of the lines where one of several tests succeeds. -/
theorem countP_le_sum_countP {α ι : Type} {p : α → Bool} {q : ι → α → Bool} {is : List ι} {xs : List α}
    (h : ∀ x ∈ xs, p x = true → ∃ i ∈ is, q i x = true) :
    xs.countP p ≤ (is.map fun i => xs.countP (q i)).sum := by
  induction xs with
  | nil => exact Nat.zero_le _
  | cons x xs ih =>
    obtain ⟨hx, hxs⟩ := List.forall_mem_cons.mp h
    have hsum : (is.map fun i => (x :: xs).countP (q i)).sum =
        (is.map fun i => xs.countP (q i)).sum + (is.map fun i => if q i x then 1 else 0).sum := by
      rw [← List.sum_map_add]
      exact congrArg List.sum (List.map_congr_left fun i _ => List.countP_cons ..)
    rw [hsum, List.countP_cons]
    refine Nat.add_le_add (ih hxs) ?_
    split_ifs with hp
    · obtain ⟨i, hi, hq⟩ := hx hp
      refine List.le_sum_of_mem (List.mem_map.mpr ⟨i, hi, ?_⟩)
      rw [if_pos hq]
    · exact Nat.zero_le _

/-- A count of lines that all have a share in a sum. -/
theorem countP_le_sum_map {α : Type} {p : α → Bool} {f : α → Nat} {xs : List α}
    (h : ∀ x ∈ xs, p x = true → 0 < f x) : xs.countP p ≤ (xs.map f).sum := by
  induction xs with
  | nil => exact Nat.zero_le _
  | cons x xs ih =>
    obtain ⟨hx, hxs⟩ := List.forall_mem_cons.mp h
    rw [List.countP_cons, List.map_cons, List.sum_cons, Nat.add_comm]
    refine Nat.add_le_add ?_ (ih hxs)
    split_ifs with hp
    · exact hx hp
    · exact Nat.zero_le _

theorem sum_map_ite {α : Type} {p : α → Bool} {f : α → Nat} {xs : List α}
    (h : ∀ x ∈ xs, f x = if p x then 1 else 0) : (xs.map f).sum = xs.countP p := by
  induction xs with
  | nil => rfl
  | cons x xs ih =>
    obtain ⟨hx, hxs⟩ := List.forall_mem_cons.mp h
    rw [List.countP_cons, List.map_cons, List.sum_cons, Nat.add_comm, ih hxs, hx]

/-! ### Main result -/

theorem RedactionRule.mem_all (id : RedactionRule) : id ∈ RedactionRule.all := by
  cases id <;> decide

theorem RedactionRule.all_increasing :
    RedactionRule.all.Pairwise fun id id' => id.value < id'.value := by
  decide +kernel

/-- A rule has a summary where it replaces something. -/
theorem ruleSummary_lineRuns {runs : List LineRun} (hruns : ∀ run ∈ runs, run.Faithful U) (id : RedactionRule) :
    (ruleSummary (runs.map (·.redacted)) id = none ↔ runs.countP (LineRun.replacedBy U id) = 0) ∧
    ∀ summary, ruleSummary (runs.map (·.redacted)) id = some summary → SummaryExact U runs id summary := by
  have hcount : (runs.map (·.redacted)).countP (fun line => !(line.recordsOf id).isEmpty) =
      runs.countP (LineRun.replacedBy U id) := by
    rw [List.countP_map]
    exact List.countP_congr fun run hrun => by rw [(hruns run hrun).replacedBy id]; rfl
  unfold ruleSummary
  dsimp only
  rw [hcount, List.map_map]
  refine ⟨⟨fun h => ?_, fun hzero => if_pos hzero⟩, fun summary h => ?_⟩
  · by_contra hzero
    rw [if_neg hzero] at h
    cases h
  split_ifs at h with hzero
  cases h
  refine ⟨rfl, rfl, Nat.pos_of_ne_zero hzero, fun hid => ?_, fun hid => ?_⟩
  · refine countP_le_sum_map fun run hrun hreplaced => ?_
    rw [(hruns run hrun).replacedBy id, Bool.not_eq_true', List.isEmpty_eq_false_iff_exists_mem] at hreplaced
    obtain ⟨n, hn⟩ := hreplaced
    exact Nat.lt_of_lt_of_le ((hruns run hrun).pos id hid n hn) (List.le_sum_of_mem hn)
  · subst hid
    exact sum_map_ite fun run hrun => (hruns run hrun).begins

/-- A line that is recorded is recorded for some rule, and a line of a rule is recorded. -/
theorem LineRun.Faithful.touched_iff {run : LineRun} (hrun : run.Faithful U) :
    run.touched = true ↔ ∃ id ∈ RedactionRule.all, run.replacedBy U id = true := by
  rw [hrun.touched, Bool.not_eq_true', List.isEmpty_eq_false_iff_exists_mem]
  constructor
  · rintro ⟨⟨id, n⟩, hmem⟩
    refine ⟨id, id.mem_all, ?_⟩
    rw [hrun.replacedBy, Bool.not_eq_true', List.isEmpty_eq_false_iff_exists_mem]
    exact ⟨n, List.mem_map.mpr ⟨(id, n), List.mem_filter.mpr ⟨hmem, beq_iff_eq.mpr rfl⟩, rfl⟩⟩
  · rintro ⟨id, -, hid⟩
    rw [hrun.replacedBy, Bool.not_eq_true', List.isEmpty_eq_false_iff_exists_mem] at hid
    obtain ⟨n, hn⟩ := hid
    obtain ⟨record, hrecord, -⟩ := List.mem_map.mp hn
    exact ⟨record, (List.mem_filter.mp hrecord).1⟩

/-- The line counts of the summaries, added up over all rules. -/
theorem sum_lineCount {runs : List LineRun} (hruns : ∀ run ∈ runs, run.Faithful U) (ids : List RedactionRule) :
    ((ids.filterMap (ruleSummary (runs.map (·.redacted)))).map (·.lineCount)).sum =
      (ids.map fun id => runs.countP (LineRun.replacedBy U id)).sum := by
  induction ids with
  | nil => rfl
  | cons id ids ih =>
    obtain ⟨hnone, hsome⟩ := ruleSummary_lineRuns hruns id
    rw [List.map_cons, List.sum_cons, ← ih]
    cases hsummary : ruleSummary (runs.map (·.redacted)) id with
    | none => rw [List.filterMap_cons_none hsummary, hnone.mp hsummary, Nat.zero_add]
    | some summary =>
      rw [List.filterMap_cons_some hsummary, List.map_cons, List.sum_cons, (hsome summary hsummary).lineCount]

/-- **The report is exact.** For every text, the loop reads its lines one by one, with a private-key block where
there is one, and writes their outputs behind each other. A line is recorded if and only if it lies in a block or
its output differs from it. The report counts the lines and the recorded ones; its summaries have increasing ids,
and count for each rule the lines on which it replaces something, with at least as many occurrences for an inline
rule and as many as there are `BEGIN` lines for the private-key rule. The recorded lines are at least those of any
rule, and at most those of all rules together. -/
theorem report_exact (U : UnicodeData) (source : PyStr) :
    (lineRuns U false (splitLines source)).map (·.line) = splitLines source ∧
    (redactCiscoConfig U source).content =
      (lineRuns U false (splitLines source)).flatMap (·.redacted.text) ∧
    (∀ i run, (lineRuns U false (splitLines source))[i]? = some run →
      (run.inBlock = true ↔ InKeyBlock false (splitLines source) i) ∧
      (run.redacted.records ≠ [] ↔ run.inBlock = true ∨ run.redacted.text ≠ run.line.whole)) ∧
    ReportExact U (redactCiscoConfig U source).report (lineRuns U false (splitLines source)) := by
  have hruns := lineRuns_faithful U false (splitLines source)
  have hmap := map_redacted_lineRuns U false (splitLines source)
  have hreport : (redactCiscoConfig U source).report =
      ⟨(redactLines U false ((splitLines source).map TextLine.whole)).length,
        (redactLines U false ((splitLines source).map TextLine.whole)).countP fun line => !line.records.isEmpty,
        RedactionRule.all.filterMap
          (ruleSummary (redactLines U false ((splitLines source).map TextLine.whole)))⟩ := rfl
  have hcontent : (redactCiscoConfig U source).content =
      (redactLines U false ((splitLines source).map TextLine.whole)).flatMap (·.text) := rfl
  rw [← hmap] at hreport hcontent
  refine ⟨map_line_lineRuns U false _, ?_, fun i run hrun => ⟨inBlock_lineRuns hrun, ?_⟩, ?_⟩
  · rw [hcontent, List.flatMap_map]
  · have htouched := (hruns run (List.mem_of_getElem? hrun)).touched
    unfold LineRun.touched at htouched
    rw [← List.isEmpty_eq_false_iff, ← Bool.not_eq_true', ← htouched, Bool.or_eq_true, bne_iff_ne]
  · generalize lineRuns U false (splitLines source) = runs at hruns hreport
    have hcount : (runs.map (·.redacted)).countP (fun line => !line.records.isEmpty) =
        runs.countP LineRun.touched := by
      rw [List.countP_map]
      exact List.countP_congr fun run hrun => by rw [(hruns run hrun).touched]; rfl
    rw [hcount, List.length_map] at hreport
    rw [hreport]
    have hmem : ∀ summary ∈ RedactionRule.all.filterMap (ruleSummary (runs.map (·.redacted))),
        ∃ id, SummaryExact U runs id summary := by
      intro summary hsummary
      obtain ⟨id, -, hid⟩ := List.mem_filterMap.mp hsummary
      exact ⟨id, (ruleSummary_lineRuns hruns id).2 summary hid⟩
    refine ⟨rfl, rfl, ?_, hmem, ?_, ?_, ?_⟩
    · rw [List.pairwise_map]
      refine RedactionRule.all_increasing.filterMap _ fun id id' hlt summary h summary' h' => ?_
      rw [((ruleSummary_lineRuns hruns id).2 summary h).ruleId, ((ruleSummary_lineRuns hruns id').2 summary' h').ruleId]
      exact hlt
    · rintro id ⟨run, hrun, hreplaced⟩
      cases hsummary : ruleSummary (runs.map (·.redacted)) id with
      | none =>
        have hzero := (ruleSummary_lineRuns hruns id).1.mp hsummary
        exact absurd hreplaced (List.countP_eq_zero.mp hzero run hrun)
      | some summary =>
        exact ⟨summary, List.mem_filterMap.mpr ⟨id, id.mem_all, hsummary⟩,
          ((ruleSummary_lineRuns hruns id).2 summary hsummary).ruleId⟩
    · intro summary hsummary
      obtain ⟨id, hid⟩ := hmem summary hsummary
      rw [hid.lineCount]
      exact List.countP_mono_left fun run hrun hreplaced =>
        (hruns run hrun).touched_iff.mpr ⟨id, id.mem_all, hreplaced⟩
    · dsimp only
      rw [sum_lineCount hruns]
      exact countP_le_sum_countP fun run hrun htouched => (hruns run hrun).touched_iff.mp htouched

end

end NetopsCopilot
