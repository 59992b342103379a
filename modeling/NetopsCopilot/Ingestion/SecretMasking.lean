import NetopsCopilot.Ingestion.DirectiveForms

/-!
# Secrets in the lines of a source

The rules that run before the rule of a form rewrite the secret and the text behind it, each on its own; then the
secret is replaced as a whole, so the later rules see the same line whatever it was (`applyRules_secret`).
-/

namespace NetopsCopilot

open Re

section

variable {U : UnicodeData}

/-! ### The line of a form -/

/-- The rules that run after the rule of the form. -/
def Directive.rulesAfter (U : UnicodeData) (d : Directive) : List InlineRule :=
  (inlineRules U).drop ((d.rulesBefore U).length + 1)

theorem inlineRules_split (U : UnicodeData) (d : Directive) :
    inlineRules U = d.rulesBefore U ++ d.rule U :: d.rulesAfter U := by
  cases d <;> rfl

theorem mem_of_rulesBefore {d : Directive} {rule : InlineRule} (h : rule ∈ d.rulesBefore U) :
    rule ∈ inlineRules U := by
  rw [inlineRules_split U d]
  exact List.mem_append_left _ h

/-- A rule keeps what may stand behind the secret. -/
theorem Directive.Behind.inside {d : Directive} {rule : InlineRule} (hrule : rule ∈ inlineRules U) {t : PyStr}
    (h : d.Behind t) : d.Behind (rule.inside t).1 := by
  have hblank : (∀ c ∈ t, c.isSpace = true) → ∀ c ∈ (rule.inside t).1, c.isSpace = true := by
    intro h
    rwa [inside_blank hrule h]
  cases d <;> first | exact margin_inside hrule h | exact hblank h

/-- The rules in front of the rule of a form leave its secret readable. -/
theorem Directive.Readable.insideAll {d : Directive} {S : SecretToken} (h : d.Readable U S.text) :
    d.Readable U (insideAll (d.rulesBefore U) S.text) := by
  cases d with
  | isakmpKey => exact h
  | password =>
    rw [insideAll_spaced (U := U) (fun rule hrule => ?_) S.visible]
    · exact h
    · simp only [rulesBefore, List.mem_cons, List.not_mem_nil, or_false] at hrule
      rcases hrule with rfl | rfl | rfl | rfl <;> simp [spacedRules]
  | _ => trivial

/-- **The rules make the same of a line of a form for every secret**, up to what is recorded in front of its rule. -/
theorem applyRules_secret (d : Directive) (indent : Blanks) (S : SecretToken) {behind : PyStr}
    (hbehind : d.Behind behind) (hreadable : d.Readable U S.text)
    (huncrossed : Uncrossed (d.rulesBefore U) S.text behind) :
    applyRules (inlineRules U) ((indent.text ++ d.head) ++ (S.text ++ behind)) =
      (d.rulesAfter U).foldl applyRule
        ⟨(indent.text ++ d.head) ++ ((d.rule U).rule.marker ++ insideAll (d.rulesBefore U) behind),
          insideRecords (d.rulesBefore U) S.text behind ++ [((d.rule U).rule, 1)]⟩ := by
  have hbefore : ∀ rule ∈ d.rulesBefore U, rule ∈ inlineRules U := fun _ => mem_of_rulesBefore
  have hkept : ∀ rule ∈ d.rulesBefore U, ∀ t, d.Behind t → d.Behind (rule.inside t).1 :=
    fun rule hrule t => Directive.Behind.inside (hbefore rule hrule)
  have htoken := foldl_applyRule_token hbefore ((head_endsApart U d).append indent.text)
    (fun t => Directive.Behind.margin) hkept (fun rule hrule S t => rulesBefore_spare d hrule) S hbehind huncrossed []
  obtain ⟨S', hS'⟩ := S.insideAll hbefore
  have hreadable' := hreadable.insideAll
  rw [hS'] at hreadable'
  have hhit := rule_hits indent d (insideAll_kept hkept hbehind) hreadable'
  unfold applyRules
  rw [inlineRules_split U d, List.foldl_append, htoken, hS', List.foldl_cons, List.nil_append]
  congr 1
  unfold applyRule
  rw [hhit]
  rfl

/-! ### What is recorded for a secret -/

/-- How often the rule `password=` replaces text inside the token, before the rule of the form hides it. -/
def Directive.assignments (U : UnicodeData) : Directive → PyStr → Nat
  | .authorization .., token | .bearer .., token | .apiKey .., token => ((assignedPasswordRule U).inside token).2
  | _, _ => 0

/-- What is recorded in all for `cisco-password`. -/
def passwordCount (records : List (RedactionRule × Nat)) : Nat :=
  (RedactedLine.recordsOf .ciscoPassword ⟨[], records⟩).sum

theorem passwordCount_append (records records' : List (RedactionRule × Nat)) :
    passwordCount (records ++ records') = passwordCount records + passwordCount records' := by
  simp [passwordCount, RedactedLine.recordsOf]

/-- Where the rules of a form look for assignments, they do so between rules that find nothing in a token. -/
theorem rulesBefore_cases (U : UnicodeData) (d : Directive) :
    ((∀ rule ∈ d.rulesBefore U, rule ∈ spacedRules U) ∧ ∀ token, d.assignments U token = 0) ∨
      ∃ before after, d.rulesBefore U = before ++ assignedPasswordRule U :: after ∧
        (∀ rule ∈ before ++ after, rule ∈ spacedRules U) ∧
        ∀ token, d.assignments U token = ((assignedPasswordRule U).inside token).2 := by
  cases d with
  | authorization =>
    refine Or.inr ⟨[isakmpRule U, preSharedKeyRule U, usernameRule U, communityRule, passwordRule U, neighborRule U],
      [], rfl, ?_, fun _ => rfl⟩
    simp [spacedRules]
  | bearer =>
    refine Or.inr ⟨[isakmpRule U, preSharedKeyRule U, usernameRule U, communityRule, passwordRule U, neighborRule U],
      [authorizationRule U], rfl, ?_, fun _ => rfl⟩
    simp [spacedRules]
  | apiKey =>
    refine Or.inr ⟨[isakmpRule U, preSharedKeyRule U, usernameRule U, communityRule, passwordRule U, neighborRule U],
      [authorizationRule U, bearerRule], rfl, ?_, fun _ => rfl⟩
    simp [spacedRules]
  | _ =>
    refine Or.inl ⟨?_, fun _ => rfl⟩
    simp [Directive.rulesBefore, spacedRules]

/-- The records of two secrets differ in the assignments found inside them. -/
theorem insideRecords_secret (U : UnicodeData) (d : Directive) (behind : PyStr) :
    ∃ before n after, ∀ S : SecretToken, insideRecords (d.rulesBefore U) S.text behind =
      before ++ ((if d.assignments U S.text + n = 0 then [] else [(.ciscoPassword, d.assignments U S.text + n)]) ++
        after) := by
  have hempty : ∀ c ∈ ([] : PyStr), c.isSpace = false := nofun
  rcases rulesBefore_cases U d with ⟨hspaced, hnone⟩ | ⟨before, after, hsplit, hspaced, hcount⟩
  · refine ⟨insideRecords (d.rulesBefore U) [] behind, 0, [], fun S => ?_⟩
    rw [hnone, if_pos rfl, List.append_nil, List.append_nil]
    exact insideRecords_spaced hspaced S.visible hempty behind
  · have hbefore : ∀ rule ∈ before, rule ∈ spacedRules U := fun rule h => hspaced rule (List.mem_append_left _ h)
    have hafter : ∀ rule ∈ after, rule ∈ spacedRules U := fun rule h => hspaced rule (List.mem_append_right _ h)
    have hrule : assignedPasswordRule U ∈ inlineRules U := by simp [inlineRules_eq]
    refine ⟨insideRecords before [] behind, ((assignedPasswordRule U).inside (insideAll before behind)).2,
      insideRecords after [] ((assignedPasswordRule U).inside (insideAll before behind)).1, fun S => ?_⟩
    obtain ⟨S', hS'⟩ := S.inside hrule
    rw [hsplit, hcount, insideRecords_append, insideAll_spaced hbefore S.visible, insideRecords, hS',
      insideRecords_spaced hbefore S.visible hempty, insideRecords_spaced hafter S'.visible hempty]
    rfl

theorem passwordCount_secret (d : Directive) (S S' : SecretToken) (behind : PyStr) :
    passwordCount (insideRecords (d.rulesBefore U) S.text behind) + d.assignments U S'.text =
      passwordCount (insideRecords (d.rulesBefore U) S'.text behind) + d.assignments U S.text := by
  obtain ⟨before, n, after, hrecords⟩ := insideRecords_secret U d behind
  have hcount : ∀ m, passwordCount (if m = 0 then [] else [(.ciscoPassword, m)]) = m := by
    intro m
    split_ifs with hm
    · exact hm.symm
    · simp [passwordCount, RedactedLine.recordsOf]
  rw [hrecords, hrecords]
  simp only [passwordCount_append, hcount]
  omega

/-! ### A secret in a source -/

/-- A line of one of the forms: its indentation, the form, whitespace at the end, and the line ending. -/
structure SecretLine where
  indent : Blanks
  directive : Directive
  trailing : Blanks
  ending : PyStr

/-- The line with a secret in its place. -/
def SecretLine.line (l : SecretLine) (S : SecretToken) : TextLine :=
  ⟨(l.indent.text ++ l.directive.head) ++ (S.text ++ (l.directive.arguments ++ l.trailing.text)), l.ending⟩

/-- The whitespace at the end of the body, with an ending that `_split_line_ending` leaves there. -/
def SecretLine.tail (l : SecretLine) : PyStr := l.trailing.text ++ if knownEnding l.ending then [] else l.ending

/-- The text behind the secret. -/
def SecretLine.behind (l : SecretLine) : PyStr := l.directive.arguments ++ l.tail

/-- The source with the line between others. -/
def SecretLine.source (l : SecretLine) (above below : List TextLine) (S : SecretToken) : PyStr :=
  joinLines (above ++ l.line S :: below)

/-- The rule of the form reads the token as its secret, and no rule before it goes from the token into the text
behind. -/
structure SecretLine.Masks (U : UnicodeData) (l : SecretLine) (S : SecretToken) : Prop where
  readable : l.directive.Readable U S.text
  uncrossed : Uncrossed (l.directive.rulesBefore U) S.text l.behind

theorem Margin.append {t t' : PyStr} (h : Margin t) (h' : Margin t') : Margin (t ++ t') := by
  cases t with
  | nil => exact h'
  | cons c t => exact h

theorem margin_of_blank {t : PyStr} (h : ∀ c ∈ t, c.isSpace = true) : Margin t :=
  fun c hc => h c (List.mem_of_head? hc)

theorem SecretLine.tail_blank (l : SecretLine) (hending : IsEnding l.ending ∨ l.ending = []) :
    ∀ c ∈ l.tail, c.isSpace = true := by
  have hend : ∀ c ∈ (if knownEnding l.ending then [] else l.ending), c.isSpace = true := by
    split_ifs
    · exact nofun
    · rcases hending with h | h
      · exact fun c => isSpace_of_isEnding h
      · rw [h]
        exact nofun
  intro c hc
  exact (List.mem_append.mp hc).elim (l.trailing.isSpace c) (hend c)

theorem SecretLine.behind_ok (l : SecretLine) (hending : IsEnding l.ending ∨ l.ending = []) :
    l.directive.Behind l.behind := by
  have hblank := l.tail_blank hending
  unfold behind
  cases l.directive with
  | isakmpKey _ _ _ _ _ _ _ g₄ _ _ => exact (margin_gap g₄ _).append (margin_of_blank hblank)
  | community _ _ _ _ arguments => exact arguments.margin.append (margin_of_blank hblank)
  | bearer _ _ arguments => exact arguments.margin.append (margin_of_blank hblank)
  | _ => exact hblank

/-! ### The line in the loop -/

/-- A match from the start of a line begins with the literal behind whitespace. -/
theorem matchText_opens {s : String} {rs : List InlinePattern} {body : PyStr}
    (h : ((Regex.cat (start :: spaces :: lit s :: rs)).matchText body).isSome = true) :
    ∃ v t, body = v ++ t ∧ (∀ c ∈ v, c.isSpace = true) ∧ folded (py s) <+: folded t := by
  obtain ⟨k, hk⟩ := Option.isSome_iff_exists.mp h
  obtain ⟨w, ⟨-, w', rfl, rfl, v, w'', rfl, hv, word, t, rfl, hword, -⟩, hahead, -⟩ :=
    Regex.reads_of_mem_ends (List.mem_of_head? hk)
  refine ⟨v, (word ++ t) ++ k.ahead, ?_, hv, ?_⟩
  · rw [← List.append_assoc]
    exact hahead
  · rw [List.append_assoc, folded_append, folded_eq_of_sameLetter (lang_lit hword)]
    exact List.prefix_append _ _

/-- The words that begin the forms. -/
def formWords : List String :=
  ["crypto", "pre-shared-key", "username", "snmp-server", "enable", "password", "secret", "neighbor", "authorization",
    "bearer", "x", "api"]

theorem openings_subset (d : Directive) : ∀ s ∈ d.openings, s ∈ formWords := by
  cases d <;> simp [Directive.openings, formWords]

theorem head_begins (d : Directive) : Begins d.head := by
  obtain ⟨w, more, hhead, s, hs, hfolded⟩ := head_opens d
  have hvisible : ∀ s ∈ formWords, startsVisible s = true := by decide
  rw [hhead]
  exact begins_of_folded hfolded (hvisible s (openings_subset d s hs)) more

theorem not_key_line {indent : Blanks} (d : Directive) (rest : PyStr) {s : String} {rs : List InlinePattern}
    (hs : s = "-----BEGIN" ∨ s = "-----END") :
    ((Regex.cat (start :: spaces :: lit s :: rs) : InlinePattern).matchText
      ((indent.text ++ d.head) ++ rest)).isSome = false := by
  rw [← Bool.not_eq_true]
  intro hmatch
  obtain ⟨v, t, hbody, hv, hstarts⟩ := matchText_opens hmatch
  obtain ⟨w, more, hhead, s', hs', hfolded⟩ := head_opens d
  have hopposed : Opposed formWords ["-----BEGIN", "-----END"] := by decide
  obtain ⟨hvisible, hunlike⟩ := hopposed s' (openings_subset d s' hs')
  have hword : Begins w := by
    have hword := begins_of_folded hfolded hvisible []
    rwa [List.append_nil] at hword
  have hletters : ∀ s ∈ ["-----BEGIN", "-----END"], startsVisible s = true := by decide
  have hmem : s ∈ ["-----BEGIN", "-----END"] := by simpa using hs
  refine (unlike_congr hfolded (hunlike s hmem)).behind_blank indent (more ++ rest) hword (hletters s hmem) hv hstarts ?_
  rw [← hbody, hhead]
  simp

section

variable {l : SecretLine} {S S' : SecretToken}

theorem SecretLine.whole_eq (hok : NoBreak (l.line S).text) (hending : IsEnding l.ending ∨ l.ending = []) :
    (l.line S).body = (l.indent.text ++ l.directive.head) ++ (S.text ++ l.behind) ∧
      (splitLineEnding (l.line S).whole).2 = if knownEnding l.ending then l.ending else [] := by
  have hsplit := splitLineEnding_whole hok hending
  unfold TextLine.body
  rw [hsplit]
  unfold behind tail
  by_cases hknown : knownEnding l.ending = true
  · rw [if_pos (show knownEnding (l.line S).ending = true from hknown), if_pos hknown, if_pos hknown]
    refine ⟨?_, rfl⟩
    rw [List.append_nil]
    rfl
  · rw [if_neg (show ¬knownEnding (l.line S).ending = true from hknown), if_neg hknown, if_neg hknown]
    refine ⟨?_, rfl⟩
    show ((l.indent.text ++ l.directive.head) ++ (S.text ++ (l.directive.arguments ++ l.trailing.text))) ++
      l.ending = _
    simp

/-- The line leaves the blocks of private keys as they are. -/
theorem SecretLine.keyBlock (hok : NoBreak (l.line S).text) (hending : IsEnding l.ending ∨ l.ending = [])
    (privateKeyOpen : Bool) :
    inKeyBlock privateKeyOpen (l.line S) = privateKeyOpen ∧
      keyBlockAfter privateKeyOpen (l.line S) = privateKeyOpen := by
  have hbegin : beginsPrivateKey (l.line S).body = false := by
    rw [(whole_eq hok hending).1]
    exact not_key_line l.directive _ (Or.inl rfl)
  have hend : endsPrivateKey (l.line S).body = false := by
    rw [(whole_eq hok hending).1]
    exact not_key_line l.directive _ (Or.inr rfl)
  unfold keyBlockAfter inKeyBlock
  rw [hbegin, hend, Bool.or_false]
  exact ⟨rfl, Bool.and_true _⟩

/-- In a block of a private key the line is written as its indentation and the marker. -/
theorem SecretLine.redactLine_open (hok : NoBreak (l.line S).text) (hending : IsEnding l.ending ∨ l.ending = []) :
    redactLine U true (l.line S).whole =
      (⟨l.indent.text ++ keyMarker ++ (if knownEnding l.ending then l.ending else []), [(.privateKeyBlock, 0)]⟩,
        true) := by
  obtain ⟨hbody, hrest⟩ := whole_eq hok hending
  obtain ⟨hblock, hafter⟩ := keyBlock hok hending true
  have hbegin : beginsPrivateKey (l.line S).body = false := by
    rw [hbody]
    exact not_key_line l.directive _ (Or.inl rfl)
  have hindentation : indentation (l.line S).body = l.indent.text := by
    obtain ⟨c, r, hcons, hc⟩ := head_begins l.directive
    rw [hbody, hcons]
    unfold indentation
    rw [List.append_assoc, List.takeWhile_append_of_pos l.indent.isSpace, List.cons_append,
      List.takeWhile_cons_of_neg (by simp [hc]), List.append_nil]
  rw [redactLine_of_inKeyBlock U hblock, hafter, hrest, hbegin]
  unfold redactEntireLine
  rw [hindentation]
  rfl

/-- Elsewhere it goes through the inline rules. -/
theorem SecretLine.redactLine_rules (hok : NoBreak (l.line S).text) (hending : IsEnding l.ending ∨ l.ending = []) :
    redactLine U false (l.line S).whole =
      (⟨(applyRules (inlineRules U) ((l.indent.text ++ l.directive.head) ++ (S.text ++ l.behind))).text ++
          (if knownEnding l.ending then l.ending else []),
        (applyRules (inlineRules U) ((l.indent.text ++ l.directive.head) ++ (S.text ++ l.behind))).records⟩,
        false) := by
  obtain ⟨hbody, hrest⟩ := whole_eq hok hending
  obtain ⟨hblock, hafter⟩ := keyBlock hok hending false
  rw [redactLine_of_not_inKeyBlock U hblock, hafter, hrest, hbody]

end

/-! ### The source -/

section

variable {l : SecretLine} {S S' : SecretToken} {above below : List TextLine}

theorem head?_secret (l : SecretLine) (S S' : SecretToken) (above below : List TextLine) :
    (joinLines (above ++ l.line S :: below)).head? = (joinLines (above ++ l.line S' :: below)).head? := by
  obtain ⟨c, r, hcons, -⟩ := head_begins l.directive
  unfold joinLines
  rw [List.flatMap_append, List.flatMap_append, List.head?_append, List.head?_append, List.flatMap_cons,
    List.flatMap_cons]
  congr 1
  show (((l.indent.text ++ l.directive.head) ++ _) ++ l.ending ++ _).head? =
    (((l.indent.text ++ l.directive.head) ++ _) ++ l.ending ++ _).head?
  rw [hcons]
  cases l.indent.text <;> rfl

theorem noBreak_secret (hok : NoBreak (l.line S).text) (S' : SecretToken) : NoBreak (l.line S').text := by
  intro c hc
  rcases List.mem_append.mp hc with hc | hc
  · exact hok c (List.mem_append_left _ hc)
  · rcases List.mem_append.mp hc with hc | hc
    · rw [← Bool.not_eq_true]
      intro hbreak
      have hspace := PyChar.isSpace_of_isLineBreak hbreak
      rw [S'.visible c hc] at hspace
      cases hspace
    · exact hok c (List.mem_append_right _ (List.mem_append_right _ hc))

/-- The lines of the source are the same with another secret. -/
theorem linesOk_secret (hok : LinesOk (above ++ l.line S :: below)) (S' : SecretToken) :
    LinesOk (above ++ l.line S' :: below) := by
  induction above with
  | nil =>
    obtain ⟨htext, hending, hbelow⟩ := hok
    refine ⟨noBreak_secret htext S', hending.imp id fun h => ⟨h.1, fun hnil => ?_, h.2.2⟩, hbelow⟩
    have hmiddle := (List.append_eq_nil_iff.mp hnil).2
    exact S'.ne_nil (List.append_eq_nil_iff.mp hmiddle).1
  | cons a above ih =>
    obtain ⟨htext, hending, hrest⟩ := hok
    refine ⟨htext, hending.imp (fun h => ⟨h.1, fun hcr => ?_⟩) (fun h => ?_), ih hrest⟩
    · show (joinLines (above ++ l.line S' :: below)).head? ≠ some 10
      rw [head?_secret l S' S above below]
      exact h.2 hcr
    · exact absurd h.2.2 (by simp)

/-- The line stands among lines of a source. -/
theorem secretLine_ok (hok : LinesOk (above ++ l.line S :: below)) :
    NoBreak (l.line S).text ∧ (IsEnding l.ending ∨ l.ending = []) := by
  induction above with
  | nil => exact ⟨hok.1, hok.2.1.imp And.left And.left⟩
  | cons a above ih => exact ih hok.2.2

/-- The source is redacted line by line, and the secret makes no difference to the other lines. -/
theorem redactLines_source (U : UnicodeData) (hok : LinesOk (above ++ l.line S :: below)) :
    redactLines U false ((splitLines (l.source above below S)).map TextLine.whole) =
      redactLines U false (above.map TextLine.whole) ++
        (redactLine U (keyBlockOpen above) (l.line S).whole).1 ::
          redactLines U (keyBlockOpen above) (below.map TextLine.whole) := by
  obtain ⟨htext, hending⟩ := secretLine_ok hok
  unfold SecretLine.source
  rw [splitLines_joinLines hok, redactLines_append, redactLines_cons,
    (SecretLine.keyBlock htext hending _).2]
  rfl

/-- The content differs exactly if what becomes of the line does. -/
theorem content_secret (U : UnicodeData) (hok : LinesOk (above ++ l.line S :: below)) (S' : SecretToken) :
    (redactCiscoConfig U (l.source above below S)).content = (redactCiscoConfig U (l.source above below S')).content ↔
      (redactLine U (keyBlockOpen above) (l.line S).whole).1.text =
        (redactLine U (keyBlockOpen above) (l.line S').whole).1.text := by
  unfold redactCiscoConfig
  dsimp only
  rw [redactLines_source U hok, redactLines_source U (linesOk_secret hok S'), List.flatMap_append,
    List.flatMap_append, List.flatMap_cons, List.flatMap_cons, List.append_cancel_left_eq,
    List.append_cancel_right_eq]

end

/-! ### Reports -/

theorem RedactionRule.value_injective : ∀ id id' : RedactionRule, id.value = id'.value → id = id' := by
  intro id id' h
  cases id <;> cases id' <;> first | rfl | exact absurd h (by decide)

/-- The occurrences of a rule are read off the report. -/
theorem occurrences_le {lines lines' : List RedactedLine}
    (h : RedactionRule.all.filterMap (ruleSummary lines) = RedactionRule.all.filterMap (ruleSummary lines'))
    (id : RedactionRule) :
    (lines.map fun line => (line.recordsOf id).sum).sum ≤ (lines'.map fun line => (line.recordsOf id).sum).sum := by
  by_cases hnone : lines.countP (fun line => !(line.recordsOf id).isEmpty) = 0
  · have hzero : (lines.map fun line => (line.recordsOf id).sum).sum = 0 := by
      rw [List.countP_eq_zero] at hnone
      refine List.sum_eq_zero fun n hn => ?_
      obtain ⟨line, hline, rfl⟩ := List.mem_map.mp hn
      have hempty := hnone line hline
      rw [Bool.not_eq_true, Bool.not_eq_false', List.isEmpty_iff] at hempty
      rw [hempty, List.sum_nil]
    rw [hzero]
    exact Nat.zero_le _
  · have hmem : (⟨id.value, lines.countP fun line => !(line.recordsOf id).isEmpty,
        (lines.map fun line => (line.recordsOf id).sum).sum⟩ : RedactionRuleSummary) ∈
        RedactionRule.all.filterMap (ruleSummary lines) :=
      List.mem_filterMap.mpr ⟨id, id.mem_all, if_neg hnone⟩
    rw [h] at hmem
    obtain ⟨id', -, hsummary⟩ := List.mem_filterMap.mp hmem
    unfold ruleSummary at hsummary
    dsimp only at hsummary
    split_ifs at hsummary
    have hfields := Option.some.inj hsummary
    obtain rfl := RedactionRule.value_injective id' id (congrArg RedactionRuleSummary.ruleId hfields)
    exact Nat.le_of_eq (congrArg RedactionRuleSummary.occurrenceCount hfields).symm

/-- Two runs that differ in one line and give one report record as many passwords for it. -/
theorem passwordCount_of_report {first last : List RedactedLine} {line line' : RedactedLine}
    (h : RedactionRule.all.filterMap (ruleSummary (first ++ line :: last)) =
      RedactionRule.all.filterMap (ruleSummary (first ++ line' :: last))) :
    passwordCount line.records = passwordCount line'.records := by
  have hle := occurrences_le h .ciscoPassword
  have hge := occurrences_le h.symm .ciscoPassword
  simp only [List.map_append, List.map_cons, List.sum_append, List.sum_cons] at hle hge
  show (line.recordsOf .ciscoPassword).sum = (line'.recordsOf .ciscoPassword).sum
  omega

/-! ### Masked secrets -/

section

variable {l : SecretLine} {S S' : SecretToken} {above below : List TextLine}

/-- The body of the line once the rule of its form has run. -/
def SecretLine.maskedBody (U : UnicodeData) (l : SecretLine) : PyStr :=
  (l.indent.text ++ l.directive.head) ++
    ((l.directive.rule U).rule.marker ++ insideAll (l.directive.rulesBefore U) l.behind)

/-- What becomes of the line outside the blocks of private keys, where the rules mask the secret. -/
theorem redactLine_masked (hok : NoBreak (l.line S).text) (hending : IsEnding l.ending ∨ l.ending = [])
    (hS : l.Masks U S) :
    (redactLine U false (l.line S).whole).1 =
      ⟨(applyRules (l.directive.rulesAfter U) (l.maskedBody U)).text ++ (if knownEnding l.ending then l.ending else []),
        insideRecords (l.directive.rulesBefore U) S.text l.behind ++
          ((l.directive.rule U).rule, 1) :: (applyRules (l.directive.rulesAfter U) (l.maskedBody U)).records⟩ := by
  rw [SecretLine.redactLine_rules hok hending,
    applyRules_secret l.directive l.indent S (l.behind_ok hending) hS.readable hS.uncrossed, foldl_applyRule]
  dsimp only
  rw [List.append_assoc (insideRecords _ _ _)]
  rfl

/-- The result is the same where the line is redacted alike. -/
theorem result_of_line (U : UnicodeData) (hok : LinesOk (above ++ l.line S :: below)) (S' : SecretToken)
    (hline : (redactLine U (keyBlockOpen above) (l.line S).whole).1 =
      (redactLine U (keyBlockOpen above) (l.line S').whole).1) :
    redactCiscoConfig U (l.source above below S) = redactCiscoConfig U (l.source above below S') := by
  unfold redactCiscoConfig
  rw [redactLines_source U hok, redactLines_source U (linesOk_secret hok S'), hline]

/-- In a block of a private key no secret makes a difference. -/
theorem open_result (U : UnicodeData) (hok : LinesOk (above ++ l.line S :: below)) (S' : SecretToken)
    (hopen : keyBlockOpen above = true) :
    redactCiscoConfig U (l.source above below S) = redactCiscoConfig U (l.source above below S') := by
  obtain ⟨htext, hending⟩ := secretLine_ok hok
  obtain ⟨htext', -⟩ := secretLine_ok (linesOk_secret hok S')
  apply result_of_line U hok S'
  rw [hopen, SecretLine.redactLine_open htext hending, SecretLine.redactLine_open htext' hending]

/-- **A secret that the rules mask is not seen in the content.** Two sources that differ in such a secret give the
same result, unless the rule `password=` counts differently inside the two. -/
theorem masked_result (U : UnicodeData) (hok : LinesOk (above ++ l.line S :: below)) (hS : l.Masks U S)
    (hS' : l.Masks U S') :
    (redactCiscoConfig U (l.source above below S)).content = (redactCiscoConfig U (l.source above below S')).content ∧
      (redactCiscoConfig U (l.source above below S) = redactCiscoConfig U (l.source above below S') ↔
        keyBlockOpen above = true ∨ l.directive.assignments U S.text = l.directive.assignments U S'.text) := by
  have hok' := linesOk_secret hok S'
  obtain ⟨htext, hending⟩ := secretLine_ok hok
  obtain ⟨htext', -⟩ := secretLine_ok hok'
  cases hopen : keyBlockOpen above with
  | true =>
    have hresult := open_result U hok S' hopen
    exact ⟨congrArg RedactionResult.content hresult, iff_of_true hresult (Or.inl rfl)⟩
  | false =>
    have hline := redactLine_masked htext hending hS
    have hline' := redactLine_masked htext' hending hS'
    refine ⟨?_, fun hresult => Or.inr ?_, fun hcount => result_of_line U hok S' ?_⟩
    · rw [content_secret U hok S', hopen, hline, hline']
    · have hreport := congrArg (fun result => result.report.rules) hresult
      unfold redactCiscoConfig at hreport
      dsimp only at hreport
      rw [redactLines_source U hok, redactLines_source U hok', hopen, hline, hline'] at hreport
      have hcounts := passwordCount_of_report hreport
      dsimp only at hcounts
      rw [passwordCount_append, passwordCount_append] at hcounts
      have hsecrets := passwordCount_secret (U := U) l.directive S S' l.behind
      omega
    · have hcount := hcount.resolve_left Bool.false_ne_true
      obtain ⟨before, n, after, hrecords⟩ := insideRecords_secret U l.directive l.behind
      rw [hopen, hline, hline', hrecords, hrecords, hcount]

end

end

end NetopsCopilot
