import NetopsCopilot.Ingestion.SecretMasking

/-!
# Secrets that stay visible

An `isakmp` key of decimal digits without a type is read as the type, and what follows is taken for the secret. A
password that begins with the word `encryption` or `policy` is not read at all. Then the content differs from that of
a masked secret.
-/

namespace NetopsCopilot

open Re

section

variable {U : UnicodeData}

/-! ### What the rules leave in front -/

/-- What all rules spare stays at the start of the line. -/
theorem applyRules_keeps {rules : List InlineRule} {lead : PyStr}
    (h : ∀ rule ∈ rules, ∀ rest, rule.Spares lead rest) (rest : PyStr) :
    ∃ rest', (applyRules rules (lead ++ rest)).text = lead ++ rest' := by
  induction rules generalizing rest with
  | nil => exact ⟨rest, rfl⟩
  | cons rule rules ih =>
    obtain ⟨hrule, hrules⟩ := List.forall_mem_cons.mp h
    rw [applyRules_cons, subn_spared (hrule rest)]
    exact ih hrules _

/-- A word in front of whitespace has no literal in it that the word itself does not have. -/
theorem avoids_word_gap {w : PyStr} {s : String} (hw : ¬folded (py s) <:+: folded w)
    (hs : (py s).all (fun c => !c.isSpace) = true) (hvisible : startsVisible s = true) (g : Gap) :
    Avoids (w ++ g.text) s := by
  have hletters : ∀ c ∈ folded (py s), c.isSpace = false := by
    intro c hc
    obtain ⟨d, hd, rfl⟩ := List.mem_map.mp hc
    rw [PyChar.isSpace_fold]
    simpa using List.all_eq_true.mp hs d hd
  obtain ⟨c, r, hcons⟩ := List.exists_cons_of_ne_nil g.ne_nil
  have hspace : c.fold.isSpace = true := by
    rw [PyChar.isSpace_fold]
    exact g.isSpace c (hcons ▸ List.mem_cons_self)
  intro q hq hne
  rw [List.mem_tails, folded_append] at hq
  obtain ⟨z, hz⟩ := hq
  rcases List.append_eq_append_iff.mp hz with ⟨y, hy, rfl⟩ | ⟨y, -, hy⟩
  · refine ⟨fun hstarts => ?_, fun hstarts => ?_⟩
    · have hmem : c.fold ∈ folded (py s) := hstarts.subset (by rw [hcons]; simp [folded])
      rw [hletters _ hmem] at hspace
      cases hspace
    · obtain ⟨t, ht⟩ := hstarts
      rcases List.append_eq_append_iff.mp ht with ⟨x, hx, -⟩ | ⟨x, hx, hx'⟩
      · exact hw ⟨z, x, by rw [hy, hx, List.append_assoc]⟩
      · cases x with
        | nil => exact hw ⟨z, [], by rw [hy, hx]; simp⟩
        | cons d x =>
          have hd : d.isSpace = false := hletters d (by rw [hx]; simp)
          rw [hcons] at hx'
          have hhead : c.fold = d := List.head_eq_of_cons_eq hx'
          rw [← hhead, hspace] at hd
          cases hd
  · exact (avoids_of_blank hvisible g.isSpace) q ((List.mem_tails _ _).mpr ⟨y, hy.symm⟩) hne

/-! ### Keys that are read as a type -/

/-- The word behind a key. -/
def peerToken (peer : EitherCased "address" "hostname") : SecretToken where
  text := peer.text
  ne_nil := by
    intro h
    obtain ⟨c, r, hcons, -⟩ := peer.begins (by decide) (by decide) []
    rw [h] at hcons
    cases hcons
  visible := by
    have hletters : ∀ s ∈ ["address", "hostname"], (py s).all (fun c => !c.isSpace) = true := by decide
    rcases peer.folded_eq with h | h
    · exact isSpace_of_folded_eq h fun c hc => by simpa using List.all_eq_true.mp (hletters _ (by simp)) c hc
    · exact isSpace_of_folded_eq h fun c hc => by simpa using List.all_eq_true.mp (hletters _ (by simp)) c hc
  unquoted := by
    have hquotes : ∀ s ∈ ["address", "hostname"], (folded (py s)).all (fun c => c != 34 && c != 39) = true := by decide
    have hletters : (folded peer.text).all (fun c => c != 34 && c != 39) = true := by
      rcases peer.folded_eq with h | h
      · rw [h]
        exact hquotes _ (by simp)
      · rw [h]
        exact hquotes _ (by simp)
    intro c hc
    have hfold := List.all_eq_true.mp hletters c.fold (List.mem_map_of_mem hc)
    rw [Bool.and_eq_true, bne_iff_ne, bne_iff_ne] at hfold
    exact ⟨fun h => hfold.1 (by rw [h]; decide), fun h => hfold.2 (by rw [h]; decide)⟩
  fresh := by
    have hopening : ∀ s ∈ ["address", "hostname"], ¬markerOpening <+: folded (py s) := by decide
    rcases peer.folded_eq with h | h
    · rw [h]
      exact hopening _ (by simp)
    · rw [h]
      exact hopening _ (by simp)

/-- A key of digits is read as the type, and the word behind it is replaced. -/
theorem isakmpKey_passes (indent : Blanks) (crypto : Cased "crypto") (g₁ : Gap) (isakmp : Cased "isakmp") (g₂ : Gap)
    (key : Cased "key") (g₃ g₄ : Gap) (peer : EitherCased "address" "hostname") (arguments : Arguments)
    {S : SecretToken} (hdigits : ∀ c ∈ S.text, Re.isDigit U c = true) {args : PyStr} (hargs : Margin args) :
    ∃ rest, ((isakmpRule U).subn ((indent.text ++
        (Directive.isakmpKey crypto g₁ isakmp g₂ key g₃ none g₄ peer arguments).head) ++
        (S.text ++ (g₄.text ++ (peer.text ++ args))))).1 =
      (indent.text ++ (Directive.isakmpKey crypto g₁ isakmp g₂ key g₃ none g₄ peer arguments).head) ++
        (S.text ++ rest) := by
  have hfinds : Finds (isakmpKeyPrefix U) [] (indent.text ++ (crypto.text ++ (g₁.text ++ (isakmp.text ++ (g₂.text ++
      (key.text ++ (g₃.text ++ (S.text ++ g₄.text)))))))) ((peerToken peer).text ++ args) := by
    intro f x hstuck h
    simp only [List.reverse_append, List.append_assoc, List.append_nil] at h
    simp only [isakmpKeyPrefix, Regex.first_cat_cons, Regex.first_cat_nil, List.append_assoc]
    apply run_start
    apply run_blanks indent (crypto.begins (by decide) _)
    apply run_cased crypto
    apply run_gap g₁ (isakmp.begins (by decide) _)
    apply run_cased isakmp
    apply run_gap g₂ (key.begins (by decide) _)
    apply run_cased key
    apply run_gap g₃ (S.begins _)
    apply run_digits S.ne_nil hdigits g₄ ((peerToken peer).begins args)
    simpa using h
  have hhit := subn_anchored_hit (isakmpRule_anchored U) hfinds (fun _ => secretPattern_margin)
    fun _ _ => run_secret hargs
  refine ⟨g₄.text ++ ((isakmpRule U).rule.marker ++ args), ?_⟩
  simp only [Directive.head, typeText, List.append_nil, List.append_assoc] at hhit ⊢
  exact congrArg Prod.fst hhit

/-- The words that the floating rules begin with. -/
def floatingWords : List String := ["username", "password", "proxy-", "authorization", "x", "api"]

/-- A character that begins none of the words. -/
theorem avoids_char {c : PyChar} {s : String} (hs : startsVisible s = true)
    (h : ∀ l rest, folded (py s) = l :: rest → c.fold ≠ l) : Avoids [c] s := by
  obtain ⟨l, rest, hcons, -⟩ := startsVisible_cons hs
  refine avoids_of_head hcons fun d hd => ?_
  rw [List.mem_singleton.mp hd]
  exact h l rest hcons

/-- A letter that `re.IGNORECASE` takes for itself and its capital alone. -/
def plainLetter (l : PyChar) : Bool := 97 ≤ l.val && l.val ≤ 122 && l.val != 105 && l.val != 115 && l.val != 107

theorem fold_digit {c : PyChar} (hc : Re.isDigit U c = true) : plainLetter c.fold = false := by
  rw [← Bool.not_eq_true]
  unfold plainLetter
  simp only [Bool.and_eq_true, decide_eq_true_eq, bne_iff_ne]
  rintro ⟨⟨⟨⟨hlow, hhigh⟩, hi⟩, hs⟩, hk⟩
  by_cases hascii : c.val < 128
  · rw [Re.isDigit, U.decimal_ascii c hascii] at hc
    split_ifs at hc with hdigit
    · have hsame : c.fold = c := by
        unfold PyChar.fold
        rw [if_neg (by simp; omega), if_neg (by simp; omega), if_neg (by simp; omega), if_neg (by simp; omega)]
      rw [hsame] at hlow
      omega
    · cases hc
  · unfold PyChar.fold at hlow hhigh hi hs hk
    rw [if_neg (by simp; omega)] at hlow hhigh hi hs hk
    split_ifs at hlow hhigh hi hs hk
    · exact hi rfl
    · exact hs rfl
    · exact hk rfl
    · omega

theorem digit_avoids {c : PyChar} (hc : Re.isDigit U c = true) : ∀ s ∈ floatingWords, Avoids [c] s := by
  have hwords : ∀ s ∈ floatingWords, startsVisible s = true ∧ (folded (py s)).head?.all plainLetter = true := by decide
  intro s hs
  obtain ⟨hvisible, hhead⟩ := hwords s hs
  refine avoids_char hvisible fun l rest hcons heq => ?_
  have hplain := fold_digit hc
  rw [hcons] at hhead
  rw [heq, show plainLetter l = true from hhead] at hplain
  cases hplain

/-- The later rules find nothing in front of a key that begins with no letter of theirs. -/
theorem isakmpKey_spares (indent : Blanks) (crypto : Cased "crypto") (g₁ : Gap) (isakmp : Cased "isakmp") (g₂ : Gap)
    (key : Cased "key") (g₃ g₄ : Gap) (peer : EitherCased "address" "hostname") (arguments : Arguments) {c : PyChar}
    (hc : ∀ s ∈ floatingWords, Avoids [c] s) {rule : InlineRule} (hrule : rule ∈ (inlineRules U).drop 1)
    (rest : PyStr) :
    rule.Spares ((indent.text ++ (Directive.isakmpKey crypto g₁ isakmp g₂ key g₃ none g₄ peer arguments).head) ++ [c])
      rest := by
  have hwords : ∀ s ∈ floatingWords, Foreign s ["crypto", "key"] ∧ ¬folded (py s) <:+: folded (py "isakmp") ∧
      (py s).all (fun c => !c.isSpace) = true := by decide
  have havoids : ∀ s ∈ floatingWords, Avoids ((indent.text ++
      (Directive.isakmpKey crypto g₁ isakmp g₂ key g₃ none g₄ peer arguments).head) ++ [c]) s := by
    intro s hs
    obtain ⟨hforeign, hinfix, hletters⟩ := hwords s hs
    have hisakmp : Avoids (isakmp.text ++ g₂.text) s :=
      avoids_word_gap (by rwa [isakmp.folded_eq]) hletters hforeign.visible g₂
    have hhead : (Directive.isakmpKey crypto g₁ isakmp g₂ key g₃ none g₄ peer arguments).head =
        crypto.text ++ (g₁.text ++ ((isakmp.text ++ g₂.text) ++ (key.text ++ g₃.text))) := by
      simp [Directive.head, typeText]
    rw [hhead]
    exact ((hforeign.blanks indent).append ((hforeign.cased crypto (by simp)).append ((hforeign.blanks g₁.toBlanks).append
      (hisakmp.append ((hforeign.cased key (by simp)).append (hforeign.blanks g₃.toBlanks)))))).append (hc s hs)
  have hanchored : ∀ {rule : InlineRule} {ss : List String}, rule.Anchored ss → (∀ s ∈ ss, startsVisible s = true) →
      Opposed ["crypto"] ss → rule.Spares ((indent.text ++
        (Directive.isakmpKey crypto g₁ isakmp g₂ key g₃ none g₄ peer arguments).head) ++ [c]) rest := by
    intro rule ss h hvisible hopposed
    have hspares : rule.Spares (indent.text ++ (crypto.text ++ ((g₁.text ++ (isakmp.text ++ (g₂.text ++ (key.text ++
        (g₃.text ++ typeText none))))) ++ [c]))) rest :=
      h.spares hvisible indent (by simpa using crypto.begins (by decide) []) fun s hs =>
        unlike_congr crypto.folded_eq ((hopposed "crypto" (by simp)).2 s hs)
    simpa [Directive.head] using hspares
  have hfloating : ∀ {rule : InlineRule} {ss : List String}, rule.Floating ss → (∀ s ∈ ss, s ∈ floatingWords) →
      rule.Spares ((indent.text ++
        (Directive.isakmpKey crypto g₁ isakmp g₂ key g₃ none g₄ peer arguments).head) ++ [c]) rest :=
    fun h hss => h.spares fun s hs => havoids s (hss s hs)
  rw [inlineRules_eq] at hrule
  simp only [List.drop_succ_cons, List.drop_zero, List.mem_cons, List.not_mem_nil, or_false] at hrule
  rcases hrule with rfl | rfl | rfl | rfl | rfl | rfl | rfl | rfl | rfl
  · exact hanchored (preSharedKeyRule_anchored U) (by decide) (by decide)
  · exact hfloating (usernameRule_floating U) (by decide)
  · exact hanchored communityRule_anchored (by decide) (by decide)
  · exact hanchored (passwordRule_anchored U) (by decide) (by decide)
  · exact hanchored (neighborRule_anchored U) (by decide) (by decide)
  · exact hfloating (assignedPasswordRule_floating U) (by decide)
  · exact hfloating (authorizationRule_floating U) (by decide)
  · exact hanchored bearerRule_anchored (by decide) (by decide)
  · exact hfloating (apiKeyRule_floating U) (by decide)

/-! ### Passwords that are not read -/

/-- A secret that begins with an excluded word is that word and more. -/
theorem excluded_begins {S : SecretToken} (hS : BeginsExcluded U S.text) :
    ∃ w y s, S.text = w ++ y ∧ s ∈ ["encryption", "policy"] ∧ folded w = folded (py s) ∧
      y.head?.any (isWord U) = false := by
  obtain ⟨s, hs, hstarts, hnext⟩ := hS
  refine ⟨S.text.take (py s).length, S.text.drop (py s).length, s, (List.take_append_drop _ _).symm, hs, ?_, hnext⟩
  rw [folded, List.map_take]
  have htake := List.prefix_iff_eq_take.mp hstarts
  rw [folded_length] at htake
  exact htake.symm

/-- A secret that begins with an excluded word is not read. -/
theorem passwordSecret_excluded {S : SecretToken} {args b : PyStr} {groups : List (InlineGroup × PyStr)}
    (hargs : Margin args) (hS : BeginsExcluded U S.text) : (passwordSecret U).ends ⟨b, S.text ++ args, groups⟩ = [] := by
  obtain ⟨w, y, s, hS, hs, hword, hnext⟩ := excluded_begins hS
  have hbehind : (w.reverse ++ b).head?.any (isWord U) = true := excluded_behind hs hword b
  have hahead : (y ++ args).head?.any (isWord U) = false := by
    cases y with
    | nil =>
      cases args with
      | nil => rfl
      | cons c args => exact isWord_of_isSpace (hargs c rfl)
    | cons c y => exact hnext
  have hboundary : (boundary U).ends (⟨w.reverse ++ b, y ++ args, groups⟩ : Cursor InlineGroup PyChar) =
      [⟨w.reverse ++ b, y ++ args, groups⟩] := by
    unfold boundary
    rw [Regex.ends]
    dsimp only
    rw [hbehind, hahead]
    rfl
  have hfound : ((Regex.seq (oneOf [lit "encryption", lit "policy"]) (boundary U)).ends
      (⟨b, S.text ++ args, groups⟩ : Cursor InlineGroup PyChar)).isEmpty = false := by
    rw [List.isEmpty_eq_false_iff_exists_mem]
    refine ⟨⟨w.reverse ++ b, y ++ args, groups⟩, List.mem_flatMap.mpr ⟨⟨w.reverse ++ b, y ++ args, groups⟩, ?_, ?_⟩⟩
    · have hlit : (lit s : InlinePattern).ends ⟨b, w ++ (y ++ args), groups⟩ = [⟨w.reverse ++ b, y ++ args, groups⟩] :=
        lit_ends hword
      rw [hS, List.append_assoc]
      show _ ∈ (lit "encryption").ends _ ++ (lit "policy").ends _
      simp only [List.mem_cons, List.not_mem_nil, or_false] at hs
      rcases hs with rfl | rfl
      · rw [hlit]
        exact List.mem_append_left _ (List.mem_singleton_self _)
      · rw [hlit]
        exact List.mem_append_right _ (List.mem_singleton_self _)
    · rw [hboundary]
      exact List.mem_singleton_self _
  show (Regex.ends (.notAhead _) _).flatMap secretPattern.ends = []
  rw [Regex.ends, hfound, if_neg Bool.false_ne_true]
  rfl

/-- The text in front of the keyword of a password. -/
def enableText : Option (Cased "enable" × Gap) → PyStr
  | none => []
  | some (enable, g) => enable.text ++ g.text

theorem keyword_of_lang {w : PyStr} (h : passwordOrSecret.Lang w) :
    ∃ s ∈ ["password", "secret"], folded w = folded (py s) := by
  rcases h with h | h
  · exact ⟨"password", by simp, folded_eq_of_sameLetter (lang_lit h)⟩
  · exact ⟨"secret", by simp, folded_eq_of_sameLetter (lang_lit h)⟩

theorem keyword_visible {w : PyStr} (h : ∃ s ∈ ["password", "secret"], folded w = folded (py s)) :
    w ≠ [] ∧ ∀ c ∈ w, c.isSpace = false := by
  have hletters : ∀ s ∈ ["password", "secret"], startsVisible s = true ∧ (py s).all (fun c => !c.isSpace) = true := by
    decide
  obtain ⟨s, hs, hw⟩ := h
  obtain ⟨hvisible, hall⟩ := hletters s hs
  refine ⟨?_, isSpace_of_folded_eq hw fun c hc => by simpa using List.all_eq_true.mp hall c hc⟩
  rintro rfl
  obtain ⟨c, r, hcons, -⟩ := begins_of_folded hw hvisible []
  cases hcons

theorem margin_blank {b : PyStr} (hne : b ≠ []) (hb : ∀ c ∈ b, c.isSpace = true) (t : PyStr) : Margin (b ++ t) := by
  obtain ⟨c, r, rfl⟩ := List.exists_cons_of_ne_nil hne
  intro d hd
  rw [← Option.some.inj hd]
  exact hb c List.mem_cons_self

/-- How the password rule reads what follows `enable`: the keyword, the gap, and a type if one is given. -/
theorem keyword_parse {keyword : EitherCased "password" "secret"} {g : Gap} {t keyword' g' type ahead : PyStr}
    (ht : Begins t) (hahead : Begins ahead) (hkeyword' : passwordOrSecret.Lang keyword')
    (hg' : (spaces1 : InlinePattern).Lang g') (htype : (encryptionType U).Lang type)
    (h : keyword.text ++ (g.text ++ t) = keyword' ++ (g' ++ (type ++ ahead))) :
    t = type ++ ahead ∧ (type = [] ∨ ∃ d b, type = d ++ b ∧ d ≠ [] ∧ b ≠ [] ∧
      (∀ c ∈ d, Re.isDigit U c = true) ∧ ∀ c ∈ b, c.isSpace = true) := by
  have hblank : ∀ w, (spaces1 : InlinePattern).Lang w → w ≠ [] ∧ ∀ c ∈ w, c.isSpace = true := by
    rintro w ⟨u, v, rfl, ⟨c, rfl, hc⟩, hv⟩
    refine ⟨by simp, fun d hd => ?_⟩
    rcases List.mem_cons.mp hd with rfl | hd
    · exact hc
    · exact hv d hd
  have hparts : type = [] ∨ ∃ d b, type = d ++ b ∧ d ≠ [] ∧ b ≠ [] ∧ (∀ c ∈ d, Re.isDigit U c = true) ∧
      ∀ c ∈ b, c.isSpace = true := by
    rcases htype with ⟨d, b, rfl, ⟨d₁, d₂, rfl, ⟨c, rfl, hc⟩, hd₂⟩, hb⟩ | rfl
    · obtain ⟨hne, hb⟩ := hblank b hb
      refine Or.inr ⟨_, b, rfl, by simp, hne, fun a ha => ?_, hb⟩
      rcases List.mem_cons.mp ha with rfl | ha
      · exact hc
      · exact hd₂ a ha
    · exact Or.inl rfl
  obtain ⟨hne', hg'⟩ := hblank g' hg'
  obtain ⟨-, hvisible⟩ := keyword_visible (keyword_folded keyword)
  obtain ⟨-, hvisible'⟩ := keyword_visible (keyword_of_lang hkeyword')
  obtain ⟨-, hgaps⟩ := visible_append_inj hvisible hvisible' (margin_gap g t) (margin_blank hne' hg' _) h
  have hbegins : Begins (type ++ ahead) := by
    rcases hparts with rfl | ⟨d, b, rfl, hne, -, hd, -⟩
    · exact hahead
    · rw [List.append_assoc]
      refine begins_of_visible hne (fun c hc => ?_) _
      rw [← Bool.not_eq_true]
      intro hspace
      have hdigit := hd c hc
      rw [not_isDigit_of_isSpace hspace] at hdigit
      cases hdigit
  obtain ⟨-, hrest⟩ := blank_append_inj g.isSpace hg' ht hbegins hgaps
  exact ⟨hrest, hparts⟩

/-- How the password rule reads a line with a password. -/
theorem password_parse {indent : Blanks} {enable : Option (Cased "enable" × Gap)}
    {keyword : EitherCased "password" "secret"} {g : Gap} {t u ahead : PyStr} (ht : Begins t) (hahead : Begins ahead)
    (hu : (passwordPrefix U).Lang u)
    (h : indent.text ++ (enableText enable ++ (keyword.text ++ (g.text ++ t))) = u ++ ahead) :
    ∃ type, t = type ++ ahead ∧ (type = [] ∨ ∃ d b, type = d ++ b ∧ d ≠ [] ∧ b ≠ [] ∧
      (∀ c ∈ d, Re.isDigit U c = true) ∧ ∀ c ∈ b, c.isSpace = true) := by
  obtain ⟨-, p, rfl, rfl, blank, p, rfl, hblank, enable', p, rfl, henable', keyword', p, rfl, hkeyword', g', p, rfl, hg',
    type, p, rfl, htype, rfl⟩ := hu
  have hwords : ∀ s ∈ ["password", "secret"], Unlike (py s) "enable" ∧ Unlike (py s) "algorithm-type" := by decide
  have hunlike : ∀ {w : PyStr}, (∃ s ∈ ["password", "secret"], folded w = folded (py s)) →
      Unlike w "enable" ∧ Unlike w "algorithm-type" := by
    rintro w ⟨s, hs, hw⟩
    exact ⟨unlike_congr hw (hwords s hs).1, unlike_congr hw (hwords s hs).2⟩
  have hkeyword := keyword_folded keyword
  have hfolded' := keyword_of_lang hkeyword'
  simp only [List.append_nil, List.append_assoc] at h
  have hbegins : Begins (enableText enable ++ (keyword.text ++ (g.text ++ t))) := by
    cases enable with
    | none => exact keyword_begins keyword _
    | some enable =>
      rw [enableText, List.append_assoc]
      exact enable.1.begins (by decide) _
  obtain ⟨hne', hvisible'⟩ := keyword_visible hfolded'
  rcases henable' with ⟨e, p, rfl, he, algorithm, p, rfl, halgorithm, b, p, rfl, ⟨b₁, b₂, rfl, ⟨c, rfl, hc⟩, hb₂⟩, rfl⟩ | rfl
  · have hefolded := folded_eq_of_sameLetter (lang_lit he)
    simp only [List.nil_append, List.append_nil, List.append_assoc] at h
    obtain ⟨-, hrest⟩ := blank_append_inj indent.isSpace hblank hbegins (begins_of_folded hefolded (by decide) _) h
    have hstarts : folded (py "enable") <+: folded (enableText enable ++ (keyword.text ++ (g.text ++ t))) := by
      rw [hrest, folded_append, hefolded]
      exact List.prefix_append _ _
    cases enable with
    | none => exact absurd hstarts (hunlike hkeyword).1.not_starts
    | some enable =>
      obtain ⟨enable, g''⟩ := enable
      have hvisible : ∀ c ∈ e, c.isSpace = false := lang_lit_visible (by decide) he
      have hblank' : ∀ a ∈ [c] ++ b₂, a.isSpace = true := by
        intro a ha
        rcases List.mem_cons.mp ha with rfl | ha
        · exact hc
        · exact hb₂ a ha
      rw [enableText, List.append_assoc] at hrest
      rcases halgorithm with ⟨b₃, p, rfl, ⟨b₄, b₅, rfl, ⟨a, rfl, ha⟩, hb₅⟩, word, p, rfl, hword, -⟩ | rfl
      · -- the keyword is no algorithm
        have hblank'' : ∀ d ∈ [a] ++ b₅, d.isSpace = true := by
          intro d hd
          rcases List.mem_cons.mp hd with rfl | hd
          · exact ha
          · exact hb₅ d hd
        have hwordFolded := folded_eq_of_sameLetter (lang_lit hword)
        rw [List.append_assoc ([a] ++ b₅), List.append_assoc word] at hrest
        obtain ⟨-, hgap⟩ := visible_append_inj (enable.visible (by decide)) hvisible (margin_gap g'' _)
          (margin_blank (by simp) hblank'' _) hrest
        obtain ⟨-, hkeywords⟩ := blank_append_inj g''.isSpace hblank'' (keyword_begins keyword _)
          (begins_of_folded hwordFolded (by decide) _) hgap
        refine absurd ?_ ((hunlike hkeyword).2.not_starts (t := g.text ++ t))
        rw [hkeywords, folded_append, hwordFolded]
        exact List.prefix_append _ _
      · rw [← List.append_assoc [c]] at hrest
        obtain ⟨-, hgap⟩ := visible_append_inj (enable.visible (by decide)) hvisible (margin_gap g'' _)
          (margin_blank (by simp) hblank' _) hrest
        obtain ⟨-, hkeywords⟩ := blank_append_inj g''.isSpace hblank' (keyword_begins keyword _)
          (begins_of_visible hne' hvisible' _) hgap
        exact ⟨type, keyword_parse ht hahead hkeyword' hg' htype hkeywords⟩
  · obtain ⟨-, hrest⟩ := blank_append_inj indent.isSpace hblank hbegins (begins_of_visible hne' hvisible' _) h
    cases enable with
    | none => exact ⟨type, keyword_parse ht hahead hkeyword' hg' htype hrest⟩
    | some enable =>
      refine absurd ?_ ((hunlike hfolded').1.not_starts (t := g' ++ (type ++ ahead)))
      rw [← hrest, enableText, List.append_assoc, folded_append, enable.1.folded_eq]
      exact List.prefix_append _ _

/-- An excluded word begins with a letter that is no digit. -/
theorem not_isDigit_of_excluded {w : PyStr} {s : String} (hs : s ∈ ["encryption", "policy"])
    (hw : folded w = folded (py s)) : ∃ c r, w = c :: r ∧ Re.isDigit U c = false := by
  have hwords : ∀ s ∈ ["encryption", "policy"], (folded (py s)).head?.any plainLetter = true := by decide
  have hhead := hwords s hs
  rw [← hw] at hhead
  cases w with
  | nil => cases hhead
  | cons c w =>
    refine ⟨c, w, rfl, ?_⟩
    rw [← Bool.not_eq_true]
    intro hc
    have hplain := fold_digit hc
    rw [show plainLetter c.fold = true from hhead] at hplain
    cases hplain

theorem begins_of_passwordSecret {k : Cursor InlineGroup PyChar} (h : ((passwordSecret U).ends k).isEmpty = false) :
    Begins k.ahead := by
  have hmargin : ¬Margin k.ahead := by
    intro hmargin
    rw [passwordSecret_margin hmargin] at h
    cases h
  unfold Margin at hmargin
  push Not at hmargin
  obtain ⟨c, hc, hspace⟩ := hmargin
  cases hahead : k.ahead with
  | nil => rw [hahead] at hc; cases hc
  | cons d r =>
    rw [hahead] at hc
    refine ⟨d, r, rfl, ?_⟩
    rw [Option.some.inj hc]
    exact Bool.eq_false_iff.mpr hspace

/-- The password rule does not read an excluded secret: it leaves the line, or takes the type for the secret. -/
theorem password_left (indent : Blanks) (enable : Option (Cased "enable" × Gap))
    (keyword : EitherCased "password" "secret") (g : Gap) (type : Option (Decimal × Gap)) {S : SecretToken} {args : PyStr}
    (hargs : Margin args) (hS : BeginsExcluded U S.text) :
    (passwordRule U).subn ((indent.text ++ (enableText enable ++ (keyword.text ++ g.text))) ++
        (typeText type ++ (S.text ++ args))) =
      ((indent.text ++ (enableText enable ++ (keyword.text ++ g.text))) ++ (typeText type ++ (S.text ++ args)), 0) ∨
    (type.isSome = true ∧ ∃ rest, ((passwordRule U).subn ((indent.text ++ (enableText enable ++ (keyword.text ++ g.text))) ++
        (typeText type ++ (S.text ++ args)))).1 =
      (indent.text ++ (enableText enable ++ (keyword.text ++ g.text))) ++ ((passwordRule U).rule.marker ++ rest)) := by
  have hrule : passwordRule U ∈ inlineRules U := by simp [inlineRules_eq]
  have hpattern : (passwordRule U).pattern =
      .seq (.group .prefixText (passwordPrefix U)) (.group .secret (passwordSecret U)) := rfl
  rcases subnBehind_first hrule hpattern rfl []
      ((indent.text ++ (enableText enable ++ (keyword.text ++ g.text))) ++ (typeText type ++ (S.text ++ args))) with
    h | ⟨copied, u, rest, k, htext, hu, hsecret, hmatch, hresult, -⟩
  · exact Or.inl h
  · obtain ⟨k', hk'⟩ := List.isEmpty_eq_false_iff_exists_mem.mp hmatch
    have hcopied : copied = [] := by
      have hbehind : copied.reverse ++ [] = [] := (passwordRule_anchored U _ _ hk').1
      rwa [List.append_nil, List.reverse_eq_nil_iff] at hbehind
    subst hcopied
    have hahead := begins_of_passwordSecret hsecret
    have hbegins : Begins (typeText type ++ (S.text ++ args)) := begins_typeText (S.begins args)
    have hall : indent.text ++ (enableText enable ++ (keyword.text ++ (g.text ++ (typeText type ++ (S.text ++ args))))) =
        u ++ k.ahead := by
      rw [List.nil_append] at htext
      rw [← htext]
      simp
    obtain ⟨type', htype, hparts⟩ := password_parse hbegins hahead hu hall
    have hexcluded : k.ahead ≠ S.text ++ args := by
      intro hk
      obtain ⟨b, ahead, groups⟩ := k
      dsimp only at hk
      subst hk
      rw [passwordSecret_excluded hargs hS] at hsecret
      cases hsecret
    obtain ⟨w, y, s, hSw, hs, hw, -⟩ := excluded_begins hS
    obtain ⟨c, r, rfl, hc⟩ := not_isDigit_of_excluded (U := U) hs hw
    cases type with
    | none =>
      exfalso
      rcases hparts with rfl | ⟨d, b, rfl, hd, -, hdigits, -⟩
      · exact hexcluded htype.symm
      · obtain ⟨a, d, rfl⟩ := List.exists_cons_of_ne_nil hd
        rw [hSw] at htype
        have hhead : c = a := List.head_eq_of_cons_eq htype
        rw [hhead, hdigits a List.mem_cons_self] at hc
        cases hc
    | some type =>
      obtain ⟨n, g'⟩ := type
      rcases hparts with rfl | ⟨d, b, rfl, hd, hb, hdigits, hblank⟩
      · refine Or.inr ⟨rfl, rest, ?_⟩
        rw [List.nil_append] at htype
        rw [← htype] at hall
        have hstarts : indent.text ++ (enableText enable ++ (keyword.text ++ g.text)) = u := by
          have hlines : (indent.text ++ (enableText enable ++ (keyword.text ++ g.text))) ++
              (typeText (some (n, g')) ++ (S.text ++ args)) = u ++ (typeText (some (n, g')) ++ (S.text ++ args)) := by
            rw [← hall]
            simp
          exact List.append_cancel_right hlines
        rw [hstarts]
        rw [hstarts] at hresult
        exact hresult
      · exfalso
        have hdvisible : ∀ c ∈ d, c.isSpace = false := by
          intro c hc
          rw [← Bool.not_eq_true]
          intro hspace
          have hdigit := hdigits c hc
          rw [not_isDigit_of_isSpace hspace] at hdigit
          cases hdigit
        have hwhole : n.text ++ (g'.text ++ (S.text ++ args)) = d ++ (b ++ k.ahead) := by
          rw [← List.append_assoc d, ← htype]
          exact (List.append_assoc ..).symm
        obtain ⟨-, hgaps⟩ := visible_append_inj n.visible hdvisible (margin_gap g' _) (margin_blank hb hblank _) hwhole
        obtain ⟨-, hrest⟩ := blank_append_inj g'.isSpace hblank (S.begins args) hahead hgaps
        exact hexcluded hrest.symm

/-- What a match of the rule `password=` reads. -/
theorem lang_assignedPassword {w : PyStr} (h : (assignedPasswordRule U).pattern.Lang w) :
    ∃ word b sign tail, w = word ++ (b ++ (sign :: tail)) ∧ folded word = folded (py "password") ∧
      (∀ c ∈ b, c.isSpace = true) ∧ (sign.fold = 61 ∨ sign.fold = 58) := by
  obtain ⟨p, secret, rfl, ⟨-, p, rfl, rfl, word, p, rfl, hword, q, p, rfl, ⟨b, r, rfl, hb, sign, tail, rfl, hsign, -⟩,
    -⟩, -⟩ := h
  have hsigns : ∀ s ∈ ["=", ":"], ∃ l, folded (py s) = [l] ∧ (l = 61 ∨ l = 58) := by
    intro s hs
    simp only [List.mem_cons, List.not_mem_nil, or_false] at hs
    rcases hs with rfl | rfl
    · exact ⟨61, rfl, Or.inl rfl⟩
    · exact ⟨58, rfl, Or.inr rfl⟩
  obtain ⟨s, hs, hfolded⟩ : ∃ s ∈ ["=", ":"], folded sign = folded (py s) := by
    rcases hsign with h | h
    · exact ⟨"=", by simp, folded_eq_of_sameLetter (lang_lit h)⟩
    · exact ⟨":", by simp, folded_eq_of_sameLetter (lang_lit h)⟩
  obtain ⟨l, hl, hcases⟩ := hsigns s hs
  rw [hl] at hfolded
  obtain ⟨c, rfl, hc⟩ := List.map_eq_singleton_iff.mp hfolded
  exact ⟨word, b, c, tail ++ (p ++ secret), by simp, folded_eq_of_sameLetter (lang_lit hword), hb, by rwa [hc]⟩

/-- A text that begins with a visible character, and with no sign. -/
def Unsigned (t : PyStr) : Prop := ∃ c r, t = c :: r ∧ c.isSpace = false ∧ c.fold ≠ 61 ∧ c.fold ≠ 58

/-- The rule `password=` finds no sign behind the keyword of a password. -/
theorem password_unassigned {front w rest : PyStr} {keyword : EitherCased "password" "secret"} {g : Gap}
    (hfront : Avoids front "password") (hw : Unsigned w) (havoids : Avoids w "password") :
    (assignedPasswordRule U).Spares (front ++ (keyword.text ++ (g.text ++ w))) rest := by
  have hbehind : Avoids (g.text ++ w) "password" := (avoids_of_blank (by decide) g.isSpace).append havoids
  have hkeywords : ∀ s ∈ ["password", "secret"], Avoids (py s).tail "password" := by decide
  obtain ⟨s, hs, hkeyword⟩ := keyword_folded keyword
  obtain ⟨c, keywordTail, hcons⟩ := List.exists_cons_of_ne_nil (keyword_ne_nil keyword)
  have htail : Avoids (keywordTail ++ (g.text ++ w)) "password" := by
    refine (avoids_congr ?_ (hkeywords s hs)).append hbehind
    rw [hcons] at hkeyword
    have htails : folded keywordTail = (folded (py s)).tail := congrArg List.tail hkeyword
    exact htails.trans List.map_tail.symm
  intro u v huv hv
  refine List.eq_nil_iff_forall_not_mem.mpr fun k hk => ?_
  obtain ⟨x, hx, hahead, -⟩ := Regex.reads_of_mem_ends hk
  obtain ⟨word, b, sign, tail, rfl, hword, hb, hsign⟩ := lang_assignedPassword hx
  have hall : v ++ rest = word ++ (b ++ (sign :: (tail ++ k.ahead))) := by
    rw [show v ++ rest = _ from hahead]
    simp
  have hstarts : folded (py "password") <+: folded (v ++ rest) := by
    rw [hall, folded_append, hword]
    exact List.prefix_append _ _
  -- from the keyword on, a sign would have to stand behind the gap
  have hnot : v ≠ keyword.text ++ (g.text ++ w) := by
    rintro rfl
    rw [List.append_assoc, List.append_assoc] at hall hstarts
    simp only [List.mem_cons, List.not_mem_nil, or_false] at hs
    rcases hs with rfl | rfl
    · have hlength : keyword.text.length = word.length := by
        rw [← folded_length keyword.text, ← folded_length word, hkeyword, hword]
      obtain ⟨-, hgaps⟩ := List.append_inj hall hlength
      obtain ⟨a, r, rfl, ha, hequals, hcolon⟩ := hw
      have hsignVisible : sign.isSpace = false := by
        rw [← PyChar.isSpace_fold]
        rcases hsign with h | h <;> rw [h] <;> decide
      obtain ⟨-, hrest⟩ := blank_append_inj g.isSpace hb ⟨a, r ++ rest, rfl, ha⟩ ⟨sign, _, rfl, hsignVisible⟩ hgaps
      rw [← List.head_eq_of_cons_eq hrest] at hsign
      exact hsign.elim hequals hcolon
    · have hunlike : Unlike keyword.text "password" := unlike_congr hkeyword (by decide)
      exact hunlike.not_starts hstarts
  rcases List.append_eq_append_iff.mp huv with ⟨z, -, hz⟩ | ⟨z, hz, rfl⟩
  · rw [hcons] at hz
    cases z with
    | nil => exact hnot (hcons ▸ hz.symm)
    | cons d z =>
      have hz' : keywordTail ++ (g.text ++ w) = z ++ v := by
        have htails := congrArg List.tail hz
        simpa using htails
      exact htail.not_starts hz' hv hstarts
  · by_cases hnil : z = []
    · exact hnot (by rw [hnil, List.nil_append])
    · rw [List.append_assoc] at hstarts
      exact hfront.not_starts hz hnil hstarts

/-- The rules that run after the password rule find nothing in front of what stands behind its gap. -/
theorem password_spares {indent : Blanks} {enable : Option (Cased "enable" × Gap)}
    {keyword : EitherCased "password" "secret"} {g : Gap} {w : PyStr} (hw : Unsigned w)
    (havoids : ∀ s ∈ ["password", "proxy-", "authorization", "x", "api"], Avoids w s) {rule : InlineRule}
    (hrule : rule ∈ (inlineRules U).drop 5) (rest : PyStr) :
    rule.Spares ((indent.text ++ (enableText enable ++ (keyword.text ++ g.text))) ++ w) rest := by
  have hassoc : (indent.text ++ (enableText enable ++ (keyword.text ++ g.text))) ++ w =
      (indent.text ++ enableText enable) ++ (keyword.text ++ (g.text ++ w)) := by simp
  have henable : ∀ {s words}, Foreign s ("enable" :: words) → Avoids (indent.text ++ enableText enable) s := by
    intro s words hforeign
    refine (hforeign.blanks indent).append ?_
    cases enable with
    | none => exact avoids_nil
    | some enable => exact (hforeign.cased enable.1 (by simp)).append (hforeign.blanks enable.2.toBlanks)
  have hall : ∀ s ∈ ["proxy-", "authorization", "x", "api"], Avoids
      ((indent.text ++ enableText enable) ++ (keyword.text ++ (g.text ++ w))) s := by
    have hwords : ∀ s ∈ ["proxy-", "authorization", "x", "api"], Foreign s ["enable", "password", "secret"] := by decide
    intro s hs
    have hforeign := hwords s hs
    exact (henable hforeign).append ((hforeign.either keyword (by simp) (by simp)).append
      ((hforeign.blanks g.toBlanks).append (havoids s (List.mem_cons_of_mem _ hs))))
  have hanchored : ∀ {rule : InlineRule} {ss : List String}, rule.Anchored ss → (∀ s ∈ ss, startsVisible s = true) →
      Opposed ["enable", "password", "secret"] ss →
      rule.Spares ((indent.text ++ enableText enable) ++ (keyword.text ++ (g.text ++ w))) rest := by
    intro rule ss h hvisible hopposed
    rw [List.append_assoc]
    cases enable with
    | none =>
      obtain ⟨s, hs, hfolded⟩ := keyword_folded keyword
      show rule.Spares (indent.text ++ (keyword.text ++ (g.text ++ w))) rest
      refine h.spares hvisible indent (by simpa using keyword_begins keyword []) fun s' hs' => ?_
      exact unlike_congr hfolded ((hopposed s (List.mem_cons_of_mem _ hs)).2 s' hs')
    | some enable =>
      rw [enableText, List.append_assoc]
      refine h.spares hvisible indent (by simpa using enable.1.begins (by decide) []) fun s' hs' => ?_
      exact unlike_congr enable.1.folded_eq ((hopposed "enable" (by simp)).2 s' hs')
  rw [hassoc]
  rw [inlineRules_eq] at hrule
  simp only [List.drop_succ_cons, List.drop_zero, List.mem_cons, List.not_mem_nil, or_false] at hrule
  rcases hrule with rfl | rfl | rfl | rfl | rfl
  · exact hanchored (neighborRule_anchored U) (by decide) (by decide)
  · have hforeign : Foreign "password" ["enable"] := by decide
    exact password_unassigned (henable hforeign) hw (havoids "password" (by simp))
  · exact (authorizationRule_floating U).spares fun s hs => hall s (by revert s; decide)
  · exact hanchored bearerRule_anchored (by decide) (by decide)
  · exact (apiKeyRule_floating U).spares fun s hs => hall s (by revert s; decide)

/-! ### Leaks -/

theorem marker_cons (rule : RedactionRule) : ∃ m, rule.marker = 60 :: m := ⟨_, rfl⟩

theorem marker_avoids : ∀ s ∈ floatingWords, Avoids [60] s := by decide

theorem insideAll_blank {rules : List InlineRule} (hrules : ∀ rule ∈ rules, rule ∈ inlineRules U) {t : PyStr}
    (ht : ∀ c ∈ t, c.isSpace = true) : insideAll rules t = t := by
  induction rules with
  | nil => rfl
  | cons rule rules ih =>
    obtain ⟨hrule, hrules⟩ := List.forall_mem_cons.mp hrules
    show insideAll rules (rule.inside t).1 = t
    rw [inside_blank hrule ht, ih hrules]

/-- Lines stay different where they differ in what the rules spare. -/
theorem applyRules_ne {rules : List InlineRule} (lead : PyStr) {w w' : PyStr} (hw : w ≠ []) (hw' : w' ≠ [])
    (hne : w.head? ≠ w'.head?) (h : ∀ rule ∈ rules, ∀ rest, rule.Spares (lead ++ w) rest)
    (h' : ∀ rule ∈ rules, ∀ rest, rule.Spares (lead ++ w') rest) (rest rest' : PyStr) :
    (applyRules rules ((lead ++ w) ++ rest)).text ≠ (applyRules rules ((lead ++ w') ++ rest')).text := by
  obtain ⟨kept, hkept⟩ := applyRules_keeps h rest
  obtain ⟨kept', hkept'⟩ := applyRules_keeps h' rest'
  rw [hkept, hkept', List.append_assoc, List.append_assoc]
  intro heq
  have hheads := congrArg List.head? (List.append_cancel_left heq)
  rw [List.head?_append_of_ne_nil _ hw, List.head?_append_of_ne_nil _ hw'] at hheads
  exact hne hheads

theorem isakmpKey_leaks (indent : Blanks) (crypto : Cased "crypto") (g₁ : Gap) (isakmp : Cased "isakmp") (g₂ : Gap)
    (key : Cased "key") (g₃ g₄ : Gap) (peer : EitherCased "address" "hostname") (arguments : Arguments)
    {S : SecretToken} (hdigits : ∀ c ∈ S.text, Re.isDigit U c = true) {args : PyStr} (hargs : Margin args) (rest : PyStr) :
    (applyRules (inlineRules U) ((indent.text ++
        (Directive.isakmpKey crypto g₁ isakmp g₂ key g₃ none g₄ peer arguments).head) ++
        (S.text ++ (g₄.text ++ (peer.text ++ args))))).text ≠
      (applyRules ((inlineRules U).drop 1) ((indent.text ++
        (Directive.isakmpKey crypto g₁ isakmp g₂ key g₃ none g₄ peer arguments).head) ++
        ((isakmpRule U).rule.marker ++ rest))).text := by
  obtain ⟨rest', hfirst⟩ := isakmpKey_passes indent crypto g₁ isakmp g₂ key g₃ g₄ peer arguments hdigits hargs
  obtain ⟨c, r, hcons⟩ := List.exists_cons_of_ne_nil S.ne_nil
  obtain ⟨m, hmarker⟩ := marker_cons (isakmpRule U).rule
  have hc : Re.isDigit U c = true := hdigits c (hcons ▸ List.mem_cons_self)
  have hne : c ≠ 60 := by
    rintro rfl
    rw [Re.isDigit, U.decimal_ascii 60 (by decide)] at hc
    revert hc
    decide
  have hfinal := applyRules_ne _ (List.cons_ne_nil c []) (List.cons_ne_nil 60 []) (by simpa using hne)
    (fun rule hrule rest => isakmpKey_spares (U := U) indent crypto g₁ isakmp g₂ key g₃ g₄ peer arguments
      (digit_avoids hc) hrule rest)
    (fun rule hrule rest => isakmpKey_spares (U := U) indent crypto g₁ isakmp g₂ key g₃ g₄ peer arguments
      marker_avoids hrule rest) (r ++ rest') (m ++ rest)
  show (applyRules (isakmpRule U :: (inlineRules U).drop 1) _).text ≠ _
  rw [applyRules_cons, hfirst, hcons, hmarker]
  simpa using hfinal

/-- The rules in front of the password rule leave a password line as it is. -/
theorem applyRules_password {indent : Blanks}
    {enable : Option (Cased "enable" × Option (Gap × Cased "algorithm-type" × Gap × Word) × Gap)}
    {keyword : EitherCased "password" "secret"} {g : Gap} {type : Option (Decimal × Gap)} (S : SecretToken)
    {behind : PyStr} (hbehind : ∀ c ∈ behind, c.isSpace = true) :
    (applyRules (inlineRules U) ((indent.text ++ (Directive.password enable keyword g type).head) ++
        (S.text ++ behind))).text =
      (applyRules ((inlineRules U).drop 5) ((passwordRule U).subn ((indent.text ++
        (Directive.password enable keyword g type).head) ++ (S.text ++ behind))).1).text := by
  have hrules : ∀ rule ∈ (Directive.password enable keyword g type).rulesBefore U, rule ∈ inlineRules U :=
    fun _ => mem_of_rulesBefore
  have htoken := foldl_applyRule_token hrules
    ((head_endsApart U (Directive.password enable keyword g type)).append indent.text)
    (fun t => Directive.Behind.margin (d := .password enable keyword g type))
    (fun rule hrule t => Directive.Behind.inside (d := .password enable keyword g type) (hrules rule hrule))
    (fun rule hrule S t => rulesBefore_spare (.password enable keyword g type) hrule) S hbehind
    (uncrossed_blank hrules hbehind) []
  have hspaced : ∀ rule ∈ (Directive.password enable keyword g type).rulesBefore U, rule ∈ spacedRules U := by
    simp [Directive.rulesBefore, spacedRules]
  rw [insideAll_spaced hspaced S.visible, insideAll_blank hrules hbehind] at htoken
  have hsplit := inlineRules_split U (Directive.password enable keyword g type)
  unfold applyRules
  rw [hsplit, List.foldl_append, htoken, List.foldl_cons, foldl_applyRule]
  rfl

theorem unsigned_decimal (n : Decimal) (t : PyStr) : Unsigned (n.text ++ t) := by
  obtain ⟨c, r, hcons⟩ := List.exists_cons_of_ne_nil n.ne_nil
  have hdigit := n.digit c (hcons ▸ List.mem_cons_self)
  have hsame : c.fold = c := by
    unfold PyChar.fold
    rw [if_neg (by simp; omega), if_neg (by simp; omega), if_neg (by simp; omega), if_neg (by simp; omega)]
  refine ⟨c, r ++ t, by rw [hcons]; rfl, n.visible c (hcons ▸ List.mem_cons_self), ?_, ?_⟩
  · rw [hsame]
    rintro rfl
    exact absurd hdigit (by decide)
  · rw [hsame]
    rintro rfl
    exact absurd hdigit (by decide)

theorem unsigned_typeText (type : Option (Decimal × Gap)) {w : PyStr} (hw : Unsigned w) :
    Unsigned (typeText type ++ w) := by
  cases type with
  | none => exact hw
  | some type =>
    rw [typeText, List.append_assoc]
    exact unsigned_decimal type.1 _

theorem unsigned_excluded {w : PyStr} {s : String} (hs : s ∈ ["encryption", "policy"])
    (hw : folded w = folded (py s)) : Unsigned w := by
  have hwords : ∀ s ∈ ["encryption", "policy"],
      (folded (py s)).head?.any (fun l => !l.isSpace && l != 61 && l != 58) = true := by decide
  have hhead := hwords s hs
  rw [← hw] at hhead
  cases w with
  | nil => cases hhead
  | cons c w =>
    have hc : (!c.fold.isSpace && c.fold != 61 && c.fold != 58) = true := hhead
    rw [PyChar.isSpace_fold] at hc
    simp only [Bool.and_eq_true, Bool.not_eq_true', bne_iff_ne] at hc
    exact ⟨c, w, rfl, hc.1.1, hc.1.2, hc.2⟩

/-- The content shows a password that is not read, or hides the type in its place. -/
theorem password_leaks (indent : Blanks) (enable : Option (Cased "enable" × Gap))
    (keyword : EitherCased "password" "secret") (g : Gap) (type : Option (Decimal × Gap)) {S : SecretToken}
    (hS : BeginsExcluded U S.text) {behind : PyStr} (hbehind : ∀ c ∈ behind, c.isSpace = true) (rest : PyStr) :
    (applyRules ((inlineRules U).drop 5) ((passwordRule U).subn
        ((indent.text ++ (enableText enable ++ (keyword.text ++ g.text))) ++
          (typeText type ++ (S.text ++ behind)))).1).text ≠
      (applyRules ((inlineRules U).drop 5) ((indent.text ++ (enableText enable ++ (keyword.text ++ g.text))) ++
        (typeText type ++ ((passwordRule U).rule.marker ++ rest)))).text := by
  have hwords : ∀ s ∈ ["password", "proxy-", "authorization", "x", "api"], startsVisible s = true ∧
      startsWord s = true ∧ Avoids [60] s ∧ ∀ s' ∈ ["encryption", "policy"], Avoids (py s') s := by decide
  obtain ⟨m, hmarker⟩ := marker_cons (passwordRule U).rule
  have hopening : Unsigned [60] := ⟨60, [], rfl, by decide, by decide, by decide⟩
  have hmasked : ∀ rule ∈ (inlineRules U).drop 5, ∀ rest, rule.Spares
      ((indent.text ++ (enableText enable ++ (keyword.text ++ g.text))) ++ (typeText type ++ [60])) rest :=
    fun rule hrule rest => password_spares (unsigned_typeText type hopening) (fun s hs =>
      (avoids_typeText type (hwords s hs).1 (hwords s hs).2.1).append (hwords s hs).2.2.1) hrule rest
  rcases password_left indent enable keyword g type (margin_of_blank hbehind) hS with hleft | ⟨htype, rest', htaken⟩
  · obtain ⟨w, y, s, hSw, hs, hw, -⟩ := excluded_begins hS
    obtain ⟨c, r, hcons, -⟩ := not_isDigit_of_excluded (U := U) hs hw
    have hunsigned := unsigned_excluded hs hw
    have hc : c ≠ 60 := by
      have hletters : ∀ s ∈ ["encryption", "policy"], (folded (py s)).head?.all (fun l => l != 60) = true := by decide
      have hhead := hletters s hs
      rw [← hw, hcons] at hhead
      rintro rfl
      have hletter : (PyChar.fold 60 != 60) = true := hhead
      revert hletter
      decide
    have hshown : ∀ rule ∈ (inlineRules U).drop 5, ∀ rest, rule.Spares
        ((indent.text ++ (enableText enable ++ (keyword.text ++ g.text))) ++ (typeText type ++ w)) rest :=
      fun rule hrule rest => password_spares (unsigned_typeText type hunsigned) (fun s' hs' =>
        (avoids_typeText type (hwords s' hs').1 (hwords s' hs').2.1).append
          (avoids_congr hw ((hwords s' hs').2.2.2 s hs))) hrule rest
    rw [hleft, hSw, hmarker]
    have hne : w ≠ [] := by
      rw [hcons]
      exact List.cons_ne_nil c r
    have hfinal := applyRules_ne ((indent.text ++ (enableText enable ++ (keyword.text ++ g.text))) ++ typeText type)
      hne (List.cons_ne_nil 60 [])
      (by rw [hcons]; simpa using hc) (by simpa only [List.append_assoc] using hshown)
      (by simpa only [List.append_assoc] using hmasked) (y ++ behind) (m ++ rest)
    simpa using hfinal
  · cases type with
    | none => cases htype
    | some type =>
      obtain ⟨n, g'⟩ := type
      obtain ⟨c, r, hcons⟩ := List.exists_cons_of_ne_nil n.ne_nil
      have hc : c ≠ 60 := by
        have hdigit := n.digit c (hcons ▸ List.mem_cons_self)
        rintro rfl
        exact absurd hdigit (by decide)
      have hunsigned : Unsigned n.text := by simpa using unsigned_decimal n []
      rw [htaken, hmarker]
      have hfinal := applyRules_ne (indent.text ++ (enableText enable ++ (keyword.text ++ g.text)))
        (List.cons_ne_nil 60 []) n.ne_nil (by rw [hcons]; simpa using Ne.symm hc)
        (fun rule hrule rest => password_spares (U := U) hopening (fun s hs => (hwords s hs).2.2.1) hrule rest)
        (fun rule hrule rest => password_spares (U := U) hunsigned (fun s hs => n.avoids (hwords s hs).2.1) hrule rest)
        (m ++ rest') (g'.text ++ (60 :: m ++ rest))
      simpa [typeText] using hfinal

/-- The lines whose secret the content shows or hides: an `isakmp` key, and a password without an algorithm. -/
def Directive.Exposed : Directive → Prop
  | .isakmpKey .. => True
  | .password none .. | .password (some (_, none, _)) .. => True
  | _ => False

/-- A secret that the rule of such a line does not read changes what becomes of the line. -/
theorem exposed_ne {l : SecretLine} {S : SecretToken} (hexposed : l.directive.Exposed)
    (hending : IsEnding l.ending ∨ l.ending = []) (hS : ¬l.directive.Readable U S.text) :
    (applyRules (inlineRules U) ((l.indent.text ++ l.directive.head) ++ (S.text ++ l.behind))).text ≠
      (applyRules (l.directive.rulesAfter U) (l.maskedBody U)).text := by
  have htail := l.tail_blank hending
  obtain ⟨indent, directive, trailing, ending⟩ := l
  match directive with
  | .isakmpKey crypto g₁ isakmp g₂ key g₃ (some type) g₄ peer arguments => exact absurd (Or.inl rfl) hS
  | .isakmpKey crypto g₁ isakmp g₂ key g₃ none g₄ peer arguments =>
    have hdigits : ∀ c ∈ S.text, Re.isDigit U c = true := by
      intro c hc
      by_contra hnot
      exact hS (Or.inr ⟨c, hc, Bool.eq_false_iff.mpr hnot⟩)
    have hleaks := isakmpKey_leaks (U := U) indent crypto g₁ isakmp g₂ key g₃ g₄ peer arguments hdigits
      (arguments.margin.append (margin_of_blank htail))
    unfold SecretLine.behind SecretLine.maskedBody
    simp only [Directive.arguments, List.append_assoc] at hleaks ⊢
    exact hleaks _
  | .password none keyword g type =>
    have hleaks := password_leaks indent none keyword g type (not_not.mp hS) htail
    rw [show SecretLine.behind _ = SecretLine.tail _ from rfl, applyRules_password S htail]
    simp only [enableText, Directive.head, SecretLine.maskedBody, List.nil_append, List.append_assoc] at hleaks ⊢
    exact hleaks _
  | .password (some (enable, none, g')) keyword g type =>
    have hleaks := password_leaks indent (some (enable, g')) keyword g type (not_not.mp hS) htail
    rw [show SecretLine.behind _ = SecretLine.tail _ from rfl, applyRules_password S htail]
    simp only [enableText, Directive.head, SecretLine.maskedBody, List.append_assoc] at hleaks ⊢
    exact hleaks _

/-! ### Hidden secrets -/

/-- The secrets are hidden alike: in a block of a private key, or because the rules mask both of them and count as many
assignments inside them. -/
def SecretLine.Hides (U : UnicodeData) (above : List TextLine) (l : SecretLine) (S S' : SecretToken) : Prop :=
  keyBlockOpen above = true ∨
    (l.Masks U S ∧ l.Masks U S' ∧ l.directive.assignments U S.text = l.directive.assignments U S'.text)

/-- The lines without free text next to the secret: no arguments that a match could go into, and no algorithm. -/
def Directive.Closed : Directive → Prop
  | .community .. | .bearer .. | .password (some (_, some _, _)) .. => False
  | _ => True

theorem masks_iff_readable {l : SecretLine} {S : SecretToken} (hclosed : l.directive.Closed)
    (hending : IsEnding l.ending ∨ l.ending = []) : l.Masks U S ↔ l.directive.Readable U S.text := by
  refine ⟨fun h => h.readable, fun h => ⟨h, ?_⟩⟩
  have hbehind := l.behind_ok hending
  have hblank : (∀ c ∈ l.behind, c.isSpace = true) → Uncrossed (l.directive.rulesBefore U) S.text l.behind :=
    uncrossed_blank fun _ => mem_of_rulesBefore
  revert hblank hbehind hclosed
  cases l.directive with
  | isakmpKey => exact fun _ _ _ => trivial
  | community => exact nofun
  | bearer => exact nofun
  | _ => exact fun _ hbehind hblank => hblank hbehind

/-- A closed line has a secret that its rule reads, or its content shows it. -/
theorem readable_or_exposed {d : Directive} (hclosed : d.Closed) {token : PyStr} (h : ¬d.Readable U token) :
    d.Exposed := by
  match d with
  | .isakmpKey .. => trivial
  | .password none .. => trivial
  | .password (some (_, none, _)) .. => trivial
  | .preSharedKey .. | .username .. | .neighbor .. | .assignedPassword .. | .authorization .. | .apiKey .. =>
    exact absurd trivial h

/-- **When the redactor hides a secret.** In a source with a line of one of the forms, two secrets that are hidden
alike give the same result, and two that are masked the same content. In a line without free text next to the secret
this is the only way to give the result of a masked secret. -/
theorem redaction_hides_secret (U : UnicodeData) {l : SecretLine} {above below : List TextLine} {S S' : SecretToken}
    (hok : LinesOk (above ++ l.line S :: below)) :
    (l.Hides U above S S' →
      redactCiscoConfig U (l.source above below S) = redactCiscoConfig U (l.source above below S')) ∧
    (l.Masks U S → l.Masks U S' →
      (redactCiscoConfig U (l.source above below S)).content =
        (redactCiscoConfig U (l.source above below S')).content) ∧
    (l.directive.Closed → l.Masks U S' →
      redactCiscoConfig U (l.source above below S) = redactCiscoConfig U (l.source above below S') →
      l.Hides U above S S') := by
  have hok' := linesOk_secret hok S'
  obtain ⟨htext, hending⟩ := secretLine_ok hok
  obtain ⟨htext', -⟩ := secretLine_ok hok'
  refine ⟨?_, fun hS hS' => (masked_result U hok hS hS').1, fun hclosed hS' hresult => ?_⟩
  · rintro (hopen | ⟨hS, hS', hcount⟩)
    · exact open_result U hok S' hopen
    · exact (masked_result U hok hS hS').2.mpr (Or.inr hcount)
  · by_cases hS : l.directive.Readable U S.text
    · have hmasks := (masks_iff_readable hclosed hending).mpr hS
      exact ((masked_result U hok hmasks hS').2.mp hresult).imp id fun hcount => ⟨hmasks, hS', hcount⟩
    · cases hopen : keyBlockOpen above with
      | true => exact Or.inl hopen
      | false =>
        have hcontent := (content_secret U hok S').mp (congrArg RedactionResult.content hresult)
        rw [hopen, SecretLine.redactLine_rules htext hending, redactLine_masked htext' hending hS'] at hcontent
        exact absurd (List.append_cancel_right hcontent) (exposed_ne (readable_or_exposed hclosed hS) hending hS)

def oneSpace : Gap where
  text := [32]
  isSpace := List.forall_mem_singleton.mpr (by decide)
  noBreak := List.forall_mem_singleton.mpr (by decide)
  ne_nil := List.cons_ne_nil 32 []

def typeSix : Decimal where
  text := [54]
  ne_nil := List.cons_ne_nil 54 []
  digit := List.forall_mem_singleton.mpr (by decide)

/-- `crypto isakmp key [t] S address 10.0.0.1`. -/
def keyLine (type : Option (Decimal × Gap)) : SecretLine where
  indent := ⟨[], nofun, nofun⟩
  directive := .isakmpKey ⟨py "crypto", rfl⟩ oneSpace ⟨py "isakmp", rfl⟩ oneSpace ⟨py "key", rfl⟩ oneSpace type oneSpace
    ⟨py "address", Or.inl rfl⟩ ⟨py " 10.0.0.1", fun c hc => by cases hc; decide, fun c hc => by
      have hall : (py " 10.0.0.1").all (fun c => !c.isLineBreak) = true := by decide
      simpa using List.all_eq_true.mp hall c hc⟩
  trailing := ⟨[], nofun, nofun⟩
  ending := []

/-- A token of visible characters other than quotes that does not begin with `<`. -/
def tokenOf (text : PyStr) (hne : text ≠ [])
    (hall : (text.all fun c => !c.isSpace && c != 34 && c != 39) = true)
    (hfresh : ¬markerOpening <+: folded text) : SecretToken where
  text := text
  ne_nil := hne
  visible c hc := by
    have hletter := List.all_eq_true.mp hall c hc
    simp only [Bool.and_eq_true, Bool.not_eq_true', bne_iff_ne] at hletter
    exact hletter.1.1
  unquoted c hc := by
    have hletter := List.all_eq_true.mp hall c hc
    simp only [Bool.and_eq_true, Bool.not_eq_true', bne_iff_ne] at hletter
    exact ⟨hletter.1.2, hletter.2⟩
  fresh := hfresh

def sampleKey : SecretToken := tokenOf (py "hunter2") (by decide) (by decide) (by decide)

def digitKey : SecretToken := tokenOf (py "123") (by decide) (by decide) (by decide)

theorem keyLine_ok {type : Option (Decimal × Gap)} {S : SecretToken} (h : NoBreak ((keyLine type).line S).text) :
    LinesOk ([] ++ (keyLine type).line S :: []) :=
  ⟨h, Or.inr ⟨rfl, fun hnil => S.ne_nil (List.append_eq_nil_iff.mp (List.append_eq_nil_iff.mp hnil).2).1, rfl⟩, trivial⟩

theorem keyLine_noBreak {type : Option (Decimal × Gap)} {S : SecretToken}
    (h : (((keyLine type).line S).text.all fun c => !c.isLineBreak) = true) : NoBreak ((keyLine type).line S).text :=
  fun c hc => by simpa using List.all_eq_true.mp h c hc

theorem keyLine_assignments (U : UnicodeData) (type : Option (Decimal × Gap)) (token : PyStr) :
    (keyLine type).directive.assignments U token = 0 := rfl

/-- Behind a type every key is hidden. -/
theorem redaction_hides_typed_key :
    redactCiscoConfig .ascii ((keyLine (some (typeSix, oneSpace))).source [] [] sampleKey) =
      redactCiscoConfig .ascii ((keyLine (some (typeSix, oneSpace))).source [] [] digitKey) :=
  (redaction_hides_secret .ascii (keyLine_ok (keyLine_noBreak (by decide +kernel)))).1
    (Or.inr ⟨⟨Or.inl rfl, trivial⟩, ⟨Or.inl rfl, trivial⟩,
      (keyLine_assignments _ _ _).trans (keyLine_assignments _ _ _).symm⟩)

/-- Without a type a key of digits is shown: `crypto isakmp key 123 address 10.0.0.1`. -/
theorem redaction_shows_digit_key :
    ¬∀ U (l : SecretLine) above below (S S' : SecretToken), LinesOk (above ++ l.line S :: below) →
      redactCiscoConfig U (l.source above below S) = redactCiscoConfig U (l.source above below S') := by
  intro hall
  have hsame := congrArg RedactionResult.content
    (hall .ascii (keyLine none) [] [] digitKey sampleKey (keyLine_ok (keyLine_noBreak (by decide +kernel))))
  revert hsame
  decide +kernel

end

end NetopsCopilot
