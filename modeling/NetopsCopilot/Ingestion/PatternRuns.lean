import NetopsCopilot.Ingestion.TokenRewriting

/-!
# Running the patterns of the rules

How a run of a pattern goes on behind each of its parts: over whitespace, a word in any letter case, an encryption
type, and the secret itself (`run_secret`). Where only whitespace is ahead nothing more can be read (`Stuck`), so the
detours of the backtracking matcher die out.
-/

namespace NetopsCopilot

open Re

/-! ### Words and whitespace -/

/-- Whitespace within a line. -/
structure Blanks where
  text : PyStr
  isSpace : ∀ c ∈ text, c.isSpace = true
  noBreak : NoBreak text

/-- Whitespace between two words. -/
structure Gap extends Blanks where
  ne_nil : text ≠ []

/-- A word in some letter case. -/
structure Cased (s : String) where
  text : PyStr
  folded_eq : folded text = folded (py s)

/-- One of two words, in some letter case. -/
structure EitherCased (s s' : String) where
  text : PyStr
  folded_eq : folded text = folded (py s) ∨ folded text = folded (py s')

/-- Some word. -/
structure Word where
  text : PyStr
  ne_nil : text ≠ []
  visible : ∀ c ∈ text, c.isSpace = false

/-- A decimal number. -/
structure Decimal where
  text : PyStr
  ne_nil : text ≠ []
  digit : ∀ c ∈ text, 48 ≤ c.val ∧ c.val ≤ 57

/-- `=` or `:`. -/
inductive Sign where
  | equals
  | colon

def Sign.text : Sign → PyStr
  | .equals => [61]
  | .colon => [58]

/-- What stands behind a secret: nothing, or whitespace and arguments. -/
structure Arguments where
  text : PyStr
  margin : Margin text
  noBreak : NoBreak text

/-- The text of an optional encryption type. -/
def typeText : Option (Decimal × Gap) → PyStr
  | none => []
  | some (number, g) => number.text ++ g.text

/-! ### What the words begin with -/

/-- A text that begins with a visible character. -/
def Begins (t : PyStr) : Prop := ∃ c rest, t = c :: rest ∧ c.isSpace = false

theorem begins_of_visible {w : PyStr} (hne : w ≠ []) (h : ∀ c ∈ w, c.isSpace = false) (t : PyStr) :
    Begins (w ++ t) := by
  obtain ⟨c, w, rfl⟩ := List.exists_cons_of_ne_nil hne
  exact ⟨c, w ++ t, rfl, h c List.mem_cons_self⟩

theorem Begins.stops {t : PyStr} (h : Begins t) : ∀ c, t.head? = some c → c.isSpace = false := by
  obtain ⟨c, rest, rfl, hc⟩ := h
  rintro d hd
  rwa [← Option.some.inj hd]

theorem margin_gap (g : Gap) (t : PyStr) : Margin (g.text ++ t) := by
  obtain ⟨c, w, hw⟩ := List.exists_cons_of_ne_nil g.ne_nil
  intro d hd
  rw [hw] at hd
  rw [← Option.some.inj hd]
  exact g.isSpace c (hw ▸ List.mem_cons_self)

theorem begins_of_folded {s : String} {w : PyStr} (h : folded w = folded (py s)) (hs : startsVisible s = true)
    (t : PyStr) : Begins (w ++ t) := by
  obtain ⟨l, rest, hcons, hl⟩ := startsVisible_cons hs
  rw [hcons] at h
  cases w with
  | nil => cases h
  | cons c w =>
    refine ⟨c, w ++ t, rfl, ?_⟩
    rw [← PyChar.isSpace_fold, List.head_eq_of_cons_eq h, hl]

theorem begins_of_starts {s : String} (hs : startsVisible s = true) {t : PyStr} (h : folded (py s) <+: folded t) :
    Begins t := by
  obtain ⟨l, rest, hcons, hl⟩ := startsVisible_cons hs
  rw [hcons] at h
  cases t with
  | nil => cases List.prefix_nil.mp h
  | cons c t =>
    refine ⟨c, t, rfl, ?_⟩
    rw [← PyChar.isSpace_fold, ← (List.cons_prefix_cons.mp h).1, hl]

theorem Cased.begins {s : String} (w : Cased s) (hs : startsVisible s = true) (t : PyStr) : Begins (w.text ++ t) :=
  begins_of_folded w.folded_eq hs t

theorem EitherCased.begins {s s' : String} (w : EitherCased s s') (hs : startsVisible s = true)
    (hs' : startsVisible s' = true) (t : PyStr) : Begins (w.text ++ t) := by
  rcases w.folded_eq with h | h
  · exact begins_of_folded h hs t
  · exact begins_of_folded h hs' t

theorem Decimal.visible (n : Decimal) : ∀ c ∈ n.text, c.isSpace = false := by
  intro c hc
  have hdigit := n.digit c hc
  simp only [PyChar.isSpace, Bool.or_eq_false_iff, Bool.and_eq_false_iff, decide_eq_false_iff_not,
    beq_eq_false_iff_ne]
  omega

theorem Decimal.isDigit (U : UnicodeData) (n : Decimal) : ∀ c ∈ n.text, Re.isDigit U c = true := by
  intro c hc
  have hdigit := n.digit c hc
  rw [Re.isDigit, U.decimal_ascii c (by omega), dif_pos hdigit]
  rfl

theorem SecretToken.begins (S : SecretToken) (t : PyStr) : Begins (S.text ++ t) :=
  begins_of_visible S.ne_nil S.visible t

theorem begins_typeText {type : Option (Decimal × Gap)} {t : PyStr} (ht : Begins t) :
    Begins (typeText type ++ t) := by
  cases type with
  | none => exact ht
  | some type =>
    obtain ⟨n, g⟩ := type
    show Begins ((n.text ++ g.text) ++ t)
    rw [List.append_assoc]
    exact begins_of_visible n.ne_nil n.visible _

theorem Sign.begins (sign : Sign) (t : PyStr) : Begins (sign.text ++ t) := by
  cases sign
  · exact ⟨61, t, rfl, by decide⟩
  · exact ⟨58, t, rfl, by decide⟩

/-- A literal that begins with a letter. -/
def startsWord (s : String) : Bool := (folded (py s)).head?.any fun c => 97 ≤ c.val && c.val ≤ 122

theorem isWord_of_fold {U : UnicodeData} {c : PyChar} (h : 97 ≤ c.fold.val ∧ c.fold.val ≤ 122) :
    isWord U c = true := by
  have halnum : U.alnum c = true := by
    by_cases hfolded : c.isFoldedLetter = true
    · exact U.alnum_of_folded c hfolded
    · simp only [PyChar.isFoldedLetter, Bool.or_eq_true, beq_iff_eq] at hfolded
      push Not at hfolded
      by_cases hupper : 65 ≤ c.val ∧ c.val ≤ 90
      · rw [U.alnum_ascii c (by omega)]
        simp [PyChar.isAsciiAlnum, hupper]
      · have hsame : c.fold = c := by
          unfold PyChar.fold
          rw [if_neg (by simpa using hupper), if_neg (by simp [hfolded]), if_neg (by simp [hfolded]),
            if_neg (by simp [hfolded])]
        rw [hsame] at h
        rw [U.alnum_ascii c (by omega)]
        simp [PyChar.isAsciiAlnum, h]
  rw [isWord, halnum, Bool.true_or]

theorem Decimal.avoids (n : Decimal) {s : String} (hs : startsWord s = true) : Avoids n.text s := by
  unfold startsWord at hs
  cases hcons : folded (py s) with
  | nil => rw [hcons] at hs; cases hs
  | cons l rest =>
    rw [hcons, List.head?_cons, Option.any_some] at hs
    refine avoids_of_head hcons fun c hc heq => ?_
    have hdigit := n.digit c hc
    have hsame : c.fold = c := by
      unfold PyChar.fold
      rw [if_neg (by simp; omega), if_neg (by simp; omega), if_neg (by simp; omega), if_neg (by simp; omega)]
    rw [← heq, hsame] at hs
    simp only [Bool.and_eq_true, decide_eq_true_eq] at hs
    omega

theorem word_of_folded {U : UnicodeData} {s : String} {w : PyStr} (h : folded w = folded (py s))
    (hs : startsWord s = true) (t : PyStr) : (w ++ t).head?.any (isWord U) = true := by
  unfold startsWord at hs
  rw [← h] at hs
  cases w with
  | nil => cases hs
  | cons c w =>
    show isWord U c = true
    apply isWord_of_fold
    simpa [folded] using hs

/-! ### Running the parts of a pattern -/

section

variable {β : Type} {f : Cursor InlineGroup PyChar → Option β} {x : β} {b t : PyStr}
  {groups : List (InlineGroup × PyStr)}

theorem run_start (h : f ⟨[], t, groups⟩ = some x) : (start : InlinePattern).first ⟨[], t, groups⟩ f = some x := by
  rw [start, Regex.first_look rfl, h]

theorem run_blanks (g : Blanks) (ht : Begins t) (h : f ⟨g.text.reverse ++ b, t, groups⟩ = some x) :
    (spaces : InlinePattern).first ⟨b, g.text ++ t, groups⟩ f = some x :=
  Regex.first_many g.isSpace ht.stops h

theorem run_noBlanks (ht : Begins t) (h : f ⟨b, t, groups⟩ = some x) :
    (spaces : InlinePattern).first ⟨b, t, groups⟩ f = some x :=
  Regex.first_many (w := []) nofun ht.stops h

theorem run_gap (g : Gap) (ht : Begins t) (h : f ⟨g.text.reverse ++ b, t, groups⟩ = some x) :
    (spaces1 : InlinePattern).first ⟨b, g.text ++ t, groups⟩ f = some x :=
  Regex.first_many1 g.ne_nil g.isSpace ht.stops h

theorem run_word (w : Word) (ht : Margin t) (h : f ⟨w.text.reverse ++ b, t, groups⟩ = some x) :
    (nonSpaces1 : InlinePattern).first ⟨b, w.text ++ t, groups⟩ f = some x := by
  refine Regex.first_many1 w.ne_nil (fun c hc => ?_) (fun c hc => ?_) h
  · rw [w.visible c hc]
    rfl
  · rw [ht c hc]
    rfl

theorem run_cased {s : String} (w : Cased s) (h : f ⟨w.text.reverse ++ b, t, groups⟩ = some x) :
    (lit s : InlinePattern).first ⟨b, w.text ++ t, groups⟩ f = some x := by
  rw [first_lit w.folded_eq, h]

/-- A literal is not found where another word stands. -/
theorem lit_stuck {s s' : String} {w : PyStr} (hw : folded w = folded (py s)) (hne : py s ≠ [])
    (havoids : Avoids (py s) s') : (lit s' : InlinePattern).first ⟨b, w ++ t, groups⟩ f = none := by
  refine Regex.first_of_nil (lit_ends_nil ?_)
  refine (avoids_congr hw havoids).not_starts (u := []) rfl ?_
  rintro rfl
  exact hne (List.map_eq_nil_iff.mp hw.symm)

theorem run_either {s s' : String} (w : EitherCased s s') (hne : py s' ≠ []) (havoids : Avoids (py s') s)
    (h : f ⟨w.text.reverse ++ b, t, groups⟩ = some x) :
    (oneOf [lit s, lit s'] : InlinePattern).first ⟨b, w.text ++ t, groups⟩ f = some x := by
  rcases w.folded_eq with hw | hw
  · refine Regex.first_alt_left ?_
    rw [first_lit hw, h]
  · show (Regex.alt (lit s) (lit s')).first _ f = some x
    rw [Regex.first_alt_right (lit_stuck hw hne havoids), first_lit hw, h]

theorem run_sign (sign : Sign) (h : f ⟨sign.text.reverse ++ b, t, groups⟩ = some x) :
    (oneOf [lit "=", lit ":"] : InlinePattern).first ⟨b, sign.text ++ t, groups⟩ f = some x := by
  cases sign with
  | equals => exact run_either ⟨Sign.equals.text, Or.inl (by decide)⟩ (by decide) (by decide) h
  | colon => exact run_either ⟨Sign.colon.text, Or.inr (by decide)⟩ (by decide) (by decide) h

theorem run_boundary {U : UnicodeData} (hb : b.head?.any (isWord U) = false)
    (ht : t.head?.any (isWord U) = true) (h : f ⟨b, t, groups⟩ = some x) :
    (boundary U : InlinePattern).first ⟨b, t, groups⟩ f = some x := by
  rw [boundary, Regex.first_look (by simp [hb, ht]), h]

/-- What cannot be read where whitespace or nothing is ahead. -/
def Stuck (f : Cursor InlineGroup PyChar → Option β) : Prop := ∀ k, Margin k.ahead → f k = none

theorem not_isDigit_of_isSpace {U : UnicodeData} {c : PyChar} (hc : c.isSpace = true) : Re.isDigit U c = false := by
  rw [← Bool.not_eq_true]
  intro hdecimal
  have halnum := U.alnum_of_decimal c hdecimal
  rw [U.not_alnum_of_space c hc] at halnum
  cases halnum

/-- A type that is given is read. -/
theorem run_digits {U : UnicodeData} {n : PyStr} (hne : n ≠ []) (hdigits : ∀ c ∈ n, Re.isDigit U c = true) (g : Gap)
    (ht : Begins t) (h : f ⟨(n ++ g.text).reverse ++ b, t, groups⟩ = some x) :
    (encryptionType U).first ⟨b, n ++ (g.text ++ t), groups⟩ f = some x := by
  refine Regex.first_opt ?_
  rw [Regex.first_seq]
  refine Regex.first_many1 hne hdigits (fun c hc => not_isDigit_of_isSpace (margin_gap g _ c hc)) ?_
  refine run_gap g ht ?_
  rw [List.reverse_append, List.append_assoc] at h
  exact h

/-- The encryption type: given, or passed over unless the secret could be one in front of more text. -/
theorem run_type {U : UnicodeData} (type : Option (Decimal × Gap)) (S : SecretToken) {args : PyStr}
    (hstuck : Stuck f)
    (hS : type.isSome = true ∨ (∃ c ∈ S.text, Re.isDigit U c = false) ∨ ∀ c ∈ args, c.isSpace = true)
    (h : f ⟨(typeText type).reverse ++ b, S.text ++ args, groups⟩ = some x) :
    (encryptionType U).first ⟨b, typeText type ++ (S.text ++ args), groups⟩ f = some x := by
  cases type with
  | some type =>
    obtain ⟨n, g⟩ := type
    show (encryptionType U).first ⟨b, (n.text ++ g.text) ++ (S.text ++ args), groups⟩ f = some x
    rw [List.append_assoc]
    exact run_digits n.ne_nil (n.isDigit U) g (S.begins args) h
  | none =>
    show (Regex.opt (Regex.seq (digits1 U) spaces1)).first ⟨b, S.text ++ args, groups⟩ f = some x
    rw [Regex.first_opt_skip, ← h]
    · rfl
    refine Regex.first_none fun k hk => ?_
    obtain ⟨w, ⟨d, g, rfl, ⟨d₁, d₂, rfl, ⟨c, rfl, hc⟩, hd₂⟩, ⟨g₁, g₂, rfl, ⟨e, rfl, he⟩, hg₂⟩⟩, hahead, -⟩ :=
      Regex.reads_of_mem_ends hk
    have hdigits : ∀ a ∈ [c] ++ d₂, Re.isDigit U a = true := by
      intro a ha
      rcases List.mem_cons.mp ha with rfl | ha
      · exact hc
      · exact hd₂ a ha
    have hall : S.text ++ args = ([c] ++ d₂) ++ ([e] ++ (g₂ ++ k.ahead)) := by
      rw [List.append_assoc, List.append_assoc] at hahead
      rw [List.append_assoc]
      exact hahead
    -- the digits are the whole secret, so only whitespace can be ahead
    obtain ⟨y, hS', hargs'⟩ : ∃ y, [c] ++ d₂ = S.text ++ y ∧ args = y ++ ([e] ++ (g₂ ++ k.ahead)) := by
      rcases List.append_eq_append_iff.mp hall with ⟨y, hy, hy'⟩ | ⟨y, hy, hy'⟩
      · exact ⟨y, hy, hy'⟩
      · cases y with
        | nil => exact ⟨[], by rw [hy, List.append_nil, List.append_nil], hy'.symm⟩
        | cons a y =>
          have ha := S.visible a (by rw [hy]; simp)
          rw [← List.head_eq_of_cons_eq hy', he] at ha
          cases ha
    rcases hS with hS | ⟨a, ha, hnot⟩ | hblank
    · cases hS
    · rw [hdigits a (by rw [hS']; exact List.mem_append_left _ ha)] at hnot
      cases hnot
    · refine hstuck k fun a ha => hblank a ?_
      rw [hargs']
      have hmem := List.mem_of_head? ha
      simp [hmem]

theorem type_stuck (U : UnicodeData) (hstuck : Stuck f) : Stuck fun k => (encryptionType U).first k f := by
  intro k hk
  have hdigits : (Regex.seq (digits1 U) spaces1).first k f = none := by
    rw [Regex.first_seq]
    refine Regex.first_of_nil ?_
    show ((Regex.char (Re.isDigit U)).ends ⟨k.behind, k.ahead, k.groups⟩).flatMap _ = []
    rw [Regex.char_ends_nil fun c hc => not_isDigit_of_isSpace (hk c hc), List.flatMap_nil]
  show (Regex.opt (Regex.seq (digits1 U) spaces1)).first k f = none
  rw [Regex.first_opt_skip hdigits, hstuck k hk]

/-- Whitespace is not read in front of a visible character, and nothing is read behind the last whitespace. -/
theorem gap_stuck (hstuck : Stuck f) {k : Cursor InlineGroup PyChar}
    (hk : Begins k.ahead ∨ ∀ c ∈ k.ahead, c.isSpace = true) : (spaces1 : InlinePattern).first k f = none := by
  refine Regex.first_none fun k' hk' => ?_
  obtain ⟨w, ⟨u, v, rfl, ⟨c, rfl, hc⟩, -⟩, hahead, -⟩ := Regex.reads_of_mem_ends hk'
  rcases hk with hk | hk
  · have hspace := hk.stops c (by rw [hahead]; rfl)
    rw [hc] at hspace
    cases hspace
  · refine hstuck k' fun a ha => hk a ?_
    rw [hahead]
    exact List.mem_append_right _ (List.mem_of_head? ha)

/-- Whitespace in front of visible text is read whole. -/
theorem blank_append_inj {g g' t t' : PyStr} (hg : ∀ c ∈ g, c.isSpace = true) (hg' : ∀ c ∈ g', c.isSpace = true)
    (ht : Begins t) (ht' : Begins t') (h : g ++ t = g' ++ t') : g = g' ∧ t = t' := by
  obtain ⟨c, r, rfl, hc⟩ := ht
  obtain ⟨c', r', rfl, hc'⟩ := ht'
  have htake : ∀ (g : PyStr) (c : PyChar) (r : PyStr), (∀ d ∈ g, d.isSpace = true) → c.isSpace = false →
      (g ++ c :: r).takeWhile PyChar.isSpace = g := by
    intro g c r hg hc
    rw [List.takeWhile_append_of_pos hg, List.takeWhile_cons_of_neg (by simp [hc]), List.append_nil]
  have hgaps : g = g' := by
    rw [← htake g c r hg hc, h, htake g' c' r' hg' hc']
  subst hgaps
  exact ⟨rfl, List.append_cancel_left h⟩

end

/-! ### Running the secret of a rule -/

/-- The token begins with the word `encryption` or `policy`. -/
def BeginsExcluded (U : UnicodeData) (token : PyStr) : Prop :=
  ∃ s ∈ ["encryption", "policy"], folded (py s) <+: folded token ∧
    (token.drop (py s).length).head?.any (isWord U) = false

section

variable {U : UnicodeData} {S : SecretToken} {args : PyStr} {b : PyStr} {groups : List (InlineGroup × PyStr)}

theorem quoted_ends_nil {q : PyChar} {t : PyStr} (h : ∀ c, t.head? = some c → (c == q) = false) :
    (quoted q).ends ⟨b, t, groups⟩ = [] := by
  show ((Regex.char (· == q)).ends ⟨b, t, groups⟩).flatMap _ = []
  rw [Regex.char_ends_nil h, List.flatMap_nil]

/-- No secret is read where whitespace or nothing is ahead. -/
theorem secretPattern_margin {k : Cursor InlineGroup PyChar} (h : Margin k.ahead) : secretPattern.ends k = [] := by
  obtain ⟨b, t, groups⟩ := k
  have hquote : ∀ q : PyChar, q.isSpace = false → ∀ c, t.head? = some c → (c == q) = false := by
    intro q hq c hc
    rw [beq_eq_false_iff_ne]
    rintro rfl
    rw [h c hc] at hq
    cases hq
  have hbare : bareToken.ends ⟨b, t, groups⟩ = [] := by
    show ((Regex.char _).ends ⟨b, t, groups⟩).flatMap _ = []
    rw [Regex.char_ends_nil fun c hc => by rw [h c hc]; rfl, List.flatMap_nil]
  have hnone : (oneOf [quoted 34, quoted 39, bareToken]).ends ⟨b, t, groups⟩ = [] := by
    show _ ++ (_ ++ bareToken.ends ⟨b, t, groups⟩) = []
    rw [quoted_ends_nil (hquote 34 (by decide)), quoted_ends_nil (hquote 39 (by decide)), hbare]
    rfl
  show ((Regex.notAhead (lit "<redacted:")).ends ⟨b, t, groups⟩).flatMap _ = []
  rw [Regex.ends]
  split_ifs
  · rw [List.flatMap_singleton, hnone]
  · rfl

theorem passwordSecret_margin {k : Cursor InlineGroup PyChar} (h : Margin k.ahead) :
    (passwordSecret U).ends k = [] := by
  show (Regex.ends (.notAhead _) k).flatMap secretPattern.ends = []
  rw [Regex.ends]
  split_ifs
  · rw [List.flatMap_singleton, secretPattern_margin h]
  · rfl

/-- A visible prefix of a token and its arguments is a prefix of the token. -/
theorem prefix_of_visible {w t : PyStr} (hargs : Margin args) (hw : ∀ c ∈ w, c.isSpace = false)
    (h : S.text ++ args = w ++ t) : ∃ y, S.text = w ++ y ∧ t = y ++ args := by
  rcases List.append_eq_append_iff.mp h with ⟨y, hy, hy'⟩ | ⟨y, hy, hy'⟩
  · cases y with
    | nil => exact ⟨[], by rw [hy, List.append_nil, List.append_nil], by simpa using hy'.symm⟩
    | cons c y =>
      have hc := hw c (by rw [hy]; simp)
      rw [hargs c (by rw [hy']; rfl)] at hc
      cases hc
  · exact ⟨y, hy, hy'⟩

theorem not_opening (hargs : Margin args) : ¬folded (py "<redacted:") <+: folded (S.text ++ args) := by
  rintro ⟨t, ht⟩
  have hopening : folded (py "<redacted:") = markerOpening := by decide
  have hvisible : markerOpening.all (fun c => !c.isSpace) = true := by decide
  have htake : folded ((S.text ++ args).take markerOpening.length) = markerOpening := by
    rw [folded, List.map_take]
    show (folded (S.text ++ args)).take _ = _
    rw [← ht, hopening, List.take_left]
  obtain ⟨y, hy, -⟩ := prefix_of_visible (S := S) hargs (isSpace_of_folded_eq (s := markerOpening)
    (htake.trans hopening.symm) fun c hc => by simpa using List.all_eq_true.mp hvisible c hc)
    (List.take_append_drop markerOpening.length _).symm
  refine S.fresh ?_
  rw [hy, folded_append, htake]
  exact List.prefix_append _ _

/-- The secret that is read is the whole token. -/
theorem run_secret (hargs : Margin args) :
    (secretPattern.ends ⟨b, S.text ++ args, groups⟩).head? = some ⟨S.text.reverse ++ b, args, groups⟩ := by
  have hquote : ∀ q : PyChar, (∀ c ∈ S.text, c ≠ q) → ∀ c, (S.text ++ args).head? = some c → (c == q) = false := by
    intro q hq c hc
    obtain ⟨d, r, hcons⟩ := List.exists_cons_of_ne_nil S.ne_nil
    rw [hcons] at hc
    rw [beq_eq_false_iff_ne, ← Option.some.inj hc]
    exact hq d (hcons ▸ List.mem_cons_self)
  rw [Regex.head?_eq_first, secretPattern, Regex.first_seq, Regex.first_notAhead (lit_ends_nil (not_opening hargs))]
  show (Regex.alt _ (Regex.alt _ _)).first _ _ = _
  rw [Regex.first_alt_right (Regex.first_of_nil (quoted_ends_nil (hquote 34 fun c hc => (S.unquoted c hc).1))),
    Regex.first_alt_right (Regex.first_of_nil (quoted_ends_nil (hquote 39 fun c hc => (S.unquoted c hc).2)))]
  refine Regex.first_many1 S.ne_nil (fun c hc => ?_) (fun c hc => ?_) rfl
  · have hvisible := S.visible c hc
    have hne : ∀ d : PyChar, d.isSpace = true → (c != d) = true := by
      intro d hd
      rw [bne_iff_ne]
      rintro rfl
      rw [hvisible] at hd
      cases hd
    rw [hvisible, hne 13 (by decide), hne 10 (by decide)]
    rfl
  · rw [hargs c hc]
    rfl

/-- Behind an excluded word stands a letter. -/
theorem excluded_behind {s : String} (hs : s ∈ ["encryption", "policy"]) {w : PyStr} (hw : folded w = folded (py s))
    (b : PyStr) : (w.reverse ++ b).head?.any (isWord U) = true := by
  have hwords : ∀ s ∈ ["encryption", "policy"],
      (folded (py s)).reverse.head?.any (fun c => 97 ≤ c.val && c.val ≤ 122) = true := by decide
  have hlast := hwords s hs
  have hreverse : folded w.reverse = (folded (py s)).reverse := by
    rw [← hw]
    exact List.map_reverse
  rw [← hreverse] at hlast
  cases hcons : w.reverse with
  | nil => rw [hcons] at hlast; cases hlast
  | cons c r =>
    rw [hcons] at hlast
    exact isWord_of_fold (by simpa [folded] using hlast)

theorem run_passwordSecret (hargs : Margin args) (hS : ¬BeginsExcluded U S.text) :
    ((passwordSecret U).ends ⟨b, S.text ++ args, groups⟩).head? = some ⟨S.text.reverse ++ b, args, groups⟩ := by
  have hnone : (Regex.seq (oneOf [lit "encryption", lit "policy"]) (boundary U)).ends
      (⟨b, S.text ++ args, groups⟩ : Cursor InlineGroup PyChar) = [] := by
    refine List.eq_nil_iff_forall_not_mem.mpr fun k hk => hS ?_
    obtain ⟨k₁, h₁, h₂⟩ := List.mem_flatMap.mp hk
    obtain ⟨w, hw, hahead, hbehind⟩ := Regex.reads_of_mem_ends h₁
    obtain ⟨s, hs, hword⟩ : ∃ s ∈ ["encryption", "policy"], folded w = folded (py s) := by
      rcases hw with hw | hw
      · exact ⟨"encryption", by simp, folded_eq_of_sameLetter (lang_lit hw)⟩
      · exact ⟨"policy", by simp, folded_eq_of_sameLetter (lang_lit hw)⟩
    have hwords : ∀ s ∈ ["encryption", "policy"], (py s).all (fun c => !c.isSpace) = true := by decide
    have hvisible := hwords s hs
    obtain ⟨y, hy, hy'⟩ := prefix_of_visible (S := S) hargs
      (isSpace_of_folded_eq hword fun c hc => by simpa using List.all_eq_true.mp hvisible c hc) hahead
    refine ⟨s, hs, ?_, ?_⟩
    · rw [hy, folded_append, hword]
      exact List.prefix_append _ _
    · have hlength : w.length = (py s).length := by
        have hlengths := congrArg List.length hword
        rwa [folded_length, folded_length] at hlengths
      have hbehindWord : k₁.behind.head?.any (isWord U) = true := by
        rw [hbehind]
        exact excluded_behind hs hword _
      unfold boundary at h₂
      rw [Regex.ends] at h₂
      split_ifs at h₂ with hdiffer
      · rw [hbehindWord, hy'] at hdiffer
        rw [← hlength, hy, List.drop_left]
        cases y with
        | nil => rfl
        | cons c y => simpa using hdiffer
      · cases h₂
  rw [Regex.head?_eq_first, passwordSecret, Regex.first_seq, Regex.first_notAhead hnone, ← Regex.head?_eq_first,
    run_secret hargs]

end

end NetopsCopilot
