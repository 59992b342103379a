import NetopsCopilot.Ingestion.Redaction

/-!
# What the inline rules keep of a line

Every match of an inline rule reads a visible character before its secret, and its secret ends in a visible
character. So a rule keeps a line's leading whitespace with the first visible character behind it, and the
last character of the line if that is whitespace (`KeepsShape`).
-/

namespace NetopsCopilot

open Re

/-! ### Visible text -/

theorem PyChar.isSpace_fold (c : PyChar) : c.fold.isSpace = c.isSpace := by
  by_cases hupper : 65 ≤ c.val ∧ c.val ≤ 90
  · have hval : (c + 32).val = c.val + 32 := by
      rw [Fin.val_add]
      exact Nat.mod_eq_of_lt (show c.val + 32 < 0x110000 by omega)
    have hfold : c.fold = c + 32 := by simp [fold, hupper]
    rw [hfold, Bool.eq_iff_iff]
    simp only [isSpace, hval, Bool.or_eq_true, Bool.and_eq_true, decide_eq_true_eq, beq_iff_eq]
    omega
  · unfold fold
    rw [if_neg (by simpa using hupper)]
    split_ifs with hi hs hk
    · simp only [Bool.or_eq_true, beq_iff_eq] at hi
      rcases hi with hi | hi
      · rw [show c = 0x130 from Fin.ext hi]
        decide
      · rw [show c = 0x131 from Fin.ext hi]
        decide
    · rw [show c = 0x17F from Fin.ext (beq_iff_eq.mp hs)]
      decide
    · rw [show c = 0x212A from Fin.ext (beq_iff_eq.mp hk)]
      decide
    · rfl

theorem PyChar.isSpace_of_sameLetter {a b : PyChar} (h : a.sameLetter b = true) : b.isSpace = a.isSpace := by
  have hfold : a.fold = b.fold := by simpa [sameLetter] using h
  rw [← isSpace_fold a, ← isSpace_fold b, hfold]

/-- A word with a character that is not whitespace. -/
def Visible (w : PyStr) : Prop := ∃ c ∈ w, c.isSpace = false

/-- A word that ends in a character that is not whitespace. -/
def EndsVisible (w : PyStr) : Prop := ∃ v c, w = v ++ [c] ∧ c.isSpace = false

namespace Re

variable {γ : Type} {w : PyStr}

theorem lang_lit {s : String} (h : (lit s : Regex γ PyChar).Lang w) :
    List.Forall₂ (fun l c => PyChar.sameLetter l c = true) (py s) w := by
  unfold lit at h
  generalize py s = letters at h ⊢
  induction letters generalizing w with
  | nil =>
    have hnil : w = [] := h
    rw [hnil]
    exact .nil
  | cons l letters ih =>
    obtain ⟨u, v, rfl, ⟨c, rfl, hc⟩, hv⟩ := h
    exact .cons hc (ih hv)

/-- Literal text is visible if it has a visible character. -/
theorem visible_lit {s : String} (hs : (py s).any (fun c => !c.isSpace) = true)
    (h : (lit s : Regex γ PyChar).Lang w) : Visible w := by
  have hall := lang_lit h
  clear h
  generalize py s = letters at hs hall
  revert hs
  induction hall with
  | nil => exact nofun
  | @cons l c letters w hlc _ ih =>
    intro hs
    rw [List.any_cons, Bool.or_eq_true] at hs
    rcases hs with hs | hs
    · refine ⟨c, List.mem_cons_self, ?_⟩
      rw [PyChar.isSpace_of_sameLetter hlc]
      simpa using hs
    · obtain ⟨d, hd, hspace⟩ := ih hs
      exact ⟨d, List.mem_cons_of_mem _ hd, hspace⟩

/-- A sequence is visible if one of its parts is. -/
theorem visible_cat {rs : List (Regex γ PyChar)} {r : Regex γ PyChar} (hr : r ∈ rs)
    (hvisible : ∀ w, r.Lang w → Visible w) (h : (Regex.cat rs).Lang w) : Visible w := by
  induction rs generalizing w with
  | nil => cases hr
  | cons s rs ih =>
    obtain ⟨u, v, rfl, hu, hv⟩ := h
    rcases List.mem_cons.mp hr with rfl | hr
    · obtain ⟨c, hc, hspace⟩ := hvisible u hu
      exact ⟨c, List.mem_append_left _ hc, hspace⟩
    · obtain ⟨c, hc, hspace⟩ := ih hr hv
      exact ⟨c, List.mem_append_right _ hc, hspace⟩

end Re

/-! ### Secrets -/

theorem quoted_visible {q : PyChar} (hq : q.isSpace = false) {w : PyStr} (h : (quoted q).Lang w) :
    EndsVisible w := by
  obtain ⟨u, v, rfl, -, u', v', rfl, -, u'', v'', rfl, ⟨c, rfl, hc⟩, rfl⟩ := h
  refine ⟨u ++ u', c, ?_, ?_⟩
  · rw [List.append_nil, List.append_assoc]
  · rwa [beq_iff_eq.mp hc]

theorem bareToken_visible {w : PyStr} (h : bareToken.Lang w) : EndsVisible w := by
  obtain ⟨u, v, rfl, ⟨c, rfl, hc⟩, hv⟩ := h
  have hall : ∀ d ∈ [c] ++ v, d.isSpace = false := by
    intro d hd
    rcases List.mem_append.mp hd with hd | hd
    · rw [List.mem_singleton.mp hd]
      simp only [Bool.and_eq_true, Bool.not_eq_true'] at hc
      exact hc.1.1
    · have hd' := hv d hd
      simp only [Bool.and_eq_true, Bool.not_eq_true'] at hd'
      exact hd'.1.1
  have hne : [c] ++ v ≠ [] := List.cons_ne_nil _ _
  exact ⟨_, _, (List.dropLast_append_getLast hne).symm, hall _ (List.getLast_mem hne)⟩

theorem secretPattern_visible {w : PyStr} (h : secretPattern.Lang w) : EndsVisible w := by
  obtain ⟨u, v, rfl, rfl, hv⟩ := h
  rw [List.nil_append]
  rcases hv with hv | hv | hv
  · exact quoted_visible (by decide) hv
  · exact quoted_visible (by decide) hv
  · exact bareToken_visible hv

theorem passwordSecret_visible (U : UnicodeData) {w : PyStr} (h : (passwordSecret U).Lang w) :
    EndsVisible w := by
  obtain ⟨u, v, rfl, rfl, hv⟩ := h
  exact secretPattern_visible hv

/-! ### Matches of an inline rule -/

/-- What a match of an inline rule reads: the text of its prefix group, and a secret. -/
structure InlineRule.Reads (rule : InlineRule) (k : Cursor InlineGroup PyChar) (u v : PyStr)
    (k' : Cursor InlineGroup PyChar) : Prop where
  reads : k.Reads (u ++ v) k'
  prefixText : k'.text .prefixText = u
  visible : Visible u
  secret : EndsVisible v

/-- The form of the inline patterns. -/
structure InlineRule.Shaped (rule : InlineRule) (before secret : InlinePattern) : Prop where
  pattern : rule.pattern = .seq (.group .prefixText before) (.group .secret secret)
  visible : ∀ w, before.Lang w → Visible w
  ends : ∀ w, secret.Lang w → EndsVisible w
  free : secret.groupFree = true

theorem InlineRule.Shaped.reads_of_mem_ends {rule : InlineRule} {before secret : InlinePattern}
    (hshape : rule.Shaped before secret) {k k' : Cursor InlineGroup PyChar}
    (h : k' ∈ rule.pattern.ends k) : ∃ u v, rule.Reads k u v k' := by
  rw [hshape.pattern] at h
  obtain ⟨k₁, h₁, h₂⟩ := List.mem_flatMap.mp h
  obtain ⟨k₁', -, u, hu, hreadsu, rfl⟩ := Regex.group_of_mem_ends h₁
  obtain ⟨k₂', hk₂, v, hv, hreadsv, rfl⟩ := Regex.group_of_mem_ends h₂
  have hgroups := Regex.groups_of_mem_ends hshape.free hk₂
  have hreads : k.Reads (u ++ v) k₂' := Cursor.Reads.trans hreadsu hreadsv
  refine ⟨u, v, hreads, ?_, hshape.visible u hu, hshape.ends v hv⟩
  show ((((InlineGroup.secret, v) :: k₂'.groups).lookup .prefixText).getD []) = u
  rw [hgroups]
  rfl

/-- A pattern with a visible literal among its parts. -/
theorem visible_of_lit {parts : List InlinePattern} (text : String)
    (htext : (py text).any (fun c => !c.isSpace) = true) (hmem : lit text ∈ parts) :
    ∀ w, (Regex.cat parts).Lang w → Visible w :=
  fun _ h => visible_cat hmem (fun _ => visible_lit htext) h

theorem passwordOrSecret_visible {w : PyStr} (h : passwordOrSecret.Lang w) : Visible w := by
  rcases h with h | h
  · exact visible_lit (by decide) h
  · exact visible_lit (by decide) h

/-- The ten rules. -/
theorem inlineRule_shaped {U : UnicodeData} {rule : InlineRule} (hrule : rule ∈ inlineRules U) :
    ∃ before secret, rule.Shaped before secret := by
  have hfree : secretPattern.groupFree = true := by decide
  have hplain : ∀ (rule : RedactionRule) (before : InlinePattern), (∀ w, before.Lang w → Visible w) →
      ∃ before' secret, (InlineRule.of rule before).Shaped before' secret :=
    fun rule before hbefore => ⟨before, secretPattern, rfl, hbefore, fun _ => secretPattern_visible, hfree⟩
  simp only [inlineRules, List.mem_cons, List.not_mem_nil, or_false] at hrule
  rcases hrule with rfl | rfl | rfl | rfl | rfl | rfl | rfl | rfl | rfl | rfl
  · exact hplain _ _ (visible_of_lit "key" (by decide) (by simp))
  · exact hplain _ _ (visible_of_lit "pre-shared-key" (by decide) (by simp))
  · exact hplain _ _ (visible_of_lit "username" (by decide) (by simp))
  · exact hplain _ _ (visible_of_lit "community" (by decide) (by simp))
  · refine ⟨passwordPrefix U, passwordSecret U, rfl, fun w => ?_, fun _ => passwordSecret_visible U, hfree⟩
    exact visible_cat (r := passwordOrSecret) (by simp) fun _ => passwordOrSecret_visible
  · exact hplain _ _ (visible_of_lit "password" (by decide) (by simp))
  · exact hplain _ _ (visible_of_lit "password" (by decide) (by simp))
  · exact hplain _ _ (visible_of_lit "bearer" (by decide) (by simp))
  · exact hplain _ _ (visible_of_lit "bearer" (by decide) (by simp))
  · refine hplain _ _ fun w => visible_cat (.tail _ (.head _)) ?_
    rintro w (hw | hw)
    · exact visible_of_lit "key" (by decide) (by simp) w hw
    · exact visible_of_lit "key" (by decide) (by simp) w hw

/-! ### Rewriting a line -/

/-- Secrets of a line are replaced by the marker, none before the first visible character. -/
inductive Rewrites (marker : PyStr) : Bool → PyStr → PyStr → Prop where
  | nil (seen : Bool) : Rewrites marker seen [] []
  | copy {seen : Bool} (c : PyChar) {s s' : PyStr} (h : Rewrites marker (seen || !c.isSpace) s s') :
      Rewrites marker seen (c :: s) (c :: s')
  | secret {v s s' : PyStr} (hv : EndsVisible v) (h : Rewrites marker true s s') :
      Rewrites marker true (v ++ s) (marker ++ s')

theorem Rewrites.copies {marker u s s' : PyStr} {seen : Bool}
    (h : Rewrites marker (seen || u.any fun c => !c.isSpace) s s') :
    Rewrites marker seen (u ++ s) (u ++ s') := by
  induction u generalizing seen with
  | nil =>
    rw [List.any_nil, Bool.or_false] at h
    exact h
  | cons c u ih =>
    rw [List.any_cons, ← Bool.or_assoc] at h
    exact .copy c (ih h)

/-- What a rule makes of a text that stands behind another. -/
def InlineRule.subnBehind (rule : InlineRule) (behind text : PyStr) : PyStr × Nat :=
  rule.pattern.scan (fun k => k.text .prefixText ++ rule.rule.marker) 0 behind text

theorem InlineRule.Shaped.consumes {rule : InlineRule} {before secret : InlinePattern}
    (hshape : rule.Shaped before secret) : ∀ w, rule.pattern.Lang w → w ≠ [] := by
  intro w hw
  rw [hshape.pattern] at hw
  obtain ⟨u, v, rfl, -, hv⟩ := hw
  obtain ⟨v', c, rfl, -⟩ := hshape.ends v hv
  simp

/-- An inline rule rewrites its text. -/
theorem rewrites_subnBehind {U : UnicodeData} {rule : InlineRule} (hrule : rule ∈ inlineRules U)
    (behind text : PyStr) :
    Rewrites rule.rule.marker (behind.any fun c => !c.isSpace) text (rule.subnBehind behind text).1 := by
  obtain ⟨before, secret, hshape⟩ := inlineRule_shaped hrule
  refine Regex.scan_induction (motive := fun behind ahead result =>
    Rewrites rule.rule.marker (behind.any fun c => !c.isSpace) ahead result.1)
    hshape.consumes (fun _ => .nil _) ?_ ?_ behind text
  · intro behind c ahead result h
    rw [List.any_cons, Bool.or_comm] at h
    exact .copy c h
  · intro behind ahead k w result hmem _ _ _ h
    obtain ⟨u, v, hreads, hbefore, ⟨c, hc, hspace⟩, hsecret⟩ := hshape.reads_of_mem_ends hmem
    have hu : (u.any fun c => !c.isSpace) = true := List.any_eq_true.mpr ⟨c, hc, by simp [hspace]⟩
    have hbehind : (k.behind.any fun c => !c.isSpace) = true := by
      rw [hreads.2, List.any_append, List.reverse_append, List.any_append, List.any_reverse, List.any_reverse,
        hu]
      simp
    have hahead : ahead = (u ++ v) ++ k.ahead := hreads.1
    rw [hbehind] at h
    rw [hbefore, hahead, List.append_assoc, List.append_assoc]
    refine Rewrites.copies ?_
    rw [hu, Bool.or_true]
    exact .secret hsecret h

/-- An inline rule rewrites its line. -/
theorem rewrites_subn {U : UnicodeData} {rule : InlineRule} (hrule : rule ∈ inlineRules U) (body : PyStr) :
    Rewrites rule.rule.marker false body (rule.subn body).1 := rewrites_subnBehind hrule [] body

/-! ### What stays -/

/-- Leading whitespace stays with the first visible character behind it, and so does whitespace at the end,
which is at most one character here. -/
structure KeepsShape (s s' : PyStr) : Prop where
  indentation : indentation s' = indentation s
  first : (s'.dropWhile PyChar.isSpace).head? = (s.dropWhile PyChar.isSpace).head?
  last : ∀ t e, s = t ++ e → NoBreak t → (∀ c ∈ e, c.isSpace = true) → e.length ≤ 1 →
    ∃ t', s' = t' ++ e ∧ NoBreak t'

theorem KeepsShape.refl (s : PyStr) : KeepsShape s s :=
  ⟨rfl, rfl, fun t _ hs ht _ _ => ⟨t, hs, ht⟩⟩

theorem KeepsShape.trans {s s' s'' : PyStr} (h : KeepsShape s s') (h' : KeepsShape s' s'') :
    KeepsShape s s'' := by
  refine ⟨h'.indentation.trans h.indentation, h'.first.trans h.first, fun t e hs ht he hlength => ?_⟩
  obtain ⟨t', hs', ht'⟩ := h.last t e hs ht he hlength
  exact h'.last t' e hs' ht' he hlength

theorem NoBreak.append {s t : PyStr} (hs : NoBreak s) (ht : NoBreak t) : NoBreak (s ++ t) := by
  intro c hc
  rcases List.mem_append.mp hc with hc | hc
  · exact hs c hc
  · exact ht c hc

theorem NoBreak.of_append {s t : PyStr} (h : NoBreak (s ++ t)) : NoBreak s ∧ NoBreak t :=
  ⟨fun c hc => h c (List.mem_append_left _ hc), fun c hc => h c (List.mem_append_right _ hc)⟩

namespace Rewrites

variable {marker s s' : PyStr} {seen : Bool}

theorem of_nil (h : Rewrites marker seen s s') (hs : s = []) : s' = [] := by
  cases h with
  | nil => rfl
  | copy c h => cases hs
  | secret hv h =>
    obtain ⟨v', c, rfl, -⟩ := hv
    simp at hs

theorem first (h : Rewrites marker seen s s') (hseen : seen = false) :
    indentation s' = indentation s ∧
      (s'.dropWhile PyChar.isSpace).head? = (s.dropWhile PyChar.isSpace).head? := by
  induction h with
  | nil => exact ⟨rfl, rfl⟩
  | @copy seen c s s' h ih =>
    unfold indentation at ih ⊢
    by_cases hc : c.isSpace = true
    · obtain ⟨hindentation, hfirst⟩ := ih (by rw [hseen, hc]; rfl)
      rw [List.takeWhile_cons_of_pos hc, List.takeWhile_cons_of_pos hc, List.dropWhile_cons_of_pos hc,
        List.dropWhile_cons_of_pos hc]
      exact ⟨congrArg (c :: ·) hindentation, hfirst⟩
    · rw [List.takeWhile_cons_of_neg hc, List.takeWhile_cons_of_neg hc, List.dropWhile_cons_of_neg hc,
        List.dropWhile_cons_of_neg hc]
      exact ⟨rfl, rfl⟩
  | secret hv h ih => cases hseen

/-- The whitespace at the end is in no secret. -/
theorem last (hmarker : NoBreak marker) (h : Rewrites marker seen s s') :
    ∀ t e, s = t ++ e → NoBreak t → (∀ c ∈ e, c.isSpace = true) → e.length ≤ 1 →
      ∃ t', s' = t' ++ e ∧ NoBreak t' := by
  induction h with
  | nil seen =>
    intro t e hs ht _ _
    obtain ⟨rfl, rfl⟩ := List.append_eq_nil_iff.mp hs.symm
    exact ⟨[], rfl, ht⟩
  | @copy seen c s s' h ih =>
    intro t e hs ht he hlength
    cases t with
    | nil =>
      obtain rfl : s = [] := by
        have hlen := congrArg List.length hs
        rw [List.nil_append, List.length_cons] at hlen
        exact List.length_eq_zero_iff.mp (by omega)
      rw [h.of_nil rfl]
      exact ⟨[], hs, nofun⟩
    | cons d t =>
      rw [List.cons_append] at hs
      obtain ⟨rfl, hrest⟩ := List.cons.inj hs
      obtain ⟨hc, ht⟩ := List.forall_mem_cons.mp ht
      obtain ⟨t', rfl, ht'⟩ := ih t e hrest ht he hlength
      exact ⟨c :: t', rfl, List.forall_mem_cons.mpr ⟨hc, ht'⟩⟩
  | @secret v s s' hv h ih =>
    intro t e hs ht he hlength
    obtain ⟨t₂, rfl, rfl⟩ : ∃ t₂, t = v ++ t₂ ∧ s = t₂ ++ e := by
      rcases List.append_eq_append_iff.mp hs with ⟨t₂, ht₂, hs₂⟩ | ⟨w, hw, hew⟩
      · exact ⟨t₂, ht₂, hs₂⟩
      · cases w with
        | nil => exact ⟨[], by simpa using hw.symm, by simpa using hew.symm⟩
        | cons c w =>
          -- the secret would end in the whitespace
          obtain ⟨v', d, rfl, hd⟩ := hv
          have hmem : d ∈ e := by
            have hlast := congrArg List.getLast? hw
            rw [List.getLast?_append, List.getLast?_append] at hlast
            rw [hew]
            refine List.mem_append_left _ (List.mem_of_getLast? ?_)
            cases hcw : (c :: w).getLast? with
            | none => exact absurd (List.getLast?_eq_none_iff.mp hcw) (List.cons_ne_nil _ _)
            | some x =>
              rw [hcw] at hlast
              exact congrArg some (Option.some.inj hlast).symm
          rw [he d hmem] at hd
          cases hd
    obtain ⟨t', rfl, ht'⟩ := ih t₂ e rfl ht.of_append.2 he hlength
    exact ⟨marker ++ t', (List.append_assoc ..).symm, hmarker.append ht'⟩

theorem keepsShape (hmarker : NoBreak marker) (h : Rewrites marker false s s') : KeepsShape s s' :=
  ⟨(h.first rfl).1, (h.first rfl).2, h.last hmarker⟩

end Rewrites

theorem noBreak_marker (rule : RedactionRule) : NoBreak rule.marker := by
  have hall : (RedactionRule.marker rule).all (fun c => !c.isLineBreak) = true := by
    cases rule <;> decide
  intro c hc
  simpa using List.all_eq_true.mp hall c hc

/-- What each of the rules keeps, they keep together. -/
theorem applyRules_induction {U : UnicodeData} {motive : RedactedLine → Prop}
    (hrule : ∀ rule ∈ inlineRules U, ∀ line, motive line → motive (applyRule line rule)) {body : PyStr}
    (hbody : motive { text := body, records := [] }) : motive (applyRules (inlineRules U) body) := by
  have hfold : ∀ rules : List InlineRule, (∀ rule ∈ rules, rule ∈ inlineRules U) →
      ∀ line, motive line → motive (rules.foldl applyRule line) := by
    intro rules
    induction rules with
    | nil => exact fun _ line h => h
    | cons rule rules ih =>
      intro hrules line h
      have hstep := hrule rule (hrules rule List.mem_cons_self) line h
      exact ih (fun rule' hmem => hrules rule' (List.mem_cons_of_mem _ hmem)) _ hstep
  exact hfold _ (fun _ h => h) _ hbody

/-- The inline rules together. -/
theorem applyRules_keepsShape (U : UnicodeData) (body : PyStr) :
    KeepsShape body (applyRules (inlineRules U) body).text := by
  refine applyRules_induction (motive := fun line => KeepsShape body line.text) ?_ (KeepsShape.refl body)
  intro rule hrule line h
  exact h.trans ((rewrites_subn hrule line.text).keepsShape (noBreak_marker _))

/-- A rewritten text has no character that is neither in the text nor in the marker. -/
theorem Rewrites.mem {marker s s' : PyStr} {seen : Bool} (h : Rewrites marker seen s s') :
    ∀ c ∈ s', c ∈ s ∨ c ∈ marker := by
  induction h with
  | nil => exact nofun
  | copy d _ ih =>
    intro c hc
    rcases List.mem_cons.mp hc with rfl | hc
    · exact Or.inl List.mem_cons_self
    · exact (ih c hc).imp_left (List.mem_cons_of_mem d)
  | secret _ _ ih =>
    intro c hc
    rcases List.mem_append.mp hc with hc | hc
    · exact Or.inr hc
    · exact (ih c hc).imp_left (List.mem_append_right _)

theorem mem_applyRules (U : UnicodeData) (body : PyStr) :
    ∀ c ∈ (applyRules (inlineRules U) body).text, c ∈ body ∨ ∃ rule : RedactionRule, c ∈ rule.marker := by
  refine applyRules_induction
    (motive := fun line => ∀ c ∈ line.text, c ∈ body ∨ ∃ rule : RedactionRule, c ∈ rule.marker) ?_
    (fun c hc => Or.inl hc)
  intro rule hrule line h c hc
  rcases (rewrites_subn hrule line.text).mem c hc with hc | hc
  · exact h c hc
  · exact Or.inr ⟨rule.rule, hc⟩

/-! ### Text in front of whitespace -/

theorem isSpace_of_mem_indentation {s : PyStr} {c : PyChar} (h : c ∈ indentation s) : c.isSpace = true :=
  List.mem_takeWhile_imp h

theorem indentation_subset (s : PyStr) : indentation s ⊆ s := List.takeWhile_subset _

theorem indentation_of_blank {s : PyStr} (h : isBlank s = true) : indentation s = s :=
  List.takeWhile_eq_self_iff.mpr (isBlank_iff.mp h)

/-- The leading whitespace ends before the first visible character. -/
theorem indentation_of_visible {s t : PyStr} (h : isBlank s = false) : indentation (s ++ t) = indentation s := by
  have hvisible : ∃ c ∈ s, c.isSpace = false := by
    by_contra hnone
    push Not at hnone
    have hblank := isBlank_iff.mpr fun c hc => by simpa using hnone c hc
    rw [hblank] at h
    cases h
  unfold indentation
  rw [List.takeWhile_append]
  split_ifs with hall
  · obtain ⟨c, hc, hspace⟩ := hvisible
    have hself : s.takeWhile PyChar.isSpace = s := (List.takeWhile_prefix _).eq_of_length hall
    have hc' : c ∈ s.takeWhile PyChar.isSpace := hself.symm ▸ hc
    rw [List.mem_takeWhile_imp hc'] at hspace
    cases hspace
  · rfl

theorem first_append {s x : PyStr} (hx : ∀ c ∈ x, c.isSpace = true) :
    ((s ++ x).dropWhile PyChar.isSpace).head? = (s.dropWhile PyChar.isSpace).head? := by
  rw [List.dropWhile_append]
  split_ifs with hempty
  · rw [List.isEmpty_iff.mp hempty, List.dropWhile_eq_nil_iff.mpr hx]
  · rw [List.head?_append_of_ne_nil]
    simpa using hempty

theorem isBlank_iff_first {s : PyStr} : isBlank s = true ↔ (s.dropWhile PyChar.isSpace).head? = none := by
  rw [List.head?_eq_none_iff, List.dropWhile_eq_nil_iff, isBlank_iff]

theorem eq_nil_of_shape {s : PyStr} (hindentation : indentation [] = indentation s)
    (hfirst : (([] : PyStr).dropWhile PyChar.isSpace).head? = (s.dropWhile PyChar.isSpace).head?) : s = [] := by
  have hblank : isBlank s = true := isBlank_iff_first.mpr hfirst.symm
  rw [← indentation_of_blank hblank, ← hindentation]
  rfl

/-- What a rewritten line keeps in front of the whitespace at its end. -/
theorem KeepsShape.text {t x s' : PyStr} (h : KeepsShape (t ++ x) s') (ht : NoBreak t)
    (hx : ∀ c ∈ x, c.isSpace = true) (hlength : x.length ≤ 1) :
    ∃ t', s' = t' ++ x ∧ NoBreak t' ∧ NetopsCopilot.indentation t' = NetopsCopilot.indentation t ∧
      (t'.dropWhile PyChar.isSpace).head? = (t.dropWhile PyChar.isSpace).head? := by
  obtain ⟨t', rfl, ht'⟩ := h.last t x rfl ht hx hlength
  have hfirst := h.first
  rw [first_append hx, first_append hx] at hfirst
  refine ⟨t', rfl, ht', ?_, hfirst⟩
  have hindentation := h.indentation
  cases hblank : isBlank t with
  | true =>
    have hblank' : isBlank t' = true := isBlank_iff_first.mpr (hfirst.trans (isBlank_iff_first.mp hblank))
    have hall : ∀ s, isBlank s = true → isBlank (s ++ x) = true := fun s hs => isBlank_iff.mpr fun c hc =>
      (List.mem_append.mp hc).elim (isBlank_iff.mp hs c) (hx c)
    rw [indentation_of_blank (hall t hblank), indentation_of_blank (hall t' hblank')] at hindentation
    rw [List.append_cancel_right hindentation]
  | false =>
    have hblank' : isBlank t' = false := by
      rw [Bool.eq_false_iff] at hblank ⊢
      exact fun h' => hblank (isBlank_iff_first.mpr (hfirst.symm.trans (isBlank_iff_first.mp h')))
    rwa [indentation_of_visible hblank, indentation_of_visible hblank'] at hindentation

end NetopsCopilot
