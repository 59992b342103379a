import Mathlib.Data.List.Infix
import NetopsCopilot.Lib.RegexRun
import NetopsCopilot.Ingestion.RedactionReport

/-!
# Rewriting a line around a token

A match of an inline rule begins with one of a few words, at the start of the line (`Anchored`) or anywhere
(`Floating`). So in a line that consists of a lead, a token and arguments, a rule rewrites the token and the
arguments each on its own, if none of its words is in the lead and no match goes from the token into the arguments
(`subn_token`).
-/

namespace NetopsCopilot

open Re

/-! ### Letter case -/

/-- What `re.IGNORECASE` compares of a text. -/
def folded (s : PyStr) : PyStr := s.map PyChar.fold

@[simp] theorem folded_append (s t : PyStr) : folded (s ++ t) = folded s ++ folded t := List.map_append

@[simp] theorem folded_length (s : PyStr) : (folded s).length = s.length := List.length_map _

theorem folded_eq_of_sameLetter {s w : PyStr} (h : List.Forall₂ (fun l c => PyChar.sameLetter l c = true) s w) :
    folded w = folded s := by
  induction h with
  | nil => rfl
  | cons hc _ ih => exact congrArg₂ List.cons (beq_iff_eq.mp hc).symm ih

theorem isSpace_of_folded_eq {s w : PyStr} (h : folded w = folded s) (hs : ∀ c ∈ s, c.isSpace = false) :
    ∀ c ∈ w, c.isSpace = false := by
  intro c hc
  have hfold : c.fold ∈ folded s := h ▸ List.mem_map_of_mem hc
  obtain ⟨d, hd, hdc⟩ := List.mem_map.mp hfold
  rw [← PyChar.isSpace_fold c, ← hdc, PyChar.isSpace_fold d, hs d hd]

section

variable {γ : Type} {s : String} {behind w t : PyStr} {groups : List (γ × PyStr)} {k k' : Cursor γ PyChar}

/-- Literal text reads the text in some letter case. -/
theorem prefix_of_mem_lit (h : k' ∈ (lit s : Regex γ PyChar).ends k) : folded (py s) <+: folded k.ahead := by
  obtain ⟨w, hw, hahead, -⟩ := Regex.reads_of_mem_ends h
  rw [hahead, folded_append, folded_eq_of_sameLetter (lang_lit hw)]
  exact List.prefix_append _ _

theorem lit_ends_nil (h : ¬folded (py s) <+: folded k.ahead) : (lit s : Regex γ PyChar).ends k = [] :=
  List.eq_nil_iff_forall_not_mem.mpr fun _ hk' => h (prefix_of_mem_lit hk')

theorem lit_ends (h : folded w = folded (py s)) :
    (lit s : Regex γ PyChar).ends ⟨behind, w ++ t, groups⟩ = [⟨w.reverse ++ behind, t, groups⟩] := by
  unfold lit
  generalize py s = letters at h
  induction letters generalizing w behind with
  | nil =>
    obtain rfl : w = [] := List.map_eq_nil_iff.mp h
    rfl
  | cons l letters ih =>
    cases w with
    | nil => cases h
    | cons c w =>
      obtain ⟨hc, hw⟩ := List.cons.inj h
      have hletter : PyChar.sameLetter l c = true := beq_iff_eq.mpr hc.symm
      show ((Regex.char l.sameLetter : Regex γ PyChar).ends ⟨behind, c :: (w ++ t), groups⟩).flatMap _ = _
      rw [Regex.ends]
      dsimp only
      rw [if_pos hletter, List.flatMap_singleton, List.reverse_cons, List.append_assoc]
      exact ih hw

theorem first_lit {β : Type} {f : Cursor γ PyChar → Option β} (h : folded w = folded (py s)) :
    (lit s : Regex γ PyChar).first ⟨behind, w ++ t, groups⟩ f = f ⟨w.reverse ++ behind, t, groups⟩ := by
  rw [Regex.first, lit_ends h, List.findSome?_singleton]

end

/-! ### Words that a text does not have -/

/-- The literal text begins nowhere in the text, whatever stands behind it. -/
def Avoids (p : PyStr) (s : String) : Prop :=
  ∀ q ∈ (folded p).tails, q ≠ [] → ¬q <+: folded (py s) ∧ ¬folded (py s) <+: q

instance (p : PyStr) (s : String) : Decidable (Avoids p s) := inferInstanceAs (Decidable (∀ q ∈ _, _))

section

variable {p q t : PyStr} {s : String}

theorem avoids_nil : Avoids [] s := by
  intro q hq hne
  exact absurd (List.suffix_nil.mp ((List.mem_tails _ _).mp hq)) hne

theorem avoids_congr (h : folded p = folded q) (hq : Avoids q s) : Avoids p s := by
  unfold Avoids
  rw [h]
  exact hq

/-- A text with the literal somewhere in it does not avoid it. -/
theorem Avoids.not_starts (h : Avoids p s) {u v : PyStr} (huv : p = u ++ v) (hv : v ≠ []) :
    ¬folded (py s) <+: folded (v ++ t) := by
  intro hstarts
  rw [folded_append] at hstarts
  have hmem : folded v ∈ (folded p).tails := by
    rw [List.mem_tails, huv, folded_append]
    exact List.suffix_append _ _
  have hne : folded v ≠ [] := fun hnil => hv (List.map_eq_nil_iff.mp hnil)
  obtain ⟨hleft, hright⟩ := h _ hmem hne
  rcases List.prefix_or_prefix_of_prefix hstarts (List.prefix_append (folded v) (folded t)) with h' | h'
  · exact hright h'
  · exact hleft h'

theorem Avoids.append (hp : Avoids p s) (hq : Avoids q s) : Avoids (p ++ q) s := by
  intro x hx hne
  rw [List.mem_tails, folded_append] at hx
  obtain ⟨z, hz⟩ := hx
  rcases List.append_eq_append_iff.mp hz with ⟨y, hy, rfl⟩ | ⟨y, -, hy⟩
  · cases y with
    | nil => exact hq _ ((List.mem_tails _ _).mpr (List.suffix_refl _)) hne
    | cons c y =>
      have hmem : c :: y ∈ (folded p).tails := (List.mem_tails _ _).mpr ⟨z, hy.symm⟩
      obtain ⟨hleft, hright⟩ := hp (c :: y) hmem (List.cons_ne_nil c y)
      refine ⟨fun h => hleft ((List.prefix_append _ _).trans h), fun h => ?_⟩
      rcases List.prefix_or_prefix_of_prefix h (List.prefix_append (c :: y) (folded q)) with h' | h'
      · exact hright h'
      · exact hleft h'
  · exact hq x ((List.mem_tails _ _).mpr ⟨y, hy.symm⟩) hne

/-- A text without the first letter of the literal. -/
theorem avoids_of_head {l : PyChar} {rest : PyStr} (hs : folded (py s) = l :: rest)
    (h : ∀ c ∈ p, c.fold ≠ l) : Avoids p s := by
  intro x hx hne
  rw [List.mem_tails] at hx
  obtain ⟨c, x, rfl⟩ := List.exists_cons_of_ne_nil hne
  obtain ⟨d, hd, hdc⟩ := List.mem_map.mp (hx.subset List.mem_cons_self)
  rw [hs]
  refine ⟨fun hstarts => h d hd ?_, fun hstarts => h d hd ?_⟩
  · rw [hdc]
    exact (List.cons_prefix_cons.mp hstarts).1
  · rw [hdc]
    exact (List.cons_prefix_cons.mp hstarts).1.symm

/-- A literal that begins with a visible letter. -/
def startsVisible (s : String) : Bool := (folded (py s)).head?.any fun c => !c.isSpace

theorem startsVisible_cons (h : startsVisible s = true) :
    ∃ l rest, folded (py s) = l :: rest ∧ l.isSpace = false := by
  unfold startsVisible at h
  cases hs : folded (py s) with
  | nil => rw [hs] at h; cases h
  | cons l rest =>
    rw [hs, List.head?_cons, Option.any_some] at h
    exact ⟨l, rest, rfl, by simpa using h⟩

theorem avoids_of_blank (hs : startsVisible s = true) (h : ∀ c ∈ p, c.isSpace = true) : Avoids p s := by
  obtain ⟨l, rest, hcons, hl⟩ := startsVisible_cons hs
  refine avoids_of_head hcons fun c hc heq => ?_
  rw [← heq, PyChar.isSpace_fold, h c hc] at hl
  cases hl

end

/-- A text that is empty or begins with whitespace. -/
def Margin (t : PyStr) : Prop := ∀ c, t.head? = some c → c.isSpace = true

theorem Margin.not_starts {t : PyStr} {s : String} (ht : Margin t) (hs : startsVisible s = true) :
    ¬folded (py s) <+: folded t := by
  obtain ⟨l, rest, hcons, hl⟩ := startsVisible_cons hs
  rw [hcons]
  cases t with
  | nil => exact fun h => by cases List.prefix_nil.mp h
  | cons c t =>
    intro h
    have hc := (List.cons_prefix_cons.mp h).1
    rw [hc, PyChar.isSpace_fold, ht c rfl] at hl
    cases hl

/-! ### What the rules begin with -/

/-- Every word of the pattern begins with one of the literals. -/
def Opens (r : InlinePattern) (ss : List String) : Prop :=
  ∀ w, r.Lang w → ∃ s ∈ ss, folded (py s) <+: folded w

theorem opens_lit (s : String) : Opens (lit s) [s] := by
  intro w hw
  refine ⟨s, List.mem_singleton_self s, ?_⟩
  rw [folded_eq_of_sameLetter (lang_lit hw)]

theorem Opens.cat {r : InlinePattern} {ss : List String} (h : Opens r ss) (rs : List InlinePattern) :
    Opens (.cat (r :: rs)) ss := by
  rintro w ⟨u, v, rfl, hu, -⟩
  obtain ⟨s, hs, hstarts⟩ := h u hu
  rw [folded_append]
  exact ⟨s, hs, hstarts.trans (List.prefix_append _ _)⟩

theorem Opens.opt {r : InlinePattern} {rs : List InlinePattern} {ss ss' : List String} (h : Opens r ss)
    (h' : Opens (.cat rs) ss') : Opens (.cat (.opt r :: rs)) (ss ++ ss') := by
  rintro w ⟨u, v, rfl, hu | rfl, hv⟩
  · obtain ⟨s, hs, hstarts⟩ := h u hu
    rw [folded_append]
    exact ⟨s, List.mem_append_left _ hs, hstarts.trans (List.prefix_append _ _)⟩
  · obtain ⟨s, hs, hstarts⟩ := h' v hv
    exact ⟨s, List.mem_append_right _ hs, hstarts⟩

theorem Opens.either {r r' : InlinePattern} {ss ss' : List String} (h : Opens r ss) (h' : Opens r' ss') :
    Opens (oneOf [r, r']) (ss ++ ss') := by
  rintro w (hw | hw)
  · obtain ⟨s, hs, hstarts⟩ := h w hw
    exact ⟨s, List.mem_append_left _ hs, hstarts⟩
  · obtain ⟨s, hs, hstarts⟩ := h' w hw
    exact ⟨s, List.mem_append_right _ hs, hstarts⟩

/-- A match of the rule begins at the start of the line, with one of the words behind whitespace. -/
def InlineRule.Anchored (rule : InlineRule) (ss : List String) : Prop :=
  ∀ k k', k' ∈ rule.pattern.ends k → k.behind = [] ∧
    ∃ v t, k.ahead = v ++ t ∧ (∀ c ∈ v, c.isSpace = true) ∧ ∃ s ∈ ss, folded (py s) <+: folded t

/-- A match of the rule begins with one of the words. -/
def InlineRule.Floating (rule : InlineRule) (ss : List String) : Prop :=
  ∀ k k', k' ∈ rule.pattern.ends k → ∃ s ∈ ss, folded (py s) <+: folded k.ahead

section

variable {id : RedactionRule} {rs : List InlinePattern} {secret : InlinePattern} {ss : List String}

theorem anchored_of (h : Opens (.cat rs) ss) :
    (InlineRule.of id (.cat (start :: spaces :: rs)) secret).Anchored ss := by
  intro k k' hk'
  obtain ⟨k₁, h₁, -⟩ := List.mem_flatMap.mp hk'
  obtain ⟨k₂, h₂, -⟩ := List.mem_map.mp h₁
  obtain ⟨k₃, h₃, h₄⟩ := List.mem_flatMap.mp h₂
  have hstart : k₃ = k ∧ k.behind = [] := by
    unfold start at h₃
    rw [Regex.ends] at h₃
    split_ifs at h₃ with hnil
    · exact ⟨List.mem_singleton.mp h₃, List.isEmpty_iff.mp hnil⟩
    · cases h₃
  obtain ⟨rfl, hbehind⟩ := hstart
  obtain ⟨w, ⟨v, t, rfl, hv, ht⟩, hahead, -⟩ := Regex.reads_of_mem_ends h₄
  obtain ⟨s, hs, hstarts⟩ := h t ht
  rw [List.append_assoc] at hahead
  refine ⟨hbehind, v, t ++ k₂.ahead, hahead, hv, s, hs, ?_⟩
  rw [folded_append]
  exact hstarts.trans (List.prefix_append _ _)

theorem floating_of {U : UnicodeData} (h : Opens (.cat rs) ss) :
    (InlineRule.of id (.cat (boundary U :: rs)) secret).Floating ss := by
  intro k k' hk'
  obtain ⟨k₁, h₁, -⟩ := List.mem_flatMap.mp hk'
  obtain ⟨k₂, h₂, -⟩ := List.mem_map.mp h₁
  obtain ⟨w, ⟨v, t, rfl, rfl, ht⟩, hahead, -⟩ := Regex.reads_of_mem_ends h₂
  obtain ⟨s, hs, hstarts⟩ := h t ht
  refine ⟨s, hs, ?_⟩
  rw [hahead, List.nil_append, folded_append]
  exact hstarts.trans (List.prefix_append _ _)

end

/-! ### The rules by name -/

section

variable (U : UnicodeData)

abbrev isakmpRule : InlineRule := .of .ciscoIkev1PreSharedKey (isakmpKeyPrefix U)
abbrev preSharedKeyRule : InlineRule := .of .ciscoIkev2PreSharedKey (preSharedKeyPrefix U)
abbrev usernameRule : InlineRule := .of .ciscoUsernameSecret (usernamePrefix U)
abbrev communityRule : InlineRule := .of .ciscoSnmpCommunity communityPrefix
abbrev passwordRule : InlineRule := .of .ciscoPassword (passwordPrefix U) (passwordSecret U)
abbrev neighborRule : InlineRule := .of .ciscoPassword (neighborPrefix U)
abbrev assignedPasswordRule : InlineRule := .of .ciscoPassword (assignedPasswordPrefix U)
abbrev authorizationRule : InlineRule := .of .bearerToken (authorizationPrefix U)
abbrev bearerRule : InlineRule := .of .bearerToken bearerPrefix
abbrev apiKeyRule : InlineRule := .of .apiKey (apiKeyPrefix U)

theorem inlineRules_eq : inlineRules U = [isakmpRule U, preSharedKeyRule U, usernameRule U, communityRule,
    passwordRule U, neighborRule U, assignedPasswordRule U, authorizationRule U, bearerRule, apiKeyRule U] := rfl

theorem isakmpRule_anchored : (isakmpRule U).Anchored ["crypto"] := anchored_of ((opens_lit _).cat _)

theorem preSharedKeyRule_anchored : (preSharedKeyRule U).Anchored ["pre-shared-key"] :=
  anchored_of ((opens_lit _).cat _)

theorem usernameRule_floating : (usernameRule U).Floating ["username"] := floating_of ((opens_lit _).cat _)

theorem communityRule_anchored : communityRule.Anchored ["snmp-server"] := anchored_of ((opens_lit _).cat _)

theorem passwordRule_anchored : (passwordRule U).Anchored ["enable", "password", "secret"] :=
  anchored_of (.opt ((opens_lit "enable").cat _) ((Opens.either (opens_lit "password") (opens_lit "secret")).cat _))

theorem neighborRule_anchored : (neighborRule U).Anchored ["neighbor"] := anchored_of ((opens_lit _).cat _)

theorem assignedPasswordRule_floating : (assignedPasswordRule U).Floating ["password"] :=
  floating_of ((opens_lit _).cat _)

theorem authorizationRule_floating : (authorizationRule U).Floating ["proxy-", "authorization"] :=
  floating_of (.opt (opens_lit "proxy-") ((opens_lit "authorization").cat _))

theorem bearerRule_anchored : bearerRule.Anchored ["bearer"] := anchored_of ((opens_lit _).cat _)

theorem apiKeyRule_floating : (apiKeyRule U).Floating ["x", "api"] :=
  floating_of ((Opens.either ((opens_lit "x").cat _) ((opens_lit "api").cat _)).cat _)

/-- Each rule is anchored or floating, with words that begin visibly. -/
theorem inlineRule_opens {rule : InlineRule} (hrule : rule ∈ inlineRules U) :
    ∃ ss, (rule.Anchored ss ∨ rule.Floating ss) ∧ ∀ s ∈ ss, startsVisible s = true := by
  rw [inlineRules_eq] at hrule
  simp only [List.mem_cons, List.not_mem_nil, or_false] at hrule
  rcases hrule with rfl | rfl | rfl | rfl | rfl | rfl | rfl | rfl | rfl | rfl
  · exact ⟨_, Or.inl (isakmpRule_anchored U), by decide⟩
  · exact ⟨_, Or.inl (preSharedKeyRule_anchored U), by decide⟩
  · exact ⟨_, Or.inr (usernameRule_floating U), by decide⟩
  · exact ⟨_, Or.inl communityRule_anchored, by decide⟩
  · exact ⟨_, Or.inl (passwordRule_anchored U), by decide⟩
  · exact ⟨_, Or.inl (neighborRule_anchored U), by decide⟩
  · exact ⟨_, Or.inr (assignedPasswordRule_floating U), by decide⟩
  · exact ⟨_, Or.inr (authorizationRule_floating U), by decide⟩
  · exact ⟨_, Or.inl bearerRule_anchored, by decide⟩
  · exact ⟨_, Or.inr (apiKeyRule_floating U), by decide⟩

end

/-! ### What the rules see -/

section

variable {U : UnicodeData} {rule : InlineRule}

/-- What the rules see of the text behind: whether the line begins here, and whether a word may begin here. -/
def lineView (U : UnicodeData) (behind : PyStr) : Bool × Bool := (behind.isEmpty, behind.head?.any (isWord U))

theorem isWord_of_isSpace {c : PyChar} (hc : c.isSpace = true) : isWord U c = false := by
  have hunderscore : (c == 95) = false := by
    rw [beq_eq_false_iff_ne]
    rintro rfl
    revert hc
    decide
  rw [isWord, U.not_alnum_of_space c hc, hunderscore]
  rfl

theorem lineView_cons (c : PyChar) (b b' : PyStr) (_ : lineView U b = lineView U b') :
    lineView U (c :: b) = lineView U (c :: b') := rfl

section

variable {P : (PyStr → PyStr → Bool) → Prop} {N : InlinePattern → Prop}

theorem tests_lit (hempty : P fun _ _ => true) (s : String) : (lit s : InlinePattern).Tests P N := by
  refine Regex.tests_cat hempty fun r hr => ?_
  obtain ⟨c, -, rfl⟩ := List.mem_map.mp hr
  exact trivial

/-- The tests of the rules. -/
theorem inlineRule_tests (hempty : P fun _ _ => true) (hstart : P fun behind _ => behind.isEmpty)
    (hboundary : P fun behind ahead => behind.head?.any (isWord U) != ahead.head?.any (isWord U))
    (hmarker : N (lit "<redacted:"))
    (hexcluded : N (.seq (oneOf [lit "encryption", lit "policy"]) (boundary U)))
    (hrule : rule ∈ inlineRules U) : rule.pattern.Tests P N := by
  have hlit : ∀ s, (lit s : InlinePattern).Tests P N := tests_lit hempty
  have hquoted : ∀ q, (quoted q).Tests P N := fun _ => ⟨trivial, trivial, trivial, hempty⟩
  have hsecret : secretPattern.Tests P N := ⟨⟨hmarker, hlit _⟩, hquoted 34, hquoted 39, trivial, trivial⟩
  have hspaces1 : (spaces1 : InlinePattern).Tests P N := ⟨trivial, trivial⟩
  have hnonSpaces1 : (nonSpaces1 : InlinePattern).Tests P N := ⟨trivial, trivial⟩
  have htype : (encryptionType U).Tests P N := ⟨⟨⟨trivial, trivial⟩, hspaces1⟩, hempty⟩
  have hkeyword : passwordOrSecret.Tests P N := ⟨hlit _, hlit _⟩
  have hassignment : assignment.Tests P N := ⟨trivial, ⟨hlit _, hlit _⟩, trivial, hempty⟩
  rw [inlineRules_eq] at hrule
  simp only [List.mem_cons, List.not_mem_nil, or_false] at hrule
  rcases hrule with rfl | rfl | rfl | rfl | rfl | rfl | rfl | rfl | rfl | rfl
  · exact ⟨⟨hstart, trivial, hlit _, hspaces1, hlit _, hspaces1, hlit _, hspaces1, htype, hempty⟩, hsecret⟩
  · exact ⟨⟨hstart, trivial, hlit _, ⟨⟨hspaces1, hlit _, hlit _⟩, hempty⟩, hspaces1, htype, hempty⟩, hsecret⟩
  · exact ⟨⟨hboundary, hlit _, hspaces1, hnonSpaces1, trivial, hboundary, hkeyword, hspaces1, htype, hempty⟩, hsecret⟩
  · exact ⟨⟨hstart, trivial, hlit _, hspaces1, hlit _, hspaces1, hempty⟩, hsecret⟩
  · have halgorithm : (Regex.opt (Regex.cat [spaces1, lit "algorithm-type", spaces1, nonSpaces1]) :
        InlinePattern).Tests P N := ⟨⟨hspaces1, hlit _, hspaces1, hnonSpaces1, hempty⟩, hempty⟩
    exact ⟨⟨hstart, trivial, ⟨⟨hlit _, halgorithm, hspaces1, hempty⟩, hempty⟩, hkeyword, hspaces1, htype, hempty⟩,
      ⟨hexcluded, ⟨hlit _, hlit _⟩, hboundary⟩, hsecret⟩
  · exact ⟨⟨hstart, trivial, hlit _, hspaces1, hnonSpaces1, hspaces1, hlit _, hspaces1, htype, hempty⟩, hsecret⟩
  · exact ⟨⟨hboundary, hlit _, hassignment, hempty⟩, hsecret⟩
  · exact ⟨⟨hboundary, ⟨hlit _, hempty⟩, hlit _, trivial, hlit _, trivial, hlit _, hspaces1, hempty⟩, hsecret⟩
  · exact ⟨⟨hstart, trivial, hlit _, hspaces1, hempty⟩, hsecret⟩
  · exact ⟨⟨hboundary, ⟨⟨hlit _, trivial, hlit _, trivial, hlit _, hempty⟩, hlit _, trivial, hlit _, hempty⟩, hassignment,
      hempty⟩, hsecret⟩

end

theorem inlineRule_sees (hrule : rule ∈ inlineRules U) : rule.pattern.Sees (lineView U) := by
  refine inlineRule_tests (fun _ _ _ _ => rfl) ?_ ?_ trivial trivial hrule
  · exact fun b b' _ h => congrArg Prod.fst h
  · intro b b' ahead h
    show (_ != _) = (_ != _)
    rw [show b.head?.any (isWord U) = b'.head?.any (isWord U) from congrArg Prod.snd h]

theorem lang_lit_visible {s : String} (hs : (py s).all (fun c => !c.isSpace) = true) {w : PyStr}
    (h : (lit s : InlinePattern).Lang w) : ∀ c ∈ w, c.isSpace = false := by
  refine isSpace_of_folded_eq (folded_eq_of_sameLetter (lang_lit h)) fun c hc => ?_
  simpa using List.all_eq_true.mp hs c hc

/-- A visible match does not go into whitespace. -/
theorem Margin.inside {t : PyStr} (ht : Margin t) {r : InlinePattern}
    (hvisible : ∀ w, r.Lang w → ∀ c ∈ w, c.isSpace = false) {k k' : Cursor InlineGroup PyChar}
    (hk' : k' ∈ r.ends (k.before t)) : t.length ≤ k'.ahead.length := by
  obtain ⟨w, hw, hahead, -⟩ := Regex.reads_of_mem_ends hk'
  have hall : k.ahead ++ t = w ++ k'.ahead := hahead
  rcases List.append_eq_append_iff.mp hall with ⟨y, rfl, rfl⟩ | ⟨y, -, hy⟩
  · cases y with
    | nil => simp
    | cons c y =>
      have hc := hvisible _ hw c (List.mem_append_right _ List.mem_cons_self)
      rw [ht c rfl] at hc
      cases hc
  · rw [hy, List.length_append]
    omega

theorem inlineRule_cuts {t : PyStr} (ht : Margin t) (hrule : rule ∈ inlineRules U) : rule.pattern.Cuts t := by
  have hword : ∀ ahead : PyStr, (ahead ++ t).head?.any (isWord U) = ahead.head?.any (isWord U) := by
    intro ahead
    cases ahead with
    | cons c ahead => rfl
    | nil =>
      cases t with
      | nil => rfl
      | cons c t =>
        exact isWord_of_isSpace (ht c rfl)
  have hboundary : ∀ behind ahead : PyStr, (behind.head?.any (isWord U) != (ahead ++ t).head?.any (isWord U)) =
      (behind.head?.any (isWord U) != ahead.head?.any (isWord U)) := by
    intro behind ahead
    rw [hword]
  have hempty : ∀ behind ahead : PyStr, true = true := fun _ _ => rfl
  have hseen : ∀ r : InlinePattern, r.Cuts t → (∀ w, r.Lang w → ∀ c ∈ w, c.isSpace = false) → ∀ k,
      (r.ends (k.before t)).isEmpty = (r.ends k).isEmpty := by
    intro r hr hvisible k
    rw [Regex.ends_before hr fun k' hk' => ht.inside hvisible hk', List.isEmpty_map]
  have hlit : ∀ s, (lit s : InlinePattern).Cuts t := tests_lit fun _ _ => rfl
  refine inlineRule_tests (fun _ _ => rfl) (fun _ _ => rfl) hboundary ?_ ?_ hrule
  · exact hseen _ (hlit _) fun w => lang_lit_visible (by decide)
  · refine hseen _ ⟨⟨hlit _, hlit _⟩, hboundary⟩ ?_
    rintro w ⟨u, v, rfl, hu | hu, rfl⟩
    · rw [List.append_nil]
      exact lang_lit_visible (by decide) hu
    · rw [List.append_nil]
      exact lang_lit_visible (by decide) hu

/-- No rule begins to match at whitespace in the middle of a line. -/
theorem ends_nil_of_margin (hrule : rule ∈ inlineRules U) {behind t : PyStr} (hbehind : behind ≠ [])
    (ht : Margin t) : rule.pattern.ends ⟨behind, t, []⟩ = [] := by
  obtain ⟨ss, hopens, hvisible⟩ := inlineRule_opens U hrule
  refine List.eq_nil_iff_forall_not_mem.mpr fun k hk => ?_
  rcases hopens with hanchored | hfloating
  · exact hbehind (hanchored _ _ hk).1
  · obtain ⟨s, hs, hstarts⟩ := hfloating _ _ hk
    exact ht.not_starts (hvisible s hs) hstarts

end

/-! ### The parts of a line -/

section

variable {U : UnicodeData} {rule : InlineRule}

/-- What a rule makes of a text in the middle of a line. -/
def InlineRule.inside (rule : InlineRule) (text : PyStr) : PyStr × Nat := rule.subnBehind [32] text

/-- No match of the rule that starts in the token goes on into the arguments. -/
def InlineRule.Apart (rule : InlineRule) (token arguments : PyStr) : Prop :=
  ∀ u v, token = u ++ v → v ≠ [] → ∀ k ∈ rule.pattern.ends ⟨u.reverse ++ [32], v ++ arguments, []⟩,
    arguments.length ≤ k.ahead.length

/-- No match of the rule starts in the lead. -/
def InlineRule.Spares (rule : InlineRule) (lead rest : PyStr) : Prop :=
  ∀ u v, lead = u ++ v → v ≠ [] → rule.pattern.ends ⟨u.reverse, v ++ rest, []⟩ = []

/-- A lead ends where no word goes on. -/
def EndsApart (U : UnicodeData) (lead : PyStr) : Prop := ∃ u c, lead = u ++ [c] ∧ isWord U c = false

theorem lineView_of_endsApart {lead : PyStr} (h : EndsApart U lead) : lineView U lead.reverse = lineView U [32] := by
  obtain ⟨u, c, rfl, hc⟩ := h
  have hspace : isWord U 32 = false := isWord_of_isSpace (by decide)
  rw [List.reverse_append]
  show (false, isWord U c) = (false, isWord U 32)
  rw [hc, hspace]

theorem subnBehind_sees (hrule : rule ∈ inlineRules U) {b b' : PyStr} (text : PyStr)
    (h : lineView U b = lineView U b') : rule.subnBehind b text = rule.subnBehind b' text := by
  refine Regex.scan_sees lineView_cons (inlineRule_sees hrule) (fun k k' hk => ?_) 0 text h
  show ((k.groups.lookup .prefixText).getD []) ++ _ = ((k'.groups.lookup .prefixText).getD []) ++ _
  rw [hk]

/-- The rule makes the same of arguments, whatever stands in front of them. -/
theorem subnBehind_margin (hrule : rule ∈ inlineRules U) {b b' t : PyStr} (hb : b ≠ []) (hb' : b' ≠ [])
    (ht : Margin t) : rule.subnBehind b t = rule.subnBehind b' t := by
  cases t with
  | nil => rfl
  | cons c t =>
    have hmiss : ∀ x : PyStr, x ≠ [] → (rule.pattern.ends ⟨x, c :: t, []⟩).head? = none := by
      intro x hx
      rw [ends_nil_of_margin hrule hx ht, List.head?_nil]
    have hrest : rule.subnBehind (c :: b) t = rule.subnBehind (c :: b') t := subnBehind_sees hrule t rfl
    unfold InlineRule.subnBehind at hrest ⊢
    rw [Regex.scan_miss (hmiss b hb), Regex.scan_miss (hmiss b' hb'), hrest]

/-- What a rule spares is copied. -/
theorem subn_spared {lead rest : PyStr} (hspares : rule.Spares lead rest) :
    rule.subn (lead ++ rest) =
      (lead ++ (rule.subnBehind lead.reverse rest).1, (rule.subnBehind lead.reverse rest).2) := by
  have hquiet := @Regex.scan_quiet _ _ rule.pattern (fun k => k.text .prefixText ++ rule.rule.marker) lead rest []
    fun u v huv hv => by rw [List.append_nil]; exact hspares u v huv hv
  rw [List.append_nil] at hquiet
  exact hquiet

/-- The rule for a token in a line: what is spared is copied, and the token and the arguments are rewritten each on
its own. -/
theorem subn_token (hrule : rule ∈ inlineRules U) {lead token arguments : PyStr}
    (hlead : EndsApart U lead) (harguments : Margin arguments) (hspares : rule.Spares lead (token ++ arguments))
    (hapart : rule.Apart token arguments) :
    rule.subn (lead ++ (token ++ arguments)) =
      (lead ++ ((rule.inside token).1 ++ (rule.inside arguments).1),
        (rule.inside token).2 + (rule.inside arguments).2) := by
  obtain ⟨before, secret, hshape⟩ := inlineRule_shaped hrule
  have hsplit : rule.inside (token ++ arguments) =
      ((rule.inside token).1 ++ (rule.subnBehind (token.reverse ++ [32]) arguments).1,
        (rule.inside token).2 + (rule.subnBehind (token.reverse ++ [32]) arguments).2) := by
    refine Regex.scan_append (inlineRule_cuts harguments hrule) hshape.consumes (fun k k' hk => ?_) hapart
    show ((k.groups.lookup .prefixText).getD []) ++ _ = ((k'.groups.lookup .prefixText).getD []) ++ _
    rw [hk]
  have harguments' : rule.subnBehind (token.reverse ++ [32]) arguments = rule.inside arguments :=
    subnBehind_margin hrule (by simp) (by simp) harguments
  have hseen : rule.subnBehind lead.reverse (token ++ arguments) = rule.inside (token ++ arguments) :=
    subnBehind_sees hrule _ (lineView_of_endsApart hlead)
  rw [subn_spared hspares, hseen, hsplit, harguments']

end

/-! ### Tokens -/

/-- A secret without whitespace and quotes that does not begin like a marker, in any letter case. -/
structure SecretToken where
  text : PyStr
  ne_nil : text ≠ []
  visible : ∀ c ∈ text, c.isSpace = false
  unquoted : ∀ c ∈ text, c ≠ 34 ∧ c ≠ 39
  fresh : ¬markerOpening <+: folded text

theorem PyChar.fold_fold (c : PyChar) : c.fold.fold = c.fold := by
  by_cases hupper : 65 ≤ c.val ∧ c.val ≤ 90
  · have hval : (c + 32).val = c.val + 32 := by
      rw [Fin.val_add]
      exact Nat.mod_eq_of_lt (show c.val + 32 < 0x110000 by omega)
    have hfold : c.fold = c + 32 := by simp [fold, hupper]
    rw [hfold, fold, hval, if_neg (by simp; omega), if_neg (by simp; omega), if_neg (by simp; omega),
      if_neg (by simp; omega)]
  · have hfixed : ∀ d : PyChar, d = 0x69 ∨ d = 0x73 ∨ d = 0x6B → d.fold = d := by
      rintro d (rfl | rfl | rfl) <;> decide
    have hcases : c.fold = c ∨ c.fold = 0x69 ∨ c.fold = 0x73 ∨ c.fold = 0x6B := by
      unfold fold
      rw [if_neg (by simpa using hupper)]
      split_ifs <;> simp
    rcases hcases with hsame | hletter
    · rw [hsame, hsame]
    · exact hfixed _ hletter

theorem EndsDelimited.folded {w : PyStr} (h : EndsDelimited w) : EndsDelimited (folded w) := by
  obtain ⟨v, c, rfl, hc⟩ := h
  refine ⟨NetopsCopilot.folded v, c.fold, folded_append v [c], ?_⟩
  rw [PyChar.delimits, PyChar.isSpace_fold, PyChar.fold_fold]
  exact hc

section

variable {U : UnicodeData} {rule : InlineRule}

/-- A rule makes a secret token of a secret token. -/
theorem SecretToken.inside (S : SecretToken) (hrule : rule ∈ inlineRules U) :
    ∃ S' : SecretToken, (rule.inside S.text).1 = S'.text := by
  have hmem := (rewrites_subnBehind hrule [32] S.text).mem
  have hmarker : ∀ c ∈ rule.rule.marker, c.isSpace = false ∧ c ≠ 34 ∧ c ≠ 39 := by
    have hall : (RedactionRule.marker rule.rule).all (fun c => !c.isSpace && c != 34 && c != 39) = true := by
      cases rule.rule <;> decide
    intro c hc
    simpa [and_assoc] using List.all_eq_true.mp hall c hc
  rcases subnBehind_guarded hrule [32] S.text with h | ⟨before, ahead, rest, htext, hbefore, -, hresult, -⟩
  · exact ⟨S, congrArg Prod.fst h⟩
  · refine ⟨⟨(rule.subnBehind [32] S.text).1, ?_, fun c hc => ?_, fun c hc => ?_, fun hopening => S.fresh ?_⟩, rfl⟩
    · rw [hresult]
      exact List.append_ne_nil_of_right_ne_nil _ (List.cons_ne_nil _ _)
    · exact (hmem c hc).elim (S.visible c) fun h => (hmarker c h).1
    · exact (hmem c hc).elim (S.unquoted c) fun h => (hmarker c h).2
    · rw [hresult, folded_append] at hopening
      rw [htext, folded_append]
      exact (hbefore.folded.opening hopening).trans (List.prefix_append _ _)

/-- A rule leaves whitespace alone. -/
theorem inside_blank (hrule : rule ∈ inlineRules U) {t : PyStr} (ht : ∀ c ∈ t, c.isSpace = true) :
    rule.inside t = (t, 0) := by
  have hquiet := @Regex.scan_quiet _ _ rule.pattern (fun k => k.text .prefixText ++ rule.rule.marker) t [] [32]
    fun u v huv hv => by
      rw [List.append_nil]
      refine ends_nil_of_margin hrule (by simp) fun c hc => ht c ?_
      rw [huv]
      exact List.mem_append_right _ (List.mem_of_head? hc)
  rw [List.append_nil] at hquiet
  unfold InlineRule.inside InlineRule.subnBehind
  rw [hquiet]
  simp [Regex.scan]

/-- A match ends in a visible character, so none goes on into whitespace. -/
theorem apart_blank (hrule : rule ∈ inlineRules U) {token arguments : PyStr}
    (h : ∀ c ∈ arguments, c.isSpace = true) : rule.Apart token arguments := by
  obtain ⟨before, secret, hshape⟩ := inlineRule_shaped hrule
  intro u v _ hv k hk
  obtain ⟨x, y, hreads, -, -, ⟨z, c, rfl, hc⟩⟩ := hshape.reads_of_mem_ends hk
  have hahead : v ++ arguments = (x ++ (z ++ [c])) ++ k.ahead := hreads.1
  rcases List.append_eq_append_iff.mp hahead with ⟨w, hw, harguments⟩ | ⟨w, -, hw⟩
  · rcases List.eq_nil_or_concat w with rfl | ⟨w, d, rfl⟩
    · rw [harguments, List.nil_append]
    · rw [List.concat_eq_append, ← List.append_assoc, ← List.append_assoc] at hw
      obtain ⟨-, hd⟩ := List.append_inj' hw rfl
      have hmem : d ∈ arguments := by
        rw [harguments, List.concat_eq_append]
        simp
      have hspace := h d hmem
      rw [← List.head_eq_of_cons_eq hd, hc] at hspace
      cases hspace
  · rw [hw, List.length_append]
    omega

/-- A rule whose matches have whitespace in them finds none in a token. -/
theorem inside_visible (hspace : ∀ w, rule.pattern.Lang w → ∃ c ∈ w, c.isSpace = true) {t : PyStr}
    (ht : ∀ c ∈ t, c.isSpace = false) : rule.inside t = (t, 0) := by
  have hquiet := @Regex.scan_quiet _ _ rule.pattern (fun k => k.text .prefixText ++ rule.rule.marker) t [] [32]
    fun u v huv hv => by
      refine List.eq_nil_iff_forall_not_mem.mpr fun k hk => ?_
      obtain ⟨w, hw, hahead, -⟩ := Regex.reads_of_mem_ends hk
      obtain ⟨c, hc, hcspace⟩ := hspace w hw
      rw [List.append_nil] at hahead
      have hmem : c ∈ t := by
        rw [huv]
        refine List.mem_append_right _ ?_
        rw [show v = w ++ k.ahead from hahead]
        exact List.mem_append_left _ hc
      rw [ht c hmem] at hcspace
      cases hcspace
  rw [List.append_nil] at hquiet
  unfold InlineRule.inside InlineRule.subnBehind
  rw [hquiet]
  simp [Regex.scan]

theorem space_of_cat {rs : List InlinePattern} (hr : spaces1 ∈ rs) {w : PyStr} (h : (Regex.cat rs).Lang w) :
    ∃ c ∈ w, c.isSpace = true := by
  induction rs generalizing w with
  | nil => cases hr
  | cons r rs ih =>
    obtain ⟨u, v, rfl, hu, hv⟩ := h
    rcases List.mem_cons.mp hr with rfl | hr
    · obtain ⟨x, y, rfl, ⟨c, rfl, hc⟩, -⟩ := hu
      exact ⟨c, by simp, hc⟩
    · obtain ⟨c, hc, hspace⟩ := ih hr hv
      exact ⟨c, List.mem_append_right _ hc, hspace⟩

theorem space_of_pattern {id : RedactionRule} {rs : List InlinePattern} {secret : InlinePattern}
    (hr : spaces1 ∈ rs) : ∀ w, (InlineRule.of id (.cat rs) secret).pattern.Lang w → ∃ c ∈ w, c.isSpace = true := by
  rintro w ⟨u, v, rfl, hu, -⟩
  obtain ⟨c, hc, hspace⟩ := space_of_cat hr hu
  exact ⟨c, List.mem_append_left _ hc, hspace⟩

/-- The rules whose matches have whitespace in them. -/
def spacedRules (U : UnicodeData) : List InlineRule :=
  [isakmpRule U, preSharedKeyRule U, usernameRule U, communityRule, passwordRule U, neighborRule U,
    authorizationRule U, bearerRule]

theorem inside_spaced (hrule : rule ∈ spacedRules U) {t : PyStr} (ht : ∀ c ∈ t, c.isSpace = false) :
    rule.inside t = (t, 0) := by
  simp only [spacedRules, List.mem_cons, List.not_mem_nil, or_false] at hrule
  rcases hrule with rfl | rfl | rfl | rfl | rfl | rfl | rfl | rfl
  · exact inside_visible (space_of_pattern (by simp)) ht
  · exact inside_visible (space_of_pattern (by simp)) ht
  · exact inside_visible (space_of_pattern (by simp)) ht
  · exact inside_visible (space_of_pattern (by simp)) ht
  · exact inside_visible (space_of_pattern (by simp)) ht
  · exact inside_visible (space_of_pattern (by simp)) ht
  · exact inside_visible (space_of_pattern (by simp)) ht
  · exact inside_visible (space_of_pattern (by simp)) ht

theorem margin_inside (hrule : rule ∈ inlineRules U) {t : PyStr} (ht : Margin t) : Margin (rule.inside t).1 := by
  cases t with
  | nil => exact ht
  | cons c t =>
    have hmiss : (rule.pattern.ends ⟨[32], c :: t, []⟩).head? = none := by
      rw [ends_nil_of_margin hrule (by simp) ht, List.head?_nil]
    unfold InlineRule.inside InlineRule.subnBehind
    rw [Regex.scan_miss hmiss]
    intro d hd
    exact ht d hd

end

/-! ### The rules one after another -/

/-- What the rules make of a text in the middle of a line. -/
def insideAll (rules : List InlineRule) (text : PyStr) : PyStr :=
  rules.foldl (fun t rule => (rule.inside t).1) text

/-- No match of the rules, one after another, goes from the token into the arguments. -/
def Uncrossed : List InlineRule → PyStr → PyStr → Prop
  | [], _, _ => True
  | rule :: rules, token, arguments =>
    rule.Apart token arguments ∧ Uncrossed rules (rule.inside token).1 (rule.inside arguments).1

/-- What is recorded for a token and its arguments. -/
def insideRecords : List InlineRule → PyStr → PyStr → List (RedactionRule × Nat)
  | [], _, _ => []
  | rule :: rules, token, arguments =>
    let replacements := (rule.inside token).2 + (rule.inside arguments).2
    (if replacements = 0 then [] else [(rule.rule, replacements)]) ++
      insideRecords rules (rule.inside token).1 (rule.inside arguments).1

section

variable {U : UnicodeData} {rules : List InlineRule}

/-- The rules for a token in a line, where they spare the lead in front of what `A` says of the arguments. -/
theorem foldl_applyRule_token (hrules : ∀ rule ∈ rules, rule ∈ inlineRules U) {lead : PyStr}
    (hlead : EndsApart U lead) {A : PyStr → Prop} (hmargin : ∀ t, A t → Margin t)
    (hkept : ∀ rule ∈ rules, ∀ t, A t → A (rule.inside t).1)
    (hspares : ∀ rule ∈ rules, ∀ (S : SecretToken) (t : PyStr), A t → rule.Spares lead (S.text ++ t))
    (S : SecretToken) {arguments : PyStr} (ha : A arguments) (huncrossed : Uncrossed rules S.text arguments)
    (records : List (RedactionRule × Nat)) :
    rules.foldl applyRule ⟨lead ++ (S.text ++ arguments), records⟩ =
      ⟨lead ++ (insideAll rules S.text ++ insideAll rules arguments),
        records ++ insideRecords rules S.text arguments⟩ := by
  induction rules generalizing S arguments records with
  | nil => simp [insideAll, insideRecords]
  | cons rule rules ih =>
    obtain ⟨hrule, hrules⟩ := List.forall_mem_cons.mp hrules
    obtain ⟨hkeep, hkept⟩ := List.forall_mem_cons.mp hkept
    obtain ⟨hspare, hspares⟩ := List.forall_mem_cons.mp hspares
    obtain ⟨hapart, huncrossed⟩ := huncrossed
    obtain ⟨S', hS'⟩ := S.inside hrule
    have hone := subn_token hrule hlead (hmargin _ ha) (hspare S arguments ha) hapart
    have hstep : applyRule ⟨lead ++ (S.text ++ arguments), records⟩ rule =
        ⟨lead ++ (S'.text ++ (rule.inside arguments).1), records ++
          if (rule.inside S.text).2 + (rule.inside arguments).2 = 0 then []
          else [(rule.rule, (rule.inside S.text).2 + (rule.inside arguments).2)]⟩ := by
      unfold applyRule
      rw [hone, hS']
      dsimp only
      split_ifs
      · rw [List.append_nil]
      · rfl
    rw [hS'] at huncrossed
    rw [List.foldl_cons, hstep, ih hrules hkept hspares S' (hkeep _ ha) huncrossed, List.append_assoc]
    show _ = RedactedLine.mk (lead ++ (insideAll rules (rule.inside S.text).1 ++ _)) _
    rw [hS', insideRecords, hS']
    rfl

theorem SecretToken.insideAll (S : SecretToken) (hrules : ∀ rule ∈ rules, rule ∈ inlineRules U) :
    ∃ S' : SecretToken, NetopsCopilot.insideAll rules S.text = S'.text := by
  induction rules generalizing S with
  | nil => exact ⟨S, rfl⟩
  | cons rule rules ih =>
    obtain ⟨hrule, hrules⟩ := List.forall_mem_cons.mp hrules
    obtain ⟨S', hS'⟩ := S.inside hrule
    obtain ⟨S'', hS''⟩ := ih S' hrules
    refine ⟨S'', ?_⟩
    show NetopsCopilot.insideAll rules (rule.inside S.text).1 = _
    rw [hS', hS'']

theorem insideAll_kept {A : PyStr → Prop} (hkept : ∀ rule ∈ rules, ∀ t, A t → A (rule.inside t).1) {t : PyStr}
    (ht : A t) : A (insideAll rules t) := by
  induction rules generalizing t with
  | nil => exact ht
  | cons rule rules ih =>
    obtain ⟨hkeep, hkept⟩ := List.forall_mem_cons.mp hkept
    exact ih hkept (hkeep t ht)

theorem insideRecords_append (rules rules' : List InlineRule) (token arguments : PyStr) :
    insideRecords (rules ++ rules') token arguments =
      insideRecords rules token arguments ++ insideRecords rules' (insideAll rules token) (insideAll rules arguments) := by
  induction rules generalizing token arguments with
  | nil => rfl
  | cons rule rules ih =>
    rw [List.cons_append, insideRecords, insideRecords, ih, List.append_assoc]
    rfl

theorem insideAll_spaced (hrules : ∀ rule ∈ rules, rule ∈ spacedRules U) {t : PyStr}
    (ht : ∀ c ∈ t, c.isSpace = false) : insideAll rules t = t := by
  induction rules with
  | nil => rfl
  | cons rule rules ih =>
    obtain ⟨hrule, hrules⟩ := List.forall_mem_cons.mp hrules
    show insideAll rules (rule.inside t).1 = t
    rw [inside_spaced hrule ht, ih hrules]

/-- Rules that find nothing in a token record the same for each token. -/
theorem insideRecords_spaced (hrules : ∀ rule ∈ rules, rule ∈ spacedRules U) {t t' : PyStr}
    (ht : ∀ c ∈ t, c.isSpace = false) (ht' : ∀ c ∈ t', c.isSpace = false) (arguments : PyStr) :
    insideRecords rules t arguments = insideRecords rules t' arguments := by
  induction rules generalizing arguments with
  | nil => rfl
  | cons rule rules ih =>
    obtain ⟨hrule, hrules⟩ := List.forall_mem_cons.mp hrules
    rw [insideRecords, insideRecords, inside_spaced hrule ht, inside_spaced hrule ht', ih hrules]

/-- In front of whitespace nothing is crossed. -/
theorem uncrossed_blank (hrules : ∀ rule ∈ rules, rule ∈ inlineRules U) {token arguments : PyStr}
    (h : ∀ c ∈ arguments, c.isSpace = true) : Uncrossed rules token arguments := by
  induction rules generalizing token with
  | nil => trivial
  | cons rule rules ih =>
    obtain ⟨hrule, hrules⟩ := List.forall_mem_cons.mp hrules
    refine ⟨apart_blank hrule h, ?_⟩
    rw [inside_blank hrule h]
    exact ih hrules

end

end NetopsCopilot
