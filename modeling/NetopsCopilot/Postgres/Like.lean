import Mathlib.Data.List.Infix
import NetopsCopilot.Python.Text

/-!
# `LIKE` patterns

In a pattern of PostgreSQL `%` stands for any text and `_` for one character, and the backslash takes the character
behind it literally. `ILIKE` compares the lower cases of text and pattern, character by character as the collations of
libc have them.
-/

namespace NetopsCopilot

/-- What a place of a pattern matches. -/
inductive LikeItem where
  | any
  | one
  | char (c : PyChar)
deriving DecidableEq

/-- The characters with a meaning in a pattern: `%`, `_` and the backslash. -/
def isLikeSpecial (c : PyChar) : Bool := c == 37 || c == 95 || c == 92

def likeItem (c : PyChar) : LikeItem := if c = 37 then .any else if c = 95 then .one else .char c

/-- The items of a pattern. A pattern that ends in its escape character is an error. -/
def likeItems : PyStr → Option (List LikeItem)
  | [] => some []
  | [c] => if c = 92 then none else some [likeItem c]
  | c :: d :: p =>
    if c = 92 then (likeItems p).map (.char d :: ·) else (likeItems (d :: p)).map (likeItem c :: ·)

def matchItems : List LikeItem → PyStr → Bool
  | [], t => t.isEmpty
  | .any :: items, t => t.tails.any (matchItems items)
  | .one :: items, t => !t.isEmpty && matchItems items t.tail
  | .char c :: items, t => t.head? == some c && matchItems items t.tail

/-- `lower` of the collation. -/
structure Collation where
  lower : PyChar → PyChar
  ascii : ∀ c : PyChar, c.val < 128 → lower c = if 65 ≤ c.val ∧ c.val ≤ 90 then c + 32 else c
  special : ∀ c : PyChar, isLikeSpecial (lower c) = true → lower c = c

/-- The collation `C`. -/
def Collation.c : Collation where
  lower c := if 65 ≤ c.val ∧ c.val ≤ 90 then c + 32 else c
  ascii _ _ := rfl
  special c h := by
    split_ifs at h ⊢ with hc
    · simp only [isLikeSpecial, Bool.or_eq_true, beq_iff_eq, Fin.ext_iff, Fin.val_add] at h
      have hvals : (37 : PyChar).val = 37 ∧ (95 : PyChar).val = 95 ∧ (92 : PyChar).val = 92 ∧ (32 : PyChar).val = 32 :=
        ⟨rfl, rfl, rfl, rfl⟩
      omega
    · rfl

/-- `text ILIKE pattern`; no pattern of the program is an error. -/
def ilike (collation : Collation) (text pattern : PyStr) : Bool :=
  (likeItems (pattern.map collation.lower)).any fun items => matchItems items (text.map collation.lower)

/-- `'%' || query || '%'`. -/
def containsPattern (query : PyStr) : PyStr := 37 :: (query ++ [37])

def sampleChar (c : PyChar) : PyChar := if c = 37 ∨ c = 95 then 120 else c

/-- A text that the pattern of a query matches, a character for each of its items. -/
def likeSample : PyStr → PyStr
  | [] => []
  | [c] => if c = 92 then [37] else [sampleChar c]
  | c :: d :: p => if c = 92 then d :: likeSample p else sampleChar c :: likeSample (d :: p)

/-! ### Matching -/

section

variable {c : PyChar} {q t : PyStr} {items : List LikeItem}

theorem matchItems_any : matchItems (.any :: items) t = true ↔ ∃ s, s <:+ t ∧ matchItems items s = true := by
  simp [matchItems, List.any_eq_true]

theorem matchItems_char : matchItems (.char c :: items) t = true ↔ ∃ s, t = c :: s ∧ matchItems items s = true := by
  rw [matchItems, Bool.and_eq_true, beq_iff_eq]
  cases t with
  | nil => exact iff_of_false (fun h => nomatch h.1) fun ⟨_, h, _⟩ => nomatch h
  | cons d t =>
    constructor
    · rintro ⟨hd, hmatch⟩
      exact ⟨t, by rw [Option.some.inj hd], hmatch⟩
    · rintro ⟨s, hs, hmatch⟩
      cases hs
      exact ⟨rfl, hmatch⟩

theorem likeItem_of_plain (hc : isLikeSpecial c = false) : likeItem c = .char c := by
  simp only [isLikeSpecial, Bool.or_eq_false_iff, beq_eq_false_iff_ne] at hc
  unfold likeItem
  rw [if_neg hc.1.1, if_neg hc.1.2]

/-- Without special characters a query stands for itself. -/
theorem likeItems_plain (hq : ∀ c ∈ q, isLikeSpecial c = false) :
    likeItems (q ++ [37]) = some (q.map LikeItem.char ++ [.any]) := by
  induction q with
  | nil => rfl
  | cons c q ih =>
    obtain ⟨hc, hq⟩ := List.forall_mem_cons.mp hq
    have hescape : c ≠ 92 := by
      rintro rfl
      cases hc
    have hrest := ih hq
    cases q with
    | nil =>
      show (if c = 92 then _ else _) = _
      rw [if_neg hescape, likeItem_of_plain hc]
      rfl
    | cons d q =>
      show (if c = 92 then _ else (likeItems (d :: q ++ [37])).map (likeItem c :: ·)) = _
      rw [if_neg hescape, hrest, likeItem_of_plain hc]
      rfl

theorem matchItems_initial : matchItems (q.map LikeItem.char ++ [.any]) t = true ↔ q <+: t := by
  induction q generalizing t with
  | nil =>
    refine iff_of_true ?_ List.nil_prefix
    exact matchItems_any.mpr ⟨[], List.nil_suffix, rfl⟩
  | cons c q ih =>
    rw [List.map_cons, List.cons_append, matchItems_char]
    cases t with
    | nil => simp
    | cons d t =>
      rw [List.cons_prefix_cons]
      constructor
      · rintro ⟨s, hs, hmatch⟩
        cases hs
        exact ⟨rfl, ih.mp hmatch⟩
      · rintro ⟨rfl, hhead⟩
        exact ⟨t, rfl, ih.mpr hhead⟩

/-- The pattern of such a query matches what contains the query. -/
theorem matchItems_inside : matchItems (.any :: (q.map LikeItem.char ++ [.any])) t = true ↔ q <:+: t := by
  rw [matchItems_any, List.infix_iff_prefix_suffix]
  constructor
  · rintro ⟨s, hsuffix, hmatch⟩
    exact ⟨s, matchItems_initial.mp hmatch, hsuffix⟩
  · rintro ⟨s, hhead, hsuffix⟩
    exact ⟨s, hsuffix, matchItems_initial.mpr hhead⟩

/-! ### The sample of a query -/

theorem matchItems_item {items : List LikeItem} (h : matchItems items t = true) :
    matchItems (likeItem c :: items) (sampleChar c :: t) = true := by
  unfold likeItem sampleChar
  by_cases hany : c = 37
  · rw [if_pos hany]
    exact matchItems_any.mpr ⟨t, List.suffix_cons _ _, h⟩
  · rw [if_neg hany]
    by_cases hone : c = 95
    · rw [if_pos hone]
      exact h
    · rw [if_neg hone, if_neg (not_or.mpr ⟨hany, hone⟩)]
      exact matchItems_char.mpr ⟨t, rfl, h⟩

/-- No query makes an erroneous pattern, and its sample is matched: a lone escape character takes the `%` behind it
literally. -/
theorem likeItems_sample (q : PyStr) :
    ∃ items, likeItems (q ++ [37]) = some items ∧ matchItems items (likeSample q) = true := by
  induction q using likeSample.induct with
  | case1 => exact ⟨[.any], rfl, rfl⟩
  | case2 => exact ⟨[.char 37], rfl, rfl⟩
  | case3 c hc =>
    refine ⟨[likeItem c, .any], ?_, ?_⟩
    · show (if c = 92 then _ else (some [LikeItem.any]).map (likeItem c :: ·)) = _
      rw [if_neg hc]
      rfl
    · rw [likeSample, if_neg hc]
      exact matchItems_item rfl
  | case4 d p ih =>
    obtain ⟨items, hitems, hmatch⟩ := ih
    refine ⟨.char d :: items, ?_, ?_⟩
    · show (likeItems (p ++ [37])).map (.char d :: ·) = _
      rw [hitems]
      rfl
    · exact matchItems_char.mpr ⟨_, rfl, hmatch⟩
  | case5 c d p hc ih =>
    obtain ⟨items, hitems, hmatch⟩ := ih
    refine ⟨likeItem c :: items, ?_, ?_⟩
    · show (if c = 92 then _ else (likeItems (d :: p ++ [37])).map (likeItem c :: ·)) = _
      rw [if_neg hc, hitems]
      rfl
    · rw [likeSample, if_neg hc]
      exact matchItems_item hmatch

theorem length_likeSample_le (q : PyStr) : (likeSample q).length ≤ q.length := by
  induction q using likeSample.induct with
  | case1 => exact le_rfl
  | case2 => exact le_rfl
  | case3 c hc =>
    rw [likeSample, if_neg hc]
    exact le_rfl
  | case4 d p ih =>
    rw [likeSample, if_pos rfl]
    simp only [List.length_cons]
    omega
  | case5 c d p hc ih =>
    rw [likeSample, if_neg hc]
    simp only [List.length_cons] at ih ⊢
    omega

theorem isLikeSpecial_of_sampleChar (hc : c ≠ 92) (h : sampleChar c = c) : isLikeSpecial c = false := by
  unfold sampleChar at h
  split_ifs at h with hspecial
  · rw [← h] at hspecial
    exact absurd hspecial (by decide)
  · rw [not_or] at hspecial
    simp [isLikeSpecial, hc, hspecial]

/-- A query is its own sample only if it has no special characters. -/
theorem isLikeSpecial_of_likeSample (h : likeSample q = q) : ∀ c ∈ q, isLikeSpecial c = false := by
  induction q using likeSample.induct with
  | case1 => exact fun c hc => nomatch hc
  | case2 => exact absurd h (by decide)
  | case3 c hc =>
    rw [likeSample, if_neg hc, List.singleton_inj] at h
    exact List.forall_mem_singleton.mpr (isLikeSpecial_of_sampleChar hc h)
  | case4 d p ih =>
    -- an escaped pair is one character shorter in the sample
    have hlength := congrArg List.length h
    have hle := length_likeSample_le p
    rw [likeSample, if_pos rfl] at hlength
    simp only [List.length_cons] at hlength
    omega
  | case5 c d p hc ih =>
    rw [likeSample, if_neg hc] at h
    obtain ⟨hhead, htail⟩ := List.cons.inj h
    exact List.forall_mem_cons.mpr ⟨isLikeSpecial_of_sampleChar hc hhead, ih htail⟩

/-- A query with a special character does not occur in its sample. -/
theorem not_infix_likeSample (hc : c ∈ q) (hspecial : isLikeSpecial c = true) : ¬q <:+: likeSample q := by
  intro h
  have hself : q = likeSample q := h.eq_of_length (le_antisymm h.length_le (length_likeSample_le q))
  have hplain := isLikeSpecial_of_likeSample hself.symm c hc
  rw [hspecial] at hplain
  cases hplain

/-- The sample keeps the last character of the query, or has one that is no space in its place. -/
theorem getLast?_mem_likeSample (hlast : q.getLast? = some c) :
    c ∈ likeSample q ∨ (120 : PyChar) ∈ likeSample q ∨ (37 : PyChar) ∈ likeSample q := by
  induction q using likeSample.induct with
  | case1 => cases hlast
  | case2 => exact Or.inr (Or.inr List.mem_cons_self)
  | case3 b hb =>
    obtain rfl : b = c := Option.some.inj hlast
    rw [likeSample, if_neg hb]
    unfold sampleChar
    split_ifs
    · exact Or.inr (Or.inl List.mem_cons_self)
    · exact Or.inl List.mem_cons_self
  | case4 d p ih =>
    rw [likeSample, if_pos rfl]
    cases p with
    | nil =>
      obtain rfl : d = c := Option.some.inj hlast
      exact Or.inl List.mem_cons_self
    | cons e p =>
      have htail := ih (by simpa using hlast)
      simp only [List.mem_cons]
      tauto
  | case5 b d p hb ih =>
    have htail := ih (by simpa using hlast)
    rw [likeSample, if_neg hb]
    simp only [List.mem_cons]
    tauto

end

/-! ### Letter case -/

section

variable {collation : Collation} {c : PyChar} {q text : PyStr}

theorem lower_of_special (hc : isLikeSpecial c = true) : collation.lower c = c := by
  have hval : c.val < 128 ∧ ¬(65 ≤ c.val ∧ c.val ≤ 90) := by
    simp only [isLikeSpecial, Bool.or_eq_true, beq_iff_eq] at hc
    rcases hc with (rfl | rfl) | rfl <;> decide
  rw [collation.ascii c hval.1, if_neg hval.2]

theorem isLikeSpecial_lower : isLikeSpecial (collation.lower c) = isLikeSpecial c := by
  by_cases hc : isLikeSpecial c = true
  · rw [lower_of_special hc]
  · by_cases hlower : isLikeSpecial (collation.lower c) = true
    · rw [collation.special c hlower]
    · rw [Bool.not_eq_true] at hc hlower
      rw [hc, hlower]

theorem lower_eq_iff {d : PyChar} (hd : isLikeSpecial d = true) : collation.lower c = d ↔ c = d := by
  constructor
  · rintro rfl
    exact (collation.special c hd).symm
  · rintro rfl
    exact lower_of_special hd

theorem lower_sampleChar : collation.lower (sampleChar c) = sampleChar (collation.lower c) := by
  have hwild : (collation.lower c = 37 ∨ collation.lower c = 95) ↔ (c = 37 ∨ c = 95) :=
    or_congr (lower_eq_iff rfl) (lower_eq_iff rfl)
  unfold sampleChar
  by_cases hc : c = 37 ∨ c = 95
  · rw [if_pos hc, if_pos (hwild.mpr hc), collation.ascii 120 (by decide)]
    rfl
  · rw [if_neg hc, if_neg (mt hwild.mp hc)]

theorem map_likeSample (q : PyStr) : (likeSample q).map collation.lower = likeSample (q.map collation.lower) := by
  have hescape : ∀ c, collation.lower c = 92 ↔ c = 92 := fun c => lower_eq_iff rfl
  have hpercent : collation.lower 37 = 37 := lower_of_special rfl
  induction q using likeSample.induct with
  | case1 => rfl
  | case2 =>
    show [collation.lower 37] = likeSample [collation.lower 92]
    rw [likeSample, if_pos ((hescape 92).mpr rfl), hpercent]
  | case3 c hc =>
    show _ = likeSample [collation.lower c]
    rw [likeSample, likeSample, if_neg hc, if_neg (mt (hescape c).mp hc), ← lower_sampleChar]
    rfl
  | case4 d p ih =>
    show _ = likeSample (collation.lower 92 :: collation.lower d :: p.map collation.lower)
    rw [likeSample, likeSample, if_pos rfl, if_pos ((hescape 92).mpr rfl), ← ih]
    rfl
  | case5 c d p hc ih =>
    show _ = likeSample (collation.lower c :: collation.lower d :: p.map collation.lower)
    rw [likeSample, likeSample, if_neg hc, if_neg (mt (hescape c).mp hc), ← lower_sampleChar, List.map_cons, ih]
    rfl

/-! ### The pattern of a query -/

/-- A query occurs in a text, letter case aside. -/
def Collation.Contains (collation : Collation) (text query : PyStr) : Prop :=
  query.map collation.lower <:+: text.map collation.lower

instance (collation : Collation) (text query : PyStr) : Decidable (collation.Contains text query) :=
  inferInstanceAs (Decidable (query.map collation.lower <:+: text.map collation.lower))

theorem map_containsPattern :
    (containsPattern q).map collation.lower = containsPattern (q.map collation.lower) := by
  have hpercent : collation.lower 37 = 37 := lower_of_special rfl
  simp [containsPattern, hpercent]

theorem likeItems_containsPattern {items : List LikeItem} (h : likeItems (q ++ [37]) = some items) :
    likeItems (containsPattern q) = some (.any :: items) := by
  unfold containsPattern
  obtain ⟨c, p, hp⟩ : ∃ c p, q ++ [37] = c :: p := by
    cases q <;> exact ⟨_, _, rfl⟩
  rw [hp] at h ⊢
  show (likeItems (c :: p)).map (LikeItem.any :: ·) = _
  rw [h]
  rfl

/-- **A query without special characters is looked for literally.** -/
theorem ilike_iff_contains (hq : ∀ c ∈ q, isLikeSpecial c = false) :
    ilike collation text (containsPattern q) = true ↔ collation.Contains text q := by
  have hplain : ∀ c ∈ q.map collation.lower, isLikeSpecial c = false := by
    intro c hc
    obtain ⟨d, hd, rfl⟩ := List.mem_map.mp hc
    rw [isLikeSpecial_lower]
    exact hq d hd
  unfold ilike Collation.Contains
  rw [map_containsPattern, likeItems_containsPattern (likeItems_plain hplain), Option.any_some, matchItems_inside]

/-- **A query with a special character matches a text that does not contain it.** -/
theorem ilike_likeSample (hc : c ∈ q) (hspecial : isLikeSpecial c = true) :
    ilike collation (likeSample q) (containsPattern q) = true ∧ ¬collation.Contains (likeSample q) q := by
  constructor
  · obtain ⟨items, hitems, hmatch⟩ := likeItems_sample (q.map collation.lower)
    unfold ilike
    rw [map_containsPattern, likeItems_containsPattern hitems, Option.any_some, map_likeSample]
    exact matchItems_any.mpr ⟨_, List.suffix_rfl, hmatch⟩
  · unfold Collation.Contains
    rw [map_likeSample]
    exact not_infix_likeSample (List.mem_map_of_mem hc) (isLikeSpecial_lower.trans hspecial)

end

end NetopsCopilot
