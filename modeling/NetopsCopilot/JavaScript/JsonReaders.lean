import NetopsCopilot.JavaScript.Json
import NetopsCopilot.Python.JsonText

/-!
# Two readers of JSON (`JSON.parse`, `json.loads`)

The web application reads and writes JSON with JavaScript, the API with Python. Python's reader takes three constants
that are no JSON, joins escaped surrogates by itself and refuses the longest integers. What JavaScript reads is what
Python reads (`loadsText_parseJson`), so what the one has checked is what the other sees; and what JavaScript writes,
Python reads as the same value, whose members may be in another order (`loadsText_stringify`, `same_ordered`).
-/

namespace NetopsCopilot

/-! ### One value in both languages -/

/-- A character of a fraction or an exponent, and of no integer. -/
def isNumeralMark (c : PyChar) : Bool := c == 46 || c == 101 || c == 69

section

variable (floatOf : PyStr → PyFloat)

/-- The number of a numeral: an integer, unless it has a fraction or an exponent. -/
def numeralJson (text : PyStr) : Json :=
  if text.any isNumeralMark then .float (floatOf text) else .int (signedValue text)

def JsNum.toJson : JsNum → Json
  | .int n => .int n.val
  | .other text => numeralJson floatOf text

mutual
/-- The Python value of a JavaScript value whose numbers are known by their numerals. -/
def JsValue.toJson : JsValue → Json
  | .null => .null
  | .bool b => .bool b
  | .num n => n.toJson floatOf
  | .str t => .str (codePoints t)
  | .arr items => .arr (itemsToJson items)
  | .obj members => .obj (membersToJson members)
def itemsToJson : List JsValue → List Json
  | [] => []
  | v :: items => v.toJson :: itemsToJson items
def membersToJson : List (JsStr × JsValue) → List (PyStr × Json)
  | [] => []
  | (key, v) :: members => (codePoints key, v.toJson) :: membersToJson members
end

/-- The value of a member. -/
def memberToJson (m : JsStr × JsValue) : PyStr × Json := (codePoints m.1, m.2.toJson floatOf)

end

section

variable {floatOf : PyStr → PyFloat} {s t : PyStr}

theorem itemsToJson_eq (items : List JsValue) : itemsToJson floatOf items = items.map (·.toJson floatOf) := by
  induction items with
  | nil => rfl
  | cons v items ih => rw [itemsToJson, ih, List.map_cons]

theorem membersToJson_eq (members : List (JsStr × JsValue)) :
    membersToJson floatOf members = members.map (memberToJson floatOf) := by
  induction members with
  | nil => rfl
  | cons m members ih =>
    rw [membersToJson, ih, List.map_cons]
    rfl

/-- Keys that differ as strings differ as code points. -/
theorem codePoints_injective {k k' : JsStr} (h : codePoints k = codePoints k') : k = k' := by
  rw [← codePoints_units k, h, codePoints_units]

theorem setMember_toJson (members : List (JsStr × JsValue)) (key : JsStr) (v : JsValue) :
    setMember (members.map (memberToJson floatOf)) (codePoints key) (v.toJson floatOf) =
      (setProperty members key v).map (memberToJson floatOf) := by
  have hkey : ∀ m : JsStr × JsValue, ((memberToJson floatOf m).1 == codePoints key) = (m.1 == key) := by
    intro m
    rw [Bool.eq_iff_iff, beq_iff_eq, beq_iff_eq]
    exact ⟨codePoints_injective, fun h => congrArg codePoints h⟩
  unfold setMember setProperty
  rw [List.any_map]
  simp only [Function.comp_def, hkey]
  split_ifs
  · rw [List.map_map, List.map_map]
    refine List.map_congr_left fun m _ => ?_
    simp only [Function.comp_apply, hkey]
    split_ifs <;> rfl
  · rw [List.map_append]
    rfl

/-! ### Strings -/

/-- Text that comes from UTF-8. -/
def Decoded (s : PyStr) : Prop := ∀ c ∈ s, Utf8.IsScalar c

theorem Decoded.suffix (hs : Decoded s) (h : t <:+ s) : Decoded t := fun c hc => hs c (h.subset hc)

theorem skipSpace_suffix (s : PyStr) : skipSpace s <:+ s := List.dropWhile_suffix _

/-- A character that was not written as a code is a scalar value, and a code is one unit. -/
def ReadChar (c : PyChar × Bool) : Prop := if c.2 then c.1.val < 0x10000 else Utf8.IsScalar c.1

theorem hexDigit_lt {c : PyChar} {d : Nat} (h : hexDigit? c = some d) : d < 16 := by
  unfold hexDigit? at h
  split_ifs at h <;> · cases h; omega

theorem isScalar_simpleEscape {c d : PyChar} (h : simpleEscape? c = some d) : Utf8.IsScalar d := by
  unfold simpleEscape? at h
  unfold Utf8.IsScalar
  split_ifs at h <;> · cases h; omega

theorem readChar_scanEscape {c : PyChar × Bool} {length : Nat} (h : scanEscape s = some (c, length)) : ReadChar c := by
  cases s with
  | nil => cases h
  | cons b s =>
    unfold scanEscape at h
    dsimp only at h
    split_ifs at h with hcode
    · split at h
      next x y z w _ =>
        obtain ⟨hx, hhx, h⟩ := Option.bind_eq_some_iff.mp h
        obtain ⟨hy, hhy, h⟩ := Option.bind_eq_some_iff.mp h
        obtain ⟨hz, hhz, h⟩ := Option.bind_eq_some_iff.mp h
        obtain ⟨hw, hhw, h⟩ := Option.bind_eq_some_iff.mp h
        cases h
        have hxlt := hexDigit_lt hhx
        have hylt := hexDigit_lt hhy
        have hzlt := hexDigit_lt hhz
        have hwlt := hexDigit_lt hhw
        show (Fin.ofNat 0x110000 ((hx * 16 + hy) * 256 + hz * 16 + hw)).val < 0x10000
        rw [Fin.val_ofNat]
        omega
      next => cases h
    · obtain ⟨d, hd, heq⟩ := Option.map_eq_some_iff.mp h
      cases heq
      exact isScalar_simpleEscape hd

/-- The characters of a string, and what follows it. -/
theorem scanChars_decoded (hs : Decoded s) {skip : Nat} {chars : List (PyChar × Bool)} {rest : PyStr}
    (h : scanChars skip s = some (chars, rest)) : (∀ c ∈ chars, ReadChar c) ∧ rest <:+ s := by
  induction s generalizing skip chars with
  | nil =>
    rw [scanChars] at h
    cases h
  | cons c s ih =>
    obtain ⟨hc, hs⟩ := List.forall_mem_cons.mp hs
    cases skip with
    | succ skip => exact ⟨(ih hs h).1, (ih hs h).2.trans (List.suffix_cons c s)⟩
    | zero =>
      rw [scanChars] at h
      split_ifs at h with hquote hcontrol hescape
      · cases h
        exact ⟨fun _ h => (by cases h), List.suffix_cons _ _⟩
      · split at h
        · cases h
        next char length hread =>
          obtain ⟨⟨chars', rest'⟩, hrest, heq⟩ := Option.map_eq_some_iff.mp h
          cases heq
          obtain ⟨hchars, hsuffix⟩ := ih hs hrest
          exact ⟨List.forall_mem_cons.mpr ⟨readChar_scanEscape hread, hchars⟩,
            hsuffix.trans (List.suffix_cons c s)⟩
      · obtain ⟨⟨chars', rest'⟩, hrest, heq⟩ := Option.map_eq_some_iff.mp h
        cases heq
        obtain ⟨hchars, hsuffix⟩ := ih hs hrest
        exact ⟨List.forall_mem_cons.mpr ⟨hc, hchars⟩, hsuffix.trans (List.suffix_cons c s)⟩

/-- A unit that does not begin a surrogate pair is a code point. -/
theorem codePoints_cons {u : JsChar} {r : JsStr} (h : 0xD800 ≤ u.val → u.val < 0xDC00 →
    ∀ v ∈ r.head?, ¬(0xDC00 ≤ v.val ∧ v.val < 0xE000)) : codePoints (u :: r) = Fin.ofNat _ u.val :: codePoints r := by
  cases r with
  | nil => rfl
  | cons v r =>
    rw [codePoints, if_neg]
    rintro ⟨hlow, hhigh, hpair⟩
    exact h hlow hhigh v rfl hpair

theorem ofNat_unit {c : PyChar} (hc : c.val < 0x10000) : Fin.ofNat 0x110000 (Fin.ofNat 0x10000 c.val).val = c := by
  rw [Fin.val_ofNat, Nat.mod_eq_of_lt hc]
  exact Fin.ofNat_val_eq_self c

/-- The first unit of a scalar value is not a low surrogate. -/
theorem head_utf16 {c : PyChar} (hc : Utf8.IsScalar c) (r : JsStr) :
    ∀ v ∈ (utf16 c ++ r).head?, ¬(0xDC00 ≤ v.val ∧ v.val < 0xE000) := by
  intro v hv
  have hlt := c.isLt
  unfold Utf8.IsScalar at hc
  unfold utf16 at hv
  split_ifs at hv with hbasic
  · obtain rfl := Option.some.inj hv
    rw [Fin.val_ofNat, Nat.mod_eq_of_lt hbasic]
    omega
  · obtain rfl := Option.some.inj hv
    rw [Fin.val_ofNat]
    omega

/-- Python joins two codes where JavaScript has a surrogate pair. -/
theorem codePoints_chars {chars : List (PyChar × Bool)} (h : ∀ c ∈ chars, ReadChar c) :
    codePoints (chars.flatMap fun c => utf16 c.1) = joinSurrogates chars := by
  induction chars using joinSurrogates.induct with
  | case1 c d chars hpair ih =>
    obtain ⟨hc, hd, hchars⟩ : c.val < 0x10000 ∧ d.val < 0x10000 ∧ ∀ c ∈ chars, ReadChar c :=
      ⟨h _ List.mem_cons_self, h _ (List.mem_cons_of_mem _ List.mem_cons_self),
        fun e he => h e (List.mem_cons_of_mem _ (List.mem_cons_of_mem _ he))⟩
    rw [joinSurrogates, if_pos hpair, List.flatMap_cons, List.flatMap_cons, utf16_basic hc, utf16_basic hd]
    show codePoints (_ :: _ :: (chars.flatMap fun c => utf16 c.1)) = _
    rw [codePoints, Fin.val_ofNat, Fin.val_ofNat, Nat.mod_eq_of_lt hc, Nat.mod_eq_of_lt hd, if_pos hpair, ih hchars]
  | case2 c d chars hpair ih =>
    obtain ⟨hc, hchars⟩ := List.forall_mem_cons.mp h
    have hd : d.val < 0x10000 := hchars _ List.mem_cons_self
    have hc : c.val < 0x10000 := hc
    have hnot : 0xD800 ≤ (Fin.ofNat 0x10000 c.val).val → (Fin.ofNat 0x10000 c.val).val < 0xDC00 →
        ∀ v ∈ (((d, true) :: chars).flatMap fun c => utf16 c.1).head?, ¬(0xDC00 ≤ v.val ∧ v.val < 0xE000) := by
      rw [List.flatMap_cons, utf16_basic hd, Fin.val_ofNat, Nat.mod_eq_of_lt hc]
      rintro hlow hhigh v hv ⟨hvlow, hvhigh⟩
      obtain rfl := Option.some.inj hv
      rw [Fin.val_ofNat, Nat.mod_eq_of_lt hd] at hvlow hvhigh
      exact hpair ⟨hlow, hhigh, hvlow, hvhigh⟩
    rw [joinSurrogates, if_neg hpair, List.flatMap_cons, utf16_basic hc, List.singleton_append, codePoints_cons hnot,
      ofNat_unit hc, ih hchars]
  | case3 c written chars hnext ih =>
    obtain ⟨hc, hchars⟩ := List.forall_mem_cons.mp h
    have hjoin : joinSurrogates ((c, written) :: chars) = c :: joinSurrogates chars := by
      rw [joinSurrogates]
      exact hnext
    rw [hjoin, List.flatMap_cons, ← ih hchars]
    cases written with
    | false => exact codePoints_utf16 hc _
    | true =>
      have hc : c.val < 0x10000 := hc
      rw [utf16_basic hc, List.singleton_append, codePoints_cons, ofNat_unit hc]
      intro _ _
      cases chars with
      | nil => exact fun _ h => (by cases h)
      | cons d chars =>
        obtain ⟨d, written⟩ := d
        cases written with
        | true => exact (hnext d chars rfl rfl).elim
        | false => exact head_utf16 (hchars _ List.mem_cons_self) _
  | case4 => rfl

/-! ### Numbers and constants -/

theorem not_isNumeralMark {c : PyChar} (hc : isDigit c = true ∨ c = 45) : isNumeralMark c = false := by
  rcases hc with hc | rfl
  · rw [isDigit, Bool.and_eq_true, decide_eq_true_eq, decide_eq_true_eq] at hc
    unfold isNumeralMark
    simp only [Bool.or_eq_false_iff, beq_eq_false_iff_ne]
    refine ⟨⟨?_, ?_⟩, ?_⟩ <;> · rintro rfl; revert hc; decide
  · rfl

theorem numeralJson_int {text : PyStr} (h : ∀ c ∈ text, isDigit c = true ∨ c = 45) :
    numeralJson floatOf text = .int (signedValue text) := by
  have hany : text.any isNumeralMark = false := by
    rw [List.any_eq_false]
    intro c hc
    rw [not_isNumeralMark (h c hc)]
    exact Bool.false_ne_true
  unfold numeralJson
  rw [hany, if_neg Bool.false_ne_true]

theorem numberOf_toJson (text : PyStr) : (numberOf .other text).toJson floatOf = numeralJson floatOf text := by
  unfold numberOf
  split_ifs with hsafe htext
  · have hchars : ∀ c ∈ text, isDigit c = true ∨ c = 45 := fun c hc => intText_chars _ c (by rwa [htext])
    exact (numeralJson_int hchars).symm
  · rfl
  · rfl

/-- Digits are read alike. -/
theorem foldl_digits {digits : PyStr} (h : ∀ c ∈ digits, isDigit c = true) (n : Nat) :
    digits.foldl (fun n c => 10 * n + ((c.val : Int) - 48)) (n : Int) =
      (digits.foldl (fun n c => 10 * n + digitValue c) n : Nat) := by
  induction digits generalizing n with
  | nil => rfl
  | cons c digits ih =>
    obtain ⟨hc, hdigits⟩ := List.forall_mem_cons.mp h
    rw [isDigit, Bool.and_eq_true, decide_eq_true_eq, decide_eq_true_eq] at hc
    have hstep : 10 * (n : Int) + ((c.val : Int) - 48) = ((10 * n + digitValue c : Nat) : Int) := by
      unfold digitValue
      rw [if_pos (by omega)]
      omega
    rw [List.foldl_cons, List.foldl_cons, hstep, ih hdigits]

theorem exponent_mark {mark sign digits : PyStr} :
    (if (mark = py "e" ∨ mark = py "E") ∧ digits ≠ [] then mark ++ sign ++ digits else []) ≠ [] →
      (if (mark = py "e" ∨ mark = py "E") ∧ digits ≠ [] then mark ++ sign ++ digits else []).any isNumeralMark =
        true := by
  split_ifs with hexponent
  · intro _
    rcases hexponent.1 with hmark | hmark
    all_goals
      rw [hmark]
      rfl
  · exact fun h => absurd rfl h

/-- A fraction or an exponent has a mark. -/
theorem scanFraction_mark (s : PyStr) : (scanFraction s).1 ≠ [] → (scanFraction s).1.any isNumeralMark = true := by
  unfold scanFraction
  dsimp only
  split
  next t =>
    by_cases hempty : (t.takeWhile isDigit).isEmpty = true
    · rw [if_pos hempty, List.nil_append]
      exact exponent_mark
    · rw [if_neg hempty]
      exact fun _ => rfl
  next => exact exponent_mark

theorem scanFraction_suffix (s : PyStr) : (scanFraction s).2 <:+ s :=
  (List.drop_suffix _ _).trans (List.drop_suffix _ _)

/-- The digits of a numeral without a fraction, behind its sign. -/
theorem signedValue_whole {sign whole : PyStr} (hsign : sign = [] ∨ sign = [45])
    (hdigits : ∀ c ∈ whole, isDigit c = true) : signedValue (sign ++ whole) =
      (if sign = [] then whole.foldl (fun n c => 10 * n + ((c.val : Int) - 48)) 0
        else -whole.foldl (fun n c => 10 * n + ((c.val : Int) - 48)) 0) := by
  have hvalue : whole.foldl (fun n c => 10 * n + ((c.val : Int) - 48)) 0 = (decimalValue whole : Int) :=
    foldl_digits hdigits 0
  have hhead : whole.head? ≠ some 45 := by
    intro h
    exact absurd (hdigits 45 (List.mem_of_mem_head? (Option.mem_def.mpr h))) (by decide)
  rw [hvalue]
  rcases hsign with rfl | rfl
  · rw [List.nil_append, signedValue, if_neg hhead, if_pos rfl]
  · rw [if_neg (List.cons_ne_nil _ _), List.singleton_append, signedValue, if_pos List.head?_cons, List.tail_cons]

theorem take_sign (s : PyStr) : s.take (if s.head? = some 45 then 1 else 0) = [] ∨
    s.take (if s.head? = some 45 then 1 else 0) = [45] := by
  split_ifs with h
  · obtain ⟨t, rfl⟩ := List.head?_eq_some_iff.mp h
    exact Or.inr rfl
  · exact Or.inl rfl

/-- More digits in a row than `int` takes. -/
def LongDigits (s : PyStr) : Prop := ∃ digits, digits <:+: s ∧ (∀ c ∈ digits, isDigit c = true) ∧ 4300 < digits.length

theorem LongDigits.suffix (h : LongDigits t) (ht : t <:+ s) : LongDigits s :=
  h.imp fun _ h => ⟨h.1.trans ht.isInfix, h.2⟩

/-- Both readers find the numeral, and what follows it. -/
theorem scanNumber_scanNumeral {text rest : PyStr} (hnumeral : scanNumeral s = some (text, rest)) : rest <:+ s ∧
    (scanNumber floatOf s = some (numeralJson floatOf text, rest) ∨
      (scanNumber floatOf s = none ∧ LongDigits s ∧ 4300 < text.length)) := by
  unfold scanNumeral at hnumeral
  unfold scanNumber
  dsimp only at hnumeral ⊢
  obtain ⟨sign, hsign⟩ : ∃ sign, s.take (if s.head? = some 45 then 1 else 0) = sign := ⟨_, rfl⟩
  have hsigned := take_sign s
  rw [hsign] at hnumeral hsigned ⊢
  obtain ⟨whole, hwhole⟩ : ∃ whole, (if ((s.drop sign.length).takeWhile isDigit).head? = some 48 then py "0"
      else (s.drop sign.length).takeWhile isDigit) = whole := ⟨_, rfl⟩
  rw [hwhole] at hnumeral ⊢
  have hdigits : ∀ c ∈ whole, isDigit c = true := by
    rw [← hwhole]
    split_ifs
    · exact natText_digits 0
    · exact fun c hc => List.mem_takeWhile_imp hc
  have hsuffix := (scanFraction_suffix (s.drop (sign.length + whole.length))).trans (List.drop_suffix _ _)
  have hmark := scanFraction_mark (s.drop (sign.length + whole.length))
  obtain ⟨⟨fraction, rest₀⟩, hfraction⟩ : ∃ found, scanFraction (s.drop (sign.length + whole.length)) = found :=
    ⟨_, rfl⟩
  rw [hfraction] at hnumeral hsuffix hmark ⊢
  dsimp only at hnumeral hsuffix hmark ⊢
  by_cases hne : whole = []
  · rw [if_pos hne] at hnumeral
    cases hnumeral
  rw [if_neg hne] at hnumeral ⊢
  cases hnumeral
  refine ⟨hsuffix, ?_⟩
  by_cases hpart : fraction = []
  · rw [if_neg (not_not.mpr hpart)]
    by_cases hlong : 4300 < whole.length
    · right
      have htext : 4300 < (sign ++ whole ++ fraction).length := by
        rw [List.length_append, List.length_append]
        omega
      refine ⟨if_pos hlong, ⟨whole, ?_, hdigits, hlong⟩, htext⟩
      rw [← hwhole] at hlong ⊢
      split_ifs at hlong ⊢ with hzero
      · exact absurd hlong (by decide)
      · exact (List.takeWhile_prefix _).isInfix.trans (List.drop_suffix _ _).isInfix
    · left
      have hchars : ∀ c ∈ sign ++ whole, isDigit c = true ∨ c = 45 := by
        intro c hc
        rcases List.mem_append.mp hc with hc | hc
        · rcases hsigned with rfl | rfl
          · cases hc
          · exact Or.inr (List.mem_singleton.mp hc)
        · exact Or.inl (hdigits c hc)
      rw [if_neg hlong, hpart, List.append_nil, numeralJson_int hchars, signedValue_whole hsigned hdigits]
  · left
    have hany : (sign ++ whole ++ fraction).any isNumeralMark = true := by
      rw [List.any_append, hmark hpart, Bool.or_true]
    unfold numeralJson
    rw [if_pos hpart, if_pos hany]

/-- A text with a numeral in front is none of the constants that only Python has. -/
theorem scanConstant_numeral (hconstant : scanJsConstant s = none) (hnumeral : scanNumeral s ≠ none) :
    scanConstant floatOf s = none := by
  unfold scanJsConstant at hconstant
  unfold scanConstant
  rw [Option.map_eq_none_iff, List.find?_eq_none] at hconstant ⊢
  have hstart : ∀ p : PyStr, p = py "NaN" ∨ p = py "Infinity" ∨ p = py "-Infinity" → ¬p.isPrefixOf s = true := by
    intro p hp h
    obtain ⟨t, rfl⟩ := List.isPrefixOf_iff_prefix.mp h
    rcases hp with rfl | rfl | rfl
    all_goals exact hnumeral rfl
  intro c hc
  simp only [jsonConstants, List.mem_cons, List.not_mem_nil, or_false] at hc
  rcases hc with rfl | rfl | rfl | rfl | rfl | rfl
  · exact hconstant (py "null", .null) (by simp [jsConstants])
  · exact hconstant (py "true", .bool true) (by simp [jsConstants])
  · exact hconstant (py "false", .bool false) (by simp [jsConstants])
  · exact hstart _ (Or.inl rfl)
  · exact hstart _ (Or.inr (Or.inl rfl))
  · exact hstart _ (Or.inr (Or.inr rfl))

/-- The constants of JavaScript are constants of Python. -/
theorem scanConstant_js {v : JsValue} {rest : PyStr} (h : scanJsConstant s = some (v, rest)) :
    scanConstant floatOf s = some (v.toJson floatOf, rest) := by
  unfold scanJsConstant at h
  obtain ⟨c, hc, heq⟩ := Option.map_eq_some_iff.mp h
  cases heq
  have hsame : jsonConstants floatOf = jsConstants.map (fun c => (c.1, c.2.toJson floatOf)) ++
      (jsonConstants floatOf).drop 3 := rfl
  unfold scanConstant
  rw [hsame, List.find?_append, List.find?_map]
  simp only [Function.comp_def, hc, Option.map_some, Option.some_or]

theorem scanJsConstant_suffix {v : JsValue} {rest : PyStr} (h : scanJsConstant s = some (v, rest)) : rest <:+ s := by
  obtain ⟨c, -, heq⟩ := Option.map_eq_some_iff.mp h
  cases heq
  exact List.drop_suffix _ _

/-! ### What both readers look for -/

/-- What `read` makes of the text behind a character. -/
def behindChar {α : Type} (c : PyChar) (read : PyStr → Option α) (s : PyStr) : Option α :=
  if s.head? = some c then read s.tail else none

/-- An empty list behind its closing bracket, or what `read` makes of its first entry. -/
def behindOpening {α : Type} (closing : PyChar) (empty : α) (read : PyStr → Option (α × PyStr)) (s : PyStr) :
    Option (α × PyStr) :=
  if s.head? = some closing then some (empty, s.tail) else read s

/-- A list behind its closing bracket, or what `read` makes of the entry behind the comma. -/
def behindEntry {α : Type} (closing : PyChar) (whole : α) (read : PyStr → Option (α × PyStr)) (s : PyStr) :
    Option (α × PyStr) :=
  if s.head? = some closing then some (whole, s.tail)
  else behindChar 44 (fun t => read (skipSpace t)) s

section

variable {otherNumber : PyStr → JsNum} {c : PyChar} {fuel : Nat}

theorem behindChar_cons {α : Type} (read : PyStr → Option α) : behindChar c read (c :: s) = read s := if_pos rfl

theorem behindChar_none {α : Type} {read : PyStr → Option α} (h : ∀ t, s = c :: t → False) :
    behindChar c read s = none :=
  if_neg fun hhead => (List.head?_eq_some_iff.mp hhead).elim h

section

variable {α : Type} {closing : PyChar} {whole : α} {read : PyStr → Option (α × PyStr)}

theorem behindOpening_close : behindOpening closing whole read (closing :: s) = some (whole, s) := if_pos rfl

theorem behindOpening_open (h : ∀ t, s = closing :: t → False) : behindOpening closing whole read s = read s :=
  if_neg fun hhead => (List.head?_eq_some_iff.mp hhead).elim h

theorem behindEntry_close : behindEntry closing whole read (closing :: s) = some (whole, s) := if_pos rfl

theorem behindEntry_comma (h : 44 ≠ closing) : behindEntry closing whole read (44 :: s) = read (skipSpace s) :=
  (if_neg fun hhead => h (Option.some.inj hhead)).trans (behindChar_cons _)

theorem behindEntry_none (h : ∀ t, s = closing :: t → False) (hcomma : ∀ t, s = 44 :: t → False) :
    behindEntry closing whole read s = none :=
  (if_neg fun hhead => (List.head?_eq_some_iff.mp hhead).elim h).trans (behindChar_none hcomma)

end

theorem parseValue_object (hc : c.val = 123) : parseValue otherNumber (fuel + 1) (c :: t) =
    behindOpening 125 (.obj []) (parseMembers otherNumber fuel []) (skipSpace t) := by
  rw [parseValue, if_neg (by omega), if_pos hc]
  split
  next rest hclose => rw [hclose, behindOpening_close]
  next hopen => rw [behindOpening_open hopen]

theorem scanValue_object (hc : c.val = 123) : scanValue floatOf (fuel + 1) (c :: t) =
    behindOpening 125 (.obj []) (scanMembers floatOf fuel []) (skipSpace t) := by
  rw [scanValue, if_neg (by omega), if_pos hc]
  split
  next rest hclose => rw [hclose, behindOpening_close]
  next hopen => rw [behindOpening_open hopen]

theorem parseValue_array (hc : c.val = 91) : parseValue otherNumber (fuel + 1) (c :: t) =
    behindOpening 93 (.arr []) (parseItems otherNumber fuel []) (skipSpace t) := by
  rw [parseValue, if_neg (by omega), if_neg (by omega), if_pos hc]
  split
  next rest hclose => rw [hclose, behindOpening_close]
  next hopen => rw [behindOpening_open hopen]

theorem scanValue_array (hc : c.val = 91) : scanValue floatOf (fuel + 1) (c :: t) =
    behindOpening 93 (.arr []) (scanItems floatOf fuel []) (skipSpace t) := by
  rw [scanValue, if_neg (by omega), if_neg (by omega), if_pos hc]
  split
  next rest hclose => rw [hclose, behindOpening_close]
  next hopen => rw [behindOpening_open hopen]

theorem parseItems_eq (items : List JsValue) : parseItems otherNumber (fuel + 1) items s =
    (parseValue otherNumber fuel s).bind fun v => behindEntry 93 (.arr (items ++ [v.1]))
      (parseItems otherNumber fuel (items ++ [v.1])) (skipSpace v.2) := by
  rw [parseItems]
  refine congrArg (Option.bind _) (funext fun v => ?_)
  dsimp only
  split
  next rest hclose => rw [hclose, behindEntry_close]
  next t hcomma => rw [hcomma, behindEntry_comma (by decide)]
  next hclose hcomma => rw [behindEntry_none hclose hcomma]

theorem scanItems_eq (items : List Json) : scanItems floatOf (fuel + 1) items s =
    (scanValue floatOf fuel s).bind fun v => behindEntry 93 (.arr (items ++ [v.1]))
      (scanItems floatOf fuel (items ++ [v.1])) (skipSpace v.2) := by
  rw [scanItems]
  refine congrArg (Option.bind _) (funext fun v => ?_)
  dsimp only
  split
  next rest hclose => rw [hclose, behindEntry_close]
  next t hcomma => rw [hcomma, behindEntry_comma (by decide)]
  next hclose hcomma => rw [behindEntry_none hclose hcomma]

theorem parseMembers_eq (members : List (JsStr × JsValue)) : parseMembers otherNumber (fuel + 1) members s =
    behindChar 34 (fun t => (scanJsString t).bind fun key => behindChar 58 (fun t =>
      (parseValue otherNumber fuel (skipSpace t)).bind fun v => behindEntry 125 (.obj (setProperty members key.1 v.1))
        (parseMembers otherNumber fuel (setProperty members key.1 v.1)) (skipSpace v.2)) (skipSpace key.2)) s := by
  unfold parseMembers
  dsimp only
  split
  next t =>
    rw [behindChar_cons]
    refine congrArg (Option.bind _) (funext fun key => ?_)
    split
    next t hcolon =>
      rw [hcolon, behindChar_cons]
      refine congrArg (Option.bind _) (funext fun v => ?_)
      split
      next rest hclose => rw [hclose, behindEntry_close]
      next t hcomma => rw [hcomma, behindEntry_comma (by decide)]
      next hclose hcomma => rw [behindEntry_none hclose hcomma]
    next hcolon => rw [behindChar_none hcolon]
  next hquote => rw [behindChar_none hquote]

theorem scanMembers_eq (members : List (PyStr × Json)) : scanMembers floatOf (fuel + 1) members s =
    behindChar 34 (fun t => (scanString t).bind fun key => behindChar 58 (fun t =>
      (scanValue floatOf fuel (skipSpace t)).bind fun v => behindEntry 125 (.obj (setMember members key.1 v.1))
        (scanMembers floatOf fuel (setMember members key.1 v.1)) (skipSpace v.2)) (skipSpace key.2)) s := by
  unfold scanMembers
  dsimp only
  split
  next t =>
    rw [behindChar_cons]
    refine congrArg (Option.bind _) (funext fun key => ?_)
    split
    next t hcolon =>
      rw [hcolon, behindChar_cons]
      refine congrArg (Option.bind _) (funext fun v => ?_)
      split
      next rest hclose => rw [hclose, behindEntry_close]
      next t hcomma => rw [hcomma, behindEntry_comma (by decide)]
      next hclose hcomma => rw [behindEntry_none hclose hcomma]
    next hcolon => rw [behindChar_none hcolon]
  next hquote => rw [behindChar_none hquote]

end

/-! ### Values -/

/-- What JavaScript reads of a text is what Python reads, unless Python refuses the digits of the text. -/
def ReadsSame (floatOf : PyStr → PyFloat) (s : PyStr) (js : Option (JsValue × PyStr))
    (python : Option (Json × PyStr)) : Prop :=
  ∀ v rest, js = some (v, rest) → rest <:+ s ∧
    (python = some (v.toJson floatOf, rest) ∨ (python = none ∧ LongDigits s))

structure ReadsSameAt (floatOf : PyStr → PyFloat) (fuel : Nat) : Prop where
  value : ∀ s, Decoded s → ReadsSame floatOf s (parseValue .other fuel s) (scanValue floatOf fuel s)
  members : ∀ members s, Decoded s → ReadsSame floatOf s (parseMembers .other fuel members s)
    (scanMembers floatOf fuel (members.map (memberToJson floatOf)) s)
  items : ∀ items s, Decoded s → ReadsSame floatOf s (parseItems .other fuel items s)
    (scanItems floatOf fuel (items.map (·.toJson floatOf)) s)

theorem ReadsSame.suffix {js : Option (JsValue × PyStr)} {python : Option (Json × PyStr)}
    (h : ReadsSame floatOf t js python) (ht : t <:+ s) : ReadsSame floatOf s js python := fun v rest hv =>
  ⟨(h v rest hv).1.trans ht, (h v rest hv).2.imp_right fun hlong => ⟨hlong.1, hlong.2.suffix ht⟩⟩

theorem ReadsSame.bind {js : Option (JsValue × PyStr)} {python : Option (Json × PyStr)}
    {f : JsValue × PyStr → Option (JsValue × PyStr)} {g : Json × PyStr → Option (Json × PyStr)}
    (h : ReadsSame floatOf s js python)
    (hnext : ∀ v rest, rest <:+ s → ReadsSame floatOf s (f (v, rest)) (g (v.toJson floatOf, rest))) :
    ReadsSame floatOf s (js.bind f) (python.bind g) := by
  intro v rest hv
  obtain ⟨⟨v', rest'⟩, hfirst, hv⟩ := Option.bind_eq_some_iff.mp hv
  obtain ⟨hrest', hsame | ⟨hnone, hlong⟩⟩ := h v' rest' hfirst
  · rw [hsame, Option.bind_some]
    exact hnext v' rest' hrest' v rest hv
  · rw [hnone, Option.bind_none]
    exact ⟨(hnext v' rest' hrest' v rest hv).1, Or.inr ⟨rfl, hlong⟩⟩

/-- Behind a character. -/
theorem ReadsSame.char {c : PyChar} {js : PyStr → Option (JsValue × PyStr)} {python : PyStr → Option (Json × PyStr)}
    (h : ∀ t, c :: t <:+ s → ReadsSame floatOf s (js t) (python t)) :
    ReadsSame floatOf s (behindChar c js s) (behindChar c python s) := by
  intro v rest hv
  unfold behindChar at hv ⊢
  split_ifs at hv ⊢ with hhead
  obtain ⟨t, rfl⟩ := List.head?_eq_some_iff.mp hhead
  exact h t (List.suffix_refl _) v rest hv

theorem ReadsSame.opening {closing : PyChar} {empty : JsValue} {empty' : Json}
    {js : PyStr → Option (JsValue × PyStr)} {python : PyStr → Option (Json × PyStr)}
    (hempty : empty' = empty.toJson floatOf) (h : ReadsSame floatOf s (js s) (python s)) :
    ReadsSame floatOf s (behindOpening closing empty js s) (behindOpening closing empty' python s) := by
  intro v rest hv
  unfold behindOpening at hv ⊢
  split_ifs at hv ⊢
  · cases hv
    exact ⟨List.tail_suffix s, Or.inl (by rw [hempty])⟩
  · exact h v rest hv

theorem ReadsSame.entry {closing : PyChar} {whole : JsValue} {whole' : Json}
    {js : PyStr → Option (JsValue × PyStr)} {python : PyStr → Option (Json × PyStr)}
    (hwhole : whole' = whole.toJson floatOf)
    (h : ∀ t, t <:+ s → ReadsSame floatOf t (js t) (python t)) :
    ReadsSame floatOf s (behindEntry closing whole js s) (behindEntry closing whole' python s) := by
  intro v rest hv
  unfold behindEntry at hv ⊢
  split_ifs at hv ⊢
  · cases hv
    exact ⟨List.tail_suffix s, Or.inl (by rw [hwhole])⟩
  · refine ReadsSame.char (fun t ht => ?_) v rest hv
    have hnext := (skipSpace_suffix t).trans ((List.suffix_cons 44 t).trans ht)
    exact (h _ hnext).suffix hnext

/-- Both read a string with the same characters. -/
theorem scanString_js (hs : Decoded s) {text : JsStr} {rest : PyStr} (h : scanJsString s = some (text, rest)) :
    scanString s = some (codePoints text, rest) ∧ rest <:+ s := by
  obtain ⟨⟨chars, rest'⟩, hscan, heq⟩ := Option.map_eq_some_iff.mp h
  cases heq
  obtain ⟨hchars, hrest⟩ := scanChars_decoded hs hscan
  refine ⟨?_, hrest⟩
  unfold scanString
  rw [hscan, Option.map_some, codePoints_chars hchars]

/-- Behind a string. -/
theorem ReadsSame.string (hs : Decoded s) {js : JsStr × PyStr → Option (JsValue × PyStr)}
    {python : PyStr × PyStr → Option (Json × PyStr)}
    (h : ∀ text rest, rest <:+ s → ReadsSame floatOf s (js (text, rest)) (python (codePoints text, rest))) :
    ReadsSame floatOf s ((scanJsString s).bind js) ((scanString s).bind python) := by
  intro v rest hv
  obtain ⟨⟨text, rest'⟩, htext, hv⟩ := Option.bind_eq_some_iff.mp hv
  obtain ⟨hpython, hrest'⟩ := scanString_js hs htext
  rw [hpython, Option.bind_some]
  exact h text rest' hrest' v rest hv

theorem readsSame_literal : ReadsSame floatOf s
    ((scanJsConstant s).or ((scanNumeral s).map fun (text, rest) => (.num (numberOf .other text), rest)))
    ((scanConstant floatOf s).or (scanNumber floatOf s)) := by
  intro v rest hv
  cases hconstant : scanJsConstant s with
  | some found =>
    obtain ⟨constant, rest₀⟩ := found
    rw [hconstant, Option.some_or] at hv
    cases hv
    exact ⟨scanJsConstant_suffix hconstant, Or.inl (by rw [scanConstant_js hconstant, Option.some_or])⟩
  | none =>
    rw [hconstant, Option.none_or] at hv
    obtain ⟨⟨text, rest₀⟩, hnumeral, heq⟩ := Option.map_eq_some_iff.mp hv
    cases heq
    rw [scanConstant_numeral hconstant (by rw [hnumeral]; exact Option.some_ne_none _), Option.none_or]
    rw [JsValue.toJson, numberOf_toJson]
    obtain ⟨hrest, hnumber⟩ := scanNumber_scanNumeral hnumeral
    exact ⟨hrest, hnumber.imp_right fun hlong => ⟨hlong.1, hlong.2.1⟩⟩

theorem readsSame_value {fuel : Nat} (h : ReadsSameAt floatOf fuel) (hs : Decoded s) :
    ReadsSame floatOf s (parseValue .other (fuel + 1) s) (scanValue floatOf (fuel + 1) s) := by
  cases s with
  | nil => exact fun _ _ hv => by cases hv
  | cons c t =>
    have ht := List.suffix_cons c t
    have hspace := (skipSpace_suffix t).trans ht
    by_cases hobject : c.val = 123
    · rw [parseValue_object hobject, scanValue_object hobject]
      exact (ReadsSame.opening rfl (h.members [] _ (hs.suffix hspace))).suffix hspace
    by_cases harray : c.val = 91
    · rw [parseValue_array harray, scanValue_array harray]
      exact (ReadsSame.opening rfl (h.items [] _ (hs.suffix hspace))).suffix hspace
    rw [parseValue, scanValue, if_neg hobject, if_neg hobject, if_neg harray, if_neg harray]
    split_ifs with hstring
    · rw [Option.map_eq_bind, Option.map_eq_bind]
      refine (ReadsSame.string (hs.suffix ht) fun text rest hrest => ?_).suffix ht
      rintro v rest' ⟨⟩
      exact ⟨hrest, Or.inl rfl⟩
    · exact readsSame_literal

theorem readsSame_members {fuel : Nat} (h : ReadsSameAt floatOf fuel) (hs : Decoded s)
    (members : List (JsStr × JsValue)) : ReadsSame floatOf s (parseMembers .other (fuel + 1) members s)
      (scanMembers floatOf (fuel + 1) (members.map (memberToJson floatOf)) s) := by
  rw [parseMembers_eq, scanMembers_eq]
  refine .char fun t₁ ht₁ => ?_
  have hkey := (List.suffix_cons 34 t₁).trans ht₁
  refine ReadsSame.suffix (.string (hs.suffix hkey) fun key t₂ ht₂ => ?_) hkey
  have hspace₂ := (skipSpace_suffix t₂).trans ht₂
  refine ReadsSame.suffix (.char fun t₃ ht₃ => ?_) hspace₂
  have hvalue := (skipSpace_suffix t₃).trans ((List.suffix_cons 58 t₃).trans ht₃)
  have hread := h.value _ (((hs.suffix hkey).suffix hspace₂).suffix hvalue)
  refine ReadsSame.suffix (.bind hread fun v t₄ ht₄ => ?_) hvalue
  have hspace₄ := (skipSpace_suffix t₄).trans ht₄
  rw [setMember_toJson]
  refine ReadsSame.suffix (.entry ?_ fun t₅ ht₅ => h.members _ _ ?_) hspace₄
  · rw [JsValue.toJson, membersToJson_eq]
  · exact ((((hs.suffix hkey).suffix hspace₂).suffix hvalue).suffix hspace₄).suffix ht₅

theorem readsSame_items {fuel : Nat} (h : ReadsSameAt floatOf fuel) (hs : Decoded s) (items : List JsValue) :
    ReadsSame floatOf s (parseItems .other (fuel + 1) items s)
      (scanItems floatOf (fuel + 1) (items.map (·.toJson floatOf)) s) := by
  rw [parseItems_eq, scanItems_eq]
  refine .bind (h.value s hs) fun v t₁ ht₁ => ?_
  have hspace := (skipSpace_suffix t₁).trans ht₁
  have hitems : items.map (·.toJson floatOf) ++ [v.toJson floatOf] = (items ++ [v]).map (·.toJson floatOf) := by
    rw [List.map_append, List.map_singleton]
  dsimp only
  rw [hitems]
  refine ReadsSame.suffix (.entry ?_ fun t₂ ht₂ => h.items _ _ ((hs.suffix hspace).suffix ht₂)) hspace
  rw [JsValue.toJson, itemsToJson_eq]

theorem readsSameAt (floatOf : PyStr → PyFloat) (fuel : Nat) : ReadsSameAt floatOf fuel := by
  induction fuel with
  | zero =>
    refine ⟨fun _ _ _ _ hv => ?_, fun _ _ _ _ _ hv => ?_, fun _ _ _ _ _ hv => ?_⟩
    · rw [parseValue] at hv
      cases hv
    · rw [parseMembers] at hv
      cases hv
    · rw [parseItems] at hv
      cases hv
  | succ fuel ih =>
    exact ⟨fun _ hs => readsSame_value ih hs, fun members _ hs => readsSame_members ih hs members,
      fun items _ hs => readsSame_items ih hs items⟩

/-- **`json.loads` reads what `JSON.parse` reads**, of every text that came as UTF-8, with its escapes, its numbers and
the members that it names twice; the only texts it refuses have more digits in a row than `int` takes. -/
theorem loadsText_parseJson (hs : Decoded s) {v : JsValue} (hv : parseJson .other (jsText s) = some v) :
    loadsText floatOf s = some (v.toJson floatOf) ∨ (loadsText floatOf s = none ∧ LongDigits s) := by
  have hstart := skipSpace_suffix s
  have hreads := ((readsSameAt floatOf (s.length + 1)).value _ (hs.suffix hstart)).suffix hstart
  unfold parseJson at hv
  unfold loadsText
  rw [codePoints_jsText hs] at hv
  dsimp only at hv
  split at hv
  next v' rest hread =>
    split_ifs at hv with hend
    cases hv
    obtain ⟨-, hsame | ⟨hnone, hlong⟩⟩ := hreads v rest hread
    · left
      rw [hsame]
      dsimp only
      rw [if_pos hend]
    · right
      rw [hnone]
      exact ⟨rfl, hlong⟩
  next => cases hv

end

def sampleFloat : PyFloat := ⟨py "NaN", by decide, by decide, by decide⟩

/-- A member that is named twice. -/
example : (parseJson .other (js "\x7b\"a\":1,\"b\":[],\"a\":2\x7d")).map
      (fun v => (v.toJson fun _ => sampleFloat).dumps) = some (py "\x7b\"a\":2,\"b\":[]\x7d") ∧
    (loadsText (fun _ => sampleFloat) (py "\x7b\"a\":1,\"b\":[],\"a\":2\x7d")).map Json.dumps =
      some (py "\x7b\"a\":2,\"b\":[]\x7d") := by
  decide +kernel

/-! ### What `JSON.stringify` writes -/

section

variable {floatOf : PyStr → PyFloat} {rest : PyStr}

theorem decoded_append {s t : PyStr} (hs : Decoded s) (ht : Decoded t) : Decoded (s ++ t) := fun c hc =>
  (List.mem_append.mp hc).elim (hs c) (ht c)

theorem decoded_text {v : JsValue} (hv : v.Exact) : Decoded v.text := fun c hc => (v.plain_text hv c hc).1

theorem decoded_quoted (t : JsStr) (hrest : Decoded rest) :
    Decoded ((codePoints t).flatMap quoteChar ++ 34 :: rest) := by
  have hquoted : Decoded (quoteString t ++ rest) :=
    decoded_append (fun c hc => (plain_quoteString t c hc).1) hrest
  rw [quoteString_eq] at hquoted
  exact fun c hc => hquoted c (List.mem_cons_of_mem _ hc)

/-- A string that JavaScript wrote is read by Python. -/
theorem scanString_quoted (t : JsStr) (hrest : Decoded rest) :
    scanString ((codePoints t).flatMap quoteChar ++ 34 :: rest) = some (codePoints t, rest) :=
  (scanString_js (decoded_quoted t hrest) (scanJsString_quoted t rest)).1

theorem length_intText (n : SafeInteger) : (intText n.val).length ≤ 17 := by
  have hnat : ∀ m : Nat, m ≤ 9007199254740991 → (natText m).length ≤ 16 := by
    intro m hm
    unfold natText
    split_ifs with hzero
    · decide
    · rw [List.length_reverse, List.length_map]
      exact Nat.digits_length_le_iff (by decide) _ |>.mpr (by omega)
  obtain ⟨n, hlow, hhigh⟩ := n
  cases n with
  | ofNat m => exact (hnat m (by simpa using hhigh)).trans (by decide)
  | negSucc m =>
    show (natText (m + 1)).length + 1 ≤ 17
    exact Nat.succ_le_succ (hnat (m + 1) (by omega))

/-- A safe integer has not too many digits. -/
theorem scanNumber_intText (n : SafeInteger) (h : ValueEnds rest) :
    scanNumber floatOf (intText n.val ++ rest) = some (.int n.val, rest) := by
  have hjson : numeralJson floatOf (intText n.val) = .int n.val := by
    rw [← numberOf_toJson, numberOf_intText]
    rfl
  obtain ⟨-, hread | ⟨-, -, hlong⟩⟩ := @scanNumber_scanNumeral floatOf _ _ _ (scanNumeral_intText n.val h)
  · rwa [hjson] at hread
  · have hlength := length_intText n
    omega

variable (floatOf) in
/-- `fuel` is enough for Python to read every value whose text is not longer. -/
def LoadsAt (fuel : Nat) : Prop :=
  ∀ v : JsValue, v.Exact → v.text.length ≤ fuel → ∀ rest, ValueEnds rest → Decoded rest →
    scanValue floatOf fuel (v.text ++ rest) = some (v.toJson floatOf, rest)

theorem loads_items {v : JsValue} {items : List JsValue} (hv : exactItems (v :: items)) {fuel : Nat}
    (hreads : ∀ k < fuel, LoadsAt floatOf k) (hfuel : (joinComma (itemTexts (v :: items))).length < fuel)
    (before : List Json) (hrest : Decoded rest) :
    scanItems floatOf fuel before (joinComma (itemTexts (v :: items)) ++ 93 :: rest) =
      some (.arr (before ++ itemsToJson floatOf (v :: items)), rest) := by
  have hbracket : Decoded (93 :: rest) := List.forall_mem_cons.mpr ⟨by decide, hrest⟩
  induction items generalizing v fuel before with
  | nil =>
    obtain ⟨fuel, rfl⟩ : ∃ k, fuel = k + 1 := ⟨fuel - 1, by omega⟩
    have hread := hreads fuel (Nat.lt_succ_self _) v hv.1 (Nat.lt_succ_iff.mp hfuel) (93 :: rest)
      (valueEnds_cons (Or.inr (Or.inl rfl))) hbracket
    have hjoin : joinComma (itemTexts [v]) = v.text := rfl
    rw [scanItems_eq, hjoin, hread]
    rfl
  | cons v' items ih =>
    obtain ⟨fuel, rfl⟩ : ∃ k, fuel = k + 1 := ⟨fuel - 1, by omega⟩
    have hjoin : joinComma (itemTexts (v :: v' :: items)) = v.text ++ 44 :: joinComma (itemTexts (v' :: items)) :=
      List.append_assoc _ _ _
    rw [hjoin, List.length_append, List.length_cons] at hfuel
    have hothers : Decoded (joinComma (itemTexts (v' :: items)) ++ 93 :: rest) :=
      decoded_append (fun c hc => (plain_joinComma (plain_itemTexts (v' :: items) hv.2) c hc).1) hbracket
    have hread := hreads fuel (Nat.lt_succ_self _) v hv.1 (by omega)
      (44 :: (joinComma (itemTexts (v' :: items)) ++ 93 :: rest)) (valueEnds_cons (Or.inl rfl))
      (List.forall_mem_cons.mpr ⟨by decide, hothers⟩)
    have hitems := ih hv.2 (fun k hk => hreads k (by omega)) (show _ < fuel by omega)
      (before ++ [v.toJson floatOf])
    obtain ⟨tail, htail⟩ := joinComma_itemTexts v' items
    have hskip : skipSpace (joinComma (itemTexts (v' :: items)) ++ 93 :: rest) =
        joinComma (itemTexts (v' :: items)) ++ 93 :: rest := by
      rw [htail, List.append_assoc, skipSpace_text hv.2.1]
    rw [scanItems_eq, hjoin, List.append_assoc, List.cons_append, hread, Option.bind_some]
    show behindEntry 93 _ _ (44 :: _) = _
    rw [behindEntry_comma (by decide), hskip, hitems, List.append_assoc]
    rfl

/-- A key is read, then its value with the text `tail` after it. -/
theorem loads_member {key : JsStr} {v : JsValue} (hv : v.Exact) {fuel : Nat} (hreads : LoadsAt floatOf fuel)
    (hlength : v.text.length ≤ fuel) {before : List (PyStr × Json)}
    (hfresh : codePoints key ∉ before.map Prod.fst) {tail : PyStr} (htail : ValueEnds tail) (hdecoded : Decoded tail) :
    scanMembers floatOf (fuel + 1) before (quoteString key ++ py ":" ++ v.text ++ tail) =
      behindEntry 125 (.obj (before ++ [(codePoints key, v.toJson floatOf)]))
        (scanMembers floatOf fuel (before ++ [(codePoints key, v.toJson floatOf)])) (skipSpace tail) := by
  have hread := hreads v hv hlength tail htail hdecoded
  have hcolon : Decoded (py ":" ++ (v.text ++ tail)) :=
    @decoded_append (py ":") _ (List.forall_mem_singleton.mpr (by decide)) (decoded_append (decoded_text hv) hdecoded)
  rw [List.append_assoc, List.append_assoc, quoteString_eq, scanMembers_eq, behindChar_cons,
    scanString_quoted key hcolon, Option.bind_some]
  show behindChar 58 _ (58 :: (v.text ++ tail)) = _
  rw [behindChar_cons, skipSpace_text hv, hread, Option.bind_some]
  dsimp only
  rw [setMember_new hfresh]

theorem loads_members {m : JsStr × JsValue} {members : List (JsStr × JsValue)} (hv : exactMembers (m :: members))
    {before : List (JsStr × JsValue)} (hkeys : ((before ++ m :: members).map Prod.fst).Nodup) {fuel : Nat}
    (hreads : ∀ k < fuel, LoadsAt floatOf k) (hfuel : (joinComma (memberTexts (m :: members))).length < fuel)
    (hrest : Decoded rest) :
    scanMembers floatOf fuel (before.map (memberToJson floatOf))
        (joinComma (memberTexts (m :: members)) ++ 125 :: rest) =
      some (.obj ((before ++ m :: members).map (memberToJson floatOf)), rest) := by
  have hbrace : Decoded (125 :: rest) := List.forall_mem_cons.mpr ⟨by decide, hrest⟩
  have hfresh : ∀ {key : JsStr} {v : JsValue} {members before : List (JsStr × JsValue)},
      ((before ++ (key, v) :: members).map Prod.fst).Nodup →
      codePoints key ∉ (before.map (memberToJson floatOf)).map Prod.fst := by
    intro key v members before hkeys hmem
    rw [List.map_append, List.map_cons] at hkeys
    rw [List.map_map] at hmem
    obtain ⟨m, hm, heq⟩ := List.mem_map.mp hmem
    refine (List.nodup_append.mp hkeys).2.2 m.1 (List.mem_map_of_mem hm) key List.mem_cons_self ?_
    exact codePoints_injective heq
  induction members generalizing m fuel before with
  | nil =>
    obtain ⟨fuel, rfl⟩ : ∃ k, fuel = k + 1 := ⟨fuel - 1, by omega⟩
    obtain ⟨key, v⟩ := m
    have htext : joinComma (memberTexts [(key, v)]) = quoteString key ++ py ":" ++ v.text := rfl
    have hlength : v.text.length ≤ fuel := by
      rw [htext, List.length_append] at hfuel
      omega
    rw [htext, loads_member hv.1 (hreads fuel (Nat.lt_succ_self _)) hlength (hfresh hkeys)
      (valueEnds_cons (Or.inr (Or.inr rfl))) hbrace, List.map_append]
    rfl
  | cons m' members ih =>
    obtain ⟨fuel, rfl⟩ : ∃ k, fuel = k + 1 := ⟨fuel - 1, by omega⟩
    obtain ⟨key, v⟩ := m
    have hjoin : joinComma (memberTexts ((key, v) :: m' :: members)) =
        quoteString key ++ py ":" ++ v.text ++ 44 :: joinComma (memberTexts (m' :: members)) :=
      List.append_assoc _ _ _
    rw [hjoin, List.length_append, List.length_append, List.length_cons] at hfuel
    have hothers : Decoded (joinComma (memberTexts (m' :: members)) ++ 125 :: rest) :=
      decoded_append (fun c hc => (plain_joinComma (plain_memberTexts (m' :: members) hv.2) c hc).1) hbrace
    have hkeys' : ((before ++ [(key, v)] ++ m' :: members).map Prod.fst).Nodup := by
      rw [List.append_assoc]
      exact hkeys
    have hmembers := ih hv.2 hkeys' (fun k hk => hreads k (by omega)) (show _ < fuel by omega)
    obtain ⟨tail, htail⟩ := joinComma_memberTexts m' members
    have hskip : skipSpace (joinComma (memberTexts (m' :: members)) ++ 125 :: rest) =
        joinComma (memberTexts (m' :: members)) ++ 125 :: rest := by
      rw [htail, List.append_assoc, skipSpace_quoteString]
    have hbefore : before.map (memberToJson floatOf) ++ [(codePoints key, v.toJson floatOf)] =
        (before ++ [(key, v)]).map (memberToJson floatOf) := by
      rw [List.map_append]
      rfl
    rw [hjoin, List.append_assoc, List.cons_append, loads_member hv.1 (hreads fuel (Nat.lt_succ_self _)) (by omega)
      (hfresh hkeys) (valueEnds_cons (Or.inl rfl)) (List.forall_mem_cons.mpr ⟨by decide, hothers⟩), hbefore]
    show behindEntry 125 _ _ (44 :: _) = _
    rw [behindEntry_comma (by decide), hskip, hmembers, List.append_assoc]
    rfl

/-- **Python reads a value up to the end of its text**, if the fuel is not below the text's length. -/
theorem loadsAt (floatOf : PyStr → PyFloat) (fuel : Nat) : LoadsAt floatOf fuel := by
  induction fuel using Nat.strong_induction_on with
  | _ fuel ih =>
    intro v hv hfuel rest hrest hdecoded
    obtain ⟨c, w, hw, -⟩ := v.text_head hv
    obtain ⟨fuel, rfl⟩ : ∃ k, fuel = k + 1 := by
      rw [hw, List.length_cons] at hfuel
      exact ⟨fuel - 1, by omega⟩
    have hreads : ∀ k < fuel, LoadsAt floatOf k := fun k hk => ih k (by omega)
    cases v with
    | null => rfl
    | bool b => cases b <;> rfl
    | num n =>
      cases n with
      | int n =>
        have hnumber := @scanNumber_intText floatOf rest n hrest
        have hnumeral := scanNumeral_intText n.val hrest
        have hconstant := @scanConstant_numeral floatOf _ (scanJsConstant_intText n.val rest)
          (by rw [hnumeral]; exact Option.some_ne_none _)
        obtain ⟨d, t, ht, hval, hquote⟩ := intText_head n.val
        show scanValue floatOf (fuel + 1) (intText n.val ++ rest) = some (.int n.val, rest)
        rw [ht, List.cons_append] at hnumber hconstant ⊢
        rw [scanValue, if_neg hquote, if_neg (by omega), if_neg (by omega), hconstant, Option.none_or, hnumber]
      | other text => exact hv.elim
    | str t =>
      rw [JsValue.text, quoteString_eq, scanValue, if_pos (show (34 : PyChar).val = 34 from rfl),
        scanString_quoted t hdecoded]
      rfl
    | arr items =>
      cases items with
      | nil => rfl
      | cons v items =>
        have htext : (JsValue.arr (v :: items)).text ++ rest =
            91 :: (joinComma (itemTexts (v :: items)) ++ 93 :: rest) := by
          rw [JsValue.text, List.append_assoc, List.append_assoc]
          rfl
        have hlength : (joinComma (itemTexts (v :: items))).length < fuel := by
          have hopen : (py "[").length = 1 := rfl
          have hclose : (py "]").length = 1 := rfl
          rw [JsValue.text, List.length_append, List.length_append] at hfuel
          omega
        obtain ⟨tail, htail⟩ := joinComma_itemTexts v items
        obtain ⟨d, w', hw', -, hbracket⟩ := v.text_head hv.1
        have hskip : skipSpace (joinComma (itemTexts (v :: items)) ++ 93 :: rest) =
            joinComma (itemTexts (v :: items)) ++ 93 :: rest := by
          rw [htail, List.append_assoc, skipSpace_text hv.1]
        have hopen : ∀ t, joinComma (itemTexts (v :: items)) ++ 93 :: rest = 93 :: t → False := by
          intro t heq
          rw [htail, List.append_assoc, hw'] at heq
          exact hbracket (List.cons.inj heq).1
        rw [htext, scanValue_array rfl, hskip, behindOpening_open hopen, loads_items hv hreads hlength [] hdecoded]
        rfl
    | obj members =>
      cases members with
      | nil => rfl
      | cons m members =>
        have htext : (JsValue.obj (m :: members)).text ++ rest =
            123 :: (joinComma (memberTexts (m :: members)) ++ 125 :: rest) := by
          rw [JsValue.text, List.append_assoc, List.append_assoc]
          rfl
        have hlength : (joinComma (memberTexts (m :: members))).length < fuel := by
          have hopen : (py "\x7b").length = 1 := rfl
          have hclose : (py "\x7d").length = 1 := rfl
          rw [JsValue.text, List.length_append, List.length_append] at hfuel
          omega
        obtain ⟨tail, htail⟩ := joinComma_memberTexts m members
        have hskip : skipSpace (joinComma (memberTexts (m :: members)) ++ 125 :: rest) =
            joinComma (memberTexts (m :: members)) ++ 125 :: rest := by
          rw [htail, List.append_assoc, skipSpace_quoteString]
        have hopen : ∀ t, joinComma (memberTexts (m :: members)) ++ 125 :: rest = 125 :: t → False := by
          intro t heq
          rw [htail, List.append_assoc, quoteString_eq] at heq
          exact absurd (List.cons.inj heq).1 (by decide)
        have hmembers := @loads_members floatOf rest m members hv.2 [] hv.1 fuel hreads hlength hdecoded
        rw [htext, scanValue_object rfl, hskip, behindOpening_open hopen, JsValue.toJson, membersToJson_eq]
        exact hmembers

/-- **Python reads what JavaScript wrote**, whatever digits are in its strings. -/
theorem loadsText_text (floatOf : PyStr → PyFloat) {v : JsValue} (hv : v.Exact) :
    loadsText floatOf v.text = some (v.toJson floatOf) := by
  have hread := loadsAt floatOf (v.text.length + 1) v hv (Nat.le_succ _) [] valueEnds_nil nofun
  have hskip := skipSpace_text hv []
  rw [List.append_nil] at hread hskip
  unfold loadsText
  rw [hskip, hread]
  rfl

theorem loadsText_stringify (floatOf : PyStr → PyFloat) {v : JsValue} (hv : v.Exact) :
    loadsText floatOf (scalarValues v.stringify) = some (v.ordered.toJson floatOf) := by
  have hexact := v.exact_ordered hv
  unfold JsValue.stringify
  rw [scalarValues_jsText (decoded_text hexact)]
  exact loadsText_text floatOf hexact

/-! ### The order of members -/

mutual
/-- **The order of the properties is all that is lost.** -/
theorem same_ordered (floatOf : PyStr → PyFloat) (v : JsValue) : (v.toJson floatOf).Same (v.ordered.toJson floatOf) := by
  cases v with
  | num n =>
    cases n with
    | int n => rfl
    | other text =>
      refine Json.Same.refl_token ?_
      show (numeralJson floatOf text).isToken = true
      unfold numeralJson
      split_ifs <;> rfl
  | arr items => exact sameItems_ordered floatOf items
  | obj members =>
    have hmembers := sameMembers_ordered floatOf members
    have hperm := ownProperties_perm (orderedMembers members)
    rw [orderedMembers_eq] at hperm
    show (Json.obj (membersToJson floatOf members)).Same
      (.obj (membersToJson floatOf (ownProperties (orderedMembers members))))
    rw [membersToJson_eq, membersToJson_eq, orderedMembers_eq]
    refine ⟨?_, sameMembers_iff.mpr fun j hj => ?_⟩
    · rw [List.length_map, List.length_map, hperm.length_eq, List.length_map]
    · obtain ⟨m, hm, rfl⟩ := List.mem_map.mp hj
      have hmem : orderedMember m ∈ ownProperties (members.map orderedMember) :=
        hperm.mem_iff.mpr (List.mem_map_of_mem hm)
      have hjson : memberToJson floatOf (orderedMember m) ∈
          (ownProperties (members.map orderedMember)).map (memberToJson floatOf) := List.mem_map_of_mem hmem
      exact ⟨_, hjson, hmembers m hm⟩
  | null => trivial
  | bool b => rfl
  | str t => rfl
theorem sameMembers_ordered (floatOf : PyStr → PyFloat) (members : List (JsStr × JsValue)) :
    ∀ m ∈ members, (m.2.toJson floatOf).Same (m.2.ordered.toJson floatOf) := by
  cases members with
  | nil => exact nofun
  | cons m members =>
    exact List.forall_mem_cons.mpr ⟨same_ordered floatOf m.2, sameMembers_ordered floatOf members⟩
theorem sameItems_ordered (floatOf : PyStr → PyFloat) (items : List JsValue) :
    sameItems (itemsToJson floatOf items) (itemsToJson floatOf (orderedItems items)) := by
  cases items with
  | nil => trivial
  | cons v items => exact ⟨same_ordered floatOf v, sameItems_ordered floatOf items⟩
end

end

/-! ### Numbers of another kind -/

section

variable (otherNumber : PyStr → JsNum)

mutual
/-- The value, when its other numbers are read by `otherNumber`. -/
def JsValue.withNumbers : JsValue → JsValue
  | .num (.other text) => .num (otherNumber text)
  | .arr items => .arr (itemsWithNumbers items)
  | .obj members => .obj (membersWithNumbers members)
  | v => v
def itemsWithNumbers : List JsValue → List JsValue
  | [] => []
  | v :: items => v.withNumbers :: itemsWithNumbers items
def membersWithNumbers : List (JsStr × JsValue) → List (JsStr × JsValue)
  | [] => []
  | (key, v) :: members => (key, v.withNumbers) :: membersWithNumbers members
end

/-- A value that was read, with what follows it. -/
def readWithNumbers (found : JsValue × PyStr) : JsValue × PyStr := (found.1.withNumbers otherNumber, found.2)

def memberWithNumbers (m : JsStr × JsValue) : JsStr × JsValue := (m.1, m.2.withNumbers otherNumber)

end

section

variable {otherNumber : PyStr → JsNum} {s : PyStr}

theorem itemsWithNumbers_eq (items : List JsValue) :
    itemsWithNumbers otherNumber items = items.map (·.withNumbers otherNumber) := by
  induction items with
  | nil => rfl
  | cons v items ih => rw [itemsWithNumbers, ih, List.map_cons]

theorem membersWithNumbers_eq (members : List (JsStr × JsValue)) :
    membersWithNumbers otherNumber members = members.map (memberWithNumbers otherNumber) := by
  induction members with
  | nil => rfl
  | cons m members ih =>
    rw [membersWithNumbers, ih, List.map_cons]
    rfl

mutual
/-- A value whose numbers are safe integers has no other numbers. -/
theorem withNumbers_exact (v : JsValue) (hv : v.Exact) : v.withNumbers otherNumber = v := by
  cases v with
  | null => rfl
  | bool b => rfl
  | num n =>
    cases n with
    | int n => rfl
    | other text => exact hv.elim
  | str t => rfl
  | arr items => rw [JsValue.withNumbers, itemsWithNumbers_exact items hv]
  | obj members => rw [JsValue.withNumbers, membersWithNumbers_exact members hv.2]
theorem itemsWithNumbers_exact (items : List JsValue) (hv : exactItems items) :
    itemsWithNumbers otherNumber items = items := by
  cases items with
  | nil => rfl
  | cons v items => rw [itemsWithNumbers, withNumbers_exact v hv.1, itemsWithNumbers_exact items hv.2]
theorem membersWithNumbers_exact (members : List (JsStr × JsValue)) (hv : exactMembers members) :
    membersWithNumbers otherNumber members = members := by
  cases members with
  | nil => rfl
  | cons m members => rw [membersWithNumbers, withNumbers_exact m.2 hv.1, membersWithNumbers_exact members hv.2]
end

theorem setProperty_withNumbers (members : List (JsStr × JsValue)) (key : JsStr) (v : JsValue) :
    setProperty (members.map (memberWithNumbers otherNumber)) key (v.withNumbers otherNumber) =
      (setProperty members key v).map (memberWithNumbers otherNumber) := by
  unfold setProperty
  rw [List.any_map]
  have hkey : ((fun m : JsStr × JsValue => m.1 == key) ∘ memberWithNumbers otherNumber) = fun m => m.1 == key := rfl
  rw [hkey]
  split_ifs
  · rw [List.map_map, List.map_map]
    refine List.map_congr_left fun m _ => ?_
    show (if (m.1 == key) = true then _ else _) = memberWithNumbers otherNumber (if (m.1 == key) = true then _ else _)
    split_ifs
    · rfl
    · rfl
  · rw [List.map_append]
    rfl

theorem behindChar_map {c : PyChar} {read read' : PyStr → Option (JsValue × PyStr)}
    (h : ∀ t, read' t = (read t).map (readWithNumbers otherNumber)) :
    behindChar c read' s = (behindChar c read s).map (readWithNumbers otherNumber) := by
  unfold behindChar
  split_ifs
  · exact h s.tail
  · rfl

theorem behindOpening_map {closing : PyChar} {v : JsValue} {read read' : PyStr → Option (JsValue × PyStr)}
    (h : ∀ t, read' t = (read t).map (readWithNumbers otherNumber)) :
    behindOpening closing (v.withNumbers otherNumber) read' s =
      (behindOpening closing v read s).map (readWithNumbers otherNumber) := by
  unfold behindOpening
  split_ifs
  · rfl
  · exact h s

theorem behindEntry_map {closing : PyChar} {whole : JsValue} {read read' : PyStr → Option (JsValue × PyStr)}
    (h : ∀ t, read' t = (read t).map (readWithNumbers otherNumber)) :
    behindEntry closing (whole.withNumbers otherNumber) read' s =
      (behindEntry closing whole read s).map (readWithNumbers otherNumber) := by
  unfold behindEntry
  split_ifs
  · rfl
  · exact behindChar_map fun t => h (skipSpace t)

theorem numberOf_withNumbers (text : PyStr) :
    (JsValue.num (numberOf .other text)).withNumbers otherNumber = .num (numberOf otherNumber text) := by
  unfold numberOf
  split_ifs <;> rfl

theorem scanJsConstant_withNumbers :
    (scanJsConstant s).map (readWithNumbers otherNumber) = scanJsConstant s := by
  unfold scanJsConstant
  rw [Option.map_map]
  refine Option.map_congr fun c hc => ?_
  have hmem := List.mem_of_find?_eq_some hc
  simp only [jsConstants, List.mem_cons, List.not_mem_nil, or_false] at hmem
  rcases hmem with rfl | rfl | rfl
  · rfl
  · rfl
  · rfl

/-- Another reader of numbers reads the same values, up to these numbers. -/
structure NumbersAt (otherNumber : PyStr → JsNum) (fuel : Nat) : Prop where
  value : ∀ s, parseValue otherNumber fuel s = (parseValue .other fuel s).map (readWithNumbers otherNumber)
  members : ∀ members s, parseMembers otherNumber fuel (members.map (memberWithNumbers otherNumber)) s =
    (parseMembers .other fuel members s).map (readWithNumbers otherNumber)
  items : ∀ items s, parseItems otherNumber fuel (items.map (·.withNumbers otherNumber)) s =
    (parseItems .other fuel items s).map (readWithNumbers otherNumber)

theorem numbersAt_value {fuel : Nat} (h : NumbersAt otherNumber fuel) (s : PyStr) :
    parseValue otherNumber (fuel + 1) s = (parseValue .other (fuel + 1) s).map (readWithNumbers otherNumber) := by
  cases s with
  | nil => rfl
  | cons c t =>
    by_cases hobject : c.val = 123
    · rw [parseValue_object hobject, parseValue_object hobject]
      exact behindOpening_map (v := .obj []) (h.members [])
    by_cases harray : c.val = 91
    · rw [parseValue_array harray, parseValue_array harray]
      exact behindOpening_map (v := .arr []) (h.items [])
    rw [parseValue, parseValue, if_neg hobject, if_neg hobject, if_neg harray, if_neg harray]
    split_ifs
    · rw [Option.map_map]
      rfl
    · cases hconstant : scanJsConstant (c :: t) with
      | some found =>
        rw [Option.some_or, Option.some_or, ← hconstant]
        exact scanJsConstant_withNumbers.symm
      | none =>
        rw [Option.none_or, Option.none_or, Option.map_map]
        refine Option.map_congr fun found _ => ?_
        exact Prod.ext (numberOf_withNumbers found.1).symm rfl

theorem numbersAt (otherNumber : PyStr → JsNum) (fuel : Nat) : NumbersAt otherNumber fuel := by
  induction fuel with
  | zero => exact ⟨fun _ => rfl, fun _ _ => rfl, fun _ _ => rfl⟩
  | succ fuel ih =>
    refine ⟨numbersAt_value ih, fun members s => ?_, fun items s => ?_⟩
    · rw [parseMembers_eq, parseMembers_eq]
      refine behindChar_map fun t => ?_
      rw [Option.map_bind]
      refine congrArg (Option.bind _) (funext fun key => behindChar_map fun t => ?_)
      rw [ih.value, Option.bind_map, Option.map_bind]
      refine congrArg (Option.bind _) (funext fun v => ?_)
      have hobject : (JsValue.obj (setProperty members key.1 v.1)).withNumbers otherNumber =
          .obj (setProperty (members.map (memberWithNumbers otherNumber)) key.1 (v.1.withNumbers otherNumber)) := by
        rw [JsValue.withNumbers, membersWithNumbers_eq, setProperty_withNumbers]
      show behindEntry 125 (JsValue.obj (setProperty _ _ (v.1.withNumbers otherNumber))) _ (skipSpace v.2) = _
      rw [← hobject]
      refine behindEntry_map fun t => ?_
      show parseMembers otherNumber fuel (setProperty _ _ (v.1.withNumbers otherNumber)) t = _
      rw [setProperty_withNumbers]
      exact ih.members _ t
    · rw [parseItems_eq, parseItems_eq, ih.value, Option.bind_map, Option.map_bind]
      refine congrArg (Option.bind _) (funext fun v => ?_)
      have hitems : items.map (·.withNumbers otherNumber) ++ [v.1.withNumbers otherNumber] =
          (items ++ [v.1]).map (·.withNumbers otherNumber) := by
        rw [List.map_append, List.map_singleton]
      have harray : (JsValue.arr (items ++ [v.1])).withNumbers otherNumber =
          .arr ((items ++ [v.1]).map (·.withNumbers otherNumber)) := by
        rw [JsValue.withNumbers, itemsWithNumbers_eq]
      show behindEntry 93 (JsValue.arr (_ ++ [v.1.withNumbers otherNumber])) _ (skipSpace v.2) = _
      rw [hitems, ← harray]
      refine behindEntry_map fun t => ?_
      show parseItems otherNumber fuel (_ ++ [v.1.withNumbers otherNumber]) t = _
      rw [hitems]
      exact ih.items _ t

/-- A value whose numbers are written as safe integers does not depend on the reader of the others. -/
theorem parseJson_exact {t : JsStr} {v : JsValue} (h : parseJson .other t = some v) (hv : v.Exact) :
    parseJson otherNumber t = some v := by
  unfold parseJson at h ⊢
  dsimp only at h ⊢
  rw [(numbersAt otherNumber _).value]
  split at h
  next v' rest hread =>
    split_ifs at h with hend
    cases h
    rw [hread]
    show (if skipSpace rest = [] then some (JsValue.withNumbers otherNumber v) else none) = _
    rw [if_pos hend, withNumbers_exact v hv]
  next => cases h

end

end NetopsCopilot
