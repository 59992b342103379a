import NetopsCopilot.Python.Codecs
import NetopsCopilot.Python.Convert

/-!
# Reading identifiers (`uuid.UUID`)

`UUID` takes a text of 32 hexadecimal digits, after braces, hyphens and the URN prefix are removed, and reads it
with `int`: so digits of any script, underscores, a sign and a second prefix `0x` are accepted as well.
`uuidOfText_str`: what `str` writes is read back.
-/

namespace NetopsCopilot

section

variable (U : UnicodeData)

/-! ### `int(s, 16)` -/

/-- The value of a hexadecimal digit; the decimal digits are those of every script. -/
def hexDigitValue (c : PyChar) : Option Nat :=
  match U.decimal c with
  | some d => some d.val
  | none =>
    if 65 ≤ c.val ∧ c.val ≤ 70 then some (c.val - 55)
    else if 97 ≤ c.val ∧ c.val ≤ 102 then some (c.val - 87)
    else none

/-- What follows a prefix `0x`, which one underscore may follow. -/
def dropHexPrefix : PyStr → PyStr
  | c :: x :: s =>
    if hexDigitValue U c = some 0 ∧ (x.val = 120 ∨ x.val = 88) then
      match s with
      | 95 :: s => s
      | s => s
    else c :: x :: s
  | s => s

/-- The number of an unsigned hexadecimal text. -/
def unsignedHex (s : PyStr) : Option Nat :=
  (digitValues (hexDigitValue U) false (dropHexPrefix U s)).map fun digits => digits.foldl (fun n d => 16 * n + d) 0

/-- `int(s, 16)`, where `none` is a `ValueError`. -/
def pyIntHex (s : PyStr) : Option Int :=
  match stripBy isIntSpace s with
  | c :: rest =>
    if c == 43 then (unsignedHex U rest).map Int.ofNat
    else if c == 45 then (unsignedHex U rest).map fun n => -Int.ofNat n
    else (unsignedHex U (c :: rest)).map Int.ofNat
  | [] => none

/-! ### `UUID(hex)` -/

/-- The text that `UUID` takes for the digits. -/
def uuidDigits (text : PyStr) : PyStr :=
  replaceText (py "-") [] (stripBy (fun c => c == 123 || c == 125)
    (replaceText (py "uuid:") [] (replaceText (py "urn:") [] text)))

/-- `UUID(text)`, where `none` is a `ValueError`. -/
def uuidOfText (text : PyStr) : Option Uuid :=
  if (uuidDigits text).length = 32 then
    match pyIntHex U (uuidDigits text) with
    | some n => if h : n.toNat < 2 ^ 128 ∧ 0 ≤ n then some ⟨n.toNat, h.1⟩ else none
    | none => none
  else none

end

/-! ### What `str` writes -/

/-- Nothing is replaced in a text that lacks the first character of what is looked for. -/
theorem replaceText_of_not_mem {c : PyChar} {old new s : PyStr} (h : c ∉ s) : replaceText (c :: old) new s = s := by
  unfold replaceText
  induction s with
  | nil => rfl
  | cons d s ih =>
    obtain ⟨hd, hs⟩ := not_or.mp (List.mem_cons.not.mp h)
    have hhead : (c :: old).isPrefixOf (d :: s) = false := by
      rw [List.isPrefixOf, beq_eq_false_iff_ne.mpr hd, Bool.false_and]
    rw [replaceFrom, hhead, if_neg Bool.false_ne_true, ih hs]

/-- A character is removed. -/
theorem replaceText_char (c : PyChar) (s : PyStr) : replaceText [c] [] s = s.filter (· != c) := by
  unfold replaceText
  induction s with
  | nil => rfl
  | cons d s ih =>
    rw [replaceFrom, List.filter_cons]
    by_cases hd : c = d
    · subst hd
      simpa [List.isPrefixOf] using ih
    · simpa [List.isPrefixOf, hd, Ne.symm hd] using ih

section

variable {U : UnicodeData}

theorem hexDigitValue_digitChar {d : Nat} (hd : d < 16) : hexDigitValue U (digitChar d) = some d := by
  have hlow : (digitChar d).val < 128 := by
    unfold digitChar
    split_ifs <;> simp [Fin.ofNat] <;> omega
  unfold hexDigitValue
  rw [U.decimal_ascii _ hlow]
  interval_cases d <;> rfl

/-- The digits of a number, read back. -/
theorem foldl_hexFixed (len n : Nat) :
    ((hexFixed len n).filterMap (hexDigitValue U)).foldl (fun n d => 16 * n + d) 0 = n % 16 ^ len := by
  induction len generalizing n with
  | zero => simp [hexFixed, Nat.mod_one]
  | succ len ih =>
    have hdigit := hexDigitValue_digitChar (U := U) (Nat.mod_lt n (by decide : 0 < 16))
    have hlast : List.filterMap (hexDigitValue U) [digitChar (n % 16)] = [n % 16] := by
      rw [List.filterMap_cons, hdigit, List.filterMap_nil]
    rw [hexFixed, List.filterMap_append, List.foldl_append, ih, hlast, List.foldl_cons, List.foldl_nil, pow_succ,
      mul_comm (16 ^ len) 16, Nat.mod_mul]
    omega

theorem hexDigitValue_isSome_of_mem {c : PyChar} (hc : c ∈ py "0123456789abcdef") : (hexDigitValue U c).isSome = true := by
  have hdigits : (py "0123456789abcdef").all (fun c => (List.range 16).any fun d => digitChar d == c) = true := by
    decide
  obtain ⟨d, hd, hdc⟩ := List.any_eq_true.mp (List.all_eq_true.mp hdigits c hc)
  rw [← beq_iff_eq.mp hdc, hexDigitValue_digitChar (List.mem_range.mp hd)]
  rfl

/-- A text of hexadecimal digits as `str` writes them is a number. -/
theorem pyIntHex_of_hex {s : PyStr} (hs : ∀ c ∈ s, c ∈ py "0123456789abcdef") (hne : s ≠ []) :
    pyIntHex U s = some (Int.ofNat ((s.filterMap (hexDigitValue U)).foldl (fun n d => 16 * n + d) 0)) := by
  have hall : (py "0123456789abcdef").all (fun c => !isIntSpace c && c != 43 && c != 45 && c != 120 && c != 88) = true := by
    decide
  have hplain : ∀ c ∈ s, isIntSpace c = false ∧ (c == 43) = false ∧ (c == 45) = false ∧ c.val ≠ 120 ∧ c.val ≠ 88 := by
    intro c hc
    have hc' := List.all_eq_true.mp hall c (hs c hc)
    simp only [Bool.and_eq_true, Bool.not_eq_true', bne_iff_ne, ne_eq, Fin.ext_iff] at hc'
    obtain ⟨⟨⟨⟨hspace, hplus⟩, hminus⟩, hx⟩, hX⟩ := hc'
    refine ⟨hspace, beq_eq_false_iff_ne.mpr fun h => hplus ?_, beq_eq_false_iff_ne.mpr fun h => hminus ?_, hx, hX⟩
    · rw [h]
    · rw [h]
  have hhead : dropHexPrefix U s = s := by
    unfold dropHexPrefix
    split
    next c x t =>
      have hx := hplain x (by simp)
      rw [if_neg fun h => h.2.elim hx.2.2.2.1 hx.2.2.2.2]
    next => rfl
  have hdigits : unsignedHex U s = some ((s.filterMap (hexDigitValue U)).foldl (fun n d => 16 * n + d) 0) := by
    unfold unsignedHex
    rw [hhead, digitValues_of_digits (fun c hc => hexDigitValue_isSome_of_mem (hs c hc)) (Or.inr hne)]
    rfl
  unfold pyIntHex
  rw [stripBy_eq_self fun c hc => (hplain c hc).1]
  cases s with
  | nil => exact absurd rfl hne
  | cons c t =>
    have hc := hplain c List.mem_cons_self
    dsimp only
    rw [hc.2.1, hc.2.2.1, if_neg Bool.false_ne_true, if_neg Bool.false_ne_true, hdigits]
    rfl

theorem uuidDigits_str (u : Uuid) : uuidDigits (Uuid.str u) = hexFixed 32 u.val := by
  have hchars : (py "-0123456789abcdef").all (fun c => c != 117 && c != 123 && c != 125) = true := by decide
  have hplain : ∀ c ∈ Uuid.str u, c ≠ 117 ∧ c ≠ 123 ∧ c ≠ 125 := by
    intro c hc
    have hc' := List.all_eq_true.mp hchars c (uuid_chars u c hc)
    simpa only [Bool.and_eq_true, bne_iff_ne, ne_eq, and_assoc] using hc'
  have hmark : (117 : PyChar) ∉ Uuid.str u := fun h => (hplain _ h).1 rfl
  have hurn : replaceText (py "urn:") [] (Uuid.str u) = Uuid.str u := replaceText_of_not_mem hmark
  have huuid : replaceText (py "uuid:") [] (Uuid.str u) = Uuid.str u := replaceText_of_not_mem hmark
  have hbraces : stripBy (fun c => c == 123 || c == 125) (Uuid.str u) = Uuid.str u := stripBy_eq_self fun c hc => by
    simp [(hplain c hc).2.1, (hplain c hc).2.2]
  have hhex : ∀ {t : PyStr}, (∀ c ∈ t, c ∈ hexFixed 32 u.val) → t.filter (· != 45) = t := by
    intro t ht
    refine List.filter_eq_self.mpr fun c hc => ?_
    have hdigit := of_decide_eq_true (List.all_eq_true.mp (hexFixed_hex 32 u.val) c (ht c hc))
    have hall : (py "0123456789abcdef").all (· != 45) = true := by decide
    exact List.all_eq_true.mp hall c hdigit
  have hpart : ∀ i j, (((hexFixed 32 u.val).drop i).take j).filter (· != 45) = ((hexFixed 32 u.val).drop i).take j :=
    fun i j => hhex fun c hc => List.mem_of_mem_drop (List.mem_of_mem_take hc)
  have hjoin : ∀ i j, ((hexFixed 32 u.val).drop i).take j ++ (hexFixed 32 u.val).drop (i + j) =
      (hexFixed 32 u.val).drop i := fun i j => by
    rw [← List.drop_drop, List.take_append_drop]
  have hdash : (py "-").filter (· != 45) = [] := by decide
  unfold uuidDigits
  rw [hurn, huuid, hbraces]
  show replaceText [45] [] _ = _
  rw [replaceText_char, Uuid.str]
  simp only [List.filter_append, hdash, List.nil_append, hpart, hhex fun c hc => List.mem_of_mem_take hc,
    hhex fun c hc => List.mem_of_mem_drop hc, List.append_assoc]
  have h16 := hjoin 16 4
  have h12 := hjoin 12 4
  have h8 := hjoin 8 4
  rw [h16, h12, h8, List.take_append_drop]

/-- **`UUID` reads what `str` writes.** -/
theorem uuidOfText_str (u : Uuid) : uuidOfText U (Uuid.str u) = some u := by
  have hhex : ∀ c ∈ hexFixed 32 u.val, c ∈ py "0123456789abcdef" := fun c hc =>
    of_decide_eq_true (List.all_eq_true.mp (hexFixed_hex 32 u.val) c hc)
  have hlength : (hexFixed 32 u.val).length = 32 := hexFixed_length 32 u.val
  have hne : hexFixed 32 u.val ≠ [] := fun h => by simp [h] at hlength
  have hvalue : u.val % 16 ^ 32 = u.val := Nat.mod_eq_of_lt u.isLt
  unfold uuidOfText
  rw [uuidDigits_str, if_pos hlength, pyIntHex_of_hex hhex hne, foldl_hexFixed, hvalue]
  exact dif_pos ⟨u.isLt, Int.natCast_nonneg _⟩

end

end NetopsCopilot
