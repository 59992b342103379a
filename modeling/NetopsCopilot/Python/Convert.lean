import NetopsCopilot.Python.Json
import NetopsCopilot.Python.Re

/-!
# Conversions between numbers and text (`int`, `repr`, `str.lower`, `str.split`)

`int` reads the decimal digits of every script, with single underscores between them, and refuses more than
4300 of them.
-/

namespace NetopsCopilot

/-- Digits with single underscores between them; `before` is whether a digit has just been read. -/
def digitValues {α : Type} (digit : PyChar → Option α) : Bool → PyStr → Option (List α)
  | before, [] => if before then some [] else none
  | before, c :: s =>
    match digit c with
    | some d => (digitValues digit true s).map (d :: ·)
    | none => if c == 95 && before then digitValues digit false s else none

section

variable (U : UnicodeData)

/-- The number of a sequence of digits. -/
def digitsNumber (digits : List (Fin 10)) : Nat := digits.foldl (fun n d => 10 * n + d.val) 0

/-- `sys.int_info.default_max_str_digits`. -/
def maxStrDigits : Nat := 4300

/-- The number of an unsigned decimal text. -/
def unsignedInt (s : PyStr) : Option Nat :=
  match digitValues U.decimal false s with
  | some digits => if digits.length ≤ maxStrDigits then some (digitsNumber digits) else none
  | none => none

/-- What `int` skips at the ends; not the four separators that `strip` skips as well. -/
def isIntSpace (c : PyChar) : Bool := c.isSpace && !(28 ≤ c.val && c.val ≤ 31)

/-- `int(s)`, where `none` is a `ValueError`. -/
def pyInt (s : PyStr) : Option Int :=
  match stripBy isIntSpace s with
  | c :: rest =>
    if c == 43 then (unsignedInt U rest).map Int.ofNat
    else if c == 45 then (unsignedInt U rest).map fun n => -Int.ofNat n
    else (unsignedInt U (c :: rest)).map Int.ofNat
  | [] => none

/-- A character in `repr(s)`. -/
def reprChar (quote c : PyChar) : PyStr :=
  if c == quote || c == 92 then [92, c]
  else if c == 9 then py "\\t"
  else if c == 10 then py "\\n"
  else if c == 13 then py "\\r"
  else if U.printable c then [c]
  else if c.val < 0x100 then py "\\x" ++ hexFixed 2 c.val
  else if c.val < 0x10000 then py "\\u" ++ hexFixed 4 c.val
  else py "\\U" ++ hexFixed 8 c.val

/-- `repr(s)`. -/
def reprStr (s : PyStr) : PyStr :=
  let quote : PyChar := if s.contains 39 && !s.contains 34 then 34 else 39
  quote :: (s.flatMap (reprChar U quote) ++ [quote])

end

/-- `str.lower` on a letter that `re.IGNORECASE` takes for an ASCII letter. -/
def lowerLetter (c : PyChar) : PyStr :=
  if 65 ≤ c.val && c.val ≤ 90 then [c + 32]
  else if c.val == 0x130 then [0x69, 0x307]
  else if c.val == 0x212A then [0x6B]
  else [c]

/-- `s.lower()` for such letters. -/
def lowerLetters (s : PyStr) : PyStr := s.flatMap lowerLetter

/-- `s.split()`. -/
def splitSpaces (s : PyStr) : List PyStr := (s.splitOnP PyChar.isSpace).filter fun token => !token.isEmpty

/-! ### Plain digits -/

section

variable {U : UnicodeData} {s : PyStr}

theorem isSpace_of_decimal {c : PyChar} (h : (U.decimal c).isSome = true) : c.isSpace = false := by
  rw [← Bool.not_eq_true]
  intro hspace
  have halnum := U.alnum_of_decimal c h
  rw [U.not_alnum_of_space c hspace] at halnum
  cases halnum

/-- A text without characters to strip. -/
theorem stripBy_eq_self {p : PyChar → Bool} (h : ∀ c ∈ s, p c = false) : stripBy p s = s := by
  have hdrop : s.dropWhile p = s := by
    cases s with
    | nil => rfl
    | cons c s => exact List.dropWhile_cons_of_neg (by simp [h c List.mem_cons_self])
  have hrdrop : s.rdropWhile p = s := by
    rcases List.eq_nil_or_concat s with rfl | ⟨t, c, rfl⟩
    · rfl
    · rw [List.concat_eq_append]
      exact List.rdropWhile_concat_neg _ _ _ (by simp [h c (by simp)])
  rw [stripBy, hdrop, hrdrop]

/-- The values of digits, which are all read. -/
theorem digitValues_of_digits {α : Type} {digit : PyChar → Option α} (h : ∀ c ∈ s, (digit c).isSome = true)
    {before : Bool} (hne : before = true ∨ s ≠ []) : digitValues digit before s = some (s.filterMap digit) := by
  induction s generalizing before with
  | nil =>
    obtain rfl := hne.resolve_right (not_not.mpr rfl)
    rfl
  | cons c s ih =>
    obtain ⟨hc, hs⟩ := List.forall_mem_cons.mp h
    obtain ⟨d, hd⟩ := Option.isSome_iff_exists.mp hc
    rw [digitValues, hd, List.filterMap_cons, hd]
    dsimp only
    rw [ih hs (Or.inl rfl)]
    rfl

/-- `int` refuses a decimal text if it has too many digits. -/
theorem pyInt_of_decimal (h : ∀ c ∈ s, (U.decimal c).isSome = true) (hne : s ≠ []) :
    pyInt U s = if s.length ≤ maxStrDigits then some (Int.ofNat (digitsNumber (s.filterMap U.decimal)))
      else none := by
  have hlength : (s.filterMap U.decimal).length = s.length := by
    rw [List.length_filterMap_eq_countP, List.countP_eq_length]
    exact h
  have hspace : ∀ c ∈ s, isIntSpace c = false := fun c hc => by
    rw [isIntSpace, isSpace_of_decimal (h c hc), Bool.false_and]
  unfold pyInt
  rw [stripBy_eq_self hspace]
  cases s with
  | nil => exact absurd rfl hne
  | cons c s =>
    have hsign : ∀ n : PyChar, n.val < 48 → (c == n) = false := by
      intro n hn
      rw [beq_eq_false_iff_ne]
      rintro rfl
      have hc := h c List.mem_cons_self
      rw [U.decimal_ascii c (by omega), dif_neg (by omega)] at hc
      cases hc
    dsimp only
    rw [hsign 43 (by decide), hsign 45 (by decide), if_neg Bool.false_ne_true, if_neg Bool.false_ne_true]
    unfold unsignedInt
    rw [digitValues_of_digits h (Or.inr (List.cons_ne_nil c s))]
    dsimp only
    rw [hlength]
    split_ifs <;> rfl

end

example : pyInt .ascii (py "+1_000") = some 1000 ∧ pyInt .ascii (py "1__0") = none := by decide

end NetopsCopilot
