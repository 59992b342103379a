import NetopsCopilot.Lib.Regex
import NetopsCopilot.Python.Text

/-!
# Patterns of Python's `re` on `str`

The atoms of the program's patterns, all compiled with `re.IGNORECASE`. A letter of a pattern matches its two
cases and the three letters outside ASCII that `re` treats as one of them: `ı`, `ſ` and `K` (Kelvin), next to
`İ`, whose lower case is `i`. Which characters outside ASCII are alphanumeric or decimal digits is Unicode
data, a parameter here with the facts the program relies on.
-/

namespace NetopsCopilot

/-- ASCII letters and digits. -/
def PyChar.isAsciiAlnum (c : PyChar) : Bool :=
  (48 ≤ c.val && c.val ≤ 57) || (65 ≤ c.val && c.val ≤ 90) || (97 ≤ c.val && c.val ≤ 122)

/-- The four characters outside ASCII that `re.IGNORECASE` treats as ASCII letters. -/
def PyChar.isFoldedLetter (c : PyChar) : Bool :=
  c.val == 0x130 || c.val == 0x131 || c.val == 0x17F || c.val == 0x212A

/-- `str.isalnum` and `str.isprintable` on one character, and the value of a decimal digit. -/
structure UnicodeData where
  alnum : PyChar → Bool
  decimal : PyChar → Option (Fin 10)
  printable : PyChar → Bool
  alnum_ascii : ∀ c : PyChar, c.val < 128 → alnum c = c.isAsciiAlnum
  decimal_ascii : ∀ c : PyChar, c.val < 128 →
    decimal c = if h : 48 ≤ c.val ∧ c.val ≤ 57 then some ⟨c.val - 48, by omega⟩ else none
  alnum_of_decimal : ∀ c, (decimal c).isSome = true → alnum c = true
  alnum_of_folded : ∀ c : PyChar, c.isFoldedLetter = true → alnum c = true
  not_alnum_of_space : ∀ c : PyChar, c.isSpace = true → alnum c = false

/-- The data of a text whose characters are ASCII or folded letters. -/
def UnicodeData.ascii : UnicodeData where
  alnum c := c.isAsciiAlnum || c.isFoldedLetter
  decimal c := if h : 48 ≤ c.val ∧ c.val ≤ 57 then some ⟨c.val - 48, by omega⟩ else none
  printable c := (32 ≤ c.val && c.val ≤ 126) || c.isFoldedLetter
  alnum_ascii c hc := by
    have hnot : c.isFoldedLetter = false := by
      simp only [PyChar.isFoldedLetter, Bool.or_eq_false_iff, beq_eq_false_iff_ne]
      omega
    rw [hnot, Bool.or_false]
  decimal_ascii _ _ := rfl
  alnum_of_decimal c hc := by
    split_ifs at hc with h
    · simp [PyChar.isAsciiAlnum, h]
    · cases hc
  alnum_of_folded c hc := by rw [hc, Bool.or_true]
  not_alnum_of_space c hc := by
    simp only [PyChar.isSpace, PyChar.isAsciiAlnum, PyChar.isFoldedLetter, Bool.or_eq_true, Bool.and_eq_true,
      decide_eq_true_eq, beq_iff_eq, Bool.or_eq_false_iff, Bool.and_eq_false_iff, decide_eq_false_iff_not,
      beq_eq_false_iff_ne] at hc ⊢
    omega

namespace PyChar

/-- What `re.IGNORECASE` compares. -/
def fold (c : PyChar) : PyChar :=
  if 65 ≤ c.val && c.val ≤ 90 then c + 32
  else if c.val == 0x130 || c.val == 0x131 then 0x69
  else if c.val == 0x17F then 0x73
  else if c.val == 0x212A then 0x6B
  else c

/-- Equal up to letter case. -/
def sameLetter (a b : PyChar) : Bool := a.fold == b.fold

end PyChar

namespace Re

variable {γ : Type}

/-- Literal text. -/
def lit (s : String) : Regex γ PyChar := .cat ((py s).map fun c => .char c.sameLetter)

/-- `\s*`. -/
def spaces : Regex γ PyChar := .many true PyChar.isSpace

/-- `\s+`. -/
def spaces1 : Regex γ PyChar := .many1 PyChar.isSpace

/-- `\S+`. -/
def nonSpaces1 : Regex γ PyChar := .many1 fun c => !c.isSpace

/-- `.*?`. -/
def anyLazy : Regex γ PyChar := .many false fun c => c != 10

/-- `^`. -/
def start : Regex γ PyChar := .look fun behind _ => behind.isEmpty

/-- `$`. -/
def finish : Regex γ PyChar := .look fun _ ahead => ahead.isEmpty || ahead == [10]

section

variable (U : UnicodeData)

/-- `\d`. -/
def isDigit (c : PyChar) : Bool := (U.decimal c).isSome

/-- `\d+`. -/
def digits1 : Regex γ PyChar := .many1 (isDigit U)

/-- `\w`. -/
def isWord (c : PyChar) : Bool := U.alnum c || c == 95

/-- `\b`. -/
def boundary : Regex γ PyChar :=
  .look fun behind ahead => behind.head?.any (isWord U) != ahead.head?.any (isWord U)

end

/-- `r1|r2|…`. -/
def oneOf : List (Regex γ PyChar) → Regex γ PyChar
  | [] => .notAhead .empty
  | [r] => r
  | r :: rs => .alt r (oneOf rs)

/-- `pattern.search(text)` from a position on. -/
def searchFrom (r : Regex γ PyChar) : PyStr → PyStr → Option (Cursor γ PyChar)
  | behind, [] => (r.ends ⟨behind, [], []⟩).head?
  | behind, c :: ahead => (r.ends ⟨behind, c :: ahead, []⟩).head?.or (searchFrom r (c :: behind) ahead)

/-- `pattern.search(text)`. -/
def search (r : Regex γ PyChar) (text : PyStr) : Option (Cursor γ PyChar) := searchFrom r [] text

end Re

end NetopsCopilot
