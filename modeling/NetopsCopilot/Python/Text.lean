import Mathlib.Data.List.DropRight
import NetopsCopilot.Lib.Utf8

/-!
# Python text

A Python `str` is a list of code points (`PyStr`). Unlike a Lean `String` it may hold surrogate code
points, which `json.dumps` and `str.strip` treat like any other character. `py` reads a Lean literal
as Python text.

Also here: `str.isspace` (the same set as `\s` in `re`), `str.strip`, and PostgreSQL's `btrim`, which
strips spaces only. A text that `btrim` empties is one that `strip` empties (`isBlank_of_btrim_nil`),
not the other way round.
-/

namespace NetopsCopilot

/-- A Unicode code point, surrogates included. -/
abbrev PyChar := Fin 0x110000

/-- A Python `str`. -/
abbrev PyStr := List PyChar

instance lawfulBEqPyChar : LawfulBEq PyChar := inferInstance

instance lawfulBEqPyStr : LawfulBEq PyStr := inferInstance

/-- The code point of a Lean character. -/
def PyChar.ofChar (c : Char) : PyChar := ⟨c.toNat % 0x110000, Nat.mod_lt _ (by decide)⟩

/-- A Lean literal as Python text. -/
def py (s : String) : PyStr := s.toList.map PyChar.ofChar

namespace PyChar

/-- `str.isspace` on one character. -/
def isSpace (c : PyChar) : Bool :=
  (9 ≤ c.val && c.val ≤ 13) || (28 ≤ c.val && c.val ≤ 32) || c.val == 0x85 || c.val == 0xA0 ||
    c.val == 0x1680 || (0x2000 ≤ c.val && c.val ≤ 0x200A) || c.val == 0x2028 || c.val == 0x2029 ||
    c.val == 0x202F || c.val == 0x205F || c.val == 0x3000

/-- The space character, the only one `btrim` strips. -/
def isBlankChar (c : PyChar) : Bool := c.val == 32

theorem isSpace_of_isBlankChar {c : PyChar} (h : c.isBlankChar = true) : c.isSpace = true := by
  simp only [isBlankChar, beq_iff_eq] at h
  simp [isSpace, h]

end PyChar

/-! ### Stripping -/

/-- A text without the characters satisfying `p` at its two ends. -/
def stripBy (p : PyChar → Bool) (s : PyStr) : PyStr := (s.dropWhile p).rdropWhile p

/-- `str.strip()`. -/
def strip (s : PyStr) : PyStr := stripBy PyChar.isSpace s

/-- PostgreSQL `btrim(text)`. -/
def btrim (s : PyStr) : PyStr := stripBy PyChar.isBlankChar s

/-- `not value.strip()`. -/
def isBlank (s : PyStr) : Bool := (strip s).isEmpty

theorem stripBy_eq_nil {p : PyChar → Bool} {s : PyStr} : stripBy p s = [] ↔ ∀ c ∈ s, p c = true := by
  rw [stripBy, List.rdropWhile_eq_nil_iff]
  constructor
  · intro h
    have hnil : s.dropWhile p = [] := by
      by_contra hne
      have hc := List.head_dropWhile_not p hne
      rw [h _ (List.head_mem hne)] at hc
      cases hc
    exact List.dropWhile_eq_nil_iff.mp hnil
  · intro h c hc
    exact h c ((List.dropWhile_sublist p).subset hc)

theorem isBlank_iff {s : PyStr} : isBlank s = true ↔ ∀ c ∈ s, c.isSpace = true := by
  rw [isBlank, List.isEmpty_iff, strip, stripBy_eq_nil]

/-- A trimmed text ends in no space. -/
theorem getLast?_strip {s : PyStr} (hne : strip s ≠ []) : ∃ c, (strip s).getLast? = some c ∧ c.isSpace = false := by
  refine ⟨(strip s).getLast hne, List.getLast?_eq_some_getLast hne, ?_⟩
  rw [← Bool.not_eq_true]
  exact List.rdropWhile_last_not _ _ hne

theorem btrim_eq_nil {s : PyStr} : btrim s = [] ↔ ∀ c ∈ s, c.isBlankChar = true := stripBy_eq_nil

/-- What SQL calls blank, Python calls blank. -/
theorem isBlank_of_btrim_nil {s : PyStr} (h : btrim s = []) : isBlank s = true :=
  isBlank_iff.mpr fun c hc => PyChar.isSpace_of_isBlankChar (btrim_eq_nil.mp h c hc)

theorem btrim_length_pos {s : PyStr} (h : isBlank s = false) : 0 < (btrim s).length := by
  refine List.length_pos_iff.mpr fun hnil => ?_
  rw [isBlank_of_btrim_nil hnil] at h
  cases h

end NetopsCopilot
