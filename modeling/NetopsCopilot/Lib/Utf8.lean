import Mathlib.Algebra.GroupWithZero.Nat
import Mathlib.Data.List.Basic

/-!
# UTF-8

The encoding of a code point, and the decoder as a machine that takes one byte at a time and puts U+FFFD in
place of what is not UTF-8. Since the machine keeps its state between bytes, a byte sequence may be cut
anywhere (`decode_flatten`), and it gives back the scalar values that were encoded (`decode_encode`).
-/

namespace Utf8

abbrev Byte := Fin 256

instance neZeroByte : NeZero 256 := ⟨by decide⟩

abbrev CodePoint := Fin 0x110000

instance neZeroCodePoint : NeZero 0x110000 := ⟨by decide⟩

/-- A code point that is no surrogate. -/
def IsScalar (c : CodePoint) : Prop := c.val < 0xD800 ∨ 0xE000 ≤ c.val

instance : DecidablePred IsScalar := fun c => inferInstanceAs (Decidable (c.val < 0xD800 ∨ 0xE000 ≤ c.val))

def byte (n : Nat) : Byte := Fin.ofNat 256 n

def replacement : CodePoint := 0xFFFD

/-! ### Encoding -/

/-- The bytes of a code point. -/
def encodeChar (c : CodePoint) : List Byte :=
  if c.val < 0x80 then [byte c.val]
  else if c.val < 0x800 then [byte (0xC0 + c.val / 64), byte (0x80 + c.val % 64)]
  else if c.val < 0x10000 then
    [byte (0xE0 + c.val / 4096), byte (0x80 + c.val / 64 % 64), byte (0x80 + c.val % 64)]
  else
    [byte (0xF0 + c.val / 262144), byte (0x80 + c.val / 4096 % 64), byte (0x80 + c.val / 64 % 64),
      byte (0x80 + c.val % 64)]

def encode (cs : List CodePoint) : List Byte := cs.flatMap encodeChar

/-! ### Decoding -/

/-- The bytes still owed, the code point so far, and the bounds of the next byte. -/
structure State where
  needed : Nat := 0
  codePoint : Nat := 0
  lower : Nat := 0x80
  upper : Nat := 0xBF
deriving DecidableEq

/-- The first byte of a sequence. -/
def lead (b : Nat) : List CodePoint × State :=
  if b < 0x80 then ([Fin.ofNat _ b], {})
  else if 0xC2 ≤ b ∧ b ≤ 0xDF then ([], { needed := 1, codePoint := b - 0xC0 })
  else if 0xE0 ≤ b ∧ b ≤ 0xEF then ([],
    { needed := 2
      codePoint := b - 0xE0
      lower := if b = 0xE0 then 0xA0 else 0x80
      upper := if b = 0xED then 0x9F else 0xBF })
  else if 0xF0 ≤ b ∧ b ≤ 0xF4 then ([],
    { needed := 3
      codePoint := b - 0xF0
      lower := if b = 0xF0 then 0x90 else 0x80
      upper := if b = 0xF4 then 0x8F else 0xBF })
  else ([replacement], {})

/-- One byte. -/
def step (s : State) (b : Byte) : List CodePoint × State :=
  if s.needed = 0 then lead b.val
  else if s.lower ≤ b.val ∧ b.val ≤ s.upper then
    let codePoint := s.codePoint * 64 + (b.val - 0x80)
    if s.needed = 1 then ([Fin.ofNat _ codePoint], {})
    else ([], { needed := s.needed - 1, codePoint := codePoint })
  else
    -- the byte is read again as the first of a sequence
    let (out, s') := lead b.val
    (replacement :: out, s')

/-- A sequence of bytes, from a state. -/
def decode : State → List Byte → List CodePoint × State
  | s, [] => ([], s)
  | s, b :: bytes =>
    ((step s b).1 ++ (decode (step s b).2 bytes).1, (decode (step s b).2 bytes).2)

/-- The end of the input. -/
def flush (s : State) : List CodePoint := if s.needed = 0 then [] else [replacement]

theorem decode_append (s : State) (bytes bytes' : List Byte) :
    decode s (bytes ++ bytes') =
      ((decode s bytes).1 ++ (decode (decode s bytes).2 bytes').1, (decode (decode s bytes).2 bytes').2) := by
  induction bytes generalizing s with
  | nil => rfl
  | cons b bytes ih =>
    rw [List.cons_append, decode, decode, ih, List.append_assoc]

/-! ### Decoding what was encoded -/

section

variable {s : State} {n : Nat}

theorem byte_val (hn : n < 256) : (byte n).val = n := Nat.mod_eq_of_lt hn

theorem decode_of_step {b : Byte} {s' : State} (h : step s b = ([], s')) (bytes : List Byte) :
    decode s (b :: bytes) = decode s' bytes := by
  rw [decode, h]
  rfl

/-- A byte in the middle of a sequence. -/
theorem decode_middle (hneeded : 1 < s.needed) (hlower : s.lower ≤ 0x80 + n % 64)
    (hupper : 0x80 + n % 64 ≤ s.upper) (bytes : List Byte) :
    decode s (byte (0x80 + n % 64) :: bytes) =
      decode { needed := s.needed - 1, codePoint := s.codePoint * 64 + n % 64 } bytes := by
  have hval : (byte (0x80 + n % 64)).val = 0x80 + n % 64 := byte_val (by omega)
  apply decode_of_step
  unfold step
  rw [hval, if_neg (by omega), if_pos ⟨hlower, hupper⟩, if_neg (by omega), Nat.add_sub_cancel_left]

/-- The byte that ends a sequence. -/
theorem decode_last (hneeded : s.needed = 1) (hlower : s.lower ≤ 0x80 + n % 64)
    (hupper : 0x80 + n % 64 ≤ s.upper) {c : CodePoint} (hc : s.codePoint * 64 + n % 64 = c.val) :
    decode s [byte (0x80 + n % 64)] = ([c], {}) := by
  have hval : (byte (0x80 + n % 64)).val = 0x80 + n % 64 := byte_val (by omega)
  have hstep : step s (byte (0x80 + n % 64)) = ([c], {}) := by
    unfold step
    rw [hval, if_neg (by omega), if_pos ⟨hlower, hupper⟩, if_pos hneeded, Nat.add_sub_cancel_left, hc]
    rw [Fin.ofNat_val_eq_self]
  rw [decode, hstep]
  rfl

/-- The first byte of a sequence. -/
theorem decode_lead (hn : n < 256) {s' : State} (h : lead n = ([], s')) (bytes : List Byte) :
    decode {} (byte n :: bytes) = decode s' bytes := by
  apply decode_of_step
  unfold step
  rw [if_pos rfl, byte_val hn, h]

theorem decode_encodeChar {c : CodePoint} (hc : IsScalar c) : decode {} (encodeChar c) = ([c], {}) := by
  have hlt : c.val < 0x110000 := c.isLt
  unfold IsScalar at hc
  unfold encodeChar
  split_ifs with h1 h2 h3
  · have hstep : step {} (byte c.val) = ([c], {}) := by
      unfold step lead
      rw [if_pos rfl, byte_val (by omega), if_pos h1, Fin.ofNat_val_eq_self]
    rw [decode, hstep]
    rfl
  · have hlead : lead (0xC0 + c.val / 64) = ([], { needed := 1, codePoint := c.val / 64 }) := by
      unfold lead
      rw [if_neg (by omega), if_pos (by omega), Nat.add_sub_cancel_left]
    rw [decode_lead (by omega) hlead]
    exact decode_last rfl (by dsimp only; omega) (by dsimp only; omega) (by dsimp only; omega)
  · have hlead : lead (0xE0 + c.val / 4096) = ([],
        { needed := 2
          codePoint := c.val / 4096
          lower := if 0xE0 + c.val / 4096 = 0xE0 then 0xA0 else 0x80
          upper := if 0xE0 + c.val / 4096 = 0xED then 0x9F else 0xBF }) := by
      unfold lead
      rw [if_neg (by omega), if_neg (by omega), if_pos (by omega), Nat.add_sub_cancel_left]
    rw [decode_lead (by omega) hlead, decode_middle (by dsimp only; omega)]
    · exact decode_last rfl (by dsimp only; omega) (by dsimp only; omega) (by dsimp only; omega)
    · dsimp only
      split_ifs <;> omega
    · dsimp only
      split_ifs <;> omega
  · have hlead : lead (0xF0 + c.val / 262144) = ([],
        { needed := 3
          codePoint := c.val / 262144
          lower := if 0xF0 + c.val / 262144 = 0xF0 then 0x90 else 0x80
          upper := if 0xF0 + c.val / 262144 = 0xF4 then 0x8F else 0xBF }) := by
      unfold lead
      rw [if_neg (by omega), if_neg (by omega), if_neg (by omega), if_pos (by omega), Nat.add_sub_cancel_left]
    rw [decode_lead (by omega) hlead, decode_middle (by dsimp only; omega), decode_middle (by dsimp only; omega)]
    · exact decode_last rfl (by dsimp only; omega) (by dsimp only; omega) (by dsimp only; omega)
    · dsimp only
      omega
    · dsimp only
      omega
    · dsimp only
      split_ifs <;> omega
    · dsimp only
      split_ifs <;> omega

end

/-- Scalar values come back. -/
theorem decode_encode {cs : List CodePoint} (hcs : ∀ c ∈ cs, IsScalar c) : decode {} (encode cs) = (cs, {}) := by
  induction cs with
  | nil => rfl
  | cons c cs ih =>
    obtain ⟨hc, hcs⟩ := List.forall_mem_cons.mp hcs
    show decode {} (encodeChar c ++ encode cs) = _
    rw [decode_append, decode_encodeChar hc, ih hcs]
    rfl

end Utf8
