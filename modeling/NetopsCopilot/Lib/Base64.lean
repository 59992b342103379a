import NetopsCopilot.Lib.Utf8

/-!
# Base64

Bytes in groups of six bits, without an alphabet. The decoder is a lenient one: it passes over symbols that are
neither a digit nor a pad, and stops at the pad that completes a group. `decodeDigits` is for digits without pads.
-/

namespace Base64

open Utf8 (Byte byte)

/-- Six bits. -/
abbrev Sextet := Fin 64

instance neZeroSextet : NeZero 64 := ⟨by decide⟩

def sextet (n : Nat) : Sextet := Fin.ofNat 64 n

/-! ### Encoding -/

/-- The sextets of a byte sequence, without padding. -/
def encode : List Byte → List Sextet
  | a :: b :: c :: bytes =>
    sextet (a.val / 4) :: sextet (a.val % 4 * 16 + b.val / 16) :: sextet (b.val % 16 * 4 + c.val / 64) ::
      sextet (c.val % 64) :: encode bytes
  | [a, b] => [sextet (a.val / 4), sextet (a.val % 4 * 16 + b.val / 16), sextet (b.val % 16 * 4)]
  | [a] => [sextet (a.val / 4), sextet (a.val % 4 * 16)]
  | [] => []

/-- The pads that complete the last group of `len` symbols. -/
def padding (len : Nat) : Nat := (4 - len % 4) % 4

/-! ### Decoding -/

inductive Symbol where
  | digit (d : Sextet)
  | pad
  | other
deriving DecidableEq

/-- `quad` digits of the group have been read, `left` are the bits that are left of them, and `pads` pads. -/
def decodeFrom : (quad left pads : Nat) → List Symbol → Option (List Byte)
  | quad, _, _, [] => if quad = 0 then some [] else none
  | quad, left, _, .digit d :: symbols =>
    if quad = 0 then decodeFrom 1 d.val 0 symbols
    else if quad = 1 then
      (decodeFrom 2 (d.val % 16) 0 symbols).map (byte (left * 4 + d.val / 16) :: ·)
    else if quad = 2 then
      (decodeFrom 3 (d.val % 4) 0 symbols).map (byte (left * 16 + d.val / 4) :: ·)
    else (decodeFrom 0 0 0 symbols).map (byte (left * 64 + d.val) :: ·)
  | quad, left, pads, .pad :: symbols =>
    if 2 ≤ quad ∧ 4 ≤ quad + (pads + 1) then some []
    else decodeFrom quad left (if 2 ≤ quad then pads + 1 else pads) symbols
  | quad, left, pads, .other :: symbols => decodeFrom quad left pads symbols

def decode (symbols : List Symbol) : Option (List Byte) := decodeFrom 0 0 0 symbols

/-- Digits without padding, of which every sequence is read: bits that complete no byte are dropped. -/
def decodeDigits : List Sextet → List Byte
  | a :: b :: c :: d :: digits =>
    byte (a.val * 4 + b.val / 16) :: byte (b.val % 16 * 16 + c.val / 4) :: byte (c.val % 4 * 64 + d.val) ::
      decodeDigits digits
  | [a, b, c] => [byte (a.val * 4 + b.val / 16), byte (b.val % 16 * 16 + c.val / 4)]
  | [a, b] => [byte (a.val * 4 + b.val / 16)]
  | _ => []

/-! ### Round trip -/

theorem sextet_val {n : Nat} (hn : n < 64) : (sextet n).val = n := Nat.mod_eq_of_lt hn

theorem byte_eq {n : Nat} {b : Byte} (h : n = b.val) : byte n = b := by
  rw [h]
  exact Fin.ofNat_val_eq_self b

theorem length_encode (bytes : List Byte) : (encode bytes).length = (bytes.length * 4 + 2) / 3 := by
  induction bytes using encode.induct with
  | case1 a b c bytes ih =>
    rw [encode, List.length_cons, List.length_cons, List.length_cons, List.length_cons, ih, List.length_cons,
      List.length_cons, List.length_cons]
    omega
  | case2 a b => simp [encode]
  | case3 a => simp [encode]
  | case4 => rfl

/-- Whole groups come first. -/
theorem encode_append {n : Nat} {bytes : List Byte} (hbytes : bytes.length = 3 * n) (rest : List Byte) :
    encode (bytes ++ rest) = encode bytes ++ encode rest := by
  induction n generalizing bytes with
  | zero =>
    rw [List.length_eq_zero_iff.mp hbytes]
    rfl
  | succ n ih =>
    match bytes, hbytes with
    | a :: b :: c :: bytes, hbytes =>
      have hlength : bytes.length = 3 * n := by
        simp only [List.length_cons] at hbytes
        omega
      rw [List.cons_append, List.cons_append, List.cons_append, encode, encode, ih hlength]
      rfl

section

variable {left pads : Nat} {d : Sextet} {symbols : List Symbol}

theorem decodeFrom_first : decodeFrom 0 left pads (.digit d :: symbols) = decodeFrom 1 d.val 0 symbols := rfl

theorem decodeFrom_second : decodeFrom 1 left pads (.digit d :: symbols) =
    (decodeFrom 2 (d.val % 16) 0 symbols).map (byte (left * 4 + d.val / 16) :: ·) := rfl

theorem decodeFrom_third : decodeFrom 2 left pads (.digit d :: symbols) =
    (decodeFrom 3 (d.val % 4) 0 symbols).map (byte (left * 16 + d.val / 4) :: ·) := rfl

theorem decodeFrom_fourth : decodeFrom 3 left pads (.digit d :: symbols) =
    (decodeFrom 0 0 0 symbols).map (byte (left * 64 + d.val) :: ·) := rfl

end

/-- The first two digits of a group give its first byte, and four bits of the second one. -/
theorem decodeFrom_two (a : Byte) {n : Nat} (hn : n < 16) (symbols : List Symbol) :
    decodeFrom 0 0 0 (.digit (sextet (a.val / 4)) :: .digit (sextet (a.val % 4 * 16 + n)) :: symbols) =
      (decodeFrom 2 n 0 symbols).map (a :: ·) := by
  have ha := a.isLt
  have hsecond : (sextet (a.val % 4 * 16 + n)).val = a.val % 4 * 16 + n := sextet_val (by omega)
  rw [decodeFrom_first, decodeFrom_second, sextet_val (by omega), hsecond, byte_eq (b := a) (by omega),
    show (a.val % 4 * 16 + n) % 16 = n by omega]

theorem decodeFrom_three (b : Byte) {n : Nat} (hn : n < 4) (symbols : List Symbol) :
    decodeFrom 2 (b.val / 16) 0 (.digit (sextet (b.val % 16 * 4 + n)) :: symbols) =
      (decodeFrom 3 n 0 symbols).map (b :: ·) := by
  have hb := b.isLt
  have hthird : (sextet (b.val % 16 * 4 + n)).val = b.val % 16 * 4 + n := sextet_val (by omega)
  rw [decodeFrom_third, hthird, byte_eq (b := b) (by omega), show (b.val % 16 * 4 + n) % 4 = n by omega]

/-- Bytes come back, from padded digits. -/
theorem decode_encode (bytes : List Byte) :
    decode ((encode bytes).map .digit ++ List.replicate (padding (encode bytes).length) .pad) = some bytes := by
  unfold decode
  induction bytes using encode.induct with
  | case1 a b c bytes ih =>
    have hb := b.isLt
    have hc := c.isLt
    have hpadding : padding (encode (a :: b :: c :: bytes)).length = padding (encode bytes).length := by
      unfold padding
      rw [encode, List.length_cons, List.length_cons, List.length_cons, List.length_cons]
      omega
    rw [hpadding, encode]
    simp only [List.map_cons, List.cons_append]
    rw [decodeFrom_two a (by omega), decodeFrom_three b (by omega), decodeFrom_fourth, ih,
      sextet_val (by omega), byte_eq (b := c) (by omega)]
    rfl
  | case2 a b =>
    have hb := b.isLt
    rw [encode]
    simp only [List.map_cons, List.cons_append]
    have hthird := decodeFrom_three b (n := 0) (by omega) [.pad]
    rw [Nat.add_zero] at hthird
    rw [decodeFrom_two a (by omega)]
    exact congrArg (Option.map (a :: ·)) hthird
  | case3 a =>
    rw [encode]
    exact decodeFrom_two a (n := 0) (by omega) [.pad, .pad]
  | case4 => rfl

/-- Bytes come back from bare digits as well. -/
theorem decodeDigits_encode (bytes : List Byte) : decodeDigits (encode bytes) = bytes := by
  induction bytes using encode.induct with
  | case1 a b c bytes ih =>
    have ha := a.isLt
    have hb := b.isLt
    have hc := c.isLt
    rw [encode, decodeDigits, ih, sextet_val (by omega), sextet_val (by omega), sextet_val (by omega),
      sextet_val (by omega), byte_eq (b := a) (by omega), byte_eq (b := b) (by omega), byte_eq (b := c) (by omega)]
  | case2 a b =>
    have ha := a.isLt
    have hb := b.isLt
    rw [encode, decodeDigits, sextet_val (by omega), sextet_val (by omega), sextet_val (by omega),
      byte_eq (b := a) (by omega), byte_eq (b := b) (by omega)]
  | case3 a =>
    have ha := a.isLt
    rw [encode, decodeDigits, sextet_val (by omega), sextet_val (by omega), byte_eq (b := a) (by omega)]
  | case4 => rfl

theorem encode_ne_nil {bytes : List Byte} (h : bytes ≠ []) : encode bytes ≠ [] := by
  intro hnil
  have hlength := length_encode bytes
  rw [hnil, List.length_nil] at hlength
  have hpos := List.length_pos_of_ne_nil h
  omega

end Base64
