import NetopsCopilot.JavaScript.Text

/-!
# `URLSearchParams`

Names and values are written in `application/x-www-form-urlencoded` and read back. An encoded text is ASCII, so
it is a list of bytes here. Reading gives back what was written, with U+FFFD for a surrogate without its partner
(`parseQuery_queryText`).
-/

namespace NetopsCopilot

namespace Url

open Utf8 (Byte byte)

/-! ### Writing -/

/-- Bytes that are written as they are: letters, digits and `*-._`. -/
def isUnreserved (b : Byte) : Bool :=
  (48 ≤ b.val && b.val ≤ 57) || (65 ≤ b.val && b.val ≤ 90) || (97 ≤ b.val && b.val ≤ 122) ||
    b.val == 42 || b.val == 45 || b.val == 46 || b.val == 95

/-- One digit, in upper case. -/
def hexByte (n : Nat) : Byte := if n < 10 then byte (48 + n) else byte (55 + n)

/-- A byte of a name or a value. -/
def encodeByte (b : Byte) : List Byte :=
  if isUnreserved b then [b]
  else if b.val = 32 then [43]
  else [37, hexByte (b.val / 16), hexByte (b.val % 16)]

def encodeComponent (t : JsStr) : List Byte := (encodeText t).flatMap encodeByte

/-- Components with `separator` between them. -/
def join (separator : Byte) : List (List Byte) → List Byte
  | [] => []
  | [t] => t
  | t :: ts => t ++ separator :: join separator ts

/-- `URLSearchParams.prototype.toString`. -/
def queryText (parameters : List (JsStr × JsStr)) : List Byte :=
  join 38 (parameters.map fun p => encodeComponent p.1 ++ 61 :: encodeComponent p.2)

/-! ### Reading -/

/-- The value of a hexadecimal digit. -/
def hexValue? (b : Byte) : Option Nat :=
  if 48 ≤ b.val ∧ b.val ≤ 57 then some (b.val - 48)
  else if 65 ≤ b.val ∧ b.val ≤ 70 then some (b.val - 55)
  else if 97 ≤ b.val ∧ b.val ≤ 102 then some (b.val - 87)
  else none

/-- Plus signs and percent escapes; `skip` bytes belong to an escape that has been read. -/
def decodeBytes : Nat → List Byte → List Byte
  | _, [] => []
  | skip + 1, _ :: bytes => decodeBytes skip bytes
  | 0, b :: bytes =>
    if b.val = 43 then 32 :: decodeBytes 0 bytes
    else if b.val = 37 then
      match bytes.head? >>= hexValue?, bytes[1]? >>= hexValue? with
      | some high, some low => byte (high * 16 + low) :: decodeBytes 2 bytes
      | _, _ => b :: decodeBytes 0 bytes
    else b :: decodeBytes 0 bytes

def decodeComponent (bytes : List Byte) : JsStr :=
  let (out, state) := Utf8.decode {} (decodeBytes 0 bytes)
  jsText (out ++ Utf8.flush state)

/-- `new URLSearchParams(query)`. -/
def parseQuery (query : List Byte) : List (JsStr × JsStr) :=
  ((query.splitOn 38).filter fun t => !t.isEmpty).map fun t =>
    (decodeComponent (t.takeWhile (· != 61)), decodeComponent ((t.dropWhile (· != 61)).drop 1))

/-! ### Round trip -/

theorem hexValue_hexByte {n : Nat} (hn : n < 16) : hexValue? (hexByte n) = some n := by
  revert hn
  revert n
  decide

theorem decodeBytes_encodeByte (b : Byte) (rest : List Byte) :
    decodeBytes 0 (encodeByte b ++ rest) = b :: decodeBytes 0 rest := by
  have hb := b.isLt
  unfold encodeByte
  split_ifs with hplain hspace
  · have hne : b.val ≠ 43 ∧ b.val ≠ 37 := by
      constructor
      · intro h
        rw [isUnreserved, h] at hplain
        exact absurd hplain (by decide)
      · intro h
        rw [isUnreserved, h] at hplain
        exact absurd hplain (by decide)
    rw [List.singleton_append, decodeBytes, if_neg hne.1, if_neg hne.2]
  · have h : (32 : Byte) = b := Fin.ext hspace.symm
    rw [← h]
    rfl
  · rw [List.cons_append, List.cons_append, List.singleton_append, decodeBytes, if_neg (by decide), if_pos (by decide)]
    have hhigh : (hexByte (b.val / 16) :: hexByte (b.val % 16) :: rest).head? >>= hexValue? = some (b.val / 16) :=
      hexValue_hexByte (by omega)
    have hlow : (hexByte (b.val / 16) :: hexByte (b.val % 16) :: rest)[1]? >>= hexValue? = some (b.val % 16) :=
      hexValue_hexByte (by omega)
    rw [hhigh, hlow]
    show byte (b.val / 16 * 16 + b.val % 16) :: decodeBytes 0 rest = _
    rw [show b.val / 16 * 16 + b.val % 16 = b.val by omega]
    exact congrArg (· :: decodeBytes 0 rest) (Fin.ofNat_val_eq_self b)

theorem decodeBytes_encode (bytes : List Byte) : decodeBytes 0 (bytes.flatMap encodeByte) = bytes := by
  induction bytes with
  | nil => rfl
  | cons b bytes ih => rw [List.flatMap_cons, decodeBytes_encodeByte, ih]

theorem isScalar_scalarValues {t : JsStr} : ∀ c ∈ scalarValues t, Utf8.IsScalar c := by
  intro c hc
  obtain ⟨d, -, rfl⟩ := List.mem_map.mp hc
  split_ifs with hd
  · exact Or.inr (by decide)
  · exact isScalar_of_not_isSurrogate hd

theorem decodeComponent_encode (t : JsStr) : decodeComponent (encodeComponent t) = jsText (scalarValues t) := by
  unfold decodeComponent encodeComponent
  rw [decodeBytes_encode, encodeText, Utf8.decode_encode isScalar_scalarValues]
  show jsText (scalarValues t ++ []) = _
  rw [List.append_nil]

/-- An encoded component has no separator in it. -/
theorem encodeComponent_safe {b : Byte} (hb : b = 38 ∨ b = 61) (t : JsStr) : b ∉ encodeComponent t := by
  have hbyte : ∀ a : Byte, b ∉ encodeByte a := by
    rcases hb with rfl | rfl
    · decide +kernel
    · decide +kernel
  intro h
  obtain ⟨a, -, ha⟩ := List.mem_flatMap.mp h
  exact hbyte a ha

theorem splitOn_join {ts : List (List Byte)} (hts : ∀ t ∈ ts, 38 ∉ t) (hne : ts ≠ []) :
    (join 38 ts).splitOn 38 = ts := by
  induction ts with
  | nil => exact absurd rfl hne
  | cons t ts ih =>
    obtain ⟨ht, hts⟩ := List.forall_mem_cons.mp hts
    cases ts with
    | nil => exact List.splitOn_eq_singleton ht
    | cons u ts =>
      rw [join, List.splitOn_append_cons_self, List.splitOn_eq_singleton ht, ih hts (List.cons_ne_nil u ts)]
      · rfl
      · exact List.cons_ne_nil u ts

/-- A parameter is split at its equals sign. -/
theorem splitParameter (name value : JsStr) :
    ((encodeComponent name ++ 61 :: encodeComponent value).takeWhile (· != 61) = encodeComponent name) ∧
      ((encodeComponent name ++ 61 :: encodeComponent value).dropWhile (· != 61)).drop 1 =
        encodeComponent value := by
  have hname : ∀ b ∈ encodeComponent name, (b != 61) = true := by
    intro b hb
    rw [bne_iff_ne]
    rintro rfl
    exact encodeComponent_safe (Or.inr rfl) name hb
  constructor
  · rw [List.takeWhile_append_of_pos hname]
    exact List.append_nil _
  · rw [List.dropWhile_append_of_pos hname]
    rfl

/-- What is written is read back. -/
theorem parseQuery_queryText (parameters : List (JsStr × JsStr)) :
    parseQuery (queryText parameters) =
      parameters.map fun p => (jsText (scalarValues p.1), jsText (scalarValues p.2)) := by
  let parts := parameters.map fun p => encodeComponent p.1 ++ 61 :: encodeComponent p.2
  have hsafe : ∀ t ∈ parts, 38 ∉ t := by
    intro t ht
    obtain ⟨p, -, rfl⟩ := List.mem_map.mp ht
    rw [List.mem_append, List.mem_cons, not_or, not_or]
    exact ⟨encodeComponent_safe (Or.inl rfl) p.1, by decide, encodeComponent_safe (Or.inl rfl) p.2⟩
  have hfull : ∀ t ∈ parts, (!t.isEmpty) = true := by
    intro t ht
    obtain ⟨p, -, rfl⟩ := List.mem_map.mp ht
    simp
  have hsplit : ((join 38 parts).splitOn 38).filter (fun t => !t.isEmpty) = parts := by
    by_cases hne : parts = []
    · rw [hne]
      rfl
    · rw [splitOn_join hsafe hne, List.filter_eq_self.mpr hfull]
  unfold parseQuery queryText
  rw [hsplit, List.map_map]
  refine List.map_congr_left fun p _ => ?_
  obtain ⟨hname, hvalue⟩ := splitParameter p.1 p.2
  show (decodeComponent ((encodeComponent p.1 ++ 61 :: encodeComponent p.2).takeWhile (· != 61)),
    decodeComponent (((encodeComponent p.1 ++ 61 :: encodeComponent p.2).dropWhile (· != 61)).drop 1)) = _
  rw [hname, hvalue, decodeComponent_encode, decodeComponent_encode]

end Url

end NetopsCopilot
