import NetopsCopilot.Python.Codecs

/-!
# JavaScript text (`TextEncoder`, `TextDecoder`, `JSON.stringify`)

A JavaScript string is a list of UTF-16 code units. If it is the UTF-16 of scalar values, `TextEncoder` and
`TextDecoder` are inverse to each other on it. `JSON.stringify` writes such text, without line feeds.
-/

namespace NetopsCopilot

/-- A UTF-16 code unit. -/
abbrev JsChar := Fin 0x10000

/-- A JavaScript string. -/
abbrev JsStr := List JsChar

/-! ### Code points -/

def PyChar.IsSurrogate (c : PyChar) : Prop := 0xD800 ≤ c.val ∧ c.val < 0xE000

instance : DecidablePred PyChar.IsSurrogate := fun c =>
  inferInstanceAs (Decidable (0xD800 ≤ c.val ∧ c.val < 0xE000))

/-- The UTF-16 of a text. -/
def jsText (s : PyStr) : JsStr := s.flatMap utf16

/-- A literal. -/
def js (s : String) : JsStr := jsText (py s)

/-- The code points of a string; a surrogate without its partner is one of them. -/
def codePoints : JsStr → PyStr
  | [] => []
  | [u] => [Fin.ofNat _ u.val]
  | u :: v :: t =>
    if 0xD800 ≤ u.val ∧ u.val < 0xDC00 ∧ 0xDC00 ≤ v.val ∧ v.val < 0xE000 then
      Fin.ofNat _ (0x10000 + (u.val - 0xD800) * 1024 + (v.val - 0xDC00)) :: codePoints t
    else Fin.ofNat _ u.val :: codePoints (v :: t)

/-- The conversion to a `USVString`. -/
def scalarValues (t : JsStr) : PyStr :=
  (codePoints t).map fun c => if c.IsSurrogate then Utf8.replacement else c

/-! ### Encoding and decoding -/

/-- `new TextEncoder().encode(text)`. -/
def encodeText (t : JsStr) : List Utf8.Byte := Utf8.encode (scalarValues t)

/-- `new TextDecoder()`: the state of the decoder, and whether a code point has been read. -/
structure TextDecoder where
  utf8 : Utf8.State := {}
  started : Bool := false
deriving DecidableEq

/-- `decoder.decode(bytes, { stream: true })`; a byte order mark at the start is dropped. -/
def TextDecoder.decode (decoder : TextDecoder) (bytes : List Utf8.Byte) : JsStr × TextDecoder :=
  let (out, state) := Utf8.decode decoder.utf8 bytes
  (jsText (if !decoder.started && out.head? == some 0xFEFF then out.tail else out),
    { utf8 := state, started := decoder.started || !out.isEmpty })

/-- `decoder.decode()`. -/
def TextDecoder.finish (decoder : TextDecoder) : JsStr := jsText (Utf8.flush decoder.utf8)

/-! ### JSON -/

/-- A finite number, as the text that `Number.prototype.toString` gives it. -/
structure JsNumber where
  text : PyStr
  chars : text.all (fun c => decide (c ∈ py "0123456789+-.e")) = true
deriving DecidableEq

/-- A member's value. -/
inductive JsScalar where
  | null
  | num (n : JsNumber)
  | str (t : JsStr)
deriving DecidableEq

/-- An object, its members in insertion order. -/
abbrev JsObject := List (JsStr × JsScalar)

/-- The escape of a code point in `QuoteJSONString`. -/
def quoteChar (c : PyChar) : PyStr :=
  if c.val = 8 then py "\\b"
  else if c.val = 9 then py "\\t"
  else if c.val = 10 then py "\\n"
  else if c.val = 12 then py "\\f"
  else if c.val = 13 then py "\\r"
  else if c.val = 34 then py "\\\""
  else if c.val = 92 then py "\\\\"
  else if c.val < 32 ∨ c.IsSurrogate then unicodeEscape c.val
  else [c]

/-- `QuoteJSONString`. -/
def quoteString (t : JsStr) : PyStr := py "\"" ++ (codePoints t).flatMap quoteChar ++ py "\""

def JsScalar.text : JsScalar → PyStr
  | .null => py "null"
  | .num n => n.text
  | .str t => quoteString t

/-- `JSON.stringify(object)`, as scalar values. -/
def stringifyText (o : JsObject) : PyStr :=
  py "\x7b" ++ joinComma (o.map fun m => quoteString m.1 ++ py ":" ++ m.2.text) ++ py "\x7d"

/-- `JSON.stringify(object)`. -/
def stringify (o : JsObject) : JsStr := jsText (stringifyText o)

/-! ### Scalar values -/

section

variable {s s' : PyStr}

theorem jsText_append (s s' : PyStr) : jsText (s ++ s') = jsText s ++ jsText s' := List.flatMap_append

theorem codePoints_utf16 {c : PyChar} (hc : Utf8.IsScalar c) (t : JsStr) :
    codePoints (utf16 c ++ t) = c :: codePoints t := by
  have hlt : c.val < 0x110000 := c.isLt
  unfold Utf8.IsScalar at hc
  unfold utf16
  split_ifs with hbasic
  · have hval : (Fin.ofNat 0x10000 c.val).val = c.val := Nat.mod_eq_of_lt hbasic
    have hback : Fin.ofNat 0x110000 (Fin.ofNat 0x10000 c.val).val = c := by
      rw [hval]
      exact Fin.ofNat_val_eq_self c
    cases t with
    | nil => exact congrArg (· :: []) hback
    | cons v t =>
      rw [List.singleton_append, codePoints, if_neg (by rw [hval]; omega), hback]
  · have hhigh : (Fin.ofNat 0x10000 (0xD800 + (c.val - 0x10000) / 1024)).val = 0xD800 + (c.val - 0x10000) / 1024 :=
      Nat.mod_eq_of_lt (by omega)
    have hlow : (Fin.ofNat 0x10000 (0xDC00 + (c.val - 0x10000) % 1024)).val = 0xDC00 + (c.val - 0x10000) % 1024 :=
      Nat.mod_eq_of_lt (by omega)
    rw [List.cons_append, List.singleton_append, codePoints, hhigh, hlow, if_pos (by omega)]
    refine congrArg (· :: codePoints t) (Fin.ext ?_)
    show (0x10000 + (0xD800 + (c.val - 0x10000) / 1024 - 0xD800) * 1024 +
      (0xDC00 + (c.val - 0x10000) % 1024 - 0xDC00)) % 0x110000 = c.val
    omega

theorem codePoints_jsText (hs : ∀ c ∈ s, Utf8.IsScalar c) : codePoints (jsText s) = s := by
  induction s with
  | nil => rfl
  | cons c s ih =>
    obtain ⟨hc, hs⟩ := List.forall_mem_cons.mp hs
    show codePoints (utf16 c ++ jsText s) = _
    rw [codePoints_utf16 hc, ih hs]

theorem scalarValues_jsText (hs : ∀ c ∈ s, Utf8.IsScalar c) : scalarValues (jsText s) = s := by
  unfold scalarValues
  rw [codePoints_jsText hs]
  have hid : ∀ c ∈ s, (if c.IsSurrogate then Utf8.replacement else c) = c := by
    intro c hc
    have hscalar := hs c hc
    unfold Utf8.IsScalar at hscalar
    rw [if_neg]
    unfold PyChar.IsSurrogate
    omega
  calc s.map (fun c => if c.IsSurrogate then Utf8.replacement else c) = s.map id := List.map_congr_left hid
    _ = s := List.map_id s

theorem isScalar_of_not_isSurrogate {c : PyChar} (h : ¬c.IsSurrogate) : Utf8.IsScalar c := by
  unfold PyChar.IsSurrogate at h
  unfold Utf8.IsScalar
  omega

/-! ### The text of `JSON.stringify` -/

/-- Text without line feeds that is well formed as UTF-16. -/
def Plain (s : PyStr) : Prop := ∀ c ∈ s, Utf8.IsScalar c ∧ c ≠ 10

theorem Plain.append (hs : Plain s) (hs' : Plain s') : Plain (s ++ s') := fun c hc =>
  (List.mem_append.mp hc).elim (hs c) (hs' c)

theorem Plain.flatMap {α : Type} {f : α → PyStr} {l : List α} (h : ∀ a ∈ l, Plain (f a)) :
    Plain (l.flatMap f) := by
  intro c hc
  obtain ⟨a, ha, hca⟩ := List.mem_flatMap.mp hc
  exact h a ha c hca

theorem Plain.of_printable (h : Printable s) : Plain s := by
  intro c hc
  obtain ⟨hlow, hhigh⟩ := PyChar.isPrintable_iff.mp (List.all_eq_true.mp h c hc)
  refine ⟨Or.inl (by omega), ?_⟩
  rintro rfl
  exact absurd hlow (by decide)

theorem plain_joinComma {ts : List PyStr} (h : ∀ t ∈ ts, Plain t) : Plain (joinComma ts) := by
  induction ts with
  | nil => exact nofun
  | cons t ts ih =>
    obtain ⟨ht, hts⟩ := List.forall_mem_cons.mp h
    cases ts with
    | nil => exact ht
    | cons t' ts => exact (ht.append (Plain.of_printable (by decide))).append (ih hts)

theorem plain_quoteChar (c : PyChar) : Plain (quoteChar c) := by
  unfold quoteChar
  split_ifs with h1 h2 h3 h4 h5 h6 h7 h8
  · exact Plain.of_printable (by decide)
  · exact Plain.of_printable (by decide)
  · exact Plain.of_printable (by decide)
  · exact Plain.of_printable (by decide)
  · exact Plain.of_printable (by decide)
  · exact Plain.of_printable (by decide)
  · exact Plain.of_printable (by decide)
  · exact Plain.of_printable (printable_unicodeEscape c.val)
  · push Not at h8
    refine List.forall_mem_singleton.mpr ⟨isScalar_of_not_isSurrogate h8.2, ?_⟩
    rintro rfl
    exact h3 rfl

theorem plain_quoteString (t : JsStr) : Plain (quoteString t) :=
  (Plain.append (Plain.of_printable (by decide)) (Plain.flatMap fun c _ => plain_quoteChar c)).append (Plain.of_printable (by decide))

theorem plain_text (v : JsScalar) : Plain v.text := by
  cases v with
  | null => exact Plain.of_printable (by decide)
  | num n =>
    refine Plain.of_printable (List.all_eq_true.mpr fun c hc => ?_)
    have hmem := of_decide_eq_true (List.all_eq_true.mp n.chars c hc)
    have hall : Printable (py "0123456789+-.e") := by decide
    exact List.all_eq_true.mp hall c hmem
  | str t => exact plain_quoteString t

theorem plain_stringifyText (o : JsObject) : Plain (stringifyText o) := by
  refine (Plain.append (Plain.of_printable (by decide)) (plain_joinComma fun t ht => ?_)).append (Plain.of_printable (by decide))
  obtain ⟨m, -, rfl⟩ := List.mem_map.mp ht
  exact ((plain_quoteString m.1).append (Plain.of_printable (by decide))).append (plain_text m.2)

end

end NetopsCopilot
