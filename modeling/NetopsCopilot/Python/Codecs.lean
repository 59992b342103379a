import NetopsCopilot.Lib.Utf8
import NetopsCopilot.Python.JsonText

/-!
# Codecs (`str.encode`, `str.replace`) and printable text

`json.dumps` and `str(UUID)` write printable ASCII only.
-/

namespace NetopsCopilot

/-- `s.encode("utf-8")`, where `none` is a `UnicodeEncodeError`. -/
def encodeUtf8 (s : PyStr) : Option (List Utf8.Byte) :=
  if s.all fun c => decide (Utf8.IsScalar c) then some (Utf8.encode s) else none

/-- `bytes.decode("utf-8", errors="strict")`, where `none` is a `UnicodeDecodeError`: the text whose encoding the
bytes are. -/
def decodeUtf8 (bytes : List Utf8.Byte) : Option PyStr :=
  let s := (Utf8.decode {} bytes).1
  if (s.all fun c => decide (Utf8.IsScalar c)) && Utf8.encode s == bytes then some s else none

/-- `s.replace(old, new)`; `skip` characters of an occurrence are still to be passed. -/
def replaceFrom (old new : PyStr) : Nat → PyStr → PyStr
  | _, [] => []
  | skip + 1, _ :: s => replaceFrom old new skip s
  | 0, c :: s =>
    if old.isPrefixOf (c :: s) then new ++ replaceFrom old new (old.length - 1) s
    else c :: replaceFrom old new 0 s

/-- `s.replace(old, new)`, for `old` not empty. -/
def replaceText (old new s : PyStr) : PyStr := replaceFrom old new 0 s

theorem encodeUtf8_of_scalar {s : PyStr} (hs : ∀ c ∈ s, Utf8.IsScalar c) : encodeUtf8 s = some (Utf8.encode s) :=
  if_pos (List.all_eq_true.mpr fun c hc => decide_eq_true (hs c hc))

theorem decodeUtf8_eq_some_iff {bytes : List Utf8.Byte} {s : PyStr} :
    decodeUtf8 bytes = some s ↔ (∀ c ∈ s, Utf8.IsScalar c) ∧ Utf8.encode s = bytes := by
  unfold decodeUtf8
  dsimp only
  constructor
  · intro h
    split_ifs at h with hvalid
    cases h
    rw [Bool.and_eq_true, List.all_eq_true, beq_iff_eq] at hvalid
    exact ⟨fun c hc => of_decide_eq_true (hvalid.1 c hc), hvalid.2⟩
  · rintro ⟨hs, rfl⟩
    rw [Utf8.decode_encode hs]
    refine if_pos ?_
    rw [Bool.and_eq_true, List.all_eq_true]
    exact ⟨fun c hc => decide_eq_true (hs c hc), beq_self_eq_true _⟩

theorem isScalar_of_ascii {s : PyStr} (h : s.all (fun c => decide (c.val < 128)) = true) :
    ∀ c ∈ s, Utf8.IsScalar c := by
  intro c hc
  have hascii := of_decide_eq_true (List.all_eq_true.mp h c hc)
  exact Or.inl (by omega)

/-! ### Hexadecimal text -/

theorem hexFixed_hex (len n : Nat) :
    (hexFixed len n).all (fun c => decide (c ∈ py "0123456789abcdef")) = true := by
  have hdigit : ∀ d < 16, decide (digitChar d ∈ py "0123456789abcdef") = true := by decide
  induction len generalizing n with
  | zero => rfl
  | succ len ih =>
    rw [hexFixed, List.all_append, ih, List.all_cons, hdigit _ (Nat.mod_lt _ (by decide))]
    rfl

theorem length_uuid (u : Uuid) : (Uuid.str u).length = 36 := by
  unfold Uuid.str
  simp only [List.length_append, List.length_take, List.length_drop, hexFixed_length]
  rfl

theorem uuid_chars (u : Uuid) : ∀ c ∈ Uuid.str u, c ∈ py "-0123456789abcdef" := by
  have hsubset : ∀ text : String, (py text).all (fun c => decide (c ∈ py "-0123456789abcdef")) = true →
      ∀ c ∈ py text, c ∈ py "-0123456789abcdef" :=
    fun text htext c hc => of_decide_eq_true (List.all_eq_true.mp htext c hc)
  have hhex : ∀ c ∈ hexFixed 32 u.val, c ∈ py "-0123456789abcdef" := fun c hc =>
    hsubset "0123456789abcdef" (by decide) c (of_decide_eq_true (List.all_eq_true.mp (hexFixed_hex 32 u.val) c hc))
  have hpart : ∀ i j, ∀ c ∈ ((hexFixed 32 u.val).drop i).take j, c ∈ py "-0123456789abcdef" := fun i j c hc =>
    hhex c (List.mem_of_mem_drop (List.mem_of_mem_take hc))
  have hdash : ∀ c ∈ py "-", c ∈ py "-0123456789abcdef" := hsubset "-" (by decide)
  intro c hc
  unfold Uuid.str at hc
  simp only [List.mem_append] at hc
  rcases hc with (((((((hc | hc) | hc) | hc) | hc) | hc) | hc) | hc) | hc
  · exact hpart 0 8 c hc
  · exact hdash c hc
  · exact hpart 8 4 c hc
  · exact hdash c hc
  · exact hpart 12 4 c hc
  · exact hdash c hc
  · exact hpart 16 4 c hc
  · exact hdash c hc
  · exact hhex c (List.mem_of_mem_drop hc)

/-! ### Printable ASCII -/

def PyChar.isPrintable (c : PyChar) : Bool := 32 ≤ c.val && c.val < 127

theorem PyChar.isPrintable_iff {c : PyChar} : c.isPrintable = true ↔ 32 ≤ c.val ∧ c.val < 127 := by
  rw [isPrintable, Bool.and_eq_true, decide_eq_true_eq, decide_eq_true_eq]

def Printable (s : PyStr) : Prop := s.all PyChar.isPrintable = true

instance : DecidablePred Printable := fun s => inferInstanceAs (Decidable (s.all PyChar.isPrintable = true))

section

variable {s s' : PyStr}

theorem Printable.append (hs : Printable s) (hs' : Printable s') : Printable (s ++ s') := by
  unfold Printable at hs hs' ⊢
  rw [List.all_append, hs, hs']
  rfl

theorem Printable.flatMap {α : Type} {f : α → PyStr} {l : List α} (h : ∀ a ∈ l, Printable (f a)) :
    Printable (l.flatMap f) := by
  refine List.all_eq_true.mpr fun c hc => ?_
  obtain ⟨a, ha, hca⟩ := List.mem_flatMap.mp hc
  exact List.all_eq_true.mp (h a ha) c hca

theorem Printable.subset (hs : Printable s) (h : s' ⊆ s) : Printable s' :=
  List.all_eq_true.mpr fun c hc => List.all_eq_true.mp hs c (h hc)

theorem printable_hexFixed (len n : Nat) : Printable (hexFixed len n) := by
  have hall : Printable (py "0123456789abcdef") := by decide
  refine hall.subset fun c hc => ?_
  exact of_decide_eq_true (List.all_eq_true.mp (hexFixed_hex len n) c hc)

theorem printable_unicodeEscape (n : Nat) : Printable (unicodeEscape n) :=
  Printable.append (by decide) (printable_hexFixed 4 n)

theorem printable_uuid (u : Uuid) : Printable (Uuid.str u) := by
  have hall : Printable (py "-0123456789abcdef") := by decide
  exact hall.subset fun c hc => uuid_chars u c hc

theorem printable_natText (n : Nat) : Printable (natText n) := by
  refine List.all_eq_true.mpr fun c hc => PyChar.isPrintable_iff.mpr ?_
  have hdigit := natText_digits n c hc
  rw [isDigit, Bool.and_eq_true, decide_eq_true_eq, decide_eq_true_eq] at hdigit
  omega

theorem printable_escapeChar (c : PyChar) : Printable (escapeChar c) := by
  unfold escapeChar
  split_ifs with h1 h2 h3 h4 h5 h6 h7 h8 h9
  · decide
  · decide
  · decide
  · decide
  · decide
  · decide
  · decide
  · refine List.all_eq_true.mpr (List.forall_mem_singleton.mpr (PyChar.isPrintable_iff.mpr ?_))
    omega
  · exact printable_unicodeEscape _
  · exact (printable_unicodeEscape _).append (printable_unicodeEscape _)

theorem printable_stringText (s : PyStr) : Printable (stringText s) :=
  (Printable.append (by decide) (Printable.flatMap fun c _ => printable_escapeChar c)).append (by decide)

theorem printable_joinComma {ts : List PyStr} (h : ∀ t ∈ ts, Printable t) : Printable (joinComma ts) := by
  induction ts with
  | nil => rfl
  | cons t ts ih =>
    obtain ⟨ht, hts⟩ := List.forall_mem_cons.mp h
    cases ts with
    | nil => exact ht
    | cons t' ts => exact (ht.append (by decide)).append (ih hts)

end

end NetopsCopilot
