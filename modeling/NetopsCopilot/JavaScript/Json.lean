import NetopsCopilot.JavaScript.Text
import NetopsCopilot.Python.JsonLoads

/-!
# JavaScript values as JSON (`JSON.stringify`, `JSON.parse`)

`JSON.parse` reads the code points of a string; in its strings an escape is one code unit. Numbers are the safe
integers and the others, which stay a parameter of the reader. `JSON.stringify` writes the properties whose keys are
array indices in front of the others. What it writes of strings, safe integers, arrays and objects is read back
(`parseJson_stringify`). Neither function is given a limit on the nesting of a value; what exhausts a stack is for
those who use them to say.
-/

namespace NetopsCopilot

/-! ### Values -/

/-- A number for which `Number.isSafeInteger` holds. -/
structure SafeInteger where
  val : Int
  safe : -9007199254740991 ≤ val ∧ val ≤ 9007199254740991
deriving DecidableEq

/-- A number; one that is no safe integer is known by its text. -/
inductive JsNum where
  | int (n : SafeInteger)
  | other (text : PyStr)
deriving DecidableEq

/-- A value that `JSON.parse` returns, the properties of an object in the order in which they were created. -/
inductive JsValue where
  | null
  | bool (b : Bool)
  | num (n : JsNum)
  | str (t : JsStr)
  | arr (items : List JsValue)
  | obj (members : List (JsStr × JsValue))

/-- The property of a value that is neither `null` nor `undefined`; `none` is `undefined`. -/
def JsValue.property (key : JsStr) : JsValue → Option JsValue
  | .obj members => members.lookup key
  | _ => none

/-! ### `JSON.stringify` -/

def JsNum.text : JsNum → PyStr
  | .int n => intText n.val
  | .other text => text

mutual
def JsValue.text : JsValue → PyStr
  | .null => py "null"
  | .bool true => py "true"
  | .bool false => py "false"
  | .num n => n.text
  | .str t => quoteString t
  | .arr items => py "[" ++ joinComma (itemTexts items) ++ py "]"
  | .obj members => py "\x7b" ++ joinComma (memberTexts members) ++ py "\x7d"
/-- The texts of the items. -/
def itemTexts : List JsValue → List PyStr
  | [] => []
  | v :: items => v.text :: itemTexts items
/-- The texts of the members. -/
def memberTexts : List (JsStr × JsValue) → List PyStr
  | [] => []
  | (key, v) :: members => (quoteString key ++ py ":" ++ v.text) :: memberTexts members
end

/-- The number that a key of digits stands for. -/
def indexValue (key : JsStr) : Nat := key.foldl (fun n u => 10 * n + (u.val - 48)) 0

/-- An array index: the decimal text of a number below 2 ^ 32 - 1. -/
def isArrayIndex (key : JsStr) : Bool :=
  decide (indexValue key < 4294967295) && decide (jsText (natText (indexValue key)) = key)

/-- The properties of an object in the order of its keys: array indices upwards, then the others as they were created. -/
def ownProperties (members : List (JsStr × JsValue)) : List (JsStr × JsValue) :=
  (members.filter fun m => isArrayIndex m.1).insertionSort (fun a b => indexValue a.1 ≤ indexValue b.1) ++
    members.filter fun m => !isArrayIndex m.1

mutual
/-- The value with the properties of every object in the order of the object's keys. -/
def JsValue.ordered : JsValue → JsValue
  | .arr items => .arr (orderedItems items)
  | .obj members => .obj (ownProperties (orderedMembers members))
  | v => v
def orderedItems : List JsValue → List JsValue
  | [] => []
  | v :: items => v.ordered :: orderedItems items
def orderedMembers : List (JsStr × JsValue) → List (JsStr × JsValue)
  | [] => []
  | (key, v) :: members => (key, v.ordered) :: orderedMembers members
end

/-- `JSON.stringify(value)`. -/
def JsValue.stringify (v : JsValue) : JsStr := jsText v.ordered.text

/-! ### `JSON.parse` -/

/-- A string behind its opening quote. -/
def scanJsString (s : PyStr) : Option (JsStr × PyStr) :=
  (scanChars 0 s).map fun found => (found.1.flatMap fun c => utf16 c.1, found.2)

/-- The number of decimal digits. -/
def decimalValue (s : PyStr) : Nat := s.foldl (fun n c => 10 * n + digitValue c) 0

def signedValue (s : PyStr) : Int := if s.head? = some 45 then -decimalValue s.tail else decimalValue s

/-- The text of a number: `-?(?:0|[1-9][0-9]*)(\.[0-9]+)?([eE][-+]?[0-9]+)?`. -/
def scanNumeral (s : PyStr) : Option (PyStr × PyStr) :=
  let sign := s.take (if s.head? = some 45 then 1 else 0)
  let digits := (s.drop sign.length).takeWhile isDigit
  let whole := if digits.head? = some 48 then py "0" else digits
  if whole = [] then none
  else
    let (fraction, rest) := scanFraction (s.drop (sign.length + whole.length))
    some (sign ++ whole ++ fraction, rest)

section

variable (otherNumber : PyStr → JsNum)

/-- The number of a text: a safe integer as it is written, or another one. -/
def numberOf (text : PyStr) : JsNum :=
  if safe : -9007199254740991 ≤ signedValue text ∧ signedValue text ≤ 9007199254740991 then
    if intText (signedValue text) = text then .int ⟨signedValue text, safe⟩ else otherNumber text
  else otherNumber text

/-- The value of a property that is set; a property that is there keeps its place. -/
def setProperty (members : List (JsStr × JsValue)) (key : JsStr) (value : JsValue) : List (JsStr × JsValue) :=
  if members.any fun m => m.1 == key then members.map fun m => if m.1 == key then (key, value) else m
  else members ++ [(key, value)]

def jsConstants : List (PyStr × JsValue) := [(py "null", .null), (py "true", .bool true), (py "false", .bool false)]

def scanJsConstant (s : PyStr) : Option (JsValue × PyStr) :=
  (jsConstants.find? fun c => c.1.isPrefixOf s).map fun c => (c.2, s.drop c.1.length)

mutual
/-- A value, and what follows it. -/
def parseValue : Nat → PyStr → Option (JsValue × PyStr)
  | 0, _ => none
  | fuel + 1, s =>
    match s with
    | [] => none
    | c :: t =>
      if c.val = 34 then (scanJsString t).map fun (text, rest) => (.str text, rest)
      else if c.val = 123 then
        match skipSpace t with
        | 125 :: rest => some (.obj [], rest)
        | t => parseMembers fuel [] t
      else if c.val = 91 then
        match skipSpace t with
        | 93 :: rest => some (.arr [], rest)
        | t => parseItems fuel [] t
      else (scanJsConstant (c :: t)).or
        ((scanNumeral (c :: t)).map fun (text, rest) => (.num (numberOf otherNumber text), rest))
/-- Members, up to the closing brace. -/
def parseMembers : Nat → List (JsStr × JsValue) → PyStr → Option (JsValue × PyStr)
  | 0, _, _ => none
  | fuel + 1, members, s =>
    match s with
    | 34 :: t => do
      let (key, t) ← scanJsString t
      match skipSpace t with
      | 58 :: t => do
        let (value, t) ← parseValue fuel (skipSpace t)
        match skipSpace t with
        | 125 :: rest => some (.obj (setProperty members key value), rest)
        | 44 :: t => parseMembers fuel (setProperty members key value) (skipSpace t)
        | _ => none
      | _ => none
    | _ => none
/-- Items, up to the closing bracket. -/
def parseItems : Nat → List JsValue → PyStr → Option (JsValue × PyStr)
  | 0, _, _ => none
  | fuel + 1, items, s => do
    let (value, t) ← parseValue fuel s
    match skipSpace t with
    | 93 :: rest => some (.arr (items ++ [value]), rest)
    | 44 :: t => parseItems fuel (items ++ [value]) (skipSpace t)
    | _ => none
end

/-- `JSON.parse(text)`, where `none` is a `SyntaxError`. -/
def parseJson (t : JsStr) : Option JsValue :=
  let s := codePoints t
  match parseValue otherNumber (s.length + 1) (skipSpace s) with
  | some (value, rest) => if skipSpace rest = [] then some value else none
  | none => none

end

/-! ### Strings -/

/-- A code unit, as a code point, is one unit again. -/
theorem utf16_unit (u : JsChar) : utf16 (Fin.ofNat _ u.val) = [u] := by
  have hval : (Fin.ofNat 0x110000 u.val).val = u.val := Nat.mod_eq_of_lt (by omega)
  unfold utf16
  rw [hval, if_pos u.isLt]
  exact congrArg (· :: []) (Fin.ofNat_val_eq_self u)

/-- The code units of the code points of a string. -/
theorem codePoints_units (t : JsStr) : (codePoints t).flatMap utf16 = t := by
  induction t using codePoints.induct with
  | case1 => rfl
  | case2 u =>
    rw [codePoints, List.flatMap_cons, utf16_unit]
    rfl
  | case3 u v t h ih =>
    have hval : (Fin.ofNat 0x110000 (0x10000 + (u.val - 0xD800) * 1024 + (v.val - 0xDC00))).val =
        0x10000 + (u.val - 0xD800) * 1024 + (v.val - 0xDC00) := Nat.mod_eq_of_lt (by omega)
    have hhigh : (0x10000 + (u.val - 0xD800) * 1024 + (v.val - 0xDC00) - 0x10000) / 1024 = u.val - 0xD800 := by
      omega
    have hlow : (0x10000 + (u.val - 0xD800) * 1024 + (v.val - 0xDC00) - 0x10000) % 1024 = v.val - 0xDC00 := by
      omega
    have hu : Fin.ofNat 0x10000 (0xD800 + (u.val - 0xD800)) = u := Fin.ext (by
      rw [Nat.add_sub_cancel' h.1]
      exact Nat.mod_eq_of_lt u.isLt)
    have hv : Fin.ofNat 0x10000 (0xDC00 + (v.val - 0xDC00)) = v := Fin.ext (by
      rw [Nat.add_sub_cancel' h.2.2.1]
      exact Nat.mod_eq_of_lt v.isLt)
    rw [codePoints, if_pos h, List.flatMap_cons, ih, utf16, hval, if_neg (by omega), hhigh, hlow, hu, hv]
    rfl
  | case4 u v t h ih =>
    rw [codePoints, if_neg h, List.flatMap_cons, utf16_unit, ih]
    rfl

theorem hexDigit?_digitChar {d : Nat} (h : d < 16) : hexDigit? (digitChar d) = some d := by
  interval_cases d <;> rfl

theorem hexFixed_four (n : Nat) : hexFixed 4 n =
    [digitChar (n / 16 / 16 / 16 % 16), digitChar (n / 16 / 16 % 16), digitChar (n / 16 % 16), digitChar (n % 16)] :=
  rfl

theorem scanEscape_unicode {n : Nat} (hn : n < 0x10000) (s : PyStr) :
    scanEscape (117 :: (hexFixed 4 n ++ s)) = some ((Fin.ofNat _ n, true), 5) := by
  have hdigit : ∀ k : Nat, hexDigit? (digitChar (k % 16)) = some (k % 16) := fun k =>
    hexDigit?_digitChar (Nat.mod_lt _ (by decide))
  have hcode : (n / 16 / 16 / 16 % 16 * 16 + n / 16 / 16 % 16) * 256 + n / 16 % 16 * 16 + n % 16 = n := by omega
  rw [hexFixed_four]
  simp only [List.cons_append, List.nil_append]
  rw [scanEscape, if_pos (show (117 : PyChar).val = 117 from rfl)]
  simp only [hdigit, Option.bind_eq_bind, Option.bind_some, Option.pure_def, hcode]

theorem scanChars_skip (t s : PyStr) : scanChars t.length (t ++ s) = scanChars 0 s := by
  induction t with
  | nil => rfl
  | cons c t ih => rw [List.length_cons, List.cons_append, scanChars, ih]

/-- The escape of a code point is read as that code point. -/
theorem scanChars_quoteChar (c : PyChar) (s : PyStr) : ∃ written,
    scanChars 0 (quoteChar c ++ s) = (scanChars 0 s).map fun found => ((c, written) :: found.1, found.2) := by
  unfold quoteChar
  split_ifs with h₁ h₂ h₃ h₄ h₅ h₆ h₇ h₈
  · obtain rfl : c = 8 := Fin.ext h₁
    exact ⟨false, rfl⟩
  · obtain rfl : c = 9 := Fin.ext h₂
    exact ⟨false, rfl⟩
  · obtain rfl : c = 10 := Fin.ext h₃
    exact ⟨false, rfl⟩
  · obtain rfl : c = 12 := Fin.ext h₄
    exact ⟨false, rfl⟩
  · obtain rfl : c = 13 := Fin.ext h₅
    exact ⟨false, rfl⟩
  · obtain rfl : c = 34 := Fin.ext h₆
    exact ⟨false, rfl⟩
  · obtain rfl : c = 92 := Fin.ext h₇
    exact ⟨false, rfl⟩
  · have hbasic : c.val < 0x10000 := by
      rcases h₈ with h | h
      · omega
      · unfold PyChar.IsSurrogate at h
        omega
    have hescape : scanEscape (117 :: (hexFixed 4 c.val ++ s)) = some ((c, true), 5) := by
      rw [scanEscape_unicode hbasic, Fin.ofNat_val_eq_self]
    have hskip : scanChars 5 (117 :: (hexFixed 4 c.val ++ s)) = scanChars 0 s :=
      scanChars_skip (117 :: hexFixed 4 c.val) s
    refine ⟨true, ?_⟩
    show scanChars 0 (92 :: 117 :: (hexFixed 4 c.val ++ s)) = _
    rw [scanChars, if_neg (by decide), if_neg (by decide), if_pos (show (92 : PyChar).val = 92 from rfl), hescape]
    dsimp only
    rw [hskip]
  · refine ⟨false, ?_⟩
    show scanChars 0 (c :: s) = _
    rw [scanChars, if_neg h₆, if_neg (fun h => h₈ (Or.inl h)), if_neg h₇]

/-- **A string is read back**, up to its closing quote. -/
theorem scanJsString_quoted (t : JsStr) (s : PyStr) :
    scanJsString ((codePoints t).flatMap quoteChar ++ 34 :: s) = some (t, s) := by
  have hread : ∀ cs : PyStr, ∃ chars, scanChars 0 (cs.flatMap quoteChar ++ 34 :: s) = some (chars, s) ∧
      chars.map Prod.fst = cs := by
    intro cs
    induction cs with
    | nil => exact ⟨[], rfl, rfl⟩
    | cons c cs ih =>
      obtain ⟨chars, hchars, hcs⟩ := ih
      obtain ⟨written, hc⟩ := scanChars_quoteChar c (cs.flatMap quoteChar ++ 34 :: s)
      refine ⟨(c, written) :: chars, ?_, congrArg (c :: ·) hcs⟩
      rw [List.flatMap_cons, List.append_assoc, hc, hchars]
      rfl
  obtain ⟨chars, hchars, hcs⟩ := hread (codePoints t)
  have hunits : (chars.flatMap fun c => utf16 c.1) = t := by
    rw [← List.flatMap_map, hcs, codePoints_units]
  rw [scanJsString, hchars, Option.map_some, hunits]

/-! ### Numbers -/

theorem decimalValue_natText (n : Nat) : decimalValue (natText n) = n := by
  have hfold : ∀ digits : List Nat, (∀ d ∈ digits, d < 10) →
      digits.foldr (fun d n => 10 * n + digitValue (digitChar d)) 0 = Nat.ofDigits 10 digits := by
    intro digits hdigits
    induction digits with
    | nil => rfl
    | cons d digits ih =>
      obtain ⟨hd, hdigits⟩ := List.forall_mem_cons.mp hdigits
      rw [List.foldr_cons, ih hdigits, digitValue_digitChar (by omega), Nat.ofDigits_cons, Nat.add_comm]
  unfold natText
  split_ifs with hn
  · rw [hn]
    rfl
  · have hdigits : ∀ d ∈ Nat.digits 10 n, d < 10 := fun d hd => Nat.digits_lt_base (by decide) hd
    rw [decimalValue, List.foldl_reverse, List.foldr_map, hfold _ hdigits, Nat.ofDigits_digits]

/-- Only zero is written with a zero in front. -/
theorem natText_head {n : Nat} (h : (natText n).head? = some 48) : natText n = py "0" := by
  by_cases hn : n = 0
  · rw [hn]
    rfl
  · exfalso
    have hne : Nat.digits 10 n ≠ [] := Nat.digits_ne_nil_iff_ne_zero.mpr hn
    have hlast := Nat.getLast_digit_ne_zero 10 hn
    have hlt : (Nat.digits 10 n).getLast hne < 10 := Nat.digits_lt_base (by decide) (List.getLast_mem hne)
    rw [natText, if_neg hn, List.head?_reverse, List.getLast?_map, List.getLast?_eq_some_getLast hne, Option.map_some,
      Option.some.injEq] at h
    have hvalue := congrArg digitValue h
    rw [digitValue_digitChar (by omega)] at hvalue
    exact hlast hvalue

theorem signedValue_intText (n : Int) : signedValue (intText n) = n := by
  cases n with
  | ofNat n =>
    have hhead : (natText n).head? ≠ some 45 := by
      intro h
      have hdigit := natText_digits n 45 (List.mem_of_mem_head? (Option.mem_def.mpr h))
      exact absurd hdigit (by decide)
    show signedValue (natText n) = n
    rw [signedValue, if_neg hhead, decimalValue_natText]
  | negSucc n =>
    show signedValue (45 :: natText (n + 1)) = Int.negSucc n
    rw [signedValue, if_pos List.head?_cons, List.tail_cons, decimalValue_natText]
    rfl

theorem numberOf_intText (otherNumber : PyStr → JsNum) (n : SafeInteger) :
    numberOf otherNumber (intText n.val) = .int n := by
  obtain ⟨n, hn⟩ := n
  have hval := signedValue_intText n
  unfold numberOf
  rw [dif_pos (by rw [hval]; exact hn), if_pos (by rw [hval])]
  congr

/-- What follows a value inside of a JSON text. -/
def ValueEnds (rest : PyStr) : Prop := ∀ c ∈ rest.head?, c = 44 ∨ c = 93 ∨ c = 125

section

variable {rest : PyStr}

theorem valueEnds_nil : ValueEnds [] := nofun

theorem valueEnds_cons {c : PyChar} (hc : c = 44 ∨ c = 93 ∨ c = 125) : ValueEnds (c :: rest) := by
  rintro d hd
  obtain rfl := Option.some.inj hd
  exact hc

theorem scanFraction_valueEnds (h : ValueEnds rest) : scanFraction rest = ([], rest) := by
  cases rest with
  | nil => rfl
  | cons c rest =>
    obtain rfl | rfl | rfl := h c rfl
    · rfl
    · rfl
    · rfl

theorem takeWhile_natText (n : Nat) (h : ValueEnds rest) : (natText n ++ rest).takeWhile isDigit = natText n := by
  have hrest : rest.takeWhile isDigit = [] := by
    cases rest with
    | nil => rfl
    | cons c rest =>
      obtain rfl | rfl | rfl := h c rfl
      · rfl
      · rfl
      · rfl
  rw [List.takeWhile_append_of_pos (natText_digits n), hrest, List.append_nil]

/-- The text of an integer is read as far as it goes. -/
theorem scanNumeral_intText (n : Int) (h : ValueEnds rest) :
    scanNumeral (intText n ++ rest) = some (intText n, rest) := by
  have hsigned : ∀ (sign : PyStr) (m : Nat),
      (sign ++ (natText m ++ rest)).take (if (sign ++ (natText m ++ rest)).head? = some 45 then 1 else 0) = sign →
      scanNumeral (sign ++ (natText m ++ rest)) = some (sign ++ natText m, rest) := by
    intro sign m hsign
    have hdigits : ((sign ++ (natText m ++ rest)).drop sign.length).takeWhile isDigit = natText m := by
      rw [List.drop_left, takeWhile_natText m h]
    have hwhole : (if (natText m).head? = some 48 then py "0" else natText m) = natText m := by
      split_ifs with hhead
      · exact (natText_head hhead).symm
      · rfl
    have hdrop : (sign ++ (natText m ++ rest)).drop (sign.length + (natText m).length) = rest := by
      rw [← List.append_assoc, ← List.length_append, List.drop_left]
    unfold scanNumeral
    dsimp only
    rw [hsign, hdigits, hwhole, if_neg (natText_ne_nil m), hdrop, scanFraction_valueEnds h, List.append_nil]
  cases n with
  | ofNat m =>
    refine hsigned [] m ?_
    obtain ⟨c, w, hw⟩ := List.exists_cons_of_ne_nil (natText_ne_nil m)
    have hc : c ≠ 45 := by
      rintro rfl
      have hdigit := natText_digits m 45 (by rw [hw]; exact List.mem_cons_self)
      exact absurd hdigit (by decide)
    rw [hw, List.nil_append, List.cons_append, List.head?_cons, if_neg fun heq => hc (Option.some.inj heq)]
    rfl
  | negSucc m => exact hsigned [45] (m + 1) rfl

end

/-! ### Values -/

mutual
/-- The numbers are safe integers, and no object has a key twice. -/
def JsValue.Exact : JsValue → Prop
  | .num (.other _) => False
  | .arr items => exactItems items
  | .obj members => (members.map Prod.fst).Nodup ∧ exactMembers members
  | _ => True
def exactItems : List JsValue → Prop
  | [] => True
  | v :: items => v.Exact ∧ exactItems items
def exactMembers : List (JsStr × JsValue) → Prop
  | [] => True
  | (_, v) :: members => v.Exact ∧ exactMembers members
end

theorem quoteString_eq (t : JsStr) (s : PyStr) :
    quoteString t ++ s = 34 :: ((codePoints t).flatMap quoteChar ++ 34 :: s) := by
  have hquote : py "\"" = [34] := rfl
  unfold quoteString
  rw [hquote, List.append_assoc, List.append_assoc]
  rfl

/-- A value's text begins with neither a space nor a bracket that closes. -/
theorem JsValue.text_head {v : JsValue} (hv : v.Exact) :
    ∃ c s, v.text = c :: s ∧ isJsonSpace c = false ∧ c ≠ 93 := by
  cases v with
  | null => exact ⟨_, _, rfl, rfl, by decide⟩
  | bool b => cases b <;> exact ⟨_, _, rfl, rfl, by decide⟩
  | num n =>
    cases n with
    | int n =>
      obtain ⟨n, -⟩ := n
      cases n with
      | ofNat n =>
        obtain ⟨c, s, hs⟩ := List.exists_cons_of_ne_nil (natText_ne_nil n)
        have hdigit := natText_digits n c (by rw [hs]; exact List.mem_cons_self)
        have hplain : ∀ c : PyChar, isDigit c = true → isJsonSpace c = false ∧ c ≠ 93 := by
          intro c hc
          rw [isDigit, Bool.and_eq_true, decide_eq_true_eq, decide_eq_true_eq] at hc
          refine ⟨?_, ?_⟩
          · unfold isJsonSpace
            simp only [Bool.or_eq_false_iff, beq_eq_false_iff_ne]
            omega
          · rintro rfl
            exact absurd hc.2 (by decide)
        exact ⟨c, s, hs, hplain c hdigit⟩
      | negSucc n => exact ⟨_, _, rfl, rfl, by decide⟩
    | other text => exact hv.elim
  | str t =>
    have htext := quoteString_eq t []
    rw [List.append_nil] at htext
    exact ⟨_, _, htext, rfl, by decide⟩
  | arr items => exact ⟨_, _, rfl, rfl, by decide⟩
  | obj members => exact ⟨_, _, rfl, rfl, by decide⟩

theorem skipSpace_text {v : JsValue} (hv : v.Exact) (s : PyStr) : skipSpace (v.text ++ s) = v.text ++ s := by
  obtain ⟨c, w, hw, hspace, -⟩ := v.text_head hv
  rw [hw]
  exact List.dropWhile_cons_of_neg (by rw [hspace]; exact Bool.false_ne_true)

theorem skipSpace_quoteString (t : JsStr) (s : PyStr) : skipSpace (quoteString t ++ s) = quoteString t ++ s := by
  rw [quoteString_eq]
  rfl

section

variable {otherNumber : PyStr → JsNum}

theorem setProperty_fresh {members : List (JsStr × JsValue)} {key : JsStr} (h : key ∉ members.map Prod.fst)
    (value : JsValue) : setProperty members key value = members ++ [(key, value)] := by
  have hany : (members.any fun m => m.1 == key) = false := by
    rw [List.any_eq_false]
    intro m hm heq
    exact h (List.mem_map.mpr ⟨m, hm, beq_iff_eq.mp heq⟩)
  unfold setProperty
  rw [hany, if_neg Bool.false_ne_true]

theorem intText_head (n : Int) : ∃ c s, intText n = c :: s ∧ c.val < 58 ∧ c.val ≠ 34 := by
  have hplain : ∀ c : PyChar, isDigit c = true → c.val < 58 ∧ c.val ≠ 34 := by
    intro c hc
    rw [isDigit, Bool.and_eq_true, decide_eq_true_eq, decide_eq_true_eq] at hc
    omega
  cases n with
  | ofNat n =>
    obtain ⟨c, s, hs⟩ := List.exists_cons_of_ne_nil (natText_ne_nil n)
    exact ⟨c, s, hs, hplain c (natText_digits n c (by rw [hs]; exact List.mem_cons_self))⟩
  | negSucc n => exact ⟨45, _, rfl, by decide⟩

/-- An integer is no constant. -/
theorem scanJsConstant_intText (n : Int) (rest : PyStr) : scanJsConstant (intText n ++ rest) = none := by
  obtain ⟨c, s, hs, hval, -⟩ := intText_head n
  have hletter : ∀ d : PyChar, 58 ≤ d.val → (d == c) = false := by
    intro d hd
    rw [beq_eq_false_iff_ne]
    rintro rfl
    omega
  have hn := hletter 110 (by decide)
  have ht := hletter 116 (by decide)
  have hf := hletter 102 (by decide)
  have hnull : (py "null").isPrefixOf (c :: (s ++ rest)) = false := by
    show ((110 : PyChar) == c && _) = false
    rw [hn, Bool.false_and]
  have htrue : (py "true").isPrefixOf (c :: (s ++ rest)) = false := by
    show ((116 : PyChar) == c && _) = false
    rw [ht, Bool.false_and]
  have hfalse : (py "false").isPrefixOf (c :: (s ++ rest)) = false := by
    show ((102 : PyChar) == c && _) = false
    rw [hf, Bool.false_and]
  rw [hs, List.cons_append]
  unfold scanJsConstant jsConstants
  simp only [List.find?_cons, hnull, htrue, hfalse, List.find?_nil, Option.map_none]

theorem parseValue_num (n : SafeInteger) {rest : PyStr} (h : ValueEnds rest) (fuel : Nat) :
    parseValue otherNumber (fuel + 1) (intText n.val ++ rest) = some (.num (.int n), rest) := by
  have hread := scanNumeral_intText n.val h
  have hconstant := scanJsConstant_intText n.val rest
  have hnumber := numberOf_intText otherNumber n
  obtain ⟨c, s, hs, hval, hquote⟩ := intText_head n.val
  rw [hs] at hread hnumber hconstant ⊢
  rw [List.cons_append] at hread hconstant ⊢
  rw [parseValue, if_neg hquote, if_neg (by omega), if_neg (by omega), hconstant, hread, Option.none_or,
    Option.map_some]
  dsimp only
  rw [hnumber]

theorem joinComma_itemTexts (v : JsValue) (items : List JsValue) :
    ∃ tail, joinComma (itemTexts (v :: items)) = v.text ++ tail := by
  cases items with
  | nil => exact ⟨[], (List.append_nil _).symm⟩
  | cons v' items => exact ⟨_, List.append_assoc _ _ _⟩

theorem joinComma_memberTexts (m : JsStr × JsValue) (members : List (JsStr × JsValue)) :
    ∃ tail, joinComma (memberTexts (m :: members)) = quoteString m.1 ++ tail := by
  cases members with
  | nil => exact ⟨_, List.append_assoc _ _ _⟩
  | cons m' members =>
    refine ⟨(py ":" ++ m.2.text) ++ (py "," ++ joinComma (memberTexts (m' :: members))), ?_⟩
    simp only [memberTexts, joinComma, List.append_assoc]

variable (otherNumber) in
/-- `fuel` is enough for every value whose text is not longer. -/
def ReadsAt (fuel : Nat) : Prop :=
  ∀ v : JsValue, v.Exact → v.text.length ≤ fuel → ∀ rest, ValueEnds rest →
    parseValue otherNumber fuel (v.text ++ rest) = some (v, rest)

theorem parseItems_text {v : JsValue} {items : List JsValue} (hv : exactItems (v :: items)) {fuel : Nat}
    (hreads : ∀ k < fuel, ReadsAt otherNumber k) (hfuel : (joinComma (itemTexts (v :: items))).length < fuel)
    (before : List JsValue) (rest : PyStr) :
    parseItems otherNumber fuel before (joinComma (itemTexts (v :: items)) ++ 93 :: rest) =
      some (.arr (before ++ v :: items), rest) := by
  induction items generalizing v fuel before with
  | nil =>
    obtain ⟨fuel, rfl⟩ : ∃ k, fuel = k + 1 := ⟨fuel - 1, by omega⟩
    have hread := hreads fuel (Nat.lt_succ_self _) v hv.1 (Nat.lt_succ_iff.mp hfuel) (93 :: rest)
      (valueEnds_cons (Or.inr (Or.inl rfl)))
    rw [parseItems]
    show (parseValue otherNumber fuel (v.text ++ 93 :: rest)).bind _ = _
    rw [hread]
    rfl
  | cons v' items ih =>
    obtain ⟨fuel, rfl⟩ : ∃ k, fuel = k + 1 := ⟨fuel - 1, by omega⟩
    have hjoin : joinComma (itemTexts (v :: v' :: items)) = v.text ++ 44 :: joinComma (itemTexts (v' :: items)) :=
      List.append_assoc _ _ _
    rw [hjoin, List.length_append, List.length_cons] at hfuel
    have hread := hreads fuel (Nat.lt_succ_self _) v hv.1 (by omega)
      (44 :: (joinComma (itemTexts (v' :: items)) ++ 93 :: rest)) (valueEnds_cons (Or.inl rfl))
    have hitems := ih hv.2 (fun k hk => hreads k (by omega)) (show _ < fuel by omega) (before ++ [v])
    obtain ⟨tail, htail⟩ := joinComma_itemTexts v' items
    have hskip : skipSpace (joinComma (itemTexts (v' :: items)) ++ 93 :: rest) =
        joinComma (itemTexts (v' :: items)) ++ 93 :: rest := by
      rw [htail, List.append_assoc, skipSpace_text hv.2.1]
    rw [parseItems, hjoin, List.append_assoc, List.cons_append, hread]
    show parseItems otherNumber fuel (before ++ [v]) (skipSpace _) = _
    rw [hskip, hitems, List.append_assoc]
    rfl

/-- A key is read, then its value with the text `tail` after it. -/
theorem parseMembers_member {key : JsStr} {v : JsValue} (hv : v.Exact) {fuel : Nat} (hreads : ReadsAt otherNumber fuel)
    (hlength : v.text.length ≤ fuel) {before : List (JsStr × JsValue)} (hfresh : key ∉ before.map Prod.fst)
    {tail : PyStr} (htail : ValueEnds tail) :
    parseMembers otherNumber (fuel + 1) before (quoteString key ++ py ":" ++ v.text ++ tail) =
      match skipSpace tail with
      | 125 :: rest => some (.obj (before ++ [(key, v)]), rest)
      | 44 :: t => parseMembers otherNumber fuel (before ++ [(key, v)]) (skipSpace t)
      | _ => none := by
  have hread := hreads v hv hlength tail htail
  rw [List.append_assoc, List.append_assoc, quoteString_eq, parseMembers, scanJsString_quoted]
  show (parseValue otherNumber fuel (skipSpace (v.text ++ tail))).bind _ = _
  rw [skipSpace_text hv, hread, Option.bind_some]
  dsimp only
  rw [setProperty_fresh hfresh]

theorem parseMembers_text {m : JsStr × JsValue} {members : List (JsStr × JsValue)} (hv : exactMembers (m :: members))
    {before : List (JsStr × JsValue)} (hkeys : ((before ++ m :: members).map Prod.fst).Nodup) {fuel : Nat}
    (hreads : ∀ k < fuel, ReadsAt otherNumber k) (hfuel : (joinComma (memberTexts (m :: members))).length < fuel)
    (rest : PyStr) :
    parseMembers otherNumber fuel before (joinComma (memberTexts (m :: members)) ++ 125 :: rest) =
      some (.obj (before ++ m :: members), rest) := by
  induction members generalizing m fuel before with
  | nil =>
    obtain ⟨fuel, rfl⟩ : ∃ k, fuel = k + 1 := ⟨fuel - 1, by omega⟩
    obtain ⟨key, v⟩ := m
    have hfresh : key ∉ before.map Prod.fst := by
      rw [List.map_append, List.map_cons] at hkeys
      exact fun h => (List.nodup_append.mp hkeys).2.2 _ h _ List.mem_cons_self rfl
    have hlength : v.text.length ≤ fuel := by
      have htext : joinComma (memberTexts [(key, v)]) = quoteString key ++ py ":" ++ v.text := rfl
      rw [htext, List.length_append] at hfuel
      omega
    have hend : ValueEnds (125 :: rest) := valueEnds_cons (Or.inr (Or.inr rfl))
    exact parseMembers_member hv.1 (hreads fuel (Nat.lt_succ_self _)) hlength hfresh hend
  | cons m' members ih =>
    obtain ⟨fuel, rfl⟩ : ∃ k, fuel = k + 1 := ⟨fuel - 1, by omega⟩
    obtain ⟨key, v⟩ := m
    have hfresh : key ∉ before.map Prod.fst := by
      rw [List.map_append, List.map_cons] at hkeys
      exact fun h => (List.nodup_append.mp hkeys).2.2 _ h _ List.mem_cons_self rfl
    have hjoin : joinComma (memberTexts ((key, v) :: m' :: members)) =
        quoteString key ++ py ":" ++ v.text ++ 44 :: joinComma (memberTexts (m' :: members)) :=
      List.append_assoc _ _ _
    rw [hjoin, List.length_append, List.length_append, List.length_cons] at hfuel
    have hend : ValueEnds (44 :: (joinComma (memberTexts (m' :: members)) ++ 125 :: rest)) :=
      valueEnds_cons (Or.inl rfl)
    have hfirst := parseMembers_member hv.1 (hreads fuel (Nat.lt_succ_self _)) (by omega) hfresh hend
    have hkeys' : ((before ++ [(key, v)] ++ m' :: members).map Prod.fst).Nodup := by
      rw [List.append_assoc]
      exact hkeys
    have hmembers := ih hv.2 hkeys' (fun k hk => hreads k (by omega)) (show _ < fuel by omega)
    obtain ⟨tail, htail⟩ := joinComma_memberTexts m' members
    have hskip : skipSpace (joinComma (memberTexts (m' :: members)) ++ 125 :: rest) =
        joinComma (memberTexts (m' :: members)) ++ 125 :: rest := by
      rw [htail, List.append_assoc, skipSpace_quoteString]
    rw [hjoin, List.append_assoc, List.cons_append, hfirst]
    show parseMembers otherNumber fuel (before ++ [(key, v)]) (skipSpace _) = _
    rw [hskip, hmembers, List.append_assoc]
    rfl

theorem parseValue_arr {v : JsValue} {items : List JsValue} (hv : exactItems (v :: items)) {fuel : Nat}
    (hreads : ∀ k < fuel, ReadsAt otherNumber k) (hfuel : (JsValue.arr (v :: items)).text.length ≤ fuel + 1)
    (rest : PyStr) :
    parseValue otherNumber (fuel + 1) ((JsValue.arr (v :: items)).text ++ rest) = some (.arr (v :: items), rest) := by
  have htext : (JsValue.arr (v :: items)).text ++ rest = 91 :: (joinComma (itemTexts (v :: items)) ++ 93 :: rest) := by
    rw [JsValue.text, List.append_assoc, List.append_assoc]
    rfl
  have hlength : (joinComma (itemTexts (v :: items))).length < fuel := by
    have hopen : (py "[").length = 1 := rfl
    have hclose : (py "]").length = 1 := rfl
    rw [JsValue.text, List.length_append, List.length_append] at hfuel
    omega
  have hitems := parseItems_text hv hreads hlength [] rest
  obtain ⟨tail, htail⟩ := joinComma_itemTexts v items
  obtain ⟨d, w, hw, -, hbracket⟩ := v.text_head hv.1
  have hskip : skipSpace (joinComma (itemTexts (v :: items)) ++ 93 :: rest) =
      joinComma (itemTexts (v :: items)) ++ 93 :: rest := by
    rw [htail, List.append_assoc, skipSpace_text hv.1]
  rw [htext, parseValue, if_neg (by decide), if_neg (by decide), if_pos (show (91 : PyChar).val = 91 from rfl), hskip]
  split
  next heq =>
    rw [htail, List.append_assoc, hw] at heq
    exact absurd (List.cons.inj heq).1 hbracket
  next => exact hitems

theorem parseValue_obj {m : JsStr × JsValue} {members : List (JsStr × JsValue)}
    (hkeys : ((m :: members).map Prod.fst).Nodup) (hv : exactMembers (m :: members)) {fuel : Nat}
    (hreads : ∀ k < fuel, ReadsAt otherNumber k) (hfuel : (JsValue.obj (m :: members)).text.length ≤ fuel + 1)
    (rest : PyStr) :
    parseValue otherNumber (fuel + 1) ((JsValue.obj (m :: members)).text ++ rest) =
      some (.obj (m :: members), rest) := by
  have htext : (JsValue.obj (m :: members)).text ++ rest =
      123 :: (joinComma (memberTexts (m :: members)) ++ 125 :: rest) := by
    rw [JsValue.text, List.append_assoc, List.append_assoc]
    rfl
  have hlength : (joinComma (memberTexts (m :: members))).length < fuel := by
    have hopen : (py "\x7b").length = 1 := rfl
    have hclose : (py "\x7d").length = 1 := rfl
    rw [JsValue.text, List.length_append, List.length_append] at hfuel
    omega
  have hkeys' : (([] ++ m :: members).map Prod.fst).Nodup := hkeys
  have hmembers := parseMembers_text hv hkeys' hreads hlength rest
  obtain ⟨tail, htail⟩ := joinComma_memberTexts m members
  have hskip : skipSpace (joinComma (memberTexts (m :: members)) ++ 125 :: rest) =
      joinComma (memberTexts (m :: members)) ++ 125 :: rest := by
    rw [htail, List.append_assoc, skipSpace_quoteString]
  rw [htext, parseValue, if_neg (by decide), if_pos (show (123 : PyChar).val = 123 from rfl), hskip]
  split
  next heq =>
    rw [htail, List.append_assoc, quoteString_eq] at heq
    exact absurd (List.cons.inj heq).1 (by decide)
  next => exact hmembers

/-- **A value is read up to the end of its text**, if the fuel is not below the text's length. -/
theorem readsAt (fuel : Nat) : ReadsAt otherNumber fuel := by
  induction fuel using Nat.strong_induction_on with
  | _ fuel ih =>
    intro v hv hfuel rest hrest
    obtain ⟨c, s, hs, -⟩ := v.text_head hv
    obtain ⟨fuel, rfl⟩ : ∃ k, fuel = k + 1 := by
      rw [hs, List.length_cons] at hfuel
      exact ⟨fuel - 1, by omega⟩
    have hreads : ∀ k < fuel, ReadsAt otherNumber k := fun k hk => ih k (by omega)
    cases v with
    | null => rfl
    | bool b => cases b <;> rfl
    | num n =>
      cases n with
      | int n => exact parseValue_num n hrest fuel
      | other text => exact hv.elim
    | str t =>
      rw [JsValue.text, quoteString_eq, parseValue, if_pos (show (34 : PyChar).val = 34 from rfl), scanJsString_quoted]
      rfl
    | arr items =>
      cases items with
      | nil => rfl
      | cons v items => exact parseValue_arr hv hreads hfuel rest
    | obj members =>
      cases members with
      | nil => rfl
      | cons m members => exact parseValue_obj hv.1 hv.2 hreads hfuel rest

end

/-! ### The text of a value -/

theorem printable_intText (n : Int) : Printable (intText n) := by
  cases n with
  | ofNat n => exact printable_natText n
  | negSucc n => exact Printable.append (by decide) (printable_natText (n + 1))

mutual
theorem JsValue.plain_text (v : JsValue) (hv : v.Exact) : Plain v.text := by
  cases v with
  | null => exact Plain.of_printable (by decide)
  | bool b => cases b <;> exact Plain.of_printable (by decide)
  | num n =>
    cases n with
    | int n => exact Plain.of_printable (printable_intText n.val)
    | other text => exact hv.elim
  | str t => exact plain_quoteString t
  | arr items =>
    exact (Plain.append (Plain.of_printable (by decide)) (plain_joinComma (plain_itemTexts items hv))).append
      (Plain.of_printable (by decide))
  | obj members =>
    exact (Plain.append (Plain.of_printable (by decide)) (plain_joinComma (plain_memberTexts members hv.2))).append
      (Plain.of_printable (by decide))
theorem plain_itemTexts (items : List JsValue) (hv : exactItems items) : ∀ t ∈ itemTexts items, Plain t := by
  cases items with
  | nil => exact nofun
  | cons v items => exact List.forall_mem_cons.mpr ⟨v.plain_text hv.1, plain_itemTexts items hv.2⟩
theorem plain_memberTexts (members : List (JsStr × JsValue)) (hv : exactMembers members) :
    ∀ t ∈ memberTexts members, Plain t := by
  cases members with
  | nil => exact nofun
  | cons m members =>
    exact List.forall_mem_cons.mpr ⟨((plain_quoteString m.1).append (Plain.of_printable (by decide))).append
      (m.2.plain_text hv.1), plain_memberTexts members hv.2⟩
end

/-- The text of a value is read as that value, by way of UTF-8 as well. -/
theorem parseJson_text (otherNumber : PyStr → JsNum) {v : JsValue} (hv : v.Exact) :
    parseJson otherNumber (jsText v.text) = some v := by
  have hscalar : ∀ c ∈ v.text, Utf8.IsScalar c := fun c hc => (v.plain_text hv c hc).1
  have hreads : ReadsAt otherNumber (v.text.length + 1) := readsAt _
  have hread := hreads v hv (Nat.le_succ _) [] valueEnds_nil
  have hskip := skipSpace_text hv []
  rw [List.append_nil] at hread hskip
  unfold parseJson
  rw [codePoints_jsText hscalar]
  dsimp only
  rw [hskip, hread]
  rfl

/-! ### The order of properties -/

theorem exactMembers_iff (members : List (JsStr × JsValue)) : exactMembers members ↔ ∀ m ∈ members, m.2.Exact := by
  induction members with
  | nil => simp [exactMembers]
  | cons m members ih => rw [exactMembers, ih, List.forall_mem_cons]

theorem orderedItems_eq (items : List JsValue) : orderedItems items = items.map JsValue.ordered := by
  induction items with
  | nil => rfl
  | cons v items ih => rw [orderedItems, ih, List.map_cons]

/-- A member whose value is in order. -/
def orderedMember (m : JsStr × JsValue) : JsStr × JsValue := (m.1, m.2.ordered)

theorem orderedMembers_eq (members : List (JsStr × JsValue)) : orderedMembers members = members.map orderedMember := by
  induction members with
  | nil => rfl
  | cons m members ih =>
    rw [orderedMembers, ih, List.map_cons]
    rfl

theorem ownProperties_perm (members : List (JsStr × JsValue)) : (ownProperties members).Perm members :=
  ((List.perm_insertionSort _ _).append_right _).trans (List.filter_append_perm (fun m => isArrayIndex m.1) members)

/-- Without array indices the order is that of creation. -/
theorem ownProperties_eq_self {members : List (JsStr × JsValue)} (h : ∀ m ∈ members, isArrayIndex m.1 = false) :
    ownProperties members = members := by
  have hindices : (members.filter fun m => isArrayIndex m.1) = [] :=
    List.filter_eq_nil_iff.mpr fun m hm => by rw [h m hm]; exact Bool.false_ne_true
  have hothers : (members.filter fun m => !isArrayIndex m.1) = members :=
    List.filter_eq_self.mpr fun m hm => by rw [h m hm]; rfl
  unfold ownProperties
  rw [hindices, hothers]
  rfl

mutual
theorem JsValue.exact_ordered (v : JsValue) (hv : v.Exact) : v.ordered.Exact := by
  cases v with
  | arr items => exact exactItems_ordered items hv
  | obj members =>
    have hperm := ownProperties_perm (orderedMembers members)
    have hkeys : (orderedMembers members).map Prod.fst = members.map Prod.fst := by
      rw [orderedMembers_eq, List.map_map]
      rfl
    refine ⟨(hperm.map Prod.fst).nodup_iff.mpr (hkeys ▸ hv.1), (exactMembers_iff _).mpr fun m hm => ?_⟩
    exact (exactMembers_iff _).mp (exactMembers_ordered members hv.2) m (hperm.subset hm)
  | _ => exact hv
theorem exactItems_ordered (items : List JsValue) (hv : exactItems items) : exactItems (orderedItems items) := by
  cases items with
  | nil => trivial
  | cons v items => exact ⟨v.exact_ordered hv.1, exactItems_ordered items hv.2⟩
theorem exactMembers_ordered (members : List (JsStr × JsValue)) (hv : exactMembers members) :
    exactMembers (orderedMembers members) := by
  cases members with
  | nil => trivial
  | cons m members => exact ⟨m.2.exact_ordered hv.1, exactMembers_ordered members hv.2⟩
end

/-- **`JSON.parse` returns the value that `JSON.stringify` was given**, with its properties in order. -/
theorem parseJson_stringify (otherNumber : PyStr → JsNum) {v : JsValue} (hv : v.Exact) :
    parseJson otherNumber v.stringify = some v.ordered := parseJson_text otherNumber (v.exact_ordered hv)

/-- Array indices go first. -/
example : (JsValue.obj [(js "b", .null), (js "10", .null), (js "1", .null), (js "01", .null)]).stringify =
    js "\x7b\"1\":null,\"10\":null,\"b\":null,\"01\":null\x7d" := by
  decide +kernel

end NetopsCopilot
