import NetopsCopilot.JavaScript.Json

/-!
# Type expressions of TypeScript

`readTs` reads unions, arrays, tuples, literals, parentheses and `Record<string, …>` with the precedence of the
language: brackets bind tighter than bars. String literals have the escapes of JSON. A type denotes a set of values,
in an environment for the names it refers to.
-/

namespace NetopsCopilot

/-! ### Types and values -/

/-- A type. No text is read as an intersection or as the type of one value (`only`): these are for comparison. -/
inductive TsType where
  | unknown
  | null
  | string
  | number
  | boolean
  | strLit (t : JsStr)
  | numLit (n : JsNum)
  | boolLit (b : Bool)
  | name (n : PyStr)
  | array (item : TsType)
  | tuple (items : List TsType)
  | record (value : TsType)
  | union (ts : List TsType)
  | inter (ts : List TsType)
  | only (value : Json)

/-- The alternatives of a type. -/
def TsType.alternatives : TsType → List TsType
  | .union ts => ts
  | t => [t]

/-- The type with these alternatives. -/
def TsType.ofAlternatives : List TsType → TsType
  | [t] => t
  | ts => .union ts

section

variable (otherNumber : PyStr → JsNum)

mutual
/-- A value of a JSON document is this value; objects are equal whatever the order of their members. -/
def Json.Equal : Json → JsValue → Prop
  | .null, v => v = .null
  | .bool b, v => v = .bool b
  | .int n, v => v = .num (numberOf otherNumber (intText n))
  | .float f, v => v = .num (numberOf otherNumber f.text)
  | .str s, v => v = .str (jsText s)
  | .arr items, v => ∃ values, v = .arr values ∧ equalItems items values
  | .obj members, v => ∃ values, v = .obj values ∧ members.length = values.length ∧ equalMembers members values
def equalItems : List Json → List JsValue → Prop
  | [], values => values = []
  | j :: items, values => ∃ v rest, values = v :: rest ∧ j.Equal v ∧ equalItems items rest
def equalMembers : List (PyStr × Json) → List (JsStr × JsValue) → Prop
  | [], _ => True
  | (key, j) :: members, values =>
    (∃ v, values.lookup (jsText key) = some v ∧ j.Equal v) ∧ equalMembers members values
end

variable (env : PyStr → JsValue → Prop)

mutual
/-- The values of a type. -/
def TsType.Denotes : TsType → JsValue → Prop
  | .unknown, _ => True
  | .null, v => v = .null
  | .string, v => ∃ t, v = .str t
  | .number, v => ∃ n, v = .num n
  | .boolean, v => ∃ b, v = .bool b
  | .strLit t, v => v = .str t
  | .numLit n, v => v = .num n
  | .boolLit b, v => v = .bool b
  | .name n, v => env n v
  | .array t, v => ∃ items, v = .arr items ∧ ∀ w ∈ items, t.Denotes w
  | .tuple ts, v => ∃ items, v = .arr items ∧ denoteItems ts items
  | .record t, v => ∃ members, v = .obj members ∧ ∀ m ∈ members, t.Denotes m.2
  | .union ts, v => denoteSome ts v
  | .inter ts, v => denoteAll ts v
  | .only j, v => j.Equal otherNumber v
def denoteItems : List TsType → List JsValue → Prop
  | [], items => items = []
  | t :: ts, items => ∃ v rest, items = v :: rest ∧ t.Denotes v ∧ denoteItems ts rest
def denoteSome : List TsType → JsValue → Prop
  | [], _ => False
  | t :: ts, v => t.Denotes v ∨ denoteSome ts v
def denoteAll : List TsType → JsValue → Prop
  | [], _ => True
  | t :: ts, v => t.Denotes v ∧ denoteAll ts v
end

end

/-! ### Reading -/

/-- What the reader takes from Unicode and from the language: the characters beyond ASCII that begin an identifier,
those that continue one, and the numbers that are no safe integers. -/
structure TsLibrary where
  otherStart : PyChar → Bool
  otherPart : PyChar → Bool
  otherNumber : PyStr → JsNum

section

variable (lib : TsLibrary)

def isIdStart (c : PyChar) : Bool :=
  if c.val < 128 then
    (65 ≤ c.val && c.val ≤ 90) || (97 ≤ c.val && c.val ≤ 122) || c.val == 95 || c.val == 36
  else lib.otherStart c

def isIdPart (c : PyChar) : Bool :=
  if c.val < 128 then isIdStart lib c || isDigit c else lib.otherPart c || lib.otherStart c

/-- Words that name no declared type: predefined types, reserved words, operators on types, and `Record`. -/
def reservedNames : List PyStr :=
  [py "any", py "bigint", py "never", py "object", py "symbol", py "undefined", py "void", py "Record",
    py "asserts", py "infer", py "is", py "keyof", py "readonly", py "unique", py "abstract", py "break", py "case",
    py "catch", py "class", py "const", py "continue", py "debugger", py "default", py "delete", py "do", py "else",
    py "enum", py "export", py "extends", py "finally", py "for", py "function", py "if", py "import", py "in",
    py "instanceof", py "new", py "return", py "super", py "switch", py "this", py "throw", py "try", py "typeof",
    py "var", py "while", py "with"]

/-- The words with a meaning of their own. -/
def tsKeywords : List (PyStr × TsType) :=
  [(py "unknown", .unknown), (py "null", .null), (py "string", .string), (py "number", .number),
    (py "boolean", .boolean), (py "true", .boolLit true), (py "false", .boolLit false)]

def wordType (word : PyStr) : Option TsType :=
  match tsKeywords.lookup word with
  | some t => some t
  | none => if word ∈ reservedNames then none else some (.name word)

/-- A character of a number. -/
def isNumberChar (c : PyChar) : Bool := isDigit c || c == 43 || c == 45 || c == 46 || c == 69 || c == 101

/-- A punctuation mark. -/
def expect (mark : PyChar) (s : PyStr) : Option PyStr :=
  match skipSpace s with
  | c :: s => if c = mark then some s else none
  | [] => none

def expectWord (word s : PyStr) : Option PyStr :=
  if (skipSpace s).takeWhile (isIdPart lib) = word then some ((skipSpace s).drop word.length) else none

/-- The brackets behind a type; `fuel` bounds their number. -/
def readBrackets : Nat → TsType → PyStr → TsType × PyStr
  | 0, t, s => (t, s)
  | fuel + 1, t, s =>
    match (expect 91 s).bind (expect 93) with
    | some rest => readBrackets fuel (.array t) rest
    | none => (t, s)

/-- A bar in front of the first alternative. -/
def dropBar (s : PyStr) : PyStr := (expect 124 s).getD s

/-- Alternatives that have been read, as a type. -/
def asType (found : Option (List TsType × PyStr)) : Option (TsType × PyStr) :=
  found.map fun (ts, s) => (.ofAlternatives ts, s)

mutual
/-- Alternatives, and what follows them. -/
def readUnion : Nat → PyStr → Option (List TsType × PyStr)
  | 0, _ => none
  | fuel + 1, s => do
    let (t, s) ← readPrimary fuel (skipSpace s)
    let (t, s) := readBrackets s.length t s
    match expect 124 s with
    | some s => do
      let (ts, s) ← readUnion fuel s
      some (t.alternatives ++ ts, s)
    | none => some (t.alternatives, s)
/-- A type without the brackets behind it. -/
def readPrimary : Nat → PyStr → Option (TsType × PyStr)
  | 0, _ => none
  | fuel + 1, s =>
    match s with
    | [] => none
    | c :: t =>
      if c.val = 34 then (scanJsString t).map fun (text, rest) => (.strLit text, rest)
      else if c.val = 40 then do
        let (t, s) ← asType (readUnion fuel (dropBar t))
        let s ← expect 41 s
        some (t, s)
      else if c.val = 91 then
        match expect 93 t with
        | some s => some (.tuple [], s)
        | none => (readTuple fuel t).map fun (ts, s) => (.tuple ts, s)
      else if isDigit c || c == 45 then
        let text := (c :: t).takeWhile isNumberChar
        if scanNumeral text = some (text, []) then
          some (.numLit (numberOf lib.otherNumber text), (c :: t).drop text.length)
        else none
      else if isIdStart lib c then
        let word := (c :: t).takeWhile (isIdPart lib)
        let rest := (c :: t).drop word.length
        if word = py "Record" then do
          let s ← expect 60 rest
          let s ← expectWord lib (py "string") s
          let s ← expect 44 s
          let (t, s) ← asType (readUnion fuel (dropBar s))
          let s ← expect 62 s
          some (.record t, s)
        else (wordType word).map fun t => (t, rest)
      else none
/-- The items of a tuple, up to the closing bracket. -/
def readTuple : Nat → PyStr → Option (List TsType × PyStr)
  | 0, _ => none
  | fuel + 1, s => do
    let (t, s) ← asType (readUnion fuel (dropBar s))
    match expect 93 s with
    | some s => some ([t], s)
    | none => do
      let s ← expect 44 s
      let (ts, s) ← readTuple fuel s
      some (t :: ts, s)
end

/-- The type that a text is read as. -/
def readTs (s : PyStr) : Option TsType :=
  match asType (readUnion lib (3 * s.length + 3) (dropBar s)) with
  | some (t, rest) => if skipSpace rest = [] then some t else none
  | none => none

end

/-! ### Marks -/

section

variable {rest : PyStr}

theorem expect_other {mark c : PyChar} (hc : isJsonSpace c = false) (h : c ≠ mark) :
    expect mark (c :: rest) = none := by
  have hskip : skipSpace (c :: rest) = c :: rest := List.dropWhile_cons_of_neg (by rw [hc]; exact Bool.false_ne_true)
  rw [expect, hskip]
  exact if_neg h

/-- What follows a type inside of another one. -/
def TypeStops (rest : PyStr) : Prop := ∀ c ∈ rest.head?, c = 44 ∨ c = 62 ∨ c = 93

/-- What follows a type without its brackets. -/
def Stops (rest : PyStr) : Prop := ∀ c ∈ rest.head?, c = 32 ∨ c = 44 ∨ c = 62 ∨ c = 91 ∨ c = 93

theorem typeStops_nil : TypeStops [] := nofun

theorem typeStops_cons {c : PyChar} (hc : c = 44 ∨ c = 62 ∨ c = 93) (rest : PyStr) : TypeStops (c :: rest) := by
  rintro d hd
  obtain rfl := Option.some.inj hd
  exact hc

theorem stops_cons {c : PyChar} (hc : c = 32 ∨ c = 44 ∨ c = 62 ∨ c = 91 ∨ c = 93) (rest : PyStr) :
    Stops (c :: rest) := by
  rintro d hd
  obtain rfl := Option.some.inj hd
  exact hc

theorem TypeStops.stops (h : TypeStops rest) : Stops rest := fun c hc => by
  obtain rfl | rfl | rfl := h c hc <;> decide

theorem TypeStops.expect_none (h : TypeStops rest) {mark : PyChar} (hmark : mark ≠ 44 ∧ mark ≠ 62 ∧ mark ≠ 93) :
    expect mark rest = none := by
  cases rest with
  | nil => rfl
  | cons c rest =>
    obtain rfl | rfl | rfl := h c rfl
    · exact expect_other rfl hmark.1.symm
    · exact expect_other rfl hmark.2.1.symm
    · exact expect_other rfl hmark.2.2.symm

end

/-! ### Operands of a union -/

/-- An array of arrays. -/
def TsType.arrayOf : Nat → TsType → TsType
  | 0, t => t
  | n + 1, t => TsType.arrayOf n (.array t)

theorem TsType.arrayOf_succ (n : Nat) (t : TsType) : TsType.arrayOf (n + 1) t = .array (TsType.arrayOf n t) := by
  induction n generalizing t with
  | zero => rfl
  | succ n ih => exact ih (.array t)

/-- Pairs of brackets. -/
def bracketText (n : Nat) : PyStr := (List.replicate n (py "[]")).flatten

/-- A text, what it is read as, and the number of brackets behind it. -/
structure TsOperand where
  text : PyStr
  type : TsType
  brackets : Nat := 0

def TsOperand.full (o : TsOperand) : PyStr := o.text ++ bracketText o.brackets

def TsOperand.tsType (o : TsOperand) : TsType := TsType.arrayOf o.brackets o.type

/-- `" | ".join(texts)`. -/
def joinBar : List PyStr → PyStr
  | [] => []
  | [t] => t
  | t :: ts => t ++ py " | " ++ joinBar ts

/-- The text of the operand is read as its type, whatever stops it. -/
structure TsOperand.Readable (lib : TsLibrary) (o : TsOperand) : Prop where
  head : ∃ c s, o.text = c :: s ∧ isJsonSpace c = false ∧ c ≠ 124 ∧ c ≠ 93
  single : o.type.alternatives = [o.type]
  reads : ∀ fuel rest, 3 * o.text.length ≤ fuel → Stops rest →
    readPrimary lib fuel (o.text ++ rest) = some (o.type, rest)

theorem stops_bracketText (n : Nat) {rest : PyStr} (h : Stops rest) : Stops (bracketText n ++ rest) := by
  cases n with
  | zero => exact h
  | succ n =>
    refine fun c hc => ?_
    obtain rfl := Option.some.inj hc
    decide

theorem readBrackets_bracketText {n fuel : Nat} (hfuel : n ≤ fuel) (t : TsType) {rest : PyStr}
    (hrest : expect 91 rest = none) : readBrackets fuel t (bracketText n ++ rest) = (TsType.arrayOf n t, rest) := by
  induction n generalizing fuel t with
  | zero =>
    cases fuel with
    | zero => rfl
    | succ fuel =>
      show readBrackets (fuel + 1) t rest = _
      rw [readBrackets, hrest]
      rfl
  | succ n ih =>
    obtain ⟨fuel, rfl⟩ : ∃ k, fuel = k + 1 := ⟨fuel - 1, by omega⟩
    have htext : bracketText (n + 1) ++ rest = 91 :: 93 :: (bracketText n ++ rest) := rfl
    have hmark : (expect 91 (91 :: 93 :: (bracketText n ++ rest))).bind (expect 93) =
        some (bracketText n ++ rest) := rfl
    rw [htext, readBrackets, hmark]
    exact ih (by omega) (.array t)

section

variable {lib : TsLibrary}

theorem TsOperand.Readable.alternatives {o : TsOperand} (ho : o.Readable lib) : o.tsType.alternatives = [o.tsType] := by
  obtain ⟨text, t, brackets⟩ := o
  cases brackets with
  | zero => exact ho.single
  | succ n =>
    show (TsType.arrayOf (n + 1) t).alternatives = [TsType.arrayOf (n + 1) t]
    rw [TsType.arrayOf_succ]
    rfl

theorem TsOperand.Readable.full_head {o : TsOperand} (ho : o.Readable lib) :
    ∃ c s, o.full = c :: s ∧ isJsonSpace c = false ∧ c ≠ 124 ∧ c ≠ 93 := by
  obtain ⟨c, s, hs, hhead⟩ := ho.head
  refine ⟨c, s ++ bracketText o.brackets, ?_, hhead⟩
  rw [TsOperand.full, hs]
  rfl

/-- An operand is read with its brackets. -/
theorem readUnion_operand {o : TsOperand} (ho : o.Readable lib) {fuel : Nat} (hfuel : 3 * o.full.length ≤ fuel)
    {rest : PyStr} (hstops : Stops rest) (hrest : expect 91 rest = none) :
    readUnion lib (fuel + 1) (o.full ++ rest) =
      match expect 124 rest with
      | some s => (readUnion lib fuel s).bind fun (ts, s) => some (o.tsType :: ts, s)
      | none => some ([o.tsType], rest) := by
  obtain ⟨c, s, hs, hspace, -⟩ := ho.full_head
  have hskip : skipSpace (o.full ++ rest) = o.full ++ rest := by
    rw [hs]
    exact List.dropWhile_cons_of_neg (by rw [hspace]; exact Bool.false_ne_true)
  have hlength : 3 * o.text.length ≤ fuel := by
    rw [TsOperand.full, List.length_append] at hfuel
    omega
  have hread := ho.reads fuel (bracketText o.brackets ++ rest) hlength (stops_bracketText _ hstops)
  have hcount : o.brackets ≤ (bracketText o.brackets ++ rest).length := by
    have hbrackets : (bracketText o.brackets).length = o.brackets * 2 := by
      unfold bracketText
      induction o.brackets with
      | zero => rfl
      | succ n ih =>
        rw [List.replicate_succ, List.flatten_cons, List.length_append, ih]
        have hpair : (py "[]").length = 2 := rfl
        omega
    rw [List.length_append]
    omega
  have hbrackets := readBrackets_bracketText hcount o.type hrest
  have htext : o.full ++ rest = o.text ++ (bracketText o.brackets ++ rest) := List.append_assoc _ _ _
  have halternatives : (TsType.arrayOf o.brackets o.type).alternatives = [o.tsType] := ho.alternatives
  rw [readUnion, hskip, htext, hread, Option.bind_eq_bind, Option.bind_some]
  dsimp only
  rw [hbrackets]
  dsimp only
  rw [halternatives]
  rfl

/-- A space in front of a type is skipped. -/
theorem readUnion_space (fuel : Nat) (s : PyStr) : readUnion lib fuel (32 :: s) = readUnion lib fuel s := by
  cases fuel with
  | zero => rfl
  | succ fuel =>
    have hskip : skipSpace (32 :: s) = skipSpace s := rfl
    rw [readUnion, readUnion, hskip]

theorem readUnion_dropBar_space (fuel : Nat) (s : PyStr) :
    readUnion lib fuel (dropBar (32 :: s)) = readUnion lib fuel (dropBar s) := by
  have hmark : expect 124 (32 :: s) = expect 124 s := rfl
  unfold dropBar
  rw [hmark]
  cases expect 124 s with
  | none => exact readUnion_space fuel s
  | some rest => rfl

theorem readTuple_space (fuel : Nat) (s : PyStr) : readTuple lib fuel (32 :: s) = readTuple lib fuel s := by
  cases fuel with
  | zero => rfl
  | succ fuel => rw [readTuple, readTuple, readUnion_dropBar_space]

/-- **A union is read operand by operand**: each with the brackets behind it. -/
theorem readUnion_operands {o : TsOperand} {ops : List TsOperand} (hops : ∀ p ∈ o :: ops, p.Readable lib)
    {fuel : Nat} (hfuel : 3 * (joinBar ((o :: ops).map TsOperand.full)).length + 1 ≤ fuel) {rest : PyStr}
    (hrest : TypeStops rest) :
    readUnion lib fuel (joinBar ((o :: ops).map TsOperand.full) ++ rest) =
      some ((o :: ops).map TsOperand.tsType, rest) := by
  obtain ⟨ho, hops'⟩ := List.forall_mem_cons.mp hops
  induction ops generalizing o fuel with
  | nil =>
    obtain ⟨fuel, rfl⟩ : ∃ k, fuel = k + 1 := ⟨fuel - 1, by omega⟩
    have hfuel' : 3 * o.full.length ≤ fuel := Nat.le_of_succ_le_succ hfuel
    show readUnion lib (fuel + 1) (o.full ++ rest) = _
    rw [readUnion_operand ho hfuel' hrest.stops (hrest.expect_none (by decide)), hrest.expect_none (by decide)]
    rfl
  | cons p ops ih =>
    obtain ⟨fuel, rfl⟩ : ∃ k, fuel = k + 1 := ⟨fuel - 1, by omega⟩
    obtain ⟨hp, hops''⟩ := List.forall_mem_cons.mp hops'
    have hjoin : joinBar ((o :: p :: ops).map TsOperand.full) ++ rest =
        o.full ++ 32 :: 124 :: 32 :: (joinBar ((p :: ops).map TsOperand.full) ++ rest) := by
      show o.full ++ py " | " ++ joinBar ((p :: ops).map TsOperand.full) ++ rest = _
      rw [List.append_assoc, List.append_assoc]
      rfl
    have hlength : (joinBar ((o :: p :: ops).map TsOperand.full)).length =
        o.full.length + 3 + (joinBar ((p :: ops).map TsOperand.full)).length := by
      show (o.full ++ py " | " ++ joinBar ((p :: ops).map TsOperand.full)).length = _
      rw [List.length_append, List.length_append]
      rfl
    rw [hlength] at hfuel
    have hread := ih hops' (by omega : 3 * (joinBar ((p :: ops).map TsOperand.full)).length + 1 ≤ fuel) hp hops''
    rw [hjoin, readUnion_operand ho (by omega) (stops_cons (Or.inl rfl) _) rfl]
    show (readUnion lib fuel (32 :: (joinBar ((p :: ops).map TsOperand.full) ++ rest))).bind _ = _
    rw [readUnion_space, hread]
    rfl

theorem dropBar_operands {o : TsOperand} (ho : o.Readable lib) (ops : List TsOperand) (rest : PyStr) :
    dropBar (joinBar ((o :: ops).map TsOperand.full) ++ rest) = joinBar ((o :: ops).map TsOperand.full) ++ rest := by
  obtain ⟨c, s, hs, hspace, hbar, -⟩ := ho.full_head
  have hcons : ∃ t, joinBar ((o :: ops).map TsOperand.full) ++ rest = c :: t := by
    cases ops with
    | nil =>
      refine ⟨s ++ rest, ?_⟩
      show o.full ++ rest = _
      rw [hs, List.cons_append]
    | cons p ops =>
      refine ⟨s ++ py " | " ++ joinBar ((p :: ops).map TsOperand.full) ++ rest, ?_⟩
      show o.full ++ py " | " ++ joinBar ((p :: ops).map TsOperand.full) ++ rest = _
      rw [hs]
      rfl
  obtain ⟨t, ht⟩ := hcons
  rw [dropBar, ht, expect_other hspace hbar, Option.getD_none]

/-- A union inside of another type. -/
theorem asType_operands {o : TsOperand} {ops : List TsOperand} (hops : ∀ p ∈ o :: ops, p.Readable lib)
    {fuel : Nat} (hfuel : 3 * (joinBar ((o :: ops).map TsOperand.full)).length + 1 ≤ fuel) {rest : PyStr}
    (hrest : TypeStops rest) :
    asType (readUnion lib fuel (dropBar (joinBar ((o :: ops).map TsOperand.full) ++ rest))) =
      some (.ofAlternatives ((o :: ops).map TsOperand.tsType), rest) := by
  rw [dropBar_operands (hops o List.mem_cons_self), readUnion_operands hops hfuel hrest]
  rfl

/-- **The text of operands is read as the union of their types.** -/
theorem readTs_operands {o : TsOperand} {ops : List TsOperand} (hops : ∀ p ∈ o :: ops, p.Readable lib) :
    readTs lib (joinBar ((o :: ops).map TsOperand.full)) =
      some (.ofAlternatives ((o :: ops).map TsOperand.tsType)) := by
  have hread := asType_operands hops (by omega : _ ≤ 3 * (joinBar ((o :: ops).map TsOperand.full)).length + 3)
    typeStops_nil
  rw [List.append_nil] at hread
  rw [readTs, hread]
  rfl

/-! ### Words -/

theorem takeWhile_append_stop {p : PyChar → Bool} {s rest : PyStr} (hs : s.all p = true)
    (hrest : ∀ c ∈ rest.head?, p c = false) : (s ++ rest).takeWhile p = s := by
  have hnone : rest.takeWhile p = [] := by
    cases rest with
    | nil => rfl
    | cons c rest => exact List.takeWhile_cons_of_neg (by rw [hrest c rfl]; exact Bool.false_ne_true)
  rw [List.takeWhile_append_of_pos (List.all_eq_true.mp hs), hnone, List.append_nil]

theorem Stops.not_idPart {rest : PyStr} (h : Stops rest) : ∀ c ∈ rest.head?, isIdPart lib c = false := by
  intro c hc
  obtain rfl | rfl | rfl | rfl | rfl := h c hc <;> rfl

theorem Stops.not_numberChar {rest : PyStr} (h : Stops rest) : ∀ c ∈ rest.head?, isNumberChar c = false := by
  intro c hc
  obtain rfl | rfl | rfl | rfl | rfl := h c hc <;> rfl

variable (lib) in
/-- An identifier. -/
def IsIdentifier (word : PyStr) : Prop :=
  word.head?.any (isIdStart lib) = true ∧ word.all (isIdPart lib) = true

/-- The first character of an identifier begins no other type. -/
theorem isIdStart_ne {c : PyChar} (h : isIdStart lib c = true) :
    c.val ≠ 34 ∧ c.val ≠ 40 ∧ c.val ≠ 91 ∧ c.val ≠ 124 ∧ c.val ≠ 93 ∧ (isDigit c || c == 45) = false ∧
      isJsonSpace c = false := by
  unfold isIdStart at h
  split_ifs at h with hascii
  · simp only [Bool.or_eq_true, Bool.and_eq_true, decide_eq_true_eq, beq_iff_eq] at h
    have h95 : ((95 : PyChar) : Nat) = 95 := rfl
    have h36 : ((36 : PyChar) : Nat) = 36 := rfl
    have h45 : ((45 : PyChar) : Nat) = 45 := rfl
    unfold isDigit isJsonSpace
    simp only [Bool.or_eq_false_iff, Bool.and_eq_false_iff, decide_eq_false_iff_not, beq_eq_false_iff_ne, ne_eq,
      Fin.ext_iff, h45]
    omega
  · have h45 : ((45 : PyChar) : Nat) = 45 := rfl
    unfold isDigit isJsonSpace
    simp only [Bool.or_eq_false_iff, Bool.and_eq_false_iff, decide_eq_false_iff_not, beq_eq_false_iff_ne, ne_eq,
      Fin.ext_iff, h45]
    omega

/-- A word that is a type. -/
theorem readable_word {word : PyStr} (hword : IsIdentifier lib word) (hrecord : word ≠ py "Record") {t : TsType}
    (ht : wordType word = some t) (hsingle : t.alternatives = [t]) : (⟨word, t, 0⟩ : TsOperand).Readable lib := by
  obtain ⟨hstart, hpart⟩ := hword
  obtain ⟨c, s, rfl⟩ : ∃ c s, word = c :: s := by
    cases word with
    | nil => cases hstart
    | cons c s => exact ⟨c, s, rfl⟩
  have hc : isIdStart lib c = true := hstart
  obtain ⟨hquote, hparen, hbracket, hbar, hclose, hdigit, hspace⟩ := isIdStart_ne hc
  have hhead : c ≠ 124 ∧ c ≠ 93 := ⟨fun h => hbar (congrArg Fin.val h), fun h => hclose (congrArg Fin.val h)⟩
  refine ⟨⟨c, s, rfl, hspace, hhead⟩, hsingle, fun fuel rest hfuel hstops => ?_⟩
  obtain ⟨fuel, rfl⟩ : ∃ k, fuel = k + 1 := by
    rw [List.length_cons] at hfuel
    exact ⟨fuel - 1, by omega⟩
  have htake : (c :: (s ++ rest)).takeWhile (isIdPart lib) = c :: s := takeWhile_append_stop hpart hstops.not_idPart
  have hdrop : (c :: (s ++ rest)).drop (c :: s).length = rest := List.drop_left
  show readPrimary lib (fuel + 1) (c :: (s ++ rest)) = _
  rw [readPrimary, if_neg hquote, if_neg hparen, if_neg hbracket, if_neg (by rw [hdigit]; exact Bool.false_ne_true),
    if_pos hc]
  dsimp only
  rw [htake, hdrop, if_neg hrecord, ht]
  rfl

/-- A keyword is read as its type. -/
theorem readable_keyword {word : PyStr} {t : TsType} (h : (word, t) ∈ tsKeywords) :
    (⟨word, t, 0⟩ : TsOperand).Readable lib := by
  have hwords : ∀ m ∈ tsKeywords, m.1.head?.any (isIdStart lib) = true ∧ m.1.all (isIdPart lib) = true := by
    intro m hm
    simp only [tsKeywords, List.mem_cons, List.not_mem_nil, or_false] at hm
    obtain rfl | rfl | rfl | rfl | rfl | rfl | rfl := hm <;> exact ⟨rfl, rfl⟩
  have hread : ∀ m ∈ tsKeywords, m.1 ≠ py "Record" ∧ wordType m.1 = some m.2 ∧ m.2.alternatives = [m.2] := by
    intro m hm
    simp only [tsKeywords, List.mem_cons, List.not_mem_nil, or_false] at hm
    obtain rfl | rfl | rfl | rfl | rfl | rfl | rfl := hm <;> exact ⟨by decide, rfl, rfl⟩
  obtain ⟨hrecord, hword, hsingle⟩ := hread _ h
  exact readable_word (hwords _ h) hrecord hword hsingle

/-- The name of a declared type. -/
def IsTypeName (lib : TsLibrary) (word : PyStr) : Prop :=
  IsIdentifier lib word ∧ word ∉ tsKeywords.map Prod.fst ∧ word ∉ reservedNames

theorem readable_name {word : PyStr} (h : IsTypeName lib word) : (⟨word, .name word, 0⟩ : TsOperand).Readable lib := by
  obtain ⟨hword, hkeyword, hreserved⟩ := h
  have hlookup : tsKeywords.lookup word = none := by
    rw [List.lookup_eq_none_iff]
    intro m hm
    rw [bne_iff_ne]
    rintro rfl
    exact hkeyword (List.mem_map.mpr ⟨m, hm, rfl⟩)
  refine readable_word hword ?_ ?_ rfl
  · rintro rfl
    exact hreserved (by decide)
  · rw [wordType, hlookup]
    exact if_neg hreserved

/-! ### Literals -/

/-- A numeral of JSON. -/
def IsNumeral (text : PyStr) : Prop :=
  scanNumeral text = some (text, []) ∧ text.all isNumberChar = true ∧
    text.head?.any (fun c => isDigit c || c == 45) = true

instance : DecidablePred IsNumeral := fun text =>
  inferInstanceAs (Decidable (scanNumeral text = some (text, []) ∧ text.all isNumberChar = true ∧
    text.head?.any (fun c => isDigit c || c == 45) = true))

theorem readable_numeral {text : PyStr} (h : IsNumeral text) :
    (⟨text, .numLit (numberOf lib.otherNumber text), 0⟩ : TsOperand).Readable lib := by
  obtain ⟨hscan, hchars, hhead⟩ := h
  obtain ⟨c, s, rfl⟩ : ∃ c s, text = c :: s := by
    cases text with
    | nil => cases hhead
    | cons c s => exact ⟨c, s, rfl⟩
  replace hhead : (isDigit c || c == 45) = true := hhead
  have hval : c.val = 45 ∨ (48 ≤ c.val ∧ c.val ≤ 57) := by
    rw [Bool.or_eq_true, beq_iff_eq, isDigit, Bool.and_eq_true, decide_eq_true_eq, decide_eq_true_eq] at hhead
    rcases hhead with h | rfl
    · exact Or.inr h
    · exact Or.inl rfl
  have hspace : isJsonSpace c = false := by
    unfold isJsonSpace
    simp only [Bool.or_eq_false_iff, beq_eq_false_iff_ne]
    omega
  have hne : ∀ d : PyChar, 58 ≤ d.val → c ≠ d := by
    rintro d hd rfl
    omega
  refine ⟨⟨c, s, rfl, hspace, hne 124 (by decide), hne 93 (by decide)⟩, rfl, fun fuel rest hfuel hstops => ?_⟩
  obtain ⟨fuel, rfl⟩ : ∃ k, fuel = k + 1 := by
    rw [List.length_cons] at hfuel
    exact ⟨fuel - 1, by omega⟩
  have htake : (c :: (s ++ rest)).takeWhile isNumberChar = c :: s :=
    takeWhile_append_stop hchars hstops.not_numberChar
  have hdrop : (c :: (s ++ rest)).drop (c :: s).length = rest := List.drop_left
  show readPrimary lib (fuel + 1) (c :: (s ++ rest)) = _
  rw [readPrimary, if_neg (by omega), if_neg (by omega), if_neg (by omega), if_pos hhead]
  dsimp only
  rw [htake, hdrop, if_pos hscan]

theorem isNumeral_intText (n : Int) : IsNumeral (intText n) := by
  have hscan := scanNumeral_intText n valueEnds_nil
  have hnat : ∀ k, (natText k).all isNumberChar = true := fun k => List.all_eq_true.mpr fun c hc => by
    unfold isNumberChar
    rw [natText_digits k c hc]
    rfl
  rw [List.append_nil] at hscan
  refine ⟨hscan, ?_, ?_⟩
  · cases n with
    | ofNat k => exact hnat k
    | negSucc k => exact hnat (k + 1)
  · cases n with
    | ofNat k =>
      obtain ⟨c, s, hs⟩ := List.exists_cons_of_ne_nil (natText_ne_nil k)
      have hdigit := natText_digits k c (by rw [hs]; exact List.mem_cons_self)
      show (natText k).head?.any _ = true
      rw [hs]
      show (isDigit c || c == 45) = true
      rw [hdigit]
      rfl
    | negSucc k => rfl

/-- An escape that `json.dumps` writes is read as its code unit. -/
theorem scanChars_escapeUnit (u : JsChar) (s : PyStr) : ∃ written, scanChars 0 (escapeUnit u ++ s) =
    (scanChars 0 s).map fun found => ((Fin.ofNat _ u.val, written) :: found.1, found.2) := by
  unfold escapeUnit
  split_ifs with h₁ h₂ h₃ h₄ h₅ h₆ h₇ h₈
  · obtain rfl : u = 34 := Fin.ext h₁
    exact ⟨false, rfl⟩
  · obtain rfl : u = 92 := Fin.ext h₂
    exact ⟨false, rfl⟩
  · obtain rfl : u = 10 := Fin.ext h₃
    exact ⟨false, rfl⟩
  · obtain rfl : u = 13 := Fin.ext h₄
    exact ⟨false, rfl⟩
  · obtain rfl : u = 9 := Fin.ext h₅
    exact ⟨false, rfl⟩
  · obtain rfl : u = 12 := Fin.ext h₆
    exact ⟨false, rfl⟩
  · obtain rfl : u = 8 := Fin.ext h₇
    exact ⟨false, rfl⟩
  · have hval : (Fin.ofNat 0x110000 u.val).val = u.val := Nat.mod_eq_of_lt (by omega)
    refine ⟨false, ?_⟩
    show scanChars 0 (Fin.ofNat _ u.val :: s) = _
    rw [scanChars, if_neg (by omega), if_neg (by omega), if_neg (by omega)]
  · have hescape := scanEscape_unicode u.isLt s
    have hskip : scanChars 5 (117 :: (hexFixed 4 u.val ++ s)) = scanChars 0 s :=
      scanChars_skip (117 :: hexFixed 4 u.val) s
    refine ⟨true, ?_⟩
    show scanChars 0 (92 :: 117 :: (hexFixed 4 u.val ++ s)) = _
    rw [scanChars, if_neg (by decide), if_neg (by decide), if_pos (show (92 : PyChar).val = 92 from rfl), hescape]
    dsimp only
    rw [hskip]

/-- A string literal of `json.dumps` is read back. -/
theorem scanJsString_escaped (t : JsStr) (s : PyStr) :
    scanJsString (t.flatMap escapeUnit ++ 34 :: s) = some (t, s) := by
  have hread : ∃ chars, scanChars 0 (t.flatMap escapeUnit ++ 34 :: s) = some (chars, s) ∧
      (chars.flatMap fun c => utf16 c.1) = t := by
    induction t with
    | nil => exact ⟨[], rfl, rfl⟩
    | cons u t ih =>
      obtain ⟨chars, hchars, hunits⟩ := ih
      obtain ⟨written, hu⟩ := scanChars_escapeUnit u (t.flatMap escapeUnit ++ 34 :: s)
      refine ⟨(Fin.ofNat _ u.val, written) :: chars, ?_, ?_⟩
      · rw [List.flatMap_cons, List.append_assoc, hu, hchars]
        rfl
      · rw [List.flatMap_cons, hunits, utf16_unit]
        rfl
  obtain ⟨chars, hchars, hunits⟩ := hread
  rw [scanJsString, hchars, Option.map_some, hunits]

theorem readable_stringText (s : PyStr) : (⟨stringText s, .strLit (jsText s), 0⟩ : TsOperand).Readable lib := by
  have htext := stringText_cons s
  refine ⟨⟨34, _, htext, rfl, by decide, by decide⟩, rfl, fun fuel rest hfuel _ => ?_⟩
  dsimp only at hfuel
  rw [htext, List.length_cons] at hfuel
  obtain ⟨fuel, rfl⟩ : ∃ k, fuel = k + 1 := ⟨fuel - 1, by omega⟩
  have hrest : (s.flatMap utf16).flatMap escapeUnit ++ [34] ++ rest =
      (s.flatMap utf16).flatMap escapeUnit ++ 34 :: rest := by
    rw [List.append_assoc]
    rfl
  have hread := scanJsString_escaped (s.flatMap utf16) rest
  show readPrimary lib (fuel + 1) (stringText s ++ rest) = _
  rw [htext]
  show readPrimary lib (fuel + 1) (34 :: ((s.flatMap utf16).flatMap escapeUnit ++ [34] ++ rest)) = _
  rw [hrest, readPrimary, if_pos (show (34 : PyChar).val = 34 from rfl), hread]
  rfl

/-! ### Types with parts -/

/-- A record of a union. -/
theorem readable_record {o : TsOperand} {ops : List TsOperand} (hops : ∀ p ∈ o :: ops, p.Readable lib) :
    (⟨py "Record<string, " ++ joinBar ((o :: ops).map TsOperand.full) ++ py ">",
      .record (.ofAlternatives ((o :: ops).map TsOperand.tsType)), 0⟩ : TsOperand).Readable lib := by
  refine ⟨⟨82, _, rfl, rfl, by decide, by decide⟩, rfl, fun fuel rest hfuel _ => ?_⟩
  have hlength : (py "Record<string, " ++ joinBar ((o :: ops).map TsOperand.full) ++ py ">").length =
      (joinBar ((o :: ops).map TsOperand.full)).length + 16 := by
    have hopen : (py "Record<string, ").length = 15 := rfl
    have hclose : (py ">").length = 1 := rfl
    rw [List.length_append, List.length_append, hopen, hclose]
    omega
  dsimp only at hfuel
  rw [hlength] at hfuel
  obtain ⟨fuel, rfl⟩ : ∃ k, fuel = k + 1 := ⟨fuel - 1, by omega⟩
  have hread := asType_operands hops (by omega : _ ≤ fuel) (typeStops_cons (Or.inr (Or.inl rfl)) rest)
  have htext : py "Record<string, " ++ joinBar ((o :: ops).map TsOperand.full) ++ py ">" ++ rest =
      py "Record<string, " ++ (joinBar ((o :: ops).map TsOperand.full) ++ 62 :: rest) := by
    rw [List.append_assoc, List.append_assoc]
    rfl
  rw [htext]
  generalize joinBar ((o :: ops).map TsOperand.full) ++ 62 :: rest = tail at hread ⊢
  have htake : (82 :: (py "ecord<string, " ++ tail)).takeWhile (isIdPart lib) = py "Record" := rfl
  have hdrop : (82 :: (py "ecord<string, " ++ tail)).drop (py "Record").length = py "<string, " ++ tail := rfl
  have hopen : expect 60 (py "<string, " ++ tail) = some (py "string, " ++ tail) := rfl
  have hword : expectWord lib (py "string") (py "string, " ++ tail) = some (py ", " ++ tail) := rfl
  have hcomma : expect 44 (py ", " ++ tail) = some (32 :: tail) := rfl
  have hstart : isIdStart lib 82 = true := rfl
  show readPrimary lib (fuel + 1) (82 :: (py "ecord<string, " ++ tail)) = _
  rw [readPrimary, if_neg (by decide), if_neg (by decide), if_neg (by decide), if_neg (by decide), if_pos hstart]
  dsimp only
  rw [htake, if_pos rfl, hdrop, hopen]
  simp only [Option.bind_eq_bind, Option.bind_some, hword, hcomma, readUnion_dropBar_space, hread]
  rfl

/-- `", ".join(texts)`. -/
def joinCommaSpace : List PyStr → PyStr
  | [] => []
  | [t] => t
  | t :: ts => t ++ py ", " ++ joinCommaSpace ts

theorem asType_operand {o : TsOperand} (ho : o.Readable lib) {fuel : Nat} (hfuel : 3 * o.full.length + 1 ≤ fuel)
    {rest : PyStr} (hrest : TypeStops rest) :
    asType (readUnion lib fuel (dropBar (o.full ++ rest))) = some (o.tsType, rest) :=
  asType_operands (List.forall_mem_singleton.mpr ho) hfuel hrest

/-- The items of a tuple, and the bracket behind them. -/
theorem readTuple_operands {o : TsOperand} {ops : List TsOperand} (hops : ∀ p ∈ o :: ops, p.Readable lib)
    {fuel : Nat} (hfuel : 3 * (joinCommaSpace ((o :: ops).map TsOperand.full)).length + 2 ≤ fuel) (rest : PyStr) :
    readTuple lib fuel (joinCommaSpace ((o :: ops).map TsOperand.full) ++ 93 :: rest) =
      some ((o :: ops).map TsOperand.tsType, rest) := by
  obtain ⟨ho, hops'⟩ := List.forall_mem_cons.mp hops
  induction ops generalizing o fuel with
  | nil =>
    obtain ⟨fuel, rfl⟩ : ∃ k, fuel = k + 1 := ⟨fuel - 1, by omega⟩
    have hfuel' : 3 * o.full.length + 1 ≤ fuel := Nat.le_of_succ_le_succ hfuel
    have hread := asType_operand ho hfuel' (typeStops_cons (Or.inr (Or.inr rfl)) rest)
    rw [readTuple]
    show (asType (readUnion lib fuel (dropBar (o.full ++ 93 :: rest)))).bind _ = _
    rw [hread]
    rfl
  | cons p ops ih =>
    obtain ⟨fuel, rfl⟩ : ∃ k, fuel = k + 1 := ⟨fuel - 1, by omega⟩
    obtain ⟨hp, hops''⟩ := List.forall_mem_cons.mp hops'
    have hjoin : joinCommaSpace ((o :: p :: ops).map TsOperand.full) ++ 93 :: rest =
        o.full ++ 44 :: 32 :: (joinCommaSpace ((p :: ops).map TsOperand.full) ++ 93 :: rest) := by
      show o.full ++ py ", " ++ joinCommaSpace ((p :: ops).map TsOperand.full) ++ 93 :: rest = _
      rw [List.append_assoc, List.append_assoc]
      rfl
    have hlength : (joinCommaSpace ((o :: p :: ops).map TsOperand.full)).length =
        o.full.length + 2 + (joinCommaSpace ((p :: ops).map TsOperand.full)).length := by
      show (o.full ++ py ", " ++ joinCommaSpace ((p :: ops).map TsOperand.full)).length = _
      rw [List.length_append, List.length_append]
      rfl
    rw [hlength] at hfuel
    have hread := asType_operand ho (by omega : _ ≤ fuel) (typeStops_cons (Or.inl rfl)
      (32 :: (joinCommaSpace ((p :: ops).map TsOperand.full) ++ 93 :: rest)))
    have hitems := ih hops' (by omega : _ ≤ fuel) hp hops''
    rw [hjoin, readTuple, hread]
    show (readTuple lib fuel (32 :: (joinCommaSpace ((p :: ops).map TsOperand.full) ++ 93 :: rest))).bind _ = _
    rw [readTuple_space, hitems]
    rfl

/-- A tuple of operands. -/
theorem readable_tuple {ops : List TsOperand} (hops : ∀ p ∈ ops, p.Readable lib) :
    (⟨py "[" ++ joinCommaSpace (ops.map TsOperand.full) ++ py "]", .tuple (ops.map TsOperand.tsType), 0⟩ :
      TsOperand).Readable lib := by
  refine ⟨⟨91, _, rfl, rfl, by decide, by decide⟩, rfl, fun fuel rest hfuel _ => ?_⟩
  have hlength : (py "[" ++ joinCommaSpace (ops.map TsOperand.full) ++ py "]").length =
      (joinCommaSpace (ops.map TsOperand.full)).length + 2 := by
    have hopen : (py "[").length = 1 := rfl
    have hclose : (py "]").length = 1 := rfl
    rw [List.length_append, List.length_append, hopen, hclose]
    omega
  dsimp only at hfuel
  rw [hlength] at hfuel
  obtain ⟨fuel, rfl⟩ : ∃ k, fuel = k + 1 := ⟨fuel - 1, by omega⟩
  have htext : py "[" ++ joinCommaSpace (ops.map TsOperand.full) ++ py "]" ++ rest =
      91 :: (joinCommaSpace (ops.map TsOperand.full) ++ 93 :: rest) := by
    rw [List.append_assoc, List.append_assoc]
    rfl
  rw [htext]
  cases ops with
  | nil => rfl
  | cons o ops =>
    have hitems := readTuple_operands hops (by omega : _ ≤ fuel) rest
    have hclose : expect 93 (joinCommaSpace ((o :: ops).map TsOperand.full) ++ 93 :: rest) = none := by
      obtain ⟨c, s, hs, hspace, -, hbracket⟩ := (hops o List.mem_cons_self).full_head
      obtain ⟨t, ht⟩ : ∃ t, joinCommaSpace ((o :: ops).map TsOperand.full) = c :: t := by
        cases ops with
        | nil => exact ⟨s, hs⟩
        | cons p ops =>
          refine ⟨s ++ py ", " ++ joinCommaSpace ((p :: ops).map TsOperand.full), ?_⟩
          show o.full ++ py ", " ++ joinCommaSpace ((p :: ops).map TsOperand.full) = _
          rw [hs]
          rfl
      rw [ht]
      exact expect_other hspace hbracket
    rw [readPrimary, if_neg (by decide), if_neg (by decide), if_pos (show (91 : PyChar).val = 91 from rfl), hclose,
      hitems]
    rfl

end

/-! ### Denotations -/

section

variable {otherNumber : PyStr → JsNum} {env : PyStr → JsValue → Prop}

theorem denoteSome_iff {ts : List TsType} {v : JsValue} :
    denoteSome otherNumber env ts v ↔ ∃ t ∈ ts, t.Denotes otherNumber env v := by
  induction ts with
  | nil => simp [denoteSome]
  | cons t ts ih => rw [denoteSome, ih, List.exists_mem_cons_iff]

/-- A type denotes what one of its alternatives denotes. -/
theorem denotes_alternatives {t : TsType} {v : JsValue} :
    (∃ a ∈ t.alternatives, a.Denotes otherNumber env v) ↔ t.Denotes otherNumber env v := by
  cases t with
  | union ts => exact denoteSome_iff.symm
  | _ => simp only [TsType.alternatives, List.mem_singleton, exists_eq_left]

theorem denotes_ofAlternatives {ts : List TsType} {v : JsValue} :
    (TsType.ofAlternatives ts).Denotes otherNumber env v ↔ ∃ t ∈ ts, t.Denotes otherNumber env v := by
  unfold TsType.ofAlternatives
  split
  next t => simp only [List.mem_singleton, exists_eq_left]
  next => exact denoteSome_iff

end

end NetopsCopilot
