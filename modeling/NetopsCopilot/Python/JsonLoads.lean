import NetopsCopilot.Python.Codecs

/-!
# Reading JSON (`json.loads`)

The scanner of Python's `json` on a text: whitespace, the three constants and the three numbers that are no
JSON, strings in strict mode, and objects whose later members replace earlier ones of the same key. A float is
known by its text only, so `floatOf` gives the one that `json.dumps` would write. The interpreter's limit on
nesting is left out.
-/

namespace NetopsCopilot

/-! ### Strings -/

/-- The value of a hexadecimal digit. -/
def hexDigit? (c : PyChar) : Option Nat :=
  if 48 ≤ c.val ∧ c.val ≤ 57 then some (c.val - 48)
  else if 65 ≤ c.val ∧ c.val ≤ 70 then some (c.val - 55)
  else if 97 ≤ c.val ∧ c.val ≤ 102 then some (c.val - 87)
  else none

/-- What a short escape stands for. -/
def simpleEscape? (c : PyChar) : Option PyChar :=
  if c.val = 34 ∨ c.val = 92 ∨ c.val = 47 then some c
  else if c.val = 98 then some 8
  else if c.val = 102 then some 12
  else if c.val = 110 then some 10
  else if c.val = 114 then some 13
  else if c.val = 116 then some 9
  else none

/-- An escape behind its backslash: its character, whether it was written as a code, and its length. -/
def scanEscape : PyStr → Option ((PyChar × Bool) × Nat)
  | [] => none
  | c :: s =>
    if c.val = 117 then
      match s with
      | a :: b :: d :: e :: _ => do
        let code := ((← hexDigit? a) * 16 + (← hexDigit? b)) * 256 + (← hexDigit? d) * 16 + (← hexDigit? e)
        return ((Fin.ofNat _ code, true), 5)
      | _ => none
    else (simpleEscape? c).map fun char => ((char, false), 1)

/-- Characters up to the closing quote; `skip` of them belong to an escape that has been read. -/
def scanChars : Nat → PyStr → Option (List (PyChar × Bool) × PyStr)
  | _, [] => none
  | skip + 1, _ :: s => scanChars skip s
  | 0, c :: s =>
    if c.val = 34 then some ([], s)
    else if c.val < 32 then none
    else if c.val = 92 then
      match scanEscape s with
      | none => none
      | some (char, length) => (scanChars length s).map fun found => (char :: found.1, found.2)
    else (scanChars 0 s).map fun found => ((c, false) :: found.1, found.2)

/-- Two escapes next to each other make one character, if they are a surrogate pair. -/
def joinSurrogates : List (PyChar × Bool) → PyStr
  | (c, true) :: (d, true) :: chars =>
    if 0xD800 ≤ c.val ∧ c.val < 0xDC00 ∧ 0xDC00 ≤ d.val ∧ d.val < 0xE000 then
      Fin.ofNat _ (0x10000 + (c.val - 0xD800) * 1024 + (d.val - 0xDC00)) :: joinSurrogates chars
    else c :: joinSurrogates ((d, true) :: chars)
  | (c, _) :: chars => c :: joinSurrogates chars
  | [] => []

/-- A string behind its opening quote. -/
def scanString (s : PyStr) : Option (PyStr × PyStr) :=
  (scanChars 0 s).map fun found => (joinSurrogates found.1, found.2)

/-! ### Numbers and constants -/

def isJsonSpace (c : PyChar) : Bool := c.val == 32 || c.val == 9 || c.val == 10 || c.val == 13

def skipSpace (s : PyStr) : PyStr := s.dropWhile isJsonSpace

section

variable (floatOf : PyStr → PyFloat)

/-- `(\.[0-9]+)?([eE][-+]?[0-9]+)?` behind an integer. -/
def scanFraction (s : PyStr) : PyStr × PyStr :=
  let fraction := match s with
    | 46 :: t => if (t.takeWhile isDigit).isEmpty then [] else 46 :: t.takeWhile isDigit
    | _ => []
  let s := s.drop fraction.length
  let mark := s.take 1
  let sign := (s.drop 1).take (if (s.drop 1).head? = some 43 ∨ (s.drop 1).head? = some 45 then 1 else 0)
  let digits := (s.drop (1 + sign.length)).takeWhile isDigit
  let exponent := if (mark = py "e" ∨ mark = py "E") ∧ digits ≠ [] then mark ++ sign ++ digits else []
  (fraction ++ exponent, s.drop exponent.length)

/-- A number; more than 4300 digits raise a `ValueError`. -/
def scanNumber (s : PyStr) : Option (Json × PyStr) :=
  let sign := s.take (if s.head? = some 45 then 1 else 0)
  let digits := (s.drop sign.length).takeWhile isDigit
  let whole := if digits.head? = some 48 then py "0" else digits
  if whole = [] then none
  else
    let (fraction, rest) := scanFraction (s.drop (sign.length + whole.length))
    if fraction ≠ [] then some (.float (floatOf (sign ++ whole ++ fraction)), rest)
    else if 4300 < whole.length then none
    else
      let value : Int := whole.foldl (fun n c => 10 * n + (c.val - 48)) 0
      some (.int (if sign = [] then value else -value), rest)

/-- The constants. -/
def jsonConstants : List (PyStr × Json) :=
  [(py "null", .null), (py "true", .bool true), (py "false", .bool false), (py "NaN", .float (floatOf (py "NaN"))),
    (py "Infinity", .float (floatOf (py "Infinity"))), (py "-Infinity", .float (floatOf (py "-Infinity")))]

def scanConstant (s : PyStr) : Option (Json × PyStr) :=
  ((jsonConstants floatOf).find? fun c => c.1.isPrefixOf s).map fun c => (c.2, s.drop c.1.length)

/-! ### Values -/

/-- `dict.__setitem__`. -/
def setMember (members : List (PyStr × Json)) (key : PyStr) (value : Json) : List (PyStr × Json) :=
  if members.any fun m => m.1 == key then members.map fun m => if m.1 == key then (key, value) else m
  else members ++ [(key, value)]

mutual
/-- A value, and what follows it. -/
def scanValue : Nat → PyStr → Option (Json × PyStr)
  | 0, _ => none
  | fuel + 1, s =>
    match s with
    | [] => none
    | c :: t =>
      if c.val = 34 then (scanString t).map fun (text, rest) => (.str text, rest)
      else if c.val = 123 then
        match skipSpace t with
        | 125 :: rest => some (.obj [], rest)
        | t => scanMembers fuel [] t
      else if c.val = 91 then
        match skipSpace t with
        | 93 :: rest => some (.arr [], rest)
        | t => scanItems fuel [] t
      else (scanConstant floatOf (c :: t)).or (scanNumber floatOf (c :: t))
/-- Members, up to the closing brace. -/
def scanMembers : Nat → List (PyStr × Json) → PyStr → Option (Json × PyStr)
  | 0, _, _ => none
  | fuel + 1, members, s =>
    match s with
    | 34 :: t => do
      let (key, t) ← scanString t
      match skipSpace t with
      | 58 :: t => do
        let (value, t) ← scanValue fuel (skipSpace t)
        match skipSpace t with
        | 125 :: rest => some (.obj (setMember members key value), rest)
        | 44 :: t => scanMembers fuel (setMember members key value) (skipSpace t)
        | _ => none
      | _ => none
    | _ => none
/-- Items, up to the closing bracket. -/
def scanItems : Nat → List Json → PyStr → Option (Json × PyStr)
  | 0, _, _ => none
  | fuel + 1, items, s => do
    let (value, t) ← scanValue fuel s
    match skipSpace t with
    | 93 :: rest => some (.arr (items ++ [value]), rest)
    | 44 :: t => scanItems fuel (items ++ [value]) (skipSpace t)
    | _ => none
end

/-- `json.loads(text)`, where `none` is a `ValueError`. -/
def loadsText (s : PyStr) : Option Json :=
  match scanValue floatOf (s.length + 1) (skipSpace s) with
  | some (value, rest) => if skipSpace rest = [] then some value else none
  | none => none

end

/-! ### Plain strings -/

/-- A character that stands for itself in a string. -/
def isPlainChar (c : PyChar) : Bool := 32 ≤ c.val && c.val != 34 && c.val != 92

theorem scanChars_plain {t : PyStr} (ht : t.all isPlainChar = true) (s : PyStr) :
    scanChars 0 (t ++ s) = (scanChars 0 s).map fun found => (t.map (·, false) ++ found.1, found.2) := by
  induction t with
  | nil => exact Option.map_id'.symm
  | cons c t ih =>
    rw [List.all_cons, Bool.and_eq_true] at ht
    obtain ⟨hc, ht⟩ := ht
    rw [isPlainChar, Bool.and_eq_true, Bool.and_eq_true, decide_eq_true_eq, bne_iff_ne, bne_iff_ne] at hc
    obtain ⟨⟨hlow, hquote⟩, hslash⟩ := hc
    rw [List.cons_append, scanChars, if_neg hquote, if_neg (by omega), if_neg hslash, ih ht, Option.map_map]
    rfl

theorem joinSurrogates_plain (t : PyStr) : joinSurrogates (t.map (·, false)) = t := by
  induction t with
  | nil => rfl
  | cons c t ih => exact congrArg (c :: ·) ih

/-- A plain string is read up to its closing quote. -/
theorem scanString_plain {t : PyStr} (ht : t.all isPlainChar = true) (s : PyStr) :
    scanString (t ++ 34 :: s) = some (t, s) := by
  have hclose : scanChars 0 (34 :: s) = some ([], s) := rfl
  unfold scanString
  rw [scanChars_plain ht, hclose, Option.map_some, Option.map_some, List.append_nil, joinSurrogates_plain]

/-- A plain string without its closing quote is not read. -/
theorem scanString_open {t : PyStr} (ht : t.all isPlainChar = true) : scanString t = none := by
  have h := scanChars_plain ht []
  rw [List.append_nil] at h
  unfold scanString
  rw [h]
  rfl

/-! ### Strings without escapes -/

/-- Text that stands for itself in a JSON string and in its bytes. -/
def isBareChar (c : PyChar) : Bool := c.isPrintable && isPlainChar c

def BareText (s : PyStr) : Prop := s.all isBareChar = true

instance : DecidablePred BareText := fun s => inferInstanceAs (Decidable (s.all isBareChar = true))

section

variable {s s' : PyStr}

theorem BareText.append (hs : BareText s) (hs' : BareText s') : BareText (s ++ s') := by
  unfold BareText at hs hs' ⊢
  rw [List.all_append, hs, hs']
  rfl

theorem BareText.subset (hs : BareText s) (h : s' ⊆ s) : BareText s' :=
  List.all_eq_true.mpr fun c hc => List.all_eq_true.mp hs c (h hc)

theorem BareText.plain (hs : BareText s) : s.all isPlainChar = true := by
  refine List.all_eq_true.mpr fun c hc => ?_
  have h := List.all_eq_true.mp hs c hc
  rw [isBareChar, Bool.and_eq_true] at h
  exact h.2

/-- A string literal of such text has no escapes. -/
theorem BareText.stringText (hs : BareText s) : stringText s = 34 :: (s ++ [34]) := by
  have hchars : s.flatMap escapeChar = s := by
    induction s with
    | nil => rfl
    | cons c s ih =>
      unfold BareText at hs ih
      rw [List.all_cons, Bool.and_eq_true, isBareChar, Bool.and_eq_true] at hs
      obtain ⟨⟨hprintable, hplain⟩, hs⟩ := hs
      rw [PyChar.isPrintable_iff] at hprintable
      rw [isPlainChar, Bool.and_eq_true, Bool.and_eq_true, bne_iff_ne, bne_iff_ne] at hplain
      have hc : escapeChar c = [c] := by
        unfold escapeChar
        rw [if_neg hplain.1.2, if_neg hplain.2, if_neg (by omega), if_neg (by omega), if_neg (by omega),
          if_neg (by omega), if_neg (by omega), if_pos (by omega)]
      rw [List.flatMap_cons, hc, ih hs]
      rfl
  unfold NetopsCopilot.stringText
  rw [hchars]
  rfl

end

theorem bareText_uuid (u : Uuid) : BareText (Uuid.str u) := by
  have hall : BareText (py "-0123456789abcdef") := by decide
  exact hall.subset fun c hc => uuid_chars u c hc

section

variable {floatOf : PyStr → PyFloat} {t : PyStr}

theorem scanValue_string (ht : BareText t) (fuel : Nat) (rest : PyStr) :
    scanValue floatOf (fuel + 1) (34 :: (t ++ 34 :: rest)) = some (.str t, rest) := by
  show (scanString (t ++ 34 :: rest)).map (fun p => (Json.str p.1, p.2)) = _
  rw [scanString_plain ht.plain]
  rfl

theorem scanValue_open (ht : BareText t) (fuel : Nat) : scanValue floatOf (fuel + 1) (34 :: t) = none := by
  show (scanString t).map (fun p => (Json.str p.1, p.2)) = _
  rw [scanString_open ht.plain]
  rfl

/-- A member whose value is a string. -/
theorem scanMembers_string {key : PyStr} (hkey : BareText key) (ht : BareText t) (fuel : Nat)
    (members : List (PyStr × Json)) (rest : PyStr) :
    scanMembers floatOf (fuel + 2) members (34 :: (key ++ 34 :: 58 :: 34 :: (t ++ 34 :: rest))) =
      match skipSpace rest with
      | 125 :: rest => some (.obj (setMember members key (.str t)), rest)
      | 44 :: rest => scanMembers floatOf (fuel + 1) (setMember members key (.str t)) (skipSpace rest)
      | _ => none := by
  have hvalue := @scanValue_string floatOf t ht fuel rest
  have hspace : skipSpace (34 :: (t ++ 34 :: rest)) = 34 :: (t ++ 34 :: rest) := rfl
  rw [scanMembers, scanString_plain hkey.plain]
  show (scanValue floatOf (fuel + 1) (skipSpace (34 :: (t ++ 34 :: rest))) >>= _) = _
  rw [hspace, hvalue]
  rfl

/-- A member whose string has no end. -/
theorem scanMembers_open {key : PyStr} (hkey : BareText key) (ht : BareText t) (fuel : Nat)
    (members : List (PyStr × Json)) :
    scanMembers floatOf (fuel + 2) members (34 :: (key ++ 34 :: 58 :: 34 :: t)) = none := by
  have hspace : skipSpace (34 :: t) = 34 :: t := rfl
  rw [scanMembers, scanString_plain hkey.plain]
  show (scanValue floatOf (fuel + 1) (skipSpace (34 :: t)) >>= _) = _
  rw [hspace, scanValue_open ht]
  rfl

/-- An object whose keys and values need no escapes. -/
def bareObject (members : List (PyStr × PyStr)) : List (PyStr × Json) := members.map fun m => (m.1, .str m.2)

/-- The text of such a member. -/
def bareMember (m : PyStr × PyStr) : PyStr := 34 :: (m.1 ++ 34 :: 58 :: 34 :: (m.2 ++ [34]))

theorem setMember_new {members : List (PyStr × Json)} {key : PyStr} (h : key ∉ members.map Prod.fst) (value : Json) :
    setMember members key value = members ++ [(key, value)] := by
  have hany : members.any (fun m => m.1 == key) = false := by
    rw [List.any_eq_false]
    intro m hm
    rw [beq_iff_eq]
    rintro rfl
    exact h (List.mem_map_of_mem hm)
  unfold setMember
  rw [hany, if_neg Bool.false_ne_true]

/-- Members without escapes are read to the closing brace. -/
theorem scanMembers_bare {m : PyStr × PyStr} {members : List (PyStr × PyStr)}
    (hbare : ∀ m' ∈ m :: members, BareText m'.1 ∧ BareText m'.2) {found : List (PyStr × Json)}
    (hkeys : (found.map Prod.fst ++ (m :: members).map Prod.fst).Nodup) {fuel : Nat} (hfuel : members.length + 2 ≤ fuel)
    (rest : PyStr) :
    scanMembers floatOf fuel found (joinComma ((m :: members).map bareMember) ++ 125 :: rest) =
      some (.obj (found ++ bareObject (m :: members)), rest) := by
  have hcomma : py "," = [44] := rfl
  induction members generalizing m found fuel with
  | nil =>
    obtain ⟨fuel, rfl⟩ : ∃ n, fuel = n + 2 := ⟨fuel - 2, by omega⟩
    obtain ⟨hkey, hvalue⟩ := hbare m List.mem_cons_self
    have htext : joinComma ([m].map bareMember) ++ 125 :: rest =
        34 :: (m.1 ++ 34 :: 58 :: 34 :: (m.2 ++ 34 :: 125 :: rest)) := by
      simp [joinComma, bareMember]
    have hnew : m.1 ∉ found.map Prod.fst := fun h => (List.nodup_append.mp hkeys).2.2 _ h m.1 (by simp) rfl
    rw [htext, scanMembers_string hkey hvalue]
    show some (Json.obj (setMember found m.1 (.str m.2)), rest) = _
    rw [setMember_new hnew]
    rfl
  | cons m' members ih =>
    rw [List.length_cons] at hfuel
    obtain ⟨fuel, rfl⟩ : ∃ n, fuel = n + 2 := ⟨fuel - 2, by omega⟩
    obtain ⟨⟨hkey, hvalue⟩, hmembers⟩ := List.forall_mem_cons.mp hbare
    have htext : joinComma ((m :: m' :: members).map bareMember) ++ 125 :: rest =
        34 :: (m.1 ++ 34 :: 58 :: 34 :: (m.2 ++ 34 :: 44 ::
          (joinComma ((m' :: members).map bareMember) ++ 125 :: rest))) := by
      simp [joinComma, bareMember, hcomma]
    have hnew : m.1 ∉ found.map Prod.fst := fun h => (List.nodup_append.mp hkeys).2.2 _ h m.1 (by simp) rfl
    have hspace : skipSpace (joinComma ((m' :: members).map bareMember) ++ 125 :: rest) =
        joinComma ((m' :: members).map bareMember) ++ 125 :: rest := by
      cases members <;> rfl
    have hkeys' : ((found ++ [(m.1, Json.str m.2)]).map Prod.fst ++ (m' :: members).map Prod.fst).Nodup := by
      simpa using hkeys
    rw [htext, scanMembers_string hkey hvalue]
    show scanMembers floatOf (fuel + 1) (setMember found m.1 (.str m.2)) (skipSpace _) = _
    rw [setMember_new hnew, hspace, ih hmembers hkeys' (by omega), List.append_assoc]
    rfl

theorem memberText_bare {m : PyStr × PyStr} (hkey : BareText m.1) (hvalue : BareText m.2) :
    memberText (m.1, (Json.str m.2).dumps) = bareMember m := by
  unfold memberText bareMember
  rw [Json.dumps, hkey.stringText, hvalue.stringText]
  simp only [List.cons_append, List.append_assoc]
  rfl

theorem dumpsMembers_bareObject (members : List (PyStr × PyStr)) :
    dumpsMembers (bareObject members) = members.map fun m => (m.1, (Json.str m.2).dumps) := by
  induction members with
  | nil => rfl
  | cons m members ih =>
    show (m.1, (Json.str m.2).dumps) :: dumpsMembers (bareObject members) = _
    rw [ih, List.map_cons]

/-- The text of an object without escapes whose keys are in order. -/
theorem dumps_bareObject {members : List (PyStr × PyStr)} (hbare : ∀ m ∈ members, BareText m.1 ∧ BareText m.2)
    (hsorted : members.Pairwise fun a b => a.1 ≤ b.1) :
    (Json.obj (bareObject members)).dumps = 123 :: (joinComma (members.map bareMember) ++ [125]) := by
  have htexts : (members.map fun m => memberText (m.1, (Json.str m.2).dumps)) = members.map bareMember :=
    List.map_congr_left fun m hm => memberText_bare (hbare m hm).1 (hbare m hm).2
  have hsort : sortMembers (members.map fun m => (m.1, (Json.str m.2).dumps)) =
      members.map fun m => (m.1, (Json.str m.2).dumps) :=
    List.Pairwise.insertionSort_eq (List.pairwise_map.mpr hsorted)
  rw [Json.dumps, dumpsMembers_bareObject, hsort, List.map_map]
  show py "\x7b" ++ joinComma (members.map fun m => memberText (m.1, (Json.str m.2).dumps)) ++ py "\x7d" = _
  rw [htexts]
  rfl

theorem length_le_joinComma (m : PyStr × PyStr) (members : List (PyStr × PyStr)) :
    members.length + 1 ≤ (joinComma ((m :: members).map bareMember)).length := by
  induction members generalizing m with
  | nil => simp [joinComma, bareMember]
  | cons m' members ih =>
    have hrest := ih m'
    rw [List.map_cons, List.map_cons, joinComma, List.length_append, ← List.map_cons, List.length_cons]
    · have hfirst : 1 ≤ (bareMember m ++ py ",").length := by simp [bareMember]
      omega
    · exact fun h => by cases h

/-- **An object of strings without escapes is read back from its text.** -/
theorem loadsText_bareObject {m : PyStr × PyStr} {members : List (PyStr × PyStr)}
    (hbare : ∀ m' ∈ m :: members, BareText m'.1 ∧ BareText m'.2) (hkeys : ((m :: members).map Prod.fst).Nodup) :
    loadsText floatOf (123 :: (joinComma ((m :: members).map bareMember) ++ [125])) =
      some (.obj (bareObject (m :: members))) := by
  have hlength := length_le_joinComma m members
  have hfuel : members.length + 2 ≤ (123 :: (joinComma ((m :: members).map bareMember) ++ [125])).length := by
    rw [List.length_cons, List.length_append]
    omega
  have hmembers := @scanMembers_bare floatOf m members hbare [] (by simpa using hkeys) _ hfuel []
  obtain ⟨body, hbody⟩ : ∃ body, joinComma ((m :: members).map bareMember) = 34 :: body := by
    cases members <;> exact ⟨_, rfl⟩
  rw [hbody] at hmembers ⊢
  unfold loadsText
  show (match scanMembers floatOf _ [] (34 :: body ++ [125]) with | some (value, rest) => _ | none => none) = _
  rw [hmembers]
  rfl

end

end NetopsCopilot
