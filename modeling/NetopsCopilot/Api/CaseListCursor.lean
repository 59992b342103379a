import NetopsCopilot.Lib.Base64
import NetopsCopilot.Python.JsonLoads

/-!
# Cursors of the case list (`_encode_case_list_cursor`, `_parse_case_list_cursor` in `api/cases.py`)

A cursor is the JSON of a time and a case id in base64. The API reads back every cursor it writes
(`parse_encode`), but not the first hundred characters of one: they end inside the time (`parse_cut`).
-/

namespace NetopsCopilot

/-! ### Times -/

/-- The `len` lowest decimal digits of `n`. -/
def decFixed : Nat → Nat → PyStr
  | 0, _ => []
  | len + 1, n => decFixed len (n / 10) ++ [digitChar (n % 10)]

def daysInMonth (year month : Nat) : Nat :=
  if month = 2 then if year % 4 = 0 ∧ (year % 100 ≠ 0 ∨ year % 400 = 0) then 29 else 28
  else if month = 4 ∨ month = 6 ∨ month = 9 ∨ month = 11 then 30
  else 31

/-- A `datetime` in UTC. -/
structure UtcDateTime where
  year : Nat
  month : Nat
  day : Nat
  hour : Nat
  minute : Nat
  second : Nat
  microsecond : Nat
  date : (1 ≤ year ∧ year ≤ 9999) ∧ (1 ≤ month ∧ month ≤ 12) ∧ 1 ≤ day ∧ day ≤ daysInMonth year month
  time : hour < 24 ∧ minute < 60 ∧ second < 60 ∧ microsecond < 1000000
deriving DecidableEq

/-- The date, and the letter before the time. -/
def UtcDateTime.dateText (t : UtcDateTime) : PyStr :=
  decFixed 4 t.year ++ (45 :: decFixed 2 t.month) ++ (45 :: decFixed 2 t.day) ++ [84]

/-- The time; microseconds are written if there are any. -/
def UtcDateTime.timeText (t : UtcDateTime) : PyStr :=
  decFixed 2 t.hour ++ (58 :: decFixed 2 t.minute) ++ (58 :: decFixed 2 t.second) ++
    (if t.microsecond = 0 then [] else 46 :: decFixed 6 t.microsecond) ++ py "+00:00"

/-- `datetime.isoformat()`. -/
def UtcDateTime.isoformat (t : UtcDateTime) : PyStr := t.dateText ++ t.timeText

/-- A `datetime`: its offset from UTC in microseconds, if it has one, and what `astimezone(UTC)` makes of it. -/
structure ParsedTime where
  offset : Option Int
  utc : UtcDateTime

/-! ### Encoding -/

/-- `CaseListCursor`, with `updated_at` in UTC. -/
structure CaseListCursor where
  updatedAt : UtcDateTime
  caseId : Uuid
deriving DecidableEq

/-- The URL-safe alphabet. -/
def base64Alphabet : PyStr := py "ABCDEFGHIJKLMNOPQRSTUVWXYZ" ++ py "abcdefghijklmnopqrstuvwxyz" ++ py "0123456789-_"

def base64Char (d : Base64.Sextet) : PyChar := base64Alphabet.getD d.val 0

/-- `urlsafe_b64encode(payload)`, as text. -/
def urlsafeB64encode (payload : List Utf8.Byte) : PyStr :=
  let digits := (Base64.encode payload).map base64Char
  digits ++ List.replicate (Base64.padding digits.length) 61

/-- `json.dumps(…, sort_keys=True)` of the two members. -/
def cursorPayload (c : CaseListCursor) : PyStr :=
  (Json.obj [(py "case_id", .str (Uuid.str c.caseId)), (py "updated_at", .str c.updatedAt.isoformat)]).dumps

/-- `_encode_case_list_cursor`; the payload is ASCII. -/
def encodeCaseListCursor (c : CaseListCursor) : PyStr :=
  (urlsafeB64encode (Utf8.encode (cursorPayload c))).rdropWhile (· == 61)

/-! ### Decoding -/

/-- A character in `urlsafe_b64decode`, which also reads the standard alphabet. -/
def base64Symbol (c : PyChar) : Base64.Symbol :=
  if c.val = 61 then .pad
  else if c.val = 43 then .digit 62
  else if c.val = 47 then .digit 63
  else
    let position := base64Alphabet.idxOf c
    if position < 64 then .digit (Base64.sextet position) else .other

/-- What the parser takes from Python's library: `bytes.decode` in `json.loads` for bytes that are not ASCII, the
float of a text, `datetime.fromisoformat` and `UUID`. Where these raise a `ValueError` they are `none`. -/
structure CursorLibrary where
  decodeOther : List Utf8.Byte → Option PyStr
  floatOf : PyStr → PyFloat
  fromIsoFormat : PyStr → Option ParsedTime
  uuid : PyStr → Option Uuid

/-- What `_parse_case_list_cursor` raises: the 422 error, or an exception it does not catch. -/
inductive CursorError where
  | invalidCaseCursor
  | attributeError
deriving DecidableEq

section

variable (lib : CursorLibrary)

/-- `json.loads(payload)`; ASCII without NUL is UTF-8 for it. -/
def loadsBytes (payload : List Utf8.Byte) : Option Json :=
  if payload.all fun b => 1 ≤ b.val && b.val < 128 then
    loadsText lib.floatOf (payload.map fun b => Fin.ofNat _ b.val)
  else (lib.decodeOther payload).bind (loadsText lib.floatOf)

/-- The two members of the payload. -/
def cursorOfMembers (caseId updatedAt : Json) : Except CursorError CaseListCursor :=
  match updatedAt with
  | .str text =>
    match lib.fromIsoFormat text with
    | none => .error .invalidCaseCursor
    | some time =>
      if time.offset ≠ some 0 then .error .invalidCaseCursor
      else match caseId with
        | .str text =>
          match lib.uuid text with
          | some caseId => .ok { updatedAt := time.utc, caseId := caseId }
          | none => .error .invalidCaseCursor
        -- `UUID(None)` raises a `TypeError`, any other value has no `replace`
        | .null => .error .invalidCaseCursor
        | _ => .error .attributeError
  | _ => .error .invalidCaseCursor

/-- `_parse_case_list_cursor`. -/
def parseCaseListCursor (value : PyStr) : Except CursorError CaseListCursor :=
  let padded := value ++ List.replicate (Base64.padding value.length) 61
  if padded.any fun c => 128 ≤ c.val then .error .invalidCaseCursor
  else match (Base64.decode (padded.map base64Symbol)).bind (loadsBytes lib) with
    | some (.obj members) =>
      if members.length = 2 then
        match members.lookup (py "case_id"), members.lookup (py "updated_at") with
        | some caseId, some updatedAt => cursorOfMembers lib caseId updatedAt
        | _, _ => .error .invalidCaseCursor
      else .error .invalidCaseCursor
    -- `set(payload)` is another set or raises a `TypeError`, or `payload["updated_at"]` does
    | _ => .error .invalidCaseCursor

end

/-! ### The text of a cursor -/

theorem length_decFixed (len n : Nat) : (decFixed len n).length = len := by
  induction len generalizing n with
  | zero => rfl
  | succ len ih => rw [decFixed, List.length_append, ih, List.length_singleton]

theorem bareText_decFixed (len n : Nat) : BareText (decFixed len n) := by
  have hdigit : ∀ d < 10, isBareChar (digitChar d) = true := by decide
  induction len generalizing n with
  | zero => rfl
  | succ len ih =>
    refine (ih _).append ?_
    unfold BareText
    rw [List.all_cons, hdigit _ (Nat.mod_lt _ (by decide))]
    rfl

namespace UtcDateTime

variable (t : UtcDateTime)

theorem length_dateText : t.dateText.length = 11 := by
  unfold dateText
  simp only [List.length_append, List.length_cons, List.length_nil, length_decFixed]

/-- The longest time has microseconds. -/
theorem length_timeText : 14 ≤ t.timeText.length := by
  unfold timeText
  simp only [List.length_append, List.length_cons, length_decFixed]
  have hzone : (py "+00:00").length = 6 := rfl
  omega

theorem bareText_dateText : BareText t.dateText := by
  have hdash : BareText [45] := by decide
  have hletter : BareText [84] := by decide
  exact (((bareText_decFixed 4 _).append (hdash.append (bareText_decFixed 2 _))).append
    (hdash.append (bareText_decFixed 2 _))).append hletter

theorem bareText_timeText : BareText t.timeText := by
  have hcolon : BareText [58] := by decide
  have hpoint : BareText [46] := by decide
  have hfraction : BareText (if t.microsecond = 0 then [] else 46 :: decFixed 6 t.microsecond) := by
    split_ifs
    · rfl
    · exact hpoint.append (bareText_decFixed 6 _)
  exact ((((bareText_decFixed 2 _).append (hcolon.append (bareText_decFixed 2 _))).append
    (hcolon.append (bareText_decFixed 2 _))).append hfraction).append (by decide)

end UtcDateTime

/-- What the payload has in front of its time. -/
def cursorHead (id : PyStr) : PyStr :=
  py "\x7b\"case_id\":\"" ++ (id ++ py "\",\"updated_at\":\"")

theorem length_cursorHead (id : PyStr) : (cursorHead id).length = id.length + 28 := by
  have hfirst : (py "\x7b\"case_id\":\"").length = 12 := rfl
  have hlast : (py "\",\"updated_at\":\"").length = 16 := rfl
  unfold cursorHead
  rw [List.length_append, List.length_append, hfirst, hlast]
  omega

theorem cursorPayload_eq (c : CaseListCursor) : cursorPayload c =
    cursorHead (Uuid.str c.caseId) ++ ((c.updatedAt.dateText ++ c.updatedAt.timeText) ++ py "\"\x7d") := by
  have hkeys : BareText (py "case_id") ∧ BareText (py "updated_at") := by decide
  have hsort : ∀ v w : PyStr, sortMembers [(py "case_id", v), (py "updated_at", w)] =
      [(py "case_id", v), (py "updated_at", w)] := by
    intro v w
    have hle : py "case_id" ≤ py "updated_at" := by decide
    unfold sortMembers
    rw [List.insertionSort_cons, List.insertionSort_cons, List.insertionSort_nil, List.orderedInsert,
      List.orderedInsert, if_pos hle]
  have htime : BareText c.updatedAt.isoformat :=
    c.updatedAt.bareText_dateText.append c.updatedAt.bareText_timeText
  unfold cursorPayload
  rw [Json.dumps, dumpsMembers, dumpsMembers, dumpsMembers, hsort]
  simp only [List.map_cons, List.map_nil, memberText, joinComma, Json.dumps, hkeys.1.stringText,
    hkeys.2.stringText, (bareText_uuid c.caseId).stringText, htime.stringText]
  have hfirst : py "\x7b\"case_id\":\"" = py "\x7b" ++ 34 :: (py "case_id" ++ 34 :: (py ":" ++ [34])) := rfl
  have hsecond : py "\",\"updated_at\":\"" = 34 :: (py "," ++ 34 :: (py "updated_at" ++ 34 :: (py ":" ++ [34]))) :=
    rfl
  have hlast : py "\"\x7d" = 34 :: py "\x7d" := rfl
  unfold cursorHead UtcDateTime.isoformat
  rw [hfirst, hsecond, hlast]
  simp only [List.append_assoc, List.cons_append, List.nil_append]

/-! ### Reading the text -/

section

variable {floatOf : PyStr → PyFloat} {id t : PyStr}

/-- The members in front of the time. -/
theorem scanValue_head (hid : BareText id) (fuel : Nat) (rest : PyStr) :
    scanValue floatOf (fuel + 4) (cursorHead id ++ rest) =
      scanMembers floatOf (fuel + 2) [(py "case_id", .str id)]
        (34 :: (py "updated_at" ++ 34 :: 58 :: 34 :: rest)) := by
  have htext : cursorHead id ++ rest = 123 :: 34 :: (py "case_id" ++ 34 :: 58 :: 34 ::
      (id ++ 34 :: 44 :: 34 :: (py "updated_at" ++ 34 :: 58 :: 34 :: rest))) := by
    unfold cursorHead
    rw [List.append_assoc, List.append_assoc]
    rfl
  have hkey : BareText (py "case_id") := by decide
  have hmembers := @scanMembers_string floatOf id (py "case_id") hkey hid (fuel + 1) []
    (44 :: 34 :: (py "updated_at" ++ 34 :: 58 :: 34 :: rest))
  rw [htext]
  exact hmembers

theorem exists_fuel (id rest : PyStr) : ∃ fuel, (cursorHead id ++ rest).length + 1 = fuel + 4 := by
  refine ⟨(cursorHead id ++ rest).length - 3, ?_⟩
  rw [List.length_append, length_cursorHead]
  omega

theorem loadsText_cursor (hid : BareText id) (ht : BareText t) :
    loadsText floatOf (cursorHead id ++ (t ++ py "\"\x7d")) =
      some (.obj [(py "case_id", .str id), (py "updated_at", .str t)]) := by
  have hkey : BareText (py "updated_at") := by decide
  have hspace : skipSpace (cursorHead id ++ (t ++ py "\"\x7d")) = cursorHead id ++ (t ++ py "\"\x7d") := rfl
  obtain ⟨fuel, hfuel⟩ := exists_fuel id (t ++ py "\"\x7d")
  unfold loadsText
  rw [hspace, hfuel, scanValue_head hid]
  have hmembers := @scanMembers_string floatOf t (py "updated_at") hkey ht fuel [(py "case_id", .str id)] [125]
  have hend : t ++ py "\"\x7d" = t ++ 34 :: [125] := rfl
  rw [hend, hmembers]
  rfl

theorem loadsText_cut (hid : BareText id) (ht : BareText t) :
    loadsText floatOf (cursorHead id ++ t) = none := by
  have hkey : BareText (py "updated_at") := by decide
  have hspace : skipSpace (cursorHead id ++ t) = cursorHead id ++ t := rfl
  obtain ⟨fuel, hfuel⟩ := exists_fuel id t
  unfold loadsText
  rw [hspace, hfuel, scanValue_head hid, scanMembers_open hkey ht]

end

/-! ### The bytes of a text -/

section

variable {s : PyStr}

/-- The bytes of ASCII text. -/
def asciiBytes (s : PyStr) : List Utf8.Byte := s.map fun c => Utf8.byte c.val

theorem encode_printable (hs : Printable s) : Utf8.encode s = asciiBytes s := by
  unfold Utf8.encode asciiBytes
  induction s with
  | nil => rfl
  | cons c s ih =>
    unfold Printable at hs ih
    rw [List.all_cons, Bool.and_eq_true, PyChar.isPrintable_iff] at hs
    have hc : Utf8.encodeChar c = [Utf8.byte c.val] := if_pos (by omega)
    rw [List.flatMap_cons, hc, ih hs.2]
    rfl

theorem loadsBytes_ascii (lib : CursorLibrary) (hs : Printable s) :
    loadsBytes lib (asciiBytes s) = loadsText lib.floatOf s := by
  have hrange : ∀ c ∈ s, 32 ≤ c.val ∧ c.val < 127 := fun c hc =>
    PyChar.isPrintable_iff.mp (List.all_eq_true.mp hs c hc)
  have hascii : (asciiBytes s).all (fun b => decide (1 ≤ b.val) && decide (b.val < 128)) = true := by
    refine List.all_eq_true.mpr fun b hb => ?_
    obtain ⟨c, hc, rfl⟩ := List.mem_map.mp hb
    have hc' := hrange c hc
    rw [Utf8.byte_val (by omega), Bool.and_eq_true, decide_eq_true_eq, decide_eq_true_eq]
    omega
  have hback : (asciiBytes s).map (fun b => Fin.ofNat 0x110000 b.val) = s := by
    unfold asciiBytes
    rw [List.map_map]
    calc s.map (fun c => Fin.ofNat 0x110000 (Utf8.byte c.val).val) = s.map id := by
          refine List.map_congr_left fun c hc => ?_
          have hc' := hrange c hc
          rw [Utf8.byte_val (by omega)]
          exact Fin.ofNat_val_eq_self c
      _ = s := List.map_id s
  unfold loadsBytes
  rw [if_pos hascii, hback]

/-! ### Base64 text -/

theorem base64Symbol_base64Char (d : Base64.Sextet) : base64Symbol (base64Char d) = .digit d := by
  revert d
  decide

theorem base64Char_ascii (d : Base64.Sextet) : (base64Char d).val < 128 ∧ (base64Char d == 61) = false := by
  have hval : ∀ d : Base64.Sextet, (decide ((base64Char d).val < 128) && !(base64Char d == 61)) = true := by decide
  have hd := hval d
  rw [Bool.and_eq_true, decide_eq_true_eq, Bool.not_eq_true'] at hd
  exact hd

/-- The digits without their padding. -/
theorem rdropWhile_padding (digits : List Base64.Sextet) (n : Nat) :
    (digits.map base64Char ++ List.replicate n 61).rdropWhile (· == 61) = digits.map base64Char := by
  induction n with
  | zero =>
    rw [List.replicate_zero, List.append_nil]
    refine List.rdropWhile_eq_self_iff.mpr fun hne => ?_
    obtain ⟨d, -, hd⟩ := List.mem_map.mp (List.getLast_mem hne)
    rw [← hd, (base64Char_ascii d).2]
    exact Bool.false_ne_true
  | succ n ih =>
    rw [List.replicate_succ', ← List.append_assoc, List.rdropWhile_concat_pos _ _ _ (by rfl), ih]

theorem encodeCaseListCursor_eq (c : CaseListCursor) :
    encodeCaseListCursor c = (Base64.encode (Utf8.encode (cursorPayload c))).map base64Char :=
  rdropWhile_padding _ _

/-- What the parser does with the digits of a text. -/
theorem parseCaseListCursor_text (lib : CursorLibrary) (hs : Printable s) :
    parseCaseListCursor lib ((Base64.encode (asciiBytes s)).map base64Char) =
      match loadsText lib.floatOf s with
      | some (.obj members) =>
        if members.length = 2 then
          match members.lookup (py "case_id"), members.lookup (py "updated_at") with
          | some caseId, some updatedAt => cursorOfMembers lib caseId updatedAt
          | _, _ => .error .invalidCaseCursor
        else .error .invalidCaseCursor
      | _ => .error .invalidCaseCursor := by
  let digits := Base64.encode (asciiBytes s)
  have hascii : ((digits.map base64Char ++
      List.replicate (Base64.padding (digits.map base64Char).length) 61).any fun c => decide (128 ≤ c.val)) = false := by
    rw [List.any_eq_false]
    intro c hc
    rw [decide_eq_true_eq]
    rcases List.mem_append.mp hc with hc | hc
    · obtain ⟨d, -, rfl⟩ := List.mem_map.mp hc
      have hd := (base64Char_ascii d).1
      omega
    · rw [List.eq_of_mem_replicate hc]
      decide
  have hsymbols : (digits.map base64Char ++
      List.replicate (Base64.padding (digits.map base64Char).length) 61).map base64Symbol =
      digits.map .digit ++ List.replicate (Base64.padding digits.length) .pad := by
    rw [List.map_append, List.map_map, List.map_replicate, List.length_map]
    exact congrArg (· ++ _) (List.map_congr_left fun d _ => base64Symbol_base64Char d)
  unfold parseCaseListCursor
  dsimp only
  rw [hascii, if_neg Bool.false_ne_true, hsymbols, Base64.decode_encode, Option.bind_some, loadsBytes_ascii lib hs]

end

/-! ### Reading a cursor back -/

section

variable (lib : CursorLibrary) (c : CaseListCursor)

theorem BareText.printable {s : PyStr} (hs : BareText s) : Printable s := by
  refine List.all_eq_true.mpr fun c hc => ?_
  have h := List.all_eq_true.mp hs c hc
  rw [isBareChar, Bool.and_eq_true] at h
  exact h.1

theorem printable_cursorHead {id : PyStr} (hid : BareText id) : Printable (cursorHead id) :=
  Printable.append (by decide) (hid.printable.append (by decide))

theorem printable_cursorPayload : Printable (cursorPayload c) := by
  have htime := c.updatedAt.bareText_dateText.append c.updatedAt.bareText_timeText
  rw [cursorPayload_eq]
  exact (printable_cursorHead (bareText_uuid _)).append (htime.printable.append (by decide))

theorem encodeCaseListCursor_ascii :
    encodeCaseListCursor c = (Base64.encode (asciiBytes (cursorPayload c))).map base64Char := by
  rw [encodeCaseListCursor_eq, encode_printable (printable_cursorPayload c)]

/-- A cursor has 122 characters, or 131 with microseconds. -/
theorem length_encodeCaseListCursor : 100 < (encodeCaseListCursor c).length := by
  have htime := c.updatedAt.length_timeText
  rw [encodeCaseListCursor_ascii, List.length_map, Base64.length_encode, asciiBytes, List.length_map, cursorPayload_eq,
    List.length_append, List.length_append, List.length_append, length_cursorHead, length_uuid,
    UtcDateTime.length_dateText]
  omega

/-- The API reads its own cursors back. -/
theorem parse_encode (htime : lib.fromIsoFormat c.updatedAt.isoformat = some ⟨some 0, c.updatedAt⟩)
    (huuid : lib.uuid (Uuid.str c.caseId) = some c.caseId) :
    parseCaseListCursor lib (encodeCaseListCursor c) = .ok c := by
  have hiso : BareText c.updatedAt.isoformat :=
    c.updatedAt.bareText_dateText.append c.updatedAt.bareText_timeText
  have hloads : loadsText lib.floatOf (cursorPayload c) =
      some (.obj [(py "case_id", .str (Uuid.str c.caseId)), (py "updated_at", .str c.updatedAt.isoformat)]) := by
    rw [cursorPayload_eq]
    exact loadsText_cursor (bareText_uuid _) hiso
  rw [encodeCaseListCursor_ascii, parseCaseListCursor_text lib (printable_cursorPayload c), hloads]
  show cursorOfMembers lib (.str (Uuid.str c.caseId)) (.str c.updatedAt.isoformat) = _
  unfold cursorOfMembers
  dsimp only
  rw [htime]
  dsimp only
  rw [if_neg (fun h => h rfl), huuid]

/-- The first hundred characters are the digits of a text that ends in the time. -/
theorem take_encodeCaseListCursor : (encodeCaseListCursor c).take 100 =
    (Base64.encode (asciiBytes (cursorHead (Uuid.str c.caseId) ++ c.updatedAt.dateText))).map base64Char := by
  let start := cursorHead (Uuid.str c.caseId) ++ c.updatedAt.dateText
  have hlength : (asciiBytes start).length = 3 * 25 := by
    rw [asciiBytes, List.length_map, List.length_append, length_cursorHead, length_uuid,
      UtcDateTime.length_dateText]
  have hpayload : asciiBytes (cursorPayload c) = asciiBytes start ++ asciiBytes (c.updatedAt.timeText ++ py "\"\x7d") := by
    rw [cursorPayload_eq, List.append_assoc, ← List.append_assoc]
    exact List.map_append
  have hdigits : ((Base64.encode (asciiBytes start)).map base64Char).length = 100 := by
    rw [List.length_map, Base64.length_encode, hlength]
  rw [encodeCaseListCursor_ascii, hpayload, Base64.encode_append hlength, List.map_append]
  exact List.take_left' hdigits

/-- They are no cursor. -/
theorem parse_cut : parseCaseListCursor lib ((encodeCaseListCursor c).take 100) = .error .invalidCaseCursor := by
  have hprintable := (printable_cursorHead (bareText_uuid c.caseId)).append c.updatedAt.bareText_dateText.printable
  rw [take_encodeCaseListCursor, parseCaseListCursor_text lib hprintable,
    loadsText_cut (bareText_uuid _) c.updatedAt.bareText_dateText]

end

/-! ### Cursors that clients send -/

section

variable (lib : CursorLibrary) (value : PyStr)

/-- The JSON value that the text of a cursor decodes to. -/
def cursorJson : Option Json :=
  let padded := value ++ List.replicate (Base64.padding value.length) 61
  if padded.any fun c => 128 ≤ c.val then none
  else (Base64.decode (padded.map base64Symbol)).bind (loadsBytes lib)

/-- A value that `UUID` takes for a text, but that has no `replace`. -/
def Json.lacksReplace : Json → Bool
  | .str _ | .null => false
  | _ => true

/-- An object with exactly the two members, a time in UTC and a case id that is no text. -/
def ForeignCaseId : Prop :=
  ∃ members caseId text time, cursorJson lib value = some (.obj members) ∧ members.length = 2 ∧
    members.lookup (py "case_id") = some caseId ∧ members.lookup (py "updated_at") = some (.str text) ∧
    lib.fromIsoFormat text = some time ∧ time.offset = some 0 ∧ caseId.lacksReplace = true

/-- The parser returns a cursor, or raises the 422 error. -/
def CursorAnswered : Prop :=
  (∃ c, parseCaseListCursor lib value = .ok c) ∨ parseCaseListCursor lib value = .error .invalidCaseCursor

theorem parseCaseListCursor_eq : parseCaseListCursor lib value =
    match cursorJson lib value with
    | some (.obj members) =>
      if members.length = 2 then
        match members.lookup (py "case_id"), members.lookup (py "updated_at") with
        | some caseId, some updatedAt => cursorOfMembers lib caseId updatedAt
        | _, _ => .error .invalidCaseCursor
      else .error .invalidCaseCursor
    | _ => .error .invalidCaseCursor := by
  unfold parseCaseListCursor cursorJson
  dsimp only
  split_ifs <;> rfl

/-- Of the two members, only the case id raises another exception. -/
theorem cursorOfMembers_attributeError (caseId updatedAt : Json) :
    cursorOfMembers lib caseId updatedAt = .error .attributeError ↔
      ∃ text time, updatedAt = .str text ∧ lib.fromIsoFormat text = some time ∧ time.offset = some 0 ∧
        caseId.lacksReplace = true := by
  cases updatedAt with
  | str text =>
    unfold cursorOfMembers
    dsimp only
    cases htime : lib.fromIsoFormat text with
    | none => simp [htime]
    | some time =>
      by_cases hoffset : time.offset = some 0
      · cases caseId with
        | str text =>
          cases huuid : lib.uuid text <;> simp [Json.lacksReplace, hoffset, huuid]
        | _ => simp [Json.lacksReplace, hoffset, htime]
      · simp [hoffset, htime]
  | _ => simp [cursorOfMembers]

theorem parse_attributeError_iff :
    parseCaseListCursor lib value = .error .attributeError ↔ ForeignCaseId lib value := by
  rw [parseCaseListCursor_eq]
  constructor
  · intro h
    split at h
    next members hjson =>
      split_ifs at h with hlength
      · split at h
        next caseId updatedAt hid htime =>
          obtain ⟨text, time, rfl, hread, hoffset, hforeign⟩ := (cursorOfMembers_attributeError lib _ _).mp h
          exact ⟨members, caseId, text, time, hjson, hlength, hid, htime, hread, hoffset, hforeign⟩
        next => cases h
      · cases h
    next => cases h
  · rintro ⟨members, caseId, text, time, hjson, hlength, hid, htime, hread, hoffset, hforeign⟩
    rw [hjson]
    dsimp only
    rw [if_pos hlength, hid, htime]
    exact (cursorOfMembers_attributeError lib _ _).mpr ⟨text, time, rfl, hread, hoffset, hforeign⟩

/-- **Every cursor is answered, except an object whose time is read and whose case id is no text.** -/
theorem cursorAnswered_iff : CursorAnswered lib value ↔ ¬ForeignCaseId lib value := by
  rw [← parse_attributeError_iff]
  unfold CursorAnswered
  cases hparse : parseCaseListCursor lib value with
  | ok c => simp
  | error e => cases e <;> simp

end

/-- A library that reads one time. -/
def numberCursorLibrary : CursorLibrary where
  decodeOther _ := none
  floatOf _ := ⟨py "2.5", by decide, by decide, by decide⟩
  fromIsoFormat t :=
    if t = py "2026-07-19T08:30:00+00:00" then
      some ⟨some 0, ⟨2026, 7, 19, 8, 30, 0, 0, by decide, by decide⟩⟩
    else none
  uuid _ := none

/-- `{"case_id":1,"updated_at":"2026-07-19T08:30:00+00:00"}` is not answered. -/
theorem cursorAnswered_number : ¬CursorAnswered numberCursorLibrary
    (py "eyJjYXNlX2lkIjoxLCJ1cGRhdGVkX2F0Ijoi" ++ py "MjAyNi0wNy0xOVQwODozMDowMCswMDowMCJ9") := by
  have hparse : parseCaseListCursor numberCursorLibrary
      (py "eyJjYXNlX2lkIjoxLCJ1cGRhdGVkX2F0Ijoi" ++ py "MjAyNi0wNy0xOVQwODozMDowMCswMDowMCJ9") =
      .error .attributeError := by
    decide +kernel
  unfold CursorAnswered
  rw [hparse]
  simp

end NetopsCopilot
