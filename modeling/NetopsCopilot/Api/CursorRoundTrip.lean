import NetopsCopilot.Api.CaseListCursor
import NetopsCopilot.Python.Uuid

/-!
# The round trip of a cursor

`readUtcTime` is the part of `datetime.fromisoformat` that reads what `isoformat` writes for a time in UTC, with
or without microseconds; for any other text `fromisoformat` stays a parameter. With it and `UUID` every cursor is
read back (`cursor_round_trip`).
-/

namespace NetopsCopilot

/-! ### Digits of a fixed width -/

/-- The number of the next `len` digits, and the text after them. -/
def readFixed : Nat → PyStr → Option (Nat × PyStr)
  | 0, s => some (0, s)
  | len + 1, s =>
    match readFixed len s with
    | some (n, c :: rest) => if isDigit c then some (10 * n + digitValue c, rest) else none
    | _ => none

/-- The number of `len` digits after a mark. -/
def readMarked (mark : PyChar) (len : Nat) : PyStr → Option (Nat × PyStr)
  | c :: s => if c = mark then readFixed len s else none
  | [] => none

theorem readFixed_decFixed (len n : Nat) (s : PyStr) :
    readFixed len (decFixed len n ++ s) = some (n % 10 ^ len, s) := by
  induction len generalizing n s with
  | zero => rw [pow_zero, Nat.mod_one]; rfl
  | succ len ih =>
    have hdigit : n % 10 < 10 := Nat.mod_lt n (by decide)
    have hvalue : 10 * (n / 10 % 10 ^ len) + n % 10 = n % 10 ^ (len + 1) := by
      rw [pow_succ', Nat.mod_mul]
      omega
    rw [decFixed, List.append_assoc, readFixed, ih]
    dsimp only [List.cons_append, List.nil_append]
    rw [if_pos (isDigit_digitChar hdigit), digitValue_digitChar (by omega), hvalue]

theorem readMarked_decFixed (mark : PyChar) (len n : Nat) (s : PyStr) :
    readMarked mark len (mark :: (decFixed len n ++ s)) = some (n % 10 ^ len, s) := by
  rw [readMarked, if_pos rfl, readFixed_decFixed]

/-! ### `datetime.fromisoformat` -/

/-- The microseconds, where the text has them. -/
def readFraction (s : PyStr) : Option (Nat × PyStr) :=
  if s.head? = some 46 then readMarked 46 6 s else some (0, s)

/-- The time with these fields, if there is one. -/
def utcDateTime (year month day hour minute second microsecond : Nat) : Option UtcDateTime :=
  if date : (1 ≤ year ∧ year ≤ 9999) ∧ (1 ≤ month ∧ month ≤ 12) ∧ 1 ≤ day ∧ day ≤ daysInMonth year month then
    if time : hour < 24 ∧ minute < 60 ∧ second < 60 ∧ microsecond < 1000000 then
      some ⟨year, month, day, hour, minute, second, microsecond, date, time⟩
    else none
  else none

/-- A time as `isoformat` writes it. -/
def readUtcTime (s : PyStr) : Option UtcDateTime := do
  let (year, s) ← readFixed 4 s
  let (month, s) ← readMarked 45 2 s
  let (day, s) ← readMarked 45 2 s
  let (hour, s) ← readMarked 84 2 s
  let (minute, s) ← readMarked 58 2 s
  let (second, s) ← readMarked 58 2 s
  let (microsecond, s) ← readFraction s
  if s = py "+00:00" then utcDateTime year month day hour minute second microsecond else none

theorem utcDateTime_fields (t : UtcDateTime) :
    utcDateTime t.year t.month t.day t.hour t.minute t.second t.microsecond = some t := by
  unfold utcDateTime
  rw [dif_pos t.date, dif_pos t.time]

theorem readFraction_microsecond {n : Nat} (hn : n < 1000000) :
    readFraction ((if n = 0 then [] else 46 :: decFixed 6 n) ++ py "+00:00") = some (n, py "+00:00") := by
  by_cases hzero : n = 0
  · subst hzero
    rfl
  · have hhead : (46 :: (decFixed 6 n ++ py "+00:00")).head? = some 46 := rfl
    rw [if_neg hzero, List.cons_append, readFraction, if_pos hhead, readMarked_decFixed,
      Nat.mod_eq_of_lt (by omega : n < 10 ^ 6)]

/-- **`fromisoformat` reads what `isoformat` writes**, with every microsecond. -/
theorem readUtcTime_isoformat (t : UtcDateTime) : readUtcTime t.isoformat = some t := by
  obtain ⟨⟨-, hyear⟩, ⟨-, hmonth⟩, -, hday⟩ := t.date
  obtain ⟨hhour, hminute, hsecond, hmicrosecond⟩ := t.time
  have hday' : t.day < 10 ^ 2 := by
    have hdays : daysInMonth t.year t.month ≤ 31 := by
      unfold daysInMonth
      split_ifs <;> omega
    omega
  have htext : t.isoformat = decFixed 4 t.year ++ (45 :: (decFixed 2 t.month ++ (45 :: (decFixed 2 t.day ++
      (84 :: (decFixed 2 t.hour ++ (58 :: (decFixed 2 t.minute ++ (58 :: (decFixed 2 t.second ++
        ((if t.microsecond = 0 then [] else 46 :: decFixed 6 t.microsecond) ++ py "+00:00"))))))))))) := by
    unfold UtcDateTime.isoformat UtcDateTime.dateText UtcDateTime.timeText
    simp only [List.append_assoc, List.cons_append, List.nil_append]
  unfold readUtcTime
  rw [htext, readFixed_decFixed]
  simp only [Option.bind_eq_bind, Option.bind_some, readMarked_decFixed, readFraction_microsecond hmicrosecond]
  rw [if_true, Nat.mod_eq_of_lt (by omega : t.year < 10 ^ 4), Nat.mod_eq_of_lt (by omega : t.month < 10 ^ 2),
    Nat.mod_eq_of_lt hday', Nat.mod_eq_of_lt (by omega : t.hour < 10 ^ 2),
    Nat.mod_eq_of_lt (by omega : t.minute < 10 ^ 2), Nat.mod_eq_of_lt (by omega : t.second < 10 ^ 2)]
  exact utcDateTime_fields t

/-! ### The cursor -/

section

variable (U : UnicodeData) (lib : CursorLibrary)

/-- Python's library: what `isoformat` writes is read, and identifiers. Other times are read as `lib` does. -/
def isoCursorLibrary : CursorLibrary :=
  { lib with
    fromIsoFormat := fun text =>
      match readUtcTime text with
      | some t => some ⟨some 0, t⟩
      | none => lib.fromIsoFormat text
    uuid := uuidOfText U }

theorem parse_encode_iso (c : CaseListCursor) :
    parseCaseListCursor (isoCursorLibrary U lib) (encodeCaseListCursor c) = .ok c := by
  have htime : (isoCursorLibrary U lib).fromIsoFormat c.updatedAt.isoformat = some ⟨some 0, c.updatedAt⟩ := by
    unfold isoCursorLibrary
    dsimp only
    rw [readUtcTime_isoformat]
  have huuid : (isoCursorLibrary U lib).uuid (Uuid.str c.caseId) = some c.caseId := by
    unfold isoCursorLibrary
    dsimp only
    rw [uuidOfText_str]
  exact parse_encode _ c htime huuid

end

theorem base64Char_mem (d : Base64.Sextet) : base64Char d ∈ base64Alphabet := by
  revert d
  decide

/-- A cursor is written in the URL-safe alphabet, without padding. -/
theorem mem_encodeCaseListCursor {c : CaseListCursor} : ∀ ch ∈ encodeCaseListCursor c, ch ∈ base64Alphabet := by
  intro ch hch
  rw [encodeCaseListCursor_ascii] at hch
  obtain ⟨d, -, rfl⟩ := List.mem_map.mp hch
  exact base64Char_mem d

/-- It has 122 characters, or 131 with microseconds. -/
theorem length_encodeCaseListCursor_eq (c : CaseListCursor) :
    (encodeCaseListCursor c).length = if c.updatedAt.microsecond = 0 then 122 else 131 := by
  have hzone : (py "+00:00").length = 6 := rfl
  have hend : (py "\"\x7d").length = 2 := rfl
  have htime : c.updatedAt.timeText.length = if c.updatedAt.microsecond = 0 then 14 else 21 := by
    unfold UtcDateTime.timeText
    split_ifs <;> simp only [List.length_append, List.length_cons, List.length_nil, length_decFixed, hzone]
  rw [encodeCaseListCursor_ascii, List.length_map, Base64.length_encode, asciiBytes, List.length_map, cursorPayload_eq,
    List.length_append, List.length_append, List.length_append, length_cursorHead, length_uuid,
    UtcDateTime.length_dateText, htime, hend]
  split_ifs <;> rfl

/-- What the list endpoint takes for a cursor: `Query(max_length=512)`. -/
def maxCursorLength : Nat := 512

/-- **The API reads every cursor back that it writes**, to the microsecond; cursors are written in the URL-safe
alphabet, fit the endpoint's limit, and differ for different keys. -/
theorem cursor_round_trip (U : UnicodeData) (lib : CursorLibrary) :
    (∀ c, parseCaseListCursor (isoCursorLibrary U lib) (encodeCaseListCursor c) = .ok c ∧
      (∀ ch ∈ encodeCaseListCursor c, ch ∈ base64Alphabet) ∧ (encodeCaseListCursor c).length ≤ maxCursorLength) ∧
    Function.Injective encodeCaseListCursor := by
  refine ⟨fun c => ⟨parse_encode_iso U lib c, mem_encodeCaseListCursor, ?_⟩, fun c d heq => ?_⟩
  · rw [length_encodeCaseListCursor_eq]
    unfold maxCursorLength
    split_ifs <;> omega
  · have hread := parse_encode_iso U lib c
    rw [heq, parse_encode_iso U lib d] at hread
    exact (Except.ok.inj hread).symm

/-- A time with microseconds. -/
example : readUtcTime (py "0987-02-28T23:59:59.000120+00:00") =
    some ⟨987, 2, 28, 23, 59, 59, 120, by decide, by decide⟩ := by decide +kernel

end NetopsCopilot
