import Mathlib.Data.List.Sort
import Mathlib.Data.List.Lex
import Mathlib.Data.Nat.Digits.Defs
import NetopsCopilot.Domain.Cases

/-!
# JSON text (`json.dumps`, `str(UUID)`)

`Json` is what `json.loads` produces and `json.dumps` accepts. An object is the list of its members in
insertion order; `Json.Dict` says that no object, at any depth, has a key twice (a Python `dict` cannot).
A float is represented by the text `json.dumps` gives it, which determines it (`float.__repr__` round
trips; the infinities and NaN have one name each).

`dumps` is `json.dumps(value, sort_keys=True, separators=(",", ":"))` with the default
`ensure_ascii=True`: a character outside ASCII becomes one `\uXXXX` escape, or two for one above the
basic plane.
-/

namespace NetopsCopilot

/-! ### Numbers as text -/

/-- One digit, in lower case. -/
def digitChar (d : Nat) : PyChar := if d < 10 then Fin.ofNat _ (48 + d) else Fin.ofNat _ (87 + d)

/-- The `len` lowest hexadecimal digits of `n`. -/
def hexFixed : Nat → Nat → PyStr
  | 0, _ => []
  | len + 1, n => hexFixed len (n / 16) ++ [digitChar (n % 16)]

/-- `str(n)` for a natural number. -/
def natText (n : Nat) : PyStr := if n = 0 then py "0" else ((Nat.digits 10 n).map digitChar).reverse

/-- `str(n)`. -/
def intText : Int → PyStr
  | .ofNat n => natText n
  | .negSucc n => py "-" ++ natText (n + 1)

/-- `str(uuid)`. -/
def Uuid.str (u : Uuid) : PyStr :=
  let h := hexFixed 32 u.val
  h.take 8 ++ py "-" ++ (h.drop 8).take 4 ++ py "-" ++ (h.drop 12).take 4 ++ py "-" ++
    (h.drop 16).take 4 ++ py "-" ++ h.drop 20

/-! ### Values -/

/-- Characters of a float's text. -/
def isFloatChar (c : PyChar) : Bool := c ∈ py "0123456789+-.eNaInfity"

/-- A character no integer's text has. -/
def isFloatMark (c : PyChar) : Bool := c ∈ py ".eNI"

/-- A Python float, as the text `json.dumps` gives it. -/
structure PyFloat where
  text : PyStr
  chars : text.all isFloatChar = true
  head : text.head?.any (fun c => decide (c ∈ py "0123456789-NI")) = true
  marked : text.any isFloatMark = true
deriving DecidableEq, Repr

/-- A JSON value. -/
inductive Json where
  | null
  | bool (b : Bool)
  | int (n : Int)
  | float (f : PyFloat)
  | str (s : PyStr)
  | arr (items : List Json)
  | obj (members : List (PyStr × Json))

mutual
/-- No object has a key twice. -/
def Json.Dict : Json → Prop
  | .arr items => dictItems items
  | .obj members => (members.map Prod.fst).Nodup ∧ dictMembers members
  | _ => True
/-- `Json.Dict` of every item. -/
def dictItems : List Json → Prop
  | [] => True
  | v :: items => v.Dict ∧ dictItems items
/-- `Json.Dict` of every member's value. -/
def dictMembers : List (PyStr × Json) → Prop
  | [] => True
  | (_, v) :: members => v.Dict ∧ dictMembers members
end

/-! ### Text -/

/-- `\uXXXX`. -/
def unicodeEscape (n : Nat) : PyStr := py "\\u" ++ hexFixed 4 n

/-- The escape of one character (`py_encode_basestring_ascii`). -/
def escapeChar (c : PyChar) : PyStr :=
  if c.val = 34 then py "\\\""
  else if c.val = 92 then py "\\\\"
  else if c.val = 10 then py "\\n"
  else if c.val = 13 then py "\\r"
  else if c.val = 9 then py "\\t"
  else if c.val = 12 then py "\\f"
  else if c.val = 8 then py "\\b"
  else if 32 ≤ c.val ∧ c.val ≤ 126 then [c]
  else if c.val < 0x10000 then unicodeEscape c.val
  else unicodeEscape (0xD800 + (c.val - 0x10000) / 1024) ++
    unicodeEscape (0xDC00 + (c.val - 0x10000) % 1024)

/-- A string literal. -/
def stringText (s : PyStr) : PyStr := py "\"" ++ s.flatMap escapeChar ++ py "\""

/-- Texts separated by commas. -/
def joinComma : List PyStr → PyStr
  | [] => []
  | [t] => t
  | t :: ts => t ++ py "," ++ joinComma ts

/-- Members in the order of their keys. -/
def sortMembers {α : Type} (members : List (PyStr × α)) : List (PyStr × α) :=
  members.insertionSort fun a b => a.1 ≤ b.1

/-- `"key":value`. -/
def memberText (m : PyStr × PyStr) : PyStr := stringText m.1 ++ py ":" ++ m.2

mutual
/-- `json.dumps(value, sort_keys=True, separators=(",", ":"))`. -/
def Json.dumps : Json → PyStr
  | .null => py "null"
  | .bool true => py "true"
  | .bool false => py "false"
  | .int n => intText n
  | .float f => f.text
  | .str s => stringText s
  | .arr items => py "[" ++ joinComma (dumpsItems items) ++ py "]"
  | .obj members => py "\x7b" ++ joinComma ((sortMembers (dumpsMembers members)).map memberText) ++
      py "\x7d"
/-- The texts of the items. -/
def dumpsItems : List Json → List PyStr
  | [] => []
  | v :: items => v.dumps :: dumpsItems items
/-- The members with the texts of their values. -/
def dumpsMembers : List (PyStr × Json) → List (PyStr × PyStr)
  | [] => []
  | (k, v) :: members => (k, v.dumps) :: dumpsMembers members
end

example : (Json.obj [(py "b", .int (-12)), (py "a", .arr [.null, .str (py "é\n")])]).dumps =
    py "\x7b\"a\":[null,\"\\u00e9\\n\"],\"b\":-12\x7d" := by decide +kernel

end NetopsCopilot
