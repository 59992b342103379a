import NetopsCopilot.JavaScript.TypeScript

/-!
# Types of the generated client (`_ts_type` in `scripts/generate-api-client.py`)

`Schema` are the JSON schemas that the generator is for, with the values they describe and the type each prescribes.
The text that is generated reads as that type if, and only if, arrays have items of one alternative and `allOf` has
one member: the generator writes no parentheses and joins the members of `allOf` with bars. Of several keywords in
one schema the generator reads the first, and the type denotes the values described if the others rule none of them
out. TypeScript has one type of numbers, which stands for `integer` as well.
-/

namespace NetopsCopilot

/-! ### `_ts_type` -/

mutual
/-- `json.dumps(value)`. -/
def Json.dumpsDefault : Json → PyStr
  | .null => py "null"
  | .bool true => py "true"
  | .bool false => py "false"
  | .int n => intText n
  | .float f => f.text
  | .str s => stringText s
  | .arr items => py "[" ++ joinCommaSpace (dumpsDefaultItems items) ++ py "]"
  | .obj members => py "\x7b" ++ joinCommaSpace (dumpsDefaultMembers members) ++ py "\x7d"
def dumpsDefaultItems : List Json → List PyStr
  | [] => []
  | value :: items => value.dumpsDefault :: dumpsDefaultItems items
def dumpsDefaultMembers : List (PyStr × Json) → List PyStr
  | [] => []
  | (key, value) :: members => (stringText key ++ py ": " ++ value.dumpsDefault) :: dumpsDefaultMembers members
end

/-- `reference.rsplit("/", maxsplit=1)[-1]`. -/
def lastSegment (reference : PyStr) : PyStr := (reference.reverse.takeWhile (· != 47)).reverse

def isList : Option Json → Bool
  | some (.arr _) => true
  | _ => false

/-- All texts, if none of them raises. -/
def allTexts : List (Option PyStr) → Option (List PyStr)
  | [] => some []
  | text :: texts => text.bind fun t => (allTexts texts).map (t :: ·)

/-- The types of a member's value: of itself as a schema, and of the schemas in it if it is a list. -/
structure ValueTypes where
  own : Option PyStr
  items : List (Option PyStr)

/-- The body of `_ts_type`, with the types of the members' values. -/
def tsMapping (members : List (PyStr × Json)) (types : List (PyStr × ValueTypes)) : Option PyStr :=
  match members.lookup (py "$ref") with
  | some (.str reference) => some (lastSegment reference)
  | _ =>
    match members.lookup (py "enum") with
    | some (.arr values) => some (joinBar (values.map Json.dumpsDefault))
    | _ =>
      match [py "anyOf", py "oneOf", py "allOf"].find? fun composite => isList (members.lookup composite) with
      | some composite =>
        match types.lookup composite with
        | some found => (allTexts found.items).map joinBar
        | none => none
      | none =>
        match members.lookup (py "type") with
        | some (.str name) =>
          if name = py "array" then
            match types.lookup (py "items") with
            | some found => found.own.map (· ++ py "[]")
            | none => some (py "unknown[]")
          else if name = py "integer" ∨ name = py "number" then some (py "number")
          else if name = py "boolean" then some (py "boolean")
          else if name = py "null" then some (py "null")
          else if name = py "string" then some (py "string")
          else if name = py "object" then
            match members.lookup (py "additionalProperties"), types.lookup (py "additionalProperties") with
            | some (.obj _), some found => found.own.map fun t => py "Record<string, " ++ t ++ py ">"
            | _, _ => some (py "Record<string, unknown>")
          else some (py "unknown")
        -- a list or a mapping has no hash
        | some (.arr _) | some (.obj _) => none
        | _ => some (py "unknown")

mutual
/-- `_ts_type(_mapping(value))`, where `none` is a `TypeError`. -/
def tsType : Json → Option PyStr
  | .obj members => tsMapping members (memberTypes members)
  | _ => some (py "unknown")
def memberTypes : List (PyStr × Json) → List (PyStr × ValueTypes)
  | [] => []
  | (key, value) :: members => (key, ⟨tsType value, listTypes value⟩) :: memberTypes members
def listTypes : Json → List (Option PyStr)
  | .arr items => valueTypes items
  | _ => []
def valueTypes : List Json → List (Option PyStr)
  | [] => []
  | value :: values => tsType value :: valueTypes values
end

/-! ### Schemas -/

inductive Composite where
  | anyOf | oneOf | allOf
deriving DecidableEq

def Composite.key : Composite → PyStr
  | .anyOf => py "anyOf"
  | .oneOf => py "oneOf"
  | .allOf => py "allOf"

inductive Primitive where
  | string | integer | number | boolean | null
deriving DecidableEq

def Primitive.key : Primitive → PyStr
  | .string => py "string"
  | .integer => py "integer"
  | .number => py "number"
  | .boolean => py "boolean"
  | .null => py "null"

/-- Members of a schema that say nothing about its values. -/
def annotationKeys : List PyStr :=
  [py "title", py "description", py "default", py "examples", py "example", py "deprecated", py "readOnly",
    py "writeOnly", py "$comment"]

structure Annotations where
  members : List (PyStr × Json)
  keys : ∀ m ∈ members, m.1 ∈ annotationKeys

/-- A schema. A reference is to a schema among the components, by its name; `beside` has the keywords of two schemas
in one, of which `_ts_type` reads the first. -/
inductive Schema where
  | any
  | ref (name : PyStr)
  | enum (values : List Json)
  | composite (kind : Composite) (schemas : List Schema)
  | array (items : Schema)
  | bareArray
  | prim (p : Primitive)
  | object (additional : Option Bool)
  | map (values : Schema)
  | noted (s : Schema) (notes : Annotations)
  | beside (s unread : Schema)

mutual
/-- The members of a schema's document. -/
def Schema.members : Schema → List (PyStr × Json)
  | .any => []
  | .ref name => [(py "$ref", .str (py "#/components/schemas/" ++ name))]
  | .enum values => [(py "enum", .arr values)]
  | .composite kind schemas => [(kind.key, .arr (schemaItems schemas))]
  | .array items => [(py "items", .obj items.members), (py "type", .str (py "array"))]
  | .bareArray => [(py "type", .str (py "array"))]
  | .prim p => [(py "type", .str p.key)]
  | .object none => [(py "type", .str (py "object"))]
  | .object (some additional) => [(py "additionalProperties", .bool additional), (py "type", .str (py "object"))]
  | .map values => [(py "additionalProperties", .obj values.members), (py "type", .str (py "object"))]
  | .noted s notes => s.members ++ notes.members
  | .beside s unread => s.members ++ unread.members
def schemaItems : List Schema → List Json
  | [] => []
  | s :: schemas => .obj s.members :: schemaItems schemas
end

def Schema.json (s : Schema) : Json := .obj s.members

/-- The keys of a schema, in the order in which `_ts_type` looks at them. -/
def schemaKeys : List PyStr :=
  [py "$ref", py "enum", py "anyOf", py "oneOf", py "allOf", py "type", py "items", py "additionalProperties"]

/-- The keys that `_ts_type` looks at until it has found the schema's keyword. -/
def Schema.readKeys : Schema → List PyStr
  | .ref _ => schemaKeys.take 1
  | .enum _ => schemaKeys.take 2
  | .composite .anyOf _ => schemaKeys.take 3
  | .composite .oneOf _ => schemaKeys.take 4
  | .composite .allOf _ => schemaKeys.take 5
  | .noted s _ => s.readKeys
  | .beside s _ => s.readKeys
  | _ => schemaKeys

section

variable (otherNumber : PyStr → JsNum) (env : PyStr → JsValue → Prop)

mutual
/-- The values that a schema describes, where `env` are those of the components. -/
def Schema.Describes : Schema → JsValue → Prop
  | .any, _ => True
  | .ref name, v => env name v
  | .enum values, v => ∃ j ∈ values, j.Equal otherNumber v
  | .composite .allOf schemas, v => describeAll schemas v
  | .composite _ schemas, v => describeSome schemas v
  | .array items, v => ∃ values, v = .arr values ∧ ∀ w ∈ values, items.Describes w
  | .bareArray, v => ∃ values, v = .arr values
  | .prim .string, v => ∃ t, v = .str t
  | .prim .integer, v => ∃ n, v = .num n
  | .prim .number, v => ∃ n, v = .num n
  | .prim .boolean, v => ∃ b, v = .bool b
  | .prim .null, v => v = .null
  | .object (some false), v => v = .obj []
  | .object _, v => ∃ members, v = .obj members
  | .map values, v => ∃ members, v = .obj members ∧ ∀ m ∈ members, values.Describes m.2
  | .noted s _, v => s.Describes v
  | .beside s unread, v => s.Describes v ∧ unread.Describes v
def describeSome : List Schema → JsValue → Prop
  | [], _ => False
  | s :: schemas, v => s.Describes v ∨ describeSome schemas v
def describeAll : List Schema → JsValue → Prop
  | [], _ => True
  | s :: schemas, v => s.Describes v ∧ describeAll schemas v
end

end

/-! ### The prescribed types -/

section

variable (lib : TsLibrary)

mutual
/-- The type of one value. -/
def literalType : Json → TsType
  | .null => .null
  | .bool b => .boolLit b
  | .int n => .numLit (numberOf lib.otherNumber (intText n))
  | .float f => .numLit (numberOf lib.otherNumber f.text)
  | .str s => .strLit (jsText s)
  | .arr items => .tuple (literalTypes items)
  | .obj members => .only (.obj members)
def literalTypes : List Json → List TsType
  | [] => []
  | value :: values => literalType value :: literalTypes values
end

def Primitive.tsType : Primitive → TsType
  | .string => .string
  | .integer | .number => .number
  | .boolean => .boolean
  | .null => .null

mutual
/-- The type that a schema prescribes by the keywords that are read. -/
def Schema.prescribed : Schema → TsType
  | .any => .unknown
  | .ref name => .name name
  | .enum values => .ofAlternatives (literalTypes lib values)
  | .composite .allOf [s] => s.prescribed
  | .composite .allOf schemas => .inter (prescribedTypes schemas)
  | .composite _ schemas => .ofAlternatives (prescribedAlternatives schemas)
  | .array items => .array items.prescribed
  | .bareArray => .array .unknown
  | .prim p => p.tsType
  | .object (some false) => .only (.obj [])
  | .object _ => .record .unknown
  | .map values => .record values.prescribed
  | .noted s _ => s.prescribed
  | .beside s _ => s.prescribed
def prescribedTypes : List Schema → List TsType
  | [] => []
  | s :: schemas => s.prescribed :: prescribedTypes schemas
def prescribedAlternatives : List Schema → List TsType
  | [] => []
  | s :: schemas => s.prescribed.alternatives ++ prescribedAlternatives schemas
end

end

/-! ### Conditions -/

mutual
/-- A value that is written as a literal of TypeScript: no object, and numbers that are numerals. -/
def Json.Literal : Json → Prop
  | .float f => IsNumeral f.text
  | .arr items => literalItems items
  | .obj _ => False
  | _ => True
def literalItems : List Json → Prop
  | [] => True
  | value :: values => value.Literal ∧ literalItems values
end

mutual
/-- Every part of the schema has a type of its own in TypeScript: references have names that can be declared, an
enumeration has values and they are literals, a composite has members, and no object is closed. A keyword beside
another one comes after it. -/
def Schema.WellFormed (lib : TsLibrary) : Schema → Prop
  | .ref name => IsTypeName lib name
  | .enum values => values ≠ [] ∧ literalItems values
  | .composite _ schemas => schemas ≠ [] ∧ wellFormedSchemas lib schemas
  | .array items => items.WellFormed lib
  | .object additional => additional ≠ some false
  | .map values => values.WellFormed lib
  | .noted s _ => s.WellFormed lib
  | .beside s unread => s.WellFormed lib ∧ ∀ m ∈ unread.members, m.1 ∉ s.readKeys
  | _ => True
def wellFormedSchemas (lib : TsLibrary) : List Schema → Prop
  | [] => True
  | s :: schemas => s.WellFormed lib ∧ wellFormedSchemas lib schemas
end

mutual
/-- The number of alternatives that are written for a schema. -/
def Schema.width : Schema → Nat
  | .enum values => values.length
  | .composite _ schemas => totalWidth schemas
  | .array items => items.width
  | .noted s _ => s.width
  | .beside s _ => s.width
  | _ => 1
def totalWidth : List Schema → Nat
  | [] => 0
  | s :: schemas => s.width + totalWidth schemas
end

mutual
/-- The items of arrays are written as one alternative, and `allOf` has one member. -/
def Schema.Flat : Schema → Prop
  | .composite kind schemas => (kind = .allOf → schemas.length = 1) ∧ flatSchemas schemas
  | .array items => items.width = 1 ∧ items.Flat
  | .map values => values.Flat
  | .noted s _ => s.Flat
  | .beside s _ => s.Flat
  | _ => True
def flatSchemas : List Schema → Prop
  | [] => True
  | s :: schemas => s.Flat ∧ flatSchemas schemas
end

section

variable (otherNumber : PyStr → JsNum) (env : PyStr → JsValue → Prop)

mutual
/-- The keywords that are not read rule out no value. -/
def Schema.Redundant : Schema → Prop
  | .composite _ schemas => redundantSchemas schemas
  | .array items => items.Redundant
  | .map values => values.Redundant
  | .noted s _ => s.Redundant
  | .beside s unread => s.Redundant ∧ ∀ v, s.Describes otherNumber env v → unread.Describes otherNumber env v
  | _ => True
def redundantSchemas : List Schema → Prop
  | [] => True
  | s :: schemas => s.Redundant ∧ redundantSchemas schemas
end

end

/-! ### What is written -/

section

variable (lib : TsLibrary)

def wordOperand (word : PyStr) (t : TsType) : TsOperand := ⟨word, t, 0⟩

def literalOperand (value : Json) : TsOperand := ⟨value.dumpsDefault, literalType lib value, 0⟩

/-- Brackets behind the last operand: they bind tighter than the bars in front of it. -/
def addBrackets : List TsOperand → List TsOperand
  | [] => []
  | [o] => [{ o with brackets := o.brackets + 1 }]
  | o :: ops => o :: addBrackets ops

mutual
/-- The alternatives of the text, one after another. -/
def Schema.operands : Schema → List TsOperand
  | .any => [wordOperand (py "unknown") .unknown]
  | .ref name => [wordOperand name (.name name)]
  | .enum values => values.map (literalOperand lib)
  | .composite _ schemas => operandsOf schemas
  | .array items => addBrackets items.operands
  | .bareArray => addBrackets [wordOperand (py "unknown") .unknown]
  | .prim .string => [wordOperand (py "string") .string]
  | .prim .integer | .prim .number => [wordOperand (py "number") .number]
  | .prim .boolean => [wordOperand (py "boolean") .boolean]
  | .prim .null => [wordOperand (py "null") .null]
  | .object _ => [wordOperand (py "Record<string, unknown>") (.record .unknown)]
  | .map values =>
    [wordOperand (py "Record<string, " ++ joinBar (values.operands.map TsOperand.full) ++ py ">")
      (.record (.ofAlternatives (values.operands.map TsOperand.tsType)))]
  | .noted s _ => s.operands
  | .beside s _ => s.operands
def operandsOf : List Schema → List TsOperand
  | [] => []
  | s :: schemas => s.operands ++ operandsOf schemas
end

/-- The text of a schema's type. -/
def Schema.text (s : Schema) : PyStr := joinBar ((s.operands lib).map TsOperand.full)

/-- What the text is read as. -/
def Schema.reading (s : Schema) : TsType := .ofAlternatives ((s.operands lib).map TsOperand.tsType)

end

theorem TsOperand.full_zero (text : PyStr) (t : TsType) : (⟨text, t, 0⟩ : TsOperand).full = text := List.append_nil _

theorem TsOperand.full_addBracket (o : TsOperand) :
    ({ o with brackets := o.brackets + 1 } : TsOperand).full = o.full ++ py "[]" := by
  show o.text ++ (List.replicate (o.brackets + 1) (py "[]")).flatten = _
  rw [List.replicate_succ', List.flatten_append, ← List.append_assoc]
  exact congrArg (o.full ++ ·) (List.append_nil _)

theorem joinBar_addBrackets {ops : List TsOperand} (h : ops ≠ []) :
    joinBar ((addBrackets ops).map TsOperand.full) = joinBar (ops.map TsOperand.full) ++ py "[]" := by
  induction ops with
  | nil => exact absurd rfl h
  | cons o ops ih =>
    cases ops with
    | nil => exact o.full_addBracket
    | cons p ops =>
      have hrest := ih (List.cons_ne_nil p ops)
      obtain ⟨q, ops', hops⟩ : ∃ q ops', addBrackets (p :: ops) = q :: ops' := by
        cases ops <;> exact ⟨_, _, rfl⟩
      have hadd : addBrackets (o :: p :: ops) = o :: addBrackets (p :: ops) := rfl
      rw [hops] at hrest hadd
      rw [hadd]
      show o.full ++ py " | " ++ joinBar ((q :: ops').map TsOperand.full) =
        o.full ++ py " | " ++ joinBar ((p :: ops).map TsOperand.full) ++ py "[]"
      rw [hrest, List.append_assoc, List.append_assoc, List.append_assoc]

theorem joinBar_append {ts ts' : List PyStr} (h : ts ≠ []) (h' : ts' ≠ []) :
    joinBar (ts ++ ts') = joinBar ts ++ py " | " ++ joinBar ts' := by
  induction ts with
  | nil => exact absurd rfl h
  | cons t ts ih =>
    obtain ⟨u, ts', rfl⟩ := List.exists_cons_of_ne_nil h'
    cases ts with
    | nil => rfl
    | cons t' ts =>
      have hrest := ih (List.cons_ne_nil t' ts)
      show t ++ py " | " ++ joinBar (t' :: ts ++ u :: ts') = t ++ py " | " ++ joinBar (t' :: ts) ++ py " | " ++ _
      rw [hrest]
      simp only [List.append_assoc]

/-! ### Members that are not read -/

theorem lookup_eq_none_of_keys {ms : List (PyStr × Json)} {key : PyStr} (h : ∀ m ∈ ms, m.1 ≠ key) :
    ms.lookup key = none := by
  rw [List.lookup_eq_none_iff]
  intro m hm
  rw [bne_iff_ne]
  exact fun heq => h m hm heq.symm

theorem memberTypes_append (ms ms' : List (PyStr × Json)) :
    memberTypes (ms ++ ms') = memberTypes ms ++ memberTypes ms' := by
  induction ms with
  | nil => rfl
  | cons m ms ih =>
    obtain ⟨key, value⟩ := m
    rw [List.cons_append, memberTypes, memberTypes, ih, List.cons_append]

theorem lookup_memberTypes {ms : List (PyStr × Json)} {key : PyStr} (h : ms.lookup key = none) :
    (memberTypes ms).lookup key = none := by
  induction ms with
  | nil => rfl
  | cons m ms ih =>
    obtain ⟨key', value⟩ := m
    rw [memberTypes, List.lookup_cons] at *
    split at h
    · cases h
    · exact ih h

/-- Members with keys that `_ts_type` never looks at change nothing. -/
theorem tsMapping_append (members : List (PyStr × Json)) {extra : List (PyStr × Json)}
    (hextra : ∀ m ∈ extra, m.1 ∉ schemaKeys) :
    tsMapping (members ++ extra) (memberTypes (members ++ extra)) = tsMapping members (memberTypes members) := by
  have hnone : ∀ key ∈ schemaKeys, extra.lookup key = none := fun key hkey =>
    lookup_eq_none_of_keys fun m hm heq => hextra m hm (heq ▸ hkey)
  have hmembers : ∀ key ∈ schemaKeys, (members ++ extra).lookup key = members.lookup key := by
    intro key hkey
    rw [List.lookup_append, hnone key hkey, Option.or_none]
  have htypes : ∀ key ∈ schemaKeys, (memberTypes (members ++ extra)).lookup key = (memberTypes members).lookup key := by
    intro key hkey
    rw [memberTypes_append, List.lookup_append, lookup_memberTypes (hnone key hkey), Option.or_none]
  have hany := hmembers (py "anyOf") (by decide)
  have hone := hmembers (py "oneOf") (by decide)
  have hall := hmembers (py "allOf") (by decide)
  have hcomposites : ([py "anyOf", py "oneOf", py "allOf"].find? fun composite =>
      isList ((members ++ extra).lookup composite)) =
      [py "anyOf", py "oneOf", py "allOf"].find? fun composite => isList (members.lookup composite) := by
    simp only [List.find?_cons, List.find?_nil, hany, hone, hall]
  have hfound : ∀ composite, ([py "anyOf", py "oneOf", py "allOf"].find? fun composite =>
      isList (members.lookup composite)) = some composite → composite ∈ schemaKeys := by
    intro composite hcomposite
    have hkeys : ∀ key ∈ [py "anyOf", py "oneOf", py "allOf"], key ∈ schemaKeys := by decide
    exact hkeys composite (List.mem_of_find?_eq_some hcomposite)
  unfold tsMapping
  rw [hmembers (py "$ref") (by decide), hmembers (py "enum") (by decide), hmembers (py "type") (by decide),
    hmembers (py "additionalProperties") (by decide), htypes (py "items") (by decide),
    htypes (py "additionalProperties") (by decide), hcomposites]
  cases hfind : [py "anyOf", py "oneOf", py "allOf"].find? fun composite => isList (members.lookup composite) with
  | none => rfl
  | some composite =>
    dsimp only
    rw [htypes _ (hfound _ hfind)]

theorem readKeys_subset (s : Schema) : ∀ key ∈ s.readKeys, key ∈ schemaKeys := by
  match s with
  | .ref _ | .enum _ => exact fun key hkey => List.mem_of_mem_take hkey
  | .composite kind _ => cases kind <;> exact fun key hkey => List.mem_of_mem_take hkey
  | .noted s _ | .beside s _ => exact readKeys_subset s
  | .any | .array _ | .bareArray | .prim _ | .object _ | .map _ => exact fun _ hkey => hkey

theorem annotations_unread (s : Schema) (notes : Annotations) : ∀ m ∈ notes.members, m.1 ∉ s.readKeys := by
  intro m hm hread
  have hdisjoint : ∀ key ∈ annotationKeys, key ∉ schemaKeys := by decide
  exact hdisjoint _ (notes.keys m hm) (readKeys_subset s _ hread)

/-- Members that `_ts_type` does not come to, once it has found the schema's keyword, change nothing. -/
theorem tsMapping_unread {lib : TsLibrary} (s : Schema) (h : s.WellFormed lib) {extra : List (PyStr × Json)}
    (hextra : ∀ m ∈ extra, m.1 ∉ s.readKeys) :
    tsMapping (s.members ++ extra) (memberTypes (s.members ++ extra)) =
      tsMapping s.members (memberTypes s.members) := by
  have hnone : ∀ key ∈ s.readKeys, extra.lookup key = none := fun key hkey =>
    lookup_eq_none_of_keys fun m hm heq => hextra m hm (heq ▸ hkey)
  match s with
  | .ref name => rfl
  | .enum values =>
    have href : ((Schema.enum values).members ++ extra).lookup (py "$ref") = none :=
      hnone _ (by decide : py "$ref" ∈ schemaKeys.take 2)
    unfold tsMapping
    rw [href]
    rfl
  | .composite .anyOf schemas =>
    have href : ((Schema.composite .anyOf schemas).members ++ extra).lookup (py "$ref") = none :=
      hnone _ (by decide : py "$ref" ∈ schemaKeys.take 3)
    have henum : ((Schema.composite .anyOf schemas).members ++ extra).lookup (py "enum") = none :=
      hnone _ (by decide : py "enum" ∈ schemaKeys.take 3)
    unfold tsMapping
    rw [href, henum]
    rfl
  | .composite .oneOf schemas =>
    have href : ((Schema.composite .oneOf schemas).members ++ extra).lookup (py "$ref") = none :=
      hnone _ (by decide : py "$ref" ∈ schemaKeys.take 4)
    have henum : ((Schema.composite .oneOf schemas).members ++ extra).lookup (py "enum") = none :=
      hnone _ (by decide : py "enum" ∈ schemaKeys.take 4)
    have hany : ((Schema.composite .oneOf schemas).members ++ extra).lookup (py "anyOf") = none :=
      hnone _ (by decide : py "anyOf" ∈ schemaKeys.take 4)
    unfold tsMapping
    rw [href, henum, List.find?_cons, hany]
    rfl
  | .composite .allOf schemas =>
    have href : ((Schema.composite .allOf schemas).members ++ extra).lookup (py "$ref") = none :=
      hnone _ (by decide : py "$ref" ∈ schemaKeys.take 5)
    have henum : ((Schema.composite .allOf schemas).members ++ extra).lookup (py "enum") = none :=
      hnone _ (by decide : py "enum" ∈ schemaKeys.take 5)
    have hany : ((Schema.composite .allOf schemas).members ++ extra).lookup (py "anyOf") = none :=
      hnone _ (by decide : py "anyOf" ∈ schemaKeys.take 5)
    have hone : ((Schema.composite .allOf schemas).members ++ extra).lookup (py "oneOf") = none :=
      hnone _ (by decide : py "oneOf" ∈ schemaKeys.take 5)
    unfold tsMapping
    rw [href, henum, List.find?_cons, hany, List.find?_cons, hone]
    rfl
  | .noted s notes =>
    have hboth : ∀ m ∈ notes.members ++ extra, m.1 ∉ s.readKeys := fun m hm =>
      (List.mem_append.mp hm).elim (annotations_unread s notes m) (hextra m)
    show tsMapping (s.members ++ notes.members ++ extra) (memberTypes (s.members ++ notes.members ++ extra)) =
      tsMapping (s.members ++ notes.members) (memberTypes (s.members ++ notes.members))
    rw [List.append_assoc, tsMapping_unread s h hboth, tsMapping_unread s h (annotations_unread s notes)]
  | .beside s unread =>
    have hboth : ∀ m ∈ unread.members ++ extra, m.1 ∉ s.readKeys := fun m hm =>
      (List.mem_append.mp hm).elim (h.2 m) (hextra m)
    show tsMapping (s.members ++ unread.members ++ extra) (memberTypes (s.members ++ unread.members ++ extra)) =
      tsMapping (s.members ++ unread.members) (memberTypes (s.members ++ unread.members))
    rw [List.append_assoc, tsMapping_unread s h.1 hboth, tsMapping_unread s h.1 h.2]
  | .any | .array _ | .bareArray | .prim _ | .object _ | .map _ => exact tsMapping_append _ hextra

/-! ### The text of a schema -/

section

variable {lib : TsLibrary}

theorem addBrackets_ne_nil {ops : List TsOperand} (h : ops ≠ []) : addBrackets ops ≠ [] := by
  cases ops with
  | nil => exact absurd rfl h
  | cons o ops => cases ops <;> exact List.cons_ne_nil _ _

mutual
theorem Schema.operands_ne_nil (s : Schema) (h : s.WellFormed lib) : s.operands lib ≠ [] := by
  cases s with
  | enum values => exact fun hnil => h.1 (List.map_eq_nil_iff.mp hnil)
  | composite kind schemas => exact operandsOf_ne_nil schemas h.1 h.2
  | array items => exact addBrackets_ne_nil (items.operands_ne_nil h)
  | prim p => cases p <;> exact List.cons_ne_nil _ _
  | noted s notes => exact s.operands_ne_nil h
  | beside s unread => exact s.operands_ne_nil h.1
  | _ => exact List.cons_ne_nil _ _
theorem operandsOf_ne_nil (schemas : List Schema) (hne : schemas ≠ []) (h : wellFormedSchemas lib schemas) :
    operandsOf lib schemas ≠ [] := by
  cases schemas with
  | nil => exact absurd rfl hne
  | cons s schemas => exact fun hnil => s.operands_ne_nil h.1 (List.append_eq_nil_iff.mp hnil).1
end

theorem allTexts_some {α : Type} (f : α → PyStr) (l : List α) : allTexts (l.map fun a => some (f a)) = some (l.map f) := by
  induction l with
  | nil => rfl
  | cons a l ih =>
    rw [List.map_cons, allTexts, ih]
    rfl

/-- The texts of the members, joined, are the alternatives of all of them. -/
theorem joinBar_operandsOf {schemas : List Schema} (hne : schemas ≠ []) (h : wellFormedSchemas lib schemas) :
    joinBar ((operandsOf lib schemas).map TsOperand.full) = joinBar (schemas.map (Schema.text lib)) := by
  induction schemas with
  | nil => exact absurd rfl hne
  | cons s schemas ih =>
    cases schemas with
    | nil =>
      show joinBar ((s.operands lib ++ []).map TsOperand.full) = joinBar ((s.operands lib).map TsOperand.full)
      rw [List.append_nil]
    | cons s' schemas =>
      have hrest := ih (List.cons_ne_nil s' schemas) h.2
      have hfirst := s.operands_ne_nil h.1
      have hsecond := operandsOf_ne_nil (s' :: schemas) (List.cons_ne_nil _ _) h.2
      show joinBar ((s.operands lib ++ operandsOf lib (s' :: schemas)).map TsOperand.full) = _
      rw [List.map_append, joinBar_append (mt List.map_eq_nil_iff.mp hfirst) (mt List.map_eq_nil_iff.mp hsecond),
        hrest]
      rfl

theorem lastSegment_name {name : PyStr} (h : IsTypeName lib name) :
    lastSegment (py "#/components/schemas/" ++ name) = name := by
  have hslash : ∀ c ∈ name.reverse, (c != 47) = true := by
    intro c hc
    have hpart := List.all_eq_true.mp h.1.2 c (List.mem_reverse.mp hc)
    have hmark : isIdPart lib 47 = false := rfl
    rw [bne_iff_ne]
    rintro rfl
    rw [hmark] at hpart
    cases hpart
  have hrest : (py "#/components/schemas/").reverse = 47 :: (py "#/components/schemas").reverse := rfl
  unfold lastSegment
  rw [List.reverse_append, List.takeWhile_append_of_pos hslash, hrest, List.takeWhile_cons_of_neg (by decide),
    List.append_nil, List.reverse_reverse]

mutual
/-- **The text that is written for a schema.** -/
theorem Schema.tsType_json (s : Schema) (h : s.WellFormed lib) : tsType s.json = some (s.text lib) := by
  cases s with
  | any => rfl
  | ref name =>
    show some (lastSegment (py "#/components/schemas/" ++ name)) = some (name ++ [])
    rw [lastSegment_name h, List.append_nil]
  | enum values =>
    have htexts : (values.map (literalOperand lib)).map TsOperand.full = values.map Json.dumpsDefault := by
      rw [List.map_map]
      exact List.map_congr_left fun value _ => TsOperand.full_zero _ _
    show some (joinBar (values.map Json.dumpsDefault)) = some (joinBar ((values.map (literalOperand lib)).map _))
    rw [htexts]
  | composite kind schemas =>
    have htypes := valueTypes_schemaItems schemas h.2
    have hbody : tsType (Schema.composite kind schemas).json =
        (allTexts (valueTypes (schemaItems schemas))).map joinBar := by
      cases kind <;> rfl
    rw [hbody, htypes, allTexts_some, Option.map_some, ← joinBar_operandsOf h.1 h.2]
    rfl
  | array items =>
    have hitems := items.tsType_json h
    have hbody : tsType (Schema.array items).json = (tsType items.json).map (· ++ py "[]") := rfl
    rw [hbody, hitems, Option.map_some]
    exact congrArg some (joinBar_addBrackets (items.operands_ne_nil h)).symm
  | bareArray => rfl
  | prim p => cases p <;> rfl
  | object additional =>
    cases additional with
    | none => rfl
    | some additional => rfl
  | map values =>
    have hvalues := values.tsType_json h
    have hbody : tsType (Schema.map values).json =
        (tsType values.json).map fun t => py "Record<string, " ++ t ++ py ">" := rfl
    rw [hbody, hvalues, Option.map_some]
    exact congrArg some (TsOperand.full_zero _ _).symm
  | noted s notes =>
    have hs := s.tsType_json h
    show tsMapping (s.members ++ notes.members) (memberTypes (s.members ++ notes.members)) = _
    rw [tsMapping_unread s h (annotations_unread s notes)]
    exact hs
  | beside s unread =>
    have hs := s.tsType_json h.1
    show tsMapping (s.members ++ unread.members) (memberTypes (s.members ++ unread.members)) = _
    rw [tsMapping_unread s h.1 h.2]
    exact hs
theorem valueTypes_schemaItems (schemas : List Schema) (h : wellFormedSchemas lib schemas) :
    valueTypes (schemaItems schemas) = schemas.map fun s => some (s.text lib) := by
  cases schemas with
  | nil => rfl
  | cons s schemas =>
    have hs : tsType (.obj s.members) = _ := s.tsType_json h.1
    rw [schemaItems, valueTypes, hs, valueTypes_schemaItems schemas h.2, List.map_cons]
end

/-! ### The text is read -/

theorem TsOperand.Readable.addBracket {o : TsOperand} (ho : o.Readable lib) (n : Nat) :
    ({ o with brackets := n } : TsOperand).Readable lib := ⟨ho.head, ho.single, ho.reads⟩

theorem readable_addBrackets {ops : List TsOperand} (h : ∀ o ∈ ops, o.Readable lib) :
    ∀ o ∈ addBrackets ops, o.Readable lib := by
  induction ops with
  | nil => exact h
  | cons o ops ih =>
    obtain ⟨ho, hops⟩ := List.forall_mem_cons.mp h
    cases ops with
    | nil => exact List.forall_mem_singleton.mpr (ho.addBracket _)
    | cons p ops => exact List.forall_mem_cons.mpr ⟨ho, ih hops⟩

theorem dumpsDefaultItems_eq (values : List Json) :
    dumpsDefaultItems values = (values.map (literalOperand lib)).map TsOperand.full := by
  induction values with
  | nil => rfl
  | cons value values ih =>
    rw [dumpsDefaultItems, ih, List.map_cons, List.map_cons, literalOperand, TsOperand.full_zero]

theorem literalTypes_eq (values : List Json) :
    literalTypes lib values = (values.map (literalOperand lib)).map TsOperand.tsType := by
  induction values with
  | nil => rfl
  | cons value values ih =>
    rw [literalTypes, ih]
    rfl

mutual
/-- A literal is read as the type of its value. -/
theorem Json.readable_literal (value : Json) (h : value.Literal) : (literalOperand lib value).Readable lib := by
  cases value with
  | null =>
    have hword : (py "null", TsType.null) ∈ tsKeywords := by simp [tsKeywords]
    exact readable_keyword hword
  | bool b =>
    cases b with
    | true =>
      have hword : (py "true", TsType.boolLit true) ∈ tsKeywords := by simp [tsKeywords]
      exact readable_keyword hword
    | false =>
      have hword : (py "false", TsType.boolLit false) ∈ tsKeywords := by simp [tsKeywords]
      exact readable_keyword hword
  | int n => exact readable_numeral (isNumeral_intText n)
  | float f => exact readable_numeral h
  | str s => exact readable_stringText s
  | arr items =>
    have hitems := readable_literals items h
    have htuple := readable_tuple hitems
    rw [← dumpsDefaultItems_eq, ← literalTypes_eq] at htuple
    exact htuple
  | obj members => exact h.elim
theorem readable_literals (values : List Json) (h : literalItems values) :
    ∀ o ∈ values.map (literalOperand lib), o.Readable lib := by
  cases values with
  | nil => exact nofun
  | cons value values => exact List.forall_mem_cons.mpr ⟨value.readable_literal h.1, readable_literals values h.2⟩
end

theorem readable_unknown : (wordOperand (py "unknown") .unknown).Readable lib :=
  readable_keyword (by simp [tsKeywords])

mutual
theorem Schema.readable (s : Schema) (h : s.WellFormed lib) : ∀ o ∈ s.operands lib, o.Readable lib := by
  cases s with
  | any => exact List.forall_mem_singleton.mpr readable_unknown
  | ref name => exact List.forall_mem_singleton.mpr (readable_name h)
  | enum values => exact readable_literals values h.2
  | composite kind schemas => exact readable_operandsOf schemas h.2
  | array items => exact readable_addBrackets (items.readable h)
  | bareArray => exact readable_addBrackets (List.forall_mem_singleton.mpr readable_unknown)
  | prim p =>
    cases p with
    | string => exact List.forall_mem_singleton.mpr (readable_keyword (by simp [tsKeywords]))
    | integer => exact List.forall_mem_singleton.mpr (readable_keyword (by simp [tsKeywords]))
    | number => exact List.forall_mem_singleton.mpr (readable_keyword (by simp [tsKeywords]))
    | boolean => exact List.forall_mem_singleton.mpr (readable_keyword (by simp [tsKeywords]))
    | null => exact List.forall_mem_singleton.mpr (readable_keyword (by simp [tsKeywords]))
  | object additional =>
    exact List.forall_mem_singleton.mpr (readable_record (List.forall_mem_singleton.mpr readable_unknown))
  | map values =>
    have hvalues := values.readable h
    obtain ⟨o, ops, hops⟩ := List.exists_cons_of_ne_nil (values.operands_ne_nil h)
    have hrecord := readable_record (hops ▸ hvalues)
    rw [← hops] at hrecord
    exact List.forall_mem_singleton.mpr hrecord
  | noted s notes => exact s.readable h
  | beside s unread => exact s.readable h.1
theorem readable_operandsOf (schemas : List Schema) (h : wellFormedSchemas lib schemas) :
    ∀ o ∈ operandsOf lib schemas, o.Readable lib := by
  cases schemas with
  | nil => exact nofun
  | cons s schemas =>
    exact fun o ho => (List.mem_append.mp ho).elim (s.readable h.1 o) (readable_operandsOf schemas h.2 o)
end

/-- **The text is read as the union of its operands.** -/
theorem Schema.readTs_text (s : Schema) (h : s.WellFormed lib) : readTs lib (s.text lib) = some (s.reading lib) := by
  have hread := s.readable h
  obtain ⟨o, ops, hops⟩ := List.exists_cons_of_ne_nil (s.operands_ne_nil h)
  unfold Schema.text Schema.reading
  rw [hops] at hread ⊢
  exact readTs_operands hread

/-! ### The text and the prescribed type -/

/-- Operands that are read have types of one alternative each. -/
theorem alternatives_reading {s : Schema} (h : s.WellFormed lib) :
    (s.reading lib).alternatives = (s.operands lib).map TsOperand.tsType := by
  have hread := s.readable h
  unfold Schema.reading
  cases hops : s.operands lib with
  | nil => rfl
  | cons o ops =>
    cases ops with
    | nil => 
      rw [hops] at hread
      exact (hread o List.mem_cons_self).alternatives
    | cons p ops => rfl

theorem length_addBrackets (ops : List TsOperand) : (addBrackets ops).length = ops.length := by
  induction ops with
  | nil => rfl
  | cons o ops ih =>
    cases ops with
    | nil => rfl
    | cons p ops => exact congrArg (· + 1) ih

mutual
theorem Schema.length_operands (s : Schema) : (s.operands lib).length = s.width := by
  cases s with
  | enum values => exact List.length_map _
  | composite kind schemas => exact length_operandsOf schemas
  | array items => exact (length_addBrackets _).trans items.length_operands
  | prim p => cases p <;> rfl
  | noted s notes => exact s.length_operands
  | beside s unread => exact s.length_operands
  | _ => rfl
theorem length_operandsOf (schemas : List Schema) : (operandsOf lib schemas).length = totalWidth schemas := by
  cases schemas with
  | nil => rfl
  | cons s schemas =>
    rw [operandsOf, List.length_append, s.length_operands, length_operandsOf schemas, totalWidth]
end

/-- The type of an array: the brackets are read with the last operand. -/
theorem reading_array {items : Schema} {o : TsOperand} (hops : items.operands lib = [o]) :
    (Schema.array items).reading lib = .array (items.reading lib) := by
  show TsType.ofAlternatives ((addBrackets (items.operands lib)).map TsOperand.tsType) = 
    .array (TsType.ofAlternatives ((items.operands lib).map TsOperand.tsType))
  rw [hops]
  exact TsType.arrayOf_succ o.brackets o.type

theorem reading_array_union {items : Schema} {o p : TsOperand} {ops : List TsOperand}
    (hops : items.operands lib = o :: p :: ops) :
    (Schema.array items).reading lib = .union (o.tsType :: (addBrackets (p :: ops)).map TsOperand.tsType) := by
  show TsType.ofAlternatives ((addBrackets (items.operands lib)).map TsOperand.tsType) = _
  rw [hops]
  cases ops <;> rfl

mutual
/-- The types that a schema's alternatives are read as are those prescribed, where nothing needs parentheses. -/
theorem Schema.reading_of_flat (s : Schema) (h : s.WellFormed lib) (hflat : s.Flat) :
    s.reading lib = s.prescribed lib := by
  cases s with
  | any => rfl
  | ref name => rfl
  | enum values =>
    show TsType.ofAlternatives ((values.map (literalOperand lib)).map TsOperand.tsType) = _
    rw [← literalTypes_eq]
    rfl
  | composite kind schemas =>
    have hparts := alternatives_of_flat schemas h.2 hflat.2
    cases kind with
    | allOf =>
      obtain ⟨s, rfl⟩ := List.length_eq_one_iff.mp (hflat.1 rfl)
      have hs := s.reading_of_flat h.2.1 hflat.2.1
      show TsType.ofAlternatives ((s.operands lib ++ []).map TsOperand.tsType) = s.prescribed lib
      rw [List.append_nil]
      exact hs
    | anyOf => exact congrArg TsType.ofAlternatives hparts
    | oneOf => exact congrArg TsType.ofAlternatives hparts
  | array items =>
    have hitems := items.reading_of_flat h hflat.2
    obtain ⟨o, ho⟩ := List.length_eq_one_iff.mp ((@Schema.length_operands lib items).trans hflat.1)
    rw [reading_array ho, hitems]
    rfl
  | bareArray => rfl
  | prim p => cases p <;> rfl
  | object additional =>
    cases additional with
    | none => rfl
    | some additional =>
      cases additional with
      | false => exact absurd rfl h
      | true => rfl
  | map values => exact congrArg TsType.record (values.reading_of_flat h hflat)
  | noted s notes => exact s.reading_of_flat h hflat
  | beside s unread => exact s.reading_of_flat h.1 hflat
theorem alternatives_of_flat (schemas : List Schema) (h : wellFormedSchemas lib schemas)
    (hflat : flatSchemas schemas) :
    (operandsOf lib schemas).map TsOperand.tsType = prescribedAlternatives lib schemas := by
  cases schemas with
  | nil => rfl
  | cons s schemas =>
    have hs := s.reading_of_flat h.1 hflat.1
    have hrest := alternatives_of_flat schemas h.2 hflat.2
    rw [operandsOf, List.map_append, hrest, prescribedAlternatives, ← hs, alternatives_reading h.1]
end

/-- A type in normal form, of at most `width` alternatives. -/
structure TsType.Shaped (t : TsType) (width : Nat) : Prop where
  single : ∀ a ∈ t.alternatives, a.alternatives = [a]
  normal : TsType.ofAlternatives t.alternatives = t
  length : t.alternatives.length ≤ width

theorem TsType.alternatives_ofAlternatives {ts : List TsType} (h : ∀ t ∈ ts, t.alternatives = [t]) :
    (TsType.ofAlternatives ts).alternatives = ts := by
  match ts with
  | [] => rfl
  | [t] => exact h t List.mem_cons_self
  | _ :: _ :: _ => rfl

theorem shaped_ofAlternatives {ts : List TsType} (h : ∀ t ∈ ts, t.alternatives = [t]) {width : Nat}
    (hlength : ts.length ≤ width) : (TsType.ofAlternatives ts).Shaped width := by
  have halternatives := TsType.alternatives_ofAlternatives h
  refine ⟨?_, ?_, ?_⟩
  · rw [halternatives]
    exact h
  · rw [halternatives]
  · rw [halternatives]
    exact hlength

theorem shaped_single {t : TsType} (h : t.alternatives = [t]) {width : Nat} (hwidth : 1 ≤ width) : t.Shaped width := by
  refine ⟨?_, ?_, ?_⟩
  · rw [h]
    exact List.forall_mem_singleton.mpr h
  · rw [h]
    rfl
  · rw [h]
    exact hwidth

theorem width_pos {s : Schema} (h : s.WellFormed lib) : 1 ≤ s.width := by
  rw [← @Schema.length_operands lib s]
  exact List.length_pos_of_ne_nil (s.operands_ne_nil h)

mutual
theorem Schema.shaped_prescribed (s : Schema) (h : s.WellFormed lib) : (s.prescribed lib).Shaped s.width := by
  cases s with
  | enum values =>
    refine shaped_ofAlternatives ?_ ?_
    · rw [literalTypes_eq]
      intro t ht
      obtain ⟨o, ho, rfl⟩ := List.mem_map.mp ht
      exact (readable_literals values h.2 o ho).alternatives
    · rw [literalTypes_eq, List.length_map, List.length_map]
      exact Nat.le_refl _
  | composite kind schemas =>
    obtain ⟨hsingle, hlength⟩ := shaped_prescribedAlternatives schemas h.2
    cases kind with
    | allOf =>
      have hwidth : 1 ≤ (Schema.composite .allOf schemas).width := width_pos h
      match schemas, h with
      | [s], h => exact s.shaped_prescribed h.2.1
      | [], h => exact absurd rfl h.1
      | _ :: _ :: _, _ => exact shaped_single rfl hwidth
    | anyOf => exact shaped_ofAlternatives hsingle hlength
    | oneOf => exact shaped_ofAlternatives hsingle hlength
  | array items => exact shaped_single rfl (@width_pos lib (.array items) h)
  | prim p => cases p <;> exact shaped_single rfl (Nat.le_refl 1)
  | object additional =>
    cases additional with
    | none => exact shaped_single rfl (Nat.le_refl 1)
    | some additional => cases additional <;> exact shaped_single rfl (Nat.le_refl 1)
  | noted s notes => exact s.shaped_prescribed h
  | beside s unread => exact s.shaped_prescribed h.1
  | _ => exact shaped_single rfl (Nat.le_refl 1)
theorem shaped_prescribedAlternatives (schemas : List Schema) (h : wellFormedSchemas lib schemas) :
    (∀ t ∈ prescribedAlternatives lib schemas, t.alternatives = [t]) ∧
      (prescribedAlternatives lib schemas).length ≤ totalWidth schemas := by
  cases schemas with
  | nil => exact ⟨nofun, Nat.le_refl 0⟩
  | cons s schemas =>
    have hs := s.shaped_prescribed h.1
    obtain ⟨hsingle, hlength⟩ := shaped_prescribedAlternatives schemas h.2
    refine ⟨fun t ht => (List.mem_append.mp ht).elim (hs.single t) (hsingle t), ?_⟩
    rw [prescribedAlternatives, List.length_append, totalWidth]
    exact Nat.add_le_add hs.length hlength
end

mutual
/-- Elsewhere they are not. -/
theorem Schema.flat_of_reading (s : Schema) (h : s.WellFormed lib) (heq : s.reading lib = s.prescribed lib) :
    s.Flat := by
  cases s with
  | composite kind schemas =>
    have hparts : kind ≠ .allOf → flatSchemas schemas := by
      intro hkind
      have hprescribed : (Schema.composite kind schemas).prescribed lib =
          .ofAlternatives (prescribedAlternatives lib schemas) := by
        cases kind with
        | allOf => exact absurd rfl hkind
        | anyOf => rfl
        | oneOf => rfl
      have halternatives := congrArg TsType.alternatives heq
      rw [alternatives_reading h, hprescribed,
        TsType.alternatives_ofAlternatives (shaped_prescribedAlternatives schemas h.2).1] at halternatives
      exact flat_of_alternatives schemas h.2 halternatives
    cases kind with
    | allOf =>
      match schemas, h, heq with
      | [s], h, heq =>
        have hs : TsType.ofAlternatives ((s.operands lib ++ []).map TsOperand.tsType) = s.prescribed lib := heq
        rw [List.append_nil] at hs
        exact ⟨fun _ => rfl, s.flat_of_reading h.2.1 hs, trivial⟩
      | [], h, _ => exact absurd rfl h.1
      | s :: s' :: schemas, h, heq =>
        have hcount := congrArg (fun t => t.alternatives.length) heq
        rw [alternatives_reading h, List.length_map, Schema.length_operands] at hcount
        have htotal : s.width + (s'.width + totalWidth schemas) = 1 := hcount
        have hfirst := width_pos h.2.1
        have hsecond := width_pos h.2.2.1
        omega
    | anyOf => exact ⟨nofun, hparts (by decide)⟩
    | oneOf => exact ⟨nofun, hparts (by decide)⟩
  | array items =>
    cases hops : items.operands lib with
    | nil => exact absurd hops (items.operands_ne_nil h)
    | cons o ops =>
      cases ops with
      | nil =>
        rw [reading_array hops] at heq
        have hwidth : items.width = 1 := by rw [← @Schema.length_operands lib items, hops]; rfl
        exact ⟨hwidth, items.flat_of_reading h (TsType.array.inj heq)⟩
      | cons p ops =>
        rw [reading_array_union hops] at heq
        cases heq
  | map values => exact values.flat_of_reading h (TsType.record.inj heq)
  | noted s notes => exact s.flat_of_reading h heq
  | beside s unread => exact s.flat_of_reading h.1 heq
  | _ => trivial
theorem flat_of_alternatives (schemas : List Schema) (h : wellFormedSchemas lib schemas)
    (heq : (operandsOf lib schemas).map TsOperand.tsType = prescribedAlternatives lib schemas) :
    flatSchemas schemas := by
  cases schemas with
  | nil => trivial
  | cons s schemas =>
    have hs := s.shaped_prescribed h.1
    have hrest := (shaped_prescribedAlternatives schemas h.2).2
    have htotal := congrArg List.length heq
    rw [List.length_map, length_operandsOf, totalWidth, prescribedAlternatives, List.length_append] at htotal
    have hwidth : ((s.operands lib).map TsOperand.tsType).length = (s.prescribed lib).alternatives.length := by
      have hlength := hs.length
      rw [List.length_map, s.length_operands]
      omega
    rw [operandsOf, List.map_append, prescribedAlternatives] at heq
    obtain ⟨hfirst, hothers⟩ := List.append_inj heq hwidth
    refine ⟨s.flat_of_reading h.1 ?_, flat_of_alternatives schemas h.2 hothers⟩
    rw [Schema.reading, hfirst, hs.normal]
end

/-- **The text is read as the prescribed type if, and only if, nothing in it needs parentheses or an intersection.** -/
theorem Schema.reading_eq_iff {s : Schema} (h : s.WellFormed lib) : s.reading lib = s.prescribed lib ↔ s.Flat :=
  ⟨s.flat_of_reading h, s.reading_of_flat h⟩

end

/-! ### The prescribed type and the values -/

section

variable {lib : TsLibrary} {env : PyStr → JsValue → Prop}

mutual
theorem denotes_literalType (j : Json) (v : JsValue) :
    (literalType lib j).Denotes lib.otherNumber env v ↔ j.Equal lib.otherNumber v := by
  cases j with
  | arr items => exact exists_congr fun values => and_congr_right fun _ => denoteItems_literalTypes items values
  | _ => exact Iff.rfl
theorem denoteItems_literalTypes (items : List Json) (values : List JsValue) :
    denoteItems lib.otherNumber env (literalTypes lib items) values ↔ equalItems lib.otherNumber items values := by
  cases items with
  | nil => exact Iff.rfl
  | cons j items =>
    exact exists_congr fun v => exists_congr fun rest => and_congr_right fun _ =>
      and_congr (denotes_literalType j v) (denoteItems_literalTypes items rest)
end

theorem denoteSome_literalTypes (values : List Json) (v : JsValue) :
    (∃ t ∈ literalTypes lib values, t.Denotes lib.otherNumber env v) ↔ ∃ j ∈ values, j.Equal lib.otherNumber v := by
  induction values with
  | nil => simp [literalTypes]
  | cons j values ih => rw [literalTypes, List.exists_mem_cons_iff, List.exists_mem_cons_iff, ih, denotes_literalType]

mutual
/-- **The prescribed type denotes the values that the schema describes.** -/
theorem Schema.denotes_prescribed (s : Schema) (h : s.Redundant lib.otherNumber env) (v : JsValue) :
    (s.prescribed lib).Denotes lib.otherNumber env v ↔ s.Describes lib.otherNumber env v := by
  cases s with
  | any => exact Iff.rfl
  | ref name => exact Iff.rfl
  | enum values => exact denotes_ofAlternatives.trans (denoteSome_literalTypes values v)
  | composite kind schemas =>
    cases kind with
    | allOf =>
      match schemas, h with
      | [s], h => exact (s.denotes_prescribed h.1 v).trans ⟨fun h => ⟨h, trivial⟩, fun h => h.1⟩
      | [], _ => exact denotes_prescribedTypes [] trivial v
      | s :: s' :: schemas, h => exact denotes_prescribedTypes (s :: s' :: schemas) h v
    | anyOf => exact denotes_ofAlternatives.trans (denotes_prescribedAlternatives schemas h v)
    | oneOf => exact denotes_ofAlternatives.trans (denotes_prescribedAlternatives schemas h v)
  | array items =>
    exact exists_congr fun values => and_congr_right fun _ => forall_congr' fun w => forall_congr' fun _ =>
      items.denotes_prescribed h w
  | bareArray => exact exists_congr fun _ => ⟨fun h => h.1, fun h => ⟨h, fun _ _ => trivial⟩⟩
  | prim p => cases p <;> exact Iff.rfl
  | object additional =>
    have hopen : (TsType.record .unknown).Denotes lib.otherNumber env v ↔ ∃ members, v = .obj members :=
      exists_congr fun _ => ⟨fun h => h.1, fun h => ⟨h, fun _ _ => trivial⟩⟩
    match additional with
    | none => exact hopen
    | some true => exact hopen
    | some false =>
      constructor
      · rintro ⟨values, rfl, hlength, -⟩
        exact congrArg JsValue.obj (List.length_eq_zero_iff.mp hlength.symm)
      · rintro rfl
        exact ⟨[], rfl, rfl, trivial⟩
  | map values =>
    exact exists_congr fun members => and_congr_right fun _ => forall_congr' fun m => forall_congr' fun _ =>
      values.denotes_prescribed h m.2
  | noted s notes => exact s.denotes_prescribed h v
  | beside s unread => exact (s.denotes_prescribed h.1 v).trans ⟨fun hs => ⟨hs, h.2 v hs⟩, fun hboth => hboth.1⟩
theorem denotes_prescribedTypes (schemas : List Schema) (h : redundantSchemas lib.otherNumber env schemas)
    (v : JsValue) :
    denoteAll lib.otherNumber env (prescribedTypes lib schemas) v ↔ describeAll lib.otherNumber env schemas v := by
  cases schemas with
  | nil => exact Iff.rfl
  | cons s schemas => exact and_congr (s.denotes_prescribed h.1 v) (denotes_prescribedTypes schemas h.2 v)
theorem denotes_prescribedAlternatives (schemas : List Schema) (h : redundantSchemas lib.otherNumber env schemas)
    (v : JsValue) :
    (∃ t ∈ prescribedAlternatives lib schemas, t.Denotes lib.otherNumber env v) ↔
      describeSome lib.otherNumber env schemas v := by
  cases schemas with
  | nil => simp [prescribedAlternatives, describeSome]
  | cons s schemas =>
    have hs : (∃ t ∈ (s.prescribed lib).alternatives, t.Denotes lib.otherNumber env v) ↔ _ :=
      denotes_alternatives.trans (s.denotes_prescribed h.1 v)
    rw [prescribedAlternatives, describeSome, ← hs, ← denotes_prescribedAlternatives schemas h.2 v]
    simp only [List.mem_append, or_and_right, exists_or]
end

end

/-! ### Enumerations beside a type -/

/-- `{"type": p}` describes the value of the document. -/
def Primitive.Has : Primitive → Json → Prop
  | .string, .str _ | .integer, .int _ | .integer, .float _ | .number, .int _ | .number, .float _ => True
  | .boolean, .bool _ | .null, .null => True
  | _, _ => False

section

variable {otherNumber : PyStr → JsNum} {env : PyStr → JsValue → Prop}

mutual
/-- A literal is the value of some expression. -/
theorem exists_equal (j : Json) (h : j.Literal) : ∃ v, j.Equal otherNumber v := by
  cases j with
  | arr items =>
    obtain ⟨values, hvalues⟩ := exists_equalItems items h
    exact ⟨.arr values, values, rfl, hvalues⟩
  | obj members => exact h.elim
  | _ => exact ⟨_, rfl⟩
theorem exists_equalItems (items : List Json) (h : literalItems items) :
    ∃ values, equalItems otherNumber items values := by
  cases items with
  | nil => exact ⟨[], rfl⟩
  | cons j items =>
    obtain ⟨v, hv⟩ := exists_equal j h.1
    obtain ⟨rest, hrest⟩ := exists_equalItems items h.2
    exact ⟨v :: rest, v, rest, rfl, hv, hrest⟩
end

theorem literal_of_mem {values : List Json} (h : literalItems values) {j : Json} (hj : j ∈ values) : j.Literal := by
  induction values with
  | nil => cases hj
  | cons value values ih =>
    rcases List.mem_cons.mp hj with rfl | hj
    · exact h.1
    · exact ih h.2 hj

theorem describes_prim_iff {j : Json} {v : JsValue} (h : j.Equal otherNumber v) (p : Primitive) :
    (Schema.prim p).Describes otherNumber env v ↔ p.Has j := by
  cases j with
  | arr items =>
    obtain ⟨values, rfl, -⟩ := h
    cases p <;> simp [Schema.Describes, Primitive.Has]
  | obj members =>
    obtain ⟨values, rfl, -⟩ := h
    cases p <;> simp [Schema.Describes, Primitive.Has]
  | _ =>
    cases h
    cases p <;> simp [Schema.Describes, Primitive.Has]

/-- A type beside an enumeration rules out no value if, and only if, all values are of that type. -/
theorem redundant_enum_iff {values : List Json} (h : literalItems values) {p : Primitive} :
    ((Schema.enum values).beside (.prim p)).Redundant otherNumber env ↔ ∀ j ∈ values, p.Has j := by
  constructor
  · rintro ⟨-, hall⟩ j hj
    obtain ⟨v, hv⟩ := @exists_equal otherNumber j (literal_of_mem h hj)
    exact (describes_prim_iff hv p).mp (hall v ⟨j, hj, hv⟩)
  · rintro hall
    refine ⟨trivial, ?_⟩
    rintro v ⟨j, hj, hv⟩
    exact (describes_prim_iff hv p).mpr (hall j hj)

end

/-! ### The types that are generated -/

/-- The text that is written for a schema is read as a type that denotes exactly the values that it describes. -/
def Schema.Exact (lib : TsLibrary) (env : PyStr → JsValue → Prop) (s : Schema) : Prop :=
  ∃ text t, tsType s.json = some text ∧ readTs lib text = some t ∧
    ∀ v, t.Denotes lib.otherNumber env v ↔ s.Describes lib.otherNumber env v

theorem Schema.Exact.reading {lib : TsLibrary} {env : PyStr → JsValue → Prop} {s : Schema} (h : s.WellFormed lib)
    (hexact : s.Exact lib env) (v : JsValue) :
    (s.reading lib).Denotes lib.otherNumber env v ↔ s.Describes lib.otherNumber env v := by
  obtain ⟨text, t, htext, hread, hdenotes⟩ := hexact
  rw [s.tsType_json h] at htext
  cases htext
  rw [s.readTs_text h] at hread
  cases hread
  exact hdenotes v

/-- **Generated types are exact where nothing needs parentheses or an intersection.** The text of a well-formed schema
is always a type; it is the prescribed one if, and only if, the items of arrays are written as one alternative each
and `allOf` has one member. It then denotes exactly the values that the schema describes if the keywords beside those
that are read rule out none of them; where those beside the outermost one rule out a value, it does not. -/
theorem ts_type_exact (lib : TsLibrary) (s : Schema) (h : s.WellFormed lib) :
    (∃ text t, tsType s.json = some text ∧ readTs lib text = some t ∧ (t = s.prescribed lib ↔ s.Flat)) ∧
    (∀ env, s.Redundant lib.otherNumber env → ∀ v,
      (s.prescribed lib).Denotes lib.otherNumber env v ↔ s.Describes lib.otherNumber env v) ∧
    (s.Flat → ∀ env, s.Redundant lib.otherNumber env → s.Exact lib env) ∧
    (s.Flat → ∀ env, s.Redundant lib.otherNumber env → ∀ unread, (s.beside unread).WellFormed lib →
      ((s.beside unread).Exact lib env ↔ (s.beside unread).Redundant lib.otherNumber env)) := by
  have htext := s.tsType_json h
  have hread := s.readTs_text h
  have hexact : ∀ s : Schema, s.WellFormed lib → s.Flat → ∀ env, s.Redundant lib.otherNumber env → s.Exact lib env := by
    intro s h hflat env hredundant
    refine ⟨_, _, s.tsType_json h, s.readTs_text h, fun v => ?_⟩
    rw [s.reading_of_flat h hflat]
    exact s.denotes_prescribed hredundant v
  refine ⟨⟨_, _, htext, hread, s.reading_eq_iff h⟩, fun env => s.denotes_prescribed, hexact s h, ?_⟩
  intro hflat env hredundant unread hbeside
  refine ⟨fun hgenerated => ⟨hredundant, fun v hv => ?_⟩, hexact _ hbeside hflat env⟩
  have hdenotes := hgenerated.reading hbeside v
  have hreading : (s.beside unread).reading lib = s.prescribed lib := s.reading_of_flat h hflat
  rw [hreading, s.denotes_prescribed hredundant v] at hdenotes
  exact (hdenotes.mp hv).2

/-- ASCII identifiers. -/
def asciiTsLibrary : TsLibrary where
  otherStart _ := false
  otherPart _ := false
  otherNumber text := .other text

/-- The severities of a case, which are texts, and an enumeration beside `"type": "string"` with a value that is none. -/
theorem ts_type_exact_sample :
    (tsType ((Schema.enum [.str (py "low"), .str (py "high")]).beside (.prim .string)).json =
      some (py "\"low\" | \"high\"") ∧
    ∀ env, ((Schema.enum [.str (py "low"), .str (py "high")]).beside (.prim .string)).Exact asciiTsLibrary env) ∧
    (tsType (Schema.map (.array (.ref (py "ErrorBody")))).json = some (py "Record<string, ErrorBody[]>") ∧
    ∀ env, (Schema.map (.array (.ref (py "ErrorBody")))).Exact asciiTsLibrary env) ∧
    ∀ env, ¬((Schema.enum [.str (py "a"), .null]).beside (.prim .string)).Exact asciiTsLibrary env := by
  have hkeys : ∀ m ∈ (Schema.prim .string).members, m.1 ∉ schemaKeys.take 2 := by decide
  have hliterals : literalItems [.str (py "low"), .str (py "high")] := ⟨trivial, trivial, trivial⟩
  have hseverity : ((Schema.enum [.str (py "low"), .str (py "high")]).beside (.prim .string)).WellFormed
      asciiTsLibrary := ⟨⟨List.cons_ne_nil _ _, hliterals⟩, hkeys⟩
  have htexts : ∀ j ∈ [Json.str (py "low"), .str (py "high")], Primitive.string.Has j :=
    List.forall_mem_cons.mpr ⟨trivial, List.forall_mem_singleton.mpr trivial⟩
  have hname : IsTypeName asciiTsLibrary (py "ErrorBody") := ⟨⟨by decide, by decide⟩, by decide, by decide⟩
  have hnullable : literalItems [.str (py "a"), .null] := ⟨trivial, trivial, trivial⟩
  refine ⟨⟨by decide +kernel, fun env => ?_⟩, ⟨by decide +kernel, fun env => ?_⟩, fun env hexact => ?_⟩
  · exact (ts_type_exact asciiTsLibrary _ hseverity).2.2.1 trivial env
      ((redundant_enum_iff hliterals).mpr htexts)
  · exact (ts_type_exact asciiTsLibrary (.map (.array (.ref (py "ErrorBody")))) hname).2.2.1 ⟨rfl, trivial⟩ env trivial
  · have hredundant := ((ts_type_exact asciiTsLibrary (.enum [.str (py "a"), .null])
      ⟨List.cons_ne_nil _ _, hnullable⟩).2.2.2 trivial env trivial (.prim .string)
      ⟨⟨List.cons_ne_nil _ _, hnullable⟩, hkeys⟩).mp hexact
    exact (redundant_enum_iff hnullable).mp hredundant .null (List.mem_cons_of_mem _ List.mem_cons_self)

section

variable {lib : TsLibrary}

/-- An alternative in front of the last one is outside of the array: it lets in values that are no arrays. -/
theorem not_exact_array {items : Schema} (h : items.WellFormed lib) {o p : TsOperand} {ops : List TsOperand}
    (hops : items.operands lib = o :: p :: ops) {env : PyStr → JsValue → Prop} {v : JsValue}
    (hv : o.tsType.Denotes lib.otherNumber env v) (harray : ∀ values, v ≠ .arr values) :
    ¬(Schema.array items).Exact lib env := by
  intro hexact
  have harrayFormed : (Schema.array items).WellFormed lib := h
  have hdenotes := hexact.reading harrayFormed v
  rw [reading_array_union hops] at hdenotes
  obtain ⟨values, hvalues, -⟩ := hdenotes.mp (Or.inl hv)
  exact harray values hvalues

/-- A value of one alternative of `allOf` that another member does not describe is let in. -/
theorem not_exact_allOf {schemas : List Schema} (h : (Schema.composite .allOf schemas).WellFormed lib)
    {o : TsOperand} (ho : o ∈ operandsOf lib schemas) {env : PyStr → JsValue → Prop} {v : JsValue}
    (hv : o.tsType.Denotes lib.otherNumber env v) (hall : ¬describeAll lib.otherNumber env schemas v) :
    ¬(Schema.composite .allOf schemas).Exact lib env := by
  intro hexact
  have hdenotes := hexact.reading h v
  have hreading : ((Schema.composite .allOf schemas).reading lib).Denotes lib.otherNumber env v :=
    denotes_ofAlternatives.mpr ⟨o.tsType, List.mem_map.mpr ⟨o, ho, rfl⟩, hv⟩
  exact hall (hdenotes.mp hreading)

end

/-- `loc` of `ValidationError`: an array of strings and integers is written as `string | number[]`. -/
theorem loc_not_exact :
    ¬∃ env, (Schema.array (.composite .anyOf [.prim .string, .prim .integer])).Exact asciiTsLibrary env := by
  rintro ⟨env, hexact⟩
  have hwellFormed : (Schema.composite .anyOf [.prim .string, .prim .integer]).WellFormed asciiTsLibrary :=
    ⟨List.cons_ne_nil _ _, trivial, trivial, trivial⟩
  have hvalue : (TsType.string).Denotes asciiTsLibrary.otherNumber env (.str []) := ⟨[], rfl⟩
  exact not_exact_array hwellFormed rfl hvalue nofun hexact

end NetopsCopilot
