import NetopsCopilot.Python.Json
import NetopsCopilot.Python.Re

/-!
# Redaction for observability (`core/logging.py`)

`redact_for_observability` walks over a nested value: what lies below a sensitive key is replaced, collections and
texts are cut, and nothing is kept below the fifth level. A value is seen as the function sees it: a mapping by the
texts of its keys in iteration order, every list, tuple and set as the sequence of its items, and any other object
by its `str`.
-/

namespace NetopsCopilot

/-! ### Values -/

/-- The argument and the result of `redact_for_observability`. -/
inductive LogValue where
  | none
  | bool (b : Bool)
  | int (n : Int)
  | float (x : PyFloat)
  | str (s : PyStr)
  | mapping (entries : List (PyStr × LogValue))
  | sequence (items : List LogValue)
  /-- Any other object. -/
  | object (text : PyStr)

/-- The items of a mapping. -/
abbrev LogEntries := List (PyStr × LogValue)

/-- `entries[key] = value`. -/
def setEntry (entries : LogEntries) (key : PyStr) (value : LogValue) : LogEntries :=
  if entries.any fun e => e.1 == key then entries.map fun e => if e.1 == key then (e.1, value) else e
  else entries ++ [(key, value)]

/-- A dictionary of these items, where a later item replaces an earlier one of the same key. -/
def dictOf (entries : LogEntries) : LogEntries := entries.foldl (fun dict e => setEntry dict e.1 e.2) []

/-! ### Patterns -/

section

open Re

abbrev LogPattern := Regex Unit PyChar

/-- `[_-]?`. -/
def separator : LogPattern := .opt (.char fun c => c == 95 || c == 45)

/-- `_SENSITIVE_FIELD_PATTERN`. -/
def sensitiveFieldPattern : LogPattern :=
  oneOf [lit "authorization", lit "cookie", lit "credential", lit "password", lit "secret", lit "token",
    .cat [lit "api", separator, lit "key"], .cat [lit "private", separator, lit "key"],
    .cat [lit "pre", separator, lit "shared"], .cat [lit "snmp", separator, lit "community"], lit "session",
    lit "config", lit "artifact", lit "audio", lit "body", lit "content"]

/-- `_INLINE_SECRET_PATTERN`. -/
def inlineSecretPattern : LogPattern :=
  .cat [oneOf [lit "authorization", lit "password", lit "passwd", lit "secret", lit "token",
      .cat [lit "api", separator, lit "key"], .cat [lit "snmp-server", spaces1, lit "community"],
      .cat [lit "crypto", spaces1, lit "isakmp", spaces1, lit "key"]],
    spaces, oneOf [lit "=", lit ":", spaces1], spaces, .many1 fun c => !c.isSpace && c != 44 && c != 59]

/-- The characters of a bearer token, before its padding. -/
def isTokenChar (c : PyChar) : Bool :=
  (97 ≤ c.fold.val && c.fold.val ≤ 122) || (48 ≤ c.val && c.val ≤ 57) || decide (c ∈ py "._~+/-")

/-- `_BEARER_TOKEN_PATTERN`. -/
def bearerTokenPattern : LogPattern := .cat [lit "bearer", spaces1, .many1 isTokenChar, .many true (· == 61)]

end

/-! ### Redaction -/

/-- `REDACTED`. -/
def redactedMark : PyStr := py "[REDACTED]"

def truncatedMark : PyStr := py "[TRUNCATED]"

def maxValueLength : Nat := 2048

def maxCollectionItems : Nat := 50

def maxNestingDepth : Nat := 5

/-- `_redact_text`. -/
def redactText (value : PyStr) : PyStr :=
  let redacted := (bearerTokenPattern.subn (fun _ => py "Bearer " ++ redactedMark) value).1
  let redacted := (inlineSecretPattern.subn (fun _ => redactedMark) redacted).1
  if maxValueLength < redacted.length then redacted.take maxValueLength ++ truncatedMark else redacted

/-- `field_name and _SENSITIVE_FIELD_PATTERN.search(field_name)`. -/
def isSensitive : Option PyStr → Bool
  | none => false
  | some fieldName => !fieldName.isEmpty && (Re.search sensitiveFieldPattern fieldName).isSome

mutual
/-- `redact_for_observability`. -/
def redactForObservability (fieldName : Option PyStr) (depth : Nat) (value : LogValue) : LogValue :=
  if isSensitive fieldName then .str redactedMark
  else if maxNestingDepth ≤ depth then .str truncatedMark
  else match value with
    | .none => .none
    | .bool b => .bool b
    | .int n => .int n
    | .float x => .float x
    | .str s => .str (redactText s)
    | .mapping entries =>
      let result := dictOf (redactEntries (depth + 1) maxCollectionItems entries)
      if maxCollectionItems < entries.length then .mapping (setEntry result (py "_truncated") (.bool true))
      else .mapping result
    | .sequence items =>
      let result := redactItems (depth + 1) maxCollectionItems items
      if maxCollectionItems < items.length then .sequence (result ++ [.str truncatedMark]) else .sequence result
    | .object text => .str (redactText text)
/-- The first `n` items of a mapping. -/
def redactEntries (depth : Nat) : Nat → LogEntries → LogEntries
  | n + 1, (key, item) :: entries =>
    (key, redactForObservability (some key) depth item) :: redactEntries depth n entries
  | _, _ => []
/-- The first `n` items of a sequence. -/
def redactItems (depth : Nat) : Nat → List LogValue → List LogValue
  | n + 1, item :: items => redactForObservability none depth item :: redactItems depth n items
  | _, _ => []
end

/-! ### Two values that differ below sensitive keys -/

mutual
/-- The values agree except below sensitive keys. -/
inductive Agree : LogValue → LogValue → Prop where
  | same (value : LogValue) : Agree value value
  | mapping {entries entries' : LogEntries} (h : AgreeEntries entries entries') :
    Agree (.mapping entries) (.mapping entries')
  | sequence {items items' : List LogValue} (h : AgreeItems items items') :
    Agree (.sequence items) (.sequence items')
inductive AgreeEntries : LogEntries → LogEntries → Prop where
  | nil : AgreeEntries [] []
  | sensitive {key : PyStr} (item item' : LogValue) {entries entries' : LogEntries}
    (hkey : isSensitive (some key) = true) (h : AgreeEntries entries entries') :
    AgreeEntries ((key, item) :: entries) ((key, item') :: entries')
  | cons (key : PyStr) {item item' : LogValue} {entries entries' : LogEntries} (hitem : Agree item item')
    (h : AgreeEntries entries entries') : AgreeEntries ((key, item) :: entries) ((key, item') :: entries')
inductive AgreeItems : List LogValue → List LogValue → Prop where
  | nil : AgreeItems [] []
  | cons {item item' : LogValue} {items items' : List LogValue} (hitem : Agree item item')
    (h : AgreeItems items items') : AgreeItems (item :: items) (item' :: items')
end

theorem AgreeEntries.length_eq {entries entries' : LogEntries} (h : AgreeEntries entries entries') :
    entries.length = entries'.length := by
  induction entries generalizing entries' with
  | nil => cases h with | nil => rfl
  | cons e entries ih =>
    cases h with
    | sensitive _ _ _ h => exact congrArg (· + 1) (ih h)
    | cons _ _ h => exact congrArg (· + 1) (ih h)

theorem AgreeItems.length_eq {items items' : List LogValue} (h : AgreeItems items items') :
    items.length = items'.length := by
  induction items generalizing items' with
  | nil => cases h with | nil => rfl
  | cons item items ih => cases h with | cons _ h => exact congrArg (· + 1) (ih h)

theorem redact_sensitive {fieldName : Option PyStr} (h : isSensitive fieldName = true) (depth : Nat)
    (value : LogValue) : redactForObservability fieldName depth value = .str redactedMark := by
  rw [redactForObservability.eq_def, if_pos h]

mutual
/-- What lies below a sensitive key does not show. -/
theorem redact_agree {value value' : LogValue} (h : Agree value value') (fieldName : Option PyStr) (depth : Nat) :
    redactForObservability fieldName depth value = redactForObservability fieldName depth value' := by
  cases h with
  | same => rfl
  | mapping h =>
    rw [redactForObservability, redactForObservability, redactEntries_agree h, h.length_eq]
  | sequence h =>
    rw [redactForObservability, redactForObservability, redactItems_agree h, h.length_eq]
theorem redactEntries_agree {entries entries' : LogEntries} (h : AgreeEntries entries entries') (depth n : Nat) :
    redactEntries depth n entries = redactEntries depth n entries' := by
  cases n with
  | zero => rw [redactEntries, redactEntries] <;> simp
  | succ n =>
    cases h with
    | nil => rfl
    | sensitive item item' hkey h =>
      rw [redactEntries, redactEntries, redactEntries_agree h, redact_sensitive hkey, redact_sensitive hkey]
    | cons key hitem h => rw [redactEntries, redactEntries, redactEntries_agree h, redact_agree hitem]
theorem redactItems_agree {items items' : List LogValue} (h : AgreeItems items items') (depth n : Nat) :
    redactItems depth n items = redactItems depth n items' := by
  cases n with
  | zero => rw [redactItems, redactItems] <;> simp
  | succ n =>
    cases h with
    | nil => rfl
    | cons hitem h => rw [redactItems, redactItems, redactItems_agree h, redact_agree hitem]
end

/-! ### The size of a result -/

mutual
/-- A text or a number is one level deep. -/
def LogValue.nestingDepth : LogValue → Nat
  | .mapping entries => depthEntries entries + 1
  | .sequence items => depthItems items + 1
  | _ => 1
def depthEntries : LogEntries → Nat
  | [] => 0
  | (_, item) :: entries => max item.nestingDepth (depthEntries entries)
def depthItems : List LogValue → Nat
  | [] => 0
  | item :: items => max item.nestingDepth (depthItems items)
end

mutual
/-- `p` of a value and of all values in it. -/
def LogValue.All (p : LogValue → Prop) : LogValue → Prop
  | .mapping entries => p (.mapping entries) ∧ AllEntries p entries
  | .sequence items => p (.sequence items) ∧ AllItems p items
  | value => p value
def AllEntries (p : LogValue → Prop) : LogEntries → Prop
  | [] => True
  | (_, item) :: entries => item.All p ∧ AllEntries p entries
def AllItems (p : LogValue → Prop) : List LogValue → Prop
  | [] => True
  | item :: items => item.All p ∧ AllItems p items
end

/-- The size of one collection or text. -/
def LogValue.Small : LogValue → Prop
  | .mapping entries => entries.length ≤ maxCollectionItems + 1
  | .sequence items => items.length ≤ maxCollectionItems + 1
  | .str s => s.length ≤ maxValueLength ∨ ∃ t, t.length = maxValueLength ∧ s = t ++ truncatedMark
  | _ => True

theorem depthEntries_le {entries : LogEntries} {n : Nat} (h : ∀ e ∈ entries, e.2.nestingDepth ≤ n) :
    depthEntries entries ≤ n := by
  induction entries with
  | nil => exact Nat.zero_le n
  | cons e entries ih =>
    obtain ⟨hfirst, hrest⟩ := List.forall_mem_cons.mp h
    exact max_le hfirst (ih hrest)

theorem depthItems_le {items : List LogValue} {n : Nat} (h : ∀ item ∈ items, item.nestingDepth ≤ n) :
    depthItems items ≤ n := by
  induction items with
  | nil => exact Nat.zero_le n
  | cons item items ih =>
    obtain ⟨hfirst, hrest⟩ := List.forall_mem_cons.mp h
    exact max_le hfirst (ih hrest)

theorem allEntries {p : LogValue → Prop} {entries : LogEntries} (h : ∀ e ∈ entries, e.2.All p) :
    AllEntries p entries := by
  induction entries with
  | nil => trivial
  | cons e entries ih =>
    obtain ⟨hfirst, hrest⟩ := List.forall_mem_cons.mp h
    exact ⟨hfirst, ih hrest⟩

theorem allItems {p : LogValue → Prop} {items : List LogValue} (h : ∀ item ∈ items, item.All p) :
    AllItems p items := by
  induction items with
  | nil => trivial
  | cons item items ih =>
    obtain ⟨hfirst, hrest⟩ := List.forall_mem_cons.mp h
    exact ⟨hfirst, ih hrest⟩

/-! ### Dictionaries -/

section

variable {entries : LogEntries} {key : PyStr} {value : LogValue} {e : PyStr × LogValue}

theorem mem_setEntry (h : e ∈ setEntry entries key value) : e ∈ entries ∨ e = (key, value) := by
  unfold setEntry at h
  split_ifs at h with hany
  · obtain ⟨e', he', rfl⟩ := List.mem_map.mp h
    by_cases hkey : e'.1 = key
    · rw [if_pos (by simpa using hkey), hkey]
      exact Or.inr rfl
    · rw [if_neg (by simpa using hkey)]
      exact Or.inl he'
  · exact (List.mem_append.mp h).imp_right List.mem_singleton.mp

theorem length_setEntry (entries : LogEntries) (key : PyStr) (value : LogValue) :
    (setEntry entries key value).length ≤ entries.length + 1 := by
  unfold setEntry
  split_ifs with hany
  · rw [List.length_map]
    exact Nat.le_succ _
  · rw [List.length_append, List.length_singleton]

/-- A dictionary under construction. -/
theorem foldl_setEntry (entries dict : LogEntries) :
    (entries.foldl (fun dict e => setEntry dict e.1 e.2) dict).length ≤ dict.length + entries.length ∧
      ∀ e ∈ entries.foldl (fun dict e => setEntry dict e.1 e.2) dict, e ∈ dict ∨ e ∈ entries := by
  induction entries generalizing dict with
  | nil => exact ⟨le_rfl, fun e he => Or.inl he⟩
  | cons e entries ih =>
    obtain ⟨hlength, hmem⟩ := ih (setEntry dict e.1 e.2)
    have hset := length_setEntry dict e.1 e.2
    refine ⟨?_, fun e' he' => ?_⟩
    · rw [List.foldl_cons, List.length_cons]
      omega
    · rcases hmem e' he' with h | h
      · refine (mem_setEntry h).imp_right fun heq => ?_
        rw [heq]
        exact List.mem_cons_self
      · exact Or.inr (List.mem_cons_of_mem e h)

theorem length_dictOf (entries : LogEntries) : (dictOf entries).length ≤ entries.length := by
  have h := (foldl_setEntry entries []).1
  rwa [List.length_nil, Nat.zero_add] at h

theorem mem_dictOf (h : e ∈ dictOf entries) : e ∈ entries :=
  ((foldl_setEntry entries []).2 e h).resolve_left List.not_mem_nil

end

/-! ### Bounds -/

theorem redactText_small (s : PyStr) : (LogValue.str (redactText s)).Small := by
  unfold redactText
  generalize (inlineSecretPattern.subn (fun _ => redactedMark)
    (bearerTokenPattern.subn (fun _ => py "Bearer " ++ redactedMark) s).1).1 = redacted
  dsimp only
  split_ifs with hlong
  · exact Or.inr ⟨_, List.length_take_of_le hlong.le, rfl⟩
  · exact Or.inl (not_lt.mp hlong)

theorem mark_small {s : PyStr} (h : s.length ≤ 11) : (LogValue.str s).Small :=
  Or.inl (h.trans (by decide))

mutual
/-- What is left of a value at its depth. -/
theorem redact_bounded (value : LogValue) (fieldName : Option PyStr) {depth : Nat} (hdepth : depth ≤ maxNestingDepth) :
    (redactForObservability fieldName depth value).nestingDepth + depth ≤ maxNestingDepth + 1 ∧
      (redactForObservability fieldName depth value).All LogValue.Small := by
  have hone : 1 + depth ≤ maxNestingDepth + 1 := by omega
  have hleaf : ∀ s : PyStr, (LogValue.str s).Small → (LogValue.str s).nestingDepth + depth ≤ maxNestingDepth + 1 ∧
      (LogValue.str s).All LogValue.Small :=
    fun s hs => ⟨hone, hs⟩
  by_cases hsensitive : isSensitive fieldName = true
  · rw [redact_sensitive hsensitive]
    exact hleaf _ (mark_small (by decide))
  · rw [redactForObservability.eq_def, if_neg hsensitive]
    by_cases hdeep : maxNestingDepth ≤ depth
    · rw [if_pos hdeep]
      exact hleaf _ (mark_small (by decide))
    · rw [if_neg hdeep]
      have hless := not_le.mp hdeep
      have hnext : 1 + (depth + 1) ≤ maxNestingDepth + 1 := by omega
      cases value with
      | none | bool | int | float => exact ⟨hone, trivial⟩
      | str s => exact hleaf _ (redactText_small s)
      | object text => exact hleaf _ (redactText_small text)
      | mapping entries =>
        dsimp only
        obtain ⟨hlength, hentries⟩ := redactEntries_bounded entries maxCollectionItems (Nat.succ_le_of_lt hless)
        have hdict := length_dictOf (redactEntries (depth + 1) maxCollectionItems entries)
        have hmapping : ∀ result : LogEntries, result.length ≤ maxCollectionItems + 1 →
            (∀ e ∈ result, e.2.nestingDepth + (depth + 1) ≤ maxNestingDepth + 1 ∧ e.2.All LogValue.Small) →
            (LogValue.mapping result).nestingDepth + depth ≤ maxNestingDepth + 1 ∧
              (LogValue.mapping result).All LogValue.Small := by
          intro result hresult hall
          have hle := @depthEntries_le result (maxNestingDepth - depth) fun e he => by
            have := (hall e he).1
            omega
          refine ⟨?_, hresult, allEntries fun e he => (hall e he).2⟩
          rw [LogValue.nestingDepth]
          omega
        split_ifs
        · refine hmapping _ ((length_setEntry _ _ _).trans (Nat.succ_le_succ (hdict.trans hlength))) fun e he => ?_
          rcases mem_setEntry he with he | rfl
          · exact hentries e (mem_dictOf he)
          · exact ⟨hnext, trivial⟩
        · exact hmapping _ (hdict.trans (hlength.trans (Nat.le_succ _))) fun e he => hentries e (mem_dictOf he)
      | sequence items =>
        dsimp only
        obtain ⟨hlength, hitems⟩ := redactItems_bounded items maxCollectionItems (Nat.succ_le_of_lt hless)
        have hsequence : ∀ result : List LogValue, result.length ≤ maxCollectionItems + 1 →
            (∀ item ∈ result, item.nestingDepth + (depth + 1) ≤ maxNestingDepth + 1 ∧ item.All LogValue.Small) →
            (LogValue.sequence result).nestingDepth + depth ≤ maxNestingDepth + 1 ∧
              (LogValue.sequence result).All LogValue.Small := by
          intro result hresult hall
          have hle := @depthItems_le result (maxNestingDepth - depth) fun item hitem => by
            have := (hall item hitem).1
            omega
          refine ⟨?_, hresult, allItems fun item hitem => (hall item hitem).2⟩
          rw [LogValue.nestingDepth]
          omega
        split_ifs
        · refine hsequence _ ?_ fun item hitem => ?_
          · rw [List.length_append, List.length_singleton]
            exact Nat.succ_le_succ hlength
          · rcases List.mem_append.mp hitem with hitem | hitem
            · exact hitems item hitem
            · rw [List.mem_singleton.mp hitem]
              exact ⟨hnext, mark_small (by decide)⟩
        · exact hsequence _ (hlength.trans (Nat.le_succ _)) hitems
theorem redactEntries_bounded (entries : LogEntries) (n : Nat) {depth : Nat} (hdepth : depth ≤ maxNestingDepth) :
    (redactEntries depth n entries).length ≤ n ∧
      ∀ e ∈ redactEntries depth n entries,
        e.2.nestingDepth + depth ≤ maxNestingDepth + 1 ∧ e.2.All LogValue.Small := by
  match n, entries with
  | 0, _ => exact ⟨by rw [redactEntries] <;> simp, by rw [redactEntries] <;> simp⟩
  | n + 1, [] => exact ⟨Nat.zero_le _, nofun⟩
  | n + 1, (key, item) :: entries =>
    obtain ⟨hlength, hentries⟩ := redactEntries_bounded entries n hdepth
    rw [redactEntries]
    exact ⟨Nat.succ_le_succ hlength, List.forall_mem_cons.mpr ⟨redact_bounded item (some key) hdepth, hentries⟩⟩
theorem redactItems_bounded (items : List LogValue) (n : Nat) {depth : Nat} (hdepth : depth ≤ maxNestingDepth) :
    (redactItems depth n items).length ≤ n ∧
      ∀ item ∈ redactItems depth n items,
        item.nestingDepth + depth ≤ maxNestingDepth + 1 ∧ item.All LogValue.Small := by
  match n, items with
  | 0, _ => exact ⟨by rw [redactItems] <;> simp, by rw [redactItems] <;> simp⟩
  | n + 1, [] => exact ⟨Nat.zero_le _, nofun⟩
  | n + 1, item :: items =>
    obtain ⟨hlength, hitems⟩ := redactItems_bounded items n hdepth
    rw [redactItems]
    exact ⟨Nat.succ_le_succ hlength, List.forall_mem_cons.mpr ⟨redact_bounded item none hdepth, hitems⟩⟩
end

end NetopsCopilot
