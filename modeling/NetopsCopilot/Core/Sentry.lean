import Mathlib.Data.List.Forall2
import NetopsCopilot.Core.Logging
import NetopsCopilot.Lib.Rows

/-!
# Error events (`_before_send` in `core/sentry.py`)

The hook redacts an event and then drops what may hold operator text under a harmless name. The redaction comes
first and keeps the first 50 items of a mapping, so what is dropped can still decide which of the other items are
among them. Where it cannot (`SameCut`), nothing of it shows (`beforeSend_eq`).
-/

namespace NetopsCopilot

/-! ### The hook -/

/-- `entries.pop(key, None)`. -/
def popEntry (entries : LogEntries) (key : PyStr) : LogEntries := entries.filter fun e => e.1 != key

/-- The value of a key is changed in place. -/
def modifyEntry (entries : LogEntries) (key : PyStr) (f : LogValue → LogValue) : LogEntries :=
  entries.map fun e => (e.1, if e.1 == key then f e.2 else e.2)

/-- `{"type": item.get("type", "Exception")} … if isinstance(item, dict)`. -/
def keepType : LogValue → Option LogValue
  | .mapping item => some (.mapping [(py "type", (item.lookup (py "type")).getD (.str (py "Exception")))])
  | _ => none

def stripValues : LogValue → LogValue
  | .sequence values => .sequence (values.filterMap keepType)
  | values => values

def stripException : LogValue → LogValue
  | .mapping exception => .mapping (modifyEntry exception (py "values") stripValues)
  | exception => exception

def requestPayload : List PyStr := [py "data", py "headers", py "cookies", py "query_string", py "env"]

def stripRequest : LogValue → LogValue
  | .mapping request => .mapping (requestPayload.foldl popEntry request)
  | request => request

def sentryPayload : List PyStr := [py "logentry", py "breadcrumbs", py "threads"]

/-- `_before_send`. -/
def beforeSend (event : LogEntries) : Option LogEntries :=
  match redactForObservability none 0 (.mapping event) with
  | .mapping sanitized =>
    let sanitized := sentryPayload.foldl popEntry sanitized
    let sanitized := modifyEntry sanitized (py "exception") stripException
    some (modifyEntry sanitized (py "request") stripRequest)
  | _ => none

/-! ### Two events that differ in what is dropped -/

/-- The values of a key agree, or do not show. -/
def AgreeAt (key : PyStr) (item item' : LogValue) : Prop := isSensitive (some key) = true ∨ Agree item item'

/-- The mappings agree except in hidden entries, under a condition on all their keys. -/
structure MappingsVary (cut : LogEntries → LogEntries → Prop) (hidden : PyStr → Bool)
    (r : PyStr → LogValue → LogValue → Prop) (entries entries' : LogEntries) : Prop where
  shown : List.Forall₂ (fun e e' => e.1 = e'.1 ∧ r e.1 e.2 e'.2) (entries.filter fun e => !hidden e.1)
    (entries'.filter fun e => !hidden e.1)
  cut : cut entries entries'

section

variable (cut : LogEntries → LogEntries → Prop)

/-- Lists of mappings that agree in the type. -/
def ValuesVary (values values' : LogValue) : Prop :=
  ∃ items items', values = .sequence items ∧ values' = .sequence items' ∧
    List.Forall₂ (fun item item' => ∃ fields fields', item = .mapping fields ∧ item' = .mapping fields' ∧
      MappingsVary cut (fun key => key != py "type") AgreeAt fields fields') items items'

/-- Mappings that agree except in their `values`. -/
def ExceptionVaries (exception exception' : LogValue) : Prop :=
  ∃ entries entries', exception = .mapping entries ∧ exception' = .mapping entries' ∧
    List.Forall₂ (fun e e' => e.1 = e'.1 ∧
      if e.1 = py "values" then ValuesVary cut e.2 e'.2 else AgreeAt e.1 e.2 e'.2) entries entries'

/-- Requests that agree except in their payload. -/
def RequestVaries (request request' : LogValue) : Prop :=
  Agree request request' ∨ ∃ entries entries', request = .mapping entries ∧ request' = .mapping entries' ∧
    MappingsVary cut (fun key => decide (key ∈ requestPayload)) AgreeAt entries entries'

/-- What two events have in common at a key. -/
def EventAt (key : PyStr) (item item' : LogValue) : Prop :=
  if key = py "exception" then ExceptionVaries cut item item'
  else if key = py "request" then RequestVaries cut item item'
  else AgreeAt key item item'

/-- The events agree except in what is dropped. -/
def EventsVary (event event' : LogEntries) : Prop :=
  MappingsVary cut (fun key => decide (key ∈ sentryPayload)) (EventAt cut) event event'

end

/-- Cutting keeps the same entries: the keys are the same, in the same order, or nothing is cut. -/
def SameCut (entries entries' : LogEntries) : Prop :=
  entries.map (·.1) = entries'.map (·.1) ∨
    entries.length ≤ maxCollectionItems ∧ entries'.length ≤ maxCollectionItems

/-! ### Dictionaries -/

section

variable {entries entries' : LogEntries} {key : PyStr} {value : LogValue}

theorem filter_setEntry (p : PyStr → Bool) (entries : LogEntries) (key : PyStr) (value : LogValue) :
    (setEntry entries key value).filter (fun e => p e.1) =
      if p key then setEntry (entries.filter fun e => p e.1) key value else entries.filter fun e => p e.1 := by
  have hreplace : (entries.map fun e => if e.1 == key then (e.1, value) else e).filter (fun e => p e.1) =
      (entries.filter fun e => p e.1).map fun e => if e.1 == key then (e.1, value) else e := by
    rw [List.filter_map]
    refine congrArg _ (List.filter_congr fun e _ => ?_)
    show p (if e.1 == key then (e.1, value) else e).1 = p e.1
    rw [apply_ite Prod.fst, ite_self]
  unfold setEntry
  by_cases hkey : p key = true
  · have hany : (entries.filter fun e => p e.1).any (fun e => e.1 == key) = entries.any fun e => e.1 == key := by
      rw [List.any_filter, Bool.eq_iff_iff]
      simp only [List.any_eq_true, Bool.and_eq_true, beq_iff_eq]
      constructor
      · rintro ⟨e, he, -, heq⟩
        exact ⟨e, he, heq⟩
      · rintro ⟨e, he, heq⟩
        exact ⟨e, he, heq ▸ hkey, heq⟩
    rw [if_pos hkey, hany]
    split_ifs
    · exact hreplace
    · rw [List.filter_append, List.filter_cons_of_pos (by exact hkey), List.filter_nil]
  · rw [if_neg hkey]
    split_ifs
    · rw [hreplace]
      have hsame : ∀ e ∈ entries.filter (fun e => p e.1), (if e.1 == key then (e.1, value) else e) = e := by
        intro e he
        refine if_neg fun heq => hkey ?_
        rw [← beq_iff_eq.mp heq]
        exact (List.mem_filter.mp he).2
      rw [List.map_congr_left hsame, List.map_id']
    · rw [List.filter_append, List.filter_cons_of_neg (by exact hkey), List.filter_nil, List.append_nil]

theorem map_setEntry (f : PyStr → LogValue → LogValue) (entries : LogEntries) (key : PyStr) (value : LogValue) :
    (setEntry entries key value).map (fun e => (e.1, f e.1 e.2)) =
      setEntry (entries.map fun e => (e.1, f e.1 e.2)) key (f key value) := by
  unfold setEntry
  rw [List.any_map]
  split_ifs with h₁ h₂ h₂
  · rw [List.map_map, List.map_map]
    refine List.map_congr_left fun e _ => ?_
    by_cases hkey : e.1 = key
    · simp [hkey]
    · simp [hkey]
  · exact absurd h₁ h₂
  · exact absurd h₂ h₁
  · rw [List.map_append, List.map_singleton]

theorem filter_dictOf (p : PyStr → Bool) (entries : LogEntries) :
    (dictOf entries).filter (fun e => p e.1) = dictOf (entries.filter fun e => p e.1) := by
  have hfold : ∀ dict : LogEntries,
      (entries.foldl (fun dict e => setEntry dict e.1 e.2) dict).filter (fun e => p e.1) =
        (entries.filter fun e => p e.1).foldl (fun dict e => setEntry dict e.1 e.2)
          (dict.filter fun e => p e.1) := by
    induction entries with
    | nil => exact fun _ => rfl
    | cons e entries ih =>
      intro dict
      rw [List.foldl_cons, ih, filter_setEntry]
      by_cases hkey : p e.1 = true
      · rw [if_pos hkey, List.filter_cons_of_pos (by exact hkey), List.foldl_cons]
      · rw [if_neg hkey, List.filter_cons_of_neg (by exact hkey)]
  exact hfold []

theorem map_dictOf (f : PyStr → LogValue → LogValue) (entries : LogEntries) :
    (dictOf entries).map (fun e => (e.1, f e.1 e.2)) = dictOf (entries.map fun e => (e.1, f e.1 e.2)) := by
  have hfold : ∀ dict : LogEntries,
      (entries.foldl (fun dict e => setEntry dict e.1 e.2) dict).map (fun e => (e.1, f e.1 e.2)) =
        (entries.map fun e => (e.1, f e.1 e.2)).foldl (fun dict e => setEntry dict e.1 e.2)
          (dict.map fun e => (e.1, f e.1 e.2)) := by
    induction entries with
    | nil => exact fun _ => rfl
    | cons e entries ih =>
      intro dict
      rw [List.foldl_cons, ih, map_setEntry, List.map_cons, List.foldl_cons]
  exact hfold []

/-! ### A redacted mapping -/

theorem redactEntries_eq (depth n : Nat) (entries : LogEntries) :
    redactEntries depth n entries =
      (entries.take n).map fun e => (e.1, redactForObservability (some e.1) depth e.2) := by
  induction entries generalizing n with
  | nil => cases n <;> rfl
  | cons e entries ih =>
    cases n with
    | zero => rw [redactEntries] <;> simp
    | succ n => rw [redactEntries, ih, List.take_succ_cons, List.map_cons]

theorem redactItems_eq (depth n : Nat) (items : List LogValue) :
    redactItems depth n items = (items.take n).map (redactForObservability none depth) := by
  induction items generalizing n with
  | nil => cases n <;> rfl
  | cons item items ih =>
    cases n with
    | zero => rw [redactItems] <;> simp
    | succ n => rw [redactItems, ih, List.take_succ_cons, List.map_cons]

/-- The items of a mapping after its redaction. -/
def redactedDict (depth : Nat) (entries : LogEntries) : LogEntries :=
  if maxCollectionItems < entries.length then
    setEntry (dictOf (redactEntries depth maxCollectionItems entries)) (py "_truncated") (.bool true)
  else dictOf (redactEntries depth maxCollectionItems entries)

theorem redact_mapping {fieldName : Option PyStr} {depth : Nat} (hsensitive : ¬isSensitive fieldName = true)
    (hdepth : depth < maxNestingDepth) (entries : LogEntries) :
    redactForObservability fieldName depth (.mapping entries) = .mapping (redactedDict (depth + 1) entries) := by
  rw [redactForObservability, if_neg hsensitive, if_neg (not_le.mpr hdepth), redactedDict]
  split_ifs <;> rfl

theorem not_sensitive_none : ¬isSensitive none = true := Bool.false_ne_true

theorem redact_sequence {fieldName : Option PyStr} {depth : Nat} (hsensitive : ¬isSensitive fieldName = true)
    (hdepth : depth < maxNestingDepth) (items : List LogValue) :
    ∃ mark, redactForObservability fieldName depth (.sequence items) =
        .sequence ((items.take maxCollectionItems).map (redactForObservability none (depth + 1)) ++ mark) ∧
      mark.filterMap keepType = [] := by
  rw [redactForObservability, if_neg hsensitive, if_neg (not_le.mpr hdepth), redactItems_eq]
  by_cases hlong : maxCollectionItems < items.length
  · exact ⟨[.str truncatedMark], if_pos hlong, rfl⟩
  · exact ⟨[], (if_neg hlong).trans (by rw [List.append_nil]), rfl⟩

/-- What is kept of a redacted mapping, with its values changed. -/
theorem strip_redactedDict (p : PyStr → Bool) (f : PyStr → LogValue → LogValue) (depth : Nat)
    (entries : LogEntries) :
    ((redactedDict depth entries).filter fun e => p e.1).map (fun e => (e.1, f e.1 e.2)) =
      dictOf ((((entries.take maxCollectionItems).filter fun e => p e.1).map fun e =>
          (e.1, f e.1 (redactForObservability (some e.1) depth e.2))) ++
        (if decide (maxCollectionItems < entries.length) && p (py "_truncated") then
          [(py "_truncated", f (py "_truncated") (.bool true))] else [])) := by
  have hmapped : ((dictOf (redactEntries depth maxCollectionItems entries)).filter fun e => p e.1).map
        (fun e => (e.1, f e.1 e.2)) =
      dictOf (((entries.take maxCollectionItems).filter fun e => p e.1).map fun e =>
        (e.1, f e.1 (redactForObservability (some e.1) depth e.2))) := by
    rw [filter_dictOf, map_dictOf, redactEntries_eq, List.filter_map, List.map_map]
    rfl
  unfold redactedDict
  by_cases hlong : maxCollectionItems < entries.length
  · rw [if_pos hlong, filter_setEntry]
    by_cases hmark : p (py "_truncated") = true
    · rw [if_pos hmark, map_setEntry, hmapped, if_pos (by simp [hlong, hmark]), dictOf, dictOf,
        List.foldl_append]
      rfl
    · rw [if_neg hmark, hmapped, if_neg (by simp [hmark]), List.append_nil]
  · rw [if_neg hlong, hmapped, if_neg (by simp [hlong]), List.append_nil]

end

/-! ### Two redacted mappings -/

section

variable {hidden : PyStr → Bool} {r : PyStr → LogValue → LogValue → Prop} {entries entries' : LogEntries}

/-- The same entries are kept. -/
theorem MappingsVary.take (h : MappingsVary SameCut hidden r entries entries') :
    List.Forall₂ (fun e e' => e.1 = e'.1 ∧ r e.1 e.2 e'.2)
        ((entries.take maxCollectionItems).filter fun e => !hidden e.1)
        ((entries'.take maxCollectionItems).filter fun e => !hidden e.1) ∧
      decide (maxCollectionItems < entries.length) = decide (maxCollectionItems < entries'.length) := by
  obtain ⟨hshown, hkeys | ⟨hshort, hshort'⟩⟩ := h
  · have hlength : entries.length = entries'.length := by
      have h := congrArg List.length hkeys
      rwa [List.length_map, List.length_map] at h
    refine ⟨?_, by rw [hlength]⟩
    generalize maxCollectionItems = n
    clear hlength
    induction entries generalizing entries' n with
    | nil =>
      rw [List.map_nil, eq_comm, List.map_eq_nil_iff] at hkeys
      rw [hkeys, List.take_nil]
      exact .nil
    | cons e entries ih =>
      obtain ⟨e', entries', rfl⟩ : ∃ e' rest, entries' = e' :: rest := by
        cases entries' with
        | nil => cases hkeys
        | cons e' rest => exact ⟨e', rest, rfl⟩
      obtain ⟨hkey, hkeys⟩ := List.cons.inj hkeys
      cases n with
      | zero => exact .nil
      | succ n =>
        rw [List.take_succ_cons, List.take_succ_cons]
        by_cases hhidden : hidden e.1 = true
        · have hhidden' : hidden e'.1 = true := (congrArg hidden hkey).symm.trans hhidden
          rw [List.filter_cons_of_neg (by simpa using hhidden),
            List.filter_cons_of_neg (by simpa using hhidden')] at hshown ⊢
          exact ih hshown hkeys n
        · have hhidden' : ¬hidden e'.1 = true := fun h => hhidden ((congrArg hidden hkey).trans h)
          rw [List.filter_cons_of_pos (by simpa using hhidden),
            List.filter_cons_of_pos (by simpa using hhidden')] at hshown ⊢
          obtain ⟨hfirst, hrest⟩ := List.forall₂_cons.mp hshown
          exact .cons hfirst (ih hrest hkeys n)
  · rw [List.take_of_length_le hshort, List.take_of_length_le hshort']
    refine ⟨hshown, ?_⟩
    rw [decide_eq_false (not_lt.mpr hshort), decide_eq_false (not_lt.mpr hshort')]

/-- What is kept of two redacted mappings is the same. -/
theorem MappingsVary.strip_eq (h : MappingsVary SameCut hidden r entries entries') {depth : Nat}
    (f : PyStr → LogValue → LogValue)
    (hf : ∀ key item item', r key item item' → f key (redactForObservability (some key) depth item) =
      f key (redactForObservability (some key) depth item')) :
    ((redactedDict depth entries).filter fun e => !hidden e.1).map (fun e => (e.1, f e.1 e.2)) =
      ((redactedDict depth entries').filter fun e => !hidden e.1).map (fun e => (e.1, f e.1 e.2)) := by
  obtain ⟨hshown, hlong⟩ := h.take
  rw [strip_redactedDict (fun key => !hidden key), strip_redactedDict (fun key => !hidden key), hlong]
  refine congrArg (fun kept => dictOf (kept ++ _)) ?_
  refine Rows.map_eq_of_forall₂ hshown fun e e' he => ?_
  rw [hf _ _ _ he.2, he.1]

theorem redact_agreeAt {key : PyStr} {item item' : LogValue} (h : AgreeAt key item item') (depth : Nat) :
    redactForObservability (some key) depth item = redactForObservability (some key) depth item' := by
  rcases h with hsensitive | h
  · rw [redact_sensitive hsensitive, redact_sensitive hsensitive]
  · exact redact_agree h _ _

/-! ### The parts of an event -/

theorem modifyEntry_eq (entries : LogEntries) (key : PyStr) (f : LogValue → LogValue) :
    modifyEntry entries key f =
      entries.map fun e => (e.1, (fun k item => if k == key then f item else item) e.1 e.2) := rfl

theorem foldl_popEntry (keys : List PyStr) (entries : LogEntries) :
    keys.foldl popEntry entries = entries.filter fun e => !decide (e.1 ∈ keys) := by
  induction keys generalizing entries with
  | nil => simp
  | cons key keys ih =>
    rw [List.foldl_cons, ih, popEntry, List.filter_filter]
    refine List.filter_congr fun e _ => ?_
    by_cases hkey : e.1 = key
    · simp [hkey]
    · simp [hkey]

theorem lookup_filter (key : PyStr) (entries : LogEntries) :
    (entries.filter fun e => !(e.1 != key)).lookup key = entries.lookup key := by
  induction entries with
  | nil => rfl
  | cons e entries ih =>
    by_cases hkey : e.1 = key
    · rw [List.filter_cons_of_pos (by simpa using hkey), List.lookup_cons, List.lookup_cons, hkey, beq_self_eq_true]
    · rw [List.filter_cons_of_neg (by simpa using hkey), List.lookup_cons, ih,
        beq_eq_false_iff_ne.mpr (Ne.symm hkey)]

/-- The type of an exception value. -/
theorem keepType_eq {fields fields' : LogEntries}
    (h : MappingsVary SameCut (fun key => key != py "type") AgreeAt fields fields') {depth : Nat}
    (hdepth : depth < maxNestingDepth) :
    keepType (redactForObservability none depth (.mapping fields)) =
      keepType (redactForObservability none depth (.mapping fields')) := by
  rw [redact_mapping not_sensitive_none hdepth, redact_mapping not_sensitive_none hdepth]
  have hkept := @MappingsVary.strip_eq _ _ _ _ h (depth + 1) (fun _ item => item)
    fun key item item' hitem => redact_agreeAt hitem _
  rw [List.map_id'', List.map_id''] at hkept
  · rw [keepType, keepType, ← lookup_filter (py "type") (redactedDict (depth + 1) fields), hkept, lookup_filter]
  · exact fun _ => rfl
  · exact fun _ => rfl

theorem stripValues_eq {values values' : LogValue} (h : ValuesVary SameCut values values') {depth : Nat}
    (hdepth : depth + 1 < maxNestingDepth) (fieldName : Option PyStr) :
    stripValues (redactForObservability fieldName depth values) =
      stripValues (redactForObservability fieldName depth values') := by
  obtain ⟨items, items', rfl, rfl, hitems⟩ := h
  by_cases hsensitive : isSensitive fieldName = true
  · rw [redact_sensitive hsensitive, redact_sensitive hsensitive]
  · have hshallow := Nat.lt_of_succ_lt hdepth
    obtain ⟨mark, hredacted, hmark⟩ := redact_sequence hsensitive hshallow items
    obtain ⟨mark', hredacted', hmark'⟩ := redact_sequence hsensitive hshallow items'
    rw [hredacted, hredacted', stripValues, stripValues, List.filterMap_append, List.filterMap_append, hmark, hmark',
      List.filterMap_map, List.filterMap_map]
    refine congrArg (fun kept => LogValue.sequence (kept ++ [])) ?_
    have htake := List.forall₂_take maxCollectionItems hitems
    generalize items.take maxCollectionItems = kept at htake ⊢
    generalize items'.take maxCollectionItems = kept' at htake ⊢
    induction htake with
    | nil => rfl
    | @cons item item' kept kept' hitem _ ih =>
      obtain ⟨fields, fields', rfl, rfl, hfields⟩ := hitem
      have hkept := keepType_eq hfields hdepth
      rw [List.filterMap_cons, List.filterMap_cons, ih, Function.comp_apply, Function.comp_apply, hkept]

theorem stripException_eq {exception exception' : LogValue} (h : ExceptionVaries SameCut exception exception') :
    stripException (redactForObservability (some (py "exception")) 1 exception) =
      stripException (redactForObservability (some (py "exception")) 1 exception') := by
  obtain ⟨entries, entries', rfl, rfl, hentries⟩ := h
  by_cases hsensitive : isSensitive (some (py "exception")) = true
  · rw [redact_sensitive hsensitive, redact_sensitive hsensitive]
  · have hall : ∀ entries : LogEntries, entries.filter (fun _ => !false) = entries :=
      fun _ => List.filter_eq_self.mpr fun _ _ => rfl
    have hvary : MappingsVary SameCut (fun _ => false)
        (fun key item item' => if key = py "values" then ValuesVary SameCut item item' else AgreeAt key item item')
        entries entries' := by
      refine ⟨?_, Or.inl (Rows.map_eq_of_forall₂ hentries fun _ _ he => he.1)⟩
      rwa [hall, hall]
    have hstrip := @MappingsVary.strip_eq _ _ _ _ hvary 2 (fun k item => if k == py "values" then stripValues item else item)
      (by
        intro key item item' hitem
        by_cases hkey : key = py "values"
        · rw [if_pos hkey] at hitem
          rw [if_pos (by simpa using hkey), if_pos (by simpa using hkey)]
          exact stripValues_eq hitem (by decide) _
        · rw [if_neg hkey] at hitem
          rw [if_neg (by simpa using hkey), if_neg (by simpa using hkey)]
          exact redact_agreeAt hitem _)
    rw [redact_mapping hsensitive (by decide), redact_mapping hsensitive (by decide), stripException, stripException,
      modifyEntry_eq, modifyEntry_eq]
    rw [hall, hall] at hstrip
    rw [hstrip]

theorem stripRequest_eq {request request' : LogValue} (h : RequestVaries SameCut request request') :
    stripRequest (redactForObservability (some (py "request")) 1 request) =
      stripRequest (redactForObservability (some (py "request")) 1 request') := by
  rcases h with h | ⟨entries, entries', rfl, rfl, hvary⟩
  · rw [redact_agree h]
  · by_cases hsensitive : isSensitive (some (py "request")) = true
    · rw [redact_sensitive hsensitive, redact_sensitive hsensitive]
    · have hstrip := @MappingsVary.strip_eq _ _ _ _ hvary 2 (fun _ item => item)
        fun key item item' hitem => redact_agreeAt hitem _
      rw [List.map_id'', List.map_id''] at hstrip
      · rw [redact_mapping hsensitive (by decide), redact_mapping hsensitive (by decide), stripRequest, stripRequest,
          foldl_popEntry, foldl_popEntry, hstrip]
      · exact fun _ => rfl
      · exact fun _ => rfl

end

/-! ### Events -/

/-- What `_before_send` leaves of two events that differ in what it drops. -/
theorem beforeSend_eq {event event' : LogEntries} (h : EventsVary SameCut event event') :
    beforeSend event = beforeSend event' := by
  have hstrip := @MappingsVary.strip_eq _ _ _ _ h 1
    (fun k item => if k == py "request" then
        stripRequest (if k == py "exception" then stripException item else item)
      else if k == py "exception" then stripException item else item) (by
    intro key item item' hitem
    unfold EventAt at hitem
    by_cases hexception : key = py "exception"
    · rw [if_pos hexception] at hitem
      subst hexception
      exact stripException_eq hitem
    · rw [if_neg hexception] at hitem
      by_cases hrequest : key = py "request"
      · rw [if_pos hrequest] at hitem
        subst hrequest
        exact stripRequest_eq hitem
      · rw [if_neg hrequest] at hitem
        simp only [beq_eq_false_iff_ne.mpr hexception, beq_eq_false_iff_ne.mpr hrequest, Bool.false_eq_true, if_false]
        exact redact_agreeAt hitem _)
  have hresult : ∀ entries, beforeSend entries =
      some (((redactedDict 1 entries).filter fun e => !decide (e.1 ∈ sentryPayload)).map fun e =>
        (e.1, if e.1 == py "request" then
            stripRequest (if e.1 == py "exception" then stripException e.2 else e.2)
          else if e.1 == py "exception" then stripException e.2 else e.2)) := by
    intro entries
    unfold beforeSend
    rw [redact_mapping not_sensitive_none (by decide)]
    dsimp only
    rw [foldl_popEntry, modifyEntry, modifyEntry, List.map_map]
    rfl
  rw [hresult, hresult, hstrip]

/-! ### Main result -/

/-- **What observability shows.** Values that agree except below sensitive keys have the same result. A result is at
most six levels deep, its collections have at most 51 entries and its texts at most 2048 characters in front of the
truncation mark. Events that agree except in what `_before_send` drops have the same result, if cutting keeps the same
entries of the event, of the request and of each exception value. -/
theorem observability_redaction :
    (∀ value value', Agree value value' →
      redactForObservability none 0 value = redactForObservability none 0 value') ∧
    (∀ value, (redactForObservability none 0 value).nestingDepth ≤ 6 ∧
      (redactForObservability none 0 value).All LogValue.Small) ∧
    ∀ event event', EventsVary SameCut event event' → beforeSend event = beforeSend event' := by
  refine ⟨fun _ _ h => redact_agree h none 0, fun value => ?_, fun _ _ => beforeSend_eq⟩
  obtain ⟨hdepth, hsmall⟩ := redact_bounded value none (Nat.zero_le maxNestingDepth)
  exact ⟨hdepth, hsmall⟩

/-- An event with one exception value. -/
private def exceptionEvent (fields : LogEntries) : LogEntries :=
  [(py "exception", .mapping [(py "values", .sequence [.mapping fields])])]

private theorem exceptionEvent_varies {cut : LogEntries → LogEntries → Prop} {fields fields' : LogEntries}
    (hcut : cut (exceptionEvent fields) (exceptionEvent fields'))
    (h : MappingsVary cut (fun key => key != py "type") AgreeAt fields fields') :
    EventsVary cut (exceptionEvent fields) (exceptionEvent fields') := by
  refine ⟨.cons ⟨rfl, ?_⟩ .nil, hcut⟩
  unfold EventAt
  rw [if_pos rfl]
  refine ⟨_, _, rfl, rfl, .cons ⟨rfl, ?_⟩ .nil⟩
  rw [if_pos rfl]
  exact ⟨_, _, rfl, rfl, .cons ⟨_, _, rfl, rfl, h⟩ .nil⟩

/-- The message of an exception does not show. -/
theorem observability_redaction_sample :
    beforeSend (exceptionEvent [(py "type", .str (py "ValueError")), (py "value", .str (py "key S3cret"))]) =
      beforeSend (exceptionEvent [(py "type", .str (py "ValueError")), (py "value", .str (py "other"))]) :=
  observability_redaction.2.2 _ _ (exceptionEvent_varies (Or.inl rfl)
    ⟨.cons ⟨rfl, Or.inr (.same _)⟩ .nil, Or.inl rfl⟩)

/-- The type that a result reports for its first exception. -/
private def reportedType (result : Option LogEntries) : Option PyStr :=
  match result.bind (·.lookup (py "exception")) with
  | some (.mapping exception) =>
    match exception.lookup (py "values") with
    | some (.sequence (.mapping item :: _)) =>
      match item.lookup (py "type") with
      | some (.str s) => some s
      | _ => none
    | _ => none
  | _ => none

/-- Fifty fields in front of the type of an exception value. -/
private def manyFields : LogEntries :=
  ((List.range 50).map fun n => ([Fin.ofNat _ (97 + n)], .none)) ++ [(py "type", .str (py "ValueError"))]

/-- Fields that are dropped push the type out of an exception value. -/
theorem before_send_reports_type :
    ¬∀ event event', EventsVary (fun _ _ => True) event event' → beforeSend event = beforeSend event' := by
  intro hall
  have hvary : MappingsVary (fun _ _ => True) (fun key => key != py "type") AgreeAt manyFields
      [(py "type", .str (py "ValueError"))] := by
    have hshown : (manyFields.filter fun e => !(e.1 != py "type")) = [(py "type", .str (py "ValueError"))] := by rfl
    refine ⟨?_, trivial⟩
    rw [hshown]
    exact .cons ⟨rfl, Or.inr (.same _)⟩ .nil
  have hsame := hall _ _ (exceptionEvent_varies trivial hvary)
  exact absurd (congrArg reportedType hsame) (by decide +kernel)

end NetopsCopilot
