import NetopsCopilot.JavaScript.Text

/-!
# `EventSource`

A browser's reader of an event stream: lines end with a line feed, a carriage return or both, a line sets a field,
and an empty line dispatches the event. What comes behind the last empty line is dropped with the connection; the
last event id is kept for the next one. A field `retry`, which sets the delay of a reconnection, is left out.
-/

namespace NetopsCopilot

/-! ### The reader -/

/-- `MessageEvent`. -/
structure MessageEvent where
  type : JsStr
  data : JsStr
  lastEventId : JsStr
deriving DecidableEq

/-- The last event id and the events dispatched so far; the line that is read and the buffers of the next event. -/
structure EventStream where
  lastEventId : JsStr := []
  messages : List MessageEvent := []
  line : JsStr := []
  afterReturn : Bool := false
  data : JsStr := []
  type : JsStr := []
  id : JsStr := []
deriving DecidableEq

/-- An empty line. -/
def EventStream.dispatch (s : EventStream) : EventStream :=
  if s.data = [] then { s with lastEventId := s.id, type := [] }
  else { s with
    lastEventId := s.id
    data := []
    type := []
    messages := s.messages ++
      [{ type := if s.type = [] then js "message" else s.type
         data := if s.data.getLast? = some 10 then s.data.dropLast else s.data
         lastEventId := s.id }] }

def EventStream.field (s : EventStream) (name value : JsStr) : EventStream :=
  if name = js "event" then { s with type := value }
  else if name = js "data" then { s with data := s.data ++ value ++ [10] }
  else if name = js "id" then if 0 ∈ value then s else { s with id := value }
  else s

/-- What is in front of the first colon is the name of the field; one space behind it is dropped. -/
def EventStream.readLine (s : EventStream) (line : JsStr) : EventStream :=
  if line = [] then s.dispatch
  else
    let name := line.takeWhile (· != 58)
    let value := line.drop (name.length + 1)
    -- a comment begins with a colon
    if name = [] then s else s.field name (if value.head? = some 32 then value.tail else value)

def EventStream.readUnit (s : EventStream) (u : JsChar) : EventStream :=
  if u = 10 ∧ s.afterReturn = true then { s with afterReturn := false }
  else if u = 10 ∨ u = 13 then { ({ s with line := [] } : EventStream).readLine s.line with afterReturn := u == 13 }
  else { s with line := s.line ++ [u], afterReturn := false }

def EventStream.readText (s : EventStream) (t : JsStr) : EventStream := t.foldl EventStream.readUnit s

structure EventSource where
  stream : EventStream := {}
  decoder : TextDecoder := {}
deriving DecidableEq

/-- A new connection. -/
def EventSource.connect (s : EventSource) : EventSource where
  stream := { lastEventId := s.stream.lastEventId, messages := s.stream.messages }

/-- Bytes arrive. -/
def EventSource.readBytes (s : EventSource) (bytes : List Utf8.Byte) : EventSource :=
  let (text, decoder) := s.decoder.decode bytes
  { stream := s.stream.readText text, decoder := decoder }

/-! ### Lines -/

/-- Text without line ends. -/
def IsLine (t : JsStr) : Prop := 10 ∉ t ∧ 13 ∉ t

instance : DecidablePred IsLine := fun t => inferInstanceAs (Decidable (10 ∉ t ∧ 13 ∉ t))

theorem isLine_append {t u : JsStr} (ht : IsLine t) (hu : IsLine u) : IsLine (t ++ u) :=
  ⟨fun h => (List.mem_append.mp h).elim ht.1 hu.1, fun h => (List.mem_append.mp h).elim ht.2 hu.2⟩

theorem IsLine.of_prefix {t u : JsStr} (ht : IsLine t) (hu : u <+: t) : IsLine u :=
  ⟨fun h => ht.1 (hu.subset h), fun h => ht.2 (hu.subset h)⟩

/-- Between two lines. -/
structure EventStream.AtLine (s : EventStream) : Prop where
  line : s.line = []
  afterReturn : s.afterReturn = false

section

variable {s : EventStream} {t u : JsStr}

theorem EventStream.readText_append (s : EventStream) (t u : JsStr) :
    s.readText (t ++ u) = (s.readText t).readText u := List.foldl_append

/-- A line that has been read leaves nothing behind. -/
theorem EventStream.readLine_atLine (h : s.AtLine) (t : JsStr) : (s.readLine t).AtLine := by
  have hfield : ∀ name value, (s.field name value).AtLine := by
    intro name value
    unfold EventStream.field
    split_ifs <;> exact ⟨h.line, h.afterReturn⟩
  unfold EventStream.readLine
  dsimp only
  split_ifs
  · unfold EventStream.dispatch
    split_ifs <;> exact ⟨h.line, h.afterReturn⟩
  · exact h
  · exact hfield _ _
  · exact hfield _ _

/-- A line that has not ended. -/
theorem EventStream.readText_line (hs : s.afterReturn = false) (ht : IsLine t) :
    s.readText t = { s with line := s.line ++ t } := by
  induction t generalizing s with
  | nil =>
    show s = _
    rw [List.append_nil]
  | cons c t ih =>
    obtain ⟨hfeed, hreturn⟩ := ht
    rw [List.mem_cons, not_or] at hfeed hreturn
    have hunit : s.readUnit c = { s with line := s.line ++ [c] } := by
      unfold EventStream.readUnit
      rw [if_neg fun h => hfeed.1 h.1.symm, if_neg fun h => h.elim (fun h => hfeed.1 h.symm) fun h => hreturn.1 h.symm]
      rw [hs]
    show (s.readUnit c).readText t = _
    rw [hunit, ih (s := { s with line := s.line ++ [c] }) hs ⟨hfeed.2, hreturn.2⟩]
    dsimp only
    rw [List.append_assoc, List.singleton_append]

/-- A line that ends with a line feed. -/
theorem EventStream.readText_feed (hs : s.AtLine) (ht : IsLine t) (u : JsStr) :
    s.readText (t ++ 10 :: u) = (s.readLine t).readText u := by
  have hself : ({ s with line := [] } : EventStream) = s := by rw [← hs.line]
  have hunit : ({ s with line := t } : EventStream).readUnit 10 = s.readLine t := by
    unfold EventStream.readUnit
    rw [if_neg (by rw [hs.afterReturn]; exact fun h => Bool.false_ne_true h.2), if_pos (.inl rfl)]
    dsimp only
    rw [hself]
    show ({ s.readLine t with afterReturn := false } : EventStream) = s.readLine t
    rw [← (s.readLine_atLine hs t).afterReturn]
  rw [EventStream.readText_append, EventStream.readText_line hs.afterReturn ht, hs.line, List.nil_append]
  show (({ s with line := t } : EventStream).readUnit 10).readText u = _
  rw [hunit]

/-- What was dispatched stays. -/
theorem EventStream.messages_prefix (s : EventStream) (t : JsStr) : s.messages <+: (s.readText t).messages := by
  have hline : ∀ (s : EventStream) line, s.messages <+: (s.readLine line).messages := by
    intro s line
    have hfield : ∀ name value, (s.field name value).messages = s.messages := by
      intro name value
      unfold EventStream.field
      split_ifs <;> rfl
    unfold EventStream.readLine
    dsimp only
    split_ifs
    · unfold EventStream.dispatch
      by_cases hdata : s.data = []
      · rw [if_pos hdata]
      · rw [if_neg hdata]
        exact List.prefix_append _ _
    · exact List.prefix_refl _
    · rw [hfield]
    · rw [hfield]
  induction t generalizing s with
  | nil => exact List.prefix_refl _
  | cons u t ih =>
    refine List.IsPrefix.trans ?_ (ih (s.readUnit u))
    unfold EventStream.readUnit
    split_ifs
    · exact List.prefix_refl _
    · exact hline { s with line := [] } s.line
    · exact List.prefix_refl _

/-- A text that is cut: inside its first line, or behind it. -/
theorem prefix_feed {line : JsStr} (h : t <+: line ++ 10 :: u) :
    t <+: line ∨ ∃ t', t = line ++ 10 :: t' ∧ t' <+: u := by
  induction line generalizing t with
  | nil =>
    rcases List.prefix_cons_iff.mp h with rfl | ⟨t', rfl, ht'⟩
    · exact .inl List.nil_prefix
    · exact .inr ⟨t', rfl, ht'⟩
  | cons c line ih =>
    rcases List.prefix_cons_iff.mp h with rfl | ⟨t', rfl, ht'⟩
    · exact .inl List.nil_prefix
    · rcases ih ht' with hline | ⟨t'', rfl, ht''⟩
      · exact .inl (List.cons_prefix_cons.mpr ⟨rfl, hline⟩)
      · exact .inr ⟨t'', rfl, ht''⟩

end

end NetopsCopilot
