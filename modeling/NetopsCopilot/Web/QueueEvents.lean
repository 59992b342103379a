import NetopsCopilot.Application.EventDelivery
import NetopsCopilot.JavaScript.EventSource
import NetopsCopilot.Python.Uuid
import NetopsCopilot.Web.CaseEventStream

/-!
# Live updates of the queue (`app/cases/queue-events.tsx`, `app/api/events/route.ts`)

The browser's `EventSource` connects again and again and names the last event it has dispatched; the relay asks the API
for the page behind this event and writes the events again. Either connection may be cut at any byte, and transactions
commit at any time. Whatever happens, the browser is a client of the feed that receives pages which end where a
connection was cut (`queue_events_follow_feed`).
-/

namespace NetopsCopilot

/-! ### Text without control characters -/

def NoControl (s : PyStr) : Prop := ∀ c ∈ s, 32 ≤ c.val

section

variable {s s' : PyStr}

theorem NoControl.append (hs : NoControl s) (hs' : NoControl s') : NoControl (s ++ s') := fun c hc =>
  (List.mem_append.mp hc).elim (hs c) (hs' c)

theorem NoControl.of_printable (h : Printable s) : NoControl s := fun c hc =>
  (PyChar.isPrintable_iff.mp (List.all_eq_true.mp h c hc)).1

theorem noControl_joinComma {ts : List PyStr} (h : ∀ t ∈ ts, NoControl t) : NoControl (joinComma ts) := by
  induction ts with
  | nil => exact fun _ hc => absurd hc List.not_mem_nil
  | cons t ts ih =>
    obtain ⟨ht, hts⟩ := List.forall_mem_cons.mp h
    cases ts with
    | nil => exact ht
    | cons t' ts => exact (ht.append (NoControl.of_printable (by decide))).append (ih hts)

theorem noControl_quoteChar (c : PyChar) : NoControl (quoteChar c) := by
  unfold quoteChar
  split_ifs with h1 h2 h3 h4 h5 h6 h7 h8
  · exact NoControl.of_printable (by decide)
  · exact NoControl.of_printable (by decide)
  · exact NoControl.of_printable (by decide)
  · exact NoControl.of_printable (by decide)
  · exact NoControl.of_printable (by decide)
  · exact NoControl.of_printable (by decide)
  · exact NoControl.of_printable (by decide)
  · exact NoControl.of_printable (printable_unicodeEscape c.val)
  · push Not at h8
    exact List.forall_mem_singleton.mpr h8.1

theorem noControl_quoteString (t : JsStr) : NoControl (quoteString t) := by
  refine (NoControl.append (NoControl.of_printable (by decide)) fun c hc => ?_).append
    (NoControl.of_printable (by decide))
  obtain ⟨c', -, hmem⟩ := List.mem_flatMap.mp hc
  exact noControl_quoteChar c' c hmem

theorem noControl_stringifyText (o : JsObject) : NoControl (stringifyText o) := by
  have htext : ∀ v : JsScalar, NoControl v.text := by
    intro v
    cases v with
    | null => exact NoControl.of_printable (by decide)
    | num n =>
      refine NoControl.of_printable (List.all_eq_true.mpr fun c hc => ?_)
      have hmem := of_decide_eq_true (List.all_eq_true.mp n.chars c hc)
      have hall : Printable (py "0123456789+-.e") := by decide
      exact List.all_eq_true.mp hall c hmem
    | str t => exact noControl_quoteString t
  refine (NoControl.append (NoControl.of_printable (by decide)) (noControl_joinComma fun t ht => ?_)).append
    (NoControl.of_printable (by decide))
  obtain ⟨m, -, rfl⟩ := List.mem_map.mp ht
  exact ((noControl_quoteString m.1).append (NoControl.of_printable (by decide))).append (htext m.2)

/-- No unit of the UTF-16 is a control character. -/
theorem NoControl.units (hs : NoControl s) : ∀ u ∈ jsText s, 32 ≤ u.val := by
  intro u hu
  obtain ⟨c, hc, hunit⟩ := List.mem_flatMap.mp hu
  have hlow := hs c hc
  have hhigh : c.val < 0x110000 := c.isLt
  unfold utf16 at hunit
  split_ifs at hunit
  · rw [List.mem_singleton.mp hunit]
    show 32 ≤ c.val % 0x10000
    omega
  · rw [List.mem_cons, List.mem_singleton] at hunit
    rcases hunit with rfl | rfl
    · show 32 ≤ (0xD800 + (c.val - 0x10000) / 1024) % 0x10000
      omega
    · show 32 ≤ (0xDC00 + (c.val - 0x10000) % 1024) % 0x10000
      omega

theorem NoControl.isLine (hs : NoControl s) : IsLine (jsText s) :=
  ⟨fun h => absurd (hs.units 10 h) (by decide), fun h => absurd (hs.units 13 h) (by decide)⟩

theorem noControl_uuid (u : Uuid) : NoControl (Uuid.str u) := NoControl.of_printable (printable_uuid u)

end

/-! ### Frames in the browser -/

/-- What the browser dispatches for a frame. -/
def frameMessage (f : JsStr × JsStr) : MessageEvent where
  type := js "case"
  data := f.2
  lastEventId := f.1

/-- The frames of the relay. -/
def framesText (frames : List (JsStr × JsStr)) : JsStr := frames.flatMap fun f => caseFrame f.1 f.2 ++ [10, 10]

/-- An identifier and data that a browser reads as they are. -/
structure Framed (f : JsStr × JsStr) : Prop where
  id : IsLine f.1
  data : IsLine f.2
  idNul : 0 ∉ f.1

/-- Between two events. -/
structure EventStream.AtFrame (s : EventStream) : Prop extends s.AtLine where
  data : s.data = []
  type : s.type = []

section

variable {s : EventStream} {f : JsStr × JsStr} {frames : List (JsStr × JsStr)} {t : JsStr}

theorem readLine_id (hnul : 0 ∉ f.1) : s.readLine (js "id: " ++ f.1) = { s with id := f.1 } :=
  show (if 0 ∈ f.1 then s else { s with id := f.1 }) = _ from if_neg hnul

theorem readLine_event : s.readLine (js "event: case") = { s with type := js "case" } := rfl

theorem readLine_data : s.readLine (js "data: " ++ f.2) = { s with data := s.data ++ f.2 ++ [10] } := rfl

theorem isLine_id (hf : Framed f) : IsLine (js "id: " ++ f.1) := isLine_append (by decide +kernel) hf.id

theorem isLine_event : IsLine (js "event: case") := by decide +kernel

theorem isLine_data (hf : Framed f) : IsLine (js "data: " ++ f.2) := isLine_append (by decide +kernel) hf.data

theorem frame_lines (f : JsStr × JsStr) (rest : JsStr) : caseFrame f.1 f.2 ++ [10, 10] ++ rest =
    (js "id: " ++ f.1) ++ 10 :: (js "event: case" ++ 10 :: ((js "data: " ++ f.2) ++ 10 :: 10 :: rest)) := by
  rw [caseFrame_lines]
  simp only [List.append_assoc, List.cons_append, List.nil_append]

/-- A frame is dispatched as one event. -/
theorem readText_frame (hs : s.AtFrame) (hf : Framed f) (rest : JsStr) :
    s.readText (caseFrame f.1 f.2 ++ [10, 10] ++ rest) =
      ({ s with lastEventId := f.1, id := f.1, messages := s.messages ++ [frameMessage f] } : EventStream).readText
        rest := by
  have hid := s.readLine_atLine hs.toAtLine (js "id: " ++ f.1)
  have hevent := EventStream.readLine_atLine hid (js "event: case")
  have hdata := EventStream.readLine_atLine hevent (js "data: " ++ f.2)
  have hempty : IsLine [] := ⟨List.not_mem_nil, List.not_mem_nil⟩
  have hdispatch : ({ s with id := f.1, type := js "case", data := s.data ++ f.2 ++ [10] } : EventStream).dispatch =
      { s with lastEventId := f.1, id := f.1, messages := s.messages ++ [frameMessage f] } := by
    have hne : s.data ++ f.2 ++ [10] ≠ [] := List.append_ne_nil_of_right_ne_nil _ (List.cons_ne_nil _ _)
    unfold EventStream.dispatch
    rw [if_neg hne]
    dsimp only
    rw [if_neg (by decide +kernel), if_pos List.getLast?_concat, List.dropLast_concat, hs.data, List.nil_append, hs.type]
    rfl
  calc s.readText (caseFrame f.1 f.2 ++ [10, 10] ++ rest)
      = (((s.readLine (js "id: " ++ f.1)).readLine (js "event: case")).readLine (js "data: " ++ f.2)).readText
          ([] ++ 10 :: rest) := by
        rw [frame_lines, EventStream.readText_feed hs.toAtLine (isLine_id hf),
          EventStream.readText_feed hid isLine_event, EventStream.readText_feed hevent (isLine_data hf)]
        rfl
    _ = (EventStream.dispatch { s with id := f.1, type := js "case", data := s.data ++ f.2 ++ [10] }).readText rest := by
        rw [EventStream.readText_feed hdata hempty, readLine_id hf.idNul, readLine_event, readLine_data]
        rfl
    _ = _ := by rw [hdispatch]

/-- A frame that is cut off dispatches nothing. -/
theorem readText_cut (hs : s.AtFrame) (hf : Framed f) (ht : t <+: caseFrame f.1 f.2 ++ [10]) :
    (s.readText t).lastEventId = s.lastEventId ∧ (s.readText t).messages = s.messages := by
  have hid := s.readLine_atLine hs.toAtLine (js "id: " ++ f.1)
  have hevent := EventStream.readLine_atLine hid (js "event: case")
  have hdata := EventStream.readLine_atLine hevent (js "data: " ++ f.2)
  have hpart : ∀ s' : EventStream, s'.AtLine → ∀ line, IsLine line → ∀ t, t <+: line →
      s'.readText t = { s' with line := t } := by
    intro s' hs' line hl t ht
    rw [EventStream.readText_line hs'.afterReturn (hl.of_prefix ht), hs'.line, List.nil_append]
  have htext : caseFrame f.1 f.2 ++ [10] =
      (js "id: " ++ f.1) ++ 10 :: (js "event: case" ++ 10 :: ((js "data: " ++ f.2) ++ 10 :: [])) := by
    rw [caseFrame_lines]
    simp only [List.append_assoc, List.cons_append]
  rw [htext] at ht
  rcases prefix_feed ht with ht | ⟨t₁, rfl, ht₁⟩
  · rw [hpart s hs.toAtLine _ (isLine_id hf) t ht]
    exact ⟨rfl, rfl⟩
  rw [EventStream.readText_feed hs.toAtLine (isLine_id hf)]
  rcases prefix_feed ht₁ with ht₁ | ⟨t₂, rfl, ht₂⟩
  · rw [hpart _ hid _ isLine_event t₁ ht₁, readLine_id hf.idNul]
    exact ⟨rfl, rfl⟩
  rw [EventStream.readText_feed hid isLine_event]
  rcases prefix_feed ht₂ with ht₂ | ⟨t₃, rfl, ht₃⟩
  · rw [hpart _ hevent _ (isLine_data hf) t₂ ht₂, readLine_id hf.idNul]
    exact ⟨rfl, rfl⟩
  rw [EventStream.readText_feed hevent (isLine_data hf), List.prefix_nil.mp ht₃, readLine_id hf.idNul, readLine_event,
    readLine_data]
  exact ⟨rfl, rfl⟩

/-- Of frames that are cut anywhere, the complete ones are dispatched. -/
theorem readText_frames (hs : s.AtFrame) (hframes : ∀ f ∈ frames, Framed f) (ht : t <+: framesText frames) :
    ∃ k ≤ frames.length, (s.readText t).messages = s.messages ++ (frames.take k).map frameMessage ∧
      (s.readText t).lastEventId = ((frames.take k).getLast?.map Prod.fst).getD s.lastEventId := by
  induction frames generalizing s t with
  | nil =>
    rw [List.prefix_nil.mp ht]
    exact ⟨0, le_rfl, (List.append_nil _).symm, rfl⟩
  | cons f frames ih =>
    obtain ⟨hf, hframes⟩ := List.forall_mem_cons.mp hframes
    have hsplit : ∀ rest, caseFrame f.1 f.2 ++ [10, 10] ++ rest = (caseFrame f.1 f.2 ++ [10]) ++ 10 :: rest := by
      intro rest
      simp only [List.append_assoc, List.cons_append, List.nil_append]
    have htext : framesText (f :: frames) = (caseFrame f.1 f.2 ++ [10]) ++ 10 :: framesText frames := hsplit _
    rw [htext] at ht
    rcases prefix_feed ht with ht | ⟨t', rfl, ht'⟩
    · obtain ⟨hid, hmessages⟩ := readText_cut hs hf ht
      exact ⟨0, Nat.zero_le _, hmessages.trans (List.append_nil _).symm, hid⟩
    · have hnext : EventStream.AtFrame
          { s with lastEventId := f.1, id := f.1, messages := s.messages ++ [frameMessage f] } :=
        ⟨⟨hs.line, hs.afterReturn⟩, hs.data, hs.type⟩
      obtain ⟨k, hk, hmessages, hid⟩ := ih hnext hframes ht'
      rw [← hsplit, readText_frame hs hf]
      refine ⟨k + 1, Nat.succ_le_succ hk, ?_, ?_⟩
      · rw [hmessages, List.take_succ_cons, List.map_cons, List.append_assoc, List.singleton_append]
      · rw [hid, List.take_succ_cons]
        cases hlast : (frames.take k).getLast? with
        | none =>
          rw [List.getLast?_eq_none_iff.mp hlast]
          rfl
        | some last =>
          rw [List.getLast?_cons, hlast]
          rfl

end

/-! ### Bytes in the browser -/

section

variable {source : EventSource} {base : EventStream} {received bytes : List Utf8.Byte}

/-- A connection whose reader began as `base` and has received these bytes, in chunks of any kind. -/
structure Arrived (source : EventSource) (base : EventStream) (received : List Utf8.Byte) : Prop where
  stream : source.stream = base.readText (jsText (Utf8.decode {} received).1)
  utf8 : source.decoder.utf8 = (Utf8.decode {} received).2
  started : source.decoder.started = !(Utf8.decode {} received).1.isEmpty

theorem arrived_connect (source : EventSource) : Arrived source.connect source.connect.stream [] := ⟨rfl, rfl, rfl⟩

theorem Arrived.readBytes (h : Arrived source base received)
    (hmark : (Utf8.decode {} (received ++ bytes)).1.head? ≠ some 0xFEFF) :
    Arrived (source.readBytes bytes) base (received ++ bytes) := by
  obtain ⟨hstream, hutf8, hstarted⟩ := h
  rw [Utf8.decode_append] at hmark
  dsimp only at hmark
  -- no byte order mark is dropped
  have hdrop : ∀ out : PyStr, ((Utf8.decode {} received).1 ++ out).head? ≠ some 0xFEFF →
      (if (!source.decoder.started && out.head? == some 0xFEFF) = true then out.tail else out) = out := by
    intro out hhead
    refine if_neg fun hbom => hhead ?_
    rw [hstarted, Bool.not_not, Bool.and_eq_true, List.isEmpty_iff, beq_iff_eq] at hbom
    rw [hbom.1, List.nil_append, hbom.2]
  have hdecode : source.decoder.decode bytes =
      (jsText (Utf8.decode (Utf8.decode {} received).2 bytes).1,
        { utf8 := (Utf8.decode (Utf8.decode {} received).2 bytes).2
          started := !((Utf8.decode {} received).1 ++ (Utf8.decode (Utf8.decode {} received).2 bytes).1).isEmpty }) := by
    unfold TextDecoder.decode
    rw [hutf8]
    dsimp only
    rw [hdrop _ hmark, hstarted]
    cases (Utf8.decode {} received).1 <;> rfl
  unfold EventSource.readBytes
  rw [hdecode]
  refine ⟨?_, ?_, ?_⟩ <;> rw [Utf8.decode_append]
  dsimp only
  rw [hstream, ← EventStream.readText_append, ← jsText_append]

end

/-! ### The relay in front of the browser -/

section

variable (isoformat : Instant → PyStr) (numberOf : Nat → JsNumber) (jsonParse : JsStr → Option JsObject)

/-- The id and the data that the relay writes for an event. -/
def relayed (e : CaseFeedEvent) : JsStr × JsStr :=
  (jsText (Uuid.str e.eventId), stringify (eventData isoformat numberOf e))

/-- What the relay reads of the bytes for a page: all of them, or those in front of where its connection breaks off. -/
structure Upstream (page : List CaseFeedEvent) (chunks : List (List Utf8.Byte)) (ended : Bool) : Prop where
  received : ∃ bytes, encodeUtf8 (sseEvents isoformat page) = some bytes ∧ chunks.flatten <+: bytes ∧
    (ended = true → chunks.flatten = bytes)

/-- The events that the relay enqueues; it catches the error of a connection that breaks off. -/
def relayEvents (chunks : List (List Utf8.Byte)) (ended : Bool) : List CaseEventStreamEvent :=
  if ended then
    match streamCaseEvents jsonParse chunks with
    | .ok events | .error events => events
  else
    match chunks.foldlM (EventReader.readChunk jsonParse) {} with
    | .ok r => r.yielded
    | .error events => events

variable {isoformat numberOf jsonParse}

theorem jsText_frameTemplate (id data : PyStr) :
    jsText (frameTemplate id data) = caseFrame (jsText id) (jsText data) ++ [10, 10] := by
  unfold frameTemplate
  rw [jsText_append, jsText_append, jsText_append, jsText_append]
  rfl

theorem isScalar_sseEvents (page : List CaseFeedEvent) : ∀ c ∈ sseEvents isoformat page, Utf8.IsScalar c := by
  intro c hc
  obtain ⟨e, -, hce⟩ := List.mem_flatMap.mp hc
  exact isScalar_frameTemplate (plain_uuid _) (plain_payloadText e) c hce

/-- The frames of a text that is written with the template. -/
theorem reading_template {page : List CaseFeedEvent}
    (hparse : ∀ e ∈ page, jsonParse (jsText (payloadText isoformat e)) = some (eventData isoformat numberOf e)) :
    ∃ frames, frames.map Prod.snd = page.map (streamEvent isoformat numberOf) ∧
      (∀ f ∈ frames, Delivers jsonParse f.1 f.2) ∧
      Reading {} (Utf8.encode (sseEvents isoformat page)) frames := by
  refine ⟨page.map fun e => (caseFrame (jsText (Uuid.str e.eventId)) (jsText (payloadText isoformat e)),
    streamEvent isoformat numberOf e), ?_, ?_, ⟨_, Utf8.decode_encode (isScalar_sseEvents page), ?_, fun _ => ?_⟩, rfl⟩
  · rw [List.map_map]
    rfl
  · intro f hf
    obtain ⟨e, he, rfl⟩ := List.mem_map.mp hf
    exact caseFrame_delivers (plain_uuid _).not_mem (plain_payloadText e).not_mem (hparse e he)
  · show jsText (page.flatMap _) = (page.map _).flatMap _
    rw [jsText, List.flatMap_assoc, List.flatMap_map]
    exact List.flatMap_congr fun e _ => jsText_frameTemplate _ _
  · cases page with
    | nil => exact (Option.some_ne_none _).symm
    | cons e page =>
      intro hhead
      have hval : 105 = 0xFEFF := congrArg Fin.val (Option.some.inj hhead)
      omega

/-- A part of the bytes is read. -/
theorem foldlM_readChunk_part {frames : List (JsStr × CaseEventStreamEvent)}
    (hframes : ∀ f ∈ frames, Delivers jsonParse f.1 f.2) {r : EventReader} {chunks : List (List Utf8.Byte)}
    {bytes : List Utf8.Byte} (h : Reading r (chunks.flatten ++ bytes) frames) :
    ∃ complete rest r', frames = complete ++ rest ∧ r'.yielded = r.yielded ++ complete.map Prod.snd ∧
      chunks.foldlM (EventReader.readChunk jsonParse) r = .ok r' := by
  induction chunks generalizing r frames with
  | nil => exact ⟨[], frames, r, rfl, (List.append_nil _).symm, rfl⟩
  | cons chunk chunks ih =>
    rw [List.flatten_cons, List.append_assoc] at h
    obtain ⟨complete, rest, r', rfl, hreading, hyielded, hread⟩ := readChunk_frames hframes h
    obtain ⟨complete', rest', r'', rfl, hyielded', hfold⟩ :=
      ih (fun f hf => hframes f (List.mem_append_right _ hf)) hreading
    refine ⟨complete ++ complete', rest', r'', (List.append_assoc _ _ _).symm, ?_, ?_⟩
    · rw [hyielded', hyielded, List.append_assoc, List.map_append]
    · rw [List.foldlM_cons, hread]
      exact hfold

/-- The relay enqueues the first events of the page. -/
theorem relayEvents_page {page : List CaseFeedEvent} {chunks : List (List Utf8.Byte)} {ended : Bool}
    (hparse : ∀ e ∈ page, jsonParse (jsText (payloadText isoformat e)) = some (eventData isoformat numberOf e))
    (h : Upstream isoformat page chunks ended) :
    ∃ j ≤ page.length, relayEvents jsonParse chunks ended = (page.take j).map (streamEvent isoformat numberOf) := by
  obtain ⟨bytes, hbytes, hprefix, hended⟩ := h.received
  have hencode : bytes = Utf8.encode (sseEvents isoformat page) := by
    unfold encodeUtf8 at hbytes
    split_ifs at hbytes
    exact (Option.some.inj hbytes).symm
  unfold relayEvents
  cases ended with
  | true =>
    have hstream : streamCaseEvents jsonParse chunks = .ok (page.map (streamEvent isoformat numberOf)) :=
      streamCaseEvents_template (fun e _ => plain_payloadText e) hparse ((hended rfl).trans hencode)
    rw [if_pos rfl, hstream]
    exact ⟨page.length, le_rfl, by rw [List.take_length]⟩
  | false =>
    obtain ⟨frames, hevents, hframes, hreading⟩ := reading_template hparse
    obtain ⟨rest, hrest⟩ := hprefix
    rw [← hencode, ← hrest] at hreading
    obtain ⟨complete, left, r', rfl, hyielded, hfold⟩ := foldlM_readChunk_part hframes hreading
    rw [if_neg Bool.false_ne_true, hfold]
    refine ⟨complete.length, ?_, ?_⟩
    · have hlength := congrArg List.length hevents
      rw [List.length_map, List.length_map, List.length_append] at hlength
      omega
    · dsimp only
      rw [hyielded, List.map_take, ← hevents, List.map_append, List.take_left' (List.length_map _)]
      rfl

/-- The bytes of the relay. -/
theorem relayBytes_page (page : List CaseFeedEvent) :
    ∃ text : PyStr, relayBytes (page.map (streamEvent isoformat numberOf)) = Utf8.encode text ∧
      (∀ c ∈ text, Utf8.IsScalar c) ∧ text.head? ≠ some 0xFEFF ∧
      jsText text = framesText (page.map (relayed isoformat numberOf)) := by
  have hscalar : ∀ e : CaseFeedEvent, ∀ c ∈ frameTemplate (Uuid.str e.eventId)
      (stringifyText (eventData isoformat numberOf e)), Utf8.IsScalar c := fun e =>
    isScalar_frameTemplate (plain_uuid _) (plain_stringifyText _)
  have hrelay : ∀ e : CaseFeedEvent, relayFrame (streamEvent isoformat numberOf e) =
      jsText (frameTemplate (Uuid.str e.eventId) (stringifyText (eventData isoformat numberOf e))) := by
    intro e
    have hmiddle : jsText (py "\nevent: case\ndata: ") =
        jsText (py "\nevent: ") ++ (jsText (py "case") ++ jsText (py "\ndata: ")) := rfl
    unfold frameTemplate relayFrame streamEvent js stringify
    simp only [jsText_append, hmiddle, List.append_assoc]
  refine ⟨page.flatMap fun e => frameTemplate (Uuid.str e.eventId) (stringifyText (eventData isoformat numberOf e)),
    ?_, ?_, ?_, ?_⟩
  · show (page.map _).flatMap _ = (page.flatMap _).flatMap _
    rw [List.flatMap_map, List.flatMap_assoc]
    refine List.flatMap_congr fun e _ => ?_
    rw [hrelay]
    unfold encodeText
    rw [scalarValues_jsText (hscalar e)]
    rfl
  · intro c hc
    obtain ⟨e, -, hce⟩ := List.mem_flatMap.mp hc
    exact hscalar e c hce
  · cases page with
    | nil => exact (Option.some_ne_none _).symm
    | cons e page =>
      intro hhead
      have hval : 105 = 0xFEFF := congrArg Fin.val (Option.some.inj hhead)
      omega
  · show jsText (page.flatMap _) = (page.map _).flatMap _
    rw [jsText, List.flatMap_assoc, List.flatMap_map]
    refine List.flatMap_congr fun e _ => ?_
    unfold relayed stringify
    dsimp only
    exact jsText_frameTemplate _ _

theorem relayed_id (e : CaseFeedEvent) : (relayed isoformat numberOf e).1 = jsText (Uuid.str e.eventId) := by
  unfold relayed
  dsimp only

theorem relayed_framed (e : CaseFeedEvent) : Framed (relayed isoformat numberOf e) := by
  have hid : NoControl (Uuid.str e.eventId) := noControl_uuid e.eventId
  have hdata : NoControl (stringifyText (eventData isoformat numberOf e)) := noControl_stringifyText _
  unfold relayed stringify
  constructor <;> dsimp only
  · exact hid.isLine
  · exact hdata.isLine
  · exact fun h => absurd (hid.units 0 h) (by decide)

/-- The text of bytes that are cut. -/
theorem decode_part {received coming : List Utf8.Byte} {page : List CaseFeedEvent}
    (hbytes : received ++ coming = relayBytes (page.map (streamEvent isoformat numberOf))) :
    jsText (Utf8.decode {} received).1 <+: framesText (page.map (relayed isoformat numberOf)) ∧
      (Utf8.decode {} received).1.head? ≠ some 0xFEFF := by
  obtain ⟨text, hencode, hscalar, hmark, htext⟩ := @relayBytes_page isoformat numberOf page
  have hdecode := Utf8.decode_encode hscalar
  rw [← hencode, ← hbytes, Utf8.decode_append, Prod.mk.injEq] at hdecode
  rw [← htext, ← hdecode.1, jsText_append]
  refine ⟨List.prefix_append _ _, fun hhead => hmark ?_⟩
  rw [← hdecode.1, List.head?_append, hhead]
  rfl

end

/-- What the browser dispatches for an event of the feed. -/
def caseMessage (isoformat : Instant → PyStr) (numberOf : Nat → JsNumber) (e : CaseFeedEvent) : MessageEvent :=
  frameMessage (relayed isoformat numberOf e)

section

variable {isoformat : Instant → PyStr} {numberOf : Nat → JsNumber} {source : EventSource} {base : EventStream}
  {received coming : List Utf8.Byte} {page : List CaseFeedEvent}

/-- The browser has dispatched the first events of the page. -/
theorem Arrived.messages (h : Arrived source base received) (hbase : base.AtFrame)
    (hbytes : received ++ coming = relayBytes (page.map (streamEvent isoformat numberOf))) :
    ∃ k ≤ page.length,
      source.stream.messages = base.messages ++ (page.take k).map (caseMessage isoformat numberOf) ∧
      source.stream.lastEventId =
        ((page.take k).getLast?.map fun e => jsText (Uuid.str e.eventId)).getD base.lastEventId := by
  have hframes : ∀ f ∈ page.map (relayed isoformat numberOf), Framed f := by
    intro f hf
    obtain ⟨e, -, rfl⟩ := List.mem_map.mp hf
    exact relayed_framed e
  obtain ⟨k, hk, hmessages, hid⟩ := readText_frames hbase hframes (decode_part hbytes).1
  rw [List.length_map] at hk
  refine ⟨k, hk, ?_, ?_⟩
  · rw [h.stream, hmessages, ← List.map_take, List.map_map]
    rfl
  · have hids : Prod.fst ∘ relayed isoformat numberOf = fun e => jsText (Uuid.str e.eventId) := by
      funext e
      exact relayed_id e
    rw [h.stream, hid, ← List.map_take, List.getLast?_map, Option.map_map, hids]

end

/-! ### Runs -/

/-- A connection of the browser: closed, behind the first statement of the API's call, or with bytes to come. -/
inductive QueueConnection where
  | closed
  | lookedUp (position : Instant ×ₗ Uuid)
  | streaming (coming : List Utf8.Byte)

/-- The committed database and `QueueEvents`, whose timer `scheduleRefresh` sets; `refreshed` counts the events that
had been dispatched at the last `router.refresh()`. -/
structure QueueState where
  db : Db
  source : EventSource := {}
  connection : QueueConnection := .closed
  refreshTimer : Bool := false
  refreshed : Nat := 0

/-- A connection is answered. -/
def QueueState.answer (s : QueueState) (bytes : List Utf8.Byte) : QueueState :=
  { s with source := s.source.connect, connection := .streaming bytes }

/-- Bytes arrive, and events of the type `case` schedule a refresh. -/
def QueueState.arrive (s : QueueState) (bytes coming : List Utf8.Byte) : QueueState :=
  { s with
    source := s.source.readBytes bytes
    connection := .streaming coming
    refreshTimer := s.refreshTimer ||
      ((s.source.readBytes bytes).stream.messages.drop s.source.stream.messages.length).any (·.type == js "case") }

section

variable (isoformat : Instant → PyStr) (jsonParse : JsStr → Option JsObject) (U : UnicodeData)
  (organizationId : Uuid) (assetIds : List Uuid)

/-- A transaction commits, a part of a connection happens, or the timer ends. The relay asks for pages of 100. -/
inductive QueueStep (s : QueueState) : QueueState → Prop
  | commit (db' : Db) (hcommit : FeedCommit s.db db') : QueueStep s { s with db := db' }
  | openInitial (chunks : List (List Utf8.Byte)) (ended : Bool) (hclosed : s.connection = .closed)
    (hid : s.source.stream.lastEventId = [])
    (hupstream : Upstream isoformat (selectInitialPage organizationId assetIds 100 s.db) chunks ended) :
    QueueStep s (s.answer (relayBytes (relayEvents jsonParse chunks ended)))
  | lookUp (afterEventId : Uuid) (occurredAt : Instant) (hclosed : s.connection = .closed)
    (hid : s.source.stream.lastEventId ≠ [])
    (hparse : parseLastEventId (uuidOfText U) (some (scalarValues s.source.stream.lastEventId)) =
      .ok (some afterEventId))
    (hselect : selectVisibleCursor organizationId assetIds afterEventId s.db = .ok occurredAt) :
    QueueStep s { s with connection := .lookedUp (toLex (occurredAt, afterEventId)) }
  | openAfter (position : Instant ×ₗ Uuid) (chunks : List (List Utf8.Byte)) (ended : Bool)
    (hlookedUp : s.connection = .lookedUp position)
    (hupstream : Upstream isoformat (selectPageAfterCursor organizationId assetIds position 100 s.db) chunks ended) :
    QueueStep s (s.answer (relayBytes (relayEvents jsonParse chunks ended)))
  | arrive (bytes coming : List Utf8.Byte) (hstreaming : s.connection = .streaming (bytes ++ coming)) :
    QueueStep s (s.arrive bytes coming)
  /-- The connection ends, fails or is refused. -/
  | close : QueueStep s { s with connection := .closed }
  | refresh (htimer : s.refreshTimer = true) :
    QueueStep s { s with refreshTimer := false, refreshed := s.source.stream.messages.length }

/-- The states of a run that begins when the page is opened. -/
inductive QueueRun : QueueState → Prop
  | start (db : Db) (hkeys : FeedKeys db) : QueueRun { db := db }
  | step {s s' : QueueState} (hrun : QueueRun s)
    (hstep : QueueStep isoformat jsonParse U organizationId assetIds s s') : QueueRun s'

end

/-! ### The client of the feed behind a browser -/

/-- The id that a browser keeps for a cursor. -/
def cursorText (cursor : Option Uuid) : JsStr := (cursor.map fun id => jsText (Uuid.str id)).getD []

/-- The header of the id. -/
theorem scalarValues_cursorText (id : Uuid) : scalarValues (cursorText (some id)) = Uuid.str id := by
  rw [cursorText, Option.map_some, Option.getD_some]
  exact scalarValues_jsText fun c hc => (plain_uuid id c hc).1

theorem cursorText_some_ne (id : Uuid) : cursorText (some id) ≠ [] := by
  intro h
  have htext := scalarValues_cursorText id
  have hlength := length_uuid id
  rw [h] at htext
  rw [← htext] at hlength
  cases hlength

section

variable {organizationId : Uuid} {assetIds : List Uuid} {db : Db}

theorem selectVisibleCursor_ok_iff (hkeys : FeedKeys db) {eventId : Uuid} {occurredAt : Instant} :
    selectVisibleCursor organizationId assetIds eventId db = .ok occurredAt ↔
      ∃ e ∈ db.events, e.visible db.cases organizationId assetIds = true ∧ e.id = eventId ∧
        e.occurredAt = occurredAt := by
  have hfilter : ∀ e, e ∈ db.events.filter (fun e => EventRow.visible db.cases organizationId assetIds e &&
      e.id == eventId) ↔ e ∈ db.events ∧ e.visible db.cases organizationId assetIds = true ∧ e.id = eventId := by
    intro e
    rw [List.mem_filter, Bool.and_eq_true, beq_iff_eq]
  have hnodup := (List.Nodup.of_map _ hkeys.events).filter fun e =>
    EventRow.visible db.cases organizationId assetIds e && e.id == eventId
  unfold selectVisibleCursor
  generalize db.events.filter _ = found at hfilter hnodup
  cases found with
  | nil =>
    constructor
    · intro h
      cases h
    · rintro ⟨e, he, hvisible, hid, -⟩
      exact absurd ((hfilter e).mpr ⟨he, hvisible, hid⟩) List.not_mem_nil
  | cons cursor rest =>
    obtain ⟨hmem, hvisible, hid⟩ := (hfilter cursor).mp List.mem_cons_self
    cases rest with
    | nil =>
      constructor
      · intro h
        cases h
        exact ⟨cursor, hmem, hvisible, hid, rfl⟩
      · rintro ⟨e, he, hvisible', hid', rfl⟩
        rw [List.mem_singleton.mp ((hfilter e).mpr ⟨he, hvisible', hid'⟩)]
    | cons other rest =>
      obtain ⟨hmem', -, hid'⟩ := (hfilter other).mp (List.mem_cons_of_mem _ List.mem_cons_self)
      have hsame : cursor = other := hkeys.eq_of_id hmem hmem' (hid.trans hid'.symm)
      exact absurd (hsame ▸ List.mem_cons_self) (List.nodup_cons.mp hnodup).1

theorem selectInitialPage_take {k : ℕ} (hk : k ≤ 100) :
    (selectInitialPage organizationId assetIds 100 db).take k = selectInitialPage organizationId assetIds k db := by
  unfold selectInitialPage feedPage
  rw [← List.map_take, List.take_take, Int.toNat_natCast, min_eq_left (show k ≤ Int.toNat 100 from hk)]

theorem selectPageAfterCursor_take {position : Instant ×ₗ Uuid} {k : ℕ} (hk : k ≤ 100) :
    (selectPageAfterCursor organizationId assetIds position 100 db).take k =
      selectPageAfterCursor organizationId assetIds position k db := by
  unfold selectPageAfterCursor feedPage
  rw [← List.map_take, List.take_take, Int.toNat_natCast, min_eq_left (show k ≤ Int.toNat 100 from hk)]

theorem length_selectInitialPage : (selectInitialPage organizationId assetIds 100 db).length ≤ 100 := by
  unfold selectInitialPage feedPage
  rw [List.length_map]
  exact List.length_take_le _ _

theorem length_selectPageAfterCursor {position : Instant ×ₗ Uuid} :
    (selectPageAfterCursor organizationId assetIds position 100 db).length ≤ 100 := by
  unfold selectPageAfterCursor feedPage
  rw [List.length_map]
  exact List.length_take_le _ _

end

section

variable (isoformat : Instant → PyStr) (numberOf : Nat → JsNumber) (organizationId : Uuid) (assetIds : List Uuid)

/-- The browser has dispatched what the client has received, and names its cursor. -/
structure Shows (stream : EventStream) (a : DeliveryState) : Prop where
  messages : stream.messages = a.delivered.map (caseMessage isoformat numberOf)
  lastEventId : stream.lastEventId = cursorText a.cursor

/-- The client may receive any front of a page. -/
def DeliveryState.Offers (a : DeliveryState) (page : List CaseFeedEvent) : Prop :=
  ∀ k ≤ page.length, 1 ≤ k → DeliveryRun organizationId assetIds (a.receive k (page.take k))

/-- While a connection is open, the client has not received its page; where the page ends is known when the
connection is closed. So the client's database is one from before. -/
def QueueConnection.Follows (connection : QueueConnection) (db : Db) (source : EventSource) (a : DeliveryState) : Prop :=
  match connection with
  | .closed => Shows isoformat numberOf source.stream a
  | .lookedUp position => Shows isoformat numberOf source.stream a ∧
      ∃ e ∈ db.events, e.visible db.cases organizationId assetIds = true ∧ e.feedKey = position ∧ a.cursor = some e.id
  | .streaming coming => ∃ page base received, base.AtFrame ∧ Shows isoformat numberOf base a ∧
      a.Offers organizationId assetIds page ∧ Arrived source base received ∧
      received ++ coming = relayBytes (page.map (streamEvent isoformat numberOf))

structure QueueState.Follows (s : QueueState) (a : DeliveryState) : Prop where
  run : DeliveryRun organizationId assetIds a
  idle : a.reading = none
  keys : FeedKeys s.db
  commits : Relation.ReflTransGen FeedCommit a.db s.db
  connection : s.connection.Follows isoformat numberOf organizationId assetIds s.db s.source a
  refreshed : s.refreshTimer = false → s.refreshed = s.source.stream.messages.length

end

section

variable {isoformat : Instant → PyStr} {numberOf : Nat → JsNumber} {jsonParse : JsStr → Option JsObject}
  {U : UnicodeData} {organizationId : Uuid} {assetIds : List Uuid} {s s' : QueueState} {a : DeliveryState}

/-- The client sees what has been committed meanwhile. -/
theorem catch_up (hrun : DeliveryRun organizationId assetIds a) {db : Db}
    (hcommits : Relation.ReflTransGen FeedCommit a.db db) : DeliveryRun organizationId assetIds { a with db := db } := by
  induction hcommits with
  | refl => exact hrun
  | tail _ hcommit ih => exact ih.step (.commit _ hcommit)

/-- The client that receives what the browser has dispatched of a page. -/
theorem follows_received (hrun : DeliveryRun organizationId assetIds a) (hidle : a.reading = none)
    {page : List CaseFeedEvent} {base : EventStream} {source : EventSource} {received coming : List Utf8.Byte}
    (hbase : base.AtFrame) (hshows : Shows isoformat numberOf base a) (hoffers : a.Offers organizationId assetIds page)
    (harrived : Arrived source base received)
    (hbytes : received ++ coming = relayBytes (page.map (streamEvent isoformat numberOf))) :
    ∃ a', DeliveryRun organizationId assetIds a' ∧ a'.reading = none ∧ a'.db = a.db ∧
      Shows isoformat numberOf source.stream a' := by
  obtain ⟨k, hk, hmessages, hid⟩ := harrived.messages hbase hbytes
  by_cases hzero : k = 0
  · subst hzero
    exact ⟨a, hrun, hidle, rfl, by rw [hmessages, hshows.messages]; exact List.append_nil _,
      by rw [hid, ← hshows.lastEventId]; rfl⟩
  · refine ⟨a.receive k (page.take k), hoffers k hk (Nat.one_le_iff_ne_zero.mpr hzero), rfl, rfl, ?_, ?_⟩
    · rw [hmessages, DeliveryState.delivered_receive, List.map_append, hshows.messages]
    · rw [hid, hshows.lastEventId]
      unfold DeliveryState.receive cursorText
      dsimp only
      cases (page.take k).getLast? <;> rfl

/-- Behind every state there is a client that has received what the browser has dispatched. -/
theorem QueueState.Follows.shows (h : s.Follows isoformat numberOf organizationId assetIds a) :
    ∃ a', DeliveryRun organizationId assetIds a' ∧ a'.reading = none ∧
      Relation.ReflTransGen FeedCommit a'.db s.db ∧ Shows isoformat numberOf s.source.stream a' := by
  have hconnection := h.connection
  cases hstate : s.connection with
  | closed =>
    rw [hstate] at hconnection
    exact ⟨a, h.run, h.idle, h.commits, hconnection⟩
  | lookedUp position =>
    rw [hstate] at hconnection
    exact ⟨a, h.run, h.idle, h.commits, hconnection.1⟩
  | streaming coming =>
    rw [hstate] at hconnection
    obtain ⟨page, base, received, hbase, hshows, hoffers, harrived, hbytes⟩ := hconnection
    obtain ⟨a', hrun, hidle, hdb, hshown⟩ :=
      follows_received h.run h.idle hbase hshows hoffers harrived hbytes
    exact ⟨a', hrun, hidle, hdb ▸ h.commits, hshown⟩

/-- A front of a page of the relay's limit is a page of its own. -/
theorem offers_take {page : List CaseFeedEvent} (hpage : page.length ≤ 100)
    (h : ∀ k : ℕ, 1 ≤ k → k ≤ 100 → DeliveryRun organizationId assetIds (a.receive k (page.take k))) (j : ℕ) :
    a.Offers organizationId assetIds (page.take j) := by
  intro k hk hone
  have hkj : k ≤ j := hk.trans (List.length_take_le _ _)
  have hlength : k ≤ page.length := hk.trans (List.length_take_le' _ _)
  rw [List.take_take, min_eq_left hkj]
  exact h k hone (hlength.trans hpage)

/-- A connection is answered with a page. -/
theorem QueueState.Follows.answer (h : s.Follows isoformat numberOf organizationId assetIds a)
    (hshows : Shows isoformat numberOf s.source.stream a) {page : List CaseFeedEvent} (hpage : page.length ≤ 100)
    (hparse : ∀ e ∈ page, jsonParse (jsText (payloadText isoformat e)) = some (eventData isoformat numberOf e))
    {chunks : List (List Utf8.Byte)} {ended : Bool} (hupstream : Upstream isoformat page chunks ended)
    (hreceive : ∀ k : ℕ, 1 ≤ k → k ≤ 100 →
      DeliveryRun organizationId assetIds (DeliveryState.receive { a with db := s.db } k (page.take k))) :
    (s.answer (relayBytes (relayEvents jsonParse chunks ended))).Follows isoformat numberOf organizationId assetIds
      { a with db := s.db } := by
  obtain ⟨j, -, hrelay⟩ := relayEvents_page hparse hupstream
  refine ⟨catch_up h.run h.commits, h.idle, h.keys, .refl, ?_, h.refreshed⟩
  exact ⟨page.take j, s.source.connect.stream, [], ⟨⟨rfl, rfl⟩, rfl, rfl⟩, ⟨hshows.messages, hshows.lastEventId⟩,
    offers_take hpage hreceive j, arrived_connect s.source, by rw [hrelay]; rfl⟩

theorem QueueState.Follows.openInitial (h : s.Follows isoformat numberOf organizationId assetIds a)
    (hclosed : s.connection = .closed) (hid : s.source.stream.lastEventId = [])
    (hparse : ∀ e ∈ s.db.events, jsonParse (jsText (payloadText isoformat (feedEvent e))) =
      some (eventData isoformat numberOf (feedEvent e)))
    {chunks : List (List Utf8.Byte)} {ended : Bool}
    (hupstream : Upstream isoformat (selectInitialPage organizationId assetIds 100 s.db) chunks ended) :
    (s.answer (relayBytes (relayEvents jsonParse chunks ended))).Follows isoformat numberOf organizationId assetIds
      { a with db := s.db } := by
  have hshows : Shows isoformat numberOf s.source.stream a := by
    have hconnection := h.connection
    rwa [hclosed] at hconnection
  have hcursor : a.cursor = none := by
    cases hcursor : a.cursor with
    | none => rfl
    | some id =>
      have htext := hshows.lastEventId
      rw [hid, hcursor] at htext
      exact absurd htext.symm (cursorText_some_ne id)
  refine h.answer hshows length_selectInitialPage ?_ hupstream fun k hone hk => ?_
  · intro e he
    obtain ⟨row, hrow, rfl⟩ := List.mem_map.mp he
    exact hparse row (mem_of_mem_feedPage hrow).1
  · rw [selectInitialPage_take hk]
    exact (catch_up h.run h.commits).step (.initialPage k ⟨by omega, by omega⟩ h.idle hcursor)

theorem QueueState.Follows.openAfter (h : s.Follows isoformat numberOf organizationId assetIds a)
    {position : Instant ×ₗ Uuid} (hlookedUp : s.connection = .lookedUp position)
    (hparse : ∀ e ∈ s.db.events, jsonParse (jsText (payloadText isoformat (feedEvent e))) =
      some (eventData isoformat numberOf (feedEvent e)))
    {chunks : List (List Utf8.Byte)} {ended : Bool}
    (hupstream : Upstream isoformat (selectPageAfterCursor organizationId assetIds position 100 s.db) chunks ended) :
    (s.answer (relayBytes (relayEvents jsonParse chunks ended))).Follows isoformat numberOf organizationId assetIds
      { a with db := s.db } := by
  have hconnection := h.connection
  rw [hlookedUp] at hconnection
  obtain ⟨hshows, e, he, hvisible, rfl, hcursor⟩ := hconnection
  refine h.answer hshows length_selectPageAfterCursor ?_ hupstream fun k hone hk => ?_
  · intro event hevent
    obtain ⟨row, hrow, rfl⟩ := List.mem_map.mp hevent
    exact hparse row (mem_of_mem_feedPage hrow).1
  · rw [selectPageAfterCursor_take hk]
    have hselect : selectVisibleCursor organizationId assetIds e.id s.db = .ok e.occurredAt :=
      (selectVisibleCursor_ok_iff h.keys).mpr ⟨e, he, hvisible, rfl, rfl⟩
    -- the client looks its cursor up again; the position is the same
    have hreading : DeliveryRun organizationId assetIds { a with db := s.db, reading := some ((k : Int), e.feedKey) } :=
      (catch_up h.run h.commits).step (DeliveryStep.cursor (s := { a with db := s.db }) k ⟨by omega, by omega⟩ h.idle e.id
        hcursor e.occurredAt hselect)
    exact hreading.step (.pageAfterCursor k e.feedKey rfl)

theorem QueueState.Follows.lookUp (h : s.Follows isoformat numberOf organizationId assetIds a)
    {afterEventId : Uuid} {occurredAt : Instant} (hclosed : s.connection = .closed)
    (hid : s.source.stream.lastEventId ≠ [])
    (hparse : parseLastEventId (uuidOfText U) (some (scalarValues s.source.stream.lastEventId)) =
      .ok (some afterEventId))
    (hselect : selectVisibleCursor organizationId assetIds afterEventId s.db = .ok occurredAt) :
    QueueState.Follows isoformat numberOf organizationId assetIds
      { s with connection := .lookedUp (toLex (occurredAt, afterEventId)) } a := by
  have hshows : Shows isoformat numberOf s.source.stream a := by
    have hconnection := h.connection
    rwa [hclosed] at hconnection
  have hcursor : a.cursor = some afterEventId := by
    rw [hshows.lastEventId] at hid hparse
    cases hcursor : a.cursor with
    | none =>
      rw [hcursor] at hid
      exact absurd rfl hid
    | some id =>
      rw [hcursor, scalarValues_cursorText] at hparse
      unfold parseLastEventId at hparse
      dsimp only at hparse
      rw [uuidOfText_str] at hparse
      cases hparse
      rfl
  obtain ⟨e, he, hvisible, rfl, rfl⟩ := (selectVisibleCursor_ok_iff h.keys).mp hselect
  exact ⟨h.run, h.idle, h.keys, h.commits, ⟨hshows, e, he, hvisible, rfl, hcursor⟩, h.refreshed⟩

theorem QueueState.Follows.commit (h : s.Follows isoformat numberOf organizationId assetIds a) {db' : Db}
    (hcommit : FeedCommit s.db db') :
    QueueState.Follows isoformat numberOf organizationId assetIds { s with db := db' } a := by
  refine ⟨h.run, h.idle, hcommit.keys, h.commits.tail hcommit, ?_, h.refreshed⟩
  have hconnection := h.connection
  dsimp only
  cases hstate : s.connection with
  | closed =>
    rw [hstate] at hconnection
    exact hconnection
  | lookedUp position =>
    rw [hstate] at hconnection
    obtain ⟨hshows, e, he, hvisible, hkey, hcursor⟩ := hconnection
    refine ⟨hshows, e, hcommit.subset he, ?_, hkey, hcursor⟩
    rw [hcommit.visible h.keys he]
    exact hvisible
  | streaming coming =>
    rw [hstate] at hconnection
    exact hconnection

/-- All that the browser dispatches is of the type `case`, so new events schedule a refresh. -/
theorem QueueState.Follows.arrive (h : s.Follows isoformat numberOf organizationId assetIds a)
    {bytes coming : List Utf8.Byte} (hstreaming : s.connection = .streaming (bytes ++ coming)) :
    (s.arrive bytes coming).Follows isoformat numberOf organizationId assetIds a := by
  have hconnection := h.connection
  rw [hstreaming] at hconnection
  obtain ⟨page, base, received, hbase, hshows, hoffers, harrived, hbytes⟩ := hconnection
  rw [← List.append_assoc] at hbytes
  have hmore : Arrived (s.source.readBytes bytes) base (received ++ bytes) := harrived.readBytes (decode_part hbytes).2
  refine ⟨h.run, h.idle, h.keys, h.commits,
    ⟨page, base, received ++ bytes, hbase, hshows, hoffers, hmore, hbytes⟩, fun htimer => ?_⟩
  obtain ⟨htimer, hnew⟩ := Bool.or_eq_false_iff.mp htimer
  obtain ⟨new, hmessages⟩ := s.source.stream.messages_prefix (s.source.decoder.decode bytes).1
  have hafter : (s.source.readBytes bytes).stream.messages = s.source.stream.messages ++ new := hmessages.symm
  obtain ⟨k, -, hcases, -⟩ := hmore.messages hbase hbytes
  have htype : ∀ m ∈ new, m.type = js "case" := by
    intro m hm
    have hmem : m ∈ (a.delivered ++ page.take k).map (caseMessage isoformat numberOf) := by
      rw [List.map_append, ← hshows.messages, ← hcases, hafter]
      exact List.mem_append_right _ hm
    obtain ⟨e, -, rfl⟩ := List.mem_map.mp hmem
    rfl
  rw [hafter, List.drop_left] at hnew
  have hnone : new = [] := by
    cases new with
    | nil => rfl
    | cons m new =>
      rw [List.any_cons, htype m List.mem_cons_self, beq_self_eq_true, Bool.true_or] at hnew
      cases hnew
  show s.refreshed = (s.source.readBytes bytes).stream.messages.length
  rw [hafter, hnone, List.append_nil]
  exact h.refreshed htimer

/-- One step of the browser is none or some steps of the client. -/
theorem QueueState.Follows.step (h : s.Follows isoformat numberOf organizationId assetIds a)
    (hparse : ∀ e ∈ s.db.events, jsonParse (jsText (payloadText isoformat (feedEvent e))) =
      some (eventData isoformat numberOf (feedEvent e)))
    (hstep : QueueStep isoformat jsonParse U organizationId assetIds s s') :
    ∃ a', s'.Follows isoformat numberOf organizationId assetIds a' := by
  cases hstep with
  | commit db' hcommit => exact ⟨a, h.commit hcommit⟩
  | openInitial chunks ended hclosed hid hupstream => exact ⟨_, h.openInitial hclosed hid hparse hupstream⟩
  | lookUp afterEventId occurredAt hclosed hid hparse' hselect => exact ⟨a, h.lookUp hclosed hid hparse' hselect⟩
  | openAfter position chunks ended hlookedUp hupstream => exact ⟨_, h.openAfter hlookedUp hparse hupstream⟩
  | arrive bytes coming hstreaming => exact ⟨a, h.arrive hstreaming⟩
  | close =>
    obtain ⟨a', hrun, hidle, hcommits, hshows⟩ := h.shows
    exact ⟨a', hrun, hidle, h.keys, hcommits, hshows, h.refreshed⟩
  | refresh htimer =>
    exact ⟨a, h.run, h.idle, h.keys, h.commits, h.connection, fun _ => rfl⟩

theorem QueueStep.events (hstep : QueueStep isoformat jsonParse U organizationId assetIds s s') :
    s.db.events ⊆ s'.db.events := by
  cases hstep with
  | commit db' hcommit => exact hcommit.subset
  | _ => exact List.Subset.refl _

theorem QueueRun.follows (hrun : QueueRun isoformat jsonParse U organizationId assetIds s)
    (hparse : ∀ e ∈ s.db.events, jsonParse (jsText (payloadText isoformat (feedEvent e))) =
      some (eventData isoformat numberOf (feedEvent e))) :
    ∃ a, s.Follows isoformat numberOf organizationId assetIds a := by
  induction hrun with
  | start db hkeys =>
    exact ⟨{ db := db, cursor := none }, .start db none hkeys, rfl, hkeys, .refl, ⟨rfl, rfl⟩, fun _ => rfl⟩
  | step _ hstep ih =>
    have hbefore := fun e he => hparse e (hstep.events he)
    obtain ⟨a, ha⟩ := ih hbefore
    exact ha.step hbefore hstep

/-- **The browser follows the feed.** Wherever the two connections are cut and whatever commits meanwhile, there is a
client of the feed, in a run of its own, that has received what the browser has dispatched: visible events in strict
order, each once, in pages without gaps. The browser's last event id is this client's cursor; and when no refresh is
scheduled, the queue has been refreshed after the last event. -/
theorem queue_events_follow_feed (hrun : QueueRun isoformat jsonParse U organizationId assetIds s)
    (hparse : ∀ e ∈ s.db.events, jsonParse (jsText (payloadText isoformat (feedEvent e))) =
      some (eventData isoformat numberOf (feedEvent e))) :
    (∃ a, DeliveryRun organizationId assetIds a ∧ Relation.ReflTransGen FeedCommit a.db s.db ∧
      Shows isoformat numberOf s.source.stream a ∧ a.Following organizationId assetIds ∧
      (a.delivered.map (·.eventId)).Nodup) ∧
    (s.refreshTimer = false → s.refreshed = s.source.stream.messages.length) := by
  obtain ⟨a, ha⟩ := hrun.follows hparse
  obtain ⟨a', hrun', -, hcommits, hshows⟩ := ha.shows
  have hfollowing := following_of_deliveryRun hrun'
  refine ⟨⟨a', hrun', hcommits, hshows, hfollowing, ?_⟩, ha.refreshed⟩
  refine List.pairwise_map.mpr (hfollowing.increasing.imp_of_mem fun {event event'} hevent hevent' hlt hid => ?_)
  obtain ⟨e, he, rfl, -⟩ := hfollowing.visible event hevent
  obtain ⟨e', he', rfl, -⟩ := hfollowing.visible event' hevent'
  rw [hfollowing.keys.eq_of_id he he' hid] at hlt
  exact lt_irrefl _ hlt

end

/-! ### A run -/

def sampleUpdate : CaseFeedEvent := feedEvent (sampleFeedEvent 5 200)

/-- `JSON.parse` on the text of the event. -/
def sampleUpdateParse (t : JsStr) : Option JsObject :=
  if t = jsText (payloadText sampleIso sampleUpdate) then some (eventData sampleIso sampleNumber sampleUpdate) else none

def sampleRelayed : List Utf8.Byte :=
  relayBytes (relayEvents sampleUpdateParse [Utf8.encode (sseEvents sampleIso [sampleUpdate])] true)

/-- The first connection is cut in the middle of the event; the second one brings it. -/
def sampleQueue : QueueState :=
  let opened : QueueState := QueueState.answer { db := sampleFeedDb [(5, 200)] } sampleRelayed
  let cut : QueueState := { opened.arrive (sampleRelayed.take 100) (sampleRelayed.drop 100) with connection := .closed }
  (cut.answer sampleRelayed).arrive sampleRelayed []

theorem sampleQueue_run : QueueRun sampleIso sampleUpdateParse .ascii 7 [] sampleQueue := by
  have hpage : selectInitialPage 7 [] 100 (sampleFeedDb [(5, 200)]) = [sampleUpdate] := by decide
  have hupstream : Upstream sampleIso (selectInitialPage 7 [] 100 (sampleFeedDb [(5, 200)]))
      [Utf8.encode (sseEvents sampleIso [sampleUpdate])] true := by
    rw [hpage]
    exact ⟨_, encodeUtf8_of_scalar (isScalar_sseEvents _), by rw [List.flatten_singleton], fun _ => List.flatten_singleton⟩
  have hstart : QueueRun sampleIso sampleUpdateParse .ascii 7 [] { db := sampleFeedDb [(5, 200)] } :=
    .start _ ⟨by decide, by decide, by simp [sampleFeedDb, sampleFeedEvent, sampleFeedCase]⟩
  have hcut := ((hstart.step (.openInitial _ true rfl rfl hupstream)).step
    (.arrive (sampleRelayed.take 100) (sampleRelayed.drop 100)
      (congrArg QueueConnection.streaming (List.take_append_drop 100 sampleRelayed).symm))).step .close
  exact (hcut.step (.openInitial _ true rfl (by decide +kernel) hupstream)).step
    (.arrive sampleRelayed [] (congrArg QueueConnection.streaming (List.append_nil _).symm))

theorem queue_events_follow_feed_sample :
    (∃ a, DeliveryRun 7 [] a ∧ Shows sampleIso sampleNumber sampleQueue.source.stream a ∧ a.Following 7 []) ∧
      sampleQueue.source.stream.messages = [caseMessage sampleIso sampleNumber sampleUpdate] ∧
      sampleQueue.refreshTimer = true := by
  obtain ⟨⟨a, hrun, -, hshows, hfollowing, -⟩, -⟩ :=
    @queue_events_follow_feed sampleIso sampleNumber sampleUpdateParse .ascii 7 [] sampleQueue sampleQueue_run
      fun e he => by
        rw [List.mem_singleton.mp he]
        exact if_pos rfl
  exact ⟨⟨a, hrun, hshows, hfollowing⟩, by decide +kernel, by decide +kernel⟩

end NetopsCopilot
