import NetopsCopilot.Lib.Except
import NetopsCopilot.Api.Events
import NetopsCopilot.JavaScript.Text

/-!
# The case event stream (`api/events.py`, the generated client, `web/app/api/events/route.ts`)

The API writes one frame for each event, the client cuts the decoded text at blank lines while chunks come in,
and the web relay writes the events again for the browser. What is left of the bytes always decodes to what is
left of the frames (`Reading`), wherever the chunks end.
-/

namespace NetopsCopilot

/-! ### The client -/

/-- `CaseEventStreamEvent`. -/
structure CaseEventStreamEvent where
  id : JsStr
  event : JsStr
  data : JsObject
deriving DecidableEq

/-- The variables of `parseCaseEventFrame`. -/
structure FrameFields where
  id : Option JsStr := none
  event : Option JsStr := none
  data : List JsStr := []

/-- The body of the loop over the lines of a frame. -/
def readField (fields : FrameFields) (line : JsStr) : FrameFields :=
  if (js "id: ").isPrefixOf line then { fields with id := some (line.drop 4) }
  else if (js "event: ").isPrefixOf line then { fields with event := some (line.drop 7) }
  else if (js "data: ").isPrefixOf line then { fields with data := fields.data ++ [line.drop 6] }
  else fields

section

-- `JSON.parse`, where `none` is a `SyntaxError`
variable (jsonParse : JsStr → Option JsObject)

/-- `parseCaseEventFrame`; `none` outside is the exception of `JSON.parse`. -/
def parseCaseEventFrame (frame : JsStr) : Option (Option CaseEventStreamEvent) :=
  let fields := (frame.splitOn 10).foldl readField {}
  match fields.id with
  | none => some none
  | some id =>
    if fields.event ≠ some (js "case") ∨ fields.data = [] then some none
    else (jsonParse (List.intercalate [10] fields.data)).map fun data =>
      some { id := id, event := js "case", data := data }

/-- `indexOf('\n\n')`: what is before the first blank line, and what is behind it. -/
def takeFrame : JsStr → Option (JsStr × JsStr)
  | [] => none
  | c :: t =>
    if c = 10 ∧ t.head? = some 10 then some ([], t.tail)
    else (takeFrame t).map fun (frame, rest) => (c :: frame, rest)

/-- The variables of `streamCaseEvents`. -/
structure EventReader where
  decoder : TextDecoder := {}
  pending : JsStr := []
  yielded : List CaseEventStreamEvent := []

/-- A frame is parsed and its event yielded; an exception leaves what was yielded before. -/
def EventReader.yieldFrame (r : EventReader) (frame : JsStr) :
    Except (List CaseEventStreamEvent) EventReader :=
  match parseCaseEventFrame jsonParse frame with
  | none => .error r.yielded
  | some event => .ok { r with yielded := r.yielded ++ event.toList }

/-- The inner loop; every frame shortens `pending`. -/
def EventReader.drain : Nat → EventReader → Except (List CaseEventStreamEvent) EventReader
  | 0, r => .ok r
  | fuel + 1, r =>
    match takeFrame r.pending with
    | none => .ok r
    | some (frame, rest) => do
      let r ← yieldFrame jsonParse { r with pending := rest } frame
      drain fuel r

/-- A chunk arrives. -/
def EventReader.readChunk (r : EventReader) (chunk : List Utf8.Byte) :
    Except (List CaseEventStreamEvent) EventReader :=
  let (text, decoder) := r.decoder.decode chunk
  drain jsonParse (r.pending ++ text).length { r with decoder := decoder, pending := r.pending ++ text }

/-- `streamCaseEvents`: the events it yields, or those it yields before it throws. -/
def streamCaseEvents (chunks : List (List Utf8.Byte)) :
    Except (List CaseEventStreamEvent) (List CaseEventStreamEvent) := do
  let r ← chunks.foldlM (EventReader.readChunk jsonParse) {}
  let r ← EventReader.yieldFrame jsonParse r (r.pending ++ r.decoder.finish)
  return r.yielded

end

/-! ### The relay -/

/-- The frame of the web relay. -/
def relayFrame (e : CaseEventStreamEvent) : JsStr :=
  js "id: " ++ e.id ++ js "\nevent: " ++ e.event ++ js "\ndata: " ++ stringify e.data ++ js "\n\n"

/-- What the relay enqueues. -/
def relayBytes (events : List CaseEventStreamEvent) : List Utf8.Byte :=
  events.flatMap fun e => encodeText (relayFrame e)

/-! ### The event of a feed event -/

section

variable (isoformat : Instant → PyStr) (numberOf : Nat → JsNumber)

/-- The members of the payload in JavaScript; `numberOf` is what `JSON.parse` makes of decimal digits. -/
def eventData (e : CaseFeedEvent) : JsObject :=
  [(js "event_id", .str (jsText (Uuid.str e.eventId))),
    (js "case_id", .str (jsText (Uuid.str e.caseId))),
    (js "event_type", .str (jsText e.eventType)),
    (js "aggregate_version", .num (numberOf e.aggregateVersion)),
    (js "transition_id", (e.transitionId.map fun t => .str (jsText (Uuid.str t))).getD .null),
    (js "actor_id", .str (jsText (Uuid.str e.actorId))),
    (js "correlation_id", .str (jsText (Uuid.str e.correlationId))),
    (js "occurred_at", .str (jsText (replaceText (py "+00:00") (py "Z") (isoformat e.occurredAt))))]

/-- What the client should yield for a feed event. -/
def streamEvent (e : CaseFeedEvent) : CaseEventStreamEvent where
  id := jsText (Uuid.str e.eventId)
  event := js "case"
  data := eventData isoformat numberOf e

end

/-! ### Cutting frames -/

section

variable {t u frame rest : JsStr}

theorem takeFrame_eq (h : takeFrame t = some (frame, rest)) : t = frame ++ 10 :: 10 :: rest := by
  induction t generalizing frame rest with
  | nil => cases h
  | cons c t ih =>
    rw [takeFrame] at h
    split_ifs at h with hblank
    · cases h
      obtain ⟨rfl, hhead⟩ := hblank
      cases t with
      | nil => cases hhead
      | cons d t => exact congrArg (fun d => 10 :: d :: t) (Option.some.inj hhead)
    · obtain ⟨⟨frame', rest'⟩, htake, heq⟩ := Option.map_eq_some_iff.mp h
      cases heq
      rw [ih htake]
      rfl

/-- More text behind does not move the first blank line. -/
theorem takeFrame_append (h : takeFrame t = some (frame, rest)) (u : JsStr) :
    takeFrame (t ++ u) = some (frame, rest ++ u) := by
  induction t generalizing frame rest with
  | nil => cases h
  | cons c t ih =>
    rw [takeFrame] at h
    rw [List.cons_append, takeFrame]
    split_ifs at h with hblank
    · cases h
      obtain ⟨hc, hhead⟩ := hblank
      cases t with
      | nil => cases hhead
      | cons d t => exact if_pos ⟨hc, hhead⟩
    · obtain ⟨⟨frame', rest'⟩, htake, heq⟩ := Option.map_eq_some_iff.mp h
      cases heq
      have ht : t ≠ [] := by
        rintro rfl
        cases htake
      rw [if_neg, ih htake]
      · rfl
      · rintro ⟨hc, hhead⟩
        rw [List.head?_append_of_ne_nil _ ht] at hhead
        exact hblank ⟨hc, hhead⟩

/-- A line, and a blank one. -/
theorem takeFrame_line (ht : 10 ∉ t) (rest : JsStr) : takeFrame (t ++ 10 :: 10 :: rest) = some (t, rest) := by
  induction t with
  | nil => rfl
  | cons c t ih =>
    rw [List.mem_cons, not_or] at ht
    rw [List.cons_append, takeFrame, if_neg fun h => ht.1 h.1.symm, ih ht.2]
    rfl

/-- A line, and another one. -/
theorem takeFrame_lines (ht : 10 ∉ t) (hu : u.head? ≠ some 10) (h : takeFrame u = some (frame, rest)) :
    takeFrame (t ++ 10 :: u) = some (t ++ 10 :: frame, rest) := by
  induction t with
  | nil =>
    rw [List.nil_append, takeFrame, if_neg fun hblank => hu hblank.2, h]
    rfl
  | cons c t ih =>
    rw [List.mem_cons, not_or] at ht
    rw [List.cons_append, takeFrame, if_neg fun h => ht.1 h.1.symm, ih ht.2]
    rfl

end

/-! ### The loops -/

section

variable {jsonParse : JsStr → Option JsObject}

/-- A frame that is cut off at its end and yields its event. -/
structure Delivers (jsonParse : JsStr → Option JsObject) (frame : JsStr) (e : CaseEventStreamEvent) : Prop where
  take : ∀ rest, takeFrame (frame ++ 10 :: 10 :: rest) = some (frame, rest)
  parse : parseCaseEventFrame jsonParse frame = some (some e)

/-- Frames with a blank line behind each. -/
def frameText (frames : List (JsStr × CaseEventStreamEvent)) : JsStr :=
  frames.flatMap fun f => f.1 ++ [10, 10]

variable {frames : List (JsStr × CaseEventStreamEvent)}

theorem takeFrame_frameText {f : JsStr × CaseEventStreamEvent} (hf : Delivers jsonParse f.1 f.2) :
    takeFrame (frameText (f :: frames)) = some (f.1, frameText frames) := by
  have htext : frameText (f :: frames) = f.1 ++ 10 :: 10 :: frameText frames := by
    show (f.1 ++ [10, 10]) ++ frameText frames = _
    rw [List.append_assoc]
    rfl
  rw [htext]
  exact hf.take _

/-- The inner loop yields the events of the frames that are complete. -/
theorem drain_frames (hframes : ∀ f ∈ frames, Delivers jsonParse f.1 f.2) {r : EventReader} {fuel : Nat}
    (hfuel : r.pending.length ≤ fuel) {left : JsStr} (htext : r.pending ++ left = frameText frames) :
    ∃ complete rest pending, frames = complete ++ rest ∧ pending ++ left = frameText rest ∧
      takeFrame pending = none ∧ EventReader.drain jsonParse fuel r =
        .ok { r with pending := pending, yielded := r.yielded ++ complete.map Prod.snd } := by
  induction fuel generalizing r frames with
  | zero =>
    have hnil : r.pending = [] := List.length_eq_zero_iff.mp (by omega)
    refine ⟨[], frames, [], rfl, by rw [← htext, hnil], rfl, ?_⟩
    rw [List.map_nil, List.append_nil, ← hnil]
    rfl
  | succ fuel ih =>
    rw [EventReader.drain]
    cases htake : takeFrame r.pending with
    | none =>
      refine ⟨[], frames, r.pending, rfl, htext, htake, ?_⟩
      rw [List.map_nil, List.append_nil]
    | some cut =>
      obtain ⟨frame, rest⟩ := cut
      have hcut := takeFrame_append htake left
      rw [htext] at hcut
      cases frames with
      | nil => cases hcut
      | cons f frames =>
        obtain ⟨hf, hframes⟩ := List.forall_mem_cons.mp hframes
        rw [takeFrame_frameText hf] at hcut
        obtain ⟨rfl, hrest⟩ := Prod.mk.inj (Option.some.inj hcut)
        have hlength := congrArg List.length (takeFrame_eq htake)
        rw [List.length_append, List.length_cons, List.length_cons] at hlength
        have hyield : EventReader.yieldFrame jsonParse { r with pending := rest } f.1 =
            .ok { r with pending := rest, yielded := r.yielded ++ [f.2] } := by
          unfold EventReader.yieldFrame
          rw [hf.parse]
          rfl
        obtain ⟨complete, rest', pending, rfl, hpending, hnone, hdrain⟩ :=
          ih hframes (r := { r with pending := rest, yielded := r.yielded ++ [f.2] })
            (by dsimp only; omega) hrest.symm
        refine ⟨f :: complete, rest', pending, rfl, hpending, hnone, ?_⟩
        dsimp only
        rw [hyield]
        show EventReader.drain jsonParse fuel _ = _
        rw [hdrain, List.map_cons, List.append_assoc]
        rfl

/-- The bytes that are left decode to what is left of the frames behind `pending`. -/
structure Reading (r : EventReader) (bytes : List Utf8.Byte) (frames : List (JsStr × CaseEventStreamEvent)) :
    Prop where
  text : ∃ out, Utf8.decode r.decoder.utf8 bytes = (out, {}) ∧ r.pending ++ jsText out = frameText frames ∧
    (r.decoder.started = false → out.head? ≠ some 0xFEFF)
  none : takeFrame r.pending = none

/-- A chunk is read. -/
theorem readChunk_frames (hframes : ∀ f ∈ frames, Delivers jsonParse f.1 f.2) {r : EventReader}
    {chunk bytes : List Utf8.Byte} (h : Reading r (chunk ++ bytes) frames) :
    ∃ complete rest r', frames = complete ++ rest ∧ Reading r' bytes rest ∧
      r'.yielded = r.yielded ++ complete.map Prod.snd ∧ EventReader.readChunk jsonParse r chunk = .ok r' := by
  obtain ⟨⟨out, hdecode, htext, hmark⟩, -⟩ := h
  rw [Utf8.decode_append, Prod.mk.injEq] at hdecode
  obtain ⟨rfl, hfinal⟩ := hdecode
  generalize hchunk : Utf8.decode r.decoder.utf8 chunk = decoded at htext hmark hfinal
  obtain ⟨now, state⟩ := decoded
  dsimp only at htext hmark hfinal
  -- no byte order mark is dropped
  have hdrop : (if (!r.decoder.started && now.head? == some 0xFEFF) = true then now.tail else now) = now := by
    refine if_neg fun hbom => ?_
    rw [Bool.and_eq_true, Bool.not_eq_true', beq_iff_eq] at hbom
    refine hmark hbom.1 ?_
    rw [List.head?_append, hbom.2]
    rfl
  have hstep : r.decoder.decode chunk =
      (jsText now, { utf8 := state, started := r.decoder.started || !now.isEmpty }) := by
    unfold TextDecoder.decode
    rw [hchunk]
    dsimp only
    rw [hdrop]
  rw [jsText_append, ← List.append_assoc] at htext
  obtain ⟨complete, rest, pending, hsplit, hpending, hnone, hdrain⟩ := drain_frames hframes
    (r := { r with
      decoder := { utf8 := state, started := r.decoder.started || !now.isEmpty }
      pending := r.pending ++ jsText now }) (Nat.le_refl _) htext
  refine ⟨complete, rest,
    { decoder := { utf8 := state, started := r.decoder.started || !now.isEmpty }
      pending := pending
      yielded := r.yielded ++ complete.map Prod.snd },
    hsplit, ⟨⟨_, Prod.ext rfl hfinal, hpending, fun hstarted => ?_⟩, hnone⟩, rfl, ?_⟩
  · -- nothing has been decoded yet
    dsimp only at hstarted
    rw [Bool.or_eq_false_iff, Bool.not_eq_false', List.isEmpty_iff] at hstarted
    have hbefore := hmark hstarted.1
    rwa [hstarted.2, List.nil_append] at hbefore
  · unfold EventReader.readChunk
    rw [hstep]
    exact hdrain

/-- All chunks are read. -/
theorem foldlM_readChunk (hframes : ∀ f ∈ frames, Delivers jsonParse f.1 f.2) {r : EventReader}
    {chunks : List (List Utf8.Byte)} (h : Reading r chunks.flatten frames) :
    ∃ r', Reading r' [] [] ∧ r'.yielded = r.yielded ++ frames.map Prod.snd ∧
      chunks.foldlM (EventReader.readChunk jsonParse) r = .ok r' := by
  induction chunks generalizing r frames with
  | nil =>
    obtain ⟨⟨out, hdecode, htext, hmark⟩, hnone⟩ := h
    cases frames with
    | nil => exact ⟨r, ⟨⟨out, hdecode, htext, hmark⟩, hnone⟩, (List.append_nil _).symm, rfl⟩
    | cons f frames =>
      -- a frame that is left would be cut off
      obtain ⟨rfl, -⟩ := Prod.mk.inj hdecode
      rw [show jsText [] = [] from rfl, List.append_nil] at htext
      rw [htext, takeFrame_frameText (hframes f List.mem_cons_self)] at hnone
      cases hnone
  | cons chunk chunks ih =>
    obtain ⟨complete, rest, r', rfl, hreading, hyielded, hread⟩ := readChunk_frames hframes h
    obtain ⟨r'', hdone, hall, hfold⟩ := ih (fun f hf => hframes f (List.mem_append_right _ hf)) hreading
    refine ⟨r'', hdone, ?_, ?_⟩
    · rw [hall, hyielded, List.append_assoc, List.map_append]
    · rw [List.foldlM_cons, hread]
      exact hfold

/-- The client yields the events of the frames, however their bytes are cut. -/
theorem streamCaseEvents_frames (hframes : ∀ f ∈ frames, Delivers jsonParse f.1 f.2) {s : PyStr}
    (hs : ∀ c ∈ s, Utf8.IsScalar c) (htext : jsText s = frameText frames) (hmark : s.head? ≠ some 0xFEFF)
    {chunks : List (List Utf8.Byte)} (hchunks : chunks.flatten = Utf8.encode s) :
    streamCaseEvents jsonParse chunks = .ok (frames.map Prod.snd) := by
  have hstart : Reading {} chunks.flatten frames :=
    ⟨⟨s, by rw [hchunks]; exact Utf8.decode_encode hs, htext, fun _ => hmark⟩, rfl⟩
  obtain ⟨r, ⟨⟨out, hdecode, hpending, -⟩, -⟩, hyielded, hfold⟩ := foldlM_readChunk hframes hstart
  obtain ⟨rfl, hstate⟩ := Prod.mk.inj hdecode
  have hlast : EventReader.yieldFrame jsonParse r (r.pending ++ r.decoder.finish) = .ok r := by
    rw [show r.pending = [] from (List.append_eq_nil_iff.mp hpending).1, TextDecoder.finish, hstate]
    show Except.ok { r with yielded := r.yielded ++ [] } = _
    rw [List.append_nil]
  unfold streamCaseEvents
  rw [hfold]
  show (EventReader.yieldFrame jsonParse r (r.pending ++ r.decoder.finish) >>= fun r => pure r.yielded) = _
  rw [hlast]
  exact congrArg Except.ok hyielded

end

/-! ### The frames -/

section

variable {jsonParse : JsStr → Option JsObject} {id data : JsStr}

/-- A frame of the API or of the relay. -/
def caseFrame (id data : JsStr) : JsStr := js "id: " ++ id ++ js "\nevent: case\ndata: " ++ data

theorem caseFrame_lines (id data : JsStr) :
    caseFrame id data = (js "id: " ++ id) ++ 10 :: (js "event: case" ++ 10 :: (js "data: " ++ data)) := by
  unfold caseFrame
  rw [List.append_assoc]
  rfl

theorem readField_id (fields : FrameFields) (id : JsStr) :
    readField fields (js "id: " ++ id) = { fields with id := some id } := rfl

theorem readField_event (fields : FrameFields) :
    readField fields (js "event: case") = { fields with event := some (js "case") } := rfl

theorem readField_data (fields : FrameFields) (data : JsStr) :
    readField fields (js "data: " ++ data) = { fields with data := fields.data ++ [data] } := rfl

/-- A frame without other line feeds than its two. -/
theorem caseFrame_delivers {value : JsObject} (hid : 10 ∉ id) (hdata : 10 ∉ data)
    (hparse : jsonParse data = some value) :
    Delivers jsonParse (caseFrame id data) { id := id, event := js "case", data := value } := by
  have hidLine : 10 ∉ js "id: " ++ id := fun h =>
    (List.mem_append.mp h).elim (by decide +kernel : (10 : JsChar) ∉ js "id: ") hid
  have heventLine : 10 ∉ js "event: case" := by decide +kernel
  have hdataLine : 10 ∉ js "data: " ++ data := fun h =>
    (List.mem_append.mp h).elim (by decide +kernel : (10 : JsChar) ∉ js "data: ") hdata
  rw [caseFrame_lines]
  constructor
  · intro rest
    have hlast := takeFrame_line hdataLine rest
    have hmiddle := takeFrame_lines heventLine (u := (js "data: " ++ data) ++ 10 :: 10 :: rest)
      (by decide +kernel : some (100 : JsChar) ≠ some 10) hlast
    have hfirst := takeFrame_lines hidLine (u := js "event: case" ++ 10 :: ((js "data: " ++ data) ++ 10 :: 10 :: rest))
      (by decide +kernel : some (101 : JsChar) ≠ some 10) hmiddle
    have hassoc : ((js "id: " ++ id) ++ 10 :: (js "event: case" ++ 10 :: (js "data: " ++ data))) ++ 10 :: 10 :: rest =
        (js "id: " ++ id) ++ 10 :: (js "event: case" ++ 10 :: ((js "data: " ++ data) ++ 10 :: 10 :: rest)) := by
      simp only [List.append_assoc, List.cons_append]
    rw [hassoc]
    exact hfirst
  · have hsplit : ((js "id: " ++ id) ++ 10 :: (js "event: case" ++ 10 :: (js "data: " ++ data))).splitOn 10 =
        [js "id: " ++ id, js "event: case", js "data: " ++ data] := by
      rw [List.splitOn_append_cons_self, List.splitOn_append_cons_self, List.splitOn_eq_singleton hidLine,
        List.splitOn_eq_singleton heventLine, List.splitOn_eq_singleton hdataLine]
      rfl
    unfold parseCaseEventFrame
    rw [hsplit, List.foldl_cons, List.foldl_cons, List.foldl_cons, readField_id, readField_event, readField_data]
    show (if some (js "case") ≠ some (js "case") ∨ [] ++ [data] = [] then some none
      else (jsonParse (List.intercalate [10] ([] ++ [data]))).map fun value =>
        some ({ id := id, event := js "case", data := value } : CaseEventStreamEvent)) = _
    have hjoin : List.intercalate [10] ([] ++ [data]) = data := List.append_nil data
    rw [if_neg (by simp), hjoin, hparse]
    rfl

end

/-! ### Main result -/

theorem not_mem_utf16 {c : PyChar} (hc : c ≠ 10) : 10 ∉ utf16 c := by
  have hlt : c.val < 0x110000 := c.isLt
  have hne : c.val ≠ 10 := fun h => hc (Fin.ext h)
  unfold utf16
  split_ifs with hbasic
  · rw [List.mem_singleton]
    intro h
    have hval : 10 = c.val % 0x10000 := congrArg Fin.val h
    omega
  · rw [List.mem_cons, List.mem_singleton, not_or]
    constructor
    · intro h
      have hval : 10 = (0xD800 + (c.val - 0x10000) / 1024) % 0x10000 := congrArg Fin.val h
      omega
    · intro h
      have hval : 10 = (0xDC00 + (c.val - 0x10000) % 1024) % 0x10000 := congrArg Fin.val h
      omega

theorem Plain.not_mem {s : PyStr} (hs : Plain s) : 10 ∉ jsText s := by
  intro h
  obtain ⟨c, hc, hmem⟩ := List.mem_flatMap.mp h
  exact not_mem_utf16 (hs c hc).2 hmem

section

variable {isoformat : Instant → PyStr} {numberOf : Nat → JsNumber} {jsonParse : JsStr → Option JsObject}

theorem plain_uuid (u : Uuid) : Plain (Uuid.str u) := Plain.of_printable (printable_uuid u)

theorem plain_payloadText (e : CaseFeedEvent) : Plain (payloadText isoformat e) := by
  refine Plain.of_printable ((Printable.append (by decide) (printable_joinComma fun t ht => ?_)).append (by decide))
  obtain ⟨⟨key, value⟩, hmem, rfl⟩ := List.mem_map.mp ht
  refine ((printable_stringText key).append (by decide)).append ?_
  rw [dumpsMembers_eq] at hmem
  obtain ⟨m, hm, heq⟩ := List.mem_map.mp hmem
  obtain ⟨-, rfl⟩ := Prod.mk.inj heq
  have hdumps : ∀ m ∈ ssePayload isoformat e, Printable m.2.dumps := by
    simp only [ssePayload, List.forall_mem_cons]
    refine ⟨printable_stringText _, printable_stringText _, printable_stringText _, printable_natText _, ?_,
      printable_stringText _, printable_stringText _, printable_stringText _, nofun⟩
    cases e.transitionId with
    | none => decide
    | some t => exact printable_stringText _
  exact hdumps m hm

/-- A template of a frame around an identifier and data. -/
def frameTemplate (id data : PyStr) : PyStr := py "id: " ++ id ++ py "\nevent: case\ndata: " ++ data ++ py "\n\n"

theorem isScalar_frameTemplate {id data : PyStr} (hid : Plain id) (hdata : Plain data) :
    ∀ c ∈ frameTemplate id data, Utf8.IsScalar c := by
  intro c hc
  unfold frameTemplate at hc
  rw [List.mem_append, List.mem_append, List.mem_append, List.mem_append] at hc
  rcases hc with (((hc | hc) | hc) | hc) | hc
  · exact isScalar_of_ascii (s := py "id: ") (by decide) c hc
  · exact (hid c hc).1
  · exact isScalar_of_ascii (s := py "\nevent: case\ndata: ") (by decide) c hc
  · exact (hdata c hc).1
  · exact isScalar_of_ascii (s := py "\n\n") (by decide) c hc

/-- The client reads what is written with the template. -/
theorem streamCaseEvents_template {events : List CaseFeedEvent} {data : CaseFeedEvent → PyStr}
    (hdata : ∀ e ∈ events, Plain (data e))
    (hparse : ∀ e ∈ events, jsonParse (jsText (data e)) = some (eventData isoformat numberOf e))
    {chunks : List (List Utf8.Byte)}
    (hchunks : chunks.flatten = Utf8.encode (events.flatMap fun e => frameTemplate (Uuid.str e.eventId) (data e))) :
    streamCaseEvents jsonParse chunks = .ok (events.map (streamEvent isoformat numberOf)) := by
  let frames := events.map fun e =>
    (caseFrame (jsText (Uuid.str e.eventId)) (jsText (data e)), streamEvent isoformat numberOf e)
  have hframes : ∀ f ∈ frames, Delivers jsonParse f.1 f.2 := by
    intro f hf
    obtain ⟨e, he, rfl⟩ := List.mem_map.mp hf
    exact caseFrame_delivers (plain_uuid _).not_mem (hdata e he).not_mem (hparse e he)
  have hscalars : ∀ c ∈ events.flatMap fun e => frameTemplate (Uuid.str e.eventId) (data e), Utf8.IsScalar c := by
    intro c hc
    obtain ⟨e, he, hce⟩ := List.mem_flatMap.mp hc
    exact isScalar_frameTemplate (plain_uuid _) (hdata e he) c hce
  have htext : jsText (events.flatMap fun e => frameTemplate (Uuid.str e.eventId) (data e)) = frameText frames := by
    show (events.flatMap _).flatMap utf16 = (events.map _).flatMap _
    rw [List.flatMap_assoc, List.flatMap_map]
    refine List.flatMap_congr fun e _ => ?_
    show jsText (frameTemplate _ _) = _
    unfold frameTemplate
    rw [jsText_append, jsText_append, jsText_append, jsText_append]
    rfl
  have hmark : (events.flatMap fun e => frameTemplate (Uuid.str e.eventId) (data e)).head? ≠ some 0xFEFF := by
    cases events with
    | nil => exact nofun
    | cons e events =>
      intro hhead
      have hval : 105 = 0xFEFF := congrArg Fin.val (Option.some.inj hhead)
      omega
  rw [streamCaseEvents_frames hframes hscalars htext hmark hchunks, List.map_map]
  rfl

/-- **Case events arrive.** However the bytes of `_sse_events` are cut into chunks, the generated client yields one
event for each event of the feed, in order, with its id and its data; and so it does for what the web relay makes
of them. `JSON.parse` inverts `json.dumps` and `JSON.stringify` on the payloads. -/
theorem case_events_arrive {events : List CaseFeedEvent}
    (hdumps : ∀ e ∈ events,
      jsonParse (jsText (payloadText isoformat e)) = some (eventData isoformat numberOf e))
    (hstringify : ∀ e ∈ events,
      jsonParse (stringify (eventData isoformat numberOf e)) = some (eventData isoformat numberOf e)) :
    ∃ bytes, encodeUtf8 (sseEvents isoformat events) = some bytes ∧
      (∀ chunks : List (List Utf8.Byte), chunks.flatten = bytes →
        streamCaseEvents jsonParse chunks = .ok (events.map (streamEvent isoformat numberOf))) ∧
      ∀ chunks : List (List Utf8.Byte),
        chunks.flatten = relayBytes (events.map (streamEvent isoformat numberOf)) →
        streamCaseEvents jsonParse chunks = .ok (events.map (streamEvent isoformat numberOf)) := by
  have hscalars : ∀ c ∈ sseEvents isoformat events, Utf8.IsScalar c := by
    intro c hc
    obtain ⟨e, -, hce⟩ := List.mem_flatMap.mp hc
    exact isScalar_frameTemplate (plain_uuid _) (plain_payloadText e) c hce
  refine ⟨_, encodeUtf8_of_scalar hscalars, fun chunks hchunks => ?_, fun chunks hchunks => ?_⟩
  · exact streamCaseEvents_template (fun e _ => plain_payloadText e) hdumps hchunks
  · have hdata : ∀ e ∈ events, Plain (stringifyText (eventData isoformat numberOf e)) :=
      fun e _ => plain_stringifyText _
    refine streamCaseEvents_template hdata hstringify ?_
    rw [hchunks]
    show (events.map _).flatMap _ = (events.flatMap _).flatMap _
    rw [List.flatMap_map, List.flatMap_assoc]
    refine List.flatMap_congr fun e _ => ?_
    have hframe : relayFrame (streamEvent isoformat numberOf e) =
        jsText (frameTemplate (Uuid.str e.eventId) (stringifyText (eventData isoformat numberOf e))) := by
      have hmiddle : jsText (py "\nevent: case\ndata: ") =
          jsText (py "\nevent: ") ++ (jsText (py "case") ++ jsText (py "\ndata: ")) := rfl
      unfold frameTemplate relayFrame streamEvent js stringify
      simp only [jsText_append, hmiddle, List.append_assoc]
    rw [hframe]
    unfold encodeText
    rw [scalarValues_jsText (isScalar_frameTemplate (plain_uuid _) (plain_stringifyText _))]
    rfl

end

/-- An event whose type has line feeds and looks like a field. -/
def sampleStreamEvent : CaseFeedEvent where
  eventId := 5
  caseId := 10
  eventType := py "case\n\ndata: é"
  aggregateVersion := 1
  transitionId := none
  actorId := 3
  correlationId := 4
  occurredAt := 100

def sampleIso (_ : Instant) : PyStr := py "2026-07-16T12:00:00+00:00"

def sampleNumber (_ : Nat) : JsNumber := ⟨py "1", by decide⟩

/-- `JSON.parse` on the two texts of the event. -/
def sampleJsonParse (t : JsStr) : Option JsObject :=
  if t = jsText (payloadText sampleIso sampleStreamEvent) ∨
      t = stringify (eventData sampleIso sampleNumber sampleStreamEvent) then
    some (eventData sampleIso sampleNumber sampleStreamEvent)
  else none

/-- The first chunk ends inside the frame. -/
theorem case_events_arrive_sample : ∃ bytes, encodeUtf8 (sseEvents sampleIso [sampleStreamEvent]) = some bytes ∧
    streamCaseEvents sampleJsonParse [bytes.take 60, bytes.drop 60] =
      .ok [streamEvent sampleIso sampleNumber sampleStreamEvent] := by
  obtain ⟨bytes, hbytes, hstream, -⟩ := @case_events_arrive sampleIso sampleNumber sampleJsonParse
    [sampleStreamEvent] (List.forall_mem_singleton.mpr (if_pos (Or.inl rfl))) (List.forall_mem_singleton.mpr (if_pos (Or.inr rfl)))
  refine ⟨bytes, hbytes, hstream _ ?_⟩
  rw [List.flatten_cons, List.flatten_cons, List.flatten_nil, List.append_nil, List.take_append_drop]

end NetopsCopilot
