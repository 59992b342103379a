import NetopsCopilot.Api.Cases
import NetopsCopilot.Python.Hashlib

/-!
# The request fingerprint

`request_sha256` is the digest of the canonical text of a request's fields. For commands the routes build
(`Routed`: `content_sha256` is the digest of the content) whose texts split no surrogate pair, two
commands have the same canonical text exactly if they are the same request (`dumps_payload_eq_iff`).
`fingerprint_collision` has two requests that differ in how a character above the basic plane is written,
and share it.
-/

namespace NetopsCopilot

/-! ### Identifiers as text -/

theorem hexFixed_inj {m n : Nat} (len : Nat) (hm : m < 16 ^ len) (hn : n < 16 ^ len)
    (h : hexFixed len m = hexFixed len n) : m = n := by
  have hvalue := congrArg hexValue h
  rwa [hexValue_hexFixed, hexValue_hexFixed, Nat.mod_eq_of_lt hm, Nat.mod_eq_of_lt hn] at hvalue

/-- `str(UUID)` is injective. -/
theorem Uuid.str_inj {u v : Uuid} (h : Uuid.str u = Uuid.str v) : u = v := by
  have hu := hexFixed_length 32 u.val
  have hv := hexFixed_length 32 v.val
  refine Fin.ext (hexFixed_inj 32 u.isLt v.isLt ?_)
  unfold Uuid.str at h
  generalize hexFixed 32 u.val = a at h hu
  generalize hexFixed 32 v.val = b at h hv
  simp only [List.append_assoc] at h
  obtain ⟨h₁, h⟩ := List.append_inj h (by simp [hu, hv])
  obtain ⟨h₂, h⟩ := List.append_inj (List.append_cancel_left h) (by simp [hu, hv])
  obtain ⟨h₃, h⟩ := List.append_inj (List.append_cancel_left h) (by simp [hu, hv])
  obtain ⟨h₄, h⟩ := List.append_inj (List.append_cancel_left h) (by simp [hu, hv])
  have h₅ := List.append_cancel_left h
  have hsplit : ∀ l : PyStr, l = l.take 8 ++ ((l.drop 8).take 4 ++ ((l.drop 12).take 4 ++
      ((l.drop 16).take 4 ++ l.drop 20))) := by
    intro l
    have h8 := List.take_append_drop 8 l
    have h12 := List.take_append_drop 4 (l.drop 8)
    have h16 := List.take_append_drop 4 (l.drop 12)
    have h20 := List.take_append_drop 4 (l.drop 16)
    simp only [List.drop_drop, Nat.reduceAdd] at h12 h16 h20
    rw [h20, h16, h12, h8]
  rw [hsplit a, hsplit b, h₁, h₂, h₃, h₄, h₅]

theorem severity_value_inj {s t : Severity} (h : s.value = t.value) : s = t := by
  have hall : ∀ s t : Severity, s.value = t.value → s = t := by
    intro s t
    cases s <;> cases t <;> decide
  exact hall s t h

/-! ### The same request -/

/-- Inputs of one kind with one content, up to the order of object members. -/
def SameInput : Option CaseInputCommand → Option CaseInputCommand → Prop
  | none, none => True
  | some i, some j => i.inputKind = j.inputKind ∧ (Json.obj i.content).Same (.obj j.content)
  | _, _ => False

/-- The fields a replay must repeat. -/
structure SameRequest (c c' : CreateCaseCommand) : Prop where
  title : c.title = c'.title
  category : c.category = c'.category
  severity : c.severity = c'.severity
  assetId : c.assetId = c'.assetId
  input : SameInput c.caseInput c'.caseInput

/-- Objects with the same distinct keys in the same order are compared value by value. -/
theorem sameMembers_cons {k : PyStr} {v w : Json} {ms ns : List (PyStr × Json)}
    (hm : k ∉ ms.map Prod.fst) (hn : k ∉ ns.map Prod.fst) :
    sameMembers ((k, v) :: ms) ((k, w) :: ns) ↔ v.Same w ∧ sameMembers ms ns := by
  rw [sameMembers, sameMembers_iff, sameMembers_iff]
  refine and_congr ⟨?_, fun h => ⟨w, List.mem_cons_self, h⟩⟩ (forall₂_congr fun m hmem => ?_)
  · rintro ⟨u, hu, hsame⟩
    rcases List.mem_cons.mp hu with heq | hmem
    · obtain rfl : u = w := congrArg Prod.snd heq
      exact hsame
    · exact absurd (List.mem_map_of_mem hmem) hn
  · have hne : m.1 ≠ k := fun heq => hm (heq ▸ List.mem_map_of_mem hmem)
    simp only [List.mem_cons, Prod.mk.injEq, hne, false_and, false_or]

theorem same_obj_iff {ms ns : List (PyStr × Json)} (hkeys : ms.map Prod.fst = ns.map Prod.fst)
    (hnodup : (ms.map Prod.fst).Nodup) :
    (Json.obj ms).Same (.obj ns) ↔ List.Forall₂ Json.Same (ms.map Prod.snd) (ns.map Prod.snd) := by
  have hmembers : sameMembers ms ns ↔ List.Forall₂ Json.Same (ms.map Prod.snd) (ns.map Prod.snd) := by
    induction ms generalizing ns with
    | nil =>
      obtain rfl : ns = [] := List.map_eq_nil_iff.mp hkeys.symm
      simp [sameMembers]
    | cons m ms ih =>
      cases ns with
      | nil => cases hkeys
      | cons n ns =>
        obtain ⟨k, v⟩ := m
        obtain ⟨k', w⟩ := n
        simp only [List.map_cons, List.cons.injEq] at hkeys
        obtain ⟨rfl, hkeys⟩ := hkeys
        rw [List.map_cons, List.nodup_cons] at hnodup
        rw [sameMembers_cons hnodup.1 (hkeys ▸ hnodup.1), ih hkeys hnodup.2]
        simp
  rw [Json.Same, hmembers, and_iff_right_iff_imp]
  intro _
  simpa using congrArg List.length hkeys

theorem same_optStr {a b : Option PyStr} : (Json.optStr a).Same (Json.optStr b) ↔ a = b := by
  cases a <;> cases b <;> simp [Json.optStr, Json.Same]

theorem inputKeys_nodup : [py "content", py "content_sha256", py "input_kind"].Nodup := by decide

theorem payloadKeys_nodup :
    [py "asset_id", py "category", py "input", py "severity", py "title"].Nodup := by decide

/-- The payload is a dictionary. -/
theorem dict_payload (c : CreateCaseCommand) : c.payload.Dict := by
  have hopt : ∀ s, (Json.optStr s).Dict := fun s => by cases s <;> trivial
  have hinput : (CaseInputCommand.payload c.caseInput).Dict := by
    cases c.caseInput with
    | none => trivial
    | some i => exact ⟨inputKeys_nodup, i.contentDict, trivial, trivial, trivial⟩
  exact ⟨payloadKeys_nodup, hopt _, hopt _, hinput, trivial, trivial, trivial⟩

/-- The input members are the same for the same inputs; the digest follows from the content. -/
theorem same_inputPayload {sha256 : PyStr → Sha256Hex} {i j : Option CaseInputCommand}
    (hi : ∀ x ∈ i, x.contentSha256 = sha256 (Json.obj x.content).dumps)
    (hj : ∀ x ∈ j, x.contentSha256 = sha256 (Json.obj x.content).dumps) :
    (CaseInputCommand.payload i).Same (CaseInputCommand.payload j) ↔ SameInput i j := by
  cases i with
  | none => cases j <;> simp [CaseInputCommand.payload, Json.Same, SameInput]
  | some i =>
    cases j with
    | none => simp [CaseInputCommand.payload, Json.Same, SameInput]
    | some j =>
      have hdigest : (Json.obj i.content).Same (.obj j.content) →
          i.contentSha256.text = j.contentSha256.text := by
        intro hsame
        rw [hi i rfl, hj j rfl, hsame.dumps_eq i.contentDict j.contentDict]
      refine (same_obj_iff ?_ ?_).trans ?_
      · rfl
      · exact inputKeys_nodup
      simp only [List.map, List.forall₂_cons, List.forall₂_nil_left_iff, and_true]
      exact ⟨fun h => ⟨h.2.2, h.1⟩, fun h => ⟨h.2, hdigest h.2, h.1⟩⟩

/-- **The canonical text is the same exactly for the same request.** -/
theorem dumps_payload_eq_iff {sha256 : PyStr → Sha256Hex} {c c' : CreateCaseCommand}
    (hc : Routed sha256 c) (hc' : Routed sha256 c') (pc : c.payload.Paired) (pc' : c'.payload.Paired) :
    c.payload.dumps = c'.payload.dumps ↔ SameRequest c c' := by
  refine (Json.dumps_eq_iff (dict_payload c) (dict_payload c') pc pc').trans ?_
  refine (same_obj_iff ?_ ?_).trans ?_
  · rfl
  · exact payloadKeys_nodup
  simp only [List.map, List.forall₂_cons, List.forall₂_nil_left_iff, and_true, same_optStr,
    same_inputPayload hc hc']
  constructor
  · rintro ⟨hasset, hcategory, hinput, hseverity, htitle⟩
    exact ⟨htitle, hcategory, severity_value_inj hseverity,
      Option.map_injective (fun _ _ => Uuid.str_inj) hasset, hinput⟩
  · intro h
    exact ⟨by rw [h.assetId], h.category, h.input, congrArg Severity.value h.severity, h.title⟩

/-- Requests with one fingerprint are the same request, when SHA-256 tells their texts apart. -/
theorem requestSha256_eq_iff {sha256 : PyStr → Sha256Hex} {texts : Set PyStr}
    (hinj : Set.InjOn sha256 texts) {c c' : CreateCaseCommand} (hc : Routed sha256 c)
    (hc' : Routed sha256 c') (pc : c.payload.Paired) (pc' : c'.payload.Paired)
    (ht : c.payload.dumps ∈ texts) (ht' : c'.payload.dumps ∈ texts) :
    c.requestSha256 sha256 = c'.requestSha256 sha256 ↔ SameRequest c c' := by
  rw [CreateCaseCommand.requestSha256, CreateCaseCommand.requestSha256, hinj.eq_iff ht ht',
    dumps_payload_eq_iff hc hc' pc pc']

end NetopsCopilot
