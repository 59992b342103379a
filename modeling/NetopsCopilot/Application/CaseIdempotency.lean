import NetopsCopilot.Application.CaseFingerprint
import NetopsCopilot.Application.CaseSystem

/-!
# One case per idempotency key

In every run of create commands, and of transitions, an idempotency key has no case, or one case and the
one command that created it (`OneCase`). A create command that ends without a database error created the
case, or found it: then it has written nothing, and it returns the case if it repeats the request that
created it, and raises otherwise (`reachable_idempotent`).

The commands are those the routes build, with texts that split no surrogate pair and that SHA-256 tells
apart (`Comparable`).
-/

namespace NetopsCopilot

open Txn

/-! ### The case of a key -/

/-- The commands with a key that created a case. -/
def creations (w : World) (organizationId : Uuid) (idempotencyKey : PyStr) : List CreateCaseCommand :=
  w.history.filterMap fun
    | .created org c => if org = organizationId ∧ c.idempotencyKey = idempotencyKey then some c else none
    | .accepted _ _ => none

/-- The cases with a key. -/
def casesOf (w : World) (organizationId : Uuid) (idempotencyKey : PyStr) : List CaseRow :=
  w.db.cases.filter fun r => r.organizationId = organizationId && r.idempotencyKey = idempotencyKey

/-- No case and no command that created one, or one case and its command. -/
def OneCase (w : World) (organizationId : Uuid) (idempotencyKey : PyStr) : Prop :=
  (casesOf w organizationId idempotencyKey = [] ∧ creations w organizationId idempotencyKey = []) ∨
    ∃ row c, casesOf w organizationId idempotencyKey = [row] ∧
      creations w organizationId idempotencyKey = [c] ∧ row.id = c.caseId

section

variable {sha256 : PyStr → Sha256Hex} {ok : HistoryEntry → Prop} {w : World} {organizationId : Uuid}
  {idempotencyKey : PyStr}

/-- The creations of a key are the history of its slice. -/
theorem restrict_creations :
    creations (w.restrict (.idempotency organizationId idempotencyKey)) organizationId idempotencyKey =
      creations w organizationId idempotencyKey := by
  simp only [creations, World.restrict, bearing]
  induction w.history with
  | nil => rfl
  | cons e history ih =>
    rw [List.filter_cons]
    split_ifs with hbears
    · rw [List.filterMap_cons, List.filterMap_cons, ih]
    · rw [ih, List.filterMap_cons]
      cases e with
      | accepted org c => rfl
      | created org c =>
        have hother : ¬(org = organizationId ∧ c.idempotencyKey = idempotencyKey) := by
          rintro ⟨rfl, rfl⟩
          exact hbears (by simp [HistoryEntry.keys])
        simp only [if_neg hother]

theorem restrict_casesOf :
    (w.restrict (.idempotency organizationId idempotencyKey)).db.cases =
      casesOf w organizationId idempotencyKey := by
  refine List.filter_congr fun r _ => ?_
  simp [CaseRow.keys, eq_comm]

theorem oneCase (hw : (spineDiscipline sha256 ok).Coherent w) (organizationId : Uuid)
    (idempotencyKey : PyStr) : OneCase w organizationId idempotencyKey := by
  have hgood : KeyHistory sha256 ok organizationId idempotencyKey
      (w.restrict (.idempotency organizationId idempotencyKey)) :=
    hw (.idempotency organizationId idempotencyKey)
  rw [KeyHistory, restrict_casesOf] at hgood
  rw [OneCase, ← restrict_creations]
  rcases hgood with ⟨hcases, hhistory⟩ | ⟨row, c, hcases, hhistory, hkey, -, hid, -⟩
  · exact Or.inl ⟨hcases, by rw [creations, hhistory]; rfl⟩
  · refine Or.inr ⟨row, c, hcases, ?_, hid⟩
    rw [creations, hhistory]
    simp [hkey]

/-- Before the command that creates the case of a key ends, no other has. -/
theorem creations_before {ws : List SpineWrite} {c : CreateCaseCommand}
    (hw : (spineDiscipline sha256 ok).Coherent
      (caseStore.applyAll (ws ++ [.note (.created organizationId c)]) w)) :
    creations (caseStore.applyAll ws w) organizationId c.idempotencyKey = [] := by
  have hsnoc : creations (caseStore.applyAll (ws ++ [.note (.created organizationId c)]) w)
      organizationId c.idempotencyKey =
        creations (caseStore.applyAll ws w) organizationId c.idempotencyKey ++ [c] := by
    rw [Store.applyAll_append]
    simp [creations, caseStore, SpineWrite.apply]
  rcases oneCase hw organizationId c.idempotencyKey with
    ⟨-, hnone⟩ | ⟨row, c', -, hone, -⟩
  · rw [hsnoc] at hnone
    cases List.append_eq_nil_iff.mp hnone |>.2
  · rw [hsnoc] at hone
    simpa using congrArg List.length hone

/-- An original in the slice of a key is the one command that created its case. -/
theorem creations_of_hasOriginal (hw : (spineDiscipline sha256 ok).Coherent w)
    {p : CreateCaseCommand → Prop} (h : HasOriginal ok organizationId idempotencyKey p
      (w.restrict (.idempotency organizationId idempotencyKey))) :
    ∃ c, creations w organizationId idempotencyKey = [c] ∧ ok (.created organizationId c) ∧ p c := by
  obtain ⟨c, hmem, hkey, hok, hp⟩ := h
  have hcreated : c ∈ creations w organizationId idempotencyKey := by
    rw [← restrict_creations]
    exact List.mem_filterMap.mpr ⟨_, hmem, by simp [hkey]⟩
  rcases oneCase hw organizationId idempotencyKey with
    ⟨-, hnone⟩ | ⟨row, c', -, hone, -⟩
  · rw [hnone] at hcreated
    cases hcreated
  · rw [hone, List.mem_singleton] at hcreated
    exact ⟨c, by rw [hone, hcreated], hok, hp⟩

end

/-! ### The answers -/

/-- What a client's open transaction sees. -/
abbrev viewOf {C : Type}
    (s : State CaseStmt CaseStmt.Reply DbError Uuid CaseError CaseReply SpineWrite World C) (i : ℕ) :
    World := caseStore.applyAll (s.client i).pending s.committed

theorem viewOf_eq {C : Type}
    {s : State CaseStmt CaseStmt.Reply DbError Uuid CaseError CaseReply SpineWrite World C} {i : ℕ}
    (h : (s.client i).pending = (s.client i).mark) :
    viewOf s i = caseStore.applyAll (s.client i).mark s.committed := by
  rw [viewOf, h]

/-- The commands whose texts can be compared by their digests. -/
def Comparable (sha256 : PyStr → Sha256Hex) (texts : Set PyStr) : CaseCommand → Prop
  | .create _ c => Routed sha256 c ∧ c.payload.Paired ∧ c.payload.dumps ∈ texts
  | .transition _ _ => True

/-- What a create command returned: the case is new, or it is the original one of the same request and
nothing was written. -/
def Returned {C : Type}
    (s : State CaseStmt CaseStmt.Reply DbError Uuid CaseError CaseReply SpineWrite World C) (i : ℕ)
    (organizationId : Uuid) (c : CreateCaseCommand) (result : CreateCaseResult) : Prop :=
  (result.created = true ∧ creations (viewOf s i) organizationId c.idempotencyKey = []) ∨
    (result.created = false ∧ (s.client i).pending = (s.client i).mark ∧
      ∃ original, creations (viewOf s i) organizationId c.idempotencyKey = [original] ∧
        result.case.caseId = original.caseId ∧ SameRequest original c)

/-- What a create command raised, with nothing written: a database error, or a conflict with the original
request. -/
def Raised {C : Type}
    (s : State CaseStmt CaseStmt.Reply DbError Uuid CaseError CaseReply SpineWrite World C) (i : ℕ)
    (organizationId : Uuid) (c : CreateCaseCommand) (e : CaseError) : Prop :=
  (s.client i).pending = (s.client i).mark ∧ ((∃ d, e = .db d) ∨
    ∃ original, creations (viewOf s i) organizationId c.idempotencyKey = [original] ∧
      e = .idempotencyConflict c.idempotencyKey original.caseId c.caseId ∧ ¬SameRequest original c)

/-- **One case per key, and one command that creates it.** Every other command with the key repeats the
request and gets the case, or raises; neither writes. -/
theorem reachable_idempotent {sha256 : PyStr → Sha256Hex} {texts : Set PyStr}
    (hinj : Set.InjOn sha256 texts) {w₀ : World} (h₀ : w₀.Absent)
    {s : State CaseStmt CaseStmt.Reply DbError Uuid CaseError CaseReply SpineWrite World
      { c : CaseCommand // Comparable sha256 texts c }}
    (hs : (spineSystem sha256 (Comparable sha256 texts)).Reachable w₀ s) :
    (∀ organizationId idempotencyKey, OneCase s.committed organizationId idempotencyKey) ∧
    (∀ i organizationId c hc,
      (∀ reply, (s.client i).running = some (⟨.create organizationId c, hc⟩, .ret reply) →
        ∃ result, reply = .created organizationId c result ∧ Returned s i organizationId c result) ∧
      ∀ e, (s.client i).running = some (⟨.create organizationId c, hc⟩, .raise e) →
        Raised s i organizationId c e) ∧
    ∀ organizationId c c', Comparable sha256 texts (.create organizationId c) →
      Comparable sha256 texts (.create organizationId c') →
        (c.requestSha256 sha256 = c'.requestSha256 sha256 ↔ SameRequest c c') := by
  have hinv := (spineSystem_sound sha256 _).reachable_inv (coherent_of_absent h₀) hs
  refine ⟨oneCase hinv.coherent, fun i organizationId c hc => ⟨?_, ?_⟩, ?_⟩
  · intro reply hrun
    have hwp := (Sound.clientInv_running hrun).mp (hinv.client i)
    obtain ⟨-, hready, hends⟩ := hwp s.committed (Discipline.Rely.refl _ _)
    obtain ⟨result, rfl, hcreated | ⟨hcreated, hpending, hreplay⟩⟩ := hends.create organizationId c rfl
    · have hnotes : (spineSystem sha256 (Comparable sha256 texts)).record
          ⟨.create organizationId c, hc⟩ (.ok (.created organizationId c result)) =
            [.note (.created organizationId c)] := if_pos hcreated
      rw [hnotes] at hready
      exact ⟨result, rfl, Or.inl ⟨hcreated, creations_before hready.coherent⟩⟩
    · have hview : (spineDiscipline sha256 (allowedEntries (Comparable sha256 texts))).Coherent (viewOf s i) := by
        have hnotes : (spineSystem sha256 (Comparable sha256 texts)).record
            ⟨.create organizationId c, hc⟩ (.ok (.created organizationId c result)) = [] :=
          if_neg (by rw [hcreated]; exact Bool.false_ne_true)
        rw [hnotes, List.append_nil] at hready
        exact hready.coherent
      have hsees := viewOf_eq hpending
      obtain ⟨original, hone, hok, hid, hsha⟩ := creations_of_hasOriginal (hsees ▸ hview) hreplay
      refine ⟨result, rfl, Or.inr ⟨hcreated, hpending, original, hsees ▸ hone, hid.symm, ?_⟩⟩
      exact (requestSha256_eq_iff hinj hok.1 hc.1 hok.2.1 hc.2.1 hok.2.2 hc.2.2).mp hsha
  · intro e hrun
    have hwp := (Sound.clientInv_running hrun).mp (hinv.client i)
    obtain ⟨-, hready, hends⟩ := hwp s.committed (Discipline.Rely.refl _ _)
    have hpending := hends.raised e rfl
    have hview : (spineDiscipline sha256 (allowedEntries (Comparable sha256 texts))).Coherent (viewOf s i) := by
      have hnotes : (spineSystem sha256 (Comparable sha256 texts)).record
          ⟨.create organizationId c, hc⟩ (.error e) = [] := rfl
      rw [hnotes, List.append_nil] at hready
      exact hready.coherent
    refine ⟨hpending, ?_⟩
    rcases hends.create organizationId c rfl with hdb | ⟨id, rfl, horiginal⟩
    · exact Or.inl hdb
    · have hsees := viewOf_eq hpending
      obtain ⟨original, hone, hok, rfl, hsha⟩ := creations_of_hasOriginal (hsees ▸ hview) horiginal
      refine Or.inr ⟨original, hsees ▸ hone, rfl, fun hsame => hsha ?_⟩
      exact (requestSha256_eq_iff hinj hok.1 hc.1 hok.2.1 hc.2.1 hok.2.2 hc.2.2).mpr hsame
  · intro _ c c' hc hc'
    exact requestSha256_eq_iff hinj hc.1 hc'.1 hc.2.1 hc'.2.1 hc.2.2 hc'.2.2

/-! ### A collision, and a run -/

/-- A note with a text. -/
def sampleContent (text : PyStr) : List (PyStr × Json) := [(py "text", .str text)]

theorem sampleContent_dict (text : PyStr) : (Json.obj (sampleContent text)).Dict :=
  ⟨by simp [sampleContent], trivial, trivial⟩

/-- A request with a note, as `create_case` builds it. -/
def sampleNote (caseId : Uuid) (text : PyStr) : CreateCaseCommand :=
  { sampleCreate with
    caseId := caseId
    eventId := caseId + 1
    caseInput := some
      { inputId := caseId + 2
        inputKind := py "note"
        contentSha256 := Hashlib.sha256 (Json.obj (sampleContent text)).dumps
        content := sampleContent text
        inputKindOk := by decide
        contentDict := sampleContent_dict text } }

theorem routed_sampleNote (caseId : Uuid) (text : PyStr) :
    Routed Hashlib.sha256 (sampleNote caseId text) := by
  rintro i ⟨⟩
  rfl

/-- A character above the basic plane, and its two surrogates, are different contents with one
fingerprint. -/
theorem fingerprint_collision : ∃ c c' : CreateCaseCommand, Routed Hashlib.sha256 c ∧
    Routed Hashlib.sha256 c' ∧ c.idempotencyKey = c'.idempotencyKey ∧ ¬SameRequest c c' ∧
    c.requestSha256 Hashlib.sha256 = c'.requestSha256 Hashlib.sha256 := by
  refine ⟨sampleNote 10 [0x1F600], sampleNote 50 [0xD83D, 0xDE00], routed_sampleNote _ _,
    routed_sampleNote _ _, rfl, fun hsame => ?_, ?_⟩
  · obtain ⟨v, hv, hvalue⟩ :=
      sameMembers_iff.mp hsame.input.2.2 (py "text", .str [0x1F600]) List.mem_cons_self
    have hmem : (py "text", v) ∈ sampleContent [0xD83D, 0xDE00] := hv
    obtain rfl : v = .str [0xD83D, 0xDE00] := congrArg Prod.snd (List.mem_singleton.mp hmem)
    have htexts : ([0x1F600] : PyStr) = [0xD83D, 0xDE00] := hvalue
    exact absurd htexts (by decide)
  · have hpayload : (sampleNote 10 [0x1F600]).payload.dumps =
        (sampleNote 50 [0xD83D, 0xDE00]).payload.dumps := by
      decide +kernel
    exact congrArg Hashlib.sha256 hpayload

/-- The canonical texts of two notes. -/
def sampleTexts : Set PyStr :=
  {(sampleNote 10 (py "Port 3")).payload.dumps, (sampleNote 10 (py "Port 4")).payload.dumps}

theorem sampleTexts_injOn : Set.InjOn Hashlib.sha256 sampleTexts := by
  have hne : Hashlib.sha256 (sampleNote 10 (py "Port 3")).payload.dumps ≠
      Hashlib.sha256 (sampleNote 10 (py "Port 4")).payload.dumps := by
    decide +kernel
  rintro s (rfl | rfl) t (rfl | rfl) h
  · rfl
  · exact absurd h hne
  · exact absurd h.symm hne
  · rfl

theorem comparable_sampleNote {caseId : Uuid} {text : PyStr}
    (hp : (sampleNote caseId text).payload.Paired)
    (ht : (sampleNote caseId text).payload.dumps ∈ sampleTexts) :
    Comparable Hashlib.sha256 sampleTexts (.create 7 (sampleNote caseId text)) :=
  ⟨routed_sampleNote caseId text, hp, ht⟩

/-- A request, its replay, and another request with the key. -/
def sampleRequests : List ({ c : CaseCommand // Comparable Hashlib.sha256 sampleTexts c } × List Uuid) :=
  have hfirst : (sampleNote 10 (py "Port 3")).payload.Paired := by
    unfold Json.Paired
    decide +kernel
  have hother : (sampleNote 10 (py "Port 4")).payload.Paired := by
    unfold Json.Paired
    decide +kernel
  [(⟨.create 7 (sampleNote 10 (py "Port 3")), comparable_sampleNote hfirst (Or.inl rfl)⟩, [30, 31]),
    (⟨.create 7 (sampleNote 50 (py "Port 3")), comparable_sampleNote hfirst (Or.inl rfl)⟩, [32, 33]),
    (⟨.create 7 (sampleNote 90 (py "Port 4")), comparable_sampleNote hother (Or.inr rfl)⟩, [34, 35])]

/-- Of a run in which the second command repeats the first request and the third does not. -/
theorem reachable_idempotent_sample : ∃ w : World, w.db.cases.map (·.id) = [10] ∧
    OneCase w 7 (py "key-1") := by
  have hrun : ((spineSystem Hashlib.sha256 (Comparable Hashlib.sha256 sampleTexts)).serial
      sampleRequests sampleWorld).map (fun w => w.db.cases.map (·.id)) = some [10] := by
    decide +kernel
  obtain ⟨w, hw, hcases⟩ := Option.map_eq_some_iff.mp hrun
  exact ⟨w, hcases, (reachable_idempotent sampleTexts_injOn sampleWorld_absent
    (System.reachable_serial hw)).1 7 (py "key-1")⟩

end NetopsCopilot
