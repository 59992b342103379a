import NetopsCopilot.Application.Outbox
import NetopsCopilot.Lib.Attempt
import NetopsCopilot.Lib.Confined
import NetopsCopilot.Lib.ReadCommitted
import NetopsCopilot.Lib.Solo
import NetopsCopilot.Python.Hashlib
import NetopsCopilot.Python.JsonText

/-!
# The consumer inbox under concurrency (`TenantConsumerInbox.record_once`)

Any number of consumers record events at once. The unique index on organization, consumer and event makes a second
insert wait for the transaction of the first, and the statement behind it reads what that transaction left. The store
keeps, besides the receipts, the calls that returned `True` in the order in which their transactions committed.
-/

namespace NetopsCopilot

open Txn

/-! ### The call -/

/-- The arguments of `record_once`, with the organization of its connection. -/
structure InboxCall where
  organizationId : Uuid
  consumerName : PyStr
  eventId : Uuid
  payload : Json
  processedAt : Instant

/-- The parameters of `_INSERT_CONSUMER_INBOX`. -/
def InboxCall.row (sha256 : PyStr → Sha256Hex) (c : InboxCall) (inboxId : Uuid) : InboxRow where
  id := inboxId
  organizationId := c.organizationId
  consumerName := strip c.consumerName
  eventId := c.eventId
  payloadSha256 := payloadSha256 sha256 c.payload
  processedAt := c.processedAt

/-- `_INSERT_CONSUMER_INBOX` and `_SELECT_CONSUMER_PAYLOAD_SHA256`. -/
inductive InboxStmt where
  | insert (row : InboxRow)
  | selectPayloadSha256 (organizationId : Uuid) (consumerName : PyStr) (eventId : Uuid)

/-- `one_or_none` of what a statement returns; the unique index admits no second row. -/
def InboxStmt.Reply : InboxStmt → Type
  | .insert _ => Option Uuid
  | .selectPayloadSha256 _ _ _ => Option Sha256Hex

/-- The programs of the inbox. -/
abbrev InboxProg := Prog InboxStmt InboxStmt.Reply DbError Uuid OutboxError

def insertReceipt (row : InboxRow) : InboxProg (Option Uuid) := Prog.execute .db (InboxStmt.insert row)

def selectPayloadSha256 (organizationId : Uuid) (consumerName : PyStr) (eventId : Uuid) : InboxProg (Option Sha256Hex) :=
  Prog.execute .db (InboxStmt.selectPayloadSha256 organizationId consumerName eventId)

/-- What a call without a new receipt makes of the digest it finds. -/
def InboxCall.replay (sha256 : PyStr → Sha256Hex) (c : InboxCall) : Option Sha256Hex → Except OutboxError Bool
  | none => .error (.runtimeError (py "Consumer deduplication conflict did not retain its receipt."))
  | some existing =>
    if existing ≠ payloadSha256 sha256 c.payload then .error (.payloadMismatch c.eventId c.consumerName)
    else .ok false

/-- `record_once`, statement by statement. -/
def InboxCall.program (sha256 : PyStr → Sha256Hex) (c : InboxCall) : InboxProg Bool :=
  if isBlank c.consumerName = true ∨ 255 < c.consumerName.length then
    .raise (.valueError (py "consumer_name must contain 1 to 255 non-blank characters."))
  else do
    let inboxId ← Prog.draw
    match ← insertReceipt (c.row sha256 inboxId) with
    | some _ => return true
    | none =>
      let existing ← selectPayloadSha256 c.organizationId (strip c.consumerName) c.eventId
      Prog.lift (c.replay sha256 existing)

/-! ### The store -/

/-- The unique indexes of `consumer_inbox`. -/
inductive InboxKey where
  | receipt (organizationId : Uuid) (consumerName : PyStr) (eventId : Uuid)
  | id (id : Uuid)
deriving DecidableEq

def InboxRow.keys (r : InboxRow) : List InboxKey := [.receipt r.organizationId r.consumerName r.eventId, .id r.id]

def InboxCall.key (c : InboxCall) : InboxKey := .receipt c.organizationId (strip c.consumerName) c.eventId

/-- The database, and the calls that returned `True`. -/
structure InboxWorld where
  db : Db := {}
  recorded : List InboxCall := []

/-- An inserted receipt, or an entry of the history. -/
inductive InboxWrite where
  | row (r : InboxRow)
  | note (c : InboxCall)

def InboxWrite.apply : InboxWrite → InboxWorld → InboxWorld
  | .row r, w => { w with db := { w.db with inbox := w.db.inbox ++ [r] } }
  | .note c, w => { w with recorded := w.recorded ++ [c] }

def InboxWrite.locks : InboxWrite → List InboxKey
  | .row r => r.keys
  | .note _ => []

def InboxWrite.touches : InboxWrite → List InboxKey
  | .row r => r.keys
  | .note c => [c.key]

/-- The entry of a call in the history. -/
def InboxCall.noted (c : InboxCall) : Except OutboxError Bool → List InboxWrite
  | .ok true => [.note c]
  | _ => []

/-- A statement on what its transaction sees. -/
def InboxStmt.exec : (s : InboxStmt) → InboxWorld → Except DbError (s.Reply × List InboxWrite)
  | .insert r, w => do
    need .notStorable (storable r.consumerName)
    need (.check (py "consumer_inbox")) r.checks
    if (w.db.inbox.find? (InboxRow.receipt r.organizationId r.consumerName r.eventId)).isSome then return (none, [])
    else
      need (.unique (py "consumer_inbox_pkey")) (w.db.inbox.all fun r' => r'.id != r.id)
      return (some r.id, [.row r])
  | .selectPayloadSha256 organizationId consumerName eventId, w =>
    .ok ((w.db.inbox.find? (InboxRow.receipt organizationId consumerName eventId)).map (·.payloadSha256), [])

def inboxStore : Store InboxStmt InboxStmt.Reply DbError InboxWrite InboxKey InboxWorld where
  exec := InboxStmt.exec
  apply := InboxWrite.apply
  locks := InboxWrite.locks
  touches := InboxWrite.touches
  deferred _ _ := true

/-- The consumers whose calls satisfy `allowed`. -/
def inboxSystem (sha256 : PyStr → Sha256Hex) (allowed : InboxCall → Prop) :
    System InboxStmt InboxStmt.Reply DbError Uuid OutboxError Bool InboxWrite InboxKey InboxWorld
      { c : InboxCall // allowed c } where
  store := inboxStore
  program c := c.val.program sha256
  record c := c.val.noted

/-! ### The statements -/

section

variable {sha256 : PyStr → Sha256Hex} {c : InboxCall} {r : InboxRow} {w : InboxWorld}

/-- An insert takes place without a receipt, and is skipped with one. -/
theorem exec_insert_ok {reply : Option Uuid} {ws : List InboxWrite} (h : (InboxStmt.insert r).exec w = .ok (reply, ws)) :
    (reply = some r.id ∧ ws = [.row r] ∧
      w.db.inbox.find? (InboxRow.receipt r.organizationId r.consumerName r.eventId) = none) ∨
    (reply = none ∧ ws = [] ∧
      ∃ existing, w.db.inbox.find? (InboxRow.receipt r.organizationId r.consumerName r.eventId) = some existing) := by
  unfold InboxStmt.exec at h
  dsimp only at h
  obtain ⟨-, -, h⟩ := Raising.bind_ok h
  obtain ⟨-, -, h⟩ := Raising.bind_ok h
  cases hfind : w.db.inbox.find? (InboxRow.receipt r.organizationId r.consumerName r.eventId) with
  | none =>
    rw [hfind] at h
    obtain ⟨-, -, h⟩ := Raising.bind_ok h
    cases h
    exact Or.inl ⟨rfl, rfl, rfl⟩
  | some existing =>
    rw [hfind] at h
    cases h
    exact Or.inr ⟨rfl, rfl, existing, rfl⟩

end

/-! ### One receipt for a key -/

/-- The receipts and the calls of a key. -/
def InboxWorld.restrict (k : InboxKey) (w : InboxWorld) : List InboxRow × List InboxCall :=
  (w.db.inbox.filter fun r => decide (k ∈ r.keys), w.recorded.filter fun c => decide (c.key = k))

theorem restrict_row (k : InboxKey) (r : InboxRow) (w : InboxWorld) :
    ((InboxWrite.row r).apply w).restrict k =
      ((w.restrict k).1 ++ [r].filter fun r => decide (k ∈ r.keys), (w.restrict k).2) :=
  Prod.ext (List.filter_append _ _) rfl

theorem restrict_note (k : InboxKey) (c : InboxCall) (w : InboxWorld) :
    ((InboxWrite.note c).apply w).restrict k =
      ((w.restrict k).1, (w.restrict k).2 ++ [c].filter fun c => decide (c.key = k)) :=
  Prod.ext rfl (List.filter_append _ _)

/-- What a statement finds is in the slice of the key. -/
theorem find?_receipt (w : InboxWorld) (organizationId : Uuid) (consumerName : PyStr) (eventId : Uuid) :
    w.db.inbox.find? (InboxRow.receipt organizationId consumerName eventId) =
      (w.restrict (.receipt organizationId consumerName eventId)).1.head? := by
  have hreceipt : InboxRow.receipt organizationId consumerName eventId =
      fun r => decide (InboxKey.receipt organizationId consumerName eventId ∈ r.keys) := by
    funext r
    rw [Bool.eq_iff_iff, decide_eq_true_eq]
    unfold InboxRow.receipt InboxRow.keys
    rw [Bool.and_eq_true, Bool.and_eq_true, beq_iff_eq, beq_iff_eq, beq_iff_eq, List.mem_cons, List.mem_singleton,
      InboxKey.receipt.injEq, or_iff_left (fun h => nomatch h), and_assoc, eq_comm, @eq_comm _ r.consumerName,
      @eq_comm _ r.eventId]
  rw [hreceipt]
  exact List.head?_filter.symm

section

variable (sha256 : PyStr → Sha256Hex) (ok : InboxCall → Prop)

/-- A key has no receipt, or the receipt of the one call that recorded it. -/
def KeyReceipt : InboxKey → List InboxRow × List InboxCall → Prop
  | .receipt _ _ _, p => p = ([], []) ∨ ∃ c inboxId, p = ([c.row sha256 inboxId], [c]) ∧ ok c
  | .id _, _ => True

def inboxDiscipline : Discipline inboxStore (List InboxRow × List InboxCall) where
  restrict := InboxWorld.restrict
  good := KeyReceipt sha256 ok
  complete _ := True
  complete_nil := trivial
  untouched w k db h := by
    cases w with
    | row r =>
      have hnot : k ∉ r.keys := h
      show ((InboxWrite.row r).apply db).restrict k = _
      rw [restrict_row, List.filter_singleton, decide_eq_false hnot]
      exact Prod.ext (List.append_nil _) rfl
    | note c =>
      have hnot : c.key ≠ k := fun hk => h (List.mem_singleton.mpr hk.symm)
      show ((InboxWrite.note c).apply db).restrict k = _
      rw [restrict_note, List.filter_singleton, decide_eq_false hnot]
      exact Prod.ext rfl (List.append_nil _)
  congr w k db db' h := by
    cases w with
    | row r =>
      show ((InboxWrite.row r).apply db).restrict k = ((InboxWrite.row r).apply db').restrict k
      rw [restrict_row, restrict_row, h]
    | note c =>
      show ((InboxWrite.note c).apply db).restrict k = ((InboxWrite.note c).apply db').restrict k
      rw [restrict_note, restrict_note, h]

/-- The call that recorded the key satisfies `P`. -/
def HasRecorded (P : InboxCall → Prop) (p : List InboxRow × List InboxCall) : Prop := ∃ o ∈ p.2, ok o ∧ P o

/-- How a call answers: with a new receipt, or with nothing written and what the recorded call says. -/
def InboxAnswers (base : List InboxWrite) (c : InboxCall) (r : Except OutboxError Bool)
    (y : Local InboxWrite InboxWorld) : Prop :=
  match r with
  | .ok true => ∃ inboxId, y.pending = base ++ [.row (c.row sha256 inboxId)]
  | .ok false => y.pending = base ∧
    HasRecorded ok (fun o => payloadSha256 sha256 o.payload = payloadSha256 sha256 c.payload)
      ((inboxStore.applyAll base y.db).restrict c.key)
  | .error e => y.pending = base ∧ ((∃ d, e = .db d) ∨
    ((isBlank c.consumerName = true ∨ 255 < c.consumerName.length) ∧
      e = .valueError (py "consumer_name must contain 1 to 255 non-blank characters.")) ∨
    (e = .payloadMismatch c.eventId c.consumerName ∧
      HasRecorded ok (fun o => payloadSha256 sha256 o.payload ≠ payloadSha256 sha256 c.payload)
        ((inboxStore.applyAll base y.db).restrict c.key)))

end

section

variable {sha256 : PyStr → Sha256Hex} {ok : InboxCall → Prop} {c : InboxCall} {x y : Local InboxWrite InboxWorld}
  {organizationId eventId : Uuid} {consumerName : PyStr}

/-- A call of the slice is the one of its receipt. -/
theorem KeyReceipt.eq_of_mem {p : List InboxRow × List InboxCall} {o : InboxCall}
    (h : KeyReceipt sha256 ok (.receipt organizationId consumerName eventId) p) (ho : o ∈ p.2) :
    ∃ inboxId, p = ([o.row sha256 inboxId], [o]) ∧ ok o := by
  rcases h with rfl | ⟨c, inboxId, rfl, hok⟩
  · cases ho
  · rw [List.mem_singleton] at ho
    exact ⟨inboxId, by rw [ho], ho ▸ hok⟩

/-- The receipt that a statement finds is that of a call. -/
theorem KeyReceipt.of_head {p : List InboxRow × List InboxCall} {existing : InboxRow}
    (h : KeyReceipt sha256 ok (.receipt organizationId consumerName eventId) p) (hp : p.1.head? = some existing) :
    ∃ o ∈ p.2, ok o := by
  rcases h with rfl | ⟨c, inboxId, rfl, hok⟩
  · cases hp
  · exact ⟨c, List.mem_singleton_self c, hok⟩

/-- A recorded call stays recorded. -/
theorem recorded_later {o : InboxCall} {k : InboxKey} {ps : List InboxWrite} {db db' : InboxWorld}
    (howned : inboxStore.Owned ps) (hrely : (inboxDiscipline sha256 ok).Rely ps db db')
    (ho : o ∈ ((inboxStore.applyAll ps db).restrict k).2) : o ∈ ((inboxStore.applyAll ps db').restrict k).2 := by
  have hkept : ∀ (w : InboxWrite) (db : InboxWorld), o ∈ (db.restrict k).2 → o ∈ ((w.apply db).restrict k).2 := by
    intro w db hmem
    cases w with
    | row r =>
      rw [restrict_row]
      exact hmem
    | note c =>
      rw [restrict_note]
      exact List.mem_append_left _ hmem
  exact @Discipline.Rely.slice_induct _ _ _ _ _ _ _ _ (inboxDiscipline sha256 ok) (fun p => o ∈ p.2) k ps db db' hkept
    howned hrely ho

/-- A new receipt for a key without one. -/
theorem ready_recorded {inboxId : Uuid} (hok : ok c) (hready : (inboxDiscipline sha256 ok).Ready x.db x.pending)
    (hc : (inboxDiscipline sha256 ok).Coherent x.db)
    (hnone : ((inboxStore.applyAll x.pending x.db).restrict c.key).1 = []) {db : InboxWorld}
    (hrely : (inboxDiscipline sha256 ok).Rely (x.pending ++ [.row (c.row sha256 inboxId)]) x.db db) :
    (inboxDiscipline sha256 ok).Ready db ((x.pending ++ [.row (c.row sha256 inboxId)]) ++ [.note c]) := by
  have hlocked : c.key ∈ inboxStore.lockedBy (x.pending ++ [.row (c.row sha256 inboxId)]) := by
    rw [Store.lockedBy_append]
    exact List.mem_append_right _ List.mem_cons_self
  have hafter := hrely.ready hc hready
  refine ⟨fun k => ?_, ?_, trivial⟩
  · by_cases hk : k = c.key
    · -- the lock on the key keeps its slice empty until the row
      subst hk
      have hslice : (inboxStore.applyAll x.pending x.db).restrict c.key = ([], []) := by
        rcases hready.coherent c.key with hempty | ⟨c', inboxId', hone, -⟩
        · exact hempty
        · have hrow : (inboxStore.applyAll x.pending x.db).restrict c.key = _ := hone
          rw [hrow] at hnone
          cases hnone
      refine Or.inr ⟨c, inboxId, ?_, hok⟩
      have hsame := hrely.slice hlocked x.pending
      rw [List.append_assoc, Store.applyAll_append]
      show ((InboxWrite.note c).apply ((InboxWrite.row (c.row sha256 inboxId)).apply
        (inboxStore.applyAll x.pending db))).restrict c.key = _
      have hsame' : (inboxStore.applyAll x.pending db).restrict c.key = ([], []) := hsame.trans hslice
      have hrow : c.key ∈ (c.row sha256 inboxId).keys := List.mem_cons_self
      rw [restrict_note, restrict_row, hsame', List.filter_singleton, List.filter_singleton, decide_eq_true hrow,
        decide_eq_true rfl]
      rfl
    · rw [List.append_assoc, List.singleton_append, Store.applyAll_append]
      by_cases hid : k = .id inboxId
      · rw [hid]
        trivial
      · have huntouched : k ∉ inboxStore.touchedBy [.row (c.row sha256 inboxId), .note c] := by
          intro hmem
          have hmem' : k ∈ [c.key, .id inboxId, c.key] := hmem
          simp only [List.mem_cons, List.not_mem_nil, or_false] at hmem'
          tauto
        show KeyReceipt sha256 ok k ((inboxDiscipline sha256 ok).restrict k _)
        rw [(inboxDiscipline sha256 ok).untouched_all huntouched]
        exact hafter.coherent k
  · refine Store.Owned.append ?_ fun k hk => Or.inl ?_
    · exact hready.owned.append fun k hk => Or.inr hk
    · rw [show k = c.key from List.mem_singleton.mp hk]
      exact hlocked

/-- The end of a call that found the receipt of another. -/
theorem answers_replay {o : InboxCall} (ho : o ∈ ((inboxStore.applyAll x.pending y.db).restrict c.key).2) (hok : ok o)
    (hpending : y.pending = x.pending) (inboxId : Uuid) :
    InboxAnswers sha256 ok x.pending c (c.replay sha256 (some (o.row sha256 inboxId).payloadSha256)) y := by
  unfold InboxCall.replay
  dsimp only
  by_cases hsame : payloadSha256 sha256 o.payload = payloadSha256 sha256 c.payload
  · have hrow : ¬(o.row sha256 inboxId).payloadSha256 ≠ payloadSha256 sha256 c.payload := not_not.mpr hsame
    rw [if_neg hrow]
    exact ⟨hpending, o, ho, hok, hsame⟩
  · have hrow : (o.row sha256 inboxId).payloadSha256 ≠ payloadSha256 sha256 c.payload := hsame
    rw [if_pos hrow]
    exact ⟨hpending, Or.inr (Or.inr ⟨rfl, o, ho, hok, hsame⟩)⟩

theorem noted_replay (found : Option Sha256Hex) : c.noted (c.replay sha256 found) = [] := by
  unfold InboxCall.replay
  cases found with
  | none => rfl
  | some existing =>
    dsimp only
    split_ifs <;> rfl

/-- **A call keeps the discipline**, whatever the others commit between its statements. -/
theorem wp_recordOnce (hok : ok c) (hready : (inboxDiscipline sha256 ok).Ready x.db x.pending)
    (hc : (inboxDiscipline sha256 ok).Coherent x.db) (hsaves : x.saves = []) :
    (inboxDiscipline sha256 ok).wp (c.program sha256) (fun r y => y.saves = [] ∧
      (inboxDiscipline sha256 ok).Ready y.db (y.pending ++ c.noted r) ∧ InboxAnswers sha256 ok x.pending c r y) x := by
  -- the end of a call that wrote nothing
  have hquiet : ∀ {y r}, (inboxDiscipline sha256 ok).Later x y → c.noted r = [] → InboxAnswers sha256 ok x.pending c r y →
      y.saves = [] ∧ (inboxDiscipline sha256 ok).Ready y.db (y.pending ++ c.noted r) ∧
        InboxAnswers sha256 ok x.pending c r y := fun hlater hnoted hanswers => by
    rw [hnoted, List.append_nil]
    exact ⟨hlater.saves.trans hsaves, hlater.ready hc hready, hanswers⟩
  have hdb : ∀ {y} d, (inboxDiscipline sha256 ok).Later x y → InboxAnswers sha256 ok x.pending c (.error (.db d)) y :=
    fun d hlater => ⟨hlater.pending, Or.inl ⟨d, rfl⟩⟩
  unfold InboxCall.program
  by_cases hname : isBlank c.consumerName = true ∨ 255 < c.consumerName.length
  · rw [if_pos hname]
    exact Discipline.wp_raise _ fun y hlater => hquiet hlater rfl ⟨hlater.pending, Or.inr (Or.inl ⟨hname, rfl⟩)⟩
  rw [if_neg hname]
  intro inboxId
  show (inboxDiscipline sha256 ok).wp ((insertReceipt (c.row sha256 inboxId)).elim _ .raise) _ x
  refine Discipline.wp_elim _ (Discipline.wp_execute _ ((inboxDiscipline sha256 ok).Later x)
    (fun db hr => ⟨rfl, rfl, hr⟩) (fun d y hlater => ?_) fun y r ws hlater hexec db hr => ?_)
  · exact Discipline.wp_raise _ fun z hz => hquiet (hlater.trans hz) rfl (hdb d (hlater.trans hz))
  rw [hlater.pending] at hexec hr
  rcases exec_insert_ok hexec with ⟨rfl, rfl, hnone⟩ | ⟨rfl, rfl, existing, hfound⟩
  · -- no other transaction has the key, and none will before this one ends
    rw [find?_receipt, List.head?_eq_none_iff] at hnone
    refine Discipline.wp_ret _ fun z hz => ?_
    have hpending : z.pending = x.pending ++ [.row (c.row sha256 inboxId)] := hz.pending.trans (by rw [hlater.pending])
    refine ⟨hz.saves.trans (hlater.saves.trans hsaves), ?_, inboxId, hpending⟩
    have hrely := hr.trans (hlater.pending ▸ hz.rely)
    have hready' : (inboxDiscipline sha256 ok).Ready y.db x.pending := hlater.pending ▸ hlater.ready hc hready
    have hrecorded := @ready_recorded sha256 ok c ⟨y.db, x.pending, []⟩ inboxId hok hready' (hlater.coherent hc) hnone
      z.db hrely
    rw [hpending]
    exact hrecorded
  · -- the transaction that left the receipt has committed, so the next statement finds it too
    rw [find?_receipt] at hfound
    have hready' : (inboxDiscipline sha256 ok).Ready y.db x.pending := hlater.pending ▸ hlater.ready hc hready
    have hgood : ∀ {db}, (inboxDiscipline sha256 ok).Ready db x.pending →
        KeyReceipt sha256 ok (.receipt c.organizationId (strip c.consumerName) c.eventId)
          ((inboxStore.applyAll x.pending db).restrict c.key) := fun h => h.coherent c.key
    obtain ⟨o, ho, hoo⟩ := (hgood hready').of_head hfound
    rw [List.append_nil] at hr ⊢
    have hlater' : (inboxDiscipline sha256 ok).Later x { y with db := db } :=
      ⟨hlater.pending, hlater.saves, hlater.rely.trans hr⟩
    have hrecorded : ∀ {z}, (inboxDiscipline sha256 ok).Later { y with db := db } z →
        o ∈ ((inboxStore.applyAll x.pending z.db).restrict c.key).2 := fun hz =>
      recorded_later hready.owned (hr.trans (hlater.pending ▸ hz.rely)) ho
    show (inboxDiscipline sha256 ok).wp ((selectPayloadSha256 c.organizationId (strip c.consumerName) c.eventId).elim
      (fun existing => Prog.lift (c.replay sha256 existing)) .raise) _ _
    refine Discipline.wp_elim _ (Discipline.wp_read _ (fun _ _ _ h => ?_) (fun d z hz => ?_)
      fun u found z hu hselect hz => ?_)
    · cases h
      rfl
    · exact Discipline.wp_raise _ fun t ht => hquiet (hlater'.trans (hz.trans ht)) rfl
        (hdb d (hlater'.trans (hz.trans ht)))
    · have hpending : u.pending = x.pending := (hlater'.trans hu).pending
      have hready'' := (hlater'.trans hu).ready hc hready
      rw [hpending] at hready''
      obtain ⟨inboxId', hslice, -⟩ := (hgood hready'').eq_of_mem (hrecorded hu)
      have hfirst : found = ((inboxStore.applyAll x.pending u.db).db.inbox.find?
          (InboxRow.receipt c.organizationId (strip c.consumerName) c.eventId)).map (·.payloadSha256) := by
        rw [← hlater.pending]
        cases hselect
        rfl
      have hhere : (inboxStore.applyAll x.pending u.db).restrict
          (.receipt c.organizationId (strip c.consumerName) c.eventId) = _ := hslice
      rw [find?_receipt, hhere] at hfirst
      rw [hfirst]
      refine Discipline.wp_lift _ fun t ht => ?_
      have hend := hu.trans (hz.trans ht)
      exact hquiet (hlater'.trans hend) (noted_replay _)
        (answers_replay (hrecorded hend) hoo (hlater'.trans hend).pending inboxId')

end

theorem inboxSystem_sound (sha256 : PyStr → Sha256Hex) (allowed : InboxCall → Prop) :
    Sound (inboxSystem sha256 allowed) (inboxDiscipline sha256 allowed)
      fun c base r y => InboxAnswers sha256 allowed base c.val r y where
  command c db ps hc hready := wp_recordOnce (x := ⟨db, ps, []⟩) c.property hready hc rfl
  recordLocks c r := by
    show inboxStore.lockedBy (c.val.noted r) = []
    rcases r with e | (_ | _) <;> rfl

/-! ### The answers -/

/-- The calls that returned `True` for an event. -/
def InboxWorld.recordings (w : InboxWorld) (c : InboxCall) : List InboxCall := (w.restrict c.key).2

/-- The calls whose payloads can be compared by their digests. -/
def ComparablePayload (texts : Set PyStr) (c : InboxCall) : Prop :=
  c.payload.Dict ∧ c.payload.Paired ∧ c.payload.dumps ∈ texts

/-- The consumers of a system, and what they are doing. -/
abbrev InboxState (allowed : InboxCall → Prop) :=
  State InboxStmt InboxStmt.Reply DbError Uuid OutboxError Bool InboxWrite InboxWorld { c : InboxCall // allowed c }

section

variable {sha256 : PyStr → Sha256Hex} {texts : Set PyStr} {allowed : InboxCall → Prop} {c : InboxCall}

theorem payloadSha256_eq_iff (hinj : Set.InjOn sha256 texts) {c c' : InboxCall} (hc : ComparablePayload texts c)
    (hc' : ComparablePayload texts c') :
    payloadSha256 sha256 c.payload = payloadSha256 sha256 c'.payload ↔ c.payload.Same c'.payload := by
  unfold payloadSha256
  rw [hinj.eq_iff hc.2.2 hc'.2.2]
  exact Json.dumps_eq_iff hc.1 hc'.1 hc.2.1 hc'.2.1

/-- What the open transaction of a consumer sees. -/
def inboxView (s : InboxState allowed) (i : ℕ) : InboxWorld :=
  inboxStore.applyAll (s.client i).pending s.committed

/-- What a call returned: the event is new and the call has stored its receipt, or it was recorded with the same
payload and nothing was written. -/
def ReceiptReturned (sha256 : PyStr → Sha256Hex) (s : InboxState allowed) (i : ℕ) (c : InboxCall) (b : Bool) : Prop :=
  (b = true ∧ (inboxView s i).recordings c = [] ∧
    ∃ inboxId, (s.client i).pending = (s.client i).mark ++ [.row (c.row sha256 inboxId)]) ∨
  (b = false ∧ (s.client i).pending = (s.client i).mark ∧
    ∃ original, (inboxView s i).recordings c = [original] ∧ original.payload.Same c.payload)

/-- What a call raised, with nothing written: a database error, a name that is refused, or a mismatch with the payload
that was recorded. -/
def ReceiptRaised (s : InboxState allowed) (i : ℕ) (c : InboxCall) (e : OutboxError) : Prop :=
  (s.client i).pending = (s.client i).mark ∧ ((∃ d, e = .db d) ∨
    ((isBlank c.consumerName = true ∨ 255 < c.consumerName.length) ∧
      e = .valueError (py "consumer_name must contain 1 to 255 non-blank characters.")) ∨
    (e = .payloadMismatch c.eventId c.consumerName ∧
      ∃ original, (inboxView s i).recordings c = [original] ∧ ¬original.payload.Same c.payload))

/-- The recorded call of a coherent view. -/
theorem recordings_of_hasRecorded {w : InboxWorld} {P : InboxCall → Prop}
    (hw : (inboxDiscipline sha256 allowed).Coherent w) (h : HasRecorded allowed P (w.restrict c.key)) :
    ∃ o, w.recordings c = [o] ∧ allowed o ∧ P o := by
  obtain ⟨o, ho, hok, hP⟩ := h
  have hgood : KeyReceipt sha256 allowed (.receipt c.organizationId (strip c.consumerName) c.eventId)
      (w.restrict c.key) := hw c.key
  obtain ⟨inboxId, hslice, -⟩ := hgood.eq_of_mem ho
  exact ⟨o, congrArg Prod.snd hslice, hok, hP⟩

/-- Before the call that records an event ends, none has recorded it. -/
theorem recordings_before {w : InboxWorld} {ws : List InboxWrite}
    (hw : (inboxDiscipline sha256 allowed).Coherent (inboxStore.applyAll (ws ++ [.note c]) w)) :
    (inboxStore.applyAll ws w).recordings c = [] := by
  have hgood : KeyReceipt sha256 allowed (.receipt c.organizationId (strip c.consumerName) c.eventId)
      ((inboxStore.applyAll (ws ++ [.note c]) w).restrict c.key) := hw c.key
  rw [Store.applyAll_append] at hgood
  have hsnoc : (inboxStore.applyAll [.note c] (inboxStore.applyAll ws w)).restrict c.key =
      (((inboxStore.applyAll ws w).restrict c.key).1, (inboxStore.applyAll ws w).recordings c ++ [c]) := by
    show ((InboxWrite.note c).apply (inboxStore.applyAll ws w)).restrict c.key = _
    rw [restrict_note, List.filter_singleton, decide_eq_true rfl]
    rfl
  rw [hsnoc] at hgood
  obtain ⟨inboxId, hone, -⟩ := hgood.eq_of_mem (o := c) (List.mem_append_right _ (List.mem_singleton_self c))
  have hcalls := congrArg Prod.snd hone
  exact List.append_left_eq_self.mp hcalls

/-- **One receipt for an event, and one call that stores it.** For each consumer and event no call whose transaction
committed has returned `True` and there is no receipt, or one has and the receipt is its own. A call that returns `True`
does so for an event not yet recorded; every other repeats the recorded payload and returns `False`, or raises, and
neither writes. Receipts stay as they are. -/
theorem reachable_receipts (hinj : Set.InjOn sha256 texts) {s : InboxState (ComparablePayload texts)}
    (hs : (inboxSystem sha256 (ComparablePayload texts)).Reachable {} s) :
    (∀ organizationId consumerName eventId, KeyReceipt sha256 (ComparablePayload texts)
      (.receipt organizationId consumerName eventId) (s.committed.restrict (.receipt organizationId consumerName eventId))) ∧
    (∀ i c,
      (∀ b, (s.client i).running = some (c, .ret b) → ReceiptReturned sha256 s i c.val b) ∧
      ∀ e, (s.client i).running = some (c, .raise e) → ReceiptRaised s i c.val e) ∧
    ∀ s', Relation.ReflTransGen (inboxSystem sha256 (ComparablePayload texts)).Step s s' →
      s.committed.db.inbox <+: s'.committed.db.inbox ∧ s.committed.recorded <+: s'.committed.recorded := by
  have hempty : (inboxDiscipline sha256 (ComparablePayload texts)).Coherent {} := by
    intro k
    cases k with
    | receipt => exact Or.inl rfl
    | id => trivial
  have hinv := (inboxSystem_sound sha256 _).reachable_inv hempty hs
  have hends : ∀ {i c r}, (s.client i).running = some (c, Prog.ended r) →
      (inboxDiscipline sha256 (ComparablePayload texts)).Ready s.committed ((s.client i).pending ++ c.val.noted r) ∧
        InboxAnswers sha256 (ComparablePayload texts) (s.client i).mark c.val r
          ⟨s.committed, (s.client i).pending, (s.client i).saves⟩ := by
    intro i c r hrun
    have hwp := (Sound.clientInv_running hrun).mp (hinv.client i)
    cases r with
    | ok b => exact (hwp s.committed (Discipline.Rely.refl _ _)).2
    | error e => exact (hwp s.committed (Discipline.Rely.refl _ _)).2
  -- what the call of a receipt says of this one
  have hrecorded : ∀ {i} {c : { c // ComparablePayload texts c }} {P : InboxCall → Prop},
      (s.client i).pending = (s.client i).mark →
      (inboxDiscipline sha256 (ComparablePayload texts)).Coherent (inboxView s i) →
      HasRecorded (ComparablePayload texts) P ((inboxStore.applyAll (s.client i).mark s.committed).restrict c.val.key) →
      ∃ original, (inboxView s i).recordings c.val = [original] ∧ ComparablePayload texts original ∧ P original := by
    intro i c P hpending hview hhas
    rw [← hpending] at hhas
    exact recordings_of_hasRecorded hview hhas
  refine ⟨fun organizationId consumerName eventId => hinv.coherent (.receipt organizationId consumerName eventId),
    fun i c => ⟨fun b hrun => ?_, fun e hrun => ?_⟩, fun s' hsteps => ?_⟩
  · obtain ⟨hready, hanswers⟩ := hends (r := .ok b) hrun
    cases b with
    | true => exact Or.inl ⟨rfl, recordings_before hready.coherent, hanswers⟩
    | false =>
      obtain ⟨hpending, hhas⟩ := hanswers
      have hnoted : c.val.noted (.ok false) = [] := rfl
      rw [hnoted, List.append_nil] at hready
      obtain ⟨original, hone, hcomparable, hsame⟩ := hrecorded hpending hready.coherent hhas
      exact Or.inr ⟨rfl, hpending, original, hone, (payloadSha256_eq_iff hinj hcomparable c.property).mp hsame⟩
  · obtain ⟨hready, hpending, hanswers⟩ := hends (r := .error e) hrun
    have hnoted : c.val.noted (.error e) = [] := rfl
    rw [hnoted, List.append_nil] at hready
    refine ⟨hpending, ?_⟩
    rcases hanswers with hdb | hname | ⟨rfl, hhas⟩
    · exact Or.inl hdb
    · exact Or.inr (Or.inl hname)
    · obtain ⟨original, hone, hcomparable, hdiffers⟩ := hrecorded hpending hready.coherent hhas
      exact Or.inr (Or.inr ⟨rfl, original, hone,
        fun hsame => hdiffers ((payloadSha256_eq_iff hinj hcomparable c.property).mpr hsame)⟩)
  · refine Sound.committed_steps (I := fun w => s.committed.db.inbox <+: w.db.inbox ∧
      s.committed.recorded <+: w.recorded) (fun w world h => ?_) hsteps ⟨List.prefix_rfl, List.prefix_rfl⟩
    cases w with
    | row r => exact ⟨h.1.trans (List.prefix_append _ _), h.2⟩
    | note c => exact ⟨h.1, h.2.trans (List.prefix_append _ _)⟩

end

/-! ### A collision, and a run -/

/-- Payloads with one text are replays of each other. -/
theorem recordOnce_replays {sha256 : PyStr → Sha256Hex} {organizationId eventId inboxId inboxId' : Uuid}
    {consumerName : PyStr} {payload payload' : Json} {processedAt processedAt' : Instant} {db db' : Db}
    (htexts : payload.dumps = payload'.dumps)
    (h : recordOnce sha256 organizationId consumerName eventId payload processedAt inboxId db = .ok (true, db')) :
    recordOnce sha256 organizationId consumerName eventId payload' processedAt' inboxId' db' = .ok (false, db') := by
  unfold recordOnce at h ⊢
  split_ifs at h ⊢ with hname hstorable
  dsimp only at h
  split at h
  next existing hfind => split_ifs at h; cases h
  next hnone =>
    split_ifs at h
    obtain ⟨-, rfl⟩ := Prod.mk.inj (Except.ok.inj h)
    have hfind : (db.inbox ++ [InboxRow.mk inboxId organizationId (strip consumerName) eventId
        (payloadSha256 sha256 payload) processedAt]).find? (InboxRow.receipt organizationId (strip consumerName) eventId) =
        some (InboxRow.mk inboxId organizationId (strip consumerName) eventId (payloadSha256 sha256 payload)
          processedAt) := by
      rw [List.find?_append, hnone, Option.none_or]
      exact List.find?_cons_of_pos (by simp [InboxRow.receipt])
    dsimp only
    rw [hfind]
    exact if_pos (congrArg sha256 htexts)

/-- A character above the basic plane, and its two surrogates, are different payloads with one digest: the second is
answered as a replay of the first. -/
theorem recordOnce_collision :
    ∃ db, recordOnce Hashlib.sha256 7 (py "sse-projector") 1 (.str [0x1F600]) 0 5 {} = .ok (true, db) ∧
      recordOnce Hashlib.sha256 7 (py "sse-projector") 1 (.str [0xD83D, 0xDE00]) 0 6 db = .ok (false, db) ∧
      ¬(Json.str [0x1F600]).Same (.str [0xD83D, 0xDE00]) := by
  have hdumps : (Json.str [0x1F600]).dumps = (Json.str [0xD83D, 0xDE00]).dumps := by decide
  have hfirst : recordOnce Hashlib.sha256 7 (py "sse-projector") 1 (.str [0x1F600]) 0 5 {} =
      .ok (true, { inbox := [⟨5, 7, strip (py "sse-projector"), 1, payloadSha256 Hashlib.sha256 (.str [0x1F600]), 0⟩] }) :=
    rfl
  refine ⟨_, hfirst, recordOnce_replays hdumps hfirst, fun hsame => ?_⟩
  have htexts : ([0x1F600] : PyStr) = [0xD83D, 0xDE00] := hsame
  exact absurd htexts (by decide)

/-- The payload of an event. -/
def sampleReceiptPayload (version : Int) : Json :=
  .obj [(py "case_id", .str (py "same-event")), (py "version", .int version)]

/-- The same payload with its members in another order. -/
def sampleReceiptReordered (version : Int) : Json :=
  .obj [(py "version", .int version), (py "case_id", .str (py "same-event"))]

def sampleReceiptTexts : Set PyStr := {(sampleReceiptPayload 1).dumps, (sampleReceiptPayload 2).dumps}

theorem sampleReceiptTexts_injOn : Set.InjOn Hashlib.sha256 sampleReceiptTexts := by
  have hne : Hashlib.sha256 (sampleReceiptPayload 1).dumps ≠ Hashlib.sha256 (sampleReceiptPayload 2).dumps := by
    decide +kernel
  rintro s (rfl | rfl) t (rfl | rfl) h
  · rfl
  · exact absurd h hne
  · exact absurd h.symm hne
  · rfl

theorem comparable_sampleReceipt (consumerName : PyStr) {version : Int}
    (htext : (sampleReceiptPayload version).dumps ∈ sampleReceiptTexts) :
    ComparablePayload sampleReceiptTexts ⟨7, consumerName, 1, sampleReceiptPayload version, 0⟩ := by
  have hkeys : [py "case_id", py "version"].Nodup := by decide
  have htexts : ∀ s ∈ [py "case_id", py "same-event", py "version"], WellPaired s := by decide
  exact ⟨⟨hkeys, trivial, trivial, trivial⟩, htexts, htext⟩

theorem comparable_sampleReordered (consumerName : PyStr) :
    ComparablePayload sampleReceiptTexts ⟨7, consumerName, 1, sampleReceiptReordered 1, 0⟩ := by
  have hkeys : [py "version", py "case_id"].Nodup := by decide
  have htexts : ∀ s ∈ [py "version", py "case_id", py "same-event"], WellPaired s := by decide
  have hdumps : (sampleReceiptReordered 1).dumps = (sampleReceiptPayload 1).dumps := by decide
  exact ⟨⟨hkeys, trivial, trivial, trivial⟩, htexts, Or.inl hdumps⟩

/-- A call, its replay with the members in another order, and one with another payload. -/
def sampleReceiptCalls : List ({ c : InboxCall // ComparablePayload sampleReceiptTexts c } × List Uuid) :=
  [(⟨⟨7, py "sse-projector", 1, sampleReceiptPayload 1, 0⟩, comparable_sampleReceipt _ (Or.inl rfl)⟩, [5]),
    (⟨⟨7, py " sse-projector", 1, sampleReceiptReordered 1, 0⟩, comparable_sampleReordered _⟩, [6]),
    (⟨⟨7, py "sse-projector", 1, sampleReceiptPayload 2, 0⟩, comparable_sampleReceipt _ (Or.inr rfl)⟩, [8])]

/-- Of a run in which the second call repeats the first payload and the third does not. -/
theorem reachable_receipts_sample : ∃ w : InboxWorld, w.db.inbox.map (·.id) = [5] ∧
    KeyReceipt Hashlib.sha256 (ComparablePayload sampleReceiptTexts) (.receipt 7 (py "sse-projector") 1)
      (w.restrict (.receipt 7 (py "sse-projector") 1)) := by
  have hrun : ((inboxSystem Hashlib.sha256 (ComparablePayload sampleReceiptTexts)).serial sampleReceiptCalls {}).map
      (fun w => w.db.inbox.map (·.id)) = some [5] := by
    decide +kernel
  obtain ⟨w, hw, hreceipts⟩ := Option.map_eq_some_iff.mp hrun
  exact ⟨w, hreceipts, (reachable_receipts sampleReceiptTexts_injOn (System.reachable_serial hw)).1 7
    (py "sse-projector") 1⟩

end NetopsCopilot
