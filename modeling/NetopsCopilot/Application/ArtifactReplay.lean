import NetopsCopilot.Application.ArtifactEvidenceRuns

/-!
# Completing a completed upload

A completed intent stays in the table as it is, whatever anybody writes. So a call of `complete` on it that
starts at any later time finds it and returns its artifact and its time of completion, unless the database
rejects one of the two statements that read it. With the slices of the runs this gives what an artifact
rests on, in every reachable state (`reachable_evidence`).
-/

namespace NetopsCopilot

open Txn

section

variable {binds : PyStr → List PyStr} {row : IntentRow} {x y : Local EvidenceWrite EvidenceDb}

/-! ### The intent stays -/

theorem apply_completed (hcompleted : row.status = .completed) (w : EvidenceWrite) (e : EvidenceDb)
    (h : row ∈ e.db.intents) : row ∈ (w.apply e).db.intents := by
  cases w with
  | row w =>
    cases w with
    | insertIntent r => exact List.mem_append_left _ h
    | completeIntent old completedAt =>
      refine List.mem_map.mpr ⟨row, h, ?_⟩
      simp [hcompleted]
    | spine w =>
      show row ∈ (w.apply e.db).intents
      rwa [(spine_apply w e.db).1]
    | lockIntent r | insertArtifact r | insertProcessing r => exact h
  | completionEvent event | upload note | completion note => exact h

/-! ### Reading it again -/

/-- A statement of a replay was rejected: by the database, or for a name that it has no parameter for. -/
def Rejected (binds : PyStr → List PyStr) : IntentError → Prop
  | .db _ => True
  | .unbound name =>
    (name ∈ binds selectIntentForCompletionText ∧
      name ∉ [py "organization_id", py "case_id", py "intent_id"]) ∨
    name ∈ binds selectIntentCompletedAtText ∧ name ∉ [py "intent_id"]
  | _ => False

/-- Both statements have all their parameters. -/
theorem rejected_bindNames {e : IntentError} (h : Rejected bindNames e) : ∃ d, e = .db d := by
  have hselect : bindNames selectIntentForCompletionText =
      [py "organization_id", py "case_id", py "intent_id"] := by decide +kernel
  have hcompletedAt : bindNames selectIntentCompletedAtText = [py "intent_id"] := by decide +kernel
  cases e with
  | db d => exact ⟨d, rfl⟩
  | unbound name =>
    rcases h with ⟨hmem, hnot⟩ | ⟨hmem, hnot⟩
    · exact absurd (hselect ▸ hmem) hnot
    · exact absurd (hcompletedAt ▸ hmem) hnot
  | _ => exact False.elim h

/-- A transaction that sees `row` and has only locked rows since `x`. -/
structure Keeps (row : IntentRow) (x y : Local EvidenceWrite EvidenceDb) : Prop where
  present : row ∈ y.db.db.intents
  ready : evidenceDiscipline.Ready y.db x.pending
  coherent : evidenceDiscipline.Coherent y.db
  view : ∀ e, evidenceStore.applyAll y.pending e = evidenceStore.applyAll x.pending e
  grown : x.pending <+: y.pending

theorem Keeps.rely (h : Keeps row x y) (hcompleted : row.status = .completed) {e : EvidenceDb}
    (hr : evidenceDiscipline.Rely y.pending y.db e) : Keeps row x { y with db := e } := by
  obtain ⟨ws, hws⟩ := h.grown
  have hrely : evidenceDiscipline.Rely x.pending y.db e := by
    rw [← hws] at hr
    exact hr.mono
  obtain ⟨_, _, _, _, hcoherent⟩ := id hr
  exact ⟨hr.induct (I := fun e : EvidenceDb => row ∈ e.db.intents) (apply_completed hcompleted) h.present,
    hrely.ready_self h.coherent h.ready, hcoherent h.coherent, h.view, h.grown⟩

theorem Keeps.sees (h : Keeps row x y) (hcompleted : row.status = .completed) :
    Sees x.pending row y.db :=
  Store.applyAll_induct (I := fun e : EvidenceDb => row ∈ e.db.intents) (apply_completed hcompleted) x.pending h.present

/-- A statement that reads, or locks what it reads. -/
theorem wp_executeText_keeps {sql : PyStr} {parameters : List PyStr} {s : IntentStmt}
    {Q : s.Reply → Prop} (hcompleted : row.status = .completed) (h : Keeps row x y)
    (hexec : ∀ e r ws, Keeps row x { y with db := e } →
      evidenceExec s (evidenceStore.applyAll x.pending e) = .ok (r, ws) →
      Q r ∧ ∀ e', evidenceStore.applyAll ws e' = e') :
    evidenceDiscipline.wp (executeText binds sql parameters s) (fun r z => match r with
      | .ok reply => Q reply ∧ Keeps row x z
      | .error e => (∃ d, e = .db d) ∨ ∃ name, e = .unbound name ∧ name ∈ binds sql ∧ name ∉ parameters)
      y := by
  unfold executeText
  split
  next name hname =>
    refine fun e hr => Or.inr ⟨name, rfl, List.mem_of_find?_eq_some hname, ?_⟩
    simpa using List.find?_some hname
  next =>
    intro e hr
    have he := h.rely hcompleted hr
    refine ⟨fun d e' hr' => Or.inl ⟨d, rfl⟩, fun r ws hrun e' hr' => ?_⟩
    rw [h.view] at hrun
    obtain ⟨hQ, hlocks⟩ := hexec e r ws he hrun
    have hgrown : Keeps row x { y with db := e, pending := y.pending ++ ws } := by
      refine ⟨he.present, he.ready, he.coherent, fun e'' => ?_, h.grown.trans (List.prefix_append _ _)⟩
      show evidenceStore.applyAll (y.pending ++ ws) e'' = _
      rw [Store.applyAll_append, hlocks, h.view]
    exact ⟨hQ, hgrown.rely hcompleted hr'⟩

theorem applyAll_locks (rows : List IntentRow) (e : EvidenceDb) :
    evidenceStore.applyAll (rows.map fun r => .row (.lockIntent r)) e = e := by
  induction rows with
  | nil => rfl
  | cons r rows ih => exact ih

/-- The result of a replay. -/
def ReplayResult (binds : PyStr → List PyStr) (row : IntentRow) (completedAt : Instant) :
    Except IntentError CompletedArtifactUpload → Prop
  | .ok result => result = ⟨row.artifactId, completedAt, true⟩
  | .error e => Rejected binds e

theorem wp_replay {call : CompletionCall} {completedAt : Instant} (hcompleted : row.status = .completed)
    (hcompletedAt : row.completedAt = some completedAt)
    (horganization : call.organizationId = row.organizationId) (hcase : call.caseId = row.caseId)
    (hid : call.intentId = row.id) (h : Keeps row x x) :
    evidenceDiscipline.wp (completeUpload binds call) (fun r _ => ReplayResult binds row completedAt r) x := by
  have hunique : ∀ {e : EvidenceDb} {z : Local EvidenceWrite EvidenceDb}, Keeps row x { z with db := e } →
      (evidenceStore.applyAll x.pending e).db.intents.filter (fun i => i.id == row.id) = [row] := fun he =>
    ((he.sees hcompleted).unique he.ready).1
  refine Discipline.wp_atomic_result _ (Discipline.wp_elim _ (Discipline.wp_mono _
    (Q := fun r z => match r with
      | .ok found => found = row ∧ Keeps row x z
      | .error e => Rejected binds e) ?_ ?_))
  · refine Discipline.wp_elim _ (Discipline.wp_mono _ (wp_executeText_keeps (Q := fun rows => rows = [row])
      hcompleted (y := { x with saves := x.pending :: x.saves })
      ⟨h.present, h.ready, h.coherent, h.view, h.grown⟩ fun e r ws he hrun => ?_) ?_)
    · cases hrun
      rw [List.map_map]
      refine ⟨?_, applyAll_locks _⟩
      have hfilter := congrArg (List.filter fun i =>
        i.organizationId == call.organizationId && i.caseId == call.caseId) (hunique he)
      rw [List.filter_filter] at hfilter
      simpa [horganization, hcase, hid] using hfilter
    · rintro (e | rows) z hz
      · refine Discipline.wp_raise _ fun u hu => ?_
        rcases hz with ⟨d, rfl⟩ | ⟨name, rfl, hname⟩
        · trivial
        · exact Or.inl hname
      · obtain ⟨rfl, hz⟩ := hz
        exact fun e hr => ⟨rfl, hz.rely hcompleted hr⟩
  · rintro (e | found) z hz
    · exact fun _ _ => hz
    · obtain ⟨rfl, hz⟩ := hz
      simp only [completeLoaded, hcompleted, if_true]
      refine Discipline.wp_elim _ (Discipline.wp_elim _ (Discipline.wp_mono _ (wp_executeText_keeps
        (Q := fun rows => rows = [some completedAt]) hcompleted hz fun e r ws he hrun => ?_) ?_))
      · cases hrun
        refine ⟨?_, fun _ => rfl⟩
        have hmap := congrArg (List.map (·.completedAt)) (hunique he)
        rwa [List.map_cons, hcompletedAt] at hmap
      · rintro (e | rows) u hu
        · refine Discipline.wp_raise _ fun v hv => Discipline.wp_raise _ fun w hw => ?_
          rcases hu with ⟨d, rfl⟩ | ⟨name, rfl, hname⟩
          · trivial
          · exact Or.inr hname
        · obtain ⟨rfl, hu⟩ := hu
          exact fun _ _ _ _ => rfl

/-- What a command that starts once `row` is completed ends in. -/
def ReplaysIf (binds : PyStr → List PyStr) (row : IntentRow) (completedAt : Instant) :
    EvidenceCommand → List EvidenceWrite → Except IntentError EvidenceReply →
      Local EvidenceWrite EvidenceDb → Prop
  | .complete call, _, r, _ =>
    call.organizationId = row.organizationId → call.caseId = row.caseId → call.intentId = row.id →
      match r with
      | .ok reply => reply = .completed ⟨row.artifactId, completedAt, true⟩
      | .error e => Rejected binds e
  | _, _, _, _ => True

theorem starts_replay {completedAt : Instant} (hcompleted : row.status = .completed)
    (hcompletedAt : row.completedAt = some completedAt) (e : EvidenceDb)
    (hcoherent : evidenceDiscipline.Coherent e) (hrow : row ∈ e.db.intents) :
    Sound.Starts (evidenceSystem binds) evidenceDiscipline (ReplaysIf binds row completedAt) e := by
  intro c ps hready
  have hsound := (evidenceSystem_sound binds).command c e ps hcoherent hready
  have hreplay : evidenceDiscipline.wp ((evidenceSystem binds).program c)
      (fun r y => ReplaysIf binds row completedAt c ps r y) ⟨e, ps, []⟩ := by
    cases c with
    | create call | others cs => exact Discipline.wp_mono _ hsound fun _ _ _ => trivial
    | complete call =>
      by_cases hcall : call.organizationId = row.organizationId ∧ call.caseId = row.caseId ∧
          call.intentId = row.id
      · obtain ⟨horganization, hcase, hid⟩ := hcall
        refine Discipline.wp_map _ (Discipline.wp_mono _ (wp_replay hcompleted hcompletedAt
          horganization hcase hid ⟨hrow, hready, hcoherent, fun _ => rfl, List.prefix_rfl⟩) ?_)
        rintro (err | result) y hy _ _ _
        · exact hy
        · exact congrArg EvidenceReply.completed hy
      · refine Discipline.wp_mono _ hsound fun r y _ h h' h'' => ?_
        exact absurd ⟨h, h', h''⟩ hcall
  exact Discipline.wp_mono _ (Discipline.wp_and _ hsound hreplay) fun r y hy =>
    ⟨hy.1.1, hy.1.2.1, hy.2⟩

/-! ### Main result -/

/-- What an artifact of the table rests on: it is the only one of its intent, which is completed and the only
one with its id; the upload was presigned for its object, and the object's metadata was read in time. -/
def RestsOn (e : EvidenceDb) (a : ArtifactRow) : Prop :=
  ∃ i, (e.db.intents.filter fun j => j.artifactId == a.id) = [i] ∧ i.status = .completed ∧
    (e.db.artifacts.filter fun b => b.id == i.artifactId) = [a] ∧ Carries i a ∧
    (∃ n ∈ e.uploads, Declared n i) ∧ ∃ n ∈ e.completions, Attested n i a

/-- A database without intents and artifacts. -/
theorem coherent_start {db : Db} (hintents : db.intents = []) (hartifacts : db.artifacts = []) :
    evidenceDiscipline.Coherent ⟨db, [], [], []⟩ := by
  intro k
  show EvidenceSlice.Good k (EvidenceDb.restrict k _)
  cases k with
  | intent id => simp [EvidenceSlice.Good, EvidenceDb.restrict, hintents]
  | artifact artifactId =>
    exact Or.inl (by simp [EvidenceDb.restrict, hintents, hartifacts])

theorem evidence_of_artifact {e : EvidenceDb} (h : evidenceDiscipline.Coherent e) {a : ArtifactRow}
    (ha : a ∈ e.db.artifacts) : RestsOn e a := by
  have hgood : EvidenceSlice.Good (.artifact a.id) (e.restrict (.artifact a.id)) := h (.artifact a.id)
  have hmem : a ∈ (e.restrict (.artifact a.id)).artifacts :=
    List.mem_filter.mpr ⟨ha, by simp [EvidenceKey.names]⟩
  have huploads : (e.restrict (.artifact a.id)).uploads ⊆ e.uploads := List.filter_subset_self _
  have hcompletions : (e.restrict (.artifact a.id)).completions ⊆ e.completions :=
    List.filter_subset_self _
  rcases hgood with ⟨-, hnil⟩ | ⟨i, hi, ⟨n, hn, hdeclared⟩, ⟨-, hnil⟩ | ⟨hcompleted, b, hb, hcarries, m, hm, hattested⟩⟩
  · rw [hnil] at hmem
    cases hmem
  · rw [hnil] at hmem
    cases hmem
  · rw [hb] at hmem
    obtain rfl := List.mem_singleton.mp hmem
    refine ⟨i, hi, hcompleted, ?_, hcarries, ⟨n, huploads hn, hdeclared⟩, m, hcompletions hm, hattested⟩
    rw [← hcarries.id]
    exact hb

theorem completedAt_of_completed {e : EvidenceDb} (h : evidenceDiscipline.Coherent e) {i : IntentRow}
    (hi : i ∈ e.db.intents) (hcompleted : i.status = .completed) :
    ∃ completedAt, i.completedAt = some completedAt := by
  have hgood : EvidenceSlice.Good (.artifact i.artifactId) (e.restrict (.artifact i.artifactId)) :=
    h (.artifact i.artifactId)
  have hmem : i ∈ (e.restrict (.artifact i.artifactId)).intents :=
    List.mem_filter.mpr ⟨hi, by simp [EvidenceKey.holds]⟩
  rcases hgood with ⟨hnil, -⟩ | ⟨j, hj, -, ⟨hpending, -⟩ | ⟨-, a, -, -, n, -, hattested⟩⟩
  · rw [hnil] at hmem
    cases hmem
  all_goals
    rw [hj] at hmem
    obtain rfl := List.mem_singleton.mp hmem
  · rw [hcompleted] at hpending
    cases hpending
  · exact ⟨_, hattested.completedAt⟩

end

/-- **Every artifact rests on one completed intent and on the object presigned for it.** In every run of
calls that declare and complete uploads, each artifact of the table does so (`RestsOn`), no intent has two
artifacts, a call of `complete` that raises has written nothing, and a call that starts after an intent was
completed returns the intent's artifact and time of completion. -/
theorem reachable_evidence {binds : PyStr → List PyStr} {db₀ : Db} (hintents : db₀.intents = [])
    (hartifacts : db₀.artifacts = [])
    {s : State IntentStmt IntentStmt.Reply DbError Uuid IntentError EvidenceReply EvidenceWrite EvidenceDb
      EvidenceCommand} (hs : (evidenceSystem binds).Reachable ⟨db₀, [], [], []⟩ s) :
    (∀ a ∈ s.committed.db.artifacts, RestsOn s.committed a) ∧
    (∀ i ∈ s.committed.db.intents,
      (s.committed.db.artifacts.filter fun a => a.id == i.artifactId).length ≤ 1) ∧
    (∀ j call e, (s.client j).running = some (.complete call, .raise e) →
      (s.client j).pending = (s.client j).mark) ∧
    ∀ i ∈ s.committed.db.intents, i.status = .completed →
      ∃ completedAt, i.completedAt = some completedAt ∧
        ∀ s', Relation.ReflTransGen (evidenceSystem binds).Step s s' → i ∈ s'.committed.db.intents ∧
          ∀ j call, (s.client j).running = none → call.organizationId = i.organizationId →
            call.caseId = i.caseId → call.intentId = i.id →
            (∀ reply, (s'.client j).running = some (.complete call, .ret reply) →
              reply = .completed ⟨i.artifactId, completedAt, true⟩) ∧
            ∀ e, (s'.client j).running = some (.complete call, .raise e) → Rejected binds e := by
  have hinv := (evidenceSystem_sound binds).reachable_inv (coherent_start hintents hartifacts) hs
  have hcoherent : evidenceDiscipline.Coherent s.committed := hinv.coherent
  refine ⟨fun a ha => evidence_of_artifact hcoherent ha, fun i _ => ?_, fun j call e hrun => ?_,
    fun i hi hcompleted => ?_⟩
  · cases hfilter : s.committed.db.artifacts.filter fun a => a.id == i.artifactId with
    | nil => exact Nat.zero_le 1
    | cons a rest =>
      have ha : a ∈ s.committed.db.artifacts.filter fun a => a.id == i.artifactId := by
        rw [hfilter]
        exact List.mem_cons_self
      obtain ⟨ha, hid⟩ := List.mem_filter.mp ha
      obtain ⟨k, -, -, hone, hcarries, -⟩ := evidence_of_artifact hcoherent ha
      have hkey : k.artifactId = i.artifactId := hcarries.id.symm.trans (beq_iff_eq.mp hid)
      rw [hkey, hfilter] at hone
      rw [hone]
      exact Nat.le_refl 1
  · have hwp := (Sound.clientInv_running hrun).mp (hinv.client j)
    exact (hwp s.committed (Discipline.Rely.refl _ _)).2.2
  · obtain ⟨completedAt, hcompletedAt⟩ := completedAt_of_completed hcoherent hi hcompleted
    refine ⟨completedAt, hcompletedAt, fun s' hsteps => ?_⟩
    have hstays : ∀ (w : EvidenceWrite) (e : EvidenceDb), i ∈ e.db.intents → i ∈ (w.apply e).db.intents :=
      fun w e he => apply_completed hcompleted w e he
    have hsince : ∀ j, (s.client j).running = none → Sound.ClientInv (evidenceSystem binds)
        evidenceDiscipline (ReplaysIf binds i completedAt) s'.committed (s'.client j) := fun j hidle =>
      (evidenceSystem_sound binds).since hstays
        (fun e he hmem => starts_replay hcompleted hcompletedAt e he hmem) hinv hi hidle hsteps
    refine ⟨Sound.committed_steps (I := fun e : EvidenceDb => i ∈ e.db.intents) hstays hsteps hi,
      fun j call hidle horganization hcase hid => ⟨fun reply hrun => ?_, fun e hrun => ?_⟩⟩
    · have hwp := (Sound.clientInv_running hrun).mp (hsince j hidle)
      exact (hwp s'.committed (Discipline.Rely.refl _ _)).2.2 horganization hcase hid
    · have hwp := (Sound.clientInv_running hrun).mp (hsince j hidle)
      exact (hwp s'.committed (Discipline.Rely.refl _ _)).2.2 horganization hcase hid

/-! ### An upload -/

/-- The upload of the sample case, through the route. -/
def sampleUploadCall : UploadCall where
  organizationId := 7
  caseId := 10
  body := ⟨.networkConfiguration, py "text/plain", 64, sampleUpload.sha256Hex, none⟩
  actorId := 1
  correlationId := 42
  settings := ⟨true, py "artifacts", 900⟩
  sign put := .ok (py "https://store/" ++ put.key)
  now := 200

/-- Its completion, with an object as declared. -/
def sampleCompletionCall : CompletionCall where
  organizationId := 7
  caseId := 10
  intentId := 40
  settings := ⟨true, py "artifacts", 900⟩
  headObject _ := .ok [(py "ContentType", .str (py "text/plain")), (py "ContentLength", .int 64),
    (py "Metadata", .obj [(py "sha256", .str sampleUpload.sha256Hex.text)]),
    (py "ServerSideEncryption", .str (py "AES256"))]
  now := 300

/-- The database after both calls. -/
def sampleEvidence : Option EvidenceDb := (evidenceSystem fun _ => []).serial
  [(.create sampleUploadCall, [41, 40, 50]), (.complete sampleCompletionCall, [51, 52, 53, 54])] ⟨sampleDb, [], [], []⟩

/-- On it: the artifact is there, and rests on the intent. -/
theorem reachable_evidence_sample : ∃ e, sampleEvidence = some e ∧ ∃ a, e.db.artifacts = [a] ∧ RestsOn e a := by
  have hids : sampleEvidence.map (fun e => e.db.artifacts.map (·.id)) = some [41] := by decide +kernel
  obtain ⟨e, he, hartifacts⟩ := Option.map_eq_some_iff.mp hids
  obtain ⟨a, ha, -⟩ := List.map_eq_singleton_iff.mp hartifacts
  have hmem : a ∈ e.db.artifacts := ha ▸ List.mem_singleton_self a
  exact ⟨e, he, a, ha, (reachable_evidence rfl rfl (System.reachable_serial he)).1 a hmem⟩

end NetopsCopilot
