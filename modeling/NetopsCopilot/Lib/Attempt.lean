import NetopsCopilot.Lib.ReadCommitted

/-!
# Attempts: the writes of a program inside a savepoint

Between a savepoint and its release or rollback a transaction holds the writes it began with (`base`)
and the writes of the attempt (`new`). `Attempt` says what stays true of such a state whatever the other
clients commit: the writes before the savepoint may still be committed on their own, every row changed
is locked, and the *facts* found out about the slices of locked keys remain facts. A statement of the
attempt adds writes and facts (`wp_execute_within`); `wp_atomic_within` discards both on the exception
path.
-/

namespace Txn

variable {S : Type} {R : S → Type} {D V E A B W K Db P : Type}

namespace Discipline

variable {σ : Store S R D W K Db} (δ : Discipline σ P)

/-- What is known about the slice of a key. -/
abbrev Fact (K P : Type) := K × (P → Prop)

/-- A fact holds after the writes `base`, and the writes `ws` lock its key. -/
def Holds (base ws : List W) (db : Db) (f : Fact K P) : Prop :=
  f.1 ∈ σ.lockedBy ws ∧ f.2 (δ.restrict f.1 (σ.applyAll base db))

/-- An open savepoint: `base` were the writes when it was opened, `new` are those since. -/
structure Attempt (base new : List W) (rest : List (List W)) (facts : List (Fact K P))
    (x : Local W Db) : Prop where
  pending : x.pending = base ++ new
  saves : x.saves = base :: rest
  coherent : δ.Coherent x.db
  ready : δ.Ready x.db base
  owned : σ.Owned (base ++ new)
  facts : ∀ f ∈ facts, δ.Holds base new x.db f

variable {δ}

theorem Rely.coherent {ps : List W} {db db' : Db} (h : δ.Rely ps db db') (hc : δ.Coherent db) :
    δ.Coherent db' := by
  obtain ⟨_, _, _, _, hcoh⟩ := h
  exact hcoh hc

theorem Holds.mono {base ws ws' : List W} {db : Db} {f : Fact K P} (h : δ.Holds base ws db f) :
    δ.Holds base (ws ++ ws') db f := ⟨by simp [h.1], h.2⟩

theorem Holds.rely {base new : List W} {db db' : Db} {f : Fact K P} (h : δ.Holds base new db f)
    (hr : δ.Rely (base ++ new) db db') : δ.Holds base new db' f := by
  refine ⟨h.1, ?_⟩
  rw [hr.slice (by simp [h.1]) base]
  exact h.2

/-- A property of slices that every write keeps is kept by the others' commits. -/
theorem Rely.slice_induct {I : P → Prop} {k : K} {base : List W} {db db' : Db}
    (hstep : ∀ w db, I (δ.restrict k db) → I (δ.restrict k (σ.apply w db))) (ho : σ.Owned base)
    (hr : δ.Rely base db db') (h : I (δ.restrict k (σ.applyAll base db))) :
    I (δ.restrict k (σ.applyAll base db')) := by
  by_cases hk : k ∈ σ.touchedBy base
  · rw [hr.slice (ho k hk) base]
    exact h
  · rw [δ.untouched_all hk] at h ⊢
    exact hr.induct (I := fun db => I (δ.restrict k db)) hstep h

namespace Attempt

variable {base new : List W} {rest : List (List W)} {fs : List (Fact K P)} {x : Local W Db}

theorem begin {x : Local W Db} (hc : δ.Coherent x.db) (hr : δ.Ready x.db x.pending) :
    δ.Attempt x.pending [] x.saves [] { x with saves := x.pending :: x.saves } where
  pending := by simp
  saves := rfl
  coherent := hc
  ready := hr
  owned := by simpa using hr.owned
  facts := by simp

theorem rely (h : δ.Attempt base new rest fs x) {db : Db} (hr : δ.Rely x.pending x.db db) :
    δ.Attempt base new rest fs { x with db := db } := by
  rw [h.pending] at hr
  exact ⟨h.pending, h.saves, hr.coherent h.coherent, hr.ready h.coherent h.ready, h.owned,
    fun f hf => (h.facts f hf).rely hr⟩

/-- One more statement's writes. -/
theorem extend (h : δ.Attempt base new rest fs x) {ws : List W} {fs' : List (Fact K P)}
    (how : ∀ k ∈ σ.touchedBy ws, k ∈ σ.lockedBy (base ++ new) ∨ k ∈ σ.lockedBy ws)
    (hfs : ∀ f ∈ fs', δ.Holds base ws x.db f) :
    δ.Attempt base (new ++ ws) rest (fs ++ fs') { x with pending := x.pending ++ ws } where
  pending := by simp [h.pending]
  saves := h.saves
  coherent := h.coherent
  ready := h.ready
  owned := by
    rw [← List.append_assoc]
    exact h.owned.append how
  facts := by
    intro f hf
    rcases List.mem_append.mp hf with hf | hf
    · exact (h.facts f hf).mono
    · exact ⟨by simp [(hfs f hf).1], (hfs f hf).2⟩

/-- The slice of a key the attempt has not touched is good. -/
theorem good (h : δ.Attempt base new rest fs x) {k : K} (hk : k ∉ σ.touchedBy new) :
    δ.good k (δ.restrict k (σ.applyAll (base ++ new) x.db)) := by
  rw [σ.applyAll_append, δ.untouched_all hk]
  exact h.ready.coherent k

end Attempt

variable (δ)

/-- The end of a part of an attempt: `Q` on a result; an exception leaves an attempt to discard and a
reason `X` that stays true. -/
def Within (base : List W) (rest : List (List W)) (X : E → Db → Prop) (Q : A → Local W Db → Prop) :
    Except E A → Local W Db → Prop
  | .ok a, y => Q a y
  | .error e, y => (∀ db, δ.Rely base y.db db → X e db) ∧ ∃ new fs, δ.Attempt base new rest fs y

variable {base new : List W} {rest : List (List W)} {fs : List (Fact K P)} {x : Local W Db}
  {X : E → Db → Prop}

theorem wp_raise_within {e : E} {Q : A → Local W Db → Prop} (h : δ.Attempt base new rest fs x)
    (hX : ∀ db, δ.Rely base x.db db → X e db) :
    δ.wp (V := V) (R := R) (.raise e) (δ.Within base rest X Q) x := by
  intro db hr
  refine ⟨fun db' hr' => hX db' (Rely.trans ?_ hr'), new, fs, h.rely hr⟩
  rw [h.pending] at hr
  exact hr.mono

theorem wp_ret_within {a : A} {Q : A → Local W Db → Prop} (h : δ.Attempt base new rest fs x)
    (hQ : ∀ y, δ.Attempt base new rest fs y → Q a y) :
    δ.wp (V := V) (R := R) (.ret a) (δ.Within base rest X Q) x :=
  fun _ hr => hQ _ (h.rely hr)

/-- Sequencing inside an attempt. -/
theorem wp_bind_within {p : Prog S R D V E A} {f : A → Prog S R D V E B}
    {Q : A → Local W Db → Prop} {Q' : B → Local W Db → Prop}
    (hp : δ.wp p (δ.Within base rest X Q) x)
    (hf : ∀ a y, Q a y → δ.wp (f a) (δ.Within base rest X Q') y) :
    δ.wp (p.elim f .raise) (δ.Within base rest X Q') x := by
  refine δ.wp_elim (δ.wp_mono hp ?_)
  intro r y hy
  cases r with
  | ok a => exact hf a y hy
  | error e =>
    obtain ⟨hX, new, fs, hatt⟩ := hy
    exact δ.wp_raise_within hatt hX

/-- A statement of an attempt: it runs in a state `y` the others have moved to, and adds to the writes
and to the facts. -/
theorem wp_execute_within {dbError : D → E} {s : S} {Q : R s → Local W Db → Prop}
    (hX : ∀ d db, X (dbError d) db) (h : δ.Attempt base new rest fs x)
    (hok : ∀ y r ws, δ.Attempt base new rest fs y → δ.Rely (base ++ new) x.db y.db →
      σ.exec s (σ.applyAll (base ++ new) y.db) = .ok (r, ws) →
      ∃ fs', (∀ k ∈ σ.touchedBy ws, k ∈ σ.lockedBy (base ++ new) ∨ k ∈ σ.lockedBy ws) ∧
        (∀ f ∈ fs', δ.Holds base ws y.db f) ∧
        ∀ z, δ.Attempt base (new ++ ws) rest (fs ++ fs') z →
          δ.Rely (base ++ new ++ ws) y.db z.db → Q r z) :
    δ.wp (Prog.execute (V := V) dbError s) (δ.Within base rest X Q) x := by
  refine δ.wp_execute (fun y => δ.Attempt base new rest fs y ∧ δ.Rely (base ++ new) x.db y.db)
    (fun db hr => ⟨h.rely hr, h.pending ▸ hr⟩) ?_ ?_
  · exact fun d y hy => ⟨fun _ _ => hX d _, new, fs, hy.1⟩
  · rintro y r ws ⟨hy, hxy⟩ hexec db hr
    rw [hy.pending] at hexec
    obtain ⟨fs', how, hfs, hQ⟩ := hok y r ws hy hxy hexec
    exact hQ _ ((hy.extend how hfs).rely hr) (hy.pending ▸ hr)

/-- A statement that only reads. -/
theorem wp_read_within {dbError : D → E} {s : S} {Q : R s → Local W Db → Prop}
    (hX : ∀ d db, X (dbError d) db) (h : δ.Attempt base new rest fs x)
    (hread : ∀ db r ws, σ.exec s db = .ok (r, ws) → ws = [])
    (hok : ∀ y r z, δ.Rely (base ++ new) x.db y.db → δ.Attempt base new rest fs y →
      σ.exec s (σ.applyAll (base ++ new) y.db) = .ok (r, []) →
      δ.Rely (base ++ new) y.db z.db → δ.Attempt base new rest fs z → Q r z) :
    δ.wp (Prog.execute (V := V) dbError s) (δ.Within base rest X Q) x := by
  refine δ.wp_execute_within hX h fun y r ws hy hxy hexec => ?_
  have hws := hread _ r ws hexec
  subst hws
  exact ⟨[], by simp, by simp,
    fun z hz hyz => hok y r z hxy hy hexec (by simpa using hyz) (by simpa using hz)⟩

/-- A program in a savepoint. -/
theorem wp_atomic_within {p : Prog S R D V E A} {Q : Except E A → Local W Db → Prop}
    (hraise : ∀ e y, y.pending = x.pending → y.saves = x.saves → δ.Coherent y.db →
      δ.Ready y.db x.pending → X e y.db → Q (.error e) y)
    (hp : δ.wp p (δ.Within x.pending x.saves X fun a y => ∃ new fs,
        δ.Attempt x.pending new x.saves fs y ∧
          ∀ z, δ.Attempt x.pending new x.saves fs z → δ.Rely (x.pending ++ new) y.db z.db →
            Q (.ok a) { z with saves := x.saves })
      { x with saves := x.pending :: x.saves }) : δ.wp p.atomic Q x := by
  refine δ.wp_atomic (δ.wp_mono hp ?_)
  intro r y hy
  cases r with
  | ok a =>
    obtain ⟨new, fs, hatt, hQ⟩ := hy
    intro db hr
    have hz := hQ _ (hatt.rely hr) (hatt.pending ▸ hr)
    simpa [hatt.saves] using hz
  | error e =>
    obtain ⟨hX, new, fs, hatt⟩ := hy
    intro db hr db' hr'
    have hy' := hatt.rely hr
    simp only [hatt.saves, List.headD_cons, List.tail_cons] at hr' ⊢
    rw [hatt.pending] at hr
    refine hraise e _ rfl rfl (hr'.coherent hy'.coherent) ?_ (hX db' (hr.mono.trans hr'))
    exact hr'.ready_self hy'.coherent hy'.ready

end Discipline

end Txn
