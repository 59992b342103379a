import NetopsCopilot.Lib.ReadCommitted

/-!
# What holds if a program returns

`OnOk Q` is a postcondition that says nothing about exceptions: with it, `wp` is partial correctness, and
the error path of a statement needs no argument; `wp_raises` is what holds if it raises. `Flat` programs
open no savepoint, so a flat program leaves the open ones alone, and `Prog.atomic` of it gives back the
writes it found when it raises (`wp_atomic_flat`).
-/

namespace Txn

variable {S : Type} {R : S → Type} {D V E A B W K Db P : Type}

namespace Prog

/-- The program opens and closes no savepoint. -/
def Flat : Prog S R D V E A → Prop
  | .ret _ | .raise _ => True
  | .exec _ k => ∀ r, (k r).Flat
  | .fresh k => ∀ v, (k v).Flat
  | .savepoint _ | .release _ | .rollback _ => False

theorem Flat.handle {p : Prog S R D V E A} {f : A → Prog S R D V E B} {h : E → Prog S R D V E B}
    (hp : p.Flat) (hf : ∀ a, (f a).Flat) (hh : ∀ e, (h e).Flat) : (p.elim f h).Flat := by
  induction p with
  | ret a => exact hf a
  | raise e => exact hh e
  | exec s k ih => exact fun r => ih r (hp r)
  | fresh k ih => exact fun v => ih v (hp v)
  | savepoint k ih => exact False.elim hp
  | release k ih => exact False.elim hp
  | rollback k ih => exact False.elim hp

theorem Flat.bind {p : Prog S R D V E A} {f : A → Prog S R D V E B} (hp : p.Flat)
    (hf : ∀ a, (f a).Flat) : (p.elim f .raise).Flat := hp.handle hf fun _ => trivial

theorem flat_execute (dbError : D → E) (s : S) :
    (execute dbError s : Prog S R D V E (R s)).Flat := by
  rintro (d | r) <;> trivial

theorem flat_lift (r : Except E A) : (lift r : Prog S R D V E A).Flat := by
  cases r <;> trivial

theorem flat_draw : (draw : Prog S R D V E V).Flat := fun _ => trivial

end Prog

namespace Discipline

variable {σ : Store S R D W K Db} (δ : Discipline σ P)

/-- `Q` on a result. -/
def OnOk (Q : A → Local W Db → Prop) : Except E A → Local W Db → Prop
  | .ok a, y => Q a y
  | .error _, _ => True

section

variable {x : Local W Db} {Q : A → Local W Db → Prop}

theorem onOk_raise {e : E} : δ.wp (V := V) (R := R) (.raise e) (OnOk Q) x := fun _ _ => trivial

theorem onOk_ret {a : A} (h : ∀ db, Q a { x with db := db }) :
    δ.wp (V := V) (R := R) (E := E) (.ret a) (OnOk Q) x := fun db _ => h db

theorem onOk_lift {r : Except E A} (h : ∀ a, r = .ok a → ∀ db, Q a { x with db := db }) :
    δ.wp (V := V) (R := R) (Prog.lift r) (OnOk Q) x := by
  cases r with
  | ok a => exact fun db _ => h a rfl db
  | error e => exact fun _ _ => trivial

theorem onOk_bind {p : Prog S R D V E A} {f : A → Prog S R D V E B} {Q' : B → Local W Db → Prop}
    (hp : δ.wp p (OnOk Q) x) (hf : ∀ a y, Q a y → δ.wp (f a) (OnOk Q') y) :
    δ.wp (p.elim f .raise) (OnOk Q') x := by
  refine δ.wp_elim (δ.wp_mono hp ?_)
  intro r y hy
  cases r with
  | ok a => exact hf a y hy
  | error e => exact fun _ _ => trivial

theorem onOk_execute {dbError : D → E} {s : S} {Q : R s → Local W Db → Prop}
    (h : ∀ db r ws, σ.exec s (σ.applyAll x.pending db) = .ok (r, ws) →
      ∀ db', Q r { x with db := db', pending := x.pending ++ ws }) :
    δ.wp (Prog.execute (V := V) dbError s) (OnOk Q) x :=
  fun db _ => ⟨fun _ _ _ => trivial, fun r ws hexec db' _ => h db r ws hexec db'⟩

/-- Nothing is known about what a program returns. -/
theorem onOk_trivial (p : Prog S R D V E A) : δ.wp p (OnOk fun _ _ => True) x := by
  have hany : ∀ (r : Except E A) (y : Local W Db), OnOk (fun _ _ => True) r y := by
    rintro (e | a) y <;> trivial
  induction p generalizing x with
  | ret a | raise e => exact fun _ _ => hany _ _
  | exec s k ih => exact fun _ _ => ⟨fun _ => ih _, fun _ _ _ => ih _⟩
  | fresh k ih => exact fun v => ih v
  | savepoint k ih => exact ih
  | release k ih => exact ih
  | rollback k ih => exact fun _ _ => ih

end

theorem wp_and {p : Prog S R D V E A} {Q Q' : Except E A → Local W Db → Prop} {x : Local W Db}
    (h : δ.wp p Q x) (h' : δ.wp p Q' x) : δ.wp p (fun r y => Q r y ∧ Q' r y) x := by
  induction p generalizing x with
  | ret a | raise e => exact fun db hr => ⟨h db hr, h' db hr⟩
  | exec s k ih =>
    intro db hr
    obtain ⟨herr, hok⟩ := h db hr
    obtain ⟨herr', hok'⟩ := h' db hr
    exact ⟨fun d => ih _ (herr d) (herr' d), fun r ws he => ih _ (hok r ws he) (hok' r ws he)⟩
  | fresh k ih => exact fun v => ih v (h v) (h' v)
  | savepoint k ih => exact ih h h'
  | release k ih => exact ih h h'
  | rollback k ih => exact fun db hr => ih (h db hr) (h' db hr)

/-- The exceptions of a program, in any run of it. -/
theorem wp_raises {p : Prog S R D V E A} {X : E → Prop} {x : Local W Db} (hp : p.Raises X) :
    δ.wp p (fun r _ => ∀ e, r = .error e → X e) x := by
  induction p generalizing x with
  | ret a => exact fun db hr e he => by cases he
  | raise e =>
    intro db hr e' he
    cases he
    exact hp
  | exec s k ih => exact fun db hr => ⟨fun d => ih _ (hp _), fun r ws he => ih _ (hp _)⟩
  | fresh k ih => exact fun v => ih v (hp v)
  | savepoint k ih => exact ih hp
  | release k ih => exact ih hp
  | rollback k ih => exact fun db hr => ih hp

theorem wp_flat {p : Prog S R D V E A} (hp : p.Flat) (x : Local W Db) :
    δ.wp p (fun _ y => y.saves = x.saves) x := by
  induction p generalizing x with
  | ret a | raise e => exact fun _ _ => rfl
  | exec s k ih =>
    intro db _
    exact ⟨fun d => ih _ (hp _) { x with db := db }, fun r ws _ =>
      ih _ (hp _) { x with db := db, pending := x.pending ++ ws }⟩
  | fresh k ih => exact fun v => ih v (hp v) x
  | savepoint k ih => exact False.elim hp
  | release k ih => exact False.elim hp
  | rollback k ih => exact False.elim hp

/-- A flat program in a savepoint: `Q` on a result, the writes as they were on an exception. -/
theorem wp_atomic_flat {p : Prog S R D V E A} (hp : p.Flat) {Q : A → List W → Prop} {x : Local W Db}
    (h : δ.wp p (OnOk fun a y => Q a y.pending) { x with saves := x.pending :: x.saves }) :
    δ.wp p.atomic (fun r y => y.saves = x.saves ∧ match r with
      | .ok a => Q a y.pending
      | .error _ => y.pending = x.pending) x := by
  refine δ.wp_atomic (δ.wp_mono (δ.wp_and h (δ.wp_flat hp _)) ?_)
  rintro (e | a) y ⟨hok, hsaves⟩
  · intro db _ db' _
    exact ⟨by rw [hsaves]; rfl, by rw [hsaves]; rfl⟩
  · intro db _
    exact ⟨by rw [hsaves]; rfl, hok⟩

/-! ### What the others committed meanwhile -/

/-- The same transaction later: more writes, and what the others may have committed. -/
structure Onward (x y : Local W Db) : Prop where
  saves : y.saves = x.saves
  pending : x.pending <+: y.pending
  rely : δ.Rely x.pending x.db y.db

namespace Onward

variable {δ} {x y z : Local W Db}

theorem trans (h : δ.Onward x y) (h' : δ.Onward y z) : δ.Onward x z := by
  obtain ⟨ws, hws⟩ := h.pending
  have hrely : δ.Rely x.pending y.db z.db := by
    have := h'.rely
    rw [← hws] at this
    exact this.mono
  exact ⟨h'.saves.trans h.saves, h.pending.trans h'.pending, h.rely.trans hrely⟩

theorem of_rely {db : Db} (h : δ.Rely x.pending x.db db) : δ.Onward x { x with db := db } :=
  ⟨rfl, List.prefix_rfl, h⟩

theorem grow (x : Local W Db) (ws : List W) : δ.Onward x { x with pending := x.pending ++ ws } :=
  ⟨rfl, List.prefix_append _ _, Rely.refl _ _⟩

/-- A transaction that may commit still may, without what it has written since. -/
theorem ready (h : δ.Onward x y) (hc : δ.Coherent x.db) (hr : δ.Ready x.db x.pending) :
    δ.Ready y.db x.pending := h.rely.ready_self hc hr

theorem coherent (h : δ.Onward x y) (hc : δ.Coherent x.db) : δ.Coherent y.db := by
  obtain ⟨_, _, _, _, hcoh⟩ := h.rely
  exact hcoh hc

end Onward

/-- Where a flat program ends. -/
theorem wp_onward {p : Prog S R D V E A} (hp : p.Flat) (x : Local W Db) :
    δ.wp p (fun _ y => δ.Onward x y) x := by
  induction p generalizing x with
  | ret a | raise e => exact fun _ hr => Onward.of_rely hr
  | exec s k ih =>
    intro db hr
    have hdb : δ.Onward x { x with db := db } := Onward.of_rely hr
    refine ⟨fun d => ?_, fun r ws _ => ?_⟩
    · exact δ.wp_mono (ih _ (hp _) _) fun _ _ hy => hdb.trans hy
    · exact δ.wp_mono (ih _ (hp _) _) fun _ _ hy => (hdb.trans (Onward.grow _ ws)).trans hy
  | fresh k ih => exact fun v => ih v (hp v) x
  | savepoint k ih => exact False.elim hp
  | release k ih => exact False.elim hp
  | rollback k ih => exact False.elim hp

/-- One statement, with what the others commit before and after it. -/
theorem onOk_execute_rely {dbError : D → E} {s : S} {x : Local W Db} {Q : R s → Local W Db → Prop}
    (h : ∀ db r ws, δ.Rely x.pending x.db db → σ.exec s (σ.applyAll x.pending db) = .ok (r, ws) →
      ∀ db', δ.Rely (x.pending ++ ws) db db' → Q r { x with db := db', pending := x.pending ++ ws }) :
    δ.wp (Prog.execute (V := V) dbError s) (OnOk Q) x :=
  fun db hr => ⟨fun _ _ _ => trivial, fun r ws hexec db' hr' => h db r ws hr hexec db' hr'⟩

/-- A flat program in a savepoint: on a result its writes and what the others committed since, on an
exception the writes as they were. -/
theorem wp_atomic_onward {p : Prog S R D V E A} (hp : p.Flat) {Q : A → Local W Db → Prop}
    {x : Local W Db} (h : δ.wp p (OnOk Q) { x with saves := x.pending :: x.saves }) :
    δ.wp p.atomic (fun r y => δ.Onward x y ∧ match r with
      | .ok a => ∃ z, Q a z ∧ y.pending = z.pending ∧ δ.Rely z.pending z.db y.db
      | .error _ => y.pending = x.pending) x := by
  refine δ.wp_atomic (δ.wp_mono (δ.wp_and h (δ.wp_onward hp _)) ?_)
  rintro (e | a) z ⟨hok, hz⟩
  · intro db hr db' hr'
    obtain ⟨ws, hws⟩ := hz.pending
    have hrely : δ.Rely x.pending z.db db := by
      rw [← hws] at hr
      exact hr.mono
    rw [hz.saves] at hr' ⊢
    exact ⟨⟨rfl, List.prefix_rfl, (hz.rely.trans hrely).trans hr'⟩, rfl⟩
  · intro db hr
    obtain ⟨ws, hws⟩ := hz.pending
    have hrely : δ.Rely x.pending z.db db := by
      rw [← hws] at hr
      exact hr.mono
    refine ⟨⟨?_, hz.pending, hz.rely.trans hrely⟩, z, hok, rfl, hr⟩
    show z.saves.tail = x.saves
    rw [hz.saves]
    rfl

/-- What a savepoint does not change: the result. -/
theorem wp_atomic_result {p : Prog S R D V E A} {Q : Except E A → Prop} {x : Local W Db}
    (h : δ.wp p (fun r _ => Q r) { x with saves := x.pending :: x.saves }) :
    δ.wp p.atomic (fun r _ => Q r) x := by
  refine δ.wp_atomic (δ.wp_mono h ?_)
  rintro (e | a) y hQ
  · exact fun _ _ _ _ => hQ
  · exact fun _ _ => hQ

/-- The discipline without slices: every state and every transaction is allowed. -/
def free (σ : Store S R D W K Db) : Discipline σ Unit where
  restrict _ _ := ()
  good _ _ := True
  complete _ := True
  complete_nil := trivial
  untouched _ _ _ _ := rfl
  congr _ _ _ _ _ := rfl

end Discipline

end Txn
