import Mathlib.Logic.Function.Basic
import Mathlib.Logic.Relation
import Mathlib.Data.List.Basic
import NetopsCopilot.Lib.Prog

/-!
# Concurrent transactions under Read Committed

Any number of clients run commands (`Prog`) against one store. A client's transaction holds the
writes it has made (`pending`); it reads the committed state with its own writes applied (`view`), so
what others commit becomes visible at its next statement. A write takes locks (the row it changes, the
unique keys it inserts) which it keeps until the transaction ends; a statement that would take a lock
another client holds cannot run yet. Every statement may instead fail. A transaction ends by a commit,
if its deferred constraints hold, or by an abort at any moment.

The proof method is rely and guarantee over *keys*. A `Discipline` cuts the store into slices
(`restrict k`, the rows that bear the key `k`) and says when a slice is `good`. A write changes only
the slices of the keys it touches, so a client that holds the locks of what it touches (`Owned`) sees
its own slices unchanged by a commit of another client and all other slices good (`Rely.slice`,
`Rely.good`). `wp` is the weakest precondition of a program under that interference, and
`reachable_inv` says that programs which keep the discipline one by one keep it in every interleaving.
-/

namespace Txn

/-- A transactional store: the effect of a statement on a view (a reply and writes, or an error), the
effect of a write, the locks it takes, the keys of the rows it changes, and the constraints that are
checked when a transaction with these writes commits. -/
structure Store (S : Type) (R : S → Type) (D W K Db : Type) where
  exec : (s : S) → Db → Except D (R s × List W)
  apply : W → Db → Db
  locks : W → List K
  touches : W → List K
  deferred : List W → Db → Bool

variable {S : Type} {R : S → Type} {D V E A B W K Db C P : Type}

namespace Store

variable (σ : Store S R D W K Db)

/-- Apply writes in order. -/
def applyAll (ws : List W) (db : Db) : Db := ws.foldl (fun d w => σ.apply w d) db

/-- The locks a list of writes holds. -/
def lockedBy (ws : List W) : List K := ws.flatMap σ.locks

/-- The keys of the rows a list of writes changes. -/
def touchedBy (ws : List W) : List K := ws.flatMap σ.touches

/-- Every row changed is locked. -/
def Owned (ws : List W) : Prop := ∀ k ∈ σ.touchedBy ws, k ∈ σ.lockedBy ws

@[simp] theorem applyAll_nil (db : Db) : σ.applyAll [] db = db := rfl

@[simp] theorem applyAll_append (ws ws' : List W) (db : Db) :
    σ.applyAll (ws ++ ws') db = σ.applyAll ws' (σ.applyAll ws db) := by
  simp [applyAll]

@[simp] theorem applyAll_cons (w : W) (ws : List W) (db : Db) :
    σ.applyAll (w :: ws) db = σ.applyAll ws (σ.apply w db) := rfl

@[simp] theorem lockedBy_nil : σ.lockedBy [] = [] := rfl

@[simp] theorem lockedBy_append (ws ws' : List W) :
    σ.lockedBy (ws ++ ws') = σ.lockedBy ws ++ σ.lockedBy ws' := by simp [lockedBy]

@[simp] theorem lockedBy_cons (w : W) (ws : List W) :
    σ.lockedBy (w :: ws) = σ.locks w ++ σ.lockedBy ws := by simp [lockedBy]

@[simp] theorem touchedBy_nil : σ.touchedBy [] = [] := rfl

@[simp] theorem touchedBy_append (ws ws' : List W) :
    σ.touchedBy (ws ++ ws') = σ.touchedBy ws ++ σ.touchedBy ws' := by simp [touchedBy]

@[simp] theorem touchedBy_cons (w : W) (ws : List W) :
    σ.touchedBy (w :: ws) = σ.touches w ++ σ.touchedBy ws := by simp [touchedBy]

theorem owned_nil : σ.Owned [] := fun k hk => by simp at hk

theorem Owned.append {σ : Store S R D W K Db} {ws ws' : List W} (h : σ.Owned ws)
    (h' : ∀ k ∈ σ.touchedBy ws', k ∈ σ.lockedBy ws ∨ k ∈ σ.lockedBy ws') : σ.Owned (ws ++ ws') := by
  intro k hk
  rw [touchedBy_append, List.mem_append] at hk
  rw [lockedBy_append, List.mem_append]
  rcases hk with hk | hk
  · exact Or.inl (h k hk)
  · exact h' k hk

/-- A property that every write keeps survives any list of writes. -/
theorem applyAll_induct {σ : Store S R D W K Db} {I : Db → Prop}
    (h : ∀ w db, I db → I (σ.apply w db)) (ws : List W) {db : Db} (hdb : I db) :
    I (σ.applyAll ws db) := by
  induction ws generalizing db with
  | nil => exact hdb
  | cons w ws ih => exact ih (h w db hdb)

end Store

/-! ### Slices -/

/-- The slices of a store, when each is good, and which lists of writes are complete: a transaction may
end with them, whatever the committed state is. -/
structure Discipline (σ : Store S R D W K Db) (P : Type) where
  restrict : K → Db → P
  good : K → P → Prop
  complete : List W → Prop
  complete_nil : complete []
  untouched : ∀ w k db, k ∉ σ.touches w → restrict k (σ.apply w db) = restrict k db
  congr : ∀ w k db db', restrict k db = restrict k db' →
    restrict k (σ.apply w db) = restrict k (σ.apply w db')

namespace Discipline

variable {σ : Store S R D W K Db} (δ : Discipline σ P)

theorem untouched_all {ws : List W} {k : K} (h : k ∉ σ.touchedBy ws) (db : Db) :
    δ.restrict k (σ.applyAll ws db) = δ.restrict k db := by
  induction ws generalizing db with
  | nil => rfl
  | cons w ws ih =>
    rw [Store.touchedBy_cons, List.mem_append, not_or] at h
    rw [Store.applyAll_cons, ih h.2, δ.untouched w k db h.1]

theorem congr_all (ws : List W) {k : K} {db db' : Db} (h : δ.restrict k db = δ.restrict k db') :
    δ.restrict k (σ.applyAll ws db) = δ.restrict k (σ.applyAll ws db') := by
  induction ws generalizing db db' with
  | nil => exact h
  | cons w ws ih => exact ih (δ.congr w k db db' h)

/-- Every slice is good. -/
def Coherent (db : Db) : Prop := ∀ k, δ.good k (δ.restrict k db)

/-- A transaction that may commit: its result is coherent, it holds the locks of its rows, and its
writes are complete. -/
structure Ready (db : Db) (ws : List W) : Prop where
  coherent : δ.Coherent (σ.applyAll ws db)
  owned : σ.Owned ws
  complete : δ.complete ws

theorem ready_nil {db : Db} (h : δ.Coherent db) : δ.Ready db [] := ⟨h, σ.owned_nil, δ.complete_nil⟩

/-- What other clients may commit while a transaction with writes `ps` is open. -/
def Rely (ps : List W) (db db' : Db) : Prop :=
  ∃ ws, db' = σ.applyAll ws db ∧ σ.Owned ws ∧ List.Disjoint (σ.lockedBy ps) (σ.lockedBy ws) ∧
    (δ.Coherent db → δ.Coherent db')

namespace Rely

variable {δ} {ps ps' : List W} {db db' db'' : Db}

theorem refl (ps : List W) (db : Db) : δ.Rely ps db db :=
  ⟨[], rfl, σ.owned_nil, by simp [List.Disjoint], id⟩

theorem trans (h : δ.Rely ps db db') (h' : δ.Rely ps db' db'') : δ.Rely ps db db'' := by
  obtain ⟨ws, rfl, how, hd, hc⟩ := h
  obtain ⟨ws', rfl, how', hd', hc'⟩ := h'
  refine ⟨ws ++ ws', (σ.applyAll_append ws ws' db).symm, ?_, ?_, fun h => hc' (hc h)⟩
  · exact how.append fun k hk => Or.inr (how' k hk)
  · intro k hk hk'
    rw [Store.lockedBy_append, List.mem_append] at hk'
    exact hk'.elim (fun h => hd hk h) (fun h => hd' hk h)

/-- Fewer writes of one's own allow more from the others. -/
theorem mono (h : δ.Rely (ps ++ ps') db db') : δ.Rely ps db db' := by
  obtain ⟨ws, rfl, how, hd, hc⟩ := h
  exact ⟨ws, rfl, how, fun k hk hk' => hd (by simp [hk]) hk', hc⟩

/-- The slices of the keys one has locked do not change. -/
theorem slice (h : δ.Rely ps db db') {k : K} (hk : k ∈ σ.lockedBy ps) (ws : List W) :
    δ.restrict k (σ.applyAll ws db') = δ.restrict k (σ.applyAll ws db) := by
  obtain ⟨vs, rfl, how, hd, _⟩ := h
  exact δ.congr_all ws (δ.untouched_all (fun hk' => hd hk (how k hk')) db)

/-- The slices of the keys one has not touched are good whenever the committed state is. -/
theorem good (h : δ.Rely ps db db') (hc : δ.Coherent db) {k : K} (hk : k ∉ σ.touchedBy ps) :
    δ.good k (δ.restrict k (σ.applyAll ps db')) := by
  obtain ⟨vs, rfl, _, _, hcoh⟩ := h
  rw [δ.untouched_all hk]
  exact hcoh hc k

theorem ready (h : δ.Rely (ps ++ ps') db db') (hc : δ.Coherent db) (hr : δ.Ready db ps) :
    δ.Ready db' ps := by
  refine ⟨fun k => ?_, hr.owned, hr.complete⟩
  by_cases hk : k ∈ σ.touchedBy ps
  · rw [h.slice (by simp [hr.owned k hk]) ps]
    exact hr.coherent k
  · exact h.mono.good hc hk

theorem ready_self (h : δ.Rely ps db db') (hc : δ.Coherent db) (hr : δ.Ready db ps) :
    δ.Ready db' ps := by
  have h' : δ.Rely (ps ++ []) db db' := by rwa [List.append_nil]
  exact h'.ready hc hr

/-- What every write keeps, the others keep. -/
theorem induct {I : Db → Prop} (hstep : ∀ w db, I db → I (σ.apply w db)) (h : δ.Rely ps db db')
    (hI : I db) : I db' := by
  obtain ⟨ws, rfl, -⟩ := h
  exact Store.applyAll_induct hstep ws hI

end Rely

end Discipline

/-! ### Clients and steps -/

/-- The commands of a system: the program each runs, and the history it leaves when it ends. -/
structure System (S : Type) (R : S → Type) (D V E A W K Db C : Type) where
  store : Store S R D W K Db
  program : C → Prog S R D V E A
  record : C → Except E A → List W

/-- One client: the writes of its open transaction, those it had when its command began, the
savepoints it has open, and the command it is running with what is left of its program. -/
structure Client (S : Type) (R : S → Type) (D V E A W C : Type) where
  pending : List W := []
  mark : List W := []
  saves : List (List W) := []
  running : Option (C × Prog S R D V E A) := none

/-- The committed state and the clients. -/
structure State (S : Type) (R : S → Type) (D V E A W Db C : Type) where
  committed : Db
  client : ℕ → Client S R D V E A W C

namespace State

variable (s : State S R D V E A W Db C)

/-- Replace one client. -/
def set (i : ℕ) (c : Client S R D V E A W C) : State S R D V E A W Db C :=
  { s with client := Function.update s.client i c }

@[simp] theorem set_committed (i : ℕ) (c : Client S R D V E A W C) :
    (s.set i c).committed = s.committed := rfl

@[simp] theorem set_client_self (i : ℕ) (c : Client S R D V E A W C) : (s.set i c).client i = c := by
  simp [set]

theorem set_client_ne {i j : ℕ} (h : j ≠ i) (c : Client S R D V E A W C) :
    (s.set i c).client j = s.client j := by simp [set, h]

end State

namespace System

variable (sys : System S R D V E A W K Db C)

/-- What client `i` reads. -/
def view (s : State S R D V E A W Db C) (i : ℕ) : Db :=
  sys.store.applyAll (s.client i).pending s.committed

/-- No other client holds a lock these writes take. -/
def Free (s : State S R D V E A W Db C) (i : ℕ) (ws : List W) : Prop :=
  ∀ j, j ≠ i → List.Disjoint (sys.store.lockedBy ws) (sys.store.lockedBy (s.client j).pending)

/-- One step of one client. -/
inductive Step : State S R D V E A W Db C → State S R D V E A W Db C → Prop where
  | start {s} (i : ℕ) (c : C) (hidle : (s.client i).running = none) :
      Step s (s.set i { s.client i with
        mark := (s.client i).pending, running := some (c, sys.program c) })
  | exec {s} (i : ℕ) (c : C) (q : S) (k : Except D (R q) → Prog S R D V E A) (r : R q) (ws : List W)
      (hrun : (s.client i).running = some (c, .exec q k))
      (hexec : sys.store.exec q (sys.view s i) = .ok (r, ws)) (hfree : sys.Free s i ws) :
      Step s (s.set i { s.client i with
        pending := (s.client i).pending ++ ws, running := some (c, k (.ok r)) })
  | fail {s} (i : ℕ) (c : C) (q : S) (k : Except D (R q) → Prog S R D V E A) (d : D)
      (hrun : (s.client i).running = some (c, .exec q k)) :
      Step s (s.set i { s.client i with running := some (c, k (.error d)) })
  | fresh {s} (i : ℕ) (c : C) (k : V → Prog S R D V E A) (v : V)
      (hrun : (s.client i).running = some (c, .fresh k)) :
      Step s (s.set i { s.client i with running := some (c, k v) })
  | savepoint {s} (i : ℕ) (c : C) (k : Prog S R D V E A)
      (hrun : (s.client i).running = some (c, .savepoint k)) :
      Step s (s.set i { s.client i with
        saves := (s.client i).pending :: (s.client i).saves, running := some (c, k) })
  | release {s} (i : ℕ) (c : C) (k : Prog S R D V E A)
      (hrun : (s.client i).running = some (c, .release k)) :
      Step s (s.set i { s.client i with saves := (s.client i).saves.tail, running := some (c, k) })
  | rollback {s} (i : ℕ) (c : C) (k : Prog S R D V E A)
      (hrun : (s.client i).running = some (c, .rollback k)) :
      Step s (s.set i { s.client i with
        pending := (s.client i).saves.headD [], saves := (s.client i).saves.tail,
        running := some (c, k) })
  | finish {s} (i : ℕ) (c : C) (a : A) (hrun : (s.client i).running = some (c, .ret a)) :
      Step s (s.set i { s.client i with
        pending := (s.client i).pending ++ sys.record c (.ok a), running := none })
  | finishRaised {s} (i : ℕ) (c : C) (e : E) (hrun : (s.client i).running = some (c, .raise e)) :
      Step s (s.set i { s.client i with
        pending := (s.client i).pending ++ sys.record c (.error e), running := none })
  | commit {s} (i : ℕ) (hidle : (s.client i).running = none)
      (hdeferred : sys.store.deferred (s.client i).pending s.committed = true) :
      Step s { committed := sys.view s i, client := Function.update s.client i {} }
  | abort {s} (i : ℕ) : Step s (s.set i {})

/-- All clients idle, over a committed state. -/
def initial (db : Db) : State S R D V E A W Db C := { committed := db, client := fun _ => {} }

/-- The states a system can reach from a committed state. -/
def Reachable (db : Db) : State S R D V E A W Db C → Prop :=
  Relation.ReflTransGen sys.Step (initial db)

end System

/-! ### Weakest preconditions under interference -/

/-- What a program's behaviour depends on: the committed state, its client's writes and savepoints. -/
structure Local (W Db : Type) where
  db : Db
  pending : List W
  saves : List (List W)

namespace Discipline

variable {σ : Store S R D W K Db} (δ : Discipline σ P)

/-- `p` ends only with a result and a state satisfying `Q`, whatever the others commit between its
statements and whichever of its statements fail. -/
def wp : Prog S R D V E A → (Except E A → Local W Db → Prop) → Local W Db → Prop
  | .ret a, Q, x => ∀ db, δ.Rely x.pending x.db db → Q (.ok a) { x with db := db }
  | .raise e, Q, x => ∀ db, δ.Rely x.pending x.db db → Q (.error e) { x with db := db }
  | .exec s k, Q, x => ∀ db, δ.Rely x.pending x.db db →
      (∀ d, wp (k (.error d)) Q { x with db := db }) ∧
      ∀ r ws, σ.exec s (σ.applyAll x.pending db) = .ok (r, ws) →
        wp (k (.ok r)) Q { x with db := db, pending := x.pending ++ ws }
  | .fresh k, Q, x => ∀ v, wp (k v) Q x
  | .savepoint k, Q, x => wp k Q { x with saves := x.pending :: x.saves }
  | .release k, Q, x => wp k Q { x with saves := x.saves.tail }
  | .rollback k, Q, x => ∀ db, δ.Rely x.pending x.db db →
      wp k Q { db := db, pending := x.saves.headD [], saves := x.saves.tail }

theorem wp_rely {p : Prog S R D V E A} {Q : Except E A → Local W Db → Prop} {x : Local W Db}
    (h : δ.wp p Q x) {db : Db} (hr : δ.Rely x.pending x.db db) : δ.wp p Q { x with db := db } := by
  induction p generalizing x with
  | ret a => exact fun db' h' => h db' (hr.trans h')
  | raise e => exact fun db' h' => h db' (hr.trans h')
  | exec s k ih => exact fun db' h' => h db' (hr.trans h')
  | fresh k ih => exact fun v => ih v (h v) hr
  | savepoint k ih => exact ih h hr
  | release k ih => exact ih h hr
  | rollback k ih => exact fun db' h' => h db' (hr.trans h')

theorem wp_mono {p : Prog S R D V E A} {Q Q' : Except E A → Local W Db → Prop} {x : Local W Db}
    (h : δ.wp p Q x) (hQ : ∀ r x, Q r x → Q' r x) : δ.wp p Q' x := by
  induction p generalizing x with
  | ret a => exact fun db hr => hQ _ _ (h db hr)
  | raise e => exact fun db hr => hQ _ _ (h db hr)
  | exec s k ih =>
    intro db hr
    obtain ⟨herr, hok⟩ := h db hr
    exact ⟨fun d => ih _ (herr d), fun r ws he => ih _ (hok r ws he)⟩
  | fresh k ih => exact fun v => ih v (h v)
  | savepoint k ih => exact ih h
  | release k ih => exact ih h
  | rollback k ih => exact fun db hr => ih (h db hr)

/-- Sequencing and exception handling. -/
theorem wp_elim {p : Prog S R D V E A} {f : A → Prog S R D V E B} {g : E → Prog S R D V E B}
    {Q : Except E B → Local W Db → Prop} {x : Local W Db}
    (h : δ.wp p (fun r y => match r with
      | .ok a => δ.wp (f a) Q y
      | .error e => δ.wp (g e) Q y) x) : δ.wp (p.elim f g) Q x := by
  induction p generalizing x with
  | ret a => exact h x.db (Rely.refl _ _)
  | raise e => exact h x.db (Rely.refl _ _)
  | exec s k ih =>
    intro db hr
    obtain ⟨herr, hok⟩ := h db hr
    exact ⟨fun d => ih _ (herr d), fun r ws he => ih _ (hok r ws he)⟩
  | fresh k ih => exact fun v => ih v (h v)
  | savepoint k ih => exact ih h
  | release k ih => exact ih h
  | rollback k ih => exact fun db hr => ih (h db hr)

/-- A function of the result and of the exception. -/
theorem wp_bimap {p : Prog S R D V E A} {f : A → B} {g : E → E} {Q : Except E B → Local W Db → Prop}
    {x : Local W Db} (h : δ.wp p (fun r y => Q ((r.map f).mapError g) y) x) :
    δ.wp (p.elim (fun a => .ret (f a)) (fun e => .raise (g e))) Q x := by
  induction p generalizing x with
  | ret a => exact h
  | raise e => exact h
  | exec s k ih =>
    intro db hr
    obtain ⟨herr, hok⟩ := h db hr
    exact ⟨fun d => ih _ (herr d), fun r ws he => ih _ (hok r ws he)⟩
  | fresh k ih => exact fun v => ih v (h v)
  | savepoint k ih => exact ih h
  | release k ih => exact ih h
  | rollback k ih => exact fun db hr => ih (h db hr)

/-- A function of the result. -/
theorem wp_map {p : Prog S R D V E A} {f : A → B} {Q : Except E B → Local W Db → Prop}
    {x : Local W Db} (h : δ.wp p (fun r y => Q (r.map f) y) x) :
    δ.wp (p.elim (fun a => .ret (f a)) .raise) Q x := by
  refine δ.wp_bimap (g := id) (δ.wp_mono h fun r y hy => ?_)
  cases r <;> exact hy

/-- One statement: `J` is what is known at any moment before it runs. -/
theorem wp_execute {dbError : D → E} {s : S} {Q : Except E (R s) → Local W Db → Prop} {x : Local W Db}
    (J : Local W Db → Prop) (hJ : ∀ db, δ.Rely x.pending x.db db → J { x with db := db })
    (herr : ∀ d y, J y → Q (.error (dbError d)) y)
    (hok : ∀ y r ws, J y → σ.exec s (σ.applyAll y.pending y.db) = .ok (r, ws) →
      ∀ db, δ.Rely (y.pending ++ ws) y.db db →
        Q (.ok r) { y with db := db, pending := y.pending ++ ws }) :
    δ.wp (Prog.execute (V := V) dbError s) Q x := by
  intro db hr
  refine ⟨fun d db' hr' => ?_, fun r ws he db' hr' => ?_⟩
  · exact herr d _ (hJ db' (hr.trans hr'))
  · exact hok { x with db := db } r ws (hJ db hr) he db' hr'

/-- The same transaction after some commits of others. -/
structure Later (x y : Local W Db) : Prop where
  pending : y.pending = x.pending
  saves : y.saves = x.saves
  rely : δ.Rely x.pending x.db y.db

variable {δ} in
theorem Later.refl (x : Local W Db) : δ.Later x x := ⟨rfl, rfl, Rely.refl _ _⟩

variable {δ} in
theorem Later.trans {x y z : Local W Db} (h : δ.Later x y) (h' : δ.Later y z) : δ.Later x z :=
  ⟨h'.pending.trans h.pending, h'.saves.trans h.saves, h.rely.trans (h.pending ▸ h'.rely)⟩

variable {δ} in
theorem Later.coherent {x y : Local W Db} (h : δ.Later x y) (hc : δ.Coherent x.db) :
    δ.Coherent y.db := by
  obtain ⟨_, _, _, _, hcoh⟩ := h.rely
  exact hcoh hc

variable {δ} in
theorem Later.ready {x y : Local W Db} (h : δ.Later x y) (hc : δ.Coherent x.db)
    (hr : δ.Ready x.db x.pending) : δ.Ready y.db y.pending :=
  h.pending ▸ h.rely.ready_self hc hr

theorem wp_ret {a : A} {Q : Except E A → Local W Db → Prop} {x : Local W Db}
    (h : ∀ y, δ.Later x y → Q (.ok a) y) : δ.wp (V := V) (R := R) (.ret a) Q x :=
  fun _ hr => h _ ⟨rfl, rfl, hr⟩

theorem wp_raise {e : E} {Q : Except E A → Local W Db → Prop} {x : Local W Db}
    (h : ∀ y, δ.Later x y → Q (.error e) y) : δ.wp (V := V) (R := R) (.raise e) Q x :=
  fun _ hr => h _ ⟨rfl, rfl, hr⟩

theorem wp_lift {r : Except E A} {Q : Except E A → Local W Db → Prop} {x : Local W Db}
    (h : ∀ y, δ.Later x y → Q r y) : δ.wp (V := V) (R := R) (Prog.lift r) Q x := by
  cases r with
  | ok a => exact δ.wp_ret h
  | error e => exact δ.wp_raise h

/-- A statement that only reads. -/
theorem wp_read {dbError : D → E} {s : S} {Q : Except E (R s) → Local W Db → Prop} {x : Local W Db}
    (hread : ∀ db r ws, σ.exec s db = .ok (r, ws) → ws = [])
    (herr : ∀ d y, δ.Later x y → Q (.error (dbError d)) y)
    (hok : ∀ y r z, δ.Later x y → σ.exec s (σ.applyAll x.pending y.db) = .ok (r, []) →
      δ.Later y z → Q (.ok r) z) :
    δ.wp (Prog.execute (V := V) dbError s) Q x := by
  refine δ.wp_execute (δ.Later x) (fun db hr => ⟨rfl, rfl, hr⟩) herr ?_
  intro y r ws hy hexec db hr
  have hws := hread _ r ws hexec
  subst hws
  rw [List.append_nil] at hr ⊢
  exact hok y r _ hy (hy.pending ▸ hexec) ⟨rfl, rfl, hr⟩

/-- The end of a program that wrote nothing since `x`: `Q` on a result. -/
def Quietly (x : Local W Db) (Q : A → Prop) : Except E A → Local W Db → Prop
  | .ok a, y => δ.Later x y ∧ Q a
  | .error _, y => δ.Later x y

theorem wp_bind_quietly {p : Prog S R D V E A} {f : A → Prog S R D V E B} {x x' : Local W Db}
    {Q : A → Prop} {Q' : B → Prop} (hp : δ.wp p (δ.Quietly x Q) x')
    (hf : ∀ a y, δ.Later x y → Q a → δ.wp (f a) (δ.Quietly x Q') y) :
    δ.wp (p.elim f .raise) (δ.Quietly x Q') x' := by
  refine δ.wp_elim (δ.wp_mono hp ?_)
  intro r y hy
  cases r with
  | ok a => exact hf a y hy.1 hy.2
  | error e => exact δ.wp_raise fun z hz => hy.trans hz

theorem wp_lift_quietly {r : Except E A} {x x' : Local W Db} (h : δ.Later x x') {Q : A → Prop}
    (hQ : ∀ a, r = .ok a → Q a) : δ.wp (V := V) (R := R) (Prog.lift r) (δ.Quietly x Q) x' := by
  refine δ.wp_lift fun y hy => ?_
  cases r with
  | ok a => exact ⟨h.trans hy, hQ a rfl⟩
  | error e => exact h.trans hy

/-- A savepoint: the exception path sees the writes as they were. -/
theorem wp_atomic {p : Prog S R D V E A} {Q : Except E A → Local W Db → Prop} {x : Local W Db}
    (h : δ.wp p (fun r y => match r with
      | .ok a => δ.wp (V := V) (.release (.ret a)) Q y
      | .error e => δ.wp (V := V) (.rollback (.raise e)) Q y) { x with saves := x.pending :: x.saves }) :
    δ.wp p.atomic Q x :=
  wp_elim δ h

end Discipline

/-! ### The interleaving theorem -/

/-- Every command of the system keeps the discipline and ends in `Post`. -/
structure Sound (sys : System S R D V E A W K Db C) (δ : Discipline sys.store P)
    (Post : C → List W → Except E A → Local W Db → Prop) : Prop where
  command : ∀ c db ps, δ.Coherent db → δ.Ready db ps →
    δ.wp (sys.program c) (fun r y => y.saves = [] ∧ δ.Ready y.db (y.pending ++ sys.record c r) ∧
      Post c ps r y) ⟨db, ps, []⟩
  recordLocks : ∀ c r, sys.store.lockedBy (sys.record c r) = []

namespace Sound

variable {sys : System S R D V E A W K Db C} {δ : Discipline sys.store P}
  {Post : C → List W → Except E A → Local W Db → Prop}

/-- The local state of a client. -/
def localOf (s : State S R D V E A W Db C) (i : ℕ) : Local W Db :=
  ⟨s.committed, (s.client i).pending, (s.client i).saves⟩

/-- What holds of one client: an idle one may commit, a running one will end well. -/
def ClientInv (sys : System S R D V E A W K Db C) (δ : Discipline sys.store P)
    (Post : C → List W → Except E A → Local W Db → Prop) (db : Db)
    (cl : Client S R D V E A W C) : Prop :=
  match cl.running with
  | none => cl.saves = [] ∧ δ.Ready db cl.pending
  | some (c, p) => δ.wp p (fun r y => y.saves = [] ∧ δ.Ready y.db (y.pending ++ sys.record c r) ∧
      Post c cl.mark r y) ⟨db, cl.pending, cl.saves⟩

/-- Each savepoint remembers a prefix of the writes made since. -/
def SavesOk : List W → List (List W) → Prop
  | _, [] => True
  | ps, sv :: rest => sv <+: ps ∧ SavesOk sv rest

theorem SavesOk.append {ps : List W} {saves : List (List W)} (h : SavesOk ps saves) (ws : List W) :
    SavesOk (ps ++ ws) saves := by
  cases saves with
  | nil => trivial
  | cons sv rest => exact ⟨h.1.trans (List.prefix_append ps ws), h.2⟩

theorem SavesOk.headD {ps : List W} {saves : List (List W)} (h : SavesOk ps saves) :
    saves.headD [] <+: ps := by
  cases saves with
  | nil => exact List.nil_prefix
  | cons sv rest => exact h.1

theorem SavesOk.tail {ps : List W} {saves : List (List W)} (h : SavesOk ps saves) :
    SavesOk (saves.headD []) saves.tail := by
  cases saves with
  | nil => trivial
  | cons sv rest => exact h.2

theorem SavesOk.release {ps : List W} {saves : List (List W)} (h : SavesOk ps saves) :
    SavesOk ps saves.tail := by
  cases saves with
  | nil => trivial
  | cons sv rest =>
    cases rest with
    | nil => trivial
    | cons sv' rest => exact ⟨h.2.1.trans h.1, h.2.2⟩

/-- The invariant of a whole state. -/
structure Inv (sys : System S R D V E A W K Db C) (δ : Discipline sys.store P)
    (Post : C → List W → Except E A → Local W Db → Prop) (s : State S R D V E A W Db C) : Prop where
  coherent : δ.Coherent s.committed
  client : ∀ i, ClientInv sys δ Post s.committed (s.client i)
  saves : ∀ i, SavesOk (s.client i).pending (s.client i).saves
  disjoint : ∀ i j, i ≠ j → List.Disjoint (sys.store.lockedBy (s.client i).pending)
    (sys.store.lockedBy (s.client j).pending)

theorem clientInv_idle {db : Db} {cl : Client S R D V E A W C} (hrun : cl.running = none) :
    ClientInv sys δ Post db cl ↔ cl.saves = [] ∧ δ.Ready db cl.pending := by
  simp [ClientInv, hrun]

theorem clientInv_running {db : Db} {cl : Client S R D V E A W C} {c : C} {p : Prog S R D V E A}
    (hrun : cl.running = some (c, p)) :
    ClientInv sys δ Post db cl ↔ δ.wp p (fun r y => y.saves = [] ∧
      δ.Ready y.db (y.pending ++ sys.record c r) ∧ Post c cl.mark r y)
      ⟨db, cl.pending, cl.saves⟩ := by
  simp [ClientInv, hrun]

/-- A commit of another client keeps a client's invariant. -/
theorem ClientInv.rely {db db' : Db} {cl : Client S R D V E A W C} (hc : δ.Coherent db)
    (h : ClientInv sys δ Post db cl) (hr : δ.Rely cl.pending db db') :
    ClientInv sys δ Post db' cl := by
  cases hrun : cl.running with
  | none =>
    rw [clientInv_idle hrun] at h ⊢
    exact ⟨h.1, hr.ready_self hc h.2⟩
  | some cp =>
    rw [clientInv_running hrun] at h ⊢
    exact δ.wp_rely h hr

theorem inv_initial {db : Db} (h : δ.Coherent db) :
    Inv sys δ Post (System.initial (S := S) (R := R) (D := D) (V := V) (E := E) (A := A) (W := W)
      (C := C) db) := by
  refine ⟨h, fun i => ?_, fun i => trivial, fun i j _ => by simp [System.initial, List.Disjoint]⟩
  rw [clientInv_idle (by rfl)]
  exact ⟨rfl, δ.ready_nil h⟩

/-- What client `j` has to know of a program it starts. -/
def Starts (sys : System S R D V E A W K Db C) (δ : Discipline sys.store P)
    (Post : C → List W → Except E A → Local W Db → Prop) (db : Db) : Prop :=
  ∀ c ps, δ.Ready db ps → δ.wp (sys.program c) (fun r y => y.saves = [] ∧
    δ.Ready y.db (y.pending ++ sys.record c r) ∧ Post c ps r y) ⟨db, ps, []⟩

/-- A step keeps the invariant of client `j`, with any postcondition its programs end in. -/
theorem clientInv_step {Post' : C → List W → Except E A → Local W Db → Prop}
    {s s' : State S R D V E A W Db C} (h : Inv sys δ Post s) (j : ℕ)
    (hstart : Starts sys δ Post' s.committed)
    (hcl : ClientInv sys δ Post' s.committed (s.client j)) (hstep : sys.Step s s') :
    ClientInv sys δ Post' s'.committed (s'.client j) := by
  have hset : ∀ (i : ℕ) (cl : Client S R D V E A W C),
      (i = j → ClientInv sys δ Post' s.committed cl) →
      ClientInv sys δ Post' (s.set i cl).committed ((s.set i cl).client j) := by
    intro i cl hi
    by_cases hj : j = i
    · subst hj
      simpa using hi rfl
    · rw [s.set_client_ne hj]
      exact hcl
  have hwp : ∀ {c p}, (s.client j).running = some (c, p) →
      δ.wp p (fun r y => y.saves = [] ∧ δ.Ready y.db (y.pending ++ sys.record c r) ∧
        Post' c (s.client j).mark r y) ⟨s.committed, (s.client j).pending, (s.client j).saves⟩ :=
    fun hrun => (clientInv_running hrun).mp hcl
  have hrefl : δ.Rely (s.client j).pending s.committed s.committed := Discipline.Rely.refl _ _
  cases hstep with
  | start i c hidle =>
    refine hset i _ fun hi => (clientInv_running rfl).mpr ?_
    subst hi
    obtain ⟨hsaves, hready⟩ := (clientInv_idle hidle).mp hcl
    simpa [hsaves] using hstart c (s.client i).pending hready
  | exec i c q k r ws hrun hexec hfree =>
    refine hset i _ fun hi => (clientInv_running rfl).mpr ?_
    subst hi
    exact (hwp hrun s.committed hrefl).2 r ws hexec
  | fail i c q k d hrun =>
    refine hset i _ fun hi => (clientInv_running rfl).mpr ?_
    subst hi
    exact (hwp hrun s.committed hrefl).1 d
  | fresh i c k v hrun =>
    refine hset i _ fun hi => (clientInv_running rfl).mpr ?_
    subst hi
    exact hwp hrun v
  | savepoint i c k hrun | release i c k hrun =>
    refine hset i _ fun hi => (clientInv_running rfl).mpr ?_
    subst hi
    exact hwp hrun
  | rollback i c k hrun =>
    refine hset i _ fun hi => (clientInv_running rfl).mpr ?_
    subst hi
    exact hwp hrun s.committed hrefl
  | finish i c _ hrun | finishRaised i c _ hrun =>
    refine hset i _ fun hi => (clientInv_idle rfl).mpr ?_
    subst hi
    obtain ⟨hsaves, hready, -⟩ := hwp hrun s.committed hrefl
    exact ⟨hsaves, hready⟩
  | commit i hidle hdeferred =>
    obtain ⟨-, hready⟩ := (clientInv_idle hidle).mp (h.client i)
    by_cases hj : j = i
    · subst hj
      simp only [Function.update_self]
      exact (clientInv_idle (by rfl)).mpr ⟨rfl, δ.ready_nil hready.coherent⟩
    · simp only [Function.update_of_ne hj]
      exact hcl.rely h.coherent ⟨(s.client i).pending, rfl, hready.owned, h.disjoint j i hj,
        fun _ => hready.coherent⟩
  | abort i =>
    refine hset i _ fun _ => (clientInv_idle (by rfl)).mpr ⟨rfl, δ.ready_nil h.coherent⟩

/-- The locks of the clients stay disjoint, and the savepoints prefixes. -/
theorem locks_step (hs : Sound sys δ Post) {s s' : State S R D V E A W Db C} (h : Inv sys δ Post s)
    (hstep : sys.Step s s') :
    (∀ i, SavesOk (s'.client i).pending (s'.client i).saves) ∧
    ∀ i j, i ≠ j → List.Disjoint (sys.store.lockedBy (s'.client i).pending)
      (sys.store.lockedBy (s'.client j).pending) := by
  have hself : ∀ i j, j ≠ i → List.Disjoint (sys.store.lockedBy (s.client i).pending)
      (sys.store.lockedBy (s.client j).pending) := fun i j hj => h.disjoint i j (Ne.symm hj)
  -- replacing one client by one whose locks are disjoint from the others'
  have hset : ∀ (s₀ : State S R D V E A W Db C) (i : ℕ) (cl : Client S R D V E A W C),
      s₀.client = Function.update s.client i cl → SavesOk cl.pending cl.saves →
      (∀ j, j ≠ i → List.Disjoint (sys.store.lockedBy cl.pending)
        (sys.store.lockedBy (s.client j).pending)) →
      (∀ i, SavesOk (s₀.client i).pending (s₀.client i).saves) ∧
      ∀ i j, i ≠ j → List.Disjoint (sys.store.lockedBy (s₀.client i).pending)
        (sys.store.lockedBy (s₀.client j).pending) := by
    intro s₀ i cl heq hsaves hlocks
    rw [heq]
    refine ⟨fun j => ?_, fun j j' hne => ?_⟩
    · by_cases hj : j = i
      · subst hj
        simpa using hsaves
      · rw [Function.update_of_ne hj]
        exact h.saves j
    · by_cases hj : j = i
      · subst hj
        rw [Function.update_self, Function.update_of_ne (Ne.symm hne)]
        exact hlocks j' (Ne.symm hne)
      · rw [Function.update_of_ne hj]
        by_cases hj' : j' = i
        · subst hj'
          rw [Function.update_self]
          exact fun k hk hk' => hlocks j hj hk' hk
        · rw [Function.update_of_ne hj']
          exact h.disjoint j j' hne
  cases hstep with
  | start i c hidle => exact hset _ i _ rfl (h.saves i) (hself i)
  | exec i c q k r ws hrun hexec hfree =>
    refine hset _ i _ rfl ((h.saves i).append ws) fun j hj => ?_
    simp only [Store.lockedBy_append, List.disjoint_append_left]
    exact ⟨hself i j hj, hfree j hj⟩
  | fail i c q k d hrun => exact hset _ i _ rfl (h.saves i) (hself i)
  | fresh i c k v hrun => exact hset _ i _ rfl (h.saves i) (hself i)
  | savepoint i c k hrun => exact hset _ i _ rfl ⟨List.prefix_rfl, h.saves i⟩ (hself i)
  | release i c k hrun => exact hset _ i _ rfl (h.saves i).release (hself i)
  | rollback i c k hrun =>
    -- the locks taken since the savepoint are given back
    obtain ⟨ws, hws⟩ := (h.saves i).headD
    refine hset _ i _ rfl (h.saves i).tail fun j hj k hk => hself i j hj ?_
    rw [← hws, Store.lockedBy_append, List.mem_append]
    exact Or.inl hk
  | finish i c _ hrun | finishRaised i c _ hrun =>
    refine hset _ i _ rfl ((h.saves i).append _) fun j hj => ?_
    simpa [hs.recordLocks] using hself i j hj
  | commit i hidle hdeferred =>
    exact hset _ i {} rfl trivial fun j _ => by simp [List.Disjoint]
  | abort i => exact hset _ i {} rfl trivial fun j _ => by simp [List.Disjoint]

theorem coherent_step {s s' : State S R D V E A W Db C} (h : Inv sys δ Post s)
    (hstep : sys.Step s s') : δ.Coherent s'.committed := by
  cases hstep with
  | commit i hidle hdeferred => exact ((clientInv_idle hidle).mp (h.client i)).2.coherent
  | _ => exact h.coherent

theorem inv_step (hs : Sound sys δ Post) {s s' : State S R D V E A W Db C} (h : Inv sys δ Post s)
    (hstep : sys.Step s s') : Inv sys δ Post s' := by
  obtain ⟨hsaves, hdisjoint⟩ := locks_step hs h hstep
  have hstart : Starts sys δ Post s.committed := fun c ps hready =>
    hs.command c s.committed ps h.coherent hready
  exact ⟨coherent_step h hstep, fun j => clientInv_step h j hstart (h.client j) hstep, hsaves, hdisjoint⟩

/-- What every write keeps, a step keeps. -/
theorem committed_step {I : Db → Prop} (hI : ∀ w db, I db → I (sys.store.apply w db))
    {s s' : State S R D V E A W Db C} (hstep : sys.Step s s') (h : I s.committed) : I s'.committed := by
  cases hstep with
  | commit i hidle hdeferred => exact Store.applyAll_induct hI _ h
  | _ => exact h

/-- **Interleaving.** Every reachable state satisfies the invariant. -/
theorem reachable_inv (hs : Sound sys δ Post) {db : Db} (hdb : δ.Coherent db)
    {s : State S R D V E A W Db C} (h : sys.Reachable db s) : Inv sys δ Post s := by
  induction h with
  | refl => exact inv_initial hdb
  | tail _ hstep ih => exact inv_step hs ih hstep

/-- What every write keeps, a run keeps. -/
theorem committed_steps {I : Db → Prop} (hI : ∀ w db, I db → I (sys.store.apply w db))
    {s s' : State S R D V E A W Db C} (hsteps : Relation.ReflTransGen sys.Step s s')
    (h : I s.committed) : I s'.committed := by
  induction hsteps with
  | refl => exact h
  | tail _ hstep ih => exact committed_step hI hstep ih

/-- **From a state on.** What programs end in when they start in a database satisfying `I`, which every
write keeps, they end in at any time after a state whose database satisfies it. -/
theorem since (hs : Sound sys δ Post) {I : Db → Prop} (hI : ∀ w db, I db → I (sys.store.apply w db))
    {Post' : C → List W → Except E A → Local W Db → Prop}
    (hstart : ∀ db, δ.Coherent db → I db → Starts sys δ Post' db)
    {s s' : State S R D V E A W Db C} (h : Inv sys δ Post s) (hdb : I s.committed) {j : ℕ}
    (hidle : (s.client j).running = none) (hsteps : Relation.ReflTransGen sys.Step s s') :
    ClientInv sys δ Post' s'.committed (s'.client j) := by
  have hboth : Inv sys δ Post s' ∧ ClientInv sys δ Post' s'.committed (s'.client j) := by
    induction hsteps with
    | refl => exact ⟨h, (clientInv_idle hidle).mpr ((clientInv_idle hidle).mp (h.client j))⟩
    | tail hbefore hstep ih =>
      obtain ⟨hinv, hcl⟩ := ih
      have hI' := committed_steps hI hbefore hdb
      exact ⟨inv_step hs hinv hstep, clientInv_step hinv j (hstart _ hinv.coherent hI') hcl hstep⟩
  exact hboth.2

end Sound

end Txn
