import Mathlib.Logic.Basic

/-!
# Programs over a transactional store

A `Prog` is the code of one command as its store sees it: the statements it sends one after another
(each answered by a reply or by a store error), the values it draws (random identifiers), and the
savepoints it opens and closes. The continuation of a statement is a function of the answer, so what
a command does next may depend on what it read.

`Prog.elim` runs a program and continues from its result or from its exception; sequencing, exception
handling and `Prog.atomic` (a savepoint that is released on return and rolled back on an exception)
are all instances of it.
-/

namespace Txn

/-- A program: statements `S` with replies `R`, store errors `D`, drawn values `V`, exceptions `E`. -/
inductive Prog (S : Type) (R : S → Type) (D V E A : Type) : Type where
  | ret (a : A)
  | raise (e : E)
  | exec (s : S) (k : Except D (R s) → Prog S R D V E A)
  | fresh (k : V → Prog S R D V E A)
  | savepoint (k : Prog S R D V E A)
  | release (k : Prog S R D V E A)
  | rollback (k : Prog S R D V E A)

namespace Prog

variable {S : Type} {R : S → Type} {D V E A B C : Type}

/-- Run `p`, then `f` on its result or `h` on its exception. -/
def elim (f : A → Prog S R D V E B) (h : E → Prog S R D V E B) :
    Prog S R D V E A → Prog S R D V E B
  | .ret a => f a
  | .raise e => h e
  | .exec s k => .exec s fun r => (k r).elim f h
  | .fresh k => .fresh fun v => (k v).elim f h
  | .savepoint k => .savepoint (k.elim f h)
  | .release k => .release (k.elim f h)
  | .rollback k => .rollback (k.elim f h)

/-- Sequencing: an exception of `p` skips `f`. -/
def bind (p : Prog S R D V E A) (f : A → Prog S R D V E B) : Prog S R D V E B := p.elim f .raise

instance : Monad (Prog S R D V E) where
  pure := .ret
  bind := bind

@[simp] theorem pure_eq (a : A) : (pure a : Prog S R D V E A) = .ret a := rfl

@[simp] theorem bind_eq (p : Prog S R D V E A) (f : A → Prog S R D V E B) :
    p >>= f = p.elim f .raise := rfl

/-- Send one statement; `dbError` turns a store error into the program's exception. -/
def execute (dbError : D → E) (s : S) : Prog S R D V E (R s) :=
  .exec s fun
    | .ok r => .ret r
    | .error d => .raise (dbError d)

/-- Draw a value. -/
def draw : Prog S R D V E V := .fresh .ret

/-- A pure computation that may raise. -/
def lift : Except E A → Prog S R D V E A
  | .ok a => .ret a
  | .error e => .raise e

/-- Run `p` in a savepoint: released when it returns, rolled back when it raises. -/
def atomic (p : Prog S R D V E A) : Prog S R D V E A :=
  .savepoint (p.elim (fun a => .release (.ret a)) (fun e => .rollback (.raise e)))

theorem elim_elim (p : Prog S R D V E A) (f : A → Prog S R D V E B) (h : E → Prog S R D V E B)
    (f' : B → Prog S R D V E C) (h' : E → Prog S R D V E C) :
    (p.elim f h).elim f' h' = p.elim (fun a => (f a).elim f' h') (fun e => (h e).elim f' h') := by
  induction p with
  | ret a => rfl
  | raise e => rfl
  | exec s k ih => simp only [elim, ih]
  | fresh k ih => simp only [elim, ih]
  | savepoint k ih => simp only [elim, ih]
  | release k ih => simp only [elim, ih]
  | rollback k ih => simp only [elim, ih]

/-! ### Exceptions -/

/-- Whatever the program is answered and draws, `Q` holds of the exceptions that leave it. -/
def Raises (Q : E → Prop) : Prog S R D V E A → Prop
  | .ret _ => True
  | .raise e => Q e
  | .exec _ k => ∀ r, (k r).Raises Q
  | .fresh k => ∀ v, (k v).Raises Q
  | .savepoint k | .release k | .rollback k => k.Raises Q

variable {Q Q' : E → Prop} {p : Prog S R D V E A}

theorem Raises.mono (hp : p.Raises Q) (h : ∀ e, Q e → Q' e) : p.Raises Q' := by
  induction p with
  | ret a => trivial
  | raise e => exact h e hp
  | exec s k ih => exact fun r => ih r (hp r)
  | fresh k ih => exact fun v => ih v (hp v)
  | savepoint k ih => exact ih hp
  | release k ih => exact ih hp
  | rollback k ih => exact ih hp

theorem Raises.elim {f : A → Prog S R D V E B} {h : E → Prog S R D V E B} (hp : p.Raises Q)
    (hf : ∀ a, (f a).Raises Q') (hh : ∀ e, Q e → (h e).Raises Q') : (p.elim f h).Raises Q' := by
  induction p with
  | ret a => exact hf a
  | raise e => exact hh e hp
  | exec s k ih => exact fun r => ih r (hp r)
  | fresh k ih => exact fun v => ih v (hp v)
  | savepoint k ih => exact ih hp
  | release k ih => exact ih hp
  | rollback k ih => exact ih hp

theorem Raises.bind {f : A → Prog S R D V E B} (hp : p.Raises Q) (hf : ∀ a, (f a).Raises Q) :
    (p >>= f).Raises Q :=
  hp.elim hf fun _ he => he

theorem Raises.atomic (hp : p.Raises Q) : p.atomic.Raises Q :=
  hp.elim (fun _ => trivial) fun _ he => he

theorem raises_execute {dbError : D → E} (h : ∀ d, Q (dbError d)) (s : S) :
    (execute dbError s : Prog S R D V E (R s)).Raises Q := by
  rintro (d | r)
  · exact h d
  · trivial

theorem raises_draw : (draw : Prog S R D V E V).Raises Q := fun _ => trivial

theorem raises_lift {x : Except E A} (h : ∀ e, x = .error e → Q e) : (lift x : Prog S R D V E A).Raises Q := by
  cases x with
  | ok a => trivial
  | error e => exact h e rfl

end Prog

end Txn
