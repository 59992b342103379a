import NetopsCopilot.Lib.Prog

/-!
# Programs confined to a part of a state

`Prog.eval` runs a program alone on a state. A `Confinement` names a part of the state, the statements that act
within it, what is known of their replies then, and the values that count as new. A program that only sends such
statements (`Prog.Confined`) gives the same result on the part alone as on the whole state, and its effect on the
part is the same (`Prog.Confined.eval_part`).
-/

namespace Txn

variable {S : Type} {R : S → Type} {D V E A B X : Type}

/-- The result of a program that runs alone, with the state it leaves. -/
def Prog.eval (exec : (s : S) → X → Except D (R s × X)) :
    Prog S R D V E A → (Nat → V) → X → List X → Except E A × X
  | .ret a, _, x, _ => (.ok a, x)
  | .raise e, _, x, _ => (.error e, x)
  | .exec s k, vs, x, saves =>
    match exec s x with
    | .ok (r, y) => (k (.ok r)).eval exec vs y saves
    | .error d => (k (.error d)).eval exec vs x saves
  | .fresh k, vs, x, saves => (k (vs 0)).eval exec (fun n => vs (n + 1)) x saves
  | .savepoint k, vs, x, saves => k.eval exec vs x (x :: saves)
  | .release k, vs, x, saves => k.eval exec vs x saves.tail
  | .rollback k, vs, x, saves => k.eval exec vs (saves.headD x) saves.tail

/-- A function of the result and of the exception leaves the state as it is. -/
theorem Prog.eval_bimap {exec : (s : S) → X → Except D (R s × X)} (p : Prog S R D V E A) (f : A → B) (g : E → E)
    (vs : Nat → V) (x : X) (saves : List X) :
    (p.elim (fun a => .ret (f a)) (fun e => .raise (g e)) : Prog S R D V E B).eval exec vs x saves =
      (((p.eval exec vs x saves).1.map f).mapError g, (p.eval exec vs x saves).2) := by
  induction p generalizing vs x saves with
  | ret a => rfl
  | raise e => rfl
  | exec s k ih =>
    rw [Prog.elim, Prog.eval, Prog.eval]
    cases exec s x with
    | ok q => exact ih _ _ _ _
    | error d => exact ih _ _ _ _
  | fresh k ih => exact ih _ _ _ _
  | savepoint k ih => exact ih _ _ _
  | release k ih => exact ih _ _ _
  | rollback k ih => exact ih _ _ _

/-- A program in a savepoint has the result that it has without it. -/
theorem Prog.eval_atomic_fst {exec : (s : S) → X → Except D (R s × X)} (p : Prog S R D V E A) (vs : Nat → V) (x : X)
    (saves : List X) : (p.atomic.eval exec vs x saves).1 = (p.eval exec vs x (x :: saves)).1 := by
  show ((p.elim _ _).eval exec vs x (x :: saves)).1 = _
  generalize x :: saves = saves
  induction p generalizing vs x saves with
  | ret a => rfl
  | raise e => rfl
  | exec s k ih =>
    rw [Prog.elim, Prog.eval, Prog.eval]
    cases exec s x with
    | ok q => exact ih _ _ _ _
    | error d => exact ih _ _ _ _
  | fresh k ih => exact ih _ _ _ _
  | savepoint k ih => exact ih _ _ _
  | release k ih => exact ih _ _ _
  | rollback k ih => exact ih _ _ _

/-- What is raised when the program runs alone. -/
theorem Prog.Raises.eval {exec : (s : S) → X → Except D (R s × X)} {Q : E → Prop} {p : Prog S R D V E A}
    (hp : p.Raises Q) {vs : Nat → V} {x : X} {saves : List X} {e : E} (h : (p.eval exec vs x saves).1 = .error e) :
    Q e := by
  induction p generalizing vs x saves with
  | ret a => cases h
  | raise e' =>
    cases h
    exact hp
  | exec s k ih =>
    rw [Prog.eval] at h
    cases hexec : exec s x with
    | ok q =>
      rw [hexec] at h
      exact ih _ (hp _) h
    | error d =>
      rw [hexec] at h
      exact ih _ (hp _) h
  | fresh k ih => exact ih _ (hp _) h
  | savepoint k ih => exact ih hp h
  | release k ih => exact ih hp h
  | rollback k ih => exact ih hp h

/-- A part of a state, and the statements that act within it. -/
structure Confinement (V : Type) (exec : (s : S) → X → Except D (R s × X)) where
  part : X → X
  inv : X → Prop
  clean : S → Prop
  known : (s : S) → R s → Prop
  fresh : V → Prop
  exec_part : ∀ {s x}, clean s → inv x → exec s (part x) = (exec s x).map fun p => (p.1, part p.2)
  exec_inv : ∀ {s x r y}, clean s → inv x → exec s x = .ok (r, y) → inv y ∧ known s r

namespace Prog

variable {exec : (s : S) → X → Except D (R s × X)} (c : Confinement V exec)

/-- Every statement of the program is clean, whatever it is answered and draws; `Q` holds of its result. -/
def Confined (Q : A → Prop) : Prog S R D V E A → Prop
  | .ret a => Q a
  | .raise _ => True
  | .exec s k => c.clean s ∧ (∀ r, c.known s r → (k (.ok r)).Confined Q) ∧ ∀ d, (k (.error d)).Confined Q
  | .fresh k => ∀ v, c.fresh v → (k v).Confined Q
  | .savepoint k | .release k | .rollback k => k.Confined Q

variable {c}

/-! ### Rules -/

theorem Confined.elim {Q : A → Prop} {Q' : B → Prop} {p : Prog S R D V E A} {f : A → Prog S R D V E B}
    {h : E → Prog S R D V E B} (hp : p.Confined c Q) (hf : ∀ a, Q a → (f a).Confined c Q')
    (hh : ∀ e, (h e).Confined c Q') : (p.elim f h).Confined c Q' := by
  induction p with
  | ret a => exact hf a hp
  | raise e => exact hh e
  | exec s k ih => exact ⟨hp.1, fun r hr => ih _ (hp.2.1 r hr), fun d => ih _ (hp.2.2 d)⟩
  | fresh k ih => exact fun v hv => ih v (hp v hv)
  | savepoint k ih => exact ih hp
  | release k ih => exact ih hp
  | rollback k ih => exact ih hp

theorem Confined.bind {Q : A → Prop} {Q' : B → Prop} {p : Prog S R D V E A} {f : A → Prog S R D V E B}
    (hp : p.Confined c Q) (hf : ∀ a, Q a → (f a).Confined c Q') : (p >>= f).Confined c Q' :=
  hp.elim hf fun _ => trivial

theorem Confined.atomic {Q : A → Prop} {p : Prog S R D V E A} (hp : p.Confined c Q) :
    p.atomic.Confined c Q :=
  hp.elim (fun _ ha => ha) fun _ => trivial

theorem Confined.mono {Q Q' : A → Prop} {p : Prog S R D V E A} (hp : p.Confined c Q) (h : ∀ a, Q a → Q' a) :
    p.Confined c Q' := by
  induction p with
  | ret a => exact h a hp
  | raise e => trivial
  | exec s k ih => exact ⟨hp.1, fun r hr => ih _ (hp.2.1 r hr), fun d => ih _ (hp.2.2 d)⟩
  | fresh k ih => exact fun v hv => ih v (hp v hv)
  | savepoint k ih => exact ih hp
  | release k ih => exact ih hp
  | rollback k ih => exact ih hp

theorem confined_execute {dbError : D → E} {s : S} (hs : c.clean s) :
    (execute dbError s : Prog S R D V E (R s)).Confined c (c.known s) :=
  ⟨hs, fun _ hr => hr, fun _ => trivial⟩

theorem confined_execute_bind {Q : A → Prop} {dbError : D → E} {s : S} {k : R s → Prog S R D V E A}
    (hs : c.clean s) (hk : ∀ r, c.known s r → (k r).Confined c Q) :
    ((execute dbError s : Prog S R D V E (R s)) >>= k).Confined c Q :=
  (confined_execute hs).bind hk

theorem confined_draw_bind {Q : A → Prop} {k : V → Prog S R D V E A}
    (hk : ∀ v, c.fresh v → (k v).Confined c Q) : ((draw : Prog S R D V E V) >>= k).Confined c Q := hk

theorem confined_lift {Q : A → Prop} {x : Except E A} (h : ∀ a, x = .ok a → Q a) :
    (lift x : Prog S R D V E A).Confined c Q := by
  cases x with
  | ok a => exact h a rfl
  | error e => trivial

/-! ### Runs -/

/-- **A confined program on the part** gives the same result and has the same effect on it. -/
theorem Confined.eval_part {Q : A → Prop} {p : Prog S R D V E A} (hp : p.Confined c Q) {vs : Nat → V}
    (hvs : ∀ n, c.fresh (vs n)) {x : X} (hx : c.inv x) (saves : List X) (hsaves : ∀ y ∈ saves, c.inv y) :
    p.eval exec vs (c.part x) (saves.map c.part) =
        ((p.eval exec vs x saves).1, c.part (p.eval exec vs x saves).2) ∧
      c.inv (p.eval exec vs x saves).2 := by
  induction p generalizing vs x saves with
  | ret a => exact ⟨rfl, hx⟩
  | raise e => exact ⟨rfl, hx⟩
  | exec s k ih =>
    obtain ⟨hs, hok, herror⟩ := hp
    simp only [eval, c.exec_part hs hx]
    cases hexec : exec s x with
    | error d => exact ih _ (herror d) hvs hx saves hsaves
    | ok q =>
      obtain ⟨hy, hr⟩ := c.exec_inv hs hx hexec
      exact ih _ (hok _ hr) hvs hy saves hsaves
  | fresh k ih => exact ih _ (hp _ (hvs 0)) (fun n => hvs (n + 1)) hx saves hsaves
  | savepoint k ih =>
    have hsaves' : ∀ y ∈ x :: saves, c.inv y := List.forall_mem_cons.mpr ⟨hx, hsaves⟩
    exact ih hp hvs hx (x :: saves) hsaves'
  | release k ih =>
    simp only [eval, ← List.map_tail]
    exact ih hp hvs hx saves.tail fun y hy => hsaves y (List.mem_of_mem_tail hy)
  | rollback k ih =>
    have hhead : (saves.map c.part).headD (c.part x) = c.part (saves.headD x) := by
      cases saves <;> rfl
    have hinv : c.inv (saves.headD x) := by
      cases saves with
      | nil => exact hx
      | cons y saves => exact hsaves y List.mem_cons_self
    simp only [eval, ← List.map_tail, hhead]
    exact ih hp hvs hinv saves.tail fun y hy => hsaves y (List.mem_of_mem_tail hy)

end Prog

end Txn
