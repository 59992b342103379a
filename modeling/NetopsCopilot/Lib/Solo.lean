import NetopsCopilot.Lib.ReadCommitted

/-!
# One client alone

`Prog.solo` runs a program against a committed state that nobody else changes: statements answer what
the store answers, values are drawn from a given list. `System.serial` runs commands one after the other,
each in a transaction of its own. Serial runs are runs of the system (`reachable_serial`), so what is
proved of every reachable state can be evaluated on one.
-/

namespace Txn

variable {S : Type} {R : S → Type} {D V E A W K Db C : Type}

namespace Prog

/-- The result of a program running alone, with the writes it leaves; `none` if it draws more values
than given. -/
def solo (σ : Store S R D W K Db) (db : Db) :
    Prog S R D V E A → List V → List W → List (List W) → Option (Except E A × List W)
  | .ret a, _, ps, _ => some (.ok a, ps)
  | .raise e, _, ps, _ => some (.error e, ps)
  | .exec s k, vs, ps, saves =>
    match σ.exec s (σ.applyAll ps db) with
    | .ok (r, ws) => (k (.ok r)).solo σ db vs (ps ++ ws) saves
    | .error d => (k (.error d)).solo σ db vs ps saves
  | .fresh _, [], _, _ => none
  | .fresh k, v :: vs, ps, saves => (k v).solo σ db vs ps saves
  | .savepoint k, vs, ps, saves => k.solo σ db vs ps (ps :: saves)
  | .release k, vs, ps, saves => k.solo σ db vs ps saves.tail
  | .rollback k, vs, _, saves => k.solo σ db vs (saves.headD []) saves.tail

/-- The result of a program without writes whose statements see one committed state each, the first one first; `none`
if it needs more of them. -/
def reading (σ : Store S R D W K Db) : Prog S R D V E A → List Db → Option (Except E A)
  | .ret a, _ => some (.ok a)
  | .raise e, _ => some (.error e)
  | .exec s k, db :: dbs => (k ((σ.exec s db).map Prod.fst)).reading σ dbs
  | _, _ => none

/-- A program that has ended. -/
def ended : Except E A → Prog S R D V E A
  | .ok a => .ret a
  | .error e => .raise e

end Prog

namespace System

variable (sys : System S R D V E A W K Db C)

/-- Client `0` alone, in a transaction of its own. -/
def alone (db : Db) (cl : Client S R D V E A W C) : State S R D V E A W Db C :=
  (initial db).set 0 cl

variable {sys}

theorem free_alone (db : Db) (cl : Client S R D V E A W C) (ws : List W) :
    sys.Free (alone db cl) 0 ws := by
  intro j hj
  simp [alone, State.set_client_ne _ hj, initial, List.Disjoint]

theorem set_alone (db : Db) (cl cl' : Client S R D V E A W C) :
    (alone db cl).set 0 cl' = alone db cl' := by
  simp [alone, State.set]

theorem client_alone (db : Db) (cl : Client S R D V E A W C) : (alone db cl).client 0 = cl := by
  simp [alone]

theorem alone_default (db : Db) :
    alone db ({} : Client S R D V E A W C) = initial (S := S) (R := R) (D := D) (V := V) (E := E)
      (A := A) (W := W) (C := C) db := by
  simp [alone, State.set, initial]

theorem commit_alone (db : Db) (cl : Client S R D V E A W C) :
    ({ committed := sys.view (alone db cl) 0
       client := Function.update (alone db cl).client 0 {} } : State S R D V E A W Db C) =
      initial (sys.store.applyAll cl.pending db) := by
  simp [alone, State.set, initial, view]

/-- A program that runs alone to its end takes its client there. -/
theorem steps_solo (sys : System S R D V E A W K Db C) {db : Db} (c : C) (mark : List W) {p : Prog S R D V E A} {vs : List V}
    {ps ps' : List W} {saves : List (List W)} {r : Except E A}
    (h : p.solo sys.store db vs ps saves = some (r, ps')) :
    ∃ saves', Relation.ReflTransGen sys.Step
      (alone db { pending := ps, mark := mark, saves := saves, running := some (c, p) })
      (alone db { pending := ps', mark := mark, saves := saves',
                  running := some (c, Prog.ended r) }) := by
  -- one step of the client, then the rest of its program
  have hstep : ∀ {cl cl' : Client S R D V E A W C},
      sys.Step (alone db cl) ((alone db cl).set 0 cl') →
      (∃ saves', Relation.ReflTransGen sys.Step (alone db cl')
        (alone db { pending := ps', mark := mark, saves := saves', running := some (c, Prog.ended r) })) →
      ∃ saves', Relation.ReflTransGen sys.Step (alone db cl)
        (alone db { pending := ps', mark := mark, saves := saves', running := some (c, Prog.ended r) }) := by
    rintro cl cl' hfirst ⟨saves', hrest⟩
    rw [set_alone] at hfirst
    exact ⟨saves', .head hfirst hrest⟩
  induction p generalizing vs ps saves with
  | ret a =>
    cases h
    exact ⟨saves, .refl⟩
  | raise e =>
    cases h
    exact ⟨saves, .refl⟩
  | exec s k ih =>
    simp only [Prog.solo] at h
    split at h
    next q ws hexec =>
      refine hstep ?_ (ih _ h)
      exact Step.exec 0 c s k q ws rfl hexec (free_alone db _ ws)
    next d hexec => exact hstep (Step.fail 0 c s k d rfl) (ih _ h)
  | fresh k ih =>
    cases vs with
    | nil => cases h
    | cons v vs => exact hstep (Step.fresh 0 c k v rfl) (ih v h)
  | savepoint k ih => exact hstep (Step.savepoint 0 c k rfl) (ih h)
  | release k ih => exact hstep (Step.release 0 c k rfl) (ih h)
  | rollback k ih => exact hstep (Step.rollback 0 c k rfl) (ih h)

/-- A command that client `0` runs alone from a committed state to its end. -/
theorem reachable_solo {db : Db} {c : C} {vs : List V} {r : Except E A} {ps : List W}
    (h : (sys.program c).solo sys.store db vs [] [] = some (r, ps)) :
    ∃ s, sys.Reachable db s ∧ (s.client 0).running = some (c, Prog.ended r) ∧
      (s.client 0).pending = ps := by
  obtain ⟨saves, hsteps⟩ := steps_solo sys c [] h
  have hstart : sys.Step (alone db {}) ((alone db {}).set 0
      { pending := [], mark := [], saves := [], running := some (c, sys.program c) }) :=
    Step.start 0 c rfl
  rw [set_alone, alone_default] at hstart
  refine ⟨_, .head hstart hsteps, ?_⟩
  rw [client_alone]
  exact ⟨rfl, rfl⟩

variable (sys) in
/-- Run commands one after the other, each with the values it draws; `none` when one does not commit. -/
def serial : List (C × List V) → Db → Option Db
  | [], db => some db
  | (c, vs) :: rest, db =>
    match (sys.program c).solo sys.store db vs [] [] with
    | some (r, ps) =>
      if sys.store.deferred (ps ++ sys.record c r) db then
        serial rest (sys.store.applyAll (ps ++ sys.record c r) db)
      else none
    | none => none

/-- **Serial runs are runs.** -/
theorem reachable_serial {commands : List (C × List V)} {db db' : Db}
    (h : sys.serial commands db = some db') :
    Relation.ReflTransGen sys.Step (initial db) (initial db') := by
  induction commands generalizing db with
  | nil =>
    cases h
    exact .refl
  | cons command rest ih =>
    obtain ⟨c, vs⟩ := command
    simp only [serial] at h
    split at h
    next r ps hsolo =>
      split_ifs at h with hdeferred
      refine .trans ?_ (ih h)
      obtain ⟨saves, hsteps⟩ := steps_solo sys c [] hsolo
      have hstart : sys.Step (alone db {}) ((alone db {}).set 0
          { pending := [], mark := [], saves := [], running := some (c, sys.program c) }) :=
        Step.start 0 c rfl
      have hfinish : sys.Step
          (alone db { pending := ps, mark := [], saves := saves, running := some (c, Prog.ended r) })
          ((alone db { pending := ps, mark := [], saves := saves,
                       running := some (c, Prog.ended r) }).set 0
            { pending := ps ++ sys.record c r, mark := [], saves := saves, running := none }) := by
        cases r with
        | ok a => exact Step.finish 0 c a rfl
        | error e => exact Step.finishRaised 0 c e rfl
      rw [set_alone] at hstart hfinish
      rw [← alone_default db]
      refine .head hstart (hsteps.trans (.head hfinish (.single ?_)))
      have hcommit : sys.Step (alone db { pending := ps ++ sys.record c r, saves := saves }) _ :=
        Step.commit 0 rfl hdeferred
      rwa [commit_alone] at hcommit
    next => cases h

end System

end Txn
