import Mathlib.Data.List.Forall2
import Mathlib.Data.List.Infix
import Mathlib.Data.List.ReduceOption
import Mathlib.Logic.Function.Basic

/-!
# Row security on pooled connections

A database of tables whose rows have owners. A role works on it through pooled connections: a transaction is opened
for an owner, or for nobody, and what the policies let a statement see is decided by a setting of the connection,
which is read at every statement and may be left over from an earlier transaction (`Binding`). Statements are
arbitrary functions of the rows they see. A transaction holds its changes until it commits; row locks are not
modelled, so that more interleavings are possible here than in the database.

`run_private`: whatever the other connections do, the transactions of one owner get the answers, and leave the rows,
of a run on a database that has no other rows and no other connections, where the store refuses the same statements
and commits. The transactions opened for nobody are the same with an empty database. `run_kept`: rows of a table
without the privilege to delete stay.
-/

namespace RowSecurity

/-! ### Changes -/

/-- The rows of each table. -/
abbrev Tables {T : Type} (Row : T → Type) : Type := (t : T) → List (Row t)

inductive Command where
  | insert | update | delete
deriving DecidableEq

/-- What a statement does to a row, which is found again by its owner and its key. -/
inductive Change {T : Type} (Row : T → Type) (O K : Type) where
  | insert (t : T) (row : Row t)
  | update (t : T) (owner : O) (key : K) (row : Row t)
  | delete (t : T) (owner : O) (key : K)

/-- Owners and keys of rows, the privileges of the role, and what else decides about changes. -/
structure Schema {T : Type} (Row : T → Type) (O K : Type) where
  owner : (t : T) → Row t → O
  key : (t : T) → Row t → K
  grants : T → Command → Bool
  /-- Whether the row triggers accept a row in place of another. -/
  updatable : (t : T) → Row t → Row t → Bool
  /-- The rows that go with a row, unless a trigger or a reference keeps it. The policies do not apply to them. -/
  cascade : Tables Row → (t : T) → Row t → Option (List ((t : T) × Row t))

section

variable {T : Type} {Row : T → Type} {O K : Type}

namespace Schema

variable (σ : Schema Row O K)

/-- The change is about rows of the owner. -/
def Owns (w : Option O) : Change Row O K → Prop
  | .insert t row => w = some (σ.owner t row)
  | .update t owner _ row => w = some owner ∧ σ.owner t row = owner
  | .delete _ owner _ => w = some owner

/-- The role has the privilege for the change. -/
def Granted : Change Row O K → Prop
  | .insert t _ => σ.grants t .insert = true
  | .update t _ _ _ => σ.grants t .update = true
  | .delete t _ _ => σ.grants t .delete = true

variable [DecidableEq O]

/-- The rows of an owner; nobody has no rows. -/
def part (w : Option O) (db : Tables Row) : Tables Row := fun t => (db t).filter fun r => decide (w = some (σ.owner t r))

/-- Cascades stay with the owner of the row, and with tables whose rows may be deleted. -/
structure Lawful : Prop where
  cascade_owner : ∀ {db t r rows}, σ.cascade db t r = some rows → ∀ x ∈ rows, σ.owner x.1 x.2 = σ.owner t r
  cascade_grants : ∀ {db t r rows}, σ.cascade db t r = some rows → ∀ x ∈ rows, σ.grants x.1 .delete = true
  cascade_part : ∀ db t r, σ.cascade (σ.part (some (σ.owner t r)) db) t r = σ.cascade db t r

variable [DecidableEq K]

/-- The row of a change. -/
def located (t : T) (owner : O) (key : K) (r : Row t) : Bool :=
  decide (σ.owner t r = owner) && decide (σ.key t r = key)

variable [DecidableEq T]

def apply (db : Tables Row) : Change Row O K → Tables Row
  | .insert t row => Function.update db t (db t ++ [row])
  | .update t owner key row => Function.update db t ((db t).map fun r => if σ.located t owner key r then row else r)
  | .delete t owner key => Function.update db t ((db t).filter fun r => !σ.located t owner key r)

def applyAll (changes : List (Change Row O K)) (db : Tables Row) : Tables Row := changes.foldl σ.apply db

end Schema

section

variable {σ : Schema Row O K} {w w' : Option O} {db : Tables Row}

/-- Nobody owns a change. -/
theorem eq_nil_of_owns_none {changes : List (Change Row O K)} (h : ∀ c ∈ changes, σ.Owns none c) : changes = [] := by
  refine List.eq_nil_iff_forall_not_mem.mpr fun c hc => ?_
  have hnone := h c hc
  cases c with
  | insert t row => cases hnone
  | update t owner key row => cases hnone.1
  | delete t owner key => cases hnone

/-- A row of a table without the privilege to delete keeps its place and its owner, and without the privilege to
update it stays as it is. -/
def Schema.Kept (σ : Schema Row O K) (db db' : Tables Row) : Prop :=
  ∀ t, σ.grants t .delete = false → ∀ (i : Nat) (r : Row t), (db t)[i]? = some r →
    ∃ r', (db' t)[i]? = some r' ∧ σ.owner t r' = σ.owner t r ∧ (σ.grants t .update = false → r' = r)

theorem Schema.Kept.trans {db₁ db₂ db₃ : Tables Row} (h : σ.Kept db₁ db₂) (h' : σ.Kept db₂ db₃) : σ.Kept db₁ db₃ := by
  intro t ht i r hr
  obtain ⟨r', hr', howner, hsame⟩ := h t ht i r hr
  obtain ⟨r'', hr'', howner', hsame'⟩ := h' t ht i r' hr'
  exact ⟨r'', hr'', howner'.trans howner, fun hu => (hsame' hu).trans (hsame hu)⟩

theorem Schema.Kept.refl (σ : Schema Row O K) (db : Tables Row) : σ.Kept db db :=
  fun _ _ _ r hr => ⟨r, hr, rfl, fun _ => rfl⟩

/-- Rows that only come at the end. -/
theorem Schema.Kept.prefix {db db' : Tables Row} (h : σ.Kept db db') {t : T} (hdelete : σ.grants t .delete = false)
    (hupdate : σ.grants t .update = false) : db t <+: db' t := by
  refine List.prefix_iff_getElem?.mpr fun i hi => ?_
  obtain ⟨r', hr', -, hsame⟩ := h t hdelete i _ (List.getElem?_eq_getElem hi)
  rw [hr', hsame hupdate]

theorem kept_update [DecidableEq T] {t : T} {rows : List (Row t)}
    (h : σ.grants t .delete = false → ∀ (i : Nat) (r : Row t), (db t)[i]? = some r → ∃ r', rows[i]? = some r' ∧
      σ.owner t r' = σ.owner t r ∧ (σ.grants t .update = false → r' = r)) :
    σ.Kept db (Function.update db t rows) := by
  intro u hu i r hr
  by_cases htu : u = t
  · subst htu
    rw [Function.update_self]
    exact h hu i r hr
  · rw [Function.update_of_ne htu]
    exact ⟨r, hr, rfl, fun _ => rfl⟩

variable [DecidableEq O]

theorem part_part (w : Option O) (db : Tables Row) : σ.part w (σ.part w db) = σ.part w db := by
  funext t
  simp [Schema.part]

theorem part_none (db : Tables Row) : σ.part none db = fun _ => [] := by
  funext t
  simp [Schema.part]

theorem mem_part {t : T} {r : Row t} : r ∈ σ.part w db t ↔ r ∈ db t ∧ w = some (σ.owner t r) := by
  rw [Schema.part, List.mem_filter, decide_eq_true_iff]

variable [DecidableEq T]

/-- A part of a database with one other table. -/
theorem part_update (w : Option O) (db : Tables Row) (t : T) (rows : List (Row t)) :
    σ.part w (Function.update db t rows) =
      Function.update (σ.part w db) t (rows.filter fun r => decide (w = some (σ.owner t r))) := by
  funext u
  by_cases hu : u = t
  · subst hu
    simp [Schema.part]
  · simp [Schema.part, hu]

variable [DecidableEq K]

theorem part_apply {c : Change Row O K} (hc : σ.Owns w c) : σ.part w (σ.apply db c) = σ.apply (σ.part w db) c := by
  cases c with
  | insert t row =>
    rw [Schema.Owns] at hc
    rw [Schema.apply, Schema.apply, part_update, List.filter_append]
    simp [hc, Schema.part]
  | update t owner key row =>
    obtain ⟨rfl, howner⟩ := hc
    rw [Schema.apply, Schema.apply, part_update, List.filter_map]
    congr 2
    refine List.filter_congr fun r _ => ?_
    by_cases hr : σ.located t owner key r = true
    · simp only [Schema.located, Bool.and_eq_true, decide_eq_true_iff] at hr
      simp [Schema.located, hr.1, hr.2, howner]
    · simp [hr]
  | delete t owner key =>
    rw [Schema.apply, Schema.apply, part_update, Schema.part, List.filter_filter, List.filter_filter]
    congr 2
    funext r
    exact Bool.and_comm _ _

theorem part_apply_other {c : Change Row O K} (hc : σ.Owns w c) (hw : w' ≠ w) :
    σ.part w' (σ.apply db c) = σ.part w' db := by
  cases c with
  | insert t row =>
    rw [Schema.Owns] at hc
    have hrow : decide (w' = some (σ.owner t row)) = false := by simpa [← hc] using hw
    rw [Schema.apply, part_update, List.filter_append, List.filter_cons_of_neg (by simp [hrow])]
    simp [Schema.part]
  | update t owner key row =>
    obtain ⟨rfl, howner⟩ := hc
    have hmap : ∀ r : Row t, decide (w' = some (σ.owner t r)) = true →
        (if σ.located t owner key r then row else r) = r := by
      intro r hr
      rw [decide_eq_true_iff] at hr
      rw [if_neg]
      intro hlocated
      rw [Schema.located, Bool.and_eq_true, decide_eq_true_iff] at hlocated
      exact hw (hlocated.1 ▸ hr)
    have hkeep : ((fun r => decide (w' = some (σ.owner t r))) ∘ fun r => if σ.located t owner key r then row else r) =
        fun r => decide (w' = some (σ.owner t r)) := by
      funext r
      by_cases hlocated : σ.located t owner key r = true
      · have hr : σ.owner t r = owner := by
          rw [Schema.located, Bool.and_eq_true, decide_eq_true_iff] at hlocated
          exact hlocated.1
        simp [hlocated, howner, hr]
      · simp [hlocated]
    rw [Schema.apply, part_update, List.filter_map, hkeep]
    have hsame : ((db t).filter fun r => decide (w' = some (σ.owner t r))).map
        (fun r => if σ.located t owner key r then row else r) =
        (db t).filter fun r => decide (w' = some (σ.owner t r)) :=
      (List.map_congr_left fun r hr => hmap r (List.mem_filter.mp hr).2).trans (List.map_id _)
    rw [hsame]
    exact Function.update_eq_self t (σ.part w' db)
  | delete t owner key =>
    rw [Schema.Owns] at hc
    have hsame : ((db t).filter fun r => !σ.located t owner key r).filter (fun r => decide (w' = some (σ.owner t r))) =
        (db t).filter fun r => decide (w' = some (σ.owner t r)) := by
      rw [List.filter_filter]
      refine List.filter_congr fun r _ => ?_
      by_cases hr : w' = some (σ.owner t r)
      · have hother : σ.owner t r ≠ owner := fun h => hw (by rw [hr, hc, h])
        simp [hr, Schema.located, hother]
      · simp [hr]
    rw [Schema.apply, part_update, hsame]
    exact Function.update_eq_self t (σ.part w' db)

theorem part_applyAll {changes : List (Change Row O K)} (h : ∀ c ∈ changes, σ.Owns w c) :
    σ.part w (σ.applyAll changes db) = σ.applyAll changes (σ.part w db) := by
  induction changes generalizing db with
  | nil => rfl
  | cons c changes ih =>
    obtain ⟨hc, hrest⟩ := List.forall_mem_cons.mp h
    show σ.part w (σ.applyAll changes (σ.apply db c)) = σ.applyAll changes (σ.apply (σ.part w db) c)
    rw [ih hrest, part_apply hc]

theorem part_applyAll_other {changes : List (Change Row O K)} (h : ∀ c ∈ changes, σ.Owns w c) (hw : w' ≠ w) :
    σ.part w' (σ.applyAll changes db) = σ.part w' db := by
  induction changes generalizing db with
  | nil => rfl
  | cons c changes ih =>
    obtain ⟨hc, hrest⟩ := List.forall_mem_cons.mp h
    show σ.part w' (σ.applyAll changes (σ.apply db c)) = _
    rw [ih hrest, part_apply_other hc hw]

theorem kept_apply {c : Change Row O K} (hc : σ.Owns w c) (hgranted : σ.Granted c) : σ.Kept db (σ.apply db c) := by
  cases c with
  | insert t row =>
    refine kept_update fun _ i r hr => ⟨r, ?_, rfl, fun _ => rfl⟩
    rw [List.getElem?_append_left (List.getElem?_eq_some_iff.mp hr).1, hr]
  | update t owner key row =>
    refine kept_update fun _ i r hr => ?_
    rw [List.getElem?_map, hr, Option.map_some]
    refine ⟨_, rfl, ?_, fun hu => absurd (hu.symm.trans hgranted) Bool.false_ne_true⟩
    split_ifs with hlocated
    · rw [Schema.located, Bool.and_eq_true, decide_eq_true_iff] at hlocated
      rw [hc.2, hlocated.1]
    · rfl
  | delete t owner key =>
    exact kept_update fun hd => absurd (hd.symm.trans hgranted) Bool.false_ne_true

theorem kept_applyAll {changes : List (Change Row O K)} (h : ∀ c ∈ changes, σ.Owns w c ∧ σ.Granted c) :
    σ.Kept db (σ.applyAll changes db) := by
  induction changes generalizing db with
  | nil => exact .refl σ db
  | cons c changes ih =>
    obtain ⟨⟨hc, hgranted⟩, hrest⟩ := List.forall_mem_cons.mp h
    exact (kept_apply hc hgranted).trans (ih hrest)

end

end

/-! ### Statements -/

section

/-- A statement: what it reads and writes may depend on every row it sees. -/
inductive Statement {T : Type} (Row : T → Type) (A : Type) where
  | select (query : Tables Row → A)
  | insert (t : T) (rows : Tables Row → List (Row t))
  | update (t : T) (edit : Tables Row → Row t → Option (Row t))
  | delete (t : T) (condition : Tables Row → Row t → Bool)

inductive Refusal where
  | privilege
  | policy
  /-- A trigger or a reference. -/
  | constraint
deriving DecidableEq

/-- What a statement returns: the result of a query, or the rows that it wrote or deleted. -/
inductive Reply {T : Type} (Row : T → Type) (A : Type) where
  | result (a : A)
  | affected (t : T) (rows : List (Row t))

variable {T : Type} {Row : T → Type} {O K A : Type} [DecidableEq O]

/-- A statement for `w`: it sees the rows of `w`, and may only write such rows. -/
def Schema.exec (σ : Schema Row O K) (w : Option O) (db : Tables Row) :
    Statement Row A → Except Refusal (Reply Row A × List (Change Row O K))
  | .select query => .ok (.result (query (σ.part w db)), [])
  | .insert t rows =>
    if σ.grants t .insert = false then .error .privilege
    else if (rows (σ.part w db)).all (fun r => decide (w = some (σ.owner t r))) then
      .ok (.affected t (rows (σ.part w db)), (rows (σ.part w db)).map (.insert t))
    else .error .policy
  | .update t edit =>
    let edits := (σ.part w db t).filterMap fun r => (edit (σ.part w db) r).map fun r' => (r, r')
    if σ.grants t .update = false then .error .privilege
    else if edits.all (fun e => σ.updatable t e.1 e.2) = false then .error .constraint
    else if edits.all (fun e => decide (w = some (σ.owner t e.2))) then
      .ok (.affected t (edits.map (·.2)), edits.map fun e => .update t (σ.owner t e.1) (σ.key t e.1) e.2)
    else .error .policy
  | .delete t condition =>
    let condemned := (σ.part w db t).filter (condition (σ.part w db))
    let gone := condemned.map (σ.cascade db t)
    if σ.grants t .delete = false then .error .privilege
    else if gone.all Option.isSome then
      .ok (.affected t condemned, (condemned.map fun r => Change.delete t (σ.owner t r) (σ.key t r)) ++
        gone.reduceOption.flatten.map fun x => Change.delete x.1 (σ.owner x.1 x.2) (σ.key x.1 x.2))
    else .error .constraint

variable {σ : Schema Row O K} {w : Option O} {db : Tables Row} {statement : Statement Row A}
  {reply : Reply Row A} {changes : List (Change Row O K)}

/-- A statement for `w` works on the rows of `w` alone. -/
theorem exec_part (hσ : σ.Lawful) : σ.exec w (σ.part w db) statement = σ.exec w db statement := by
  cases statement with
  | select query => simp only [Schema.exec, part_part]
  | insert t rows => simp only [Schema.exec, part_part]
  | update t edit => simp only [Schema.exec, part_part]
  | delete t condition =>
    have hcascade : ∀ r ∈ (σ.part w db t).filter (condition (σ.part w db)),
        σ.cascade (σ.part w db) t r = σ.cascade db t r := by
      intro r hr
      rw [(mem_part.mp (List.mem_filter.mp hr).1).2]
      exact hσ.cascade_part db t r
    simp only [Schema.exec, part_part, List.map_congr_left hcascade]

/-- What a successful statement writes: rows of `w`, under the privileges of the role. -/
theorem exec_owns (hσ : σ.Lawful) (h : σ.exec w db statement = .ok (reply, changes)) :
    ∀ c ∈ changes, σ.Owns w c ∧ σ.Granted c := by
  intro c hc
  cases statement with
  | select query =>
    cases h
    cases hc
  | insert t rows =>
    simp only [Schema.exec] at h
    split_ifs at h with hgrants hall
    cases h
    obtain ⟨r, hr, rfl⟩ := List.mem_map.mp hc
    have hrow : w = some (σ.owner t r) := by simpa using List.all_eq_true.mp hall r hr
    exact ⟨hrow, (Bool.not_eq_false _).mp hgrants⟩
  | update t edit =>
    simp only [Schema.exec] at h
    split_ifs at h with hgrants htriggers hall
    cases h
    obtain ⟨e, he, rfl⟩ := List.mem_map.mp hc
    have hnew : w = some (σ.owner t e.2) := by simpa using List.all_eq_true.mp hall e he
    obtain ⟨r, hr, hedit⟩ := List.mem_filterMap.mp he
    obtain ⟨r', -, rfl⟩ := Option.map_eq_some_iff.mp hedit
    have hold := (mem_part.mp hr).2
    exact ⟨⟨hold, Option.some.inj (hnew.symm.trans hold)⟩, (Bool.not_eq_false _).mp hgrants⟩
  | delete t condition =>
    simp only [Schema.exec] at h
    split_ifs at h with hgrants hall
    cases h
    have hown : ∀ r ∈ (σ.part w db t).filter (condition (σ.part w db)), w = some (σ.owner t r) :=
      fun r hr => (mem_part.mp (List.mem_filter.mp hr).1).2
    rcases List.mem_append.mp hc with hc | hc
    · obtain ⟨r, hr, rfl⟩ := List.mem_map.mp hc
      exact ⟨hown r hr, (Bool.not_eq_false _).mp hgrants⟩
    · obtain ⟨x, hx, rfl⟩ := List.mem_map.mp hc
      obtain ⟨rows, hrows, hx⟩ := List.mem_flatten.mp hx
      obtain ⟨r, hr, hgone⟩ := List.mem_map.mp (List.reduceOption_mem_iff.mp hrows)
      exact ⟨by rw [Schema.Owns, hσ.cascade_owner hgone x hx, hown r hr], hσ.cascade_grants hgone x hx⟩

end

/-! ### Transactions -/

/-- How the setting of a connection names an owner: before it was ever set, behind a transaction that had set it, and
when a transaction is opened for an owner, which may turn out not to have set it. -/
structure Binding (V O : Type) where
  unset : V
  ended : V
  enter : O → V → Option V
  current : V → Option O
  current_unset : current unset = none
  current_ended : current ended = none
  current_enter : ∀ {o v v'}, enter o v = some v' → current v' = some o
  enter_const : ∀ o v v', enter o v = enter o v'

/-- A transaction under way: whom it was opened for, and the setting that holds until it ends. -/
structure Transaction {T : Type} (Row : T → Type) (O K V : Type) where
  opened : Option O
  localSetting : Option V := none
  pending : List (Change Row O K) := []
  savepoints : List (List (Change Row O K)) := []
  aborted : Bool := false

/-- What is sent to a connection with a transaction. The store may refuse a statement or a commit for reasons that
are not computed here; a constraint may refuse it for a row that it does not see. -/
inductive Action {T : Type} (Row : T → Type) (A : Type) where
  | execute (statement : Statement Row A) (fails : Bool)
  | savepoint
  | release
  | rollbackTo
  | commit (fails : Bool)
  | rollback

inductive Answer {T : Type} (Row : T → Type) (A : Type) where
  /-- A transaction is opened, or its setting turns out to be another one. -/
  | opened
  | mismatch
  | reply (reply : Reply Row A)
  | refused (why : Refusal)
  | failed
  /-- The transaction takes no statement before a rollback. -/
  | aborted
  | done
  | committed
  | rolledBack

section

variable {T : Type} {Row : T → Type} {O K A V : Type} [DecidableEq T] [DecidableEq O] [DecidableEq K]

/-- An action while the setting names `current`: its answer, the committed rows behind it, and the transaction unless
it has ended. -/
def Transaction.perform (σ : Schema Row O K) (current : Option O) (db : Tables Row) (tx : Transaction Row O K V) :
    Action Row A → Answer Row A × Tables Row × Option (Transaction Row O K V)
  | .rollback => (.rolledBack, db, none)
  | .commit fails =>
    if tx.aborted || fails then (.rolledBack, db, none) else (.committed, σ.applyAll tx.pending db, none)
  | .rollbackTo =>
    match tx.savepoints with
    | [] => (.failed, db, some { tx with aborted := true })
    | saved :: _ => (.done, db, some { tx with pending := saved, aborted := false })
  | .savepoint =>
    if tx.aborted then (.aborted, db, some tx)
    else (.done, db, some { tx with savepoints := tx.pending :: tx.savepoints })
  | .release =>
    if tx.aborted then (.aborted, db, some tx)
    else match tx.savepoints with
      | [] => (.failed, db, some { tx with aborted := true })
      | _ :: rest => (.done, db, some { tx with savepoints := rest })
  | .execute statement fails =>
    if tx.aborted then (.aborted, db, some tx)
    else if fails then (.failed, db, some { tx with aborted := true })
    else match σ.exec current (σ.applyAll tx.pending db) statement with
      | .ok (reply, changes) => (.reply reply, db, some { tx with pending := tx.pending ++ changes })
      | .error why => (.refused why, db, some { tx with aborted := true })

/-- The changes are about rows of the owner that the transaction was opened for. -/
structure Transaction.Owned (σ : Schema Row O K) (tx : Transaction Row O K V) : Prop where
  pending : ∀ c ∈ tx.pending, σ.Owns tx.opened c ∧ σ.Granted c
  savepoints : ∀ saved ∈ tx.savepoints, ∀ c ∈ saved, σ.Owns tx.opened c ∧ σ.Granted c

variable {σ : Schema Row O K} {db : Tables Row} {tx tx' : Transaction Row O K V} {action : Action Row A}
  {w current : Option O}

/-- What an action does to a transaction that goes on. -/
theorem perform_owned (hσ : σ.Lawful) (h : tx.Owned σ) (htx : (tx.perform σ tx.opened db action).2.2 = some tx') :
    tx'.Owned σ ∧ tx'.opened = tx.opened ∧ tx'.localSetting = tx.localSetting := by
  cases action with
  | rollback => cases htx
  | commit fails =>
    simp only [Transaction.perform] at htx
    split_ifs at htx
  | rollbackTo =>
    simp only [Transaction.perform] at htx
    split at htx
    · cases htx
      exact ⟨⟨h.pending, h.savepoints⟩, rfl, rfl⟩
    next saved rest hsaved =>
      cases htx
      exact ⟨⟨h.savepoints saved (hsaved ▸ List.mem_cons_self), h.savepoints⟩, rfl, rfl⟩
  | savepoint =>
    simp only [Transaction.perform] at htx
    split_ifs at htx
    · cases htx
      exact ⟨h, rfl, rfl⟩
    · cases htx
      exact ⟨⟨h.pending, List.forall_mem_cons.mpr ⟨h.pending, h.savepoints⟩⟩, rfl, rfl⟩
  | release =>
    simp only [Transaction.perform] at htx
    split_ifs at htx
    · cases htx
      exact ⟨h, rfl, rfl⟩
    · split at htx
      · cases htx
        exact ⟨⟨h.pending, h.savepoints⟩, rfl, rfl⟩
      next saved rest hsaved =>
        cases htx
        exact ⟨⟨h.pending, fun s hs => h.savepoints s (hsaved ▸ List.mem_cons_of_mem _ hs)⟩, rfl, rfl⟩
  | execute statement fails =>
    simp only [Transaction.perform] at htx
    split_ifs at htx
    · cases htx
      exact ⟨h, rfl, rfl⟩
    · cases htx
      exact ⟨⟨h.pending, h.savepoints⟩, rfl, rfl⟩
    · split at htx
      next reply changes hexec =>
        cases htx
        exact ⟨⟨List.forall_mem_append.mpr ⟨h.pending, exec_owns hσ hexec⟩, h.savepoints⟩, rfl, rfl⟩
      · cases htx
        exact ⟨⟨h.pending, h.savepoints⟩, rfl, rfl⟩

/-- The committed rows behind an action: as before, or with the changes of the transaction. -/
theorem perform_tables (σ : Schema Row O K) (current : Option O) (db : Tables Row) (tx : Transaction Row O K V)
    (action : Action Row A) : (tx.perform σ current db action).2.1 = db ∨
      (tx.perform σ current db action).2.1 = σ.applyAll tx.pending db := by
  cases action with
  | rollback => exact .inl rfl
  | commit fails =>
    simp only [Transaction.perform]
    split_ifs
    · exact .inl rfl
    · exact .inr rfl
  | rollbackTo =>
    simp only [Transaction.perform]
    split <;> exact .inl rfl
  | savepoint =>
    simp only [Transaction.perform]
    split_ifs <;> exact .inl rfl
  | release =>
    simp only [Transaction.perform]
    split_ifs
    · exact .inl rfl
    · split <;> exact .inl rfl
  | execute statement fails =>
    simp only [Transaction.perform]
    split_ifs
    · exact .inl rfl
    · exact .inl rfl
    · split <;> exact .inl rfl

/-- An action on the rows of the transaction's owner alone. -/
theorem perform_part (hσ : σ.Lawful) (h : tx.Owned σ) :
    tx.perform σ tx.opened (σ.part tx.opened db) action = ((tx.perform σ tx.opened db action).1,
      σ.part tx.opened (tx.perform σ tx.opened db action).2.1, (tx.perform σ tx.opened db action).2.2) := by
  have hview : σ.applyAll tx.pending (σ.part tx.opened db) = σ.part tx.opened (σ.applyAll tx.pending db) :=
    (part_applyAll fun c hc => (h.pending c hc).1).symm
  cases action with
  | rollback => rfl
  | commit fails =>
    simp only [Transaction.perform, hview]
    split_ifs <;> rfl
  | rollbackTo =>
    simp only [Transaction.perform]
    split <;> rfl
  | savepoint =>
    simp only [Transaction.perform]
    split_ifs <;> rfl
  | release =>
    simp only [Transaction.perform]
    split_ifs
    · rfl
    · split <;> rfl
  | execute statement fails =>
    simp only [Transaction.perform, hview, exec_part hσ]
    split_ifs
    · rfl
    · rfl
    · split <;> rfl

/-- The rows of other owners stay. -/
theorem perform_other (h : tx.Owned σ) (hw : w ≠ tx.opened) :
    σ.part w (tx.perform σ current db action).2.1 = σ.part w db := by
  rcases perform_tables σ current db tx action with htables | htables
  · rw [htables]
  · rw [htables, part_applyAll_other (fun c hc => (h.pending c hc).1) hw]

end

/-! ### Connections -/

/-- A connection of the pool: its setting outside transactions, and the transaction under way. -/
structure Session {T : Type} (Row : T → Type) (O K V : Type) where
  setting : V
  transaction : Option (Transaction Row O K V) := none

structure Server {T : Type} (Row : T → Type) (O K V C : Type) where
  tables : Tables Row
  sessions : C → Session Row O K V

/-- What happens to a connection: a transaction is opened, for an owner or for nobody, or it goes on. -/
inductive Event {T : Type} (Row : T → Type) (O A : Type) where
  | enter (w : Option O)
  | act (action : Action Row A)

/-- What is seen at a connection, with whom its transaction is for. -/
structure Observation {T : Type} (Row : T → Type) (O A C : Type) where
  opened : Option O
  connection : C
  event : Event Row O A
  answer : Answer Row A

section

variable {T : Type} {Row : T → Type} {O K A V C : Type}

namespace Server

variable (β : Binding V O) (s : Server Row O K V C) (c : C)

/-- No connection has been used yet. -/
def start (db : Tables Row) : Server Row O K V C := ⟨db, fun _ => { setting := β.unset }⟩

/-- The setting of a connection behind a transaction. -/
def endedSetting (tx : Transaction Row O K V) : V :=
  if tx.localSetting.isSome then β.ended else (s.sessions c).setting

variable [DecidableEq C]

def set (tables : Tables Row) (session : Session Row O K V) : Server Row O K V C :=
  ⟨tables, Function.update s.sessions c session⟩

variable [DecidableEq T] [DecidableEq O] [DecidableEq K] (σ : Schema Row O K)

/-- An event at a connection; only a connection without a transaction is taken from the pool. -/
def step : Event Row O A → Option (Observation Row O A C × Server Row O K V C)
  | .enter w =>
    match (s.sessions c).transaction, w with
    | some _, _ => none
    | none, none => some (⟨none, c, .enter none, .opened⟩,
        s.set c s.tables ⟨(s.sessions c).setting, some { opened := none }⟩)
    | none, some o =>
      match β.enter o (s.sessions c).setting with
      | none => some (⟨some o, c, .enter (some o), .mismatch⟩, s.set c s.tables ⟨β.ended, none⟩)
      | some v => some (⟨some o, c, .enter (some o), .opened⟩,
          s.set c s.tables ⟨(s.sessions c).setting, some { opened := some o, localSetting := some v }⟩)
  | .act action =>
    match (s.sessions c).transaction with
    | none => none
    | some tx =>
      let (answer, tables, next) := tx.perform σ (β.current (tx.localSetting.getD (s.sessions c).setting)) s.tables action
      some (⟨tx.opened, c, .act action, answer⟩, s.set c tables
        (match next with
        | some tx' => ⟨(s.sessions c).setting, some tx'⟩
        | none => ⟨s.endedSetting β c tx, none⟩))

/-- Events at connections, in the order in which they happen. -/
def run : Server Row O K V C → List (C × Event Row O A) → Option (List (Observation Row O A C) × Server Row O K V C)
  | s, [] => some ([], s)
  | s, e :: events =>
    match s.step β e.1 σ e.2 with
    | none => none
    | some (seen, s) => (run s events).map fun rest => (seen :: rest.1, rest.2)

end Server

/-- The events behind observations. -/
def Observation.at (x : Observation Row O A C) : C × Event Row O A := (x.connection, x.event)

/-- What is seen by the transactions of `w`. -/
def seenBy [DecidableEq O] (w : Option O) (seen : List (Observation Row O A C)) : List (Observation Row O A C) :=
  seen.filter fun x => decide (x.opened = w)

/-- The transaction of `w` at a connection. -/
def Server.transactionOf [DecidableEq O] (w : Option O) (s : Server Row O K V C) (c : C) : Option (Transaction Row O K V) :=
  (s.sessions c).transaction.filter fun tx => decide (tx.opened = w)

/-- `q` has the rows and the transactions of `w`, and no others. -/
structure Private [DecidableEq O] (σ : Schema Row O K) (w : Option O) (s q : Server Row O K V C) : Prop where
  tables : q.tables = σ.part w s.tables
  transactions : ∀ c, (q.sessions c).transaction = s.transactionOf w c

/-- No connection names an owner outside a transaction, and transactions are bound. -/
structure Server.Sound (σ : Schema Row O K) (β : Binding V O) (s : Server Row O K V C) : Prop where
  idle : ∀ c, β.current (s.sessions c).setting = none
  bound : ∀ c tx, (s.sessions c).transaction = some tx →
    β.current (tx.localSetting.getD (s.sessions c).setting) = tx.opened ∧ tx.Owned σ

variable {σ : Schema Row O K} {β : Binding V O} {s s' : Server Row O K V C} {c : C} {event : Event Row O A}
  {seen : Observation Row O A C}

theorem transactionOf_set [DecidableEq O] [DecidableEq C] (w : Option O) (s : Server Row O K V C) (c d : C) (tables : Tables Row)
    (session : Session Row O K V) : (s.set c tables session).transactionOf w d =
      if d = c then session.transaction.filter (fun tx => decide (tx.opened = w)) else s.transactionOf w d := by
  by_cases hd : d = c
  · simp [Server.transactionOf, Server.set, hd]
  · simp [Server.transactionOf, Server.set, hd]

theorem start_private [DecidableEq O] (w : Option O) (db : Tables Row) :
    Private σ w (Server.start β db : Server Row O K V C) (Server.start β (σ.part w db)) :=
  ⟨rfl, fun _ => rfl⟩

theorem start_sound (db : Tables Row) : (Server.start β db : Server Row O K V C).Sound σ β :=
  ⟨fun _ => β.current_unset, fun _ _ h => by cases h⟩

/-- A change at one connection on both sides. -/
theorem Private.set [DecidableEq O] [DecidableEq C] {w : Option O} {q : Server Row O K V C}
    (h : Private σ w s q) {tables tables' : Tables Row} {session session' : Session Row O K V}
    (htables : tables' = σ.part w tables)
    (hsession : session'.transaction = session.transaction.filter fun tx => decide (tx.opened = w)) :
    Private σ w (s.set c tables session) (q.set c tables' session') := by
  refine ⟨htables, fun d => ?_⟩
  rw [transactionOf_set]
  by_cases hd : d = c
  · rw [if_pos hd, ← hsession, hd]
    simp [Server.set]
  · rw [if_neg hd, ← h.transactions d]
    simp [Server.set, hd]

/-- A change at a connection that is not for `w`. -/
theorem Private.set_other [DecidableEq O] [DecidableEq C] {w : Option O} {q : Server Row O K V C}
    (h : Private σ w s q) (hfree : s.transactionOf w c = none) {tables : Tables Row} {session : Session Row O K V}
    (htables : σ.part w tables = σ.part w s.tables)
    (hsession : ∀ tx, session.transaction = some tx → tx.opened ≠ w) : Private σ w (s.set c tables session) q := by
  refine ⟨h.tables.trans htables.symm, fun d => ?_⟩
  rw [transactionOf_set, h.transactions d]
  by_cases hd : d = c
  · rw [if_pos hd, hd, hfree]
    refine (Option.filter_eq_none_iff.mpr fun tx htx => ?_).symm
    simpa using hsession tx htx
  · rw [if_neg hd]

/-- A transaction that has just been opened. -/
theorem owned_enter (w : Option O) (v : Option V) : Transaction.Owned σ { opened := w, localSetting := v } :=
  ⟨fun _ hc => absurd hc List.not_mem_nil, fun _ hc => absurd hc List.not_mem_nil⟩

theorem endedSetting_idle (hs : s.Sound σ β) (tx : Transaction Row O K V) :
    β.current (s.endedSetting β c tx) = none := by
  unfold Server.endedSetting
  split_ifs
  · exact β.current_ended
  · exact hs.idle c

variable [DecidableEq C]

theorem set_sound (hs : s.Sound σ β) (tables : Tables Row) {session : Session Row O K V}
    (hidle : β.current session.setting = none) (hbound : ∀ tx, session.transaction = some tx →
      β.current (tx.localSetting.getD session.setting) = tx.opened ∧ tx.Owned σ) :
    (s.set c tables session).Sound σ β := by
  constructor
  · intro d
    by_cases hd : d = c
    · simpa [Server.set, hd] using hidle
    · simpa [Server.set, hd] using hs.idle d
  · intro d tx htx
    by_cases hd : d = c
    · subst hd
      simpa [Server.set] using hbound tx (by simpa [Server.set] using htx)
    · simpa [Server.set, hd] using hs.bound d tx (by simpa [Server.set, hd] using htx)

variable [DecidableEq T] [DecidableEq O] [DecidableEq K]

variable (σ β s c) in
/-- What a step can be, with what is seen of it and the server behind it. -/
inductive Server.Stepped : Event Row O A → Observation Row O A C → Server Row O K V C → Prop
  | nobody (hfree : (s.sessions c).transaction = none) :
    Stepped (.enter none) ⟨none, c, .enter none, .opened⟩
      (s.set c s.tables ⟨(s.sessions c).setting, some { opened := none }⟩)
  | mismatch (o : O) (hfree : (s.sessions c).transaction = none) (henter : β.enter o (s.sessions c).setting = none) :
    Stepped (.enter (some o)) ⟨some o, c, .enter (some o), .mismatch⟩ (s.set c s.tables ⟨β.ended, none⟩)
  | opened (o : O) (v : V) (hfree : (s.sessions c).transaction = none)
    (henter : β.enter o (s.sessions c).setting = some v) :
    Stepped (.enter (some o)) ⟨some o, c, .enter (some o), .opened⟩
      (s.set c s.tables ⟨(s.sessions c).setting, some { opened := some o, localSetting := some v }⟩)
  | performed (action : Action Row A) (tx : Transaction Row O K V) (htx : (s.sessions c).transaction = some tx)
    (result : Answer Row A × Tables Row × Option (Transaction Row O K V))
    (hperform : tx.perform σ (β.current (tx.localSetting.getD (s.sessions c).setting)) s.tables action = result) :
    Stepped (.act action) ⟨tx.opened, c, .act action, result.1⟩ (s.set c result.2.1 (match result.2.2 with
      | some tx' => ⟨(s.sessions c).setting, some tx'⟩
      | none => ⟨s.endedSetting β c tx, none⟩))

theorem step_cases (h : s.step β c σ event = some (seen, s')) : s.Stepped σ β c event seen s' := by
  cases event with
  | enter w =>
    simp only [Server.step] at h
    split at h
    · cases h
    next hfree =>
      cases h
      exact .nobody hfree
    next o hfree =>
      split at h
      next henter =>
        cases h
        exact .mismatch o hfree henter
      next v henter =>
        cases h
        exact .opened o v hfree henter
  | act action =>
    simp only [Server.step] at h
    split at h
    · cases h
    next tx htx =>
      cases h
      exact .performed action tx htx _ rfl

theorem step_sound (hσ : σ.Lawful) (hs : s.Sound σ β) (h : s.step β c σ event = some (seen, s')) : s'.Sound σ β := by
  cases step_cases h with
  | nobody hfree =>
    refine set_sound hs _ (hs.idle c) fun tx htx => ?_
    cases htx
    exact ⟨hs.idle c, owned_enter _ _⟩
  | mismatch o hfree henter => exact set_sound hs _ β.current_ended fun _ htx => by cases htx
  | opened o v hfree henter =>
    refine set_sound hs _ (hs.idle c) fun tx htx => ?_
    cases htx
    exact ⟨β.current_enter henter, owned_enter _ _⟩
  | performed action tx htx result hperform =>
    obtain ⟨hcurrent, howned⟩ := hs.bound c tx htx
    rw [hcurrent] at hperform
    subst hperform
    refine set_sound hs _ ?_ ?_
    · split
      · exact hs.idle c
      · exact endedSetting_idle hs tx
    · intro tx' htx'
      split at htx'
      next tx'' hnext =>
        cases htx'
        obtain ⟨howned', hopened, hlocal⟩ := perform_owned hσ howned hnext
        dsimp only
        rw [hlocal, hopened]
        exact ⟨hcurrent, howned'⟩
      · cases htx'

/-! ### A private database -/

variable {w : Option O} {q : Server Row O K V C}

/-- What happens at a connection that is not for `w` is not noticed. -/
theorem step_other (hσ : σ.Lawful) (hs : s.Sound σ β) (h : s.step β c σ event = some (seen, s'))
    (hw : seen.opened ≠ w) (hq : Private σ w s q) : Private σ w s' q := by
  have hnone : (s.sessions c).transaction = none → s.transactionOf w c = none := by
    intro hfree
    simp [Server.transactionOf, hfree]
  cases step_cases h with
  | nobody hfree =>
    refine hq.set_other (hnone hfree) rfl fun tx htx => ?_
    cases htx
    exact hw
  | mismatch o hfree henter => exact hq.set_other (hnone hfree) rfl fun _ htx => by cases htx
  | opened o v hfree henter =>
    refine hq.set_other (hnone hfree) rfl fun tx htx => ?_
    cases htx
    exact hw
  | performed action tx htx result hperform =>
    obtain ⟨hcurrent, howned⟩ := hs.bound c tx htx
    rw [hcurrent] at hperform
    subst hperform
    have hfree : s.transactionOf w c = none := by
      rw [Server.transactionOf, htx]
      simpa [Option.filter] using hw
    refine hq.set_other hfree (perform_other howned (Ne.symm hw)) fun tx' htx' => ?_
    split at htx'
    next tx'' hnext =>
      cases htx'
      rw [(perform_owned hσ howned hnext).2.1]
      exact hw
    · cases htx'

/-- What happens at a connection of `w` happens in the private database. -/
theorem step_own (hσ : σ.Lawful) (hs : s.Sound σ β) (hsound : q.Sound σ β)
    (h : s.step β c σ event = some (seen, s')) (hq : Private σ seen.opened s q) :
    ∃ q', q.step β c σ event = some (seen, q') ∧ Private σ seen.opened s' q' := by
  have hnone : (s.sessions c).transaction = none → (q.sessions c).transaction = none := by
    intro hfree
    simp [hq.transactions, Server.transactionOf, hfree]
  cases step_cases h with
  | nobody hfree =>
    simp only [Server.step, hnone hfree]
    exact ⟨_, rfl, hq.set hq.tables rfl⟩
  | mismatch o hfree henter =>
    simp only [Server.step, hnone hfree, β.enter_const o (q.sessions c).setting (s.sessions c).setting, henter]
    exact ⟨_, rfl, hq.set hq.tables rfl⟩
  | opened o v hfree henter =>
    simp only [Server.step, hnone hfree, β.enter_const o (q.sessions c).setting (s.sessions c).setting, henter]
    exact ⟨_, rfl, hq.set hq.tables (by simp [Option.filter])⟩
  | performed action tx htx result hperform =>
    obtain ⟨hcurrent, howned⟩ := hs.bound c tx htx
    rw [hcurrent] at hperform
    subst hperform
    have htx' : (q.sessions c).transaction = some tx := by
      rw [hq.transactions, Server.transactionOf, htx]
      simp
    simp only [Server.step, htx']
    rw [(hsound.bound c tx htx').1, hq.tables, perform_part hσ howned]
    refine ⟨_, rfl, hq.set rfl ?_⟩
    cases hnext : (tx.perform σ tx.opened s.tables action).2.2 with
    | none => rfl
    | some tx'' =>
      have hopened := (perform_owned hσ howned hnext).2.1
      simp [Option.filter, hopened]

theorem step_at (h : s.step β c σ event = some (seen, s')) : seen.at = (c, event) := by
  cases step_cases h <;> rfl

/-- The first event of a run. -/
theorem run_cons {e : C × Event Row O A} {events : List (C × Event Row O A)} {all : List (Observation Row O A C)}
    (h : s.run β σ (e :: events) = some (all, s')) : ∃ seen s₁ rest, s.step β e.1 σ e.2 = some (seen, s₁) ∧
      s₁.run β σ events = some (rest, s') ∧ all = seen :: rest := by
  rw [Server.run] at h
  split at h
  · cases h
  next seen s₁ hstep =>
    obtain ⟨⟨rest, s₂⟩, hrest, heq⟩ := Option.map_eq_some_iff.mp h
    cases heq
    exact ⟨seen, s₁, rest, hstep, hrest, rfl⟩

/-- A run that starts at a private database of `w` shows what `w` sees. -/
theorem run_private (hσ : σ.Lawful) {events : List (C × Event Row O A)} {all : List (Observation Row O A C)}
    (hs : s.Sound σ β) (hsound : q.Sound σ β) (hq : Private σ w s q)
    (h : s.run β σ events = some (all, s')) :
    ∃ q', q.run β σ ((seenBy w all).map Observation.at) = some (seenBy w all, q') ∧ Private σ w s' q' := by
  induction events generalizing s q all with
  | nil =>
    cases h
    exact ⟨q, rfl, hq⟩
  | cons e events ih =>
    obtain ⟨seen, s₁, rest, hstep, hrest, rfl⟩ := run_cons h
    have hs₁ := step_sound hσ hs hstep
    by_cases hw : seen.opened = w
    · subst hw
      obtain ⟨q₁, hown, hq₁⟩ := step_own hσ hs hsound hstep hq
      obtain ⟨q', hrun, hq'⟩ := ih hs₁ (step_sound hσ hsound hown) hq₁ hrest
      refine ⟨q', ?_, hq'⟩
      have hkeep : seenBy seen.opened (seen :: rest) = seen :: seenBy seen.opened rest := by
        simp [seenBy]
      simp only [hkeep, List.map_cons, step_at hstep, Server.run, hown, hrun, Option.map_some]
    · obtain ⟨q', hrun, hq'⟩ := ih hs₁ hsound (step_other hσ hs hstep hw hq) hrest
      refine ⟨q', ?_, hq'⟩
      rw [seenBy, List.filter_cons_of_neg (by simpa using hw)]
      exact hrun

theorem run_sound (hσ : σ.Lawful) {events : List (C × Event Row O A)} {all : List (Observation Row O A C)}
    (hs : s.Sound σ β) (h : s.run β σ events = some (all, s')) : s'.Sound σ β := by
  induction events generalizing s all with
  | nil =>
    cases h
    exact hs
  | cons e events ih =>
    obtain ⟨seen, s₁, rest, hstep, hrest, rfl⟩ := run_cons h
    exact ih (step_sound hσ hs hstep) hrest

/-! ### What is written -/

/-- The rows behind an event: with changes of the rows of the transaction's owner, under the privileges. -/
theorem step_tables (hs : s.Sound σ β) (h : s.step β c σ event = some (seen, s')) : ∃ changes,
    s'.tables = σ.applyAll changes s.tables ∧ ∀ change ∈ changes, σ.Owns seen.opened change ∧ σ.Granted change := by
  have hsame : ∀ {tables : Tables Row}, tables = s.tables → ∃ changes, tables = σ.applyAll changes s.tables ∧
      ∀ change ∈ changes, σ.Owns seen.opened change ∧ σ.Granted change :=
    fun htables => ⟨[], htables, fun _ hchange => absurd hchange List.not_mem_nil⟩
  cases step_cases h with
  | nobody hfree => exact hsame rfl
  | mismatch o hfree henter => exact hsame rfl
  | opened o v hfree henter => exact hsame rfl
  | performed action tx htx result hperform =>
    subst hperform
    obtain ⟨-, howned⟩ := hs.bound c tx htx
    rcases perform_tables σ (β.current (tx.localSetting.getD (s.sessions c).setting)) s.tables tx action with
      htables | htables
    · exact hsame htables
    · exact ⟨tx.pending, htables, howned.pending⟩

/-- A transaction for nobody changes nothing. -/
theorem step_nobody (hs : s.Sound σ β) (h : s.step β c σ event = some (seen, s')) (hnobody : seen.opened = none) :
    s'.tables = s.tables := by
  obtain ⟨changes, htables, howned⟩ := step_tables hs h
  rw [hnobody] at howned
  rw [htables, eq_nil_of_owns_none fun change hchange => (howned change hchange).1]
  rfl

/-- Rows of tables without the privilege to delete stay, whatever is sent to the connections. -/
theorem run_kept (hσ : σ.Lawful) {events : List (C × Event Row O A)} {all : List (Observation Row O A C)}
    (hs : s.Sound σ β) (h : s.run β σ events = some (all, s')) : σ.Kept s.tables s'.tables := by
  induction events generalizing s all with
  | nil =>
    cases h
    exact .refl σ _
  | cons e events ih =>
    obtain ⟨seen, s₁, rest, hstep, hrest, rfl⟩ := run_cons h
    obtain ⟨changes, htables, howned⟩ := step_tables hs hstep
    have hkept : σ.Kept s.tables s₁.tables := htables ▸ kept_applyAll howned
    exact hkept.trans (ih (step_sound hσ hs hstep) hrest)

/-! ### Opening a transaction -/

theorem perform_ne_mismatch (current : Option O) (db : Tables Row) (tx : Transaction Row O K V) (action : Action Row A) :
    (tx.perform σ current db action).1 ≠ .mismatch := by
  intro h
  cases action <;> simp only [Transaction.perform] at h
  all_goals repeat' split at h
  all_goals cases h

/-- Where the setting can always be made, a transaction for an owner can always be opened. -/
theorem run_ne_mismatch (henter : ∀ o v, (β.enter o v).isSome) {events : List (C × Event Row O A)}
    {all : List (Observation Row O A C)} (h : s.run β σ events = some (all, s')) : ∀ x ∈ all, x.answer ≠ .mismatch := by
  induction events generalizing s all with
  | nil =>
    cases h
    exact fun _ hx => absurd hx List.not_mem_nil
  | cons e events ih =>
    obtain ⟨seen, s₁, rest, hstep, hrest, rfl⟩ := run_cons h
    refine List.forall_mem_cons.mpr ⟨?_, ih hrest⟩
    obtain ⟨c, event⟩ := e
    cases step_cases hstep with
    | nobody hfree => simp
    | mismatch o hfree hunset => simpa [hunset] using henter o (s.sessions c).setting
    | opened o v hfree henter => simp
    | performed action tx htx result hperform =>
      subst hperform
      exact perform_ne_mismatch _ _ _ _

end

end RowSecurity
