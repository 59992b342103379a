import Mathlib.Data.List.Forall2
import Mathlib.Data.List.MinMax
import Mathlib.Order.Lattice

/-!
# Lists of rows

Facts about tables as lists: two tables matched row by row (`List.Forall₂`), the row with a given label when
labels do not repeat, the greatest row when one is added, and the rows of one part of a table when every
identifier occurs in one part only (`Parted`).
-/

namespace Rows

variable {α β γ : Type} {r : α → β → Prop} {xs : List α} {ys : List β}

/-- Matched tables stay matched when a matching pair is appended. -/
theorem forall₂_snoc {x : α} {y : β} (h : List.Forall₂ r xs ys) (hxy : r x y) :
    List.Forall₂ r (xs ++ [x]) (ys ++ [y]) :=
  List.rel_append h (.cons hxy .nil)

/-- Matched rows with equal labels give equal columns. -/
theorem map_eq_of_forall₂ {f : α → γ} {g : β → γ} (h : List.Forall₂ r xs ys)
    (hfg : ∀ x y, r x y → f x = g y) : xs.map f = ys.map g := by
  induction h with
  | nil => rfl
  | cons hxy _ ih => rw [List.map_cons, List.map_cons, hfg _ _ hxy, ih]

/-- Every row has its match. -/
theorem exists_match (h : List.Forall₂ r xs ys) {x : α} (hx : x ∈ xs) : ∃ y ∈ ys, r x y := by
  induction h with
  | nil => cases hx
  | cons hxy _ ih =>
    rcases List.mem_cons.mp hx with rfl | hx
    · exact ⟨_, List.mem_cons_self, hxy⟩
    · obtain ⟨y, hy, hxy⟩ := ih hx
      exact ⟨y, List.mem_cons_of_mem _ hy, hxy⟩

/-- Among rows with different labels, one has a given row's label. -/
theorem filter_label [BEq γ] [LawfulBEq γ] {f : α → γ} (hnd : (xs.map f).Nodup) {x : α}
    (hx : x ∈ xs) : xs.filter (fun y => f y == f x) = [x] := by
  induction xs with
  | nil => cases hx
  | cons y xs ih =>
    rw [List.map_cons, List.nodup_cons] at hnd
    rcases List.mem_cons.mp hx with rfl | hx
    · have hnone : xs.filter (fun z => f z == f x) = [] := by
        refine List.filter_eq_nil_iff.mpr fun z hz hfz => hnd.1 ?_
        exact List.mem_map.mpr ⟨z, hz, by simpa using hfz⟩
      simp [hnone]
    · have hne : f y ≠ f x := fun heq => hnd.1 (heq ▸ List.mem_map_of_mem hx)
      simp [hne, ih hnd.2 hx]

/-- In a sorted list a row is among the first `n` if fewer than `n` rows come before it. -/
theorem mem_take_sorted {κ : Type} [LinearOrder κ] {key : α → κ} {l : List α}
    (hsorted : l.Pairwise fun a b => key a ≤ key b) {a : α} (ha : a ∈ l)
    (hinj : ∀ b ∈ l, key b = key a → b = a) {n : ℕ}
    (hroom : (l.filter fun b => key b < key a).length < n) : a ∈ l.take n := by
  induction l generalizing n with
  | nil => cases ha
  | cons b l ih =>
    obtain ⟨m, rfl⟩ : ∃ m, n = m + 1 := ⟨n - 1, by omega⟩
    rw [List.pairwise_cons] at hsorted
    rw [List.take_succ_cons]
    by_cases hb : b = a
    · rw [hb]
      exact List.mem_cons_self
    · have ha' : a ∈ l := (List.mem_cons.mp ha).resolve_left (Ne.symm hb)
      have hlt : key b < key a :=
        lt_of_le_of_ne (hsorted.1 a ha') fun heq => hb (hinj b List.mem_cons_self heq)
      rw [List.filter_cons_of_pos (by simpa using hlt), List.length_cons] at hroom
      exact List.mem_cons_of_mem _ (ih hsorted.2 ha' (fun c hc => hinj c (List.mem_cons_of_mem _ hc))
        (by omega))

/-- The greatest row has the column of a row that is added if it is that row, or had that column before. -/
theorem argmax_snoc_map {κ : Type} [Preorder κ] [DecidableLT κ] {key : α → κ} {column : α → γ} {l : List α}
    {new : α} : ((l ++ [new]).argmax key).map column = some (column new) ↔
      ∀ m ∈ l.argmax key, key m < key new ∨ column m = column new := by
  rw [List.argmax_concat]
  cases l.argmax key with
  | none => simp
  | some m =>
    show Option.map column (if key m < key new then some new else some m) = _ ↔ _
    by_cases hlt : key m < key new
    · simp [hlt]
    · simp [hlt]

/-- When labels do not repeat, what has a given label comes from the row with that label. -/
theorem filter_flatMap_label [BEq γ] [LawfulBEq γ] {labels : α → List γ} {f : α → List β} {label : β → γ}
    {l : List α} (hf : ∀ a ∈ l, ∀ b ∈ f a, label b ∈ labels a) (hnd : (l.flatMap labels).Nodup) {a : α}
    (ha : a ∈ l) {n : γ} (hn : n ∈ labels a) :
    (l.flatMap f).filter (fun b => label b == n) = (f a).filter fun b => label b == n := by
  induction l with
  | nil => cases ha
  | cons a' l ih =>
    obtain ⟨hf', hrest⟩ := List.forall_mem_cons.mp hf
    rw [List.flatMap_cons, List.nodup_append] at hnd
    obtain ⟨-, hnd, hdisjoint⟩ := hnd
    rw [List.flatMap_cons, List.filter_append]
    rcases List.mem_cons.mp ha with rfl | ha
    · have hnone : (l.flatMap f).filter (fun b => label b == n) = [] := by
        refine List.filter_eq_nil_iff.mpr fun b hb hlabel => ?_
        obtain ⟨a'', ha'', hb⟩ := List.mem_flatMap.mp hb
        rw [beq_iff_eq] at hlabel
        exact hdisjoint n hn n (List.mem_flatMap.mpr ⟨a'', ha'', hlabel ▸ hrest a'' ha'' b hb⟩) rfl
      rw [hnone, List.append_nil]
    · have hnone : (f a').filter (fun b => label b == n) = [] := by
        refine List.filter_eq_nil_iff.mpr fun b hb hlabel => ?_
        rw [beq_iff_eq] at hlabel
        exact hdisjoint n (hlabel ▸ hf' b hb) n (List.mem_flatMap.mpr ⟨a, ha, hn⟩) rfl
      rw [hnone, List.nil_append]
      exact ih hrest hnd ha

/-! ### Parts of a table -/

section

variable {κ : Type} {out : κ → Prop} {ids : α → List κ} {inside p : α → Bool} {rows : List α}

/-- The identifiers of a row tell whether it is in the part: `out` holds of those of the other rows. -/
def Parted (out : κ → Prop) (ids : α → List κ) (inside : α → Bool) (rows : List α) : Prop :=
  ∀ r ∈ rows, ∀ k ∈ ids r, out k ↔ inside r = false

theorem Parted.inside_of_not_out (h : Parted out ids inside rows) {r : α} (hr : r ∈ rows) {k : κ} (hk : k ∈ ids r)
    (hout : ¬out k) : inside r = true := by
  by_contra hinside
  exact hout ((h r hr k hk).mpr (by simpa using hinside))

theorem Parted.not_out (h : Parted out ids inside rows) {r : α} (hr : r ∈ rows) (hinside : inside r = true)
    {k : κ} (hk : k ∈ ids r) : ¬out k := by
  rw [h r hr k hk, hinside]
  exact Bool.noConfusion

theorem Parted.snoc (h : Parted out ids inside rows) {r : α} (hinside : inside r = true)
    (hids : ∀ k ∈ ids r, ¬out k) : Parted out ids inside (rows ++ [r]) := by
  intro x hx k hk
  rcases List.mem_append.mp hx with hx | hx
  · exact h x hx k hk
  · rw [List.mem_singleton] at hx
    subst hx
    simp [hids k hk, hinside]

theorem Parted.map (h : Parted out ids inside rows) {f : α → α} (hids : ∀ r, ids (f r) = ids r)
    (hinside : ∀ r, inside (f r) = inside r) : Parted out ids inside (rows.map f) := by
  intro x hx k hk
  obtain ⟨r, hr, rfl⟩ := List.mem_map.mp hx
  rw [hids] at hk
  rw [hinside]
  exact h r hr k hk

/-- A selection within the part. -/
theorem filter_inside (h : ∀ r ∈ rows, p r = true → inside r = true) :
    (rows.filter inside).filter p = rows.filter p := by
  rw [List.filter_filter]
  refine List.filter_congr fun r hr => ?_
  by_cases hp : p r = true
  · simp [hp, h r hr hp]
  · simp [hp]

theorem any_inside (h : ∀ r ∈ rows, p r = true → inside r = true) : (rows.filter inside).any p = rows.any p := by
  rw [Bool.eq_iff_iff, List.any_eq_true, List.any_eq_true]
  constructor
  · rintro ⟨r, hr, hp⟩
    exact ⟨r, (List.mem_filter.mp hr).1, hp⟩
  · rintro ⟨r, hr, hp⟩
    exact ⟨r, List.mem_filter.mpr ⟨hr, h r hr hp⟩, hp⟩

theorem find?_inside (h : ∀ r ∈ rows, p r = true → inside r = true) :
    (rows.filter inside).find? p = rows.find? p := by
  rw [← List.head?_filter, ← List.head?_filter, filter_inside h]

/-- A look-up by an identifier of the part. -/
theorem Parted.any_inside (h : Parted out ids inside rows) {k : κ} (hk : ¬out k)
    (hp : ∀ r, p r = true → k ∈ ids r) : (rows.filter inside).any p = rows.any p :=
  Rows.any_inside fun r hr hpr => h.inside_of_not_out hr (hp r hpr) hk

theorem Parted.filter_inside (h : Parted out ids inside rows) {k : κ} (hk : ¬out k)
    (hp : ∀ r, p r = true → k ∈ ids r) : (rows.filter inside).filter p = rows.filter p :=
  Rows.filter_inside fun r hr hpr => h.inside_of_not_out hr (hp r hpr) hk

theorem Parted.find?_inside (h : Parted out ids inside rows) {k : κ} (hk : ¬out k)
    (hp : ∀ r, p r = true → k ∈ ids r) : (rows.filter inside).find? p = rows.find? p :=
  Rows.find?_inside fun r hr hpr => h.inside_of_not_out hr (hp r hpr) hk

/-- An edit within the part. -/
theorem filter_map_inside (rows : List α) {f : α → α} (hinside : ∀ r, inside (f r) = inside r) :
    (rows.map f).filter inside = (rows.filter inside).map f := by
  rw [List.filter_map]
  congr 2
  funext r
  exact hinside r

/-- Rows outside the part that an edit leaves alone. -/
theorem filter_map_outside (rows : List α) {f : α → α} (hinside : ∀ r, inside (f r) = inside r)
    (hself : ∀ r ∈ rows, inside r = false → f r = r) :
    (rows.map f).filter (fun r => !inside r) = rows.filter fun r => !inside r := by
  rw [@filter_map_inside α (fun r => !inside r) rows f fun r => by rw [hinside]]
  refine (List.map_congr_left fun r hr => ?_).trans (List.map_id _)
  obtain ⟨hmem, hout⟩ := List.mem_filter.mp hr
  exact hself r hmem (by simpa using hout)

end

end Rows
