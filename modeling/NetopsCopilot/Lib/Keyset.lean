import Mathlib.Data.List.Sort
import Mathlib.Order.OrderDual

/-!
# Keyset pagination

A page is the first rows in the order of a key that no two rows share, after a given key. What follows a row on
the whole list is the list of the rows after its key (`scan_after_row`), so pages that each start after the last
row of the one before do not overlap and leave nothing out.
-/

namespace Keyset

variable {α κ : Type} [LinearOrder κ] {key : α → κ} {p : α → Bool} {rows : List α} {a b : α}

/-- The rows that satisfy `p`, in the order of their keys. -/
def scan (key : α → κ) (p : α → Bool) (rows : List α) : List α :=
  (rows.filter p).insertionSort fun a b => key a ≤ key b

/-- The first `n` of them. -/
def page (key : α → κ) (p : α → Bool) (n : ℕ) (rows : List α) : List α := (scan key p rows).take n

theorem scan_perm : (scan key p rows).Perm (rows.filter p) := List.perm_insertionSort _ _

theorem mem_scan : a ∈ scan key p rows ↔ a ∈ rows ∧ p a = true := by
  rw [scan_perm.mem_iff, List.mem_filter]

theorem mem_of_mem_page {n : ℕ} (ha : a ∈ page key p n rows) : a ∈ rows ∧ p a = true :=
  mem_scan.mp (List.mem_of_mem_take ha)

theorem scan_sorted (hkeys : (rows.map key).Nodup) : (scan key p rows).Pairwise fun a b => key a < key b := by
  have hle : (scan key p rows).Pairwise fun a b => key a ≤ key b :=
    List.pairwise_insertionSort (fun a b => key a ≤ key b) _
  have hne : (scan key p rows).Pairwise fun a b => key a ≠ key b := by
    have hnodup : ((scan key p rows).map key).Nodup :=
      (scan_perm.map key).nodup_iff.mpr (hkeys.sublist (List.filter_sublist.map key))
    exact List.pairwise_map.mp hnodup
  exact (hle.and hne).imp fun h => lt_of_le_of_ne h.1 h.2

theorem page_sorted (hkeys : (rows.map key).Nodup) (n : ℕ) :
    (page key p n rows).Pairwise fun a b => key a < key b :=
  (scan_sorted hkeys).sublist (List.take_sublist _ _)

/-- Labels that no two rows share do not repeat on a page. -/
theorem page_labels {γ : Type} {f : α → γ} (hlabels : (rows.map f).Nodup) (n : ℕ) :
    ((page key p n rows).map f).Nodup := by
  have hscan : ((scan key p rows).map f).Nodup :=
    (scan_perm.map f).nodup_iff.mpr (hlabels.sublist (List.filter_sublist.map f))
  exact hscan.sublist ((List.take_sublist n _).map f)

/-- Two lists of the same rows in strict order are the same. -/
theorem eq_of_perm_sorted {l l' : List α} (hperm : l.Perm l') (hl : l.Pairwise fun a b => key a < key b)
    (hl' : l'.Pairwise fun a b => key a < key b) : l = l' :=
  hperm.eq_of_pairwise (fun _ _ _ _ hab hba => absurd hba (lt_asymm hab)) hl hl'

/-- A condition on the rows selects from the list. -/
theorem scan_and (hkeys : (rows.map key).Nodup) (q : α → Bool) :
    scan key (fun a => p a && q a) rows = (scan key p rows).filter q := by
  refine eq_of_perm_sorted ?_ (scan_sorted hkeys) ((scan_sorted hkeys).sublist List.filter_sublist)
  have hfilter : rows.filter (fun a => p a && q a) = (rows.filter p).filter q := by
    rw [List.filter_filter]
    exact List.filter_congr fun a _ => Bool.and_comm _ _
  refine scan_perm.trans ?_
  rw [hfilter]
  exact (scan_perm.filter q).symm

/-- The rows after the key of a row are those that follow it. -/
theorem scan_after_row (hkeys : (rows.map key).Nodup) {before after : List α}
    (hscan : scan key p rows = before ++ a :: after) :
    scan key (fun b => p b && decide (key a < key b)) rows = after := by
  have hsorted := @scan_sorted α κ _ key p rows hkeys
  rw [hscan, List.pairwise_append, List.pairwise_cons] at hsorted
  obtain ⟨-, ⟨hafter, -⟩, hbefore⟩ := hsorted
  rw [scan_and hkeys, hscan, List.filter_append, List.filter_cons_of_neg (by simp)]
  have hnone : before.filter (fun b => decide (key a < key b)) = [] := by
    refine List.filter_eq_nil_iff.mpr fun b hb => ?_
    simpa using (hbefore b hb a List.mem_cons_self).le
  rw [hnone, List.nil_append]
  exact List.filter_eq_self.mpr fun b hb => by simpa using hafter b hb

/-- A page leaves out no row in front of one of its rows. -/
theorem mem_page_of_le (hkeys : (rows.map key).Nodup) {n : ℕ} (ha : a ∈ rows) (hp : p a = true)
    (hb : b ∈ page key p n rows) (hle : key a ≤ key b) : a ∈ page key p n rows := by
  have hsorted := @scan_sorted α κ _ key p rows hkeys
  have hmem : a ∈ scan key p rows := mem_scan.mpr ⟨ha, hp⟩
  rw [← List.take_append_drop n (scan key p rows)] at hsorted hmem
  refine (List.mem_append.mp hmem).resolve_right fun hdrop => ?_
  have hlt := (List.pairwise_append.mp hsorted).2.2 b hb a hdrop
  exact absurd hle (not_le.mpr hlt)

/-- A row that is not on a page is behind the rows of a full page. -/
theorem page_full (hkeys : (rows.map key).Nodup) {n : ℕ} (ha : a ∈ rows) (hp : p a = true)
    (hnot : a ∉ page key p n rows) : (page key p n rows).length = n ∧ ∀ b ∈ page key p n rows, key b < key a := by
  refine ⟨?_, fun b hb => not_le.mp fun hle => hnot (mem_page_of_le hkeys ha hp hb hle)⟩
  unfold page at hnot ⊢
  rw [List.length_take, min_eq_left]
  refine le_of_not_ge fun hle => hnot ?_
  rw [List.take_of_length_le hle]
  exact mem_scan.mpr ⟨ha, hp⟩

end Keyset
