import Mathlib.Data.List.Basic

/-!
# Reading codes off the front of a text

A text is often the concatenation of code words. `Prefix f` says that the words of `f` can be read off
the front: `f a ++ t` determines both `a` and `t`. A word list closed by a symbol no word starts with,
or separated by commas, can then be read off as well, and so can a token, which ends at the first
symbol that is not part of it.
-/

namespace Codes

variable {α β : Type}

/-- A word and what follows it can be told apart. -/
def Prefix (f : α → List β) : Prop := ∀ a b t t', f a ++ t = f b ++ t' → a = b ∧ t = t'

/-- A reader that finds every word shows that the words can be read off. -/
theorem Prefix.of_read {f : α → List β} (read : List β → Option (α × List β))
    (h : ∀ a t, read (f a ++ t) = some (a, t)) : Prefix f := by
  intro a b t t' heq
  have hread := h a t
  rw [heq, h b t', Option.some.injEq, Prod.mk.injEq] at hread
  exact ⟨hread.1.symm, hread.2.symm⟩

/-- Words up to a closing symbol. -/
theorem Prefix.flatMap {f : α → List β} (hf : Prefix f) {stop : β}
    (hstop : ∀ a, ∃ c w, f a = c :: w ∧ c ≠ stop) {xs ys : List α} {t t' : List β}
    (h : xs.flatMap f ++ stop :: t = ys.flatMap f ++ stop :: t') : xs = ys ∧ t = t' := by
  induction xs generalizing ys with
  | nil =>
    cases ys with
    | nil => exact ⟨rfl, by simpa using h⟩
    | cons y ys =>
      obtain ⟨c, w, hy, hc⟩ := hstop y
      rw [List.flatMap_cons, hy] at h
      simp only [List.flatMap_nil, List.nil_append, List.cons_append, List.cons.injEq] at h
      exact absurd h.1.symm hc
  | cons x xs ih =>
    cases ys with
    | nil =>
      obtain ⟨c, w, hx, hc⟩ := hstop x
      rw [List.flatMap_cons, hx] at h
      simp only [List.flatMap_nil, List.nil_append, List.cons_append, List.cons.injEq] at h
      exact absurd h.1 hc
    | cons y ys =>
      rw [List.flatMap_cons, List.flatMap_cons, List.append_assoc, List.append_assoc] at h
      obtain ⟨rfl, hrest⟩ := hf _ _ _ _ h
      obtain ⟨rfl, rfl⟩ := ih hrest
      exact ⟨rfl, rfl⟩

/-- A token ends at the first symbol that is not part of it. -/
theorem token {p : β → Bool} {xs ys t t' : List β} (hx : ∀ c ∈ xs, p c = true)
    (hy : ∀ c ∈ ys, p c = true) (ht : ∀ c ∈ t.head?, p c = false) (ht' : ∀ c ∈ t'.head?, p c = false)
    (h : xs ++ t = ys ++ t') : xs = ys ∧ t = t' := by
  have htake : ∀ {zs u : List β}, (∀ c ∈ zs, p c = true) → (∀ c ∈ u.head?, p c = false) →
      (zs ++ u).takeWhile p = zs := by
    intro zs u hz hu
    rw [List.takeWhile_append_of_pos hz]
    cases u with
    | nil => simp
    | cons c u => simp [hu c rfl]
  have heq : xs = ys := by
    rw [← htake hx ht, h, htake hy ht']
  exact ⟨heq, List.append_cancel_left (heq ▸ h)⟩

/-! ### Separated lists -/

/-- Words, each after a separator. -/
def separated (comma : β) (words : List (List β)) : List β := words.flatMap fun w => comma :: w

section

variable {code : α → List β} {R : α → α → Prop} {comma stop : β}

/-- Separated words up to a closing symbol, when each word can be read off wherever a separator or the
closing symbol follows. -/
theorem separated_read (hne : comma ≠ stop) {xs ys : List α} {t t' : List β}
    (hread : ∀ a ∈ xs, ∀ b ∈ ys, ∀ u u', (∀ c ∈ u.head?, c = comma ∨ c = stop) →
      (∀ c ∈ u'.head?, c = comma ∨ c = stop) → code a ++ u = code b ++ u' → R a b ∧ u = u')
    (h : separated comma (xs.map code) ++ stop :: t = separated comma (ys.map code) ++ stop :: t') :
    List.Forall₂ R xs ys ∧ t = t' := by
  have hhead : ∀ (zs : List α) (u : List β), ∀ c ∈ (separated comma (zs.map code) ++ stop :: u).head?,
      c = comma ∨ c = stop := by
    intro zs u c hc
    cases zs with
    | nil => exact Or.inr (by simpa [separated, eq_comm] using hc)
    | cons z zs => exact Or.inl (by simpa [separated, eq_comm] using hc)
  induction xs generalizing ys with
  | nil =>
    cases ys with
    | nil => exact ⟨.nil, by simpa [separated] using h⟩
    | cons y ys =>
      simp only [separated, List.map_nil, List.flatMap_nil, List.nil_append, List.map_cons,
        List.flatMap_cons, List.cons_append, List.cons.injEq] at h
      exact absurd h.1.symm hne
  | cons x xs ih =>
    cases ys with
    | nil =>
      simp only [separated, List.map_nil, List.flatMap_nil, List.nil_append, List.map_cons,
        List.flatMap_cons, List.cons_append, List.cons.injEq] at h
      exact absurd h.1 hne
    | cons y ys =>
      have hcons : code x ++ (separated comma (xs.map code) ++ stop :: t) =
          code y ++ (separated comma (ys.map code) ++ stop :: t') := by
        simpa [separated] using h
      obtain ⟨hxy, hrest⟩ := hread x List.mem_cons_self y List.mem_cons_self _ _ (hhead _ _)
        (hhead _ _) hcons
      obtain ⟨hforall, rfl⟩ := ih (fun a ha b hb => hread a (List.mem_cons_of_mem _ ha) b
        (List.mem_cons_of_mem _ hb)) hrest
      exact ⟨.cons hxy hforall, rfl⟩

end

end Codes
