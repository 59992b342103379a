import Mathlib.Data.List.Forall2
import Mathlib.Logic.Basic

/-!
# Computations that may raise

What a result says about the parts of an `Except` computation, and `mapM` over a list of computations.
-/

namespace Raising

variable {α β γ ε ε' : Type}

theorem bind_ok {x : Except ε α} {f : α → Except ε β} {b : β} (h : (x >>= f) = .ok b) :
    ∃ a, x = .ok a ∧ f a = .ok b := by
  cases x with
  | error e => cases h
  | ok a => exact ⟨a, rfl, h⟩

theorem bind_ok_iff {x : Except ε α} {f : α → Except ε β} {b : β} :
    (x >>= f) = .ok b ↔ ∃ a, x = .ok a ∧ f a = .ok b := by
  constructor
  · exact bind_ok
  · rintro ⟨a, rfl, hf⟩
    exact hf

/-- The exception of a sequence is that of one of its parts. -/
theorem bind_error {x : Except ε α} {f : α → Except ε β} {e : ε} (h : (x >>= f) = .error e) :
    x = .error e ∨ ∃ a, x = .ok a ∧ f a = .error e := by
  cases x with
  | error e' =>
    cases h
    exact Or.inl rfl
  | ok a => exact Or.inr ⟨a, rfl, h⟩

theorem mapError_ok {x : Except ε α} {f : ε → ε'} {a : α} (h : x.mapError f = .ok a) : x = .ok a := by
  cases x <;> cases h
  rfl

/-- A computation on every item that never raises. -/
theorem mapM_ok {f : α → Except ε β} {g : α → β} {l : List α} (h : ∀ a ∈ l, f a = .ok (g a)) :
    l.mapM f = .ok (l.map g) := by
  induction l with
  | nil => rfl
  | cons a l ih =>
    rw [List.mapM_cons, h a List.mem_cons_self, ih fun b hb => h b (List.mem_cons_of_mem _ hb)]
    rfl

theorem exists_mapM {f : α → Except ε β} {l : List α} (h : ∀ a ∈ l, ∃ b, f a = .ok b) :
    ∃ bs, l.mapM f = .ok bs := by
  induction l with
  | nil => exact ⟨[], rfl⟩
  | cons a l ih =>
    obtain ⟨b, hb⟩ := h a List.mem_cons_self
    obtain ⟨bs, hbs⟩ := ih fun c hc => h c (List.mem_cons_of_mem _ hc)
    refine ⟨b :: bs, ?_⟩
    rw [List.mapM_cons, hb, hbs]
    rfl

/-- What is known of each result is known of the list of results. -/
theorem map_of_mapM {f : α → Except ε β} {g : α → γ} {h : β → γ} (hf : ∀ a b, f a = .ok b → h b = g a)
    {l : List α} {bs : List β} (hl : l.mapM f = .ok bs) : bs.map h = l.map g := by
  induction l generalizing bs with
  | nil =>
    cases hl
    rfl
  | cons a l ih =>
    rw [List.mapM_cons] at hl
    obtain ⟨b, hb, hl⟩ := bind_ok hl
    obtain ⟨bs', hbs', hl⟩ := bind_ok hl
    cases hl
    rw [List.map_cons, List.map_cons, hf a b hb, ih hbs']

/-- Each result is the result of an item. -/
theorem mem_of_mapM {f : α → Except ε β} {l : List α} {bs : List β} (hl : l.mapM f = .ok bs) {b : β}
    (hb : b ∈ bs) : ∃ a ∈ l, f a = .ok b := by
  induction l generalizing bs with
  | nil =>
    cases hl
    cases hb
  | cons a l ih =>
    rw [List.mapM_cons] at hl
    obtain ⟨c, hc, hl⟩ := bind_ok hl
    obtain ⟨bs', hbs', hl⟩ := bind_ok hl
    cases hl
    rcases List.mem_cons.mp hb with rfl | hb
    · exact ⟨a, List.mem_cons_self, hc⟩
    · obtain ⟨a', ha', h⟩ := ih hbs' hb
      exact ⟨a', List.mem_cons_of_mem _ ha', h⟩

/-- The results stand beside the items. -/
theorem mapM_ok_iff {f : α → Except ε β} {l : List α} {bs : List β} :
    l.mapM f = .ok bs ↔ List.Forall₂ (fun a b => f a = .ok b) l bs := by
  induction l generalizing bs with
  | nil =>
    rw [List.forall₂_nil_left_iff]
    exact ⟨fun h => by cases h; rfl, fun h => by rw [h]; rfl⟩
  | cons a l ih =>
    rw [List.mapM_cons, bind_ok_iff, List.forall₂_cons_left_iff]
    constructor
    · rintro ⟨b, hb, hl⟩
      obtain ⟨bs', hbs', hl⟩ := bind_ok hl
      cases hl
      exact ⟨b, bs', hb, ih.mp hbs', rfl⟩
    · rintro ⟨b, bs', hb, hbs', rfl⟩
      refine ⟨b, hb, ?_⟩
      rw [ih.mpr hbs']
      rfl

end Raising
