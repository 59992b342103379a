import Mathlib.Data.List.Forall2
import NetopsCopilot.Lib.Regex

/-!
# Running a pattern

`first` is the matcher's answer with what comes behind the pattern as a continuation. One rule for each kind of
pattern says how a run goes on, so the first match of a concrete pattern is found by executing it from the left.

What a pattern tests besides characters (`Tests`) decides where it matches alike: behind texts of which it sees the
same (`Sees`), and in front of a text that its tests do not see (`Cuts`).
-/

/-- The position with `t` behind the text ahead. -/
def Cursor.before {γ α : Type} (t : List α) (k : Cursor γ α) : Cursor γ α := { k with ahead := k.ahead ++ t }

namespace Regex

variable {γ α β : Type}

/-! ### The first match -/

/-- What the continuation makes of the first match that it accepts. -/
def first (r : Regex γ α) (k : Cursor γ α) (f : Cursor γ α → Option β) : Option β := (r.ends k).findSome? f

section

variable {r s : Regex γ α} {k : Cursor γ α} {f : Cursor γ α → Option β}

theorem head?_eq_first (r : Regex γ α) (k : Cursor γ α) : (r.ends k).head? = r.first k some := by
  unfold first
  cases r.ends k with
  | nil => rfl
  | cons k' ks => rfl

theorem first_none (h : ∀ k' ∈ r.ends k, f k' = none) : r.first k f = none := List.findSome?_eq_none_iff.mpr h

theorem first_of_nil (h : r.ends k = []) : r.first k f = none := by rw [first, h, List.findSome?_nil]

theorem first_some (r : Regex γ α) (k : Cursor γ α) (g : Cursor γ α → β) :
    (r.first k fun k' => some (g k')) = (r.ends k).head?.map g := by
  unfold first
  cases r.ends k with
  | nil => rfl
  | cons k' ks => rfl

theorem first_seq (r s : Regex γ α) (k : Cursor γ α) (f : Cursor γ α → Option β) :
    (seq r s).first k f = r.first k fun k' => s.first k' f := by
  show ((r.ends k).flatMap s.ends).findSome? f = (r.ends k).findSome? fun k' => (s.ends k').findSome? f
  induction r.ends k with
  | nil => rfl
  | cons k' ks ih =>
    rw [List.flatMap_cons, List.findSome?_append, ih, List.findSome?_cons]
    cases (s.ends k').findSome? f with
    | none => rw [Option.none_or]
    | some b => rw [Option.some_or]

theorem first_alt (r s : Regex γ α) (k : Cursor γ α) (f : Cursor γ α → Option β) :
    (alt r s).first k f = (r.first k f).or (s.first k f) := List.findSome?_append

theorem first_alt_left {b : β} (h : r.first k f = some b) : (alt r s).first k f = some b := by
  rw [first_alt, h, Option.some_or]

theorem first_alt_right (h : r.first k f = none) : (alt r s).first k f = s.first k f := by
  rw [first_alt, h, Option.none_or]

theorem first_empty (k : Cursor γ α) (f : Cursor γ α → Option β) : (empty : Regex γ α).first k f = f k := by
  show [k].findSome? f = f k
  rw [List.findSome?_singleton]

theorem first_opt {b : β} (h : r.first k f = some b) : (opt r).first k f = some b := first_alt_left h

theorem first_opt_skip (h : r.first k f = none) : (opt r).first k f = f k := by
  rw [opt, first_alt_right h, first_empty]

theorem first_cat_nil (k : Cursor γ α) (f : Cursor γ α → Option β) : (cat [] : Regex γ α).first k f = f k :=
  first_empty k f

theorem first_cat_cons (r : Regex γ α) (rs : List (Regex γ α)) (k : Cursor γ α) (f : Cursor γ α → Option β) :
    (cat (r :: rs)).first k f = r.first k fun k' => (cat rs).first k' f := first_seq r (cat rs) k f

theorem first_look {q : List α → List α → Bool} (h : q k.behind k.ahead = true) : (look q).first k f = f k := by
  rw [first, ends, if_pos h, List.findSome?_singleton]

theorem first_look_none {q : List α → List α → Bool} (h : f k = none) : (look q).first k f = none := by
  rw [first, ends]
  split_ifs
  · rw [List.findSome?_singleton, h]
  · rfl

theorem first_notAhead (h : r.ends k = []) : (notAhead r).first k f = f k := by
  rw [first, ends, h, List.isEmpty_nil, if_pos rfl, List.findSome?_singleton]

theorem first_group (name : γ) (r : Regex γ α) (k : Cursor γ α) (f : Cursor γ α → Option β) :
    (group name r).first k f = r.first k fun k' =>
      f { k' with groups := (name, k.ahead.take (k.ahead.length - k'.ahead.length)) :: k'.groups } :=
  List.findSome?_map

variable {p : α → Bool} {behind ahead w : List α} {groups : List (γ × List α)}

theorem first_char {c : α} (hc : p c = true) :
    (char p).first ⟨behind, c :: ahead, groups⟩ f = f ⟨c :: behind, ahead, groups⟩ := by
  show (if p c then [(⟨c :: behind, ahead, groups⟩ : Cursor γ α)] else []).findSome? f = _
  rw [if_pos hc, List.findSome?_singleton]

theorem char_ends_nil (h : ∀ c, ahead.head? = some c → p c = false) :
    (char p : Regex γ α).ends ⟨behind, ahead, groups⟩ = [] := by
  cases ahead with
  | nil => rfl
  | cons c ahead =>
    show (if p c then _ else _) = _
    rw [if_neg (by rw [h c rfl]; exact Bool.false_ne_true)]

/-- A greedy repetition begins with the longest run. -/
theorem manyFrom_greedy (groups : List (γ × List α)) (behind : List α) (hw : ∀ c ∈ w, p c = true) (hstop : ∀ c, ahead.head? = some c → p c = false) :
    ∃ shorter, manyFrom true p groups behind (w ++ ahead) = ⟨w.reverse ++ behind, ahead, groups⟩ :: shorter := by
  induction w generalizing behind with
  | nil =>
    cases ahead with
    | nil => exact ⟨[], rfl⟩
    | cons c ahead =>
      refine ⟨[], ?_⟩
      show manyFrom true p groups behind (c :: ahead) = _
      rw [manyFrom, if_neg (by rw [hstop c rfl]; exact Bool.false_ne_true)]
      rfl
  | cons c w ih =>
    obtain ⟨hc, hw⟩ := List.forall_mem_cons.mp hw
    obtain ⟨shorter, hshorter⟩ := ih (c :: behind) hw
    refine ⟨shorter ++ [⟨behind, c :: (w ++ ahead), groups⟩], ?_⟩
    show manyFrom true p groups behind (c :: (w ++ ahead)) = _
    rw [manyFrom, if_pos hc, if_pos rfl, hshorter, List.reverse_cons, List.append_assoc]
    rfl

theorem first_many {b : β} (hw : ∀ c ∈ w, p c = true) (hstop : ∀ c, ahead.head? = some c → p c = false)
    (h : f ⟨w.reverse ++ behind, ahead, groups⟩ = some b) :
    (many true p).first ⟨behind, w ++ ahead, groups⟩ f = some b := by
  obtain ⟨shorter, hshorter⟩ := manyFrom_greedy groups behind hw hstop
  show (manyFrom true p groups behind (w ++ ahead)).findSome? f = some b
  rw [hshorter, List.findSome?_cons, h]

theorem first_many1 {b : β} (hne : w ≠ []) (hw : ∀ c ∈ w, p c = true)
    (hstop : ∀ c, ahead.head? = some c → p c = false) (h : f ⟨w.reverse ++ behind, ahead, groups⟩ = some b) :
    (many1 p).first ⟨behind, w ++ ahead, groups⟩ f = some b := by
  obtain ⟨c, w, rfl⟩ := List.exists_cons_of_ne_nil hne
  obtain ⟨hc, hw⟩ := List.forall_mem_cons.mp hw
  rw [many1, first_seq]
  show (char p).first ⟨behind, c :: (w ++ ahead), groups⟩ _ = _
  rw [first_char hc]
  apply first_many hw hstop
  rw [List.reverse_cons, List.append_assoc] at h
  exact h

/-- A lazy repetition goes on as long as the continuation fails. -/
theorem first_manyLazy (hw : ∀ c ∈ w, p c = true)
    (hfail : ∀ u v, w = u ++ v → v ≠ [] → f ⟨u.reverse ++ behind, v ++ ahead, groups⟩ = none) {b : β}
    (h : f ⟨w.reverse ++ behind, ahead, groups⟩ = some b) :
    (many false p).first ⟨behind, w ++ ahead, groups⟩ f = some b := by
  show (manyFrom false p groups behind (w ++ ahead)).findSome? f = some b
  induction w generalizing behind with
  | nil =>
    have h' : f ⟨behind, ahead, groups⟩ = some b := h
    cases ahead with
    | nil => rw [List.append_nil, manyFrom, List.findSome?_cons, h']
    | cons c ahead =>
      rw [List.nil_append, manyFrom, if_neg Bool.false_ne_true]
      split_ifs
      · rw [List.findSome?_cons, h']
      · rw [List.findSome?_cons, h']
  | cons c w ih =>
    obtain ⟨hc, hw⟩ := List.forall_mem_cons.mp hw
    have hhere : f ⟨behind, c :: (w ++ ahead), groups⟩ = none := hfail [] (c :: w) rfl (List.cons_ne_nil c w)
    rw [List.cons_append, manyFrom, if_pos hc, if_neg Bool.false_ne_true, List.findSome?_cons, hhere]
    refine ih hw (fun u v huv hv => ?_) ?_
    · have hnext := hfail (c :: u) v (congrArg (c :: ·) huv) hv
      rw [List.reverse_cons, List.append_assoc] at hnext
      exact hnext
    · rw [List.reverse_cons, List.append_assoc] at h
      exact h

end

/-! ### Tests -/

/-- All tests of a position satisfy `P`, and all patterns that must not be ahead satisfy `N`. -/
def Tests (P : (List α → List α → Bool) → Prop) (N : Regex γ α → Prop) : Regex γ α → Prop
  | look q => P q
  | char _ | many _ _ => True
  | seq r s | alt r s => r.Tests P N ∧ s.Tests P N
  | group _ r => r.Tests P N
  | notAhead r => N r ∧ r.Tests P N

theorem tests_cat {P : (List α → List α → Bool) → Prop} {N : Regex γ α → Prop} (hempty : P fun _ _ => true)
    {rs : List (Regex γ α)} (h : ∀ r ∈ rs, r.Tests P N) : (cat rs).Tests P N := by
  induction rs with
  | nil => exact hempty
  | cons r rs ih =>
    obtain ⟨hr, hrs⟩ := List.forall_mem_cons.mp h
    exact ⟨hr, ih hrs⟩

/-! ### The text behind -/

section

variable {ν : Type} (view : List α → ν)

/-- The tests of the pattern see the text behind through the view. -/
def Sees (r : Regex γ α) : Prop :=
  r.Tests (fun q => ∀ b b' ahead, view b = view b' → q b ahead = q b' ahead) fun _ => True

/-- Positions in front of the same text, with the same view of what is behind. -/
structure SameView (k k' : Cursor γ α) : Prop where
  behind : view k.behind = view k'.behind
  ahead : k.ahead = k'.ahead
  groups : k.groups = k'.groups

variable {view} (hview : ∀ c b b', view b = view b' → view (c :: b) = view (c :: b'))

include hview

theorem manyFrom_sees (greedy : Bool) (p : α → Bool) (groups : List (γ × List α)) {b b' : List α}
    (ahead : List α) (h : view b = view b') :
    List.Forall₂ (SameView view) (manyFrom greedy p groups b ahead) (manyFrom greedy p groups b' ahead) := by
  induction ahead generalizing b b' with
  | nil => exact .cons ⟨h, rfl, rfl⟩ .nil
  | cons c ahead ih =>
    have hhere : SameView view (⟨b, c :: ahead, groups⟩ : Cursor γ α) ⟨b', c :: ahead, groups⟩ := ⟨h, rfl, rfl⟩
    rw [manyFrom, manyFrom]
    split_ifs
    · exact List.rel_append (ih (hview c b b' h)) (.cons hhere .nil)
    · exact .cons hhere (ih (hview c b b' h))
    · exact .cons hhere .nil

/-- A pattern matches alike where it sees the same. -/
theorem ends_sees {r : Regex γ α} (hr : r.Sees view) {k k' : Cursor γ α} (h : SameView view k k') :
    List.Forall₂ (SameView view) (r.ends k) (r.ends k') := by
  induction r generalizing k k' with
  | look q =>
    rw [ends, ends, hr k.behind k'.behind k.ahead h.behind, h.ahead]
    split_ifs
    · exact .cons h .nil
    · exact .nil
  | char p =>
    obtain ⟨b, ahead, groups⟩ := k
    obtain ⟨b', ahead', groups'⟩ := k'
    obtain ⟨hb, rfl, rfl⟩ := h
    cases ahead with
    | nil => exact .nil
    | cons c ahead =>
      show List.Forall₂ _ (if p c then _ else _) (if p c then _ else _)
      split_ifs
      · exact .cons ⟨hview c b b' hb, rfl, rfl⟩ .nil
      · exact .nil
  | many greedy p =>
    obtain ⟨b, ahead, groups⟩ := k
    obtain ⟨b', ahead', groups'⟩ := k'
    obtain ⟨hb, rfl, rfl⟩ := h
    exact manyFrom_sees hview greedy p groups ahead hb
  | seq r s ihr ihs => exact List.rel_flatMap (ihr hr.1 h) fun _ _ h' => ihs hr.2 h'
  | alt r s ihr ihs => exact List.rel_append (ihr hr.1 h) (ihs hr.2 h)
  | group name r ih =>
    refine List.rel_map (fun k₁ k₁' h₁ => ⟨h₁.behind, h₁.ahead, ?_⟩) (ih hr h)
    show (_, _) :: k₁.groups = (_, _) :: k₁'.groups
    rw [h.ahead, h₁.ahead, h₁.groups]
  | notAhead r ih =>
    have hempty : (r.ends k).isEmpty = (r.ends k').isEmpty := by
      have hsame := ih hr.2 h
      generalize r.ends k = ks at hsame ⊢
      generalize r.ends k' = ks' at hsame ⊢
      cases hsame with
      | nil => rfl
      | cons _ _ => rfl
    rw [ends, ends, hempty]
    split_ifs
    · exact .cons h .nil
    · exact .nil

theorem scan_sees {r : Regex γ α} (hr : r.Sees view) {repl : Cursor γ α → List α}
    (hrepl : ∀ k k', k.groups = k'.groups → repl k = repl k') (skip : Nat) {b b' : List α} (ahead : List α)
    (h : view b = view b') : scan r repl skip b ahead = scan r repl skip b' ahead := by
  induction ahead generalizing skip b b' with
  | nil => cases skip <;> rfl
  | cons c ahead ih =>
    have hnext := hview c b b' h
    cases skip with
    | succ skip =>
      rw [scan, scan]
      exact ih skip hnext
    | zero =>
      have hends : List.Forall₂ (SameView view) (r.ends ⟨b, c :: ahead, []⟩) (r.ends ⟨b', c :: ahead, []⟩) :=
        ends_sees hview hr ⟨h, rfl, rfl⟩
      rw [scan, scan]
      generalize r.ends ⟨b, c :: ahead, []⟩ = ks at hends ⊢
      generalize r.ends ⟨b', c :: ahead, []⟩ = ks' at hends ⊢
      cases hends with
      | nil => rw [List.head?_nil, ih 0 hnext]
      | @cons k k' _ _ hk _ =>
        rw [List.head?_cons, List.head?_cons]
        dsimp only
        rw [hk.ahead, hrepl k k' hk.groups, ih _ hnext]

end

/-! ### The text in front -/

/-- A text in front of `t` is matched as it is alone. -/
def Cuts (t : List α) (r : Regex γ α) : Prop :=
  r.Tests (fun q => ∀ behind ahead, q behind (ahead ++ t) = q behind ahead) fun r =>
    ∀ k, (r.ends (k.before t)).isEmpty = (r.ends k).isEmpty

section

variable {r : Regex γ α} {t : List α} {k : Cursor γ α}

/-- A match leaves no more than what is ahead. -/
theorem length_of_mem_ends {k' : Cursor γ α} (h : k' ∈ r.ends k) : k'.ahead.length ≤ k.ahead.length := by
  obtain ⟨w, -, hahead, -⟩ := reads_of_mem_ends h
  rw [hahead, List.length_append]
  omega

theorem manyFrom_cut (greedy : Bool) (p : α → Bool) (groups : List (γ × List α)) (behind ahead : List α) :
    (manyFrom greedy p groups behind (ahead ++ t)).filter (fun k => decide (t.length ≤ k.ahead.length)) =
      (manyFrom greedy p groups behind ahead).map (Cursor.before t) := by
  induction ahead generalizing behind with
  | nil =>
    rw [List.nil_append, manyFrom]
    have hpast : ∀ c t', t = c :: t' → (manyFrom greedy p groups (c :: behind) t').filter
        (fun k => decide (t.length ≤ k.ahead.length)) = [] := by
      intro c t' ht
      refine List.filter_eq_nil_iff.mpr fun k hk => ?_
      have hle := length_of_mem_ends (r := many greedy p) (k := ⟨c :: behind, t', groups⟩) hk
      simp only [decide_eq_true_eq, ht, List.length_cons]
      dsimp only at hle
      omega
    cases t with
    | nil => rfl
    | cons c t =>
      have hpast := hpast c t rfl
      have hhere : (Cursor.before (c :: t) ⟨behind, [], groups⟩ : Cursor γ α) = ⟨behind, c :: t, groups⟩ := rfl
      rw [manyFrom, List.map_singleton, hhere]
      split_ifs
      · rw [List.filter_append, hpast, List.filter_cons_of_pos (by simp)]
        rfl
      · rw [List.filter_cons_of_pos (by simp), hpast]
      · rw [List.filter_cons_of_pos (by simp)]
        rfl
  | cons c ahead ih =>
    have hhere : ([⟨behind, c :: (ahead ++ t), groups⟩] : List (Cursor γ α)).filter
        (fun k => decide (t.length ≤ k.ahead.length)) = [Cursor.before t ⟨behind, c :: ahead, groups⟩] := by
      rw [List.filter_cons_of_pos (by simp; omega), List.filter_nil]
      rfl
    rw [List.cons_append, manyFrom, manyFrom]
    split_ifs
    · rw [List.filter_append, ih, hhere, List.map_append, List.map_singleton]
    · rw [← List.singleton_append, List.filter_append, ih, hhere]
      rfl
    · rw [hhere, List.map_singleton]

/-- The matches that end before `t` are those of the text alone. -/
theorem ends_cut (hr : r.Cuts t) (k : Cursor γ α) :
    (r.ends (k.before t)).filter (fun k' => decide (t.length ≤ k'.ahead.length)) =
      (r.ends k).map (Cursor.before t) := by
  induction r generalizing k with
  | look q =>
    have hsame : q (k.before t).behind (k.before t).ahead = q k.behind k.ahead := hr k.behind k.ahead
    rw [ends, ends, hsame]
    split_ifs
    · rw [List.filter_cons_of_pos (by simp [Cursor.before])]
      rfl
    · rfl
  | char p =>
    obtain ⟨behind, ahead, groups⟩ := k
    cases ahead with
    | nil =>
      refine List.filter_eq_nil_iff.mpr fun k' hk' => ?_
      obtain ⟨w, ⟨c, rfl, -⟩, hahead, -⟩ := reads_of_mem_ends hk'
      have hlength := congrArg List.length hahead
      simp [Cursor.before] at hlength
      simp only [decide_eq_true_eq]
      omega
    | cons c ahead =>
      show (if p c then [_] else []).filter _ = (if p c then [_] else []).map _
      split_ifs
      · rw [List.filter_cons_of_pos (by simp)]
        rfl
      · rfl
  | many greedy p => exact manyFrom_cut greedy p k.groups k.behind k.ahead
  | seq r s ihr ihs =>
    have hfilter : ∀ ks : List (Cursor γ α),
        (ks.flatMap s.ends).filter (fun k' => decide (t.length ≤ k'.ahead.length)) =
          (ks.filter fun k' => decide (t.length ≤ k'.ahead.length)).flatMap fun k' =>
            (s.ends k').filter fun k' => decide (t.length ≤ k'.ahead.length) := by
      intro ks
      induction ks with
      | nil => rfl
      | cons k' ks ih =>
        rw [List.flatMap_cons, List.filter_append, ih]
        by_cases hk' : t.length ≤ k'.ahead.length
        · rw [List.filter_cons_of_pos (by simpa using hk'), List.flatMap_cons]
        · have hnil : (s.ends k').filter (fun k' => decide (t.length ≤ k'.ahead.length)) = [] := by
            refine List.filter_eq_nil_iff.mpr fun k'' hk'' => ?_
            have hle := length_of_mem_ends hk''
            simp only [decide_eq_true_eq]
            omega
          rw [List.filter_cons_of_neg (by simpa using hk'), hnil, List.nil_append]
    rw [ends, ends, hfilter, ihr hr.1, List.flatMap_map, List.map_flatMap]
    exact List.flatMap_congr fun k' _ => ihs hr.2 k'
  | alt r s ihr ihs => rw [ends, ends, List.filter_append, ihr hr.1, ihs hr.2, List.map_append]
  | group name r ih =>
    rw [ends, ends, List.filter_map]
    show ((r.ends (k.before t)).filter fun k' => decide (t.length ≤ k'.ahead.length)).map _ = _
    rw [ih hr, List.map_map, List.map_map]
    refine List.map_congr_left fun k' hk' => ?_
    have hle := length_of_mem_ends hk'
    have htake : (k.ahead ++ t).take ((k.ahead ++ t).length - (k'.ahead ++ t).length) =
        k.ahead.take (k.ahead.length - k'.ahead.length) := by
      have hlength : (k.ahead ++ t).length - (k'.ahead ++ t).length = k.ahead.length - k'.ahead.length := by
        rw [List.length_append, List.length_append]
        omega
      rw [hlength, List.take_append_of_le_length (by omega)]
    show (⟨_, _, (name, (k.ahead ++ t).take ((k.ahead ++ t).length - (k'.ahead ++ t).length)) :: _⟩ : Cursor γ α) = _
    rw [htake]
    rfl
  | notAhead r ih =>
    rw [ends, ends, hr.1 k]
    split_ifs
    · rw [List.filter_cons_of_pos (by simp [Cursor.before])]
      rfl
    · rfl

/-- If no match goes into `t`, all are those of the text alone. -/
theorem ends_before (hr : r.Cuts t) (h : ∀ k' ∈ r.ends (k.before t), t.length ≤ k'.ahead.length) :
    r.ends (k.before t) = (r.ends k).map (Cursor.before t) := by
  rw [← ends_cut hr k, List.filter_eq_self.mpr]
  exact fun k' hk' => decide_eq_true (h k' hk')

end

/-! ### Replacing part by part -/

section

variable {r : Regex γ α} {repl : Cursor γ α → List α} {a t b : List α}

/-- A text in which no match starts is copied. -/
theorem scan_quiet (h : ∀ u v, a = u ++ v → v ≠ [] → r.ends ⟨u.reverse ++ b, v ++ t, []⟩ = []) :
    scan r repl 0 b (a ++ t) =
      (a ++ (scan r repl 0 (a.reverse ++ b) t).1, (scan r repl 0 (a.reverse ++ b) t).2) := by
  induction a generalizing b with
  | nil => rfl
  | cons c a ih =>
    have hhere : (r.ends ⟨b, c :: (a ++ t), []⟩).head? = none := by
      have hnil := h [] (c :: a) rfl (List.cons_ne_nil c a)
      rw [List.reverse_nil, List.nil_append, List.cons_append] at hnil
      rw [hnil, List.head?_nil]
    have hnext : ∀ u v, a = u ++ v → v ≠ [] → r.ends ⟨u.reverse ++ c :: b, v ++ t, []⟩ = [] := by
      intro u v huv hv
      have hnil := h (c :: u) v (congrArg (c :: ·) huv) hv
      rw [List.reverse_cons, List.append_assoc] at hnil
      exact hnil
    rw [List.cons_append, scan_miss hhere, ih hnext, List.reverse_cons, List.append_assoc]
    rfl

/-- Where no match goes from `a` into `t`, the two are rewritten apart. -/
theorem scan_append (hr : r.Cuts t) (hconsumes : ∀ w, r.Lang w → w ≠ [])
    (hrepl : ∀ k k', k.groups = k'.groups → repl k = repl k')
    (h : ∀ u v, a = u ++ v → v ≠ [] → ∀ k ∈ r.ends ⟨u.reverse ++ b, v ++ t, []⟩, t.length ≤ k.ahead.length) :
    scan r repl 0 b (a ++ t) =
      ((scan r repl 0 b a).1 ++ (scan r repl 0 (a.reverse ++ b) t).1,
        (scan r repl 0 b a).2 + (scan r repl 0 (a.reverse ++ b) t).2) := by
  induction hn : a.length using Nat.strongRecOn generalizing a b with
  | ind n ih =>
    cases a with
    | nil => simp [scan]
    | cons c a =>
      have hends : r.ends ⟨b, (c :: a) ++ t, []⟩ = (r.ends ⟨b, c :: a, []⟩).map (Cursor.before t) :=
        ends_before (k := ⟨b, c :: a, []⟩) hr (h [] (c :: a) rfl (List.cons_ne_nil c a))
      cases hfirst : (r.ends ⟨b, c :: a, []⟩).head? with
      | none =>
        have hfirst' : (r.ends ⟨b, c :: (a ++ t), []⟩).head? = none := by
          rw [← List.cons_append, hends, List.head?_map, hfirst]
          rfl
        have hnext : ∀ u v, a = u ++ v → v ≠ [] → ∀ k ∈ r.ends ⟨u.reverse ++ c :: b, v ++ t, []⟩,
            t.length ≤ k.ahead.length := by
          intro u v huv hv
          have hinside := h (c :: u) v (congrArg (c :: ·) huv) hv
          rw [List.reverse_cons, List.append_assoc] at hinside
          exact hinside
        rw [List.cons_append, scan_miss hfirst', scan_miss hfirst, ih a.length (by simp at hn; omega) hnext rfl,
          List.reverse_cons, List.append_assoc]
        rfl
      | some k =>
        obtain ⟨w, hw, hreads⟩ := reads_of_mem_ends (List.mem_of_head? hfirst)
        have hne := hconsumes w hw
        have hfirst' : (r.ends ⟨b, (c :: a) ++ t, []⟩).head? = some (k.before t) := by
          rw [hends, List.head?_map, hfirst]
          rfl
        obtain ⟨hahead, hbehind⟩ := hreads
        have hreads' : Cursor.Reads ⟨b, (c :: a) ++ t, []⟩ w (k.before t) := by
          refine ⟨?_, hbehind⟩
          show (c :: a) ++ t = w ++ (k.ahead ++ t)
          rw [← List.append_assoc]
          exact congrArg (· ++ t) hahead
        have hnext : ∀ u v, k.ahead = u ++ v → v ≠ [] → ∀ k' ∈ r.ends ⟨u.reverse ++ k.behind, v ++ t, []⟩,
            t.length ≤ k'.ahead.length := by
          intro u v huv hv
          have hinside := h (w ++ u) v (by rw [List.append_assoc, ← huv]; exact hahead) hv
          rw [List.reverse_append, List.append_assoc, ← hbehind] at hinside
          exact hinside
        have hlength := congrArg List.length hahead
        have hpos := List.length_pos_iff.mpr hne
        dsimp only at hlength
        rw [List.length_append] at hlength
        rw [scan_hit hne hfirst' hreads', scan_hit hne hfirst ⟨hahead, hbehind⟩]
        show (repl (k.before t) ++ (scan r repl 0 k.behind (k.ahead ++ t)).1,
          (scan r repl 0 k.behind (k.ahead ++ t)).2 + 1) = _
        have hrest : k.ahead.reverse ++ k.behind = (c :: a).reverse ++ b := by
          have hall : c :: a = w ++ k.ahead := hahead
          rw [hbehind, hall, List.reverse_append, List.append_assoc]
        rw [ih k.ahead.length (by omega) hnext rfl, hrepl (k.before t) k rfl, hrest, List.append_assoc]
        refine Prod.ext rfl ?_
        show _ + _ + 1 = _ + 1 + _
        omega

end

end Regex
