import Mathlib.Data.List.Basic

/-!
# Backtracking regular expressions

Patterns whose repetitions are of single characters, with groups, tests of a position and negative lookahead.
`ends` lists the ends of all matches from a position in the order in which a backtracking matcher finds
them, so the matcher's answer is the first one. `subn` replaces the leftmost matches one after another.

`Lang` forgets the positions: each match reads a word of it (`reads_of_mem_ends`). `scan_induction` is the
rule for `subn`.
-/

/-- A position in a text, with the groups matched so far; `behind` is read from the position backwards. -/
structure Cursor (γ α : Type) where
  behind : List α
  ahead : List α
  groups : List (γ × List α)

/-- `k'` is reached from `k` by reading `w`. -/
def Cursor.Reads {γ α : Type} (k : Cursor γ α) (w : List α) (k' : Cursor γ α) : Prop :=
  k.ahead = w ++ k'.ahead ∧ k'.behind = w.reverse ++ k.behind

inductive Regex (γ α : Type) where
  /-- A test of the text behind and ahead. -/
  | look (q : List α → List α → Bool)
  | char (p : α → Bool)
  /-- `p*`, or `p*?` if not greedy. -/
  | many (greedy : Bool) (p : α → Bool)
  | seq (r s : Regex γ α)
  | alt (r s : Regex γ α)
  | group (name : γ) (r : Regex γ α)
  | notAhead (r : Regex γ α)

namespace Regex

variable {γ α : Type}

/-- The empty pattern. -/
def empty : Regex γ α := look fun _ _ => true

/-- `r?`. -/
def opt (r : Regex γ α) : Regex γ α := alt r empty

/-- `p+`. -/
def many1 (p : α → Bool) : Regex γ α := seq (char p) (many true p)

/-- The patterns one after another. -/
def cat (rs : List (Regex γ α)) : Regex γ α := rs.foldr seq empty

/-! ### Matching -/

/-- The ends of a repetition, in the order in which they are tried. -/
def manyFrom (greedy : Bool) (p : α → Bool) (groups : List (γ × List α)) :
    List α → List α → List (Cursor γ α)
  | behind, [] => [⟨behind, [], groups⟩]
  | behind, c :: ahead =>
    if p c then
      if greedy then manyFrom greedy p groups (c :: behind) ahead ++ [⟨behind, c :: ahead, groups⟩]
      else ⟨behind, c :: ahead, groups⟩ :: manyFrom greedy p groups (c :: behind) ahead
    else [⟨behind, c :: ahead, groups⟩]

/-- The ends of the matches from a position, in the order in which they are tried. -/
def ends : Regex γ α → Cursor γ α → List (Cursor γ α)
  | look q, k => if q k.behind k.ahead then [k] else []
  | char p, k => match k.ahead with
    | c :: ahead => if p c then [{ k with behind := c :: k.behind, ahead := ahead }] else []
    | [] => []
  | many greedy p, k => manyFrom greedy p k.groups k.behind k.ahead
  | seq r s, k => (r.ends k).flatMap s.ends
  | alt r s, k => r.ends k ++ s.ends k
  | group name r, k => (r.ends k).map fun k' => { k' with
      groups := (name, k.ahead.take (k.ahead.length - k'.ahead.length)) :: k'.groups }
  | notAhead r, k => if (r.ends k).isEmpty then [k] else []

/-- The start of a text. -/
def startOf (text : List α) : Cursor γ α := ⟨[], text, []⟩

/-- `pattern.match(text)`. -/
def matchText (r : Regex γ α) (text : List α) : Option (Cursor γ α) := (r.ends (startOf text)).head?

/-- `pattern.fullmatch(text)`. -/
def fullmatch (r : Regex γ α) (text : List α) : Option (Cursor γ α) :=
  (r.ends (startOf text)).find? fun k => k.ahead.isEmpty

/-- The text ahead with its matches replaced, and their number; the next `skip` characters have been
replaced already. -/
def scan (r : Regex γ α) (repl : Cursor γ α → List α) : Nat → List α → List α → List α × Nat
  | _, _, [] => ([], 0)
  | skip + 1, behind, c :: ahead => scan r repl skip (c :: behind) ahead
  | 0, behind, c :: ahead =>
    match (r.ends ⟨behind, c :: ahead, []⟩).head? with
    | some k =>
      let (rest, n) := scan r repl (ahead.length - k.ahead.length) (c :: behind) ahead
      (repl k ++ rest, n + 1)
    | none =>
      let (rest, n) := scan r repl 0 (c :: behind) ahead
      (c :: rest, n)

/-- `pattern.subn(repl, text)`, for a pattern that does not match the empty text. -/
def subn (r : Regex γ α) (repl : Cursor γ α → List α) (text : List α) : List α × Nat :=
  scan r repl 0 [] text

end Regex

/-- The text of a group. -/
def Cursor.text {γ α : Type} [BEq γ] (k : Cursor γ α) (name : γ) : List α := (k.groups.lookup name).getD []

/-! ### What a match reads -/

namespace Cursor

variable {γ α : Type} {k k' k'' : Cursor γ α} {u v w : List α}

theorem Reads.refl (k : Cursor γ α) : k.Reads [] k := ⟨rfl, rfl⟩

theorem Reads.trans (h : k.Reads u k') (h' : k'.Reads v k'') : k.Reads (u ++ v) k'' := by
  obtain ⟨hahead, hbehind⟩ := h
  obtain ⟨hahead', hbehind'⟩ := h'
  constructor
  · rw [hahead, hahead', List.append_assoc]
  · rw [hbehind', hbehind, List.reverse_append, List.append_assoc]

theorem Reads.length (h : k.Reads w k') : k.ahead.length - k'.ahead.length = w.length := by
  rw [h.1, List.length_append]
  omega

end Cursor

namespace Regex

variable {γ α : Type} {k k' : Cursor γ α} {w : List α}

/-- The words of a pattern, wherever they stand. -/
def Lang : Regex γ α → List α → Prop
  | look _, w => w = []
  | char p, w => ∃ c, w = [c] ∧ p c = true
  | many _ p, w => ∀ c ∈ w, p c = true
  | seq r s, w => ∃ u v, w = u ++ v ∧ r.Lang u ∧ s.Lang v
  | alt r s, w => r.Lang w ∨ s.Lang w
  | group _ r, w => r.Lang w
  | notAhead _, w => w = []

theorem reads_of_mem_manyFrom {greedy : Bool} {p : α → Bool} {groups : List (γ × List α)}
    {behind ahead : List α} (h : k' ∈ manyFrom greedy p groups behind ahead) :
    ∃ w, (∀ c ∈ w, p c = true) ∧ Cursor.Reads ⟨behind, ahead, groups⟩ w k' ∧ k'.groups = groups := by
  induction ahead generalizing behind with
  | nil =>
    rw [manyFrom, List.mem_singleton] at h
    subst h
    exact ⟨[], nofun, Cursor.Reads.refl _, rfl⟩
  | cons c ahead ih =>
    have hstay : k' = ⟨behind, c :: ahead, groups⟩ →
        ∃ w, (∀ c ∈ w, p c = true) ∧ Cursor.Reads ⟨behind, c :: ahead, groups⟩ w k' ∧ k'.groups = groups := by
      rintro rfl
      exact ⟨[], nofun, Cursor.Reads.refl _, rfl⟩
    rw [manyFrom] at h
    split_ifs at h with hp hgreedy
    · rcases List.mem_append.mp h with h | h
      · obtain ⟨w, hw, ⟨hahead, hbehind⟩, hgroups⟩ := ih h
        refine ⟨c :: w, List.forall_mem_cons.mpr ⟨hp, hw⟩, ⟨congrArg (c :: ·) hahead, ?_⟩, hgroups⟩
        rw [hbehind, List.reverse_cons, List.append_assoc]
        rfl
      · exact hstay (List.mem_singleton.mp h)
    · rcases List.mem_cons.mp h with h | h
      · exact hstay h
      · obtain ⟨w, hw, ⟨hahead, hbehind⟩, hgroups⟩ := ih h
        refine ⟨c :: w, List.forall_mem_cons.mpr ⟨hp, hw⟩, ⟨congrArg (c :: ·) hahead, ?_⟩, hgroups⟩
        rw [hbehind, List.reverse_cons, List.append_assoc]
        rfl
    · exact hstay (List.mem_singleton.mp h)

/-- A match reads a word of its pattern. -/
theorem reads_of_mem_ends {r : Regex γ α} (h : k' ∈ r.ends k) : ∃ w, r.Lang w ∧ k.Reads w k' := by
  induction r generalizing k k' with
  | look q =>
    rw [ends] at h
    split_ifs at h
    · rw [List.mem_singleton.mp h]
      exact ⟨[], rfl, Cursor.Reads.refl k⟩
    · cases h
  | char p =>
    rw [ends] at h
    split at h
    next c ahead hahead =>
      split_ifs at h with hp
      · rw [List.mem_singleton.mp h]
        exact ⟨[c], ⟨c, rfl, hp⟩, hahead, rfl⟩
      · cases h
    next => cases h
  | many greedy p =>
    obtain ⟨w, hw, hreads, -⟩ := reads_of_mem_manyFrom h
    exact ⟨w, hw, hreads⟩
  | seq r s ihr ihs =>
    obtain ⟨k₁, hr, hs⟩ := List.mem_flatMap.mp h
    obtain ⟨u, hu, hreadsu⟩ := ihr hr
    obtain ⟨v, hv, hreadsv⟩ := ihs hs
    exact ⟨u ++ v, ⟨u, v, rfl, hu, hv⟩, hreadsu.trans hreadsv⟩
  | alt r s ihr ihs =>
    rcases List.mem_append.mp h with h | h
    · obtain ⟨w, hw, hreads⟩ := ihr h
      exact ⟨w, Or.inl hw, hreads⟩
    · obtain ⟨w, hw, hreads⟩ := ihs h
      exact ⟨w, Or.inr hw, hreads⟩
  | group name r ih =>
    obtain ⟨k₁, hr, rfl⟩ := List.mem_map.mp h
    obtain ⟨w, hw, hreads⟩ := ih hr
    exact ⟨w, hw, hreads⟩
  | notAhead r ih =>
    rw [ends] at h
    split_ifs at h
    · rw [List.mem_singleton.mp h]
      exact ⟨[], rfl, Cursor.Reads.refl k⟩
    · cases h

/-- A group holds the word it read. -/
theorem group_of_mem_ends {name : γ} {r : Regex γ α} (h : k' ∈ (group name r).ends k) :
    ∃ k₁ ∈ r.ends k, ∃ w, r.Lang w ∧ k.Reads w k₁ ∧ k' = { k₁ with groups := (name, w) :: k₁.groups } := by
  obtain ⟨k₁, hr, rfl⟩ := List.mem_map.mp h
  obtain ⟨w, hw, hreads⟩ := reads_of_mem_ends hr
  refine ⟨k₁, hr, w, hw, hreads, ?_⟩
  rw [hreads.length, hreads.1, List.take_left]

/-- A pattern without groups. -/
def groupFree : Regex γ α → Bool
  | look _ | char _ | many _ _ | notAhead _ => true
  | seq r s | alt r s => r.groupFree && s.groupFree
  | group _ _ => false

theorem groups_of_mem_ends {r : Regex γ α} (hfree : r.groupFree = true) (h : k' ∈ r.ends k) :
    k'.groups = k.groups := by
  induction r generalizing k k' with
  | look q =>
    rw [ends] at h
    split_ifs at h
    · rw [List.mem_singleton.mp h]
    · cases h
  | char p =>
    rw [ends] at h
    split at h
    · split_ifs at h
      · rw [List.mem_singleton.mp h]
      · cases h
    · cases h
  | many greedy p =>
    obtain ⟨-, -, -, hgroups⟩ := reads_of_mem_manyFrom h
    exact hgroups
  | seq r s ihr ihs =>
    rw [groupFree, Bool.and_eq_true] at hfree
    obtain ⟨k₁, hr, hs⟩ := List.mem_flatMap.mp h
    rw [ihs hfree.2 hs, ihr hfree.1 hr]
  | alt r s ihr ihs =>
    rw [groupFree, Bool.and_eq_true] at hfree
    rcases List.mem_append.mp h with h | h
    · exact ihr hfree.1 h
    · exact ihs hfree.2 h
  | group name r ih => cases hfree
  | notAhead r ih =>
    rw [ends] at h
    split_ifs at h
    · rw [List.mem_singleton.mp h]
    · cases h

/-- A pattern has a group of this name. -/
def binds [BEq γ] (name : γ) : Regex γ α → Bool
  | look _ | char _ | many _ _ | notAhead _ => false
  | seq r s | alt r s => r.binds name || s.binds name
  | group name' r => name == name' || r.binds name

/-- The groups that a pattern does not have stay as they are. -/
theorem text_of_mem_ends [BEq γ] {name : γ} {r : Regex γ α} (hfree : r.binds name = false)
    (h : k' ∈ r.ends k) : k'.text name = k.text name := by
  induction r generalizing k k' with
  | look q => rw [Cursor.text, Cursor.text, groups_of_mem_ends rfl h]
  | char p => rw [Cursor.text, Cursor.text, groups_of_mem_ends rfl h]
  | many greedy p => rw [Cursor.text, Cursor.text, groups_of_mem_ends rfl h]
  | seq r s ihr ihs =>
    rw [binds, Bool.or_eq_false_iff] at hfree
    obtain ⟨k₁, hr, hs⟩ := List.mem_flatMap.mp h
    rw [ihs hfree.2 hs, ihr hfree.1 hr]
  | alt r s ihr ihs =>
    rw [binds, Bool.or_eq_false_iff] at hfree
    rcases List.mem_append.mp h with h | h
    · exact ihr hfree.1 h
    · exact ihs hfree.2 h
  | group name' r ih =>
    rw [binds, Bool.or_eq_false_iff] at hfree
    obtain ⟨k₁, hr, rfl⟩ := List.mem_map.mp h
    rw [← ih hfree.2 hr, Cursor.text, List.lookup_cons, hfree.1, Cursor.text]
  | notAhead r ih => rw [Cursor.text, Cursor.text, groups_of_mem_ends rfl h]

/-- A group that is not matched again holds a word of its pattern. -/
theorem lang_text [BEq γ] [ReflBEq γ] {name : γ} {r : Regex γ α} {before after : List (Regex γ α)}
    (hafter : (cat after).binds name = false)
    (h : k' ∈ (cat (before ++ group name r :: after)).ends k) : r.Lang (k'.text name) := by
  induction before generalizing k with
  | nil =>
    obtain ⟨k₁, hgroup, hrest⟩ := List.mem_flatMap.mp h
    obtain ⟨k₂, -, w, hw, -, rfl⟩ := group_of_mem_ends hgroup
    rw [text_of_mem_ends hafter hrest, Cursor.text, List.lookup_cons, BEq.rfl]
    exact hw
  | cons r' before ih =>
    obtain ⟨k₁, -, hrest⟩ := List.mem_flatMap.mp h
    exact ih hrest

/-! ### Replacing -/

section

variable {r : Regex γ α} {repl : Cursor γ α → List α}

theorem scan_skip (w behind ahead : List α) :
    scan r repl w.length behind (w ++ ahead) = scan r repl 0 (w.reverse ++ behind) ahead := by
  induction w generalizing behind with
  | nil => rfl
  | cons c w ih =>
    show scan r repl w.length (c :: behind) (w ++ ahead) = _
    rw [ih, List.reverse_cons, List.append_assoc]
    rfl

/-- A match of a pattern that consumes is replaced, and the scan goes on behind it. -/
theorem scan_hit {behind ahead : List α} {k : Cursor γ α} {w : List α} (hne : w ≠ [])
    (hfirst : (r.ends ⟨behind, ahead, []⟩).head? = some k)
    (hreads : Cursor.Reads ⟨behind, ahead, []⟩ w k) :
    scan r repl 0 behind ahead = (repl k ++ (scan r repl 0 k.behind k.ahead).1,
      (scan r repl 0 k.behind k.ahead).2 + 1) := by
  obtain ⟨c, w, rfl⟩ := List.exists_cons_of_ne_nil hne
  obtain ⟨hahead, hbehind⟩ := hreads
  dsimp only at hahead hbehind
  subst hahead
  have hskip : (w ++ k.ahead).length - k.ahead.length = w.length := by
    rw [List.length_append]
    omega
  have hnext : scan r repl 0 k.behind k.ahead =
      scan r repl ((w ++ k.ahead).length - k.ahead.length) (c :: behind) (w ++ k.ahead) := by
    rw [hskip, scan_skip, hbehind, List.reverse_cons, List.append_assoc]
    rfl
  rw [hnext]
  show scan r repl 0 behind (c :: (w ++ k.ahead)) = _
  rw [scan]
  have hfirst' : (r.ends ⟨behind, c :: (w ++ k.ahead), []⟩).head? = some k := hfirst
  rw [hfirst']

theorem scan_miss {behind ahead : List α} {c : α}
    (hnone : (r.ends ⟨behind, c :: ahead, []⟩).head? = none) :
    scan r repl 0 behind (c :: ahead) = (c :: (scan r repl 0 (c :: behind) ahead).1,
      (scan r repl 0 (c :: behind) ahead).2) := by
  rw [scan, hnone]

/-- The rule for `subn`: what holds at the end of the text, and is kept by each character that is copied and
each match that is replaced, holds of the result. -/
theorem scan_induction {motive : List α → List α → List α × Nat → Prop}
    (hconsumes : ∀ w, r.Lang w → w ≠ []) (nil : ∀ behind, motive behind [] ([], 0))
    (copy : ∀ behind c ahead result, motive (c :: behind) ahead result →
      motive behind (c :: ahead) (c :: result.1, result.2))
    (replace : ∀ behind ahead k w result, k ∈ r.ends ⟨behind, ahead, []⟩ → r.Lang w → w ≠ [] →
      Cursor.Reads ⟨behind, ahead, []⟩ w k → motive k.behind k.ahead result →
      motive behind ahead (repl k ++ result.1, result.2 + 1))
    (behind ahead : List α) : motive behind ahead (scan r repl 0 behind ahead) := by
  induction hn : ahead.length using Nat.strongRecOn generalizing behind ahead with
  | ind n ih =>
    cases ahead with
    | nil => exact nil behind
    | cons c ahead =>
      cases hfirst : (r.ends ⟨behind, c :: ahead, []⟩).head? with
      | none =>
        rw [scan_miss hfirst]
        exact copy behind c ahead _ (ih _ (by simp at hn; omega) _ _ rfl)
      | some k =>
        have hmem := List.mem_of_head? hfirst
        obtain ⟨w, hw, hreads⟩ := reads_of_mem_ends hmem
        have hne := hconsumes w hw
        rw [scan_hit hne hfirst hreads]
        refine replace behind _ k w _ hmem hw hne hreads (ih _ ?_ _ _ rfl)
        rw [← hn]
        show k.ahead.length < (Cursor.ahead ⟨behind, c :: ahead, ([] : List (γ × List α))⟩).length
        rw [hreads.1, List.length_append]
        have hpos := List.length_pos_iff.mpr hne
        omega

/-- The text stays as it is up to the first match that is replaced. -/
theorem scan_first (hconsumes : ∀ w, r.Lang w → w ≠ []) (behind text : List α) :
    scan r repl 0 behind text = (text, 0) ∨
      ∃ before ahead rest k, text = before ++ ahead ∧ k ∈ r.ends ⟨before.reverse ++ behind, ahead, []⟩ ∧
        (scan r repl 0 behind text).1 = before ++ (repl k ++ rest) ∧ (scan r repl 0 behind text).2 ≠ 0 := by
  refine scan_induction (motive := fun behind text result => result = (text, 0) ∨
    ∃ before ahead rest k, text = before ++ ahead ∧ k ∈ r.ends ⟨before.reverse ++ behind, ahead, []⟩ ∧
      result.1 = before ++ (repl k ++ rest) ∧ result.2 ≠ 0) hconsumes (fun _ => Or.inl rfl) ?_ ?_ behind text
  · rintro behind c text result (rfl | ⟨before, ahead, rest, k, rfl, hk, hresult, hcount⟩)
    · exact Or.inl rfl
    · refine Or.inr ⟨c :: before, ahead, rest, k, rfl, ?_, congrArg (c :: ·) hresult, hcount⟩
      rwa [List.reverse_cons, List.append_assoc]
  · intro behind text k w result hk _ _ _ _
    exact Or.inr ⟨[], text, result.1, k, rfl, hk, rfl, Nat.succ_ne_zero _⟩

end

end Regex
