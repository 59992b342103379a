import Mathlib.Algebra.GroupWithZero.Nat
import Mathlib.Data.Nat.Digits.Lemmas
import NetopsCopilot.Lib.PrefixCode
import NetopsCopilot.Lib.Rows
import NetopsCopilot.Python.Json

/-!
# The canonical text determines the value

`Json.Same` is equality of two JSON values up to the order of object members at any depth: what `==` on
dictionaries compares, with scalars compared as JSON (`1`, `1.0` and `true` differ). `dumps_eq_iff` says
that two values have the same canonical text exactly if they are the same value.

A string is written as the escapes of its UTF-16 units, so two texts share their escapes when one has a
character above the basic plane where the other has its two surrogates as separate code points. `Paired`
excludes the second kind of text; it holds of every text that can be encoded as UTF-8.
-/

namespace NetopsCopilot

/-! ### Equality up to member order -/

mutual
/-- The same JSON value, whatever the order of object members. -/
def Json.Same : Json → Json → Prop
  | .null, .null => True
  | .bool a, .bool b => a = b
  | .int m, .int n => m = n
  | .float f, .float g => f = g
  | .str s, .str t => s = t
  | .arr xs, .arr ys => sameItems xs ys
  | .obj ms, .obj ns => ms.length = ns.length ∧ sameMembers ms ns
  | _, _ => False
/-- The same items in the same order. -/
def sameItems : List Json → List Json → Prop
  | [], [] => True
  | v :: xs, w :: ys => v.Same w ∧ sameItems xs ys
  | _, _ => False
/-- Every member has the same value in the other object. -/
def sameMembers : List (PyStr × Json) → List (PyStr × Json) → Prop
  | [], _ => True
  | (k, v) :: ms, ns => (∃ w, (k, w) ∈ ns ∧ v.Same w) ∧ sameMembers ms ns
end

theorem sameItems_iff {xs ys : List Json} : sameItems xs ys ↔ List.Forall₂ Json.Same xs ys := by
  induction xs generalizing ys with
  | nil => cases ys <;> simp [sameItems]
  | cons v xs ih => cases ys <;> simp [sameItems, ih]

theorem sameMembers_iff {ms ns : List (PyStr × Json)} :
    sameMembers ms ns ↔ ∀ m ∈ ms, ∃ w, (m.1, w) ∈ ns ∧ m.2.Same w := by
  induction ms with
  | nil => simp [sameMembers]
  | cons m ms ih =>
    obtain ⟨k, v⟩ := m
    rw [sameMembers, ih, List.forall_mem_cons]

/-- Induction over the items and members of a value. -/
theorem Json.memInduction {P : Json → Prop} (scalar : ∀ v, (∀ xs, v ≠ .arr xs) → (∀ ms, v ≠ .obj ms) → P v)
    (arr : ∀ items, (∀ v ∈ items, P v) → P (.arr items))
    (obj : ∀ members : List (PyStr × Json), (∀ m ∈ members, P m.2) → P (.obj members)) (v : Json) :
    P v :=
  match v with
  | .null | .bool _ | .int _ | .float _ | .str _ => scalar _ nofun nofun
  | .arr items => arr items fun w hw =>
    have := List.sizeOf_lt_of_mem hw
    Json.memInduction scalar arr obj w
  | .obj members => obj members fun m hm =>
    have hlt := List.sizeOf_lt_of_mem hm
    have : sizeOf m.2 < sizeOf m := by
      obtain ⟨k, w⟩ := m
      simp only [Prod.mk.sizeOf_spec]
      omega
    Json.memInduction scalar arr obj m.2

theorem dumpsItems_eq (items : List Json) : dumpsItems items = items.map Json.dumps := by
  induction items with
  | nil => rfl
  | cons v items ih => rw [dumpsItems, ih, List.map_cons]

theorem dumpsMembers_eq (members : List (PyStr × Json)) :
    dumpsMembers members = members.map fun m => (m.1, m.2.dumps) := by
  induction members with
  | nil => rfl
  | cons m members ih =>
    obtain ⟨k, v⟩ := m
    rw [dumpsMembers, ih, List.map_cons]

theorem dictItems_iff {items : List Json} : dictItems items ↔ ∀ v ∈ items, v.Dict := by
  induction items with
  | nil => simp [dictItems]
  | cons v items ih => simp [dictItems, ih]

theorem dictMembers_iff {members : List (PyStr × Json)} :
    dictMembers members ↔ ∀ m ∈ members, m.2.Dict := by
  induction members with
  | nil => simp [dictMembers]
  | cons m members ih =>
    obtain ⟨k, v⟩ := m
    simp [dictMembers, ih]

/-! ### The same value has the same text -/

/-- The members of two objects, as texts, are the same up to order. -/
theorem perm_of_same {ms ns : List (PyStr × PyStr)} (hms : (ms.map Prod.fst).Nodup)
    (hlen : ms.length = ns.length) (h : ∀ m ∈ ms, m ∈ ns) : ms.Perm ns :=
  ((List.Nodup.of_map _ hms).subperm fun m hm => h m hm).perm_of_length_le (by omega)

/-- Sorting by distinct keys forgets the order of the members. -/
theorem sortMembers_perm {ms ns : List (PyStr × PyStr)} (hms : (ms.map Prod.fst).Nodup)
    (h : ms.Perm ns) : sortMembers ms = sortMembers ns := by
  have hpairwise : ∀ l : List (PyStr × PyStr), (sortMembers l).Pairwise fun a b => a.1 ≤ b.1 := by
    intro l
    have : IsTrans (PyStr × PyStr) fun a b => a.1 ≤ b.1 := ⟨fun _ _ _ => le_trans⟩
    have : Std.Total fun a b : PyStr × PyStr => a.1 ≤ b.1 := ⟨fun a b => le_total a.1 b.1⟩
    exact List.pairwise_insertionSort _ l
  have hperm : (sortMembers ms).Perm (sortMembers ns) :=
    (List.perm_insertionSort _ ms).trans (h.trans (List.perm_insertionSort _ ns).symm)
  refine hperm.eq_of_pairwise (fun a b ha hb hab hba => ?_) (hpairwise ms) (hpairwise ns)
  have ha' : a ∈ ms := (List.mem_insertionSort _).mp ha
  have hb' : b ∈ ms := h.mem_iff.mpr ((List.mem_insertionSort _).mp hb)
  exact List.inj_on_of_nodup_map hms ha' hb' (le_antisymm hab hba)

theorem Json.Same.dumps_eq {v : Json} : ∀ {w : Json}, v.Same w → v.Dict → w.Dict → v.dumps = w.dumps := by
  induction v using Json.memInduction with
  | scalar v harr hobj =>
    intro w h _ _
    cases v <;> cases w <;> simp_all [Json.Same]
  | arr items ih =>
    intro w h hv hw
    cases w <;> try exact h.elim
    next items' =>
    rw [Json.Same, sameItems_iff] at h
    rw [Json.Dict, dictItems_iff] at hv hw
    have hmap : items.map Json.dumps = items'.map Json.dumps := by
      induction h with
      | nil => rfl
      | cons hvw _ ih' =>
        simp only [List.forall_mem_cons] at ih hv hw
        rw [List.map_cons, List.map_cons, ih.1 hvw hv.1 hw.1, ih' ih.2 hv.2 hw.2]
    rw [Json.dumps, Json.dumps, dumpsItems_eq, dumpsItems_eq, hmap]
  | obj members ih =>
    intro w h hv hw
    cases w <;> try exact h.elim
    next members' =>
    rw [Json.Same, sameMembers_iff] at h
    rw [Json.Dict, dictMembers_iff] at hv hw
    have hkeys : ((dumpsMembers members).map Prod.fst).Nodup := by
      rw [dumpsMembers_eq, List.map_map]
      exact hv.1
    have hsub : ∀ m ∈ dumpsMembers members, m ∈ dumpsMembers members' := by
      intro m hm
      rw [dumpsMembers_eq, List.mem_map] at hm
      obtain ⟨⟨k, u⟩, hmem, rfl⟩ := hm
      obtain ⟨u', hmem', hsame⟩ := h.2 _ hmem
      rw [dumpsMembers_eq, List.mem_map]
      exact ⟨(k, u'), hmem', by rw [ih _ hmem hsame (hv.2 _ hmem) (hw.2 _ hmem')]⟩
    have hlen : (dumpsMembers members).length = (dumpsMembers members').length := by
      rw [dumpsMembers_eq, dumpsMembers_eq, List.length_map, List.length_map, h.1]
    rw [Json.dumps, Json.dumps, sortMembers_perm hkeys (perm_of_same hkeys hlen hsub)]

/-! ### Numbers -/

/-- The digit a character stands for. -/
def digitValue (c : PyChar) : Nat := if c.val < 58 then c.val - 48 else c.val - 87

theorem digitValue_digitChar {d : Nat} (h : d < 16) : digitValue (digitChar d) = d := by
  interval_cases d <;> rfl

/-- The number a hexadecimal text stands for. -/
def hexValue (s : PyStr) : Nat := s.foldl (fun n c => n * 16 + digitValue c) 0

theorem hexValue_hexFixed (len n : Nat) : hexValue (hexFixed len n) = n % 16 ^ len := by
  induction len generalizing n with
  | zero => simp [hexValue, hexFixed, Nat.mod_one]
  | succ len ih =>
    have hsnoc : hexValue (hexFixed len (n / 16) ++ [digitChar (n % 16)]) =
        hexValue (hexFixed len (n / 16)) * 16 + digitValue (digitChar (n % 16)) := by
      simp [hexValue]
    rw [hexFixed, hsnoc, ih, digitValue_digitChar (Nat.mod_lt _ (by decide)), pow_succ', Nat.mod_mul]
    omega

theorem hexFixed_length (len n : Nat) : (hexFixed len n).length = len := by
  induction len generalizing n with
  | zero => rfl
  | succ len ih => simp [hexFixed, ih]

theorem natText_inj {m n : Nat} (h : natText m = natText n) : m = n := by
  have hdigits : ∀ k, (natText k).reverse.map digitValue = if k = 0 then [0] else Nat.digits 10 k := by
    intro k
    unfold natText
    split_ifs with hk
    · decide +kernel
    · rw [List.reverse_reverse, List.map_map]
      refine (List.map_congr_left fun d hd => ?_).trans (List.map_id _)
      exact digitValue_digitChar (lt_trans (Nat.digits_lt_base (by decide) hd) (by decide))
  have heq := (hdigits m).symm.trans ((congrArg (fun s => s.reverse.map digitValue) h).trans (hdigits n))
  have hvalue := congrArg (Nat.ofDigits 10) heq
  have hof : ∀ k, Nat.ofDigits 10 (if k = 0 then [0] else Nat.digits 10 k) = k := by
    intro k
    split_ifs with hk
    · simp [hk]
    · exact Nat.ofDigits_digits 10 k
  rwa [hof, hof] at hvalue

/-- Digits. -/
def isDigit (c : PyChar) : Bool := 48 ≤ c.val && c.val ≤ 57

theorem isDigit_digitChar {d : Nat} (h : d < 10) : isDigit (digitChar d) = true := by
  interval_cases d <;> rfl

theorem natText_digits (n : Nat) : ∀ c ∈ natText n, isDigit c = true := by
  unfold natText
  split_ifs with hn
  · exact List.forall_mem_singleton.mpr rfl
  · intro c hc
    rw [List.mem_reverse, List.mem_map] at hc
    obtain ⟨d, hd, rfl⟩ := hc
    exact isDigit_digitChar (Nat.digits_lt_base (by decide) hd)

theorem natText_ne_nil (n : Nat) : natText n ≠ [] := by
  unfold natText
  split_ifs with hn
  · decide
  · simpa [Nat.digits_eq_nil_iff_eq_zero] using hn

theorem intText_inj {m n : Int} (h : intText m = intText n) : m = n := by
  have hsign : ∀ a b : Nat, natText a ≠ py "-" ++ natText b := by
    intro a b heq
    have hdash := natText_digits a (Fin.ofNat _ 45) (by rw [heq]; exact List.mem_cons_self)
    exact absurd hdash (by decide)
  cases m with
  | ofNat a =>
    cases n with
    | ofNat b => rw [natText_inj h]
    | negSucc b => exact absurd h (hsign _ _)
  | negSucc a =>
    cases n with
    | ofNat b => exact absurd h.symm (hsign _ _)
    | negSucc b =>
      have hnat := natText_inj (List.append_cancel_left h)
      rw [Nat.succ_injective hnat]

/-! ### Strings -/

instance neZeroUnit : NeZero 0x10000 := ⟨by decide⟩

/-- The escape of one UTF-16 unit. -/
def escapeUnit (u : Fin 0x10000) : PyStr :=
  if u.val = 34 then py "\\\""
  else if u.val = 92 then py "\\\\"
  else if u.val = 10 then py "\\n"
  else if u.val = 13 then py "\\r"
  else if u.val = 9 then py "\\t"
  else if u.val = 12 then py "\\f"
  else if u.val = 8 then py "\\b"
  else if 32 ≤ u.val ∧ u.val ≤ 126 then [Fin.ofNat _ u.val]
  else unicodeEscape u.val

/-- The UTF-16 units of a character. -/
def utf16 (c : PyChar) : List (Fin 0x10000) :=
  if c.val < 0x10000 then [Fin.ofNat _ c.val]
  else [Fin.ofNat _ (0xD800 + (c.val - 0x10000) / 1024), Fin.ofNat _ (0xDC00 + (c.val - 0x10000) % 1024)]

theorem escapeUnit_surrogate {u : Fin 0x10000} (h : 0xD800 ≤ u.val) :
    escapeUnit u = unicodeEscape u.val := by
  unfold escapeUnit
  split_ifs <;> first | omega | rfl

theorem escapeChar_astral {c : PyChar} (h : ¬c.val < 0x10000) : escapeChar c =
    unicodeEscape (0xD800 + (c.val - 0x10000) / 1024) ++
      unicodeEscape (0xDC00 + (c.val - 0x10000) % 1024) := by
  unfold escapeChar
  split_ifs <;> first | omega | rfl

theorem escapeChar_eq (c : PyChar) : escapeChar c = (utf16 c).flatMap escapeUnit := by
  have hlt := c.isLt
  unfold utf16
  split_ifs with hc
  · have hunit : (Fin.ofNat 0x10000 c.val).val = c.val := Nat.mod_eq_of_lt hc
    have hchar : Fin.ofNat 0x110000 c.val = c := Fin.ext (Nat.mod_eq_of_lt hlt)
    simp only [escapeChar, List.flatMap_cons, List.flatMap_nil, List.append_nil, escapeUnit, hunit, hchar,
      hc, if_true]
  · have hhigh : (Fin.ofNat 0x10000 (0xD800 + (c.val - 0x10000) / 1024)).val =
        0xD800 + (c.val - 0x10000) / 1024 := Nat.mod_eq_of_lt (by omega)
    have hlow : (Fin.ofNat 0x10000 (0xDC00 + (c.val - 0x10000) % 1024)).val =
        0xDC00 + (c.val - 0x10000) % 1024 := Nat.mod_eq_of_lt (by omega)
    rw [escapeChar_astral hc, List.flatMap_cons, List.flatMap_cons, List.flatMap_nil, List.append_nil,
      escapeUnit_surrogate (by omega), escapeUnit_surrogate (by omega), hhigh, hlow]

/-- What a short escape stands for. -/
def shortEscape (c : PyChar) : Nat :=
  if c.val = 110 then 10
  else if c.val = 114 then 13
  else if c.val = 116 then 9
  else if c.val = 102 then 12
  else if c.val = 98 then 8
  else c.val

/-- Reads the escape of one unit. -/
def readUnit : PyStr → Option (Fin 0x10000 × PyStr)
  | [] => none
  | c :: t =>
    if c.val ≠ 92 then some (Fin.ofNat _ c.val, t)
    else match t with
      | [] => none
      | d :: t =>
        if d.val = 117 then some (Fin.ofNat _ (hexValue (t.take 4)), t.drop 4)
        else some (Fin.ofNat _ (shortEscape d), t)

theorem readUnit_escapeUnit (u : Fin 0x10000) (t : PyStr) :
    readUnit (escapeUnit u ++ t) = some (u, t) := by
  unfold escapeUnit
  split_ifs with h₁ h₂ h₃ h₄ h₅ h₆ h₇ h₈
  · obtain rfl : u = 34 := Fin.ext h₁
    rfl
  · obtain rfl : u = 92 := Fin.ext h₂
    rfl
  · obtain rfl : u = 10 := Fin.ext h₃
    rfl
  · obtain rfl : u = 13 := Fin.ext h₄
    rfl
  · obtain rfl : u = 9 := Fin.ext h₅
    rfl
  · obtain rfl : u = 12 := Fin.ext h₆
    rfl
  · obtain rfl : u = 8 := Fin.ext h₇
    rfl
  · have hchar : (Fin.ofNat 0x110000 u.val).val = u.val := Nat.mod_eq_of_lt (by omega)
    have hu : Fin.ofNat 0x10000 u.val = u := Fin.ext (Nat.mod_eq_of_lt u.isLt)
    simp only [List.singleton_append, readUnit, hchar, ne_eq, h₂, not_false_eq_true, if_true, hu]
  · have hvalue : hexValue (hexFixed 4 u.val) = u.val := by
      rw [hexValue_hexFixed]
      exact Nat.mod_eq_of_lt u.isLt
    have hlen := hexFixed_length 4 u.val
    have hu : Fin.ofNat 0x10000 u.val = u := Fin.ext (Nat.mod_eq_of_lt u.isLt)
    have hread : readUnit (unicodeEscape u.val ++ t) = some (Fin.ofNat _ (hexValue ((hexFixed 4 u.val ++
      t).take 4)), (hexFixed 4 u.val ++ t).drop 4) := rfl
    rw [hread, List.take_left' hlen, List.drop_left' hlen, hvalue, hu]

theorem prefix_escapeUnit : Codes.Prefix escapeUnit := .of_read readUnit readUnit_escapeUnit

theorem escapeUnit_head (u : Fin 0x10000) : ∃ c w, escapeUnit u = c :: w ∧ c ≠ Fin.ofNat _ 34 := by
  unfold escapeUnit
  split_ifs with h₁ h₂ h₃ h₄ h₅ h₆ h₇ h₈
  on_goal 8 =>
    refine ⟨_, _, rfl, fun h => h₁ ?_⟩
    have hval : u.val % 0x110000 = 34 := congrArg Fin.val h
    omega
  all_goals exact ⟨Fin.ofNat _ 92, _, rfl, by decide⟩

theorem stringText_cons (s : PyStr) :
    stringText s = Fin.ofNat _ 34 :: ((s.flatMap utf16).flatMap escapeUnit ++ [Fin.ofNat _ 34]) := by
  rw [List.flatMap_assoc, stringText, List.flatMap_congr fun c _ => escapeChar_eq c]
  rfl

/-! ### Texts without split pairs -/

/-- The first, and the second, unit of a surrogate pair. -/
def isHighSurrogate (c : PyChar) : Bool := 0xD800 ≤ c.val && c.val < 0xDC00

def isLowSurrogate (c : PyChar) : Bool := 0xDC00 ≤ c.val && c.val < 0xE000

/-- No surrogate pair is written as two code points. -/
def WellPaired (s : PyStr) : Prop := s.IsChain fun a b => ¬(isHighSurrogate a ∧ isLowSurrogate b)

instance (s : PyStr) : Decidable (WellPaired s) := inferInstanceAs (Decidable (List.IsChain _ s))

theorem WellPaired.of_cons {c : PyChar} {s : PyStr} (h : WellPaired (c :: s)) : WellPaired s :=
  List.IsChain.of_cons h

theorem utf16_basic {c : PyChar} (h : c.val < 0x10000) : utf16 c = [Fin.ofNat _ c.val] := if_pos h

theorem utf16_astral {c : PyChar} (h : ¬c.val < 0x10000) : utf16 c =
    [Fin.ofNat _ (0xD800 + (c.val - 0x10000) / 1024), Fin.ofNat _ (0xDC00 + (c.val - 0x10000) % 1024)] :=
  if_neg h

/-- A surrogate pair is not a prefix of the units of a text that splits none. -/
theorem basic_ne_astral {c d : PyChar} (hc : c.val < 0x10000) (hd : ¬d.val < 0x10000) {cs ds : PyStr}
    (hp : WellPaired (c :: cs)) : (c :: cs).flatMap utf16 ≠ (d :: ds).flatMap utf16 := by
  intro h
  have hlt := d.isLt
  rw [List.flatMap_cons, List.flatMap_cons, utf16_basic hc, utf16_astral hd] at h
  simp only [List.cons_append, List.nil_append, List.cons.injEq] at h
  obtain ⟨hfirst, hrest⟩ := h
  have hhigh : c.val = 0xD800 + (d.val - 0x10000) / 1024 := by
    have hval : c.val % 0x10000 = (0xD800 + (d.val - 0x10000) / 1024) % 0x10000 :=
      congrArg Fin.val hfirst
    omega
  cases cs with
  | nil => cases hrest
  | cons c' cs =>
    have hpair := (List.isChain_cons_cons.mp hp).1
    by_cases hc' : c'.val < 0x10000
    · rw [List.flatMap_cons, utf16_basic hc'] at hrest
      simp only [List.cons_append, List.nil_append, List.cons.injEq] at hrest
      have hval : c'.val % 0x10000 = (0xDC00 + (d.val - 0x10000) % 1024) % 0x10000 :=
        congrArg Fin.val hrest.1
      refine hpair ⟨?_, ?_⟩
      · simp only [isHighSurrogate, Bool.and_eq_true, decide_eq_true_eq]
        omega
      · simp only [isLowSurrogate, Bool.and_eq_true, decide_eq_true_eq]
        omega
    · have hlt' := c'.isLt
      rw [List.flatMap_cons, utf16_astral hc'] at hrest
      simp only [List.cons_append, List.nil_append, List.cons.injEq] at hrest
      have hval : (0xD800 + (c'.val - 0x10000) / 1024) % 0x10000 =
          (0xDC00 + (d.val - 0x10000) % 1024) % 0x10000 := congrArg Fin.val hrest.1
      omega

/-- The UTF-16 units determine such a text. -/
theorem utf16_inj {s t : PyStr} (hs : WellPaired s) (ht : WellPaired t)
    (h : s.flatMap utf16 = t.flatMap utf16) : s = t := by
  have hne : ∀ (c : PyChar) (cs : PyStr), (c :: cs).flatMap utf16 ≠ [] := by
    intro c cs hnil
    by_cases hc : c.val < 0x10000
    · simp [utf16_basic hc] at hnil
    · simp [utf16_astral hc] at hnil
  induction s generalizing t with
  | nil =>
    cases t with
    | nil => rfl
    | cons d ds => exact absurd h.symm (hne d ds)
  | cons c cs ih =>
    cases t with
    | nil => exact absurd h (hne c cs)
    | cons d ds =>
      have hltc := c.isLt
      have hltd := d.isLt
      by_cases hc : c.val < 0x10000 <;> by_cases hd : d.val < 0x10000
      · rw [List.flatMap_cons, List.flatMap_cons, utf16_basic hc, utf16_basic hd] at h
        simp only [List.cons_append, List.nil_append, List.cons.injEq] at h
        have hval : c.val % 0x10000 = d.val % 0x10000 := congrArg Fin.val h.1
        have hcd : c = d := Fin.ext (by omega)
        rw [hcd, ih hs.of_cons ht.of_cons h.2]
      · exact absurd h (basic_ne_astral hc hd hs)
      · exact absurd h.symm (basic_ne_astral hd hc ht)
      · rw [List.flatMap_cons, List.flatMap_cons, utf16_astral hc, utf16_astral hd] at h
        simp only [List.cons_append, List.nil_append, List.cons.injEq] at h
        have hhigh := congrArg Fin.val h.1
        have hlow := congrArg Fin.val h.2.1
        simp only [Fin.val_ofNat] at hhigh hlow
        have hcd : c = d := Fin.ext (by omega)
        rw [hcd, ih hs.of_cons ht.of_cons h.2.2]

/-- A string literal can be read off the front of a text. -/
theorem stringText_read {s s' t t' : PyStr} (hs : WellPaired s) (hs' : WellPaired s')
    (h : stringText s ++ t = stringText s' ++ t') : s = s' ∧ t = t' := by
  simp only [stringText_cons, List.cons_append, List.append_assoc, List.nil_append, List.cons.injEq,
    true_and] at h
  obtain ⟨hunits, hrest⟩ := prefix_escapeUnit.flatMap escapeUnit_head h
  exact ⟨utf16_inj hs hs' hunits, hrest⟩

/-! ### Scalars -/

/-- The characters of JSON structure, which no number or name has. -/
def isMark (c : PyChar) : Bool := c ∈ py "\",:[]\x7b\x7d"

/-- Numbers. -/
def Json.isNumber : Json → Bool
  | .int _ | .float _ => true
  | _ => false

/-- `null`, `true` and `false`. -/
def Json.isName : Json → Bool
  | .null | .bool _ => true
  | _ => false

theorem intText_chars (n : Int) : ∀ c ∈ intText n, isDigit c = true ∨ c = Fin.ofNat _ 45 := by
  intro c hc
  cases n with
  | ofNat n => exact Or.inl (natText_digits n c hc)
  | negSucc n =>
    rcases List.mem_append.mp hc with hc | hc
    · exact Or.inr (List.mem_singleton.mp hc)
    · exact Or.inl (natText_digits _ c hc)

theorem isFloatChar_of_isDigit {c : PyChar} (h : isDigit c = true) : isFloatChar c = true := by
  obtain ⟨n, hn⟩ := c
  simp only [isDigit, Bool.and_eq_true, decide_eq_true_eq] at h
  obtain ⟨hlow, hhigh⟩ := h
  interval_cases n <;> rfl

theorem not_floatMark_of_isDigit {c : PyChar} (h : isDigit c = true) : isFloatMark c = false := by
  obtain ⟨n, hn⟩ := c
  simp only [isDigit, Bool.and_eq_true, decide_eq_true_eq] at h
  obtain ⟨hlow, hhigh⟩ := h
  interval_cases n <;> rfl

theorem number_chars {v : Json} (h : v.isNumber = true) : ∀ c ∈ v.dumps, isFloatChar c = true := by
  cases v with
  | int n =>
    intro c hc
    rcases intText_chars n c hc with hdigit | rfl
    · exact isFloatChar_of_isDigit hdigit
    · decide
  | float f => exact List.all_eq_true.mp f.chars
  | null | bool b | str s | arr items | obj members => cases h

theorem number_ne_nil {v : Json} (h : v.isNumber = true) : v.dumps ≠ [] := by
  cases v with
  | int n =>
    cases n with
    | ofNat n => exact natText_ne_nil n
    | negSucc n => exact List.cons_ne_nil _ _
  | float f =>
    intro hnil
    have hhead := f.head
    rw [show f.text = [] from hnil] at hhead
    cases hhead
  | null | bool b | str s | arr items | obj members => cases h

/-- Two numbers with one text are the same number. -/
theorem number_inj {v w : Json} (hv : v.isNumber = true) (hw : w.isNumber = true)
    (h : v.dumps = w.dumps) : v = w := by
  have hmixed : ∀ (n : Int) (f : PyFloat), intText n ≠ f.text := by
    intro n f heq
    obtain ⟨c, hc, hmark⟩ := List.any_eq_true.mp f.marked
    rcases intText_chars n c (heq ▸ hc) with hdigit | rfl
    · rw [not_floatMark_of_isDigit hdigit] at hmark
      cases hmark
    · exact absurd hmark (by decide)
  cases v with
  | int m =>
    cases w with
    | int n => rw [intText_inj h]
    | float g => exact absurd h (hmixed m g)
    | null | bool b | str s | arr items | obj members => cases hw
  | float f =>
    cases w with
    | int n => exact absurd h.symm (hmixed n f)
    | float g =>
      obtain ⟨text, _, _, _⟩ := f
      obtain rfl : text = g.text := h
      rfl
    | null | bool b | str s | arr items | obj members => cases hw
  | null | bool b | str s | arr items | obj members => cases hv

/-- Names and numbers. -/
def Json.isToken (v : Json) : Bool := v.isName || v.isNumber

theorem name_text {v : Json} (h : v.isName = true) : v.dumps ∈ [py "null", py "true", py "false"] := by
  cases v with
  | null => simp [Json.dumps]
  | bool b => cases b <;> simp [Json.dumps]
  | int n | float f | str s | arr items | obj members => cases h

theorem name_inj {v w : Json} (hv : v.isName = true) (hw : w.isName = true)
    (h : v.dumps = w.dumps) : v = w := by
  have hne : py "null" ≠ py "true" ∧ py "null" ≠ py "false" ∧ py "true" ≠ py "false" := by decide
  obtain ⟨h₁, h₂, h₃⟩ := hne
  cases v with
  | null =>
    cases w with
    | null => rfl
    | bool b =>
      rw [Json.dumps] at h
      cases b
      · exact absurd h h₂
      · exact absurd h h₁
    | int n | float f | str s | arr items | obj members => cases hw
  | bool a =>
    cases w with
    | null =>
      cases a
      · exact absurd h.symm h₂
      · exact absurd h.symm h₁
    | bool b =>
      cases a <;> cases b
      · rfl
      · exact absurd h.symm h₃
      · exact absurd h h₃
      · rfl
    | int n | float f | str s | arr items | obj members => cases hw
  | int n | float f | str s | arr items | obj members => cases hv

theorem not_isMark_of_isFloatChar {c : PyChar} (h : isFloatChar c = true) : isMark c = false := by
  have hall : (py "0123456789+-.eNaInfity").all (fun c => !isMark c) = true := by decide
  have hmem : c ∈ py "0123456789+-.eNaInfity" := of_decide_eq_true h
  simpa using List.all_eq_true.mp hall c hmem

theorem token_chars {v : Json} (h : v.isToken = true) : ∀ c ∈ v.dumps, (!isMark c) = true := by
  have hnames : ∀ s ∈ [py "null", py "true", py "false"], s.all (fun c => !isMark c) = true := by decide
  rw [Json.isToken, Bool.or_eq_true] at h
  rcases h with h | h
  · exact List.all_eq_true.mp (hnames _ (name_text h))
  · intro c hc
    rw [not_isMark_of_isFloatChar (number_chars h c hc)]
    rfl

theorem token_ne_nil {v : Json} (h : v.isToken = true) : v.dumps ≠ [] := by
  rw [Json.isToken, Bool.or_eq_true] at h
  rcases h with h | h
  · have hnames : ∀ s ∈ [py "null", py "true", py "false"], s ≠ [] := by decide
    exact hnames _ (name_text h)
  · exact number_ne_nil h

/-- A name has a character that no number has. -/
theorem name_ne_number {v w : Json} (hv : v.isName = true) (hw : w.isNumber = true) :
    v.dumps ≠ w.dumps := by
  have hnames : ∀ s ∈ [py "null", py "true", py "false"], s.any (fun c => !isFloatChar c) = true := by
    decide
  intro h
  obtain ⟨c, hc, hnot⟩ := List.any_eq_true.mp (hnames _ (name_text hv))
  rw [number_chars hw c (h ▸ hc)] at hnot
  cases hnot

theorem token_inj {v w : Json} (hv : v.isToken = true) (hw : w.isToken = true)
    (h : v.dumps = w.dumps) : v = w := by
  rw [Json.isToken, Bool.or_eq_true] at hv hw
  rcases hv with hv | hv <;> rcases hw with hw | hw
  · exact name_inj hv hw h
  · exact absurd h (name_ne_number hv hw)
  · exact absurd h.symm (name_ne_number hw hv)
  · exact number_inj hv hw h

/-! ### The texts of a value -/

mutual
/-- The strings and keys of a value. -/
def Json.texts : Json → List PyStr
  | .str s => [s]
  | .arr items => textsItems items
  | .obj members => textsMembers members
  | _ => []
/-- The texts of the items. -/
def textsItems : List Json → List PyStr
  | [] => []
  | v :: items => v.texts ++ textsItems items
/-- The keys and the texts of their values. -/
def textsMembers : List (PyStr × Json) → List PyStr
  | [] => []
  | (k, v) :: members => k :: (v.texts ++ textsMembers members)
end

/-- No text of the value splits a surrogate pair. -/
def Json.Paired (v : Json) : Prop := ∀ s ∈ v.texts, WellPaired s

theorem Json.paired_str {s : PyStr} : (Json.str s).Paired ↔ WellPaired s := by
  simp [Json.Paired, Json.texts]

theorem Json.paired_arr {items : List Json} : (Json.arr items).Paired ↔ ∀ v ∈ items, v.Paired := by
  rw [Json.Paired, Json.texts]
  induction items with
  | nil => simp [textsItems]
  | cons v items ih =>
    rw [textsItems, List.forall_mem_append, ih, List.forall_mem_cons]
    rfl

theorem Json.paired_obj {members : List (PyStr × Json)} :
    (Json.obj members).Paired ↔ ∀ m ∈ members, WellPaired m.1 ∧ m.2.Paired := by
  rw [Json.Paired, Json.texts]
  induction members with
  | nil => simp [textsMembers]
  | cons m members ih =>
    obtain ⟨k, v⟩ := m
    rw [textsMembers, List.forall_mem_cons, List.forall_mem_append, ih, List.forall_mem_cons, and_assoc]
    rfl

/-! ### The same text comes from the same value -/

/-- The character that opens a string, an array or an object. -/
def Json.opening : Json → Option PyChar
  | .str _ => some (Fin.ofNat _ 34)
  | .arr _ => some (Fin.ofNat _ 91)
  | .obj _ => some (Fin.ofNat _ 123)
  | _ => none

theorem isToken_of_opening {v : Json} (h : v.opening = none) : v.isToken = true := by
  cases v <;> first | rfl | cases h

/-- The first character of a text. -/
theorem dumps_head (v : Json) : ∃ c w, v.dumps = c :: w ∧
    (v.opening = some c ∧ c ∈ [Fin.ofNat _ 34, Fin.ofNat _ 91, Fin.ofNat _ 123] ∨
      v.opening = none ∧ isMark c = false) := by
  cases hopen : v.opening with
  | none =>
    have htoken := isToken_of_opening hopen
    obtain ⟨c, w, hcons⟩ := List.exists_cons_of_ne_nil (token_ne_nil htoken)
    have hmark := token_chars htoken c (by rw [hcons]; exact List.mem_cons_self)
    exact ⟨c, w, hcons, Or.inr ⟨rfl, by simpa using hmark⟩⟩
  | some o =>
    cases v with
    | str s =>
      cases hopen
      exact ⟨_, _, stringText_cons s, Or.inl ⟨rfl, by simp⟩⟩
    | arr items =>
      cases hopen
      exact ⟨_, _, by rw [Json.dumps]; rfl, Or.inl ⟨rfl, by simp⟩⟩
    | obj members =>
      cases hopen
      exact ⟨_, _, by rw [Json.dumps]; rfl, Or.inl ⟨rfl, by simp⟩⟩
    | null | bool b | int n | float f => cases hopen

/-- Texts that start alike open alike. -/
theorem opening_eq {v w : Json} {t t' : PyStr} (h : v.dumps ++ t = w.dumps ++ t') :
    v.opening = w.opening := by
  have hall : List.all [Fin.ofNat _ 34, Fin.ofNat _ 91, Fin.ofNat _ 123] isMark = true := by decide
  have hmarks := List.all_eq_true.mp hall
  obtain ⟨c, r, hv, hc⟩ := dumps_head v
  obtain ⟨d, r', hw, hd⟩ := dumps_head w
  rw [hv, hw, List.cons_append, List.cons_append, List.cons.injEq] at h
  obtain ⟨rfl, -⟩ := h
  rcases hc with ⟨hv', hc⟩ | ⟨hv', hc⟩ <;> rcases hd with ⟨hw', hd⟩ | ⟨hw', hd⟩
  · rw [hv', hw']
  · rw [hmarks c hc] at hd
    cases hd
  · rw [hmarks c hd] at hc
    cases hc
  · rw [hv', hw']

/-- What may follow a value. -/
def EndsValue (t : PyStr) : Prop := ∀ c ∈ t.head?, c ∈ py ",]\x7d"

theorem EndsValue.not_mark {t : PyStr} (h : EndsValue t) : ∀ c ∈ t.head?, (!isMark c) = false := by
  have hall : (py ",]\x7d").all isMark = true := by decide
  intro c hc
  simpa using List.all_eq_true.mp hall c (h c hc)

theorem joinComma_cons (t : PyStr) (ts : List PyStr) :
    joinComma (t :: ts) = t ++ Codes.separated (Fin.ofNat _ 44) ts := by
  induction ts generalizing t with
  | nil => simp [joinComma, Codes.separated]
  | cons u ts ih =>
    rw [joinComma, ih u, List.append_assoc]
    · rfl
    · intro heq
      cases heq

/-- Words between commas, up to a closing bracket. -/
theorem joinComma_read {α : Type} {code : α → PyStr} {R : α → α → Prop} {stop : PyChar}
    (hstop : stop ∈ py "]\x7d") (hhead : ∀ a, ∃ c w, code a = c :: w ∧ c ∉ py ",]\x7d") {xs ys : List α}
    {t t' : PyStr} (hread : ∀ a ∈ xs, ∀ b ∈ ys, ∀ u u', EndsValue u → EndsValue u' →
      code a ++ u = code b ++ u' → R a b ∧ u = u')
    (h : joinComma (xs.map code) ++ stop :: t = joinComma (ys.map code) ++ stop :: t') :
    List.Forall₂ R xs ys ∧ t = t' := by
  have hends : stop ∈ py ",]\x7d" := List.mem_cons_of_mem _ hstop
  have hne : Fin.ofNat _ 44 ≠ stop := fun heq => absurd (heq ▸ hstop) (by decide)
  have hEnds : ∀ u : PyStr, (∀ c ∈ u.head?, c = Fin.ofNat _ 44 ∨ c = stop) → EndsValue u := by
    intro u hu c hc
    rcases hu c hc with rfl | rfl
    · decide
    · exact hends
  cases xs with
  | nil =>
    cases ys with
    | nil => exact ⟨.nil, by simpa using h⟩
    | cons y ys =>
      obtain ⟨c, w, hy, hc⟩ := hhead y
      rw [List.map_cons, joinComma_cons, hy] at h
      simp only [List.map_nil, joinComma, List.nil_append, List.cons_append, List.cons.injEq] at h
      exact absurd hends (h.1 ▸ hc)
  | cons x xs =>
    cases ys with
    | nil =>
      obtain ⟨c, w, hx, hc⟩ := hhead x
      rw [List.map_cons, joinComma_cons, hx] at h
      simp only [List.map_nil, joinComma, List.nil_append, List.cons_append, List.cons.injEq] at h
      exact absurd hends (h.1 ▸ hc)
    | cons y ys =>
      have hsep : Codes.separated (Fin.ofNat _ 44) ((x :: xs).map code) ++ stop :: t =
          Codes.separated (Fin.ofNat _ 44) ((y :: ys).map code) ++ stop :: t' := by
        rw [List.map_cons, List.map_cons, joinComma_cons, joinComma_cons] at h
        simpa [Codes.separated] using h
      exact Codes.separated_read hne (fun a ha b hb u u' hu hu' => hread a ha b hb u u' (hEnds u hu)
        (hEnds u' hu')) hsep

/-- The text of one member. -/
def entryText (m : PyStr × Json) : PyStr := stringText m.1 ++ py ":" ++ m.2.dumps

theorem dumps_obj (members : List (PyStr × Json)) : (Json.obj members).dumps =
    Fin.ofNat _ 123 :: (joinComma ((sortMembers members).map entryText) ++ [Fin.ofNat _ 125]) := by
  have hsort : (sortMembers members).map (fun m => (m.1, m.2.dumps)) =
      sortMembers (members.map fun m => (m.1, m.2.dumps)) :=
    List.map_insertionSort _ _ _ _ fun _ _ _ _ => Iff.rfl
  rw [Json.dumps, dumpsMembers_eq, ← hsort, List.map_map]
  rfl

theorem dumps_arr (items : List Json) : (Json.arr items).dumps =
    Fin.ofNat _ 91 :: (joinComma (items.map Json.dumps) ++ [Fin.ofNat _ 93]) := by
  rw [Json.dumps, dumpsItems_eq]
  rfl

theorem entryText_head (m : PyStr × Json) : ∃ c w, entryText m = c :: w ∧ c ∉ py ",]\x7d" := by
  have hcons : entryText m = Fin.ofNat _ 34 :: ((m.1.flatMap utf16).flatMap escapeUnit ++
      [Fin.ofNat _ 34] ++ py ":" ++ m.2.dumps) := by
    rw [entryText, stringText_cons]
    rfl
  exact ⟨_, _, hcons, by decide⟩

theorem dumps_head_open (v : Json) : ∃ c w, v.dumps = c :: w ∧ c ∉ py ",]\x7d" := by
  have hall : (py ",]\x7d").all isMark = true := by decide
  obtain ⟨c, w, hv, ⟨-, hc⟩ | ⟨-, hc⟩⟩ := dumps_head v
  · refine ⟨c, w, hv, ?_⟩
    revert hc
    simp only [List.mem_cons, List.not_mem_nil, or_false]
    rintro (rfl | rfl | rfl) <;> decide
  · refine ⟨c, w, hv, fun hmem => ?_⟩
    rw [List.all_eq_true.mp hall c hmem] at hc
    cases hc

/-- Ordered members that match are the members of the same object. -/
theorem same_obj {ms ns : List (PyStr × Json)}
    (h : List.Forall₂ (fun m n => m.1 = n.1 ∧ m.2.Same n.2) (sortMembers ms) (sortMembers ns)) :
    (Json.obj ms).Same (.obj ns) := by
  refine ⟨?_, sameMembers_iff.mpr fun m hm => ?_⟩
  · have hlen := h.length_eq
    rwa [sortMembers, sortMembers, List.length_insertionSort, List.length_insertionSort] at hlen
  · obtain ⟨n, hn, hkey, hsame⟩ := Rows.exists_match h ((List.mem_insertionSort _).mpr hm)
    exact ⟨n.2, hkey ▸ (List.mem_insertionSort _).mp hn, hsame⟩

theorem Json.Same.refl_token {v : Json} (h : v.isToken = true) : v.Same v := by
  cases v <;> first | rfl | trivial

/-- **A value can be read off the front of a text.** -/
theorem Json.dumps_read {v : Json} : ∀ {w : Json} {t t' : PyStr}, v.Paired → w.Paired → EndsValue t →
    EndsValue t' → v.dumps ++ t = w.dumps ++ t' → v.Same w ∧ t = t' := by
  induction v using Json.memInduction with
  | scalar v harr hobj =>
    intro w t t' hv hw ht ht' h
    have hopen := opening_eq h
    cases hs : v.opening with
    | none =>
      have hvtoken := isToken_of_opening hs
      have hwtoken := isToken_of_opening (hopen.symm.trans hs)
      obtain ⟨htext, hrest⟩ := Codes.token (token_chars hvtoken) (token_chars hwtoken) ht.not_mark
        ht'.not_mark h
      obtain rfl := token_inj hvtoken hwtoken htext
      exact ⟨.refl_token hvtoken, hrest⟩
    | some o =>
      cases v <;> try cases hs
      · next s =>
        cases w <;> try cases hopen
        next s' =>
        exact stringText_read (paired_str.mp hv) (paired_str.mp hw) h
      · next items => exact absurd rfl (harr items)
      · next members => exact absurd rfl (hobj members)
  | arr items ih =>
    intro w t t' hv hw ht ht' h
    have hopen := opening_eq h
    cases w <;> try cases hopen
    next items' =>
    rw [Json.paired_arr] at hv hw
    simp only [dumps_arr, List.cons_append, List.append_assoc, List.nil_append, List.cons.injEq,
      true_and] at h
    obtain ⟨hitems, hrest⟩ := joinComma_read (R := Json.Same) (by decide) dumps_head_open
      (fun a ha b hb u u' hu hu' hread => ih a ha (hv a ha) (hw b hb) hu hu' hread) h
    exact ⟨sameItems_iff.mpr hitems, hrest⟩
  | obj members ih =>
    intro w t t' hv hw ht ht' h
    have hopen := opening_eq h
    cases w <;> try cases hopen
    next members' =>
    rw [Json.paired_obj] at hv hw
    simp only [dumps_obj, List.cons_append, List.append_assoc, List.nil_append, List.cons.injEq,
      true_and] at h
    obtain ⟨hmembers, hrest⟩ := joinComma_read (R := fun m n => m.1 = n.1 ∧ m.2.Same n.2) (by decide)
      entryText_head (fun a ha b hb u u' hu hu' hread => by
        replace ha := (List.mem_insertionSort _).mp ha
        replace hb := (List.mem_insertionSort _).mp hb
        simp only [entryText, List.append_assoc] at hread
        obtain ⟨hkey, hread⟩ := stringText_read (hv a ha).1 (hw b hb).1 hread
        obtain ⟨hsame, hrest⟩ := ih a ha (hv a ha).2 (hw b hb).2 hu hu' (List.append_cancel_left hread)
        exact ⟨⟨hkey, hsame⟩, hrest⟩) h
    exact ⟨same_obj hmembers, hrest⟩

/-- **The canonical text determines the value**, up to the order of object members. -/
theorem Json.dumps_eq_iff {v w : Json} (hv : v.Dict) (hw : w.Dict) (pv : v.Paired) (pw : w.Paired) :
    v.dumps = w.dumps ↔ v.Same w := by
  refine ⟨fun h => ?_, fun h => h.dumps_eq hv hw⟩
  have hread : v.dumps ++ [] = w.dumps ++ [] := by rw [h]
  have hends : EndsValue [] := fun c hc => by simp at hc
  exact (Json.dumps_read pv pw hends hends hread).1

end NetopsCopilot
