import NetopsCopilot.Python.Text

/-!
# Lines of Python text (`str.splitlines`)

A line is its text and its ending, which is empty for a last line that is not terminated. `splitLines` and
`joinLines` are inverse to each other on the lines that a text can have (`LinesOk`).
-/

namespace NetopsCopilot

/-- The characters `str.splitlines` splits at. -/
def PyChar.isLineBreak (c : PyChar) : Bool :=
  (10 ≤ c.val && c.val ≤ 13) || (28 ≤ c.val && c.val ≤ 30) || c.val == 0x85 || c.val == 0x2028 ||
    c.val == 0x2029

theorem PyChar.isSpace_of_isLineBreak {c : PyChar} (h : c.isLineBreak = true) : c.isSpace = true := by
  simp only [isLineBreak, isSpace, Bool.or_eq_true, Bool.and_eq_true, decide_eq_true_eq, beq_iff_eq] at h ⊢
  omega

/-- A line and its ending. -/
structure TextLine where
  text : PyStr
  ending : PyStr
deriving DecidableEq

/-- The line as `splitlines(keepends=True)` gives it. -/
def TextLine.whole (l : TextLine) : PyStr := l.text ++ l.ending

/-- The lines of a text; `"\\r\\n"` is one ending. -/
def splitLines : PyStr → List TextLine
  | [] => []
  | c :: s =>
    if c.isLineBreak then
      if c = 13 ∧ s.head? = some 10 then
        match splitLines s with
        | l :: ls => ⟨[], c :: l.ending⟩ :: ls
        | [] => []
      else ⟨[], [c]⟩ :: splitLines s
    else
      match splitLines s with
      | l :: ls => ⟨c :: l.text, l.ending⟩ :: ls
      | [] => [⟨[c], []⟩]

/-- The text of the lines. -/
def joinLines (ls : List TextLine) : PyStr := ls.flatMap TextLine.whole

/-! ### What a text's lines look like -/

def NoBreak (s : PyStr) : Prop := ∀ c ∈ s, c.isLineBreak = false

/-- A line ending. -/
def IsEnding (e : PyStr) : Prop := e = [13, 10] ∨ ∃ c : PyChar, e = [c] ∧ c.isLineBreak = true

/-- The lines of some text. -/
def LinesOk : List TextLine → Prop
  | [] => True
  | l :: ls => NoBreak l.text ∧
      (IsEnding l.ending ∧ (l.ending = [13] → (joinLines ls).head? ≠ some 10) ∨
        l.ending = [] ∧ l.text ≠ [] ∧ ls = []) ∧ LinesOk ls

section

variable {t e s : PyStr}

theorem splitLines_ending (he : IsEnding e) (hnext : e = [13] → s.head? ≠ some 10) :
    splitLines (e ++ s) = ⟨[], e⟩ :: splitLines s := by
  rcases he with rfl | ⟨c, rfl, hc⟩
  · rfl
  · show splitLines (c :: s) = _
    rw [splitLines, if_pos hc, if_neg]
    rintro ⟨rfl, hhead⟩
    exact hnext rfl hhead

theorem splitLines_line (ht : NoBreak t) (he : IsEnding e) (hnext : e = [13] → s.head? ≠ some 10) :
    splitLines (t ++ (e ++ s)) = ⟨t, e⟩ :: splitLines s := by
  induction t with
  | nil => exact splitLines_ending he hnext
  | cons c t ih =>
    obtain ⟨hc, ht⟩ := List.forall_mem_cons.mp ht
    show splitLines (c :: (t ++ (e ++ s))) = _
    rw [splitLines, if_neg (by simp [hc]), ih ht]

theorem splitLines_last (ht : NoBreak t) (hne : t ≠ []) : splitLines t = [⟨t, []⟩] := by
  induction t with
  | nil => exact absurd rfl hne
  | cons c t ih =>
    obtain ⟨hc, ht⟩ := List.forall_mem_cons.mp ht
    rw [splitLines, if_neg (by simp [hc])]
    cases t with
    | nil => rfl
    | cons d t => rw [ih ht (List.cons_ne_nil d t)]

theorem splitLines_joinLines {ls : List TextLine} (h : LinesOk ls) : splitLines (joinLines ls) = ls := by
  induction ls with
  | nil => rfl
  | cons l ls ih =>
    obtain ⟨htext, hending, hrest⟩ := h
    show splitLines ((l.text ++ l.ending) ++ joinLines ls) = _
    rcases hending with ⟨hending, hnext⟩ | ⟨hending, hne, rfl⟩
    · rw [List.append_assoc, splitLines_line htext hending hnext, ih hrest]
    · show splitLines ((l.text ++ l.ending) ++ []) = _
      rw [hending, List.append_nil, List.append_nil, splitLines_last htext hne, ← hending]

/-- The lines of a text, and the text of the lines. -/
theorem splitLines_spec (s : PyStr) : LinesOk (splitLines s) ∧ joinLines (splitLines s) = s := by
  induction s with
  | nil => exact ⟨trivial, rfl⟩
  | cons c s ih =>
    obtain ⟨hok, hjoin⟩ := ih
    rw [splitLines]
    split_ifs with hbreak hcrlf
    · obtain ⟨rfl, hhead⟩ := hcrlf
      obtain ⟨s, rfl⟩ : ∃ s', s = 10 :: s' := by
        cases s with
        | nil => cases hhead
        | cons d s => exact ⟨s, congrArg (· :: s) (Option.some.inj hhead)⟩
      have hsplit : splitLines (10 :: s) = ⟨[], [10]⟩ :: splitLines s :=
        splitLines_ending (Or.inr ⟨10, rfl, by decide⟩) fun h => absurd h (by decide)
      rw [hsplit] at hok hjoin ⊢
      refine ⟨⟨nofun, Or.inl ⟨Or.inl rfl, fun h => by cases h⟩, hok.2.2⟩, ?_⟩
      have hjoin' : [10] ++ joinLines (splitLines s) = 10 :: s := hjoin
      show [13, 10] ++ joinLines (splitLines s) = 13 :: 10 :: s
      exact congrArg (13 :: ·) hjoin'
    · refine ⟨⟨nofun, Or.inl ⟨Or.inr ⟨c, rfl, hbreak⟩, fun h hhead => hcrlf ?_⟩, hok⟩, ?_⟩
      · rw [hjoin] at hhead
        exact ⟨List.head_eq_of_cons_eq h, hhead⟩
      · show [c] ++ joinLines (splitLines s) = c :: s
        rw [hjoin]
        rfl
    · have hc : c.isLineBreak = false := by simpa using hbreak
      cases hlines : splitLines s with
      | nil =>
        rw [hlines] at hjoin
        rw [← hjoin]
        exact ⟨⟨List.forall_mem_singleton.mpr hc, Or.inr ⟨rfl, List.cons_ne_nil _ _, rfl⟩, trivial⟩, rfl⟩
      | cons l ls =>
        rw [hlines] at hok hjoin
        obtain ⟨htext, hending, hrest⟩ := hok
        refine ⟨⟨List.forall_mem_cons.mpr ⟨hc, htext⟩, ?_, hrest⟩, ?_⟩
        · rcases hending with hending | ⟨hending, -, hnil⟩
          · exact Or.inl hending
          · exact Or.inr ⟨hending, List.cons_ne_nil _ _, hnil⟩
        · rw [← hjoin]
          rfl

theorem LinesOk.noBreak {ls : List TextLine} (h : LinesOk ls) : ∀ l ∈ ls, NoBreak l.text := by
  induction ls with
  | nil => exact nofun
  | cons l ls ih => exact List.forall_mem_cons.mpr ⟨h.1, ih h.2.2⟩

end

/-! ### Stripping one end -/

/-- `s[: len(s) - len(s.lstrip())]`. -/
def indentation (s : PyStr) : PyStr := s.takeWhile PyChar.isSpace

end NetopsCopilot
