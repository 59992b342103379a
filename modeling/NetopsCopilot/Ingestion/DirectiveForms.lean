import NetopsCopilot.Ingestion.PatternRuns

/-!
# The forms of a secret

The ten directive forms, with their words in any letter case and any whitespace between them (`Directive`). Each has
a rule of its own, which finds exactly the secret behind the form's head (`rule_hits`).
-/

namespace NetopsCopilot

open Re

/-! ### The forms -/

/-- A line of one of the forms, without its indentation and its secret. -/
inductive Directive where
  /-- `crypto isakmp key [t] S`, and `address` or `hostname` with its arguments. -/
  | isakmpKey (crypto : Cased "crypto") (g₁ : Gap) (isakmp : Cased "isakmp") (g₂ : Gap) (key : Cased "key") (g₃ : Gap)
      (type : Option (Decimal × Gap)) (g₄ : Gap) (peer : EitherCased "address" "hostname") (arguments : Arguments)
  /-- `pre-shared-key [local|remote] [t] S`. -/
  | preSharedKey (keyword : Cased "pre-shared-key") (side : Option (Gap × EitherCased "local" "remote")) (g : Gap)
      (type : Option (Decimal × Gap))
  /-- `username NAME [privilege N] password|secret [t] S`. -/
  | username (user : Cased "username") (g₁ : Gap) (name : Word)
      (privilege : Option (Gap × Cased "privilege" × Gap × Decimal)) (g₂ : Gap)
      (keyword : EitherCased "password" "secret") (g₃ : Gap) (type : Option (Decimal × Gap))
  /-- `snmp-server community S` and its arguments. -/
  | community (snmpServer : Cased "snmp-server") (g₁ : Gap) (word : Cased "community") (g₂ : Gap)
      (arguments : Arguments)
  /-- `[enable [algorithm-type A]] password|secret [t] S`. -/
  | password (enable : Option (Cased "enable" × Option (Gap × Cased "algorithm-type" × Gap × Word) × Gap))
      (keyword : EitherCased "password" "secret") (g : Gap) (type : Option (Decimal × Gap))
  /-- `neighbor N password [t] S`. -/
  | neighbor (word : Cased "neighbor") (g₁ : Gap) (name : Word) (g₂ : Gap) (keyword : Cased "password")
      (g₃ : Gap) (type : Option (Decimal × Gap))
  /-- `password= S` or `password: S`. -/
  | assignedPassword (keyword : Cased "password") (sign : Sign) (g : Blanks)
  /-- `Authorization: Bearer S`. -/
  | authorization (word : Cased "authorization") (g₁ : Blanks) (scheme : Cased "bearer") (g₂ : Gap)
  /-- `Bearer S` and what follows. -/
  | bearer (scheme : Cased "bearer") (g : Gap) (arguments : Arguments)
  /-- `x-api-key` or `api-key`, `=` or `:`, and `S`. -/
  | apiKey (x : Option (Cased "x")) (api : Cased "api") (key : Cased "key") (g₁ : Blanks) (sign : Sign)
      (g₂ : Blanks)

namespace Directive

/-- The text in front of the secret. -/
def head : Directive → PyStr
  | isakmpKey crypto g₁ isakmp g₂ key g₃ type _ _ _ =>
    crypto.text ++ (g₁.text ++ (isakmp.text ++ (g₂.text ++ (key.text ++ (g₃.text ++ typeText type)))))
  | preSharedKey keyword none g type => keyword.text ++ (g.text ++ typeText type)
  | preSharedKey keyword (some (g₁, side)) g type =>
    keyword.text ++ (g₁.text ++ (side.text ++ (g.text ++ typeText type)))
  | username user g₁ name none g₂ keyword g₃ type =>
    user.text ++ (g₁.text ++ (name.text ++ (g₂.text ++ (keyword.text ++ (g₃.text ++ typeText type)))))
  | username user g₁ name (some (g, privilege, g', level)) g₂ keyword g₃ type =>
    user.text ++ (g₁.text ++ (name.text ++ ((g.text ++ (privilege.text ++ (g'.text ++ level.text))) ++
      (g₂.text ++ (keyword.text ++ (g₃.text ++ typeText type))))))
  | community snmpServer g₁ word g₂ _ =>
    snmpServer.text ++ (g₁.text ++ (word.text ++ g₂.text))
  | password none keyword g type => keyword.text ++ (g.text ++ typeText type)
  | password (some (enable, none, g')) keyword g type =>
    enable.text ++ (g'.text ++ (keyword.text ++ (g.text ++ typeText type)))
  | password (some (enable, some (g₁, algorithmType, g₂, algorithm), g')) keyword g type =>
    enable.text ++ (g₁.text ++ (algorithmType.text ++ (g₂.text ++ (algorithm.text ++ (g'.text ++
      (keyword.text ++ (g.text ++ typeText type)))))))
  | neighbor word g₁ name g₂ keyword g₃ type =>
    word.text ++ (g₁.text ++ (name.text ++ (g₂.text ++ (keyword.text ++ (g₃.text ++ typeText type)))))
  | assignedPassword keyword sign g => keyword.text ++ (sign.text ++ g.text)
  | authorization word g₁ scheme g₂ =>
    word.text ++ (Sign.colon.text ++ (g₁.text ++ (scheme.text ++ g₂.text)))
  | bearer scheme g _ => scheme.text ++ g.text
  | apiKey none api key g₁ sign g₂ =>
    api.text ++ ([45] ++ (key.text ++ (g₁.text ++ (sign.text ++ g₂.text))))
  | apiKey (some x) api key g₁ sign g₂ =>
    x.text ++ ([45] ++ (api.text ++ ([45] ++ (key.text ++ (g₁.text ++ (sign.text ++ g₂.text))))))

/-- The text behind the secret. -/
def arguments : Directive → PyStr
  | isakmpKey _ _ _ _ _ _ _ g₄ peer arguments => g₄.text ++ (peer.text ++ arguments.text)
  | community _ _ _ _ arguments => arguments.text
  | bearer _ _ arguments => arguments.text
  | _ => []

section

variable (U : UnicodeData)

/-- The rules that run before the rule of the form. -/
def rulesBefore : Directive → List InlineRule
  | isakmpKey .. => []
  | preSharedKey .. => [isakmpRule U]
  | username .. => [isakmpRule U, preSharedKeyRule U]
  | community .. => [isakmpRule U, preSharedKeyRule U, usernameRule U]
  | password .. => [isakmpRule U, preSharedKeyRule U, usernameRule U, communityRule]
  | neighbor .. => [isakmpRule U, preSharedKeyRule U, usernameRule U, communityRule, passwordRule U]
  | assignedPassword .. =>
    [isakmpRule U, preSharedKeyRule U, usernameRule U, communityRule, passwordRule U, neighborRule U]
  | authorization .. =>
    [isakmpRule U, preSharedKeyRule U, usernameRule U, communityRule, passwordRule U, neighborRule U,
      assignedPasswordRule U]
  | bearer .. =>
    [isakmpRule U, preSharedKeyRule U, usernameRule U, communityRule, passwordRule U, neighborRule U,
      assignedPasswordRule U, authorizationRule U]
  | apiKey .. =>
    [isakmpRule U, preSharedKeyRule U, usernameRule U, communityRule, passwordRule U, neighborRule U,
      assignedPasswordRule U, authorizationRule U, bearerRule]

/-- The rule of the form. -/
def rule : Directive → InlineRule
  | isakmpKey .. => isakmpRule U
  | preSharedKey .. => preSharedKeyRule U
  | username .. => usernameRule U
  | community .. => communityRule
  | password .. => passwordRule U
  | neighbor .. => neighborRule U
  | assignedPassword .. => assignedPasswordRule U
  | authorization .. => authorizationRule U
  | bearer .. => bearerRule
  | apiKey .. => apiKeyRule U

end

end Directive

/-! ### Running the prefix of a rule -/

/-- The prefix pattern reads `u` first, unless something can be read where whitespace is ahead. -/
def Finds (before : InlinePattern) (b u t : PyStr) : Prop :=
  ∀ (f : Cursor InlineGroup PyChar → Option (Cursor InlineGroup PyChar)) (x : Cursor InlineGroup PyChar), Stuck f →
    f ⟨u.reverse ++ b, t, []⟩ = some x → before.first ⟨b, u ++ t, []⟩ f = some x

section

variable {U : UnicodeData} {indent : Blanks} {S : SecretToken} {args : PyStr} {b : PyStr}

theorem isakmpKey_finds (crypto : Cased "crypto") (g₁ : Gap) (isakmp : Cased "isakmp") (g₂ : Gap)
    (key : Cased "key") (g₃ : Gap) (type : Option (Decimal × Gap))
    (hS : type.isSome = true ∨ (∃ c ∈ S.text, Re.isDigit U c = false) ∨ ∀ c ∈ args, c.isSpace = true) :
    Finds (isakmpKeyPrefix U) [] (indent.text ++ (crypto.text ++ (g₁.text ++ (isakmp.text ++ (g₂.text ++
      (key.text ++ (g₃.text ++ typeText type))))))) (S.text ++ args) := by
  intro f x hstuck h
  simp only [List.reverse_append, List.append_assoc, List.append_nil] at h
  simp only [isakmpKeyPrefix, Regex.first_cat_cons, Regex.first_cat_nil, List.append_assoc]
  apply run_start
  apply run_blanks indent (crypto.begins (by decide) _)
  apply run_cased crypto
  apply run_gap g₁ (isakmp.begins (by decide) _)
  apply run_cased isakmp
  apply run_gap g₂ (key.begins (by decide) _)
  apply run_cased key
  apply run_gap g₃ (begins_typeText (S.begins args))
  apply run_type type S hstuck hS
  simpa using h

/-- Where `local` or `remote` is read in front of the secret, it is read from the secret: what is ahead begins within
the secret, or is the whitespace behind it. -/
theorem side_stuck {g : Gap} {type : Option (Decimal × Gap)}
    {f : Cursor InlineGroup PyChar → Option (Cursor InlineGroup PyChar)} (hargs : ∀ c ∈ args, c.isSpace = true)
    (hstuck : ∀ k, (Begins k.ahead ∨ ∀ c ∈ k.ahead, c.isSpace = true) → f k = none) :
    (Regex.seq spaces1 (oneOf [lit "local", lit "remote"])).first
      ⟨b, g.text ++ (typeText type ++ (S.text ++ args)), []⟩ f = none := by
  refine Regex.first_none fun k hk => hstuck k ?_
  obtain ⟨w, ⟨u, v, rfl, ⟨e, u', rfl, ⟨c, rfl, hc⟩, hu'⟩, hv⟩, hahead, -⟩ := Regex.reads_of_mem_ends hk
  have hblank : ∀ a ∈ [c] ++ u', a.isSpace = true := by
    intro a ha
    rcases List.mem_cons.mp ha with rfl | ha
    · exact hc
    · exact hu' a ha
  obtain ⟨s, hs, hword⟩ : ∃ s ∈ ["local", "remote"], folded v = folded (py s) := by
    rcases hv with hv | hv
    · exact ⟨"local", by simp, folded_eq_of_sameLetter (lang_lit hv)⟩
    · exact ⟨"remote", by simp, folded_eq_of_sameLetter (lang_lit hv)⟩
  have hletters : ∀ s ∈ ["local", "remote"], startsVisible s = true ∧ startsWord s = true ∧
      (py s).all (fun c => !c.isSpace) = true := by decide
  obtain ⟨hbegins, hletter, hall⟩ := hletters s hs
  have hvisible : ∀ a ∈ v, a.isSpace = false :=
    isSpace_of_folded_eq hword fun a ha => by simpa using List.all_eq_true.mp hall a ha
  have hbehind : g.text ++ (typeText type ++ (S.text ++ args)) = ([c] ++ u') ++ (v ++ k.ahead) := by
    rw [← List.append_assoc ([c] ++ u')]
    exact hahead
  obtain ⟨-, hrest⟩ := blank_append_inj g.isSpace hblank (begins_typeText (S.begins args))
    (begins_of_folded hword hbegins _) hbehind
  cases type with
  | some type =>
    obtain ⟨n, g'⟩ := type
    have hstarts : folded (py s) <+: folded (n.text ++ (g'.text ++ (S.text ++ args))) := by
      have hwhole : n.text ++ (g'.text ++ (S.text ++ args)) = v ++ k.ahead := by
        rw [← hrest]
        exact (List.append_assoc ..).symm
      rw [hwhole, folded_append, hword]
      exact List.prefix_append _ _
    exact absurd hstarts ((n.avoids hletter).not_starts (u := []) rfl n.ne_nil)
  | none =>
    have hrest' : S.text ++ args = v ++ k.ahead := hrest
    rcases List.append_eq_append_iff.mp hrest' with ⟨y, hy, hargs'⟩ | ⟨y, hy, hargs'⟩
    · refine Or.inr fun a ha => hargs a ?_
      rw [hargs']
      exact List.mem_append_right _ ha
    · rw [hargs']
      cases y with
      | nil => exact Or.inr hargs
      | cons a y => exact Or.inl ⟨a, y ++ args, rfl, S.visible a (by rw [hy]; simp)⟩

theorem preSharedKey_finds (keyword : Cased "pre-shared-key") (side : Option (Gap × EitherCased "local" "remote"))
    (g : Gap) (type : Option (Decimal × Gap)) (hargs : ∀ c ∈ args, c.isSpace = true) :
    Finds (preSharedKeyPrefix U) [] (indent.text ++ (Directive.preSharedKey keyword side g type).head)
      (S.text ++ args) := by
  intro f x hstuck h
  cases side with
  | none =>
    simp only [Directive.head, List.reverse_append, List.append_assoc, List.append_nil] at h
    simp only [Directive.head, preSharedKeyPrefix, Regex.first_cat_cons, Regex.first_cat_nil, List.append_assoc]
    apply run_start
    apply run_blanks indent (keyword.begins (by decide) _)
    apply run_cased keyword
    rw [Regex.first_opt_skip]
    · apply run_gap g (begins_typeText (S.begins args))
      apply run_type type S hstuck (Or.inr (Or.inr hargs))
      simpa using h
    · exact side_stuck hargs fun k hk => gap_stuck (type_stuck U hstuck) hk
  | some side =>
    obtain ⟨g₁, side⟩ := side
    simp only [Directive.head, List.reverse_append, List.append_assoc, List.append_nil] at h
    simp only [Directive.head, preSharedKeyPrefix, Regex.first_cat_cons, Regex.first_cat_nil, List.append_assoc]
    apply run_start
    apply run_blanks indent (keyword.begins (by decide) _)
    apply run_cased keyword
    apply Regex.first_opt
    rw [Regex.first_seq]
    apply run_gap g₁ (side.begins (by decide) (by decide) _)
    apply run_either side (by decide) (by decide)
    apply run_gap g (begins_typeText (S.begins args))
    apply run_type type S hstuck (Or.inr (Or.inr hargs))
    simpa using h

/-- The text of an optional privilege level. -/
def privilegeText : Option (Gap × Cased "privilege" × Gap × Decimal) → PyStr
  | none => []
  | some (g, privilege, g', level) => g.text ++ (privilege.text ++ (g'.text ++ level.text))

theorem privilegeText_avoids (privilege : Option (Gap × Cased "privilege" × Gap × Decimal)) {s : String}
    (hs : startsVisible s = true) (hs' : startsWord s = true) (hprivilege : Avoids (py "privilege") s) :
    Avoids (privilegeText privilege) s := by
  cases privilege with
  | none => exact avoids_nil
  | some privilege =>
    obtain ⟨g, word, g', level⟩ := privilege
    exact (avoids_of_blank hs g.isSpace).append ((avoids_congr word.folded_eq hprivilege).append
      ((avoids_of_blank hs g'.isSpace).append (level.avoids hs')))

theorem ne_newline_of_noBreak {t : PyStr} (ht : NoBreak t) : ∀ c ∈ t, (c != 10) = true := by
  intro c hc
  have hbreak := ht c hc
  rw [bne_iff_ne]
  rintro rfl
  revert hbreak
  decide

theorem ne_newline_of_visible {t : PyStr} (ht : ∀ c ∈ t, c.isSpace = false) : ∀ c ∈ t, (c != 10) = true := by
  intro c hc
  have hspace := ht c hc
  rw [bne_iff_ne]
  rintro rfl
  revert hspace
  decide

theorem Cased.visible {s : String} (w : Cased s) (hs : (py s).all (fun c => !c.isSpace) = true) :
    ∀ c ∈ w.text, c.isSpace = false :=
  isSpace_of_folded_eq w.folded_eq fun c hc => by simpa using List.all_eq_true.mp hs c hc

theorem privilegeText_newline (privilege : Option (Gap × Cased "privilege" × Gap × Decimal)) :
    ∀ c ∈ privilegeText privilege, (c != 10) = true := by
  cases privilege with
  | none => exact nofun
  | some privilege =>
    obtain ⟨g, word, g', level⟩ := privilege
    intro c hc
    simp only [privilegeText, List.mem_append] at hc
    rcases hc with hc | hc | hc | hc
    · exact ne_newline_of_noBreak g.noBreak c hc
    · exact ne_newline_of_visible (word.visible (by decide)) c hc
    · exact ne_newline_of_noBreak g'.noBreak c hc
    · exact ne_newline_of_visible level.visible c hc

theorem margin_privilegeText (privilege : Option (Gap × Cased "privilege" × Gap × Decimal)) (g : Gap) (t : PyStr) :
    Margin (privilegeText privilege ++ (g.text ++ t)) := by
  cases privilege with
  | none => exact margin_gap g t
  | some privilege =>
    obtain ⟨g', word, g'', level⟩ := privilege
    show Margin ((g'.text ++ (word.text ++ (g''.text ++ level.text))) ++ (g.text ++ t))
    rw [List.append_assoc]
    exact margin_gap g' _

theorem head_username (user : Cased "username") (g₁ : Gap) (name : Word)
    (privilege : Option (Gap × Cased "privilege" × Gap × Decimal)) (g₂ : Gap)
    (keyword : EitherCased "password" "secret") (g₃ : Gap) (type : Option (Decimal × Gap)) :
    (Directive.username user g₁ name privilege g₂ keyword g₃ type).head =
      user.text ++ (g₁.text ++ (name.text ++ (privilegeText privilege ++
        (g₂.text ++ (keyword.text ++ (g₃.text ++ typeText type)))))) := by
  cases privilege with
  | none => rfl
  | some privilege => rfl

/-- No word begins in whitespace. -/
theorem gap_apart (U : UnicodeData) (g : Gap) (b : PyStr) : (g.text.reverse ++ b).head?.any (isWord U) = false := by
  have hne : g.text.reverse ≠ [] := fun h => g.ne_nil (List.reverse_eq_nil_iff.mp h)
  obtain ⟨c, r, hcons⟩ := List.exists_cons_of_ne_nil hne
  have hmem : c ∈ g.text := List.mem_reverse.mp (hcons ▸ List.mem_cons_self)
  rw [hcons]
  exact isWord_of_isSpace (g.isSpace c hmem)

theorem keyword_word {U : UnicodeData} (keyword : EitherCased "password" "secret") (t : PyStr) :
    (keyword.text ++ t).head?.any (isWord U) = true := by
  rcases keyword.folded_eq with h | h
  · exact word_of_folded h (by decide) t
  · exact word_of_folded h (by decide) t

theorem username_finds (user : Cased "username") (g₁ : Gap) (name : Word)
    (privilege : Option (Gap × Cased "privilege" × Gap × Decimal)) (g₂ : Gap)
    (keyword : EitherCased "password" "secret") (g₃ : Gap) (type : Option (Decimal × Gap))
    (hargs : ∀ c ∈ args, c.isSpace = true) (hb : b.head?.any (isWord U) = false) :
    Finds (usernamePrefix U) b (Directive.username user g₁ name privilege g₂ keyword g₃ type).head
      (S.text ++ args) := by
  intro f x hstuck h
  rw [head_username] at h ⊢
  simp only [List.reverse_append, List.append_assoc] at h
  simp only [usernamePrefix, Regex.first_cat_cons, Regex.first_cat_nil, List.append_assoc]
  apply run_boundary hb (word_of_folded user.folded_eq (by decide) _)
  apply run_cased user
  apply run_gap g₁ (begins_of_visible name.ne_nil name.visible _)
  apply run_word name (margin_privilegeText privilege g₂ _)
  rw [← List.append_assoc (privilegeText privilege)]
  apply Regex.first_manyLazy
  · intro c hc
    rcases List.mem_append.mp hc with hc | hc
    · exact privilegeText_newline privilege c hc
    · exact ne_newline_of_noBreak g₂.noBreak c hc
  · intro u v huv hv
    have havoids : ∀ s ∈ ["password", "secret"], ¬folded (py s) <+: folded (v ++ (keyword.text ++ (g₃.text ++
        (typeText type ++ (S.text ++ args))))) := by
      have hwords : ∀ s ∈ ["password", "secret"], startsVisible s = true ∧ startsWord s = true ∧
          Avoids (py "privilege") s := by decide
      intro s hs
      obtain ⟨hvisible, hletter, hprivilege⟩ := hwords s hs
      exact ((privilegeText_avoids privilege hvisible hletter hprivilege).append
        (avoids_of_blank hvisible g₂.isSpace)).not_starts huv hv
    refine Regex.first_look_none (Regex.first_of_nil ?_)
    show (lit "password").ends _ ++ (lit "secret").ends _ = []
    rw [lit_ends_nil (havoids "password" (by simp)), lit_ends_nil (havoids "secret" (by simp)), List.append_nil]
  · rw [List.reverse_append, List.append_assoc]
    apply run_boundary (gap_apart U g₂ _) (keyword_word keyword _)
    apply run_either keyword (by decide) (by decide)
    apply run_gap g₃ (begins_typeText (S.begins args))
    apply run_type type S hstuck (Or.inr (Or.inr hargs))
    simpa using h

theorem community_finds (snmpServer : Cased "snmp-server") (g₁ : Gap) (word : Cased "community") (g₂ : Gap)
    (arguments : Arguments) :
    Finds communityPrefix [] (indent.text ++ (Directive.community snmpServer g₁ word g₂ arguments).head)
      (S.text ++ args) := by
  intro f x hstuck h
  simp only [Directive.head, List.reverse_append, List.append_assoc, List.append_nil] at h
  simp only [Directive.head, communityPrefix, Regex.first_cat_cons, Regex.first_cat_nil, List.append_assoc]
  apply run_start
  apply run_blanks indent (snmpServer.begins (by decide) _)
  apply run_cased snmpServer
  apply run_gap g₁ (word.begins (by decide) _)
  apply run_cased word
  apply run_gap g₂ (S.begins args)
  simpa using h

theorem EitherCased.avoids {s s' s'' : String} (w : EitherCased s s') (h : Avoids (py s) s'')
    (h' : Avoids (py s') s'') : Avoids w.text s'' := by
  rcases w.folded_eq with hw | hw
  · exact avoids_congr hw h
  · exact avoids_congr hw h'

/-- A word is not found behind a gap in front of another. -/
theorem gap_lit_none {s : String} (hs : startsVisible s = true) {rs : List InlinePattern}
    {f : Cursor InlineGroup PyChar → Option (Cursor InlineGroup PyChar)} (g : Gap) {t : PyStr} (ht : Begins t)
    (h : ¬folded (py s) <+: folded t) :
    (spaces1.first ⟨b, g.text ++ t, []⟩ fun k => (Regex.cat (lit s :: rs)).first k f) = none := by
  refine Regex.first_none fun k hk => ?_
  rw [Regex.first_cat_cons]
  refine Regex.first_of_nil (lit_ends_nil fun hstarts => h ?_)
  obtain ⟨w, ⟨u, v, rfl, ⟨c, rfl, hc⟩, hv⟩, hahead, -⟩ := Regex.reads_of_mem_ends hk
  have hblank : ∀ a ∈ [c] ++ v, a.isSpace = true := by
    intro a ha
    rcases List.mem_cons.mp ha with rfl | ha
    · exact hc
    · exact hv a ha
  obtain ⟨-, hrest⟩ := blank_append_inj g.isSpace hblank ht (begins_of_starts hs hstarts) hahead
  rwa [hrest]

theorem keyword_begins (keyword : EitherCased "password" "secret") (t : PyStr) : Begins (keyword.text ++ t) :=
  keyword.begins (by decide) (by decide) t

theorem keyword_ne_nil (keyword : EitherCased "password" "secret") : keyword.text ≠ [] := by
  intro h
  obtain ⟨c, r, hcons, -⟩ := keyword_begins keyword []
  rw [h] at hcons
  cases hcons

theorem password_finds
    (enable : Option (Cased "enable" × Option (Gap × Cased "algorithm-type" × Gap × Word) × Gap))
    (keyword : EitherCased "password" "secret") (g : Gap) (type : Option (Decimal × Gap))
    (hargs : ∀ c ∈ args, c.isSpace = true) :
    Finds (passwordPrefix U) [] (indent.text ++ (Directive.password enable keyword g type).head)
      (S.text ++ args) := by
  intro f x hstuck h
  have hkeyword : ∀ b' : PyStr, f ⟨(typeText type).reverse ++ (g.text.reverse ++ (keyword.text.reverse ++ b')),
      S.text ++ args, []⟩ = some x → (passwordOrSecret.first
        ⟨b', keyword.text ++ (g.text ++ (typeText type ++ (S.text ++ args))), []⟩ fun k =>
          spaces1.first k fun k => (encryptionType U).first k f) = some x := by
    intro b' h
    apply run_either keyword (by decide) (by decide)
    apply run_gap g (begins_typeText (S.begins args))
    exact run_type type S hstuck (Or.inr (Or.inr hargs)) h
  match enable with
  | none =>
    simp only [Directive.head, List.reverse_append, List.append_assoc, List.append_nil] at h
    simp only [Directive.head, passwordPrefix, Regex.first_cat_cons, Regex.first_cat_nil, List.append_assoc]
    apply run_start
    apply run_blanks indent (keyword_begins keyword _)
    rw [Regex.first_opt_skip]
    · apply hkeyword
      simpa using h
    · rw [Regex.first_cat_cons]
      refine Regex.first_of_nil (lit_ends_nil ?_)
      exact (keyword.avoids (by decide) (by decide)).not_starts (u := []) rfl (keyword_ne_nil keyword)
  | some (enable, none, g') =>
    simp only [Directive.head, List.reverse_append, List.append_assoc, List.append_nil] at h
    simp only [Directive.head, passwordPrefix, Regex.first_cat_cons, Regex.first_cat_nil, List.append_assoc]
    apply run_start
    apply run_blanks indent (enable.begins (by decide) _)
    apply Regex.first_opt
    simp only [Regex.first_cat_cons, Regex.first_cat_nil]
    apply run_cased enable
    rw [Regex.first_opt_skip]
    · apply run_gap g' (keyword_begins keyword _)
      apply hkeyword
      simpa using h
    · rw [Regex.first_cat_cons]
      refine gap_lit_none (by decide) g' (keyword_begins keyword _) ?_
      exact (keyword.avoids (by decide) (by decide)).not_starts (u := []) rfl (keyword_ne_nil keyword)
  | some (enable, some (g₁, algorithmType, g₂, algorithm), g') =>
    simp only [Directive.head, List.reverse_append, List.append_assoc, List.append_nil] at h
    simp only [Directive.head, passwordPrefix, Regex.first_cat_cons, Regex.first_cat_nil, List.append_assoc]
    apply run_start
    apply run_blanks indent (enable.begins (by decide) _)
    apply Regex.first_opt
    simp only [Regex.first_cat_cons, Regex.first_cat_nil]
    apply run_cased enable
    apply Regex.first_opt
    simp only [Regex.first_cat_cons, Regex.first_cat_nil]
    apply run_gap g₁ (algorithmType.begins (by decide) _)
    apply run_cased algorithmType
    apply run_gap g₂ (begins_of_visible algorithm.ne_nil algorithm.visible _)
    apply run_word algorithm (margin_gap g' _)
    apply run_gap g' (keyword_begins keyword _)
    apply hkeyword
    simpa using h

theorem neighbor_finds (word : Cased "neighbor") (g₁ : Gap) (name : Word) (g₂ : Gap) (keyword : Cased "password")
    (g₃ : Gap) (type : Option (Decimal × Gap)) (hargs : ∀ c ∈ args, c.isSpace = true) :
    Finds (neighborPrefix U) [] (indent.text ++ (Directive.neighbor word g₁ name g₂ keyword g₃ type).head)
      (S.text ++ args) := by
  intro f x hstuck h
  simp only [Directive.head, List.reverse_append, List.append_assoc, List.append_nil] at h
  simp only [Directive.head, neighborPrefix, Regex.first_cat_cons, Regex.first_cat_nil, List.append_assoc]
  apply run_start
  apply run_blanks indent (word.begins (by decide) _)
  apply run_cased word
  apply run_gap g₁ (begins_of_visible name.ne_nil name.visible _)
  apply run_word name (margin_gap g₂ _)
  apply run_gap g₂ (keyword.begins (by decide) _)
  apply run_cased keyword
  apply run_gap g₃ (begins_typeText (S.begins args))
  apply run_type type S hstuck (Or.inr (Or.inr hargs))
  simpa using h

theorem run_assignment {b t : PyStr} {groups : List (InlineGroup × PyStr)}
    {f : Cursor InlineGroup PyChar → Option (Cursor InlineGroup PyChar)} {x : Cursor InlineGroup PyChar}
    (g₁ : Blanks) (sign : Sign) (g₂ : Blanks) (ht : Begins t)
    (h : f ⟨g₂.text.reverse ++ (sign.text.reverse ++ (g₁.text.reverse ++ b)), t, groups⟩ = some x) :
    assignment.first ⟨b, g₁.text ++ (sign.text ++ (g₂.text ++ t)), groups⟩ f = some x := by
  simp only [assignment, Regex.first_cat_cons, Regex.first_cat_nil]
  apply run_blanks g₁ (sign.begins _)
  apply run_sign sign
  exact run_blanks g₂ ht h

theorem assignedPassword_finds (keyword : Cased "password") (sign : Sign) (g : Blanks)
    (hb : b.head?.any (isWord U) = false) :
    Finds (assignedPasswordPrefix U) b (Directive.assignedPassword keyword sign g).head (S.text ++ args) := by
  intro f x hstuck h
  simp only [Directive.head, List.reverse_append, List.append_assoc] at h
  simp only [Directive.head, assignedPasswordPrefix, Regex.first_cat_cons, Regex.first_cat_nil, List.append_assoc]
  apply run_boundary hb (word_of_folded keyword.folded_eq (by decide) _)
  apply run_cased keyword
  exact run_assignment ⟨[], nofun, nofun⟩ sign g (S.begins args) h

theorem authorization_finds (word : Cased "authorization") (g₁ : Blanks) (scheme : Cased "bearer") (g₂ : Gap)
    (hb : b.head?.any (isWord U) = false) :
    Finds (authorizationPrefix U) b (Directive.authorization word g₁ scheme g₂).head (S.text ++ args) := by
  intro f x hstuck h
  simp only [Directive.head, List.reverse_append, List.append_assoc] at h
  simp only [Directive.head, authorizationPrefix, Regex.first_cat_cons, Regex.first_cat_nil, List.append_assoc]
  apply run_boundary hb (word_of_folded word.folded_eq (by decide) _)
  rw [Regex.first_opt_skip (lit_stuck word.folded_eq (by decide) (by decide))]
  apply run_cased word
  apply run_noBlanks (Sign.colon.begins _)
  apply run_cased (⟨Sign.colon.text, by decide⟩ : Cased ":")
  apply run_blanks g₁ (scheme.begins (by decide) _)
  apply run_cased scheme
  apply run_gap g₂ (S.begins args)
  simpa using h

theorem bearer_finds (scheme : Cased "bearer") (g : Gap) (arguments : Arguments) :
    Finds bearerPrefix [] (indent.text ++ (Directive.bearer scheme g arguments).head) (S.text ++ args) := by
  intro f x hstuck h
  simp only [Directive.head, List.reverse_append, List.append_assoc, List.append_nil] at h
  simp only [Directive.head, bearerPrefix, Regex.first_cat_cons, Regex.first_cat_nil, List.append_assoc]
  apply run_start
  apply run_blanks indent (scheme.begins (by decide) _)
  apply run_cased scheme
  apply run_gap g (S.begins args)
  simpa using h

theorem run_hyphen {b t : PyStr} {groups : List (InlineGroup × PyStr)}
    {f : Cursor InlineGroup PyChar → Option (Cursor InlineGroup PyChar)} :
    hyphen.first ⟨b, [45] ++ t, groups⟩ f = f ⟨45 :: b, t, groups⟩ := Regex.first_char rfl

theorem apiKey_finds (xWord : Option (Cased "x")) (api : Cased "api") (key : Cased "key") (g₁ : Blanks) (sign : Sign)
    (g₂ : Blanks) (hb : b.head?.any (isWord U) = false) :
    Finds (apiKeyPrefix U) b (Directive.apiKey xWord api key g₁ sign g₂).head (S.text ++ args) := by
  intro f x hstuck h
  cases xWord with
  | none =>
    simp only [Directive.head, List.reverse_append, List.append_assoc] at h
    simp only [Directive.head, apiKeyPrefix, Regex.first_cat_cons, Regex.first_cat_nil, List.append_assoc]
    apply run_boundary hb (word_of_folded api.folded_eq (by decide) _)
    show (Regex.alt _ _).first _ _ = some x
    rw [Regex.first_alt_right]
    · simp only [oneOf, Regex.first_cat_cons, Regex.first_cat_nil]
      apply run_cased api
      rw [run_hyphen]
      apply run_cased key
      exact run_assignment g₁ sign g₂ (S.begins args) h
    · rw [Regex.first_cat_cons]
      exact lit_stuck api.folded_eq (by decide) (by decide)
  | some xWord =>
    simp only [Directive.head, List.reverse_append, List.append_assoc] at h
    simp only [Directive.head, apiKeyPrefix, Regex.first_cat_cons, Regex.first_cat_nil, List.append_assoc]
    apply run_boundary hb (word_of_folded xWord.folded_eq (by decide) _)
    apply Regex.first_alt_left
    simp only [Regex.first_cat_cons, Regex.first_cat_nil]
    apply run_cased xWord
    rw [run_hyphen]
    apply run_cased api
    rw [run_hyphen]
    apply run_cased key
    exact run_assignment g₁ sign g₂ (S.begins args) h

end

/-! ### The rule of a form -/

section

variable {U : UnicodeData} {S : SecretToken} {args : PyStr} {b u : PyStr} {id : RedactionRule}
  {before secret : InlinePattern}

/-- Where the prefix is found in front of the secret, the secret is replaced, and the rule goes on behind it. -/
theorem subnBehind_hit (id : RedactionRule) (hfinds : Finds before b u (S.text ++ args))
    (hmargin : ∀ k, Margin k.ahead → secret.ends k = [])
    (hsecret : ∀ b groups,
      (secret.ends ⟨b, S.text ++ args, groups⟩).head? = some ⟨S.text.reverse ++ b, args, groups⟩) :
    (InlineRule.of id before secret).subnBehind b (u ++ (S.text ++ args)) =
      (u ++ (id.marker ++ ((InlineRule.of id before secret).subnBehind (S.text.reverse ++ (u.reverse ++ b)) args).1),
        ((InlineRule.of id before secret).subnBehind (S.text.reverse ++ (u.reverse ++ b)) args).2 + 1) := by
  have hfirst : ((InlineRule.of id before secret).pattern.ends ⟨b, u ++ (S.text ++ args), []⟩).head? =
      some ⟨S.text.reverse ++ (u.reverse ++ b), args, [(.secret, S.text), (.prefixText, u)]⟩ := by
    rw [Regex.head?_eq_first]
    show (Regex.seq (.group .prefixText before) (.group .secret secret)).first _ some = _
    rw [Regex.first_seq, Regex.first_group]
    refine hfinds _ _ (fun k hk => ?_) ?_
    · rw [Regex.first_group]
      exact Regex.first_of_nil (hmargin _ hk)
    · have hstarts : (u ++ (S.text ++ args)).take ((u ++ (S.text ++ args)).length - (S.text ++ args).length) = u := by
        rw [List.length_append, Nat.add_sub_cancel, List.take_left]
      have hsecretText : (S.text ++ args).take ((S.text ++ args).length - args.length) = S.text := by
        rw [List.length_append, Nat.add_sub_cancel, List.take_left]
      rw [Regex.first_group, Regex.first_some, hstarts, hsecret]
      simp only [Option.map_some, hsecretText]
  have hne : u ++ S.text ≠ [] := List.append_ne_nil_of_right_ne_nil u S.ne_nil
  refine (Regex.scan_hit hne hfirst ⟨(List.append_assoc ..).symm, ?_⟩).trans ?_
  · rw [List.reverse_append, List.append_assoc]
  · show ((u ++ id.marker) ++ _, _) = _
    rw [List.append_assoc]
    rfl

/-- An anchored rule does nothing behind the start of a line. -/
theorem subnBehind_anchored {rule : InlineRule} {ss : List String} (h : rule.Anchored ss) {b : PyStr} (hb : b ≠ [])
    (t : PyStr) : rule.subnBehind b t = (t, 0) := by
  have hquiet := @Regex.scan_quiet _ _ rule.pattern (fun k => k.text .prefixText ++ rule.rule.marker) t [] b
    fun x y _ _ => List.eq_nil_iff_forall_not_mem.mpr fun k hk =>
      hb (List.append_eq_nil_iff.mp (h _ _ hk).1).2
  rw [List.append_nil] at hquiet
  unfold InlineRule.subnBehind
  rw [hquiet]
  simp [Regex.scan]

/-- The rule of a form that begins a line. -/
theorem subn_anchored_hit {ss : List String} (h : (InlineRule.of id before secret).Anchored ss)
    (hfinds : Finds before [] u (S.text ++ args)) (hmargin : ∀ k, Margin k.ahead → secret.ends k = [])
    (hsecret : ∀ b groups,
      (secret.ends ⟨b, S.text ++ args, groups⟩).head? = some ⟨S.text.reverse ++ b, args, groups⟩) :
    (InlineRule.of id before secret).subn (u ++ (S.text ++ args)) = (u ++ (id.marker ++ args), 1) := by
  have hne : S.text.reverse ++ (u.reverse ++ []) ≠ [] :=
    List.append_ne_nil_of_left_ne_nil (fun h => S.ne_nil (List.reverse_eq_nil_iff.mp h)) _
  have hhit := subnBehind_hit id hfinds hmargin hsecret
  rw [subnBehind_anchored h hne] at hhit
  exact hhit

/-- The rule of a form that stands anywhere, in front of whitespace. -/
theorem subn_floating_hit {indent : Blanks} (hrule : InlineRule.of id before secret ∈ inlineRules U)
    (hspares : (InlineRule.of id before secret).Spares indent.text (u ++ (S.text ++ args)))
    (hargs : ∀ c ∈ args, c.isSpace = true) (hfinds : Finds before indent.text.reverse u (S.text ++ args))
    (hmargin : ∀ k, Margin k.ahead → secret.ends k = [])
    (hsecret : ∀ b groups,
      (secret.ends ⟨b, S.text ++ args, groups⟩).head? = some ⟨S.text.reverse ++ b, args, groups⟩) :
    (InlineRule.of id before secret).subn ((indent.text ++ u) ++ (S.text ++ args)) =
      ((indent.text ++ u) ++ (id.marker ++ args), 1) := by
  have hhit := subnBehind_hit id hfinds hmargin hsecret
  have hbehind : (InlineRule.of id before secret).subnBehind (S.text.reverse ++ (u.reverse ++ indent.text.reverse)) args =
      (args, 0) := by
    have hne : S.text.reverse ++ (u.reverse ++ indent.text.reverse) ≠ [] :=
      List.append_ne_nil_of_left_ne_nil (fun h => S.ne_nil (List.reverse_eq_nil_iff.mp h)) _
    rw [subnBehind_margin hrule hne (List.cons_ne_nil 32 []) fun c hc => hargs c (List.mem_of_head? hc)]
    exact inside_blank hrule hargs
  rw [hbehind] at hhit
  rw [List.append_assoc, subn_spared hspares, hhit, List.append_assoc]

end

/-! ### What the rules find in front of a secret -/

section

variable {rule : InlineRule} {ss : List String} {lead rest : PyStr}

theorem InlineRule.Floating.spares (h : rule.Floating ss) (havoids : ∀ s ∈ ss, Avoids lead s) :
    rule.Spares lead rest := by
  intro u v huv hv
  refine List.eq_nil_iff_forall_not_mem.mpr fun k hk => ?_
  obtain ⟨s, hs, hstarts⟩ := h _ _ hk
  exact (havoids s hs).not_starts huv hv hstarts

/-- A text and a literal that do not begin alike. -/
def Unlike (p : PyStr) (s : String) : Prop := ¬folded p <+: folded (py s) ∧ ¬folded (py s) <+: folded p

instance (p : PyStr) (s : String) : Decidable (Unlike p s) := inferInstanceAs (Decidable (_ ∧ _))

theorem unlike_congr {p q : PyStr} {s : String} (h : folded p = folded q) (hq : Unlike q s) : Unlike p s := by
  unfold Unlike
  rw [h]
  exact hq

theorem Unlike.not_starts {p t : PyStr} {s : String} (h : Unlike p s) : ¬folded (py s) <+: folded (p ++ t) := by
  intro hstarts
  rw [folded_append] at hstarts
  rcases List.prefix_or_prefix_of_prefix hstarts (List.prefix_append (folded p) (folded t)) with h' | h'
  · exact h.2 h'
  · exact h.1 h'

/-- Behind whitespace, a text does not go on with a literal that its first word is unlike. -/
theorem Unlike.behind_blank (indent : Blanks) {w v t : PyStr} (more : PyStr) {s : String} (h : Unlike w s) (hw : Begins w)
    (hs : startsVisible s = true) (hv : ∀ c ∈ v, c.isSpace = true) (hstarts : folded (py s) <+: folded t) :
    indent.text ++ (w ++ more) ≠ v ++ t := by
  intro hall
  have hbegins : Begins (w ++ more) := by
    obtain ⟨c, r, rfl, hc⟩ := hw
    exact ⟨c, r ++ more, rfl, hc⟩
  obtain ⟨-, hrest⟩ := blank_append_inj indent.isSpace hv hbegins (begins_of_starts hs hstarts) hall
  rw [← hrest] at hstarts
  exact h.not_starts hstarts

theorem InlineRule.Anchored.spares (h : rule.Anchored ss) (hvisible : ∀ s ∈ ss, startsVisible s = true)
    (indent : Blanks) {w more : PyStr} (hw : Begins w) (hunlike : ∀ s ∈ ss, Unlike w s) :
    rule.Spares (indent.text ++ (w ++ more)) rest := by
  intro u v huv hv
  refine List.eq_nil_iff_forall_not_mem.mpr fun k hk => ?_
  obtain ⟨hbehind, x, t, hahead, hx, s, hs, hstarts⟩ := h _ _ hk
  obtain rfl : u = [] := List.reverse_eq_nil_iff.mp hbehind
  obtain rfl : v = _ := huv.symm
  refine (hunlike s hs).behind_blank indent (more ++ rest) hw (hvisible s hs) hx hstarts ?_
  rw [← hahead]
  simp

end

theorem avoids_typeText (type : Option (Decimal × Gap)) {s : String} (hs : startsVisible s = true)
    (hs' : startsWord s = true) : Avoids (typeText type) s := by
  cases type with
  | none => exact avoids_nil
  | some type =>
    obtain ⟨n, g⟩ := type
    exact (n.avoids hs').append (avoids_of_blank hs g.isSpace)

theorem Sign.avoids (sign : Sign) {s : String} (hequals : Avoids (py "=") s) (hcolon : Avoids (py ":") s) :
    Avoids sign.text s := by
  cases sign
  · exact hequals
  · exact hcolon

section

variable {s : String}

/-- A literal that none of the words, digits, signs and gaps of a head has a beginning of. -/
structure Foreign (s : String) (words : List String) : Prop where
  visible : startsVisible s = true
  letter : startsWord s = true
  words : ∀ w ∈ words, Avoids (py w) s

instance (s : String) (words : List String) : Decidable (Foreign s words) :=
  decidable_of_iff (startsVisible s = true ∧ startsWord s = true ∧ ∀ w ∈ words, Avoids (py w) s)
    ⟨fun h => ⟨h.1, h.2.1, h.2.2⟩, fun h => ⟨h.visible, h.letter, h.words⟩⟩

theorem Foreign.cased {words : List String} (h : Foreign s words) {w : String} (word : Cased w) (hw : w ∈ words) :
    Avoids word.text s := avoids_congr word.folded_eq (h.words w hw)

theorem Foreign.either {words : List String} (h : Foreign s words) {w w' : String} (word : EitherCased w w')
    (hw : w ∈ words) (hw' : w' ∈ words) : Avoids word.text s := word.avoids (h.words w hw) (h.words w' hw')

theorem Foreign.blanks {words : List String} (h : Foreign s words) (g : Blanks) : Avoids g.text s :=
  avoids_of_blank h.visible g.isSpace

theorem Foreign.type {words : List String} (h : Foreign s words) (type : Option (Decimal × Gap)) :
    Avoids (typeText type) s := avoids_typeText type h.visible h.letter

theorem Foreign.sign {words : List String} (h : Foreign s words) (sign : Sign) (hequals : "=" ∈ words)
    (hcolon : ":" ∈ words) : Avoids sign.text s := sign.avoids (h.words _ hequals) (h.words _ hcolon)

end

/-! ### A name in front of a password -/

section

variable {U : UnicodeData}

/-- A visible text ends where whitespace begins. -/
theorem visible_append_inj {a a' t t' : PyStr} (ha : ∀ c ∈ a, c.isSpace = false) (ha' : ∀ c ∈ a', c.isSpace = false)
    (ht : Margin t) (ht' : Margin t') (h : a ++ t = a' ++ t') : a = a' ∧ t = t' := by
  have htake : ∀ a t : PyStr, (∀ c ∈ a, c.isSpace = false) → Margin t →
      (a ++ t).takeWhile (fun c => !c.isSpace) = a := by
    intro a t ha ht
    rw [List.takeWhile_append_of_pos fun c hc => by rw [ha c hc]; rfl]
    cases t with
    | nil => rw [List.takeWhile_nil, List.append_nil]
    | cons c t => rw [List.takeWhile_cons_of_neg (by rw [ht c rfl]; exact Bool.false_ne_true), List.append_nil]
  have hwords : a = a' := by
    rw [← htake a t ha ht, h, htake a' t' ha' ht']
  subst hwords
  exact ⟨rfl, List.append_cancel_left h⟩

/-- What a match of the username rule reads. -/
theorem lang_username {w : PyStr} (h : (usernameRule U).pattern.Lang w) :
    ∃ user g x y keyword tail, w = user ++ (g ++ (x ++ (y ++ (keyword ++ tail)))) ∧
      folded user = folded (py "username") ∧ (g ≠ [] ∧ ∀ c ∈ g, c.isSpace = true) ∧
      (x ≠ [] ∧ ∀ c ∈ x, c.isSpace = false) ∧
      (∃ s ∈ ["password", "secret"], folded keyword = folded (py s)) ∧
      (∃ c r, tail = c :: r ∧ c.isSpace = true) ∧ ∃ c ∈ tail, c.isSpace = false := by
  obtain ⟨p, secret, rfl, hp, hsecret⟩ := h
  obtain ⟨-, p, rfl, rfl, user, p, rfl, huser, g, p, rfl, hg, x, p, rfl, hx, y, p, rfl, -, -, p, rfl, rfl, keyword, p,
    rfl, hkeyword, g', p, rfl, hg', type, p, rfl, -, rfl⟩ := hp
  obtain ⟨g₁, g₂, rfl, ⟨c, rfl, hc⟩, hg₂⟩ := hg
  obtain ⟨x₁, x₂, rfl, ⟨d, rfl, hd⟩, hx₂⟩ := hx
  obtain ⟨g₃, g₄, rfl, ⟨e, rfl, he⟩, -⟩ := hg'
  obtain ⟨v, a, rfl, ha⟩ := secretPattern_visible hsecret
  refine ⟨user, [c] ++ g₂, [d] ++ x₂, y, keyword, ([e] ++ g₄) ++ (type ++ (v ++ [a])), by simp,
    folded_eq_of_sameLetter (lang_lit huser), ⟨by simp, ?_⟩, ⟨by simp, ?_⟩, ?_, ⟨e, g₄ ++ (type ++ (v ++ [a])), by simp,
    he⟩, a, by simp, ha⟩
  · intro b hb
    rcases List.mem_cons.mp hb with rfl | hb
    · exact hc
    · exact hg₂ b hb
  · intro b hb
    rcases List.mem_cons.mp hb with rfl | hb
    · simpa using hd
    · simpa using hx₂ b hb
  · rcases hkeyword with h | h
    · exact ⟨"password", by simp, folded_eq_of_sameLetter (lang_lit h)⟩
    · exact ⟨"secret", by simp, folded_eq_of_sameLetter (lang_lit h)⟩

/-- Behind a name and its password there is no second password, so a name that ends in `username` is none. -/
theorem username_spares_name {p : PyStr} (name : Word) {g : Gap} {keyword q : PyStr} {S : SecretToken} {args : PyStr}
    (hp : Avoids p "username") (hkeyword : ∃ s ∈ ["password", "secret"], folded keyword = folded (py s))
    (hq : ∀ s ∈ ["username", "password", "secret"], Avoids q s) (hargs : ∀ c ∈ args, c.isSpace = true) :
    (usernameRule U).Spares (p ++ (name.text ++ (g.text ++ (keyword ++ q)))) (S.text ++ args) := by
  obtain ⟨s, hs, hkeyword⟩ := hkeyword
  have hwords : ∀ s ∈ ["password", "secret"], startsVisible s = true ∧ Avoids (py s) "username" ∧
      ∀ s' ∈ ["password", "secret"], Avoids (py s).tail s' := by decide
  obtain ⟨hvisible, husername, htail⟩ := hwords s hs
  have hbehind : Avoids (g.text ++ (keyword ++ q)) "username" :=
    (avoids_of_blank (by decide) g.isSpace).append ((avoids_congr hkeyword husername).append (hq _ (by simp)))
  intro u v huv hv
  refine List.eq_nil_iff_forall_not_mem.mpr fun k hk => ?_
  obtain ⟨w, hw, hahead, -⟩ := Regex.reads_of_mem_ends hk
  obtain ⟨user, g', x, y, keyword', tail, rfl, huser, ⟨hg', hgspace⟩, ⟨hx, hxvisible⟩, ⟨s', hs', hkeyword'⟩,
    ⟨e, r, htailCons, he⟩, d, hd, hdvisible⟩ := lang_username hw
  have hstarts : ∀ z, v ++ (S.text ++ args) = user ++ z → folded (py "username") <+: folded (v ++ (S.text ++ args)) := by
    intro z hz
    rw [hz, folded_append, huser]
    exact List.prefix_append _ _
  have hall : v ++ (S.text ++ args) =
      user ++ (g' ++ (x ++ (y ++ (keyword' ++ (tail ++ k.ahead))))) := by
    rw [show v ++ (S.text ++ args) = _ from hahead]
    simp
  -- the match begins within the name
  obtain ⟨n, hn, hnvisible, rfl⟩ : ∃ n, n ≠ [] ∧ (∀ c ∈ n, c.isSpace = false) ∧ v = n ++ (g.text ++ (keyword ++ q)) := by
    rcases List.append_eq_append_iff.mp huv with ⟨z, -, hz⟩ | ⟨z, hz, rfl⟩
    · rcases List.append_eq_append_iff.mp hz with ⟨z', -, hz'⟩ | ⟨z', hz', rfl⟩
      · exact absurd (hstarts _ hall) (hbehind.not_starts hz' hv)
      · by_cases hnil : z' = []
        · subst hnil
          exact absurd (hstarts _ hall) (hbehind.not_starts (u := []) rfl hv)
        · exact ⟨z', hnil, fun c hc => name.visible c (by rw [hz']; exact List.mem_append_right _ hc), rfl⟩
    · by_cases hnil : z = []
      · subst hnil
        exact ⟨name.text, name.ne_nil, name.visible, rfl⟩
      · have hstarts' := hstarts _ hall
        rw [List.append_assoc] at hstarts'
        exact absurd hstarts' (hp.not_starts hz hnil)
  -- it reads the name, and goes on inside the keyword
  have hletters : (py "username").all (fun c => !c.isSpace) = true := by decide
  have huserVisible : ∀ c ∈ user, c.isSpace = false :=
    isSpace_of_folded_eq huser fun c hc => by simpa using List.all_eq_true.mp hletters c hc
  have hmarginGap : Margin (g' ++ (x ++ (y ++ (keyword' ++ (tail ++ k.ahead))))) := by
    obtain ⟨c, r', rfl⟩ := List.exists_cons_of_ne_nil hg'
    intro a ha
    rw [← Option.some.inj ha]
    exact hgspace c List.mem_cons_self
  rw [List.append_assoc, List.append_assoc] at hall
  obtain ⟨-, hgaps⟩ := visible_append_inj hnvisible huserVisible (margin_gap g _) hmarginGap hall
  have hkeywordBegins : Begins ((keyword ++ q) ++ (S.text ++ args)) := by
    rw [List.append_assoc]
    exact begins_of_folded hkeyword hvisible _
  obtain ⟨-, hrest⟩ := blank_append_inj g.isSpace hgspace hkeywordBegins (begins_of_visible hx hxvisible _) hgaps
  obtain ⟨c, x', rfl⟩ := List.exists_cons_of_ne_nil hx
  obtain ⟨c', keywordTail, rfl⟩ : ∃ c' r', keyword = c' :: r' := by
    obtain ⟨a, r', hcons, -⟩ := begins_of_folded hkeyword hvisible []
    rw [List.append_nil] at hcons
    exact ⟨a, r', hcons⟩
  have hkeywordTail : Avoids (keywordTail ++ q) s' := by
    refine Avoids.append (avoids_congr ?_ (htail s' hs')) (hq s' (List.mem_cons_of_mem _ hs'))
    have htails : folded keywordTail = (folded (py s)).tail := congrArg List.tail hkeyword
    exact htails.trans List.map_tail.symm
  have hinside : (keywordTail ++ q) ++ (S.text ++ args) = (x' ++ y) ++ (keyword' ++ (tail ++ k.ahead)) := by
    have htails := congrArg List.tail hrest
    simpa using htails
  -- behind a second keyword in the secret there is only whitespace
  have hsecond : ∀ z, S.text ++ args ≠ (z ++ keyword') ++ (tail ++ k.ahead) := by
    intro z hz
    have hblank : d ∈ args := by
      rcases List.append_eq_append_iff.mp hz with ⟨z', -, hargs'⟩ | ⟨z', hS, htail'⟩
      · rw [hargs']
        simp [hd]
      · cases z' with
        | nil =>
          rw [List.nil_append] at htail'
          rw [← htail']
          simp [hd]
        | cons a z' =>
          have ha := S.visible a (by rw [hS]; simp)
          rw [htailCons] at htail'
          rw [← List.head_eq_of_cons_eq htail', he] at ha
          cases ha
    have hspace := hargs d hblank
    rw [hdvisible] at hspace
    cases hspace
  rcases List.append_eq_append_iff.mp hinside with ⟨z, -, hz⟩ | ⟨z, hz, hz'⟩
  · exact hsecond z (by rw [hz, List.append_assoc])
  · cases z with
    | nil => exact hsecond [] hz'.symm
    | cons a z =>
      refine hkeywordTail.not_starts hz (List.cons_ne_nil a z) (t := S.text ++ args) ?_
      rw [← hz', folded_append, hkeyword']
      exact List.prefix_append _ _

end

/-! ### The rules on a line of a form -/

/-- What may stand behind the secret of a form: whitespace at the end of the line, or arguments. -/
def Directive.Behind : Directive → PyStr → Prop
  | .isakmpKey .., t | .community .., t | .bearer .., t => Margin t
  | _, t => ∀ c ∈ t, c.isSpace = true

/-- What the rule of a form asks of its secret. -/
def Directive.Readable (U : UnicodeData) : Directive → PyStr → Prop
  | .isakmpKey _ _ _ _ _ _ type _ _ _, token => type.isSome = true ∨ ∃ c ∈ token, Re.isDigit U c = false
  | .password .., token => ¬BeginsExcluded U token
  | _, _ => True

theorem Directive.Behind.margin {d : Directive} {t : PyStr} (h : d.Behind t) : Margin t := by
  have hblank : (∀ c ∈ t, c.isSpace = true) → Margin t := fun h c hc => h c (List.mem_of_head? hc)
  cases d <;> first | exact h | exact hblank h

section

variable {U : UnicodeData} {indent : Blanks} {S : SecretToken} {args : PyStr}

theorem indent_apart (U : UnicodeData) (indent : Blanks) : indent.text.reverse.head?.any (isWord U) = false := by
  cases hcons : indent.text.reverse with
  | nil => rfl
  | cons c r =>
    have hmem : c ∈ indent.text := List.mem_reverse.mp (hcons ▸ List.mem_cons_self)
    exact isWord_of_isSpace (indent.isSpace c hmem)

/-- The rule of a form replaces its secret. -/
theorem rule_hits (indent : Blanks) (d : Directive) (hbehind : d.Behind args) (hS : d.Readable U S.text) :
    (d.rule U).subn ((indent.text ++ d.head) ++ (S.text ++ args)) =
      ((indent.text ++ d.head) ++ ((d.rule U).rule.marker ++ args), 1) := by
  have hmargin := hbehind.margin
  have hplain : ∀ k : Cursor InlineGroup PyChar, Margin k.ahead → secretPattern.ends k = [] :=
    fun k => secretPattern_margin
  cases d with
  | isakmpKey crypto g₁ isakmp g₂ key g₃ type g₄ peer arguments =>
    refine subn_anchored_hit (isakmpRule_anchored U) ?_ hplain fun _ _ => run_secret hmargin
    exact isakmpKey_finds crypto g₁ isakmp g₂ key g₃ type (hS.imp_right Or.inl)
  | preSharedKey keyword side g type =>
    exact subn_anchored_hit (preSharedKeyRule_anchored U) (preSharedKey_finds keyword side g type hbehind) hplain
      fun _ _ => run_secret hmargin
  | username user g₁ name privilege g₂ keyword g₃ type =>
    refine subn_floating_hit (U := U) (by simp [inlineRules_eq]) ?_ hbehind
      (username_finds user g₁ name privilege g₂ keyword g₃ type hbehind (indent_apart U indent)) hplain
      fun _ _ => run_secret hmargin
    exact (usernameRule_floating U).spares fun s hs => avoids_of_blank (by revert s; decide) indent.isSpace
  | community snmpServer g₁ word g₂ arguments =>
    exact subn_anchored_hit communityRule_anchored (community_finds snmpServer g₁ word g₂ arguments) hplain
      fun _ _ => run_secret hmargin
  | password enable keyword g type =>
    exact subn_anchored_hit (passwordRule_anchored U) (password_finds enable keyword g type hbehind)
      (fun _ => passwordSecret_margin) fun _ _ => run_passwordSecret hmargin hS
  | neighbor word g₁ name g₂ keyword g₃ type =>
    exact subn_anchored_hit (neighborRule_anchored U) (neighbor_finds word g₁ name g₂ keyword g₃ type hbehind) hplain
      fun _ _ => run_secret hmargin
  | assignedPassword keyword sign g =>
    refine subn_floating_hit (U := U) (by simp [inlineRules_eq]) ?_ hbehind
      (assignedPassword_finds keyword sign g (indent_apart U indent)) hplain fun _ _ => run_secret hmargin
    exact (assignedPasswordRule_floating U).spares fun s hs => avoids_of_blank (by revert s; decide) indent.isSpace
  | authorization word g₁ scheme g₂ =>
    refine subn_floating_hit (U := U) (by simp [inlineRules_eq]) ?_ hbehind
      (authorization_finds word g₁ scheme g₂ (indent_apart U indent)) hplain fun _ _ => run_secret hmargin
    exact (authorizationRule_floating U).spares fun s hs => avoids_of_blank (by revert s; decide) indent.isSpace
  | bearer scheme g arguments =>
    exact subn_anchored_hit bearerRule_anchored (bearer_finds scheme g arguments) hplain
      fun _ _ => run_secret hmargin
  | apiKey x api key g₁ sign g₂ =>
    refine subn_floating_hit (U := U) (by simp [inlineRules_eq]) ?_ hbehind
      (apiKey_finds x api key g₁ sign g₂ (indent_apart U indent)) hplain fun _ _ => run_secret hmargin
    exact (apiKeyRule_floating U).spares fun s hs => avoids_of_blank (by revert s; decide) indent.isSpace

theorem EndsApart.append {v : PyStr} (h : EndsApart U v) (u : PyStr) : EndsApart U (u ++ v) := by
  obtain ⟨w, c, rfl, hc⟩ := h
  exact ⟨u ++ w, c, (List.append_assoc ..).symm, hc⟩

theorem endsApart_blank {t : PyStr} (hne : t ≠ []) (ht : ∀ c ∈ t, c.isSpace = true) : EndsApart U t :=
  ⟨_, _, (List.dropLast_append_getLast hne).symm, isWord_of_isSpace (ht _ (List.getLast_mem hne))⟩

theorem endsApart_gap (g : Gap) : EndsApart U g.text := endsApart_blank g.ne_nil g.isSpace

theorem endsApart_type (g : Gap) (type : Option (Decimal × Gap)) : EndsApart U (g.text ++ typeText type) := by
  cases type with
  | none =>
    rw [typeText, List.append_nil]
    exact endsApart_gap g
  | some type => exact ((endsApart_gap type.2).append type.1.text).append g.text

theorem endsApart_sign (sign : Sign) (g : Blanks) : EndsApart U (sign.text ++ g.text) := by
  by_cases hg : g.text = []
  · rw [hg, List.append_nil]
    cases sign
    · refine ⟨[], 61, rfl, ?_⟩
      rw [isWord, U.alnum_ascii 61 (by decide)]
      decide
    · refine ⟨[], 58, rfl, ?_⟩
      rw [isWord, U.alnum_ascii 58 (by decide)]
      decide
  · exact (endsApart_blank hg g.isSpace).append sign.text

/-- A head ends in whitespace or a sign. -/
theorem head_endsApart (U : UnicodeData) (d : Directive) : EndsApart U d.head := by
  match d with
  | .isakmpKey _ _ _ _ _ g₃ type _ _ _ =>
    exact ((((endsApart_type g₃ type).append _).append _).append _ |>.append _).append _
  | .preSharedKey _ none g type => exact (endsApart_type g type).append _
  | .preSharedKey _ (some _) g type => exact (((endsApart_type g type).append _).append _).append _
  | .username user g₁ name privilege g₂ keyword g₃ type =>
    rw [head_username]
    exact ((((((endsApart_type g₃ type).append _).append _).append _).append _).append _).append _
  | .community _ _ _ g₂ _ => exact (((endsApart_gap g₂).append _).append _).append _
  | .password none _ g type => exact (endsApart_type g type).append _
  | .password (some (_, none, _)) _ g type => exact (((endsApart_type g type).append _).append _).append _
  | .password (some (_, some _, _)) _ g type =>
    exact (((((((endsApart_type g type).append _).append _).append _).append _).append _).append _).append _
  | .neighbor _ _ _ _ _ g₃ type =>
    exact (((((endsApart_type g₃ type).append _).append _).append _).append _).append _
  | .assignedPassword _ sign g => exact (endsApart_sign sign g).append _
  | .authorization _ _ _ g₂ => exact ((((endsApart_gap g₂).append _).append _).append _).append _
  | .bearer _ g _ => exact (endsApart_gap g).append _
  | .apiKey none _ _ _ sign g₂ => exact ((((endsApart_sign sign g₂).append _).append _).append _).append _
  | .apiKey (some _) _ _ _ sign g₂ =>
    exact ((((((endsApart_sign sign g₂).append _).append _).append _).append _).append _).append _

/-- The words that begin a head. -/
def Directive.openings : Directive → List String
  | .isakmpKey .. => ["crypto"]
  | .preSharedKey .. => ["pre-shared-key"]
  | .username .. => ["username"]
  | .community .. => ["snmp-server"]
  | .password .. => ["enable", "password", "secret"]
  | .neighbor .. => ["neighbor"]
  | .assignedPassword .. => ["password"]
  | .authorization .. => ["authorization"]
  | .bearer .. => ["bearer"]
  | .apiKey .. => ["x", "api"]

theorem head_opens (d : Directive) :
    ∃ w more, d.head = w ++ more ∧ ∃ s ∈ d.openings, folded w = folded (py s) := by
  match d with
  | .isakmpKey crypto .. => exact ⟨crypto.text, _, rfl, _, by simp [Directive.openings], crypto.folded_eq⟩
  | .preSharedKey keyword none .. => exact ⟨keyword.text, _, rfl, _, by simp [Directive.openings], keyword.folded_eq⟩
  | .preSharedKey keyword (some _) .. =>
    exact ⟨keyword.text, _, rfl, _, by simp [Directive.openings], keyword.folded_eq⟩
  | .username user g₁ name privilege g₂ keyword g₃ type =>
    exact ⟨user.text, _, head_username .., _, by simp [Directive.openings], user.folded_eq⟩
  | .community snmpServer .. => exact ⟨snmpServer.text, _, rfl, _, by simp [Directive.openings], snmpServer.folded_eq⟩
  | .password none keyword .. =>
    rcases keyword.folded_eq with h | h
    · exact ⟨keyword.text, _, rfl, _, by simp [Directive.openings], h⟩
    · exact ⟨keyword.text, _, rfl, "secret", by simp [Directive.openings], h⟩
  | .password (some (enable, none, _)) .. =>
    exact ⟨enable.text, _, rfl, "enable", by simp [Directive.openings], enable.folded_eq⟩
  | .password (some (enable, some _, _)) .. =>
    exact ⟨enable.text, _, rfl, "enable", by simp [Directive.openings], enable.folded_eq⟩
  | .neighbor word .. => exact ⟨word.text, _, rfl, _, by simp [Directive.openings], word.folded_eq⟩
  | .assignedPassword keyword .. => exact ⟨keyword.text, _, rfl, _, by simp [Directive.openings], keyword.folded_eq⟩
  | .authorization word .. => exact ⟨word.text, _, rfl, _, by simp [Directive.openings], word.folded_eq⟩
  | .bearer scheme .. => exact ⟨scheme.text, _, rfl, _, by simp [Directive.openings], scheme.folded_eq⟩
  | .apiKey none api .. => exact ⟨api.text, _, rfl, "api", by simp [Directive.openings], api.folded_eq⟩
  | .apiKey (some x) .. => exact ⟨x.text, _, rfl, "x", by simp [Directive.openings], x.folded_eq⟩

/-- Words that begin visibly, and unlike others. -/
def Opposed (words ss : List String) : Prop :=
  ∀ s ∈ words, startsVisible s = true ∧ ∀ s' ∈ ss, Unlike (py s) s'

instance (words ss : List String) : Decidable (Opposed words ss) := inferInstanceAs (Decidable (∀ s ∈ words, _))

/-- An anchored rule spares a head that begins with another word. -/
theorem anchored_spares {rule : InlineRule} {ss : List String} (h : rule.Anchored ss)
    (hvisible : ∀ s ∈ ss, startsVisible s = true) {d : Directive} {rest : PyStr} (words : List String)
    (hwords : d.openings = words) (hopposed : Opposed words ss) :
    rule.Spares (indent.text ++ d.head) rest := by
  obtain ⟨w, more, hhead, s, hs, hfolded⟩ := head_opens d
  obtain ⟨hbegins, hunlike⟩ := hopposed s (hwords ▸ hs)
  have hword : Begins w := by
    have hword := begins_of_folded hfolded hbegins []
    rwa [List.append_nil] at hword
  rw [hhead]
  exact h.spares hvisible indent hword fun s' hs' => unlike_congr hfolded (hunlike s' hs')

/-- The username rule spares a head without its word. -/
theorem username_spares {head rest : PyStr} (h : Avoids head "username") :
    (usernameRule U).Spares (indent.text ++ head) rest :=
  (usernameRule_floating U).spares fun s hs => by
    obtain rfl := List.mem_singleton.mp hs
    exact (avoids_of_blank (by decide) indent.isSpace).append h

theorem keyword_folded (keyword : EitherCased "password" "secret") :
    ∃ s ∈ ["password", "secret"], folded keyword.text = folded (py s) := by
  rcases keyword.folded_eq with h | h
  · exact ⟨"password", by simp, h⟩
  · exact ⟨"secret", by simp, h⟩

theorem type_avoids (g : Gap) (type : Option (Decimal × Gap)) :
    ∀ s ∈ ["username", "password", "secret"], Avoids (g.text ++ typeText type) s := by
  have hwords : ∀ s ∈ ["username", "password", "secret"], startsVisible s = true ∧ startsWord s = true := by decide
  intro s hs
  obtain ⟨hvisible, hletter⟩ := hwords s hs
  exact (avoids_of_blank hvisible g.isSpace).append (avoids_typeText type hvisible hletter)

theorem password_spared
    (enable : Option (Cased "enable" × Option (Gap × Cased "algorithm-type" × Gap × Word) × Gap))
    (keyword : EitherCased "password" "secret") (g : Gap) (type : Option (Decimal × Gap))
    (hargs : ∀ c ∈ args, c.isSpace = true) :
    (usernameRule U).Spares (indent.text ++ (Directive.password enable keyword g type).head) (S.text ++ args) := by
  have hforeign : Foreign "username" ["enable", "algorithm-type", "password", "secret"] := by decide
  have hkeyword : Avoids keyword.text "username" := hforeign.either keyword (by simp) (by simp)
  match enable with
  | none => exact username_spares (hkeyword.append (type_avoids g type _ (by simp)))
  | some (enable, none, g') =>
    exact username_spares ((hforeign.cased enable (by simp)).append ((hforeign.blanks g'.toBlanks).append
      (hkeyword.append (type_avoids g type _ (by simp)))))
  | some (enable, some (g₁, algorithmType, g₂, algorithm), g') =>
    have hfront : Avoids (indent.text ++ (enable.text ++ (g₁.text ++ (algorithmType.text ++ g₂.text)))) "username" :=
      (hforeign.blanks indent).append ((hforeign.cased enable (by simp)).append
        ((hforeign.blanks g₁.toBlanks).append ((hforeign.cased algorithmType (by simp)).append
          (hforeign.blanks g₂.toBlanks))))
    have hspares := username_spares_name (U := U) algorithm (g := g') (S := S) hfront
      (keyword_folded keyword) (type_avoids g type) hargs
    simp only [List.append_assoc] at hspares
    exact hspares

theorem neighbor_spared (word : Cased "neighbor") (g₁ : Gap) (name : Word) (g₂ : Gap) (keyword : Cased "password")
    (g₃ : Gap) (type : Option (Decimal × Gap)) (hargs : ∀ c ∈ args, c.isSpace = true) :
    (usernameRule U).Spares (indent.text ++ (Directive.neighbor word g₁ name g₂ keyword g₃ type).head)
      (S.text ++ args) := by
  have hforeign : Foreign "username" ["neighbor"] := by decide
  have hfront : Avoids (indent.text ++ (word.text ++ g₁.text)) "username" :=
    (hforeign.blanks indent).append ((hforeign.cased word (by simp)).append (hforeign.blanks g₁.toBlanks))
  have hspares := username_spares_name (U := U) name (g := g₂) (S := S) hfront
    ⟨"password", by simp, keyword.folded_eq⟩ (type_avoids g₃ type) hargs
  simp only [List.append_assoc] at hspares
  exact hspares

theorem authorization_avoids (word : Cased "authorization") (g₁ : Blanks) (scheme : Cased "bearer") (g₂ : Gap)
    {s : String} (h : Foreign s ["authorization", ":", "bearer"]) :
    Avoids (Directive.authorization word g₁ scheme g₂).head s :=
  (h.cased word (by simp)).append ((h.words ":" (by simp)).append ((h.blanks g₁).append
    ((h.cased scheme (by simp)).append (h.blanks g₂.toBlanks))))

theorem bearer_avoids (scheme : Cased "bearer") (g : Gap) (arguments : Arguments) {s : String}
    (h : Foreign s ["bearer"]) : Avoids (Directive.bearer scheme g arguments).head s :=
  (h.cased scheme (by simp)).append (h.blanks g.toBlanks)

theorem apiKey_avoids (x : Option (Cased "x")) (api : Cased "api") (key : Cased "key") (g₁ : Blanks) (sign : Sign)
    (g₂ : Blanks) {s : String} (h : Foreign s ["x", "-", "api", "key", "=", ":"]) :
    Avoids (Directive.apiKey x api key g₁ sign g₂).head s := by
  have hhyphen : Avoids [45] s := h.words "-" (by simp)
  have hname : Avoids (api.text ++ ([45] ++ (key.text ++ (g₁.text ++ (sign.text ++ g₂.text))))) s :=
    (h.cased api (by simp)).append (hhyphen.append ((h.cased key (by simp)).append ((h.blanks g₁).append
      ((h.sign sign (by simp) (by simp)).append (h.blanks g₂)))))
  cases x with
  | none => exact hname
  | some x => exact (h.cased x (by simp)).append (hhyphen.append hname)

/-- What a match of the password rule reads, from its first word on. -/
theorem lang_password {w : PyStr} (h : (passwordRule U).pattern.Lang w) :
    ∃ blank more, w = blank ++ more ∧ (∀ c ∈ blank, c.isSpace = true) ∧
      (folded (py "enable") <+: folded more ∨
        ∃ keyword c tail, more = keyword ++ (c :: tail) ∧ c.isSpace = true ∧
          ∃ s ∈ ["password", "secret"], folded keyword = folded (py s)) := by
  obtain ⟨p, secret, rfl, hp, -⟩ := h
  obtain ⟨-, p, rfl, rfl, blank, p, rfl, hblank, enable, p, rfl, henable, keyword, p, rfl, hkeyword, g, p, rfl, hg, -⟩ :=
    hp
  refine ⟨blank, (enable ++ (keyword ++ (g ++ p))) ++ secret, by simp, hblank, ?_⟩
  rcases henable with ⟨u, v, rfl, hu, -⟩ | rfl
  · left
    rw [List.append_assoc, List.append_assoc, folded_append, folded_eq_of_sameLetter (lang_lit hu)]
    exact List.prefix_append _ _
  · obtain ⟨g₁, g₂, rfl, ⟨c, rfl, hc⟩, -⟩ := hg
    refine Or.inr ⟨keyword, c, g₂ ++ (p ++ secret), by simp, hc, ?_⟩
    rcases hkeyword with h | h
    · exact ⟨"password", by simp, folded_eq_of_sameLetter (lang_lit h)⟩
    · exact ⟨"secret", by simp, folded_eq_of_sameLetter (lang_lit h)⟩

/-- The password rule needs whitespace where the sign stands. -/
theorem assignedPassword_spared (keyword : Cased "password") (sign : Sign) (g : Blanks) (rest : PyStr) :
    (passwordRule U).Spares (indent.text ++ (Directive.assignedPassword keyword sign g).head) rest := by
  intro u v huv hv
  refine List.eq_nil_iff_forall_not_mem.mpr fun k hk => ?_
  obtain rfl : u = [] := List.reverse_eq_nil_iff.mp (passwordRule_anchored U _ _ hk).1
  obtain rfl : v = _ := huv.symm
  obtain ⟨w, hw, hahead, -⟩ := Regex.reads_of_mem_ends hk
  obtain ⟨blank, more, rfl, hblank, hmore⟩ := lang_password hw
  have hall : indent.text ++ (keyword.text ++ (sign.text ++ (g.text ++ rest))) = blank ++ (more ++ k.ahead) := by
    rw [← List.append_assoc blank]
    refine Eq.trans ?_ hahead
    simp [Directive.head]
  have hmoreBegins : Begins (more ++ k.ahead) := by
    rcases hmore with h | ⟨keyword', c, tail, rfl, -, s, hs, h⟩
    · refine begins_of_starts (s := "enable") (by decide) ?_
      rw [folded_append]
      exact h.trans (List.prefix_append _ _)
    · have hvisible : ∀ s ∈ ["password", "secret"], startsVisible s = true := by decide
      rw [List.append_assoc]
      exact begins_of_folded h (hvisible s hs) _
  obtain ⟨-, hrest⟩ := blank_append_inj indent.isSpace hblank (keyword.begins (by decide) _) hmoreBegins hall
  have hunlike : ∀ s ∈ ["enable", "secret"], Unlike keyword.text s := fun s hs =>
    unlike_congr keyword.folded_eq (by revert s; decide)
  rcases hmore with h | ⟨keyword', c, tail, rfl, hc, s, hs, h⟩
  · refine (hunlike "enable" (by simp)).not_starts (t := sign.text ++ (g.text ++ rest)) ?_
    rw [hrest, folded_append]
    exact h.trans (List.prefix_append _ _)
  · rw [List.append_assoc] at hrest
    simp only [List.mem_cons, List.not_mem_nil, or_false] at hs
    rcases hs with rfl | rfl
    · have hlength : keyword.text.length = keyword'.length := by
        rw [← folded_length keyword.text, ← folded_length keyword', keyword.folded_eq, h]
      obtain ⟨-, hsign⟩ := List.append_inj hrest hlength
      obtain ⟨a, r, hcons, ha⟩ := sign.begins (g.text ++ rest)
      rw [hcons] at hsign
      rw [List.head_eq_of_cons_eq hsign, hc] at ha
      cases ha
    · refine (hunlike "secret" (by simp)).not_starts (t := sign.text ++ (g.text ++ rest)) ?_
      rw [hrest, folded_append, h]
      exact List.prefix_append _ _

/-- A rule that runs before the rule of a form does not match in front of the secret. -/
theorem rulesBefore_spare (d : Directive) {rule : InlineRule} (hrule : rule ∈ d.rulesBefore U)
    (hbehind : d.Behind args) : rule.Spares (indent.text ++ d.head) (S.text ++ args) := by
  have hisakmp : ∀ words, d.openings = words → Opposed words ["crypto"] →
      (isakmpRule U).Spares (indent.text ++ d.head) (S.text ++ args) :=
    anchored_spares (isakmpRule_anchored U) (by decide)
  have hkey : ∀ words, d.openings = words → Opposed words ["pre-shared-key"] →
      (preSharedKeyRule U).Spares (indent.text ++ d.head) (S.text ++ args) :=
    anchored_spares (preSharedKeyRule_anchored U) (by decide)
  have hcommunity : ∀ words, d.openings = words → Opposed words ["snmp-server"] →
      communityRule.Spares (indent.text ++ d.head) (S.text ++ args) :=
    anchored_spares communityRule_anchored (by decide)
  have hpassword : ∀ words, d.openings = words → Opposed words ["enable", "password", "secret"] →
      (passwordRule U).Spares (indent.text ++ d.head) (S.text ++ args) :=
    anchored_spares (passwordRule_anchored U) (by decide)
  have hneighbor : ∀ words, d.openings = words → Opposed words ["neighbor"] →
      (neighborRule U).Spares (indent.text ++ d.head) (S.text ++ args) :=
    anchored_spares (neighborRule_anchored U) (by decide)
  have hbearer : ∀ words, d.openings = words → Opposed words ["bearer"] →
      bearerRule.Spares (indent.text ++ d.head) (S.text ++ args) :=
    anchored_spares bearerRule_anchored (by decide)
  have hassigned : Avoids d.head "password" →
      (assignedPasswordRule U).Spares (indent.text ++ d.head) (S.text ++ args) := fun havoids =>
    (assignedPasswordRule_floating U).spares fun s hs => by
      obtain rfl := List.mem_singleton.mp hs
      exact (avoids_of_blank (by decide) indent.isSpace).append havoids
  cases d with
  | isakmpKey => cases hrule
  | preSharedKey =>
    obtain rfl := List.mem_singleton.mp hrule
    exact hisakmp ["pre-shared-key"] rfl (by decide)
  | username =>
    simp only [Directive.rulesBefore, List.mem_cons, List.not_mem_nil, or_false] at hrule
    rcases hrule with rfl | rfl
    · exact hisakmp ["username"] rfl (by decide)
    · exact hkey ["username"] rfl (by decide)
  | community snmpServer g₁ word g₂ arguments =>
    simp only [Directive.rulesBefore, List.mem_cons, List.not_mem_nil, or_false] at hrule
    rcases hrule with rfl | rfl | rfl
    · exact hisakmp ["snmp-server"] rfl (by decide)
    · exact hkey ["snmp-server"] rfl (by decide)
    · have hforeign : Foreign "username" ["snmp-server", "community"] := by decide
      exact username_spares ((hforeign.cased snmpServer (by simp)).append ((hforeign.blanks g₁.toBlanks).append
        ((hforeign.cased word (by simp)).append (hforeign.blanks g₂.toBlanks))))
  | password enable keyword g type =>
    simp only [Directive.rulesBefore, List.mem_cons, List.not_mem_nil, or_false] at hrule
    rcases hrule with rfl | rfl | rfl | rfl
    · exact hisakmp ["enable", "password", "secret"] rfl (by decide)
    · exact hkey ["enable", "password", "secret"] rfl (by decide)
    · exact password_spared enable keyword g type hbehind
    · exact hcommunity ["enable", "password", "secret"] rfl (by decide)
  | neighbor word g₁ name g₂ keyword g₃ type =>
    simp only [Directive.rulesBefore, List.mem_cons, List.not_mem_nil, or_false] at hrule
    rcases hrule with rfl | rfl | rfl | rfl | rfl
    · exact hisakmp ["neighbor"] rfl (by decide)
    · exact hkey ["neighbor"] rfl (by decide)
    · exact neighbor_spared word g₁ name g₂ keyword g₃ type hbehind
    · exact hcommunity ["neighbor"] rfl (by decide)
    · exact hpassword ["neighbor"] rfl (by decide)
  | assignedPassword keyword sign g =>
    simp only [Directive.rulesBefore, List.mem_cons, List.not_mem_nil, or_false] at hrule
    rcases hrule with rfl | rfl | rfl | rfl | rfl | rfl
    · exact hisakmp ["password"] rfl (by decide)
    · exact hkey ["password"] rfl (by decide)
    · have hforeign : Foreign "username" ["password", "=", ":"] := by decide
      exact username_spares ((hforeign.cased keyword (by simp)).append
        ((hforeign.sign sign (by simp) (by simp)).append (hforeign.blanks g)))
    · exact hcommunity ["password"] rfl (by decide)
    · exact assignedPassword_spared keyword sign g _
    · exact hneighbor ["password"] rfl (by decide)
  | authorization word g₁ scheme g₂ =>
    simp only [Directive.rulesBefore, List.mem_cons, List.not_mem_nil, or_false] at hrule
    rcases hrule with rfl | rfl | rfl | rfl | rfl | rfl | rfl
    · exact hisakmp ["authorization"] rfl (by decide)
    · exact hkey ["authorization"] rfl (by decide)
    · exact username_spares (authorization_avoids word g₁ scheme g₂ (by decide))
    · exact hcommunity ["authorization"] rfl (by decide)
    · exact hpassword ["authorization"] rfl (by decide)
    · exact hneighbor ["authorization"] rfl (by decide)
    · exact hassigned (authorization_avoids word g₁ scheme g₂ (by decide))
  | bearer scheme g arguments =>
    simp only [Directive.rulesBefore, List.mem_cons, List.not_mem_nil, or_false] at hrule
    rcases hrule with rfl | rfl | rfl | rfl | rfl | rfl | rfl | rfl
    · exact hisakmp ["bearer"] rfl (by decide)
    · exact hkey ["bearer"] rfl (by decide)
    · exact username_spares (bearer_avoids scheme g arguments (by decide))
    · exact hcommunity ["bearer"] rfl (by decide)
    · exact hpassword ["bearer"] rfl (by decide)
    · exact hneighbor ["bearer"] rfl (by decide)
    · exact hassigned (bearer_avoids scheme g arguments (by decide))
    · refine (authorizationRule_floating U).spares fun s hs => ?_
      have hforeign : Foreign s ["bearer"] := by revert s; decide
      exact (hforeign.blanks indent).append (bearer_avoids scheme g arguments hforeign)
  | apiKey x api key g₁ sign g₂ =>
    simp only [Directive.rulesBefore, List.mem_cons, List.not_mem_nil, or_false] at hrule
    rcases hrule with rfl | rfl | rfl | rfl | rfl | rfl | rfl | rfl | rfl
    · exact hisakmp ["x", "api"] rfl (by decide)
    · exact hkey ["x", "api"] rfl (by decide)
    · exact username_spares (apiKey_avoids x api key g₁ sign g₂ (by decide))
    · exact hcommunity ["x", "api"] rfl (by decide)
    · exact hpassword ["x", "api"] rfl (by decide)
    · exact hneighbor ["x", "api"] rfl (by decide)
    · exact hassigned (apiKey_avoids x api key g₁ sign g₂ (by decide))
    · refine (authorizationRule_floating U).spares fun s hs => ?_
      have hforeign : Foreign s ["x", "-", "api", "key", "=", ":"] := by revert s; decide
      exact (hforeign.blanks indent).append (apiKey_avoids x api key g₁ sign g₂ hforeign)
    · exact hbearer ["x", "api"] rfl (by decide)

end

end NetopsCopilot
