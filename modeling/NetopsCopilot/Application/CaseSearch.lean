import NetopsCopilot.Application.CaseList
import NetopsCopilot.Postgres.Like
import NetopsCopilot.Python.Codecs

/-!
# Searching the case list (`query` of `TenantCaseRepository.list_cases`)

The trimmed text of a search is spliced into a pattern as it stands. A search finds the cases that mention its text
exactly if the text has none of the special characters of `LIKE` (`query_filter_iff`).
-/

namespace NetopsCopilot

/-- `text ILIKE '%' || query || '%'`. -/
def Collation.search (collation : Collation) (text query : PyStr) : Bool :=
  ilike collation text (containsPattern query)

/-- The text occurs in the title, the category or the id of a case, letter case aside. -/
def CaseRow.Mentions (collation : Collation) (r : CaseRow) (text : PyStr) : Prop :=
  collation.Contains r.title text ∨ (∃ category, r.category = some category ∧ collation.Contains category text) ∨
    collation.Contains r.id.str text

section

variable {collation : Collation} {organizationId : Uuid} {args : CaseListArgs} {r : CaseRow} {text : PyStr}

/-- The filter of the search stands alone. -/
theorem listed_eq_query (find : PyStr → PyStr → Bool) :
    r.listed find organizationId args = (r.listed find organizationId { args with query := none } &&
      args.queryText.all fun text => find r.title text || find (r.category.getD []) text || find r.id.str text) := by
  have hnone : ({ args with query := none } : CaseListArgs).queryText = none := rfl
  unfold CaseRow.listed
  rw [hnone, Option.all_none, Bool.and_true, Bool.and_right_comm]

theorem contains_nil (htext : text ≠ []) : ¬collation.Contains [] text := by
  unfold Collation.Contains
  rw [List.map_nil, List.infix_nil, List.map_eq_nil_iff]
  exact htext

/-- A missing category is searched as an empty one. -/
theorem mentions_iff (htext : text ≠ []) :
    r.Mentions collation text ↔ (collation.Contains r.title text ∨ collation.Contains (r.category.getD []) text) ∨
      collation.Contains r.id.str text := by
  unfold CaseRow.Mentions
  rw [or_assoc]
  refine or_congr_right (or_congr_left ?_)
  cases r.category with
  | none => exact iff_of_false (fun ⟨_, h, _⟩ => nomatch h) (contains_nil htext)
  | some category =>
    constructor
    · rintro ⟨_, ⟨⟩, h⟩
      exact h
    · exact fun h => ⟨category, rfl, h⟩

theorem queryText_of_strip {query : PyStr} (hquery : args.query = some query) (hne : strip query ≠ []) :
    args.queryText = some (strip query) := by
  unfold CaseListArgs.queryText
  rw [hquery, Option.map_some, Option.filter_some, if_pos]
  simpa using hne

theorem queryText_of_blank {query : PyStr} (hquery : args.query = some query) (hnil : strip query = []) :
    args.queryText = none := by
  unfold CaseListArgs.queryText
  rw [hquery, Option.map_some, Option.filter_some, if_neg]
  simpa using hnil

/-- A case that the search finds by the sample of its text. -/
def searchSample (text : PyStr) : CaseRow where
  id := 0
  organizationId := 0
  assetId := none
  title := likeSample text
  category := none
  severity := .low
  state := .new
  version := 0
  idempotencyKey := py "k"
  requestSha256 := zeroSha256
  createdByActorId := none
  correlationId := 0
  createdAt := 0
  updatedAt := 0

theorem searchSample_checks {query : PyStr} (hne : strip query ≠ []) : (searchSample (strip query)).checks = true := by
  obtain ⟨c, hlast, hspace⟩ := getLast?_strip hne
  have htitle : isBlank (likeSample (strip query)) = false := by
    rw [← Bool.not_eq_true, isBlank_iff]
    intro hall
    rcases getLast?_mem_likeSample hlast with hmem | hmem | hmem
    · rw [hall c hmem] at hspace
      cases hspace
    · exact absurd (hall _ hmem) (by decide)
    · exact absurd (hall _ hmem) (by decide)
  have hblank : notBlankSql (likeSample (strip query)) = true := decide_eq_true (btrim_length_pos htitle)
  have hkey : (notBlankSql (py "k") && decide ((btrim (py "k")).length ≤ 255)) = true := by decide
  unfold CaseRow.checks
  rw [Bool.and_assoc]
  exact Bool.and_eq_true_iff.mpr ⟨hblank, hkey⟩

theorem not_mentions_searchSample {c : PyChar} (hc : c ∈ text) (hspecial : isLikeSpecial c = true) :
    ¬(searchSample text).Mentions collation text := by
  have hne : text ≠ [] := List.ne_nil_of_mem hc
  rw [mentions_iff hne]
  rintro ((htitle | hcategory) | hid)
  · exact (ilike_likeSample hc hspecial).2 htitle
  · exact contains_nil hne hcategory
  · -- an id has only digits, letters and dashes
    have hmem : collation.lower c ∈ (Uuid.str 0).map collation.lower := hid.subset (List.mem_map_of_mem hc)
    rw [lower_of_special hspecial] at hmem
    obtain ⟨d, hd, hlower⟩ := List.mem_map.mp hmem
    rw [lower_eq_iff hspecial] at hlower
    have hplain : (py "-0123456789abcdef").all (fun d => !isLikeSpecial d) = true := by decide
    have hnot := List.all_eq_true.mp hplain d (uuid_chars 0 d hd)
    rw [hlower, hspecial] at hnot
    cases hnot

end

/-- **When the search is literal.** The cases of the list with a search are those without it whose title, category or
id contains the trimmed text, letter case aside, exactly if the trimmed text has none of `%`, `_` and the backslash. -/
theorem query_filter_iff (collation : Collation) (query : PyStr) :
    (∀ (organizationId : Uuid) (args : CaseListArgs) (r : CaseRow), args.query = some query → r.checks = true →
      (r.listed collation.search organizationId args = true ↔
        r.listed collation.search organizationId { args with query := none } = true ∧
          (strip query = [] ∨ r.Mentions collation (strip query)))) ↔
      ∀ c ∈ strip query, isLikeSpecial c = false := by
  constructor
  · intro hliteral c hc
    by_contra hspecial
    rw [Bool.not_eq_false] at hspecial
    have hne : strip query ≠ [] := List.ne_nil_of_mem hc
    obtain ⟨hpass, -⟩ := hliteral 0 { query := some query } _ rfl (searchSample_checks hne)
    have hfound : (searchSample (strip query)).listed collation.search 0 { query := some query } = true := by
      have hmatch : collation.search (likeSample (strip query)) (strip query) = true :=
        (ilike_likeSample hc hspecial).1
      rw [listed_eq_query, queryText_of_strip rfl hne]
      show (_ && (collation.search (likeSample (strip query)) (strip query) || _ || _)) = true
      rw [hmatch]
      rfl
    rcases (hpass hfound).2 with hnil | hmentions
    · exact hne hnil
    · exact not_mentions_searchSample hc hspecial hmentions
  · intro hplain organizationId args r hquery _
    rw [listed_eq_query, Bool.and_eq_true]
    refine and_congr_right fun _ => ?_
    by_cases hne : strip query = []
    · rw [queryText_of_blank hquery hne]
      exact iff_of_true rfl (Or.inl hne)
    · rw [queryText_of_strip hquery hne, Option.all_some, Bool.or_eq_true, Bool.or_eq_true, mentions_iff hne]
      have hsearch : ∀ text, collation.search text (strip query) = true ↔ collation.Contains text (strip query) :=
        fun text => ilike_iff_contains hplain
      rw [hsearch, hsearch, hsearch, or_iff_right hne]

/-- `%` finds a case that does not mention it. -/
theorem query_filter_percent :
    ∃ (organizationId : Uuid) (args : CaseListArgs) (r : CaseRow), args.query = some (py "%") ∧ r.checks = true ∧
      ¬(r.listed Collation.c.search organizationId args = true ↔
        r.listed Collation.c.search organizationId { args with query := none } = true ∧
          (strip (py "%") = [] ∨ r.Mentions Collation.c (strip (py "%")))) := by
  refine ⟨0, { query := some (py "%") }, { searchSample [] with title := py "VPN down" }, rfl, by decide, ?_⟩
  have hstrip : strip (py "%") = [37] := by decide
  have hfound : ({ searchSample [] with title := py "VPN down" } : CaseRow).listed Collation.c.search 0
      { query := some (py "%") } = true := by decide
  intro hliteral
  rw [hstrip, mentions_iff (by decide)] at hliteral
  rcases (hliteral.mp hfound).2 with hnil | (htitle | hcategory) | hid
  · cases hnil
  · exact absurd htitle (by decide)
  · exact absurd hcategory (by decide)
  · exact absurd hid (by decide)

end NetopsCopilot
