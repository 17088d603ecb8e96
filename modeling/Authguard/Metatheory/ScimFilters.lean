import Authguard.Authz.PrincipalListing
import Authguard.Metatheory.TemplateRendering

/-!
The filters of SCIM listings. The documented filter compares one attribute with one
quoted text; the parser looks at the outer quotation marks only, so it also takes an
expression that has further ones inside for a comparison with all that stands between
the first and the last.
-/

namespace Authguard
open Text

/-! The documented filters. -/

/-- A quotation mark that no backslash escapes; the flag is set behind one. -/
def quoteFrom (escaped : Bool) : List Char → Bool
  | [] => false
  | c :: rest =>
      if escaped then quoteFrom false rest else c = '"' || quoteFrom (c = '\\') rest

def hasUnescapedQuote (value : String) : Bool := quoteFrom false value.toList

/-- An attribute, and a text between quotation marks. -/
def quotedFilter (name value : String) : String := name ++ " eq \"" ++ value ++ "\""

structure DocumentedFilter (filter name value : String) : Prop where
  attribute_known : name ∈ filterAttributes
  text_eq : filter = quotedFilter name value
  closed : hasUnescapedQuote value = false

/-- The page shows the resources whose attribute is the value. -/
structure Lists (resources : List ScimResource) (query : ScimListQuery) (name value : String)
    (page : ScimListResponse) : Prop where
  total : page.totalResults = (resources.filter (ScimResource.attributeIs name value)).length
  window : page.resources =
    ((resources.filter (ScimResource.attributeIs name value)).drop (max query.startIndex 1 - 1)).take
      (min query.count 100)

/-- The parser takes the filter just where it is documented, and no page is made of any
other. -/
structure FilterRead (filter : String) : Prop where
  parsed : ∀ name value,
    parseFilter filter = .ok (name, value) ↔ DocumentedFilter filter name value
  applied : ∀ resources query page, query.filter = some filter →
    ScimPrincipalDiscovery.listPage resources query = .ok page →
      ∃ name value, DocumentedFilter filter name value ∧ Lists resources query name value page

/-- A further quotation mark between the outer ones. -/
def QuotesInside (filter : String) : Prop :=
  ∃ name ∈ filterAttributes, ∃ value, filter = quotedFilter name value ∧
    hasUnescapedQuote value = true

/-! The parser. -/

theorem unquote_eq_some {cs : List Char} {value : String} :
    unquote cs = some value ↔ cs = '"' :: value.toList ++ ['"'] := by
  constructor
  · intro h
    rw [unquote.eq_def] at h
    split at h
    · rename_i quoted
      split at h
      · rename_i hlast
        obtain ⟨init, rfl⟩ := List.getLast?_eq_some_iff.mp hlast
        cases h
        rw [List.dropLast_concat, String.toList_ofList, List.cons_append]
      · cases h
    · cases h
  · rintro rfl
    rw [List.cons_append, unquote, List.getLast?_concat]
    simp only [List.dropLast_concat, String.ofList_toList]

theorem quotedFilter_toList (name value : String) :
    (quotedFilter name value).toList =
      name.toList ++ " eq ".toList ++ ('"' :: value.toList ++ ['"']) := by
  have hmark : " eq \"".toList = " eq ".toList ++ ['"'] := rfl
  rw [quotedFilter, String.toList_append, String.toList_append, String.toList_append, hmark]
  simp

theorem filterAttributes_free {name : String} (h : name ∈ filterAttributes) :
    ' ' ∉ name.toList := by
  simp only [filterAttributes, List.mem_cons, List.not_mem_nil, or_false] at h
  obtain rfl | rfl | rfl := h
  · decide
  · decide
  · decide

/-- A mark behind a text that does not hold its first character stands there first. -/
theorem leftmost_of_free {c : Char} {mark before : List Char} (h : c ∉ before)
    (after : List Char) : Leftmost (c :: mark) (before ++ (c :: mark) ++ after) before after := by
  refine ⟨rfl, fun n hn hbegins => ?_⟩
  rw [List.append_assoc, List.drop_append_of_le_length hn.le,
    List.drop_eq_getElem_cons hn, List.cons_append, List.cons_prefix_cons] at hbegins
  exact h (hbegins.1 ▸ List.getElem_mem hn)

theorem parseFilter_eq_ok {filter name value : String} :
    parseFilter filter = .ok (name, value) ↔
      name ∈ filterAttributes ∧ filter = quotedFilter name value := by
  constructor
  · intro h
    rw [parseFilter] at h
    split at h
    · cases h
    · rename_i before expected hcut
      have hsplit := ((cutAt_some_iff (by decide)).mp hcut).1
      split at h
      · cases h
      · rename_i hknown
        split at h
        · cases h
        · rename_i quoted hquoted
          cases h
          refine ⟨not_not.mp hknown, ?_⟩
          rw [← String.toList_inj, quotedFilter_toList, String.toList_ofList, hsplit,
            unquote_eq_some.mp hquoted]
  · rintro ⟨hknown, rfl⟩
    have hcut : cutAt " eq ".toList (quotedFilter name value).toList =
        some (name.toList, '"' :: value.toList ++ ['"']) := by
      rw [cutAt_some_iff (by decide), quotedFilter_toList]
      exact leftmost_of_free (filterAttributes_free hknown) _
    have hquoted : unquote ('"' :: value.toList ++ ['"']) = some value := unquote_eq_some.mpr rfl
    simp only [parseFilter, hcut, String.ofList_toList, if_neg (not_not.mpr hknown), hquoted]

theorem listPage_filtered {resources : List ScimResource} {query : ScimListQuery}
    {filter : String} {page : ScimListResponse} (hfilter : query.filter = some filter)
    (h : ScimPrincipalDiscovery.listPage resources query = .ok page) :
    ∃ name value, parseFilter filter = .ok (name, value) ∧
      Lists resources query name value page := by
  rw [ScimPrincipalDiscovery.listPage, hfilter] at h
  obtain ⟨retained, hretained, hpage⟩ := Result.bind_ok_iff.mp h
  obtain ⟨⟨name, value⟩, hparsed, hkept⟩ := Result.bind_ok_iff.mp hretained
  cases hkept
  cases hpage
  exact ⟨name, value, hparsed, rfl, rfl⟩

/-- The parser reads the documented filters and no others, unless the text has a further
quotation mark between the outer ones. -/
theorem filter_read_iff (filter : String) : FilterRead filter ↔ ¬QuotesInside filter := by
  constructor
  · rintro ⟨hparsed, -⟩ ⟨name, hname, value, hfilter, hquote⟩
    have hdocumented := (hparsed name value).mp (parseFilter_eq_ok.mpr ⟨hname, hfilter⟩)
    rw [hdocumented.closed] at hquote
    cases hquote
  · intro hplain
    have hparsed : ∀ name value,
        parseFilter filter = .ok (name, value) ↔ DocumentedFilter filter name value := by
      intro name value
      rw [parseFilter_eq_ok]
      constructor
      · rintro ⟨hname, htext⟩
        refine ⟨hname, htext, ?_⟩
        rw [Bool.eq_false_iff]
        exact fun hquote => hplain ⟨name, hname, value, htext, hquote⟩
      · rintro ⟨hname, htext, -⟩
        exact ⟨hname, htext⟩
    refine ⟨hparsed, fun resources query page hfilter hpage => ?_⟩
    obtain ⟨name, value, hok, hlists⟩ := listPage_filtered hfilter hpage
    exact ⟨name, value, (hparsed name value).mp hok, hlists⟩

/-- Two comparisons are taken for one. -/
theorem compound_taken :
    parseFilter "userName eq \"ada\" or userName eq \"bob\"" =
        .ok ("userName", "ada\" or userName eq \"bob") ∧
      ∀ name value, ¬DocumentedFilter "userName eq \"ada\" or userName eq \"bob\"" name value := by
  have hparsed : parseFilter "userName eq \"ada\" or userName eq \"bob\"" =
      .ok ("userName", "ada\" or userName eq \"bob") := by
    decide +kernel
  refine ⟨hparsed, fun name value h => ?_⟩
  have hsame := parseFilter_eq_ok.mpr ⟨h.attribute_known, h.text_eq⟩
  rw [hparsed] at hsame
  cases hsame
  have hquote : hasUnescapedQuote "ada\" or userName eq \"bob" = true := by
    decide
  rw [h.closed] at hquote
  cases hquote

end Authguard
