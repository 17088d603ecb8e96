import Authguard.Authz.PrincipalListing
import Authguard.Library.Keyset

/-!
Listing principals page by page. The rows of a query are the principals whose name or
identifier begins with its text; following the cursors reads them all, in the order of
their identifiers.
-/

namespace Authguard
open Text

/-! The pattern. -/

/-- The value begins with the text, whatever the case of ASCII letters. -/
def BeginsWith (text value : String) : Prop :=
  text.toList.map Char.toLower <+: value.toList.map Char.toLower

def PrincipalRow.Found (query : String) (row : PrincipalRow) : Prop :=
  BeginsWith query row.displayName ∨ BeginsWith query row.id

theorem map_toLower_escape (text : List Char) :
    (text.flatMap LikePattern.escapeChar).map Char.toLower =
      (text.map Char.toLower).flatMap LikePattern.escapeChar := by
  rw [List.map_flatMap, List.flatMap_map]
  apply List.flatMap_congr
  intro c _
  have hback : c.toLower = '\\' ↔ c = '\\' := toLower_eq_iff (by decide)
  have hpercent : c.toLower = '%' ↔ c = '%' := toLower_eq_iff (by decide)
  have hunder : c.toLower = '_' ↔ c = '_' := toLower_eq_iff (by decide)
  simp only [LikePattern.escapeChar, hback, hpercent, hunder]
  split
  · rfl
  · rfl

theorem principalPrefixPattern_toList {query : String} (h : query ≠ "") :
    (principalPrefixPattern query).toList =
      query.toList.flatMap LikePattern.escapeChar ++ ['%'] := by
  rw [principalPrefixPattern, if_neg h, String.toList_ofList, ← LikePattern.replace_eq_escape]
  rfl

/-- The pattern is the sentinel for the empty query alone. -/
theorem principalPrefixPattern_eq_percent {query : String} :
    principalPrefixPattern query = "%" ↔ query = "" := by
  constructor
  · intro h
    by_contra hne
    have htext := principalPrefixPattern_toList hne
    obtain ⟨c, rest, hcons⟩ := List.exists_cons_of_ne_nil fun hnil =>
      hne (String.toList_eq_nil_iff.mp hnil)
    rw [h, hcons, List.flatMap_cons] at htext
    have hlength := congrArg List.length htext
    have hescape : 0 < (LikePattern.escapeChar c).length := by
      rw [LikePattern.escapeChar]
      split
      · exact Nat.zero_lt_succ 1
      · exact Nat.zero_lt_succ 0
    simp only [List.length_append, List.length_singleton] at hlength
    have hone : "%".toList.length = 1 := rfl
    omega
  · rintro rfl
    rfl

theorem likeLower_iff {query : String} (h : query ≠ "") (value : String) :
    likeLower value (principalPrefixPattern query) = true ↔ BeginsWith query value := by
  have hpercent : ['%'].map Char.toLower = ['%'] := rfl
  rw [likeLower, toAsciiLowercase, toAsciiLowercase, String.toList_ofList, String.toList_ofList,
    principalPrefixPattern_toList h, List.map_append, map_toLower_escape, hpercent,
    LikePattern.like_prefix, BeginsWith]

/-- What the statement selects. -/
theorem selected_iff (query : String) (row : PrincipalRow) :
    (principalPrefixPattern query = "%" ∨ likeLower row.displayName (principalPrefixPattern query) ∨
      likeLower row.id (principalPrefixPattern query)) ↔ row.Found query := by
  by_cases h : query = ""
  · subst h
    exact iff_of_true (.inl rfl) (.inl List.nil_prefix)
  · rw [principalPrefixPattern_eq_percent, likeLower_iff h, likeLower_iff h, PrincipalRow.Found]
    exact or_iff_right h

/-! Pages. -/

section
variable {κ : Type} [LinearOrder κ] (rank : String → κ)

/-- The order of the database tells identifiers apart, and none comes before the empty text. -/
structure Collates : Prop where
  injective : Function.Injective rank
  first : ∀ id, id ≠ "" → rank "" < rank id

theorem clampPage_pos (limit : Nat) : 0 < clampPage limit :=
  Nat.lt_of_lt_of_le Nat.zero_lt_one (le_max_left 1 (min limit 100))

section
variable {α : Type} {key : α → κ}

/-- Sorting rows whose keys differ. -/
theorem sorted_increasing {rows : List α} (h : (rows.map key).Nodup) :
    (rows.insertionSort fun row other => key row ≤ key other).Pairwise
      fun row other => key row < key other := by
  have hnodup : ((rows.insertionSort fun row other => key row ≤ key other).map key).Nodup :=
    (((List.perm_insertionSort _ rows).map key).nodup_iff).mpr h
  have hsorted : (rows.insertionSort fun row other => key row ≤ key other).Pairwise
      fun row other => key row ≤ key other := by
    have htotal : Std.Total fun row other : α => key row ≤ key other :=
      ⟨fun row other => le_total (key row) (key other)⟩
    have htrans : IsTrans α fun row other => key row ≤ key other :=
      ⟨fun _ _ _ => le_trans⟩
    exact List.pairwise_insertionSort _ rows
  refine (hsorted.and (List.pairwise_map.mp hnodup)).imp ?_
  rintro row other ⟨hle, hne⟩
  exact lt_of_le_of_ne hle hne

/-- Rows may be selected before they are sorted or after. -/
theorem filter_insertionSort {rows : List α} (h : (rows.map key).Nodup) (p : α → Bool) :
    (rows.filter p).insertionSort (fun row other => key row ≤ key other) =
      (rows.insertionSort fun row other => key row ≤ key other).filter p := by
  refine @List.Perm.eq_of_pairwise _ (fun row other => key row < key other) _ _ ?_
    (sorted_increasing (h.sublist (List.filter_sublist.map key)))
    ((sorted_increasing h).sublist List.filter_sublist) ?_
  · intro row other _ _ hlt hgt
    exact absurd (hlt.trans hgt) (lt_irrefl _)
  · exact (List.perm_insertionSort _ _).trans ((List.perm_insertionSort _ _).filter p).symm

end

variable {rank}

theorem nodup_ranks (hrank : Collates rank) (db : IamDatabase) :
    (db.principals.rows.map fun row => rank row.id).Nodup := by
  have hkeys := db.principals.unique.map hrank.injective
  rwa [List.map_map] at hkeys

/-- The rows of a query in the order of their identifiers. -/
def IamDatabase.found (rank : String → κ) (db : IamDatabase) (query : String) :
    List PrincipalRow :=
  (db.principals.rows.filter fun row =>
    principalPrefixPattern query = "%" ∨ likeLower row.displayName (principalPrefixPattern query) ∨
      likeLower row.id (principalPrefixPattern query)).insertionSort
    fun row other => rank row.id ≤ rank other.id

theorem mem_found {db : IamDatabase} {query : String} {row : PrincipalRow} :
    row ∈ db.found rank query ↔ row ∈ db.principals.rows ∧ row.Found query := by
  rw [IamDatabase.found, List.mem_insertionSort, List.mem_filter, decide_eq_true_eq, selected_iff]

def IamDatabase.keyset (hrank : Collates rank) (db : IamDatabase) (query : String)
    (limit : Nat) : Keyset PrincipalRow κ where
  rows := db.found rank query
  key := fun row => rank row.id
  increasing :=
    sorted_increasing
      ((nodup_ranks hrank db).sublist (List.filter_sublist.map fun row : PrincipalRow => rank row.id))
  limit := clampPage limit
  limit_pos := clampPage_pos limit

theorem list_eq_page (hrank : Collates rank) (db : IamDatabase) (query : String)
    (afterId : Option String) (limit : Nat) :
    db.list rank query afterId limit =
      (db.keyset hrank query limit).page (rank (afterId.getD "")) := by
  have hnodup := (nodup_ranks hrank db).sublist ((List.filter_sublist
    (p := fun row : PrincipalRow => principalPrefixPattern query = "%" ∨
      likeLower row.displayName (principalPrefixPattern query) ∨
      likeLower row.id (principalPrefixPattern query))).map fun row => rank row.id)
  have hpage : (db.keyset hrank query limit).page (rank (afterId.getD "")) =
      ((db.found rank query).filter fun row => rank (afterId.getD "") < rank row.id).take
        (clampPage limit) := rfl
  rw [hpage, IamDatabase.list, IamDatabase.found, ← filter_insertionSort hnodup,
    List.filter_filter]
  simp only [Bool.decide_and]

/-- Every identifier is behind the start. -/
theorem behind_start (hrank : Collates rank) (db : IamDatabase) (query : String) (limit : Nat) :
    (db.keyset hrank query limit).behind (rank "") = db.found rank query := by
  refine List.filter_eq_self.mpr fun row hrow => decide_eq_true (hrank.first row.id ?_)
  have hchecked := db.principals_checked row (mem_found.mp hrow).1
  rintro hempty
  rw [PrincipalRow.checked, Bool.and_eq_true, hempty] at hchecked
  cases hchecked.1

/-- Following the cursors, while the fuel lasts. -/
def followPages (rank : String → κ) (db : IamDatabase) (query : String) (limit : Nat) :
    Nat → Option String → Option (List PrincipalPage)
  | 0, _ => none
  | fuel + 1, cursor =>
      let page := PrincipalHandler.listPage rank db query cursor limit
      match page.nextCursor with
      | none => some [page]
      | some next => (followPages rank db query limit fuel (some next)).map (page :: ·)

/-- The page of some rows. -/
def PrincipalPage.of (limit : Nat) (items : List PrincipalRow) : PrincipalPage where
  total := items.length
  items := items
  nextCursor := if items.length = limit then items.getLast?.map (·.id) else none

theorem listPage_eq (hrank : Collates rank) (db : IamDatabase) (query : String)
    (cursor : Option String) (limit : Nat) :
    PrincipalHandler.listPage rank db query cursor limit =
      .of (clampPage limit) ((db.keyset hrank query limit).page (rank (cursor.getD ""))) := by
  have hclamp : clampPage (clampPage limit) = clampPage limit := by
    simp only [clampPage]
    omega
  have hkeyset : db.keyset hrank query (clampPage limit) = db.keyset hrank query limit := by
    simp only [IamDatabase.keyset, hclamp]
  rw [PrincipalHandler.listPage, list_eq_page hrank, hkeyset, PrincipalPage.of]

theorem followPages_eq (hrank : Collates rank) (db : IamDatabase) (query : String) (limit : Nat)
    (fuel : Nat) (cursor : Option String) :
    followPages rank db query limit fuel cursor =
      ((db.keyset hrank query limit).follow fuel (rank (cursor.getD ""))).map
        (·.map (PrincipalPage.of (clampPage limit))) := by
  induction fuel generalizing cursor with
  | zero => rfl
  | succ fuel ih =>
      rw [followPages, Keyset.follow, listPage_eq hrank]
      have hlimit : (db.keyset hrank query limit).limit = clampPage limit := rfl
      cases hlast : ((db.keyset hrank query limit).page (rank (cursor.getD ""))).getLast? with
      | none =>
          have hcursor : (PrincipalPage.of (clampPage limit)
              ((db.keyset hrank query limit).page (rank (cursor.getD "")))).nextCursor = none := by
            simp [PrincipalPage.of, hlast]
          simp only [hcursor]
          rfl
      | some last =>
          have hnext := ih (some last.id)
          rw [Option.getD_some] at hnext
          have hkey : (db.keyset hrank query limit).key last = rank last.id := rfl
          by_cases hfull : ((db.keyset hrank query limit).page (rank (cursor.getD ""))).length =
              clampPage limit
          · have hcursor : (PrincipalPage.of (clampPage limit)
                ((db.keyset hrank query limit).page (rank (cursor.getD "")))).nextCursor =
                  some last.id := by
              simp [PrincipalPage.of, hlast, hfull]
            simp only [hcursor, if_pos hfull, hlimit, hkey, hnext, Option.map_map]
            rfl
          · have hcursor : (PrincipalPage.of (clampPage limit)
                ((db.keyset hrank query limit).page (rank (cursor.getD "")))).nextCursor = none := by
              simp [PrincipalPage.of, hfull]
            simp only [hcursor, if_neg hfull, hlimit]
            rfl

/-- Following the cursors ends, and the pages hold the principals that are found, each once and
in the order of their identifiers. -/
theorem listing_complete (hrank : Collates rank) (db : IamDatabase) (query : String)
    (limit : Nat) :
    ∃ pages : List PrincipalPage,
      (∃ enough, ∀ fuel ≥ enough, followPages rank db query limit fuel none = some pages) ∧
        ((pages.flatMap PrincipalPage.items).Pairwise fun row other => rank row.id < rank other.id) ∧
        ∀ row, row ∈ pages.flatMap PrincipalPage.items ↔
          row ∈ db.principals.rows ∧ row.Found query := by
  obtain ⟨pages, hpages, hflatten⟩ := (db.keyset hrank query limit).follow_behind (rank "")
  rw [behind_start] at hpages hflatten
  have hitems : (pages.map (PrincipalPage.of (clampPage limit))).flatMap PrincipalPage.items =
      db.found rank query := by
    rw [← hflatten, List.flatMap_map]
    exact List.flatMap_id
  refine ⟨pages.map (PrincipalPage.of (clampPage limit)),
    ⟨(db.found rank query).length + 1, fun fuel hfuel => ?_⟩, ?_, ?_⟩
  · rw [followPages_eq hrank, Option.getD_none, hpages fuel hfuel, Option.map_some]
  · rw [hitems]
    exact (db.keyset hrank query limit).increasing
  · rw [hitems]
    exact fun row => mem_found

end

/-! A directory in the order of its texts. -/

namespace Roster

theorem collates : Collates String.toList where
  injective := fun _ _ h => String.toList_inj.mp h
  first := fun id h => by
    obtain ⟨c, rest, hcons⟩ := List.exists_cons_of_ne_nil fun hnil : id.toList = [] =>
      h (String.toList_eq_nil_iff.mp hnil)
    rw [hcons]
    exact List.nil_lt_cons c rest

def person (id displayName : String) : PrincipalRow where
  id := id
  kind := .user
  status := .active
  displayName := displayName
  authorizationState := .empty

def people : IamDatabase where
  principals := ⟨[person "P_2" "50% Ada", person "P_1" "5000 Bob", person "P_3" "50% bob"], by decide⟩
  identities := .empty
  principals_checked := by decide
  identities_checked := IamDatabase.empty.identities_checked
  identities_principal := fun _ h => absurd h List.not_mem_nil

/-- A percent sign is a character of the query, and a full page is not the end. -/
theorem percent_found :
    ∃ pages : List PrincipalPage,
      (∃ enough, ∀ fuel ≥ enough,
        followPages String.toList people "50% B" 1 fuel none = some pages) ∧
      ∀ row, row ∈ pages.flatMap PrincipalPage.items ↔ row = person "P_3" "50% bob" := by
  obtain ⟨pages, hends, -, hrows⟩ := listing_complete collates people "50% B" 1
  refine ⟨pages, hends, fun row => (hrows row).trans ?_⟩
  constructor
  · rintro ⟨hrow, hfound⟩
    simp only [people, List.mem_cons, List.not_mem_nil, or_false] at hrow
    obtain rfl | rfl | rfl := hrow
    · exact absurd hfound (by unfold PrincipalRow.Found BeginsWith; decide)
    · exact absurd hfound (by unfold PrincipalRow.Found BeginsWith; decide)
    · rfl
  · rintro rfl
    refine ⟨by simp [people], ?_⟩
    unfold PrincipalRow.Found BeginsWith
    decide

end Roster

end Authguard
