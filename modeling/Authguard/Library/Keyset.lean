import Mathlib

/-!
Rows read page by page from the last key seen. The rows stand in the order of their
keys, a page holds the first rows behind the cursor, and a full page is followed by
the one behind its last row.
-/

namespace Authguard

structure Keyset (ρ κ : Type) [LinearOrder κ] where
  rows : List ρ
  key : ρ → κ
  increasing : rows.Pairwise fun row other => key row < key other
  limit : Nat
  limit_pos : 0 < limit

namespace Keyset

variable {ρ κ : Type} [LinearOrder κ] (keyset : Keyset ρ κ)

def behind (cursor : κ) : List ρ := keyset.rows.filter fun row => cursor < keyset.key row

def page (cursor : κ) : List ρ := (keyset.behind cursor).take keyset.limit

theorem behind_increasing (cursor : κ) :
    (keyset.behind cursor).Pairwise fun row other => keyset.key row < keyset.key other :=
  keyset.increasing.sublist List.filter_sublist

/-- Behind a row that is behind the cursor. -/
theorem behind_of_lt {cursor : κ} {row : ρ} (h : cursor < keyset.key row) :
    keyset.behind (keyset.key row) =
      (keyset.behind cursor).filter fun other => keyset.key row < keyset.key other := by
  rw [behind, behind, List.filter_filter]
  apply List.filter_congr
  intro other _
  rw [Bool.eq_iff_iff, Bool.and_eq_true, decide_eq_true_eq, decide_eq_true_eq]
  exact ⟨fun hother => ⟨hother, h.trans hother⟩, And.left⟩

/-- The next page begins where a page ends. -/
theorem behind_last {cursor : κ} {last : ρ} (h : (keyset.page cursor).getLast? = some last) :
    keyset.behind (keyset.key last) = (keyset.behind cursor).drop keyset.limit := by
  obtain ⟨init, hpage⟩ := List.getLast?_eq_some_iff.mp h
  have hsplit : keyset.behind cursor =
      (init ++ [last]) ++ (keyset.behind cursor).drop keyset.limit := by
    rw [← hpage, page, List.take_append_drop]
  have hlast : last ∈ keyset.behind cursor := by
    rw [hsplit]
    simp
  have hcursor : cursor < keyset.key last := by
    simpa [behind] using (List.mem_filter.mp hlast).2
  have hsorted := keyset.behind_increasing cursor
  rw [keyset.behind_of_lt hcursor]
  rw [hsplit, List.append_assoc, List.pairwise_append] at hsorted
  obtain ⟨-, hrest, hinit⟩ := hsorted
  rw [List.singleton_append, List.pairwise_cons] at hrest
  have hbefore : init.filter (fun other => keyset.key last < keyset.key other) = [] := by
    rw [List.filter_eq_nil_iff]
    intro other hother hlt
    have hle := hinit other hother last List.mem_cons_self
    exact absurd (hle.trans (of_decide_eq_true hlt)) (lt_irrefl _)
  have hself : [last].filter (fun other => keyset.key last < keyset.key other) = [] := by
    simp
  have hafter : ((keyset.behind cursor).drop keyset.limit).filter
      (fun other => keyset.key last < keyset.key other) =
        (keyset.behind cursor).drop keyset.limit :=
    List.filter_eq_self.mpr fun other hother => decide_eq_true (hrest.1 other hother)
  conv_lhs => rw [hsplit]
  rw [List.filter_append, List.filter_append, hbefore, hself, hafter]
  rfl

/-- The pages up to the first that is not full, while the fuel lasts. -/
def follow : Nat → κ → Option (List (List ρ))
  | 0, _ => none
  | fuel + 1, cursor =>
      let page := keyset.page cursor
      match page.getLast? with
      | none => some [page]
      | some last =>
          if page.length = keyset.limit then (follow fuel (keyset.key last)).map (page :: ·)
          else some [page]

variable {keyset}

theorem page_of_not_full {cursor : κ} (h : (keyset.page cursor).length ≠ keyset.limit) :
    keyset.page cursor = keyset.behind cursor := by
  rw [page, List.length_take] at h
  rw [page, List.take_of_length_le]
  omega

theorem length_drop_lt {cursor : κ} {last : ρ}
    (h : (keyset.page cursor).getLast? = some last) :
    ((keyset.behind cursor).drop keyset.limit).length < (keyset.behind cursor).length := by
  have hne : keyset.behind cursor ≠ [] := by
    intro hnil
    rw [page, hnil, List.take_nil] at h
    cases h
  have hlength := List.length_pos_iff.mpr hne
  have hpos := keyset.limit_pos
  rw [List.length_drop]
  omega

/-- Enough fuel reads all rows behind the cursor. -/
theorem follow_behind (cursor : κ) :
    ∃ pages, (∀ fuel, (keyset.behind cursor).length < fuel →
      keyset.follow fuel cursor = some pages) ∧ pages.flatten = keyset.behind cursor := by
  induction hn : (keyset.behind cursor).length using Nat.strong_induction_on
    generalizing cursor with
  | _ n ih =>
      cases hlast : (keyset.page cursor).getLast? with
      | none =>
          refine ⟨[keyset.page cursor], fun fuel hfuel => ?_, ?_⟩
          · obtain ⟨fuel, rfl⟩ := Nat.exists_eq_succ_of_ne_zero (Nat.ne_zero_of_lt hfuel)
            simp only [follow, hlast]
          · rw [List.getLast?_eq_none_iff] at hlast
            rw [List.flatten_singleton, page_of_not_full]
            rw [hlast]
            exact keyset.limit_pos.ne
      | some last =>
          by_cases hfull : (keyset.page cursor).length = keyset.limit
          · have hrest := keyset.behind_last hlast
            have hlt := length_drop_lt hlast
            rw [← hrest] at hlt
            obtain ⟨pages, hpages, hflatten⟩ := ih _ (hn ▸ hlt) (keyset.key last) rfl
            refine ⟨keyset.page cursor :: pages, fun fuel hfuel => ?_, ?_⟩
            · obtain ⟨fuel, rfl⟩ := Nat.exists_eq_succ_of_ne_zero (Nat.ne_zero_of_lt hfuel)
              simp only [follow, hlast, if_pos hfull, hpages fuel (by omega), Option.map_some]
            · rw [List.flatten_cons, hflatten, hrest, page, List.take_append_drop]
          · refine ⟨[keyset.page cursor], fun fuel hfuel => ?_, ?_⟩
            · obtain ⟨fuel, rfl⟩ := Nat.exists_eq_succ_of_ne_zero (Nat.ne_zero_of_lt hfuel)
              simp only [follow, hlast, if_neg hfull]
            · rw [List.flatten_singleton, page_of_not_full hfull]

end Keyset

end Authguard
