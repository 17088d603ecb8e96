import Mathlib

/-!
Lists cut at a separator. The pieces hold what the list holds apart from the
separators, joined pieces come apart again exactly when none of them holds the
separator, and a list can be cut before or after its items are expanded.
-/

namespace Authguard.Pieces

variable {α β : Type} [DecidableEq α] (sep : α)

theorem splitOn_cons_self (items : List α) :
    (sep :: items).splitOn sep = [] :: items.splitOn sep := by
  simp [List.splitOn_cons_eq_if_modifyHead]

theorem splitOn_cons_ne {item : α} (h : item ≠ sep) (items : List α) :
    ∃ first rest, items.splitOn sep = first :: rest ∧
      (item :: items).splitOn sep = (item :: first) :: rest := by
  cases hpieces : items.splitOn sep with
  | nil => exact absurd hpieces (List.splitOn_ne_nil sep items)
  | cons first rest =>
      refine ⟨first, rest, rfl, ?_⟩
      simp [List.splitOn_cons_eq_if_modifyHead, h, hpieces]

theorem length_splitOn (items : List α) :
    (items.splitOn sep).length = items.count sep + 1 := by
  induction items with
  | nil => simp
  | cons item items ih =>
      by_cases h : item = sep
      · rw [h, splitOn_cons_self, List.length_cons, ih, List.count_cons_self]
      · obtain ⟨first, rest, hpieces, hcons⟩ := splitOn_cons_ne sep h items
        rw [hcons, List.count_cons_of_ne h, ← ih, hpieces]
        simp

theorem mem_piece_iff {items : List α} {item : α} :
    (∃ piece ∈ items.splitOn sep, item ∈ piece) ↔ item ∈ items ∧ item ≠ sep := by
  induction items with
  | nil => simp
  | cons head items ih =>
      by_cases h : head = sep
      · subst h
        rw [splitOn_cons_self, List.mem_cons]
        simp only [List.mem_cons, exists_eq_or_imp, List.not_mem_nil, false_or, ih]
        constructor
        · rintro ⟨hmem, hne⟩
          exact ⟨.inr hmem, hne⟩
        · rintro ⟨hmem, hne⟩
          exact ⟨hmem.resolve_left hne, hne⟩
      · obtain ⟨first, rest, hpieces, hcons⟩ := splitOn_cons_ne sep h items
        simp only [hpieces, List.mem_cons, exists_eq_or_imp] at ih
        simp only [hcons, List.mem_cons, exists_eq_or_imp, or_assoc, ih]
        constructor
        · rintro (rfl | ⟨hmem, hne⟩)
          · exact ⟨.inl rfl, h⟩
          · exact ⟨.inr hmem, hne⟩
        · rintro ⟨rfl | hmem, hne⟩
          · exact .inl rfl
          · exact .inr ⟨hmem, hne⟩

theorem piece_free {items piece : List α} (h : piece ∈ items.splitOn sep) : sep ∉ piece :=
  fun hmem => ((mem_piece_iff sep).mp ⟨piece, h, hmem⟩).2 rfl

theorem flatMap_splitOn [DecidableEq β] {f : α → List β} {c : β} (hsep : f sep = [c])
    (items : List α) :
    items.flatMap f = [c].intercalate ((items.splitOn sep).map (·.flatMap f)) := by
  induction items with
  | nil => simp
  | cons item items ih =>
      rw [List.flatMap_cons, ih]
      by_cases h : item = sep
      · rw [h, splitOn_cons_self, List.map_cons, List.flatMap_nil, hsep,
          List.intercalate_cons_of_ne_nil (by simp)]
        rfl
      · obtain ⟨first, rest, hpieces, hcons⟩ := splitOn_cons_ne sep h items
        rw [hcons, hpieces, List.map_cons, List.map_cons]
        cases rest with
        | nil => simp
        | cons next rest =>
            rw [List.intercalate_cons_of_ne_nil (by simp), List.intercalate_cons_of_ne_nil (by simp),
              List.flatMap_cons]
            simp

theorem splitOn_intercalate_eq_flatMap {pieces : List (List α)} (hne : pieces ≠ []) :
    ([sep].intercalate pieces).splitOn sep = pieces.flatMap (·.splitOn sep) := by
  induction pieces with
  | nil => exact absurd rfl hne
  | cons piece rest ih =>
      cases rest with
      | nil => simp
      | cons next rest =>
          rw [List.intercalate_cons_of_ne_nil (by simp), List.append_assoc,
            List.singleton_append, List.splitOn_append_cons_self, ih (by simp)]
          rfl

theorem length_le_flatMap_splitOn (pieces : List (List α)) :
    pieces.length ≤ (pieces.flatMap (·.splitOn sep)).length := by
  induction pieces with
  | nil => simp
  | cons piece rest ih =>
      rw [List.flatMap_cons, List.length_append, List.length_cons, length_splitOn]
      omega

/-- Joined pieces come apart into as many pieces only when none of them holds the separator. -/
theorem free_of_length {pieces : List (List α)} (hne : pieces ≠ [])
    (h : (([sep].intercalate pieces).splitOn sep).length = pieces.length) :
    ∀ piece ∈ pieces, sep ∉ piece := by
  rw [splitOn_intercalate_eq_flatMap sep hne] at h
  clear hne
  induction pieces with
  | nil => simp
  | cons piece rest ih =>
      rw [List.flatMap_cons, List.length_append, List.length_cons, length_splitOn] at h
      have hrest := length_le_flatMap_splitOn sep rest
      refine List.forall_mem_cons.mpr ⟨List.count_eq_zero.mp (by omega), ih (by omega)⟩

end Authguard.Pieces
