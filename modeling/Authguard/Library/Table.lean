import Mathlib

/-!
Tables with a unique key: a row is found by its key, an insertion fails where
the key is taken, and an upsert replaces the row that has it.
-/

namespace Authguard

/-- Keys are unique when each is new where it comes. -/
theorem nodup_keys_iff {ρ κ : Type} {key : ρ → κ} {rows : List ρ} :
    (rows.map key).Nodup ↔
      ∀ before row after, rows = before ++ row :: after → key row ∉ before.map key := by
  induction rows using List.reverseRecOn with
  | nil => exact ⟨fun _ before row after h => by simp at h, fun _ => List.nodup_nil⟩
  | append_singleton rows last ih =>
      rw [List.map_append, List.map_singleton, List.nodup_append_comm, List.singleton_append,
        List.nodup_cons, ih]
      constructor
      · rintro ⟨hlast, hrows⟩ before row after hsplit
        rcases List.eq_nil_or_concat' after with rfl | ⟨init, other, rfl⟩
        · obtain ⟨rfl, rfl⟩ := List.append_inj' hsplit rfl |>.imp_right List.singleton_inj.mp
          exact hlast
        · rw [← List.cons_append, ← List.append_assoc] at hsplit
          exact hrows before row init (List.append_inj' hsplit rfl).1
      · intro h
        exact ⟨h rows last [] rfl, fun before row after hsplit =>
          h before row (after ++ [last]) (by rw [hsplit]; simp)⟩

structure Table (ρ κ : Type) (key : ρ → κ) where
  rows : List ρ
  unique : (rows.map key).Nodup

namespace Table

variable {ρ κ : Type} {key : ρ → κ}

def empty : Table ρ κ key := ⟨[], List.nodup_nil⟩

theorem ext_rows {table other : Table ρ κ key} (h : table.rows = other.rows) : table = other := by
  cases table
  cases other
  cases h
  rfl

variable [DecidableEq κ]

def find (table : Table ρ κ key) (k : κ) : Option ρ :=
  table.rows.find? fun row => key row = k

def upsertRow (key : ρ → κ) (row : ρ) : List ρ → List ρ
  | [] => [row]
  | first :: rest => if key first = key row then row :: rest else first :: upsertRow key row rest

theorem upsertRow_keys (row : ρ) (rows : List ρ) :
    (upsertRow key row rows).map key =
      if key row ∈ rows.map key then rows.map key else rows.map key ++ [key row] := by
  induction rows with
  | nil => rfl
  | cons first rest ih =>
      rw [upsertRow]
      by_cases hkey : key first = key row
      · simp [hkey]
      · have hne : key row ≠ key first := fun h => hkey h.symm
        rw [if_neg hkey, List.map_cons, ih]
        by_cases hmem : key row ∈ rest.map key
        · simp [hmem]
        · simp [hmem, hne]

def insert (table : Table ρ κ key) (row : ρ) : Option (Table ρ κ key) :=
  if h : key row ∈ table.rows.map key then
    none
  else
    some
      { rows := table.rows ++ [row]
        unique := by
          rw [List.map_append, List.map_singleton, List.nodup_append]
          refine ⟨table.unique, List.nodup_singleton _, ?_⟩
          intro k hk other hother heq
          exact h (List.mem_singleton.mp hother ▸ heq ▸ hk) }

def upsert (table : Table ρ κ key) (row : ρ) : Table ρ κ key :=
  { rows := upsertRow key row table.rows
    unique := by
      rw [upsertRow_keys]
      split
      · exact table.unique
      · rename_i h
        refine List.nodup_append.mpr ⟨table.unique, List.nodup_singleton _, ?_⟩
        intro k hk other hother heq
        exact h (List.mem_singleton.mp hother ▸ heq ▸ hk) }

/-- The rows that are kept. -/
def filter (table : Table ρ κ key) (p : ρ → Bool) : Table ρ κ key :=
  ⟨table.rows.filter p, table.unique.sublist (List.filter_sublist.map key)⟩

theorem find_eq_some {table : Table ρ κ key} {k : κ} {row : ρ} :
    table.find k = some row ↔ row ∈ table.rows ∧ key row = k := by
  constructor
  · intro h
    exact ⟨List.mem_of_find?_eq_some h, by simpa using List.find?_some h⟩
  · rintro ⟨hmem, rfl⟩
    obtain ⟨found, hfound⟩ : ∃ found, table.find (key row) = some found :=
      Option.isSome_iff_exists.mp (List.find?_isSome.mpr ⟨row, hmem, decide_eq_true rfl⟩)
    have hkey : key found = key row := by simpa using List.find?_some hfound
    have hsame : found = row :=
      List.inj_on_of_nodup_map table.unique (List.mem_of_find?_eq_some hfound) hmem hkey
    rw [hfound, hsame]

theorem find_eq_none {table : Table ρ κ key} {k : κ} :
    table.find k = none ↔ k ∉ table.rows.map key := by
  simp [find, List.find?_eq_none]

theorem find_filter (table : Table ρ κ key) (p : ρ → Bool) (k : κ) :
    (table.filter p).find k = (table.find k).filter p := by
  ext row
  rw [Option.filter_eq_some_iff, find_eq_some, find_eq_some, filter, List.mem_filter]
  exact and_right_comm

theorem find_insert {table after : Table ρ κ key} {row : ρ} (h : table.insert row = some after)
    (k : κ) : after.find k = if k = key row then some row else table.find k := by
  rw [insert] at h
  split at h
  · cases h
  · rename_i hfresh
    cases h
    by_cases hk : k = key row
    · rw [if_pos hk, find_eq_some]
      exact ⟨List.mem_append_right _ List.mem_cons_self, hk.symm⟩
    · rw [if_neg hk, find, List.find?_append, List.find?_singleton, find,
        if_neg (by simpa using fun h => hk h.symm), Option.or_none]

theorem mem_insert {table after : Table ρ κ key} {row : ρ} (h : table.insert row = some after)
    {other : ρ} : other ∈ after.rows ↔ other ∈ table.rows ∨ other = row := by
  rw [insert] at h
  split at h
  · cases h
  · cases h
    simp

theorem find_of_insert {table after : Table ρ κ key} {row found : ρ} {k : κ}
    (h : table.insert row = some after) (hfound : table.find k = some found) :
    after.find k = some found := by
  obtain ⟨hmem, hkey⟩ := find_eq_some.mp hfound
  exact find_eq_some.mpr ⟨(mem_insert h).mpr (.inl hmem), hkey⟩

theorem insert_isSome {table : Table ρ κ key} {row : ρ} :
    (table.insert row).isSome ↔ table.find (key row) = none := by
  rw [insert, find_eq_none]
  split
  · rename_i h
    simp [h]
  · rename_i h
    simp [h]

theorem find_upsert (table : Table ρ κ key) (row : ρ) (k : κ) :
    (table.upsert row).find k = if k = key row then some row else table.find k := by
  have hrows : ∀ rows : List ρ, (upsertRow key row rows).find? (fun other => key other = k) =
      if k = key row then some row else rows.find? fun other => key other = k := by
    intro rows
    induction rows with
    | nil =>
        by_cases hk : k = key row
        · simp [upsertRow, hk]
        · have hne : key row ≠ k := fun h => hk h.symm
          simp [upsertRow, hk, hne]
    | cons first rest ih =>
        rw [upsertRow]
        by_cases hfirst : key first = key row
        · by_cases hk : k = key row
          · simp [hfirst, hk]
          · have hne : key row ≠ k := fun h => hk h.symm
            simp [hfirst, hk, hne]
        · rw [if_neg hfirst, List.find?_cons, List.find?_cons, ih]
          by_cases hk : k = key row
          · simp [hk, hfirst]
          · simp [hk]
  exact hrows table.rows

theorem insert_eq_upsert {table : Table ρ κ key} {row : ρ} (h : table.find (key row) = none) :
    table.insert row = some (table.upsert row) := by
  have hfresh := find_eq_none.mp h
  have hrows : ∀ rows : List ρ, key row ∉ rows.map key → upsertRow key row rows = rows ++ [row] := by
    intro rows hrows
    induction rows with
    | nil => rfl
    | cons first rest ih =>
        rw [List.map_cons, List.mem_cons, not_or] at hrows
        rw [upsertRow, if_neg fun heq => hrows.1 heq.symm, ih hrows.2, List.cons_append]
  rw [insert, dif_neg hfresh, Option.some.injEq]
  exact ext_rows (hrows table.rows hfresh).symm

theorem mem_upsert_iff {table : Table ρ κ key} {row other : ρ} :
    other ∈ (table.upsert row).rows ↔ other = row ∨ other ∈ table.rows ∧ key other ≠ key row := by
  have hmem : other ∈ (table.upsert row).rows ↔
      (table.upsert row).find (key other) = some other := by
    rw [find_eq_some, and_iff_left rfl]
  rw [hmem, find_upsert]
  split
  · rename_i hkey
    constructor
    · rintro ⟨⟩
      exact .inl rfl
    · rintro (rfl | ⟨-, hne⟩)
      · rfl
      · exact absurd hkey hne
  · rename_i hkey
    rw [find_eq_some, and_iff_left rfl]
    constructor
    · exact fun hother => .inr ⟨hother, hkey⟩
    · rintro (rfl | ⟨hother, -⟩)
      · exact absurd rfl hkey
      · exact hother

theorem mem_upsert {table : Table ρ κ key} {row other : ρ} (h : other ∈ (table.upsert row).rows) :
    other = row ∨ other ∈ table.rows :=
  (mem_upsert_iff.mp h).imp_right And.left

/-- Rows can be left out before or after an upsert that takes the place of none of them. -/
theorem filter_upsert_of_kept {table : Table ρ κ key} {row : ρ} {p : ρ → Bool}
    (hrow : p row = true) (hkept : ∀ stored, table.find (key row) = some stored → p stored = true) :
    (table.upsert row).filter p = (table.filter p).upsert row := by
  have hrows : ∀ rows : List ρ, (∀ stored ∈ rows, key stored = key row → p stored = true) →
      (upsertRow key row rows).filter p = upsertRow key row (rows.filter p) := by
    intro rows hrows
    induction rows with
    | nil => simp [upsertRow, hrow]
    | cons first rest ih =>
        have hrest := ih fun stored hstored => hrows stored (List.mem_cons_of_mem first hstored)
        rw [upsertRow]
        by_cases hkey : key first = key row
        · simp [upsertRow, hkey, hrow, hrows first List.mem_cons_self hkey]
        · by_cases hfirst : p first = true
          · simp [upsertRow, hkey, hfirst, hrest]
          · simp [hkey, hfirst, hrest]
  refine ext_rows (hrows table.rows fun stored hstored hkey => ?_)
  exact hkept stored (find_eq_some.mpr ⟨hstored, hkey⟩)

/-- In particular rows that are chosen by their keys. -/
theorem filter_upsert {table : Table ρ κ key} {row : ρ} {p : κ → Bool} (hrow : p (key row) = true) :
    (table.upsert row).filter (p ∘ key) = (table.filter (p ∘ key)).upsert row := by
  refine filter_upsert_of_kept hrow fun stored hstored => ?_
  rw [Function.comp_apply, (find_eq_some.mp hstored).2]
  exact hrow

/-- An insertion next to rows that are left out, none of them under its key. -/
theorem insert_filter {table : Table ρ κ key} {row : ρ} {p : ρ → Bool} (hrow : p row = true)
    (hkept : ∀ stored, table.find (key row) = some stored → p stored = true) :
    (table.filter p).insert row = (table.insert row).map (filter · p) := by
  cases hfind : table.find (key row) with
  | none =>
      have hnone : (table.filter p).find (key row) = none := by
        rw [find_filter, hfind, Option.filter_none]
      rw [insert_eq_upsert hfind, insert_eq_upsert hnone, Option.map_some,
        filter_upsert_of_kept hrow hkept]
  | some stored =>
      have hsome : (table.filter p).find (key row) = some stored := by
        rw [find_filter, hfind, Option.filter_some, if_pos (hkept stored hfind)]
      have hrefused : ∀ table : Table ρ κ key, table.find (key row) = some stored →
          table.insert row = none := by
        intro table hstored
        rw [← Option.not_isSome_iff_eq_none, insert_isSome, hstored]
        simp
      rw [hrefused table hfind, hrefused _ hsome, Option.map_none]

end Table

end Authguard
