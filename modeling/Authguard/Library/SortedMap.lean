import Mathlib

/-!
Finite maps kept in the order of their keys, so that equal contents are equal
values. Rebuilding a map from its own entries gives it back.
-/

namespace Authguard

structure SortedMap (α β : Type) [LinearOrder α] where
  entries : List (α × β)
  sorted : entries.Pairwise fun a b => a.1 < b.1
  deriving DecidableEq

namespace SortedMap

variable {α β : Type} [LinearOrder α]

def empty : SortedMap α β := ⟨[], .nil⟩

def isEmpty (map : SortedMap α β) : Bool := map.entries.isEmpty

def get (map : SortedMap α β) (key : α) : Option β := map.entries.lookup key

def insertEntry (key : α) (value : β) : List (α × β) → List (α × β)
  | [] => [(key, value)]
  | entry :: rest =>
      if key < entry.1 then (key, value) :: entry :: rest
      else if key = entry.1 then (key, value) :: rest
      else entry :: insertEntry key value rest

theorem mem_insertEntry {key : α} {value : β} {entries : List (α × β)} {entry : α × β}
    (h : entry ∈ insertEntry key value entries) : entry = (key, value) ∨ entry ∈ entries := by
  induction entries with
  | nil => exact .inl (List.mem_singleton.mp h)
  | cons first rest ih =>
      simp only [insertEntry] at h
      split at h
      · exact List.mem_cons.mp h
      · split at h
        · exact (List.mem_cons.mp h).imp_right (List.mem_cons_of_mem _)
        · cases List.mem_cons.mp h with
          | inl heq => exact .inr (heq ▸ List.mem_cons_self)
          | inr hmem => exact (ih hmem).imp_right (List.mem_cons_of_mem _)

theorem insertEntry_sorted (key : α) (value : β) {entries : List (α × β)}
    (h : entries.Pairwise fun a b => a.1 < b.1) :
    (insertEntry key value entries).Pairwise fun a b => a.1 < b.1 := by
  induction entries with
  | nil => exact List.pairwise_singleton _ _
  | cons first rest ih =>
      obtain ⟨hfirst, hrest⟩ := List.pairwise_cons.mp h
      simp only [insertEntry]
      split
      · rename_i hlt
        refine List.pairwise_cons.mpr ⟨?_, h⟩
        intro entry hentry
        cases List.mem_cons.mp hentry with
        | inl heq => exact heq ▸ hlt
        | inr hmem => exact lt_trans hlt (hfirst entry hmem)
      · rename_i hnot
        split
        · rename_i heq
          exact List.pairwise_cons.mpr ⟨fun entry hentry => heq ▸ hfirst entry hentry, hrest⟩
        · rename_i hne
          refine List.pairwise_cons.mpr ⟨?_, ih hrest⟩
          intro entry hentry
          cases mem_insertEntry hentry with
          | inl heq => exact heq ▸ lt_of_le_of_ne (not_lt.mp hnot) (Ne.symm hne)
          | inr hmem => exact hfirst entry hmem

def insert (map : SortedMap α β) (key : α) (value : β) : SortedMap α β :=
  ⟨insertEntry key value map.entries, insertEntry_sorted key value map.sorted⟩

def erase (map : SortedMap α β) (key : α) : SortedMap α β :=
  ⟨map.entries.filter (·.1 ≠ key), map.sorted.filter _⟩

def ofList (entries : List (α × β)) : SortedMap α β :=
  entries.foldl (fun map entry => map.insert entry.1 entry.2) empty

theorem ext_entries {map other : SortedMap α β} (h : map.entries = other.entries) :
    map = other := by
  cases map
  cases other
  cases h
  rfl

/-- A key above all others goes to the end. -/
theorem insertEntry_last {key : α} (value : β) {entries : List (α × β)}
    (h : ∀ entry ∈ entries, entry.1 < key) :
    insertEntry key value entries = entries ++ [(key, value)] := by
  induction entries with
  | nil => rfl
  | cons first rest ih =>
      have hfirst := h first List.mem_cons_self
      have hrest := ih fun entry hentry => h entry (List.mem_cons_of_mem _ hentry)
      rw [insertEntry, if_neg (lt_asymm hfirst), if_neg (ne_of_gt hfirst), hrest, List.cons_append]

theorem foldl_insert_entries (entries : List (α × β)) (map : SortedMap α β)
    (h : (map.entries ++ entries).Pairwise fun a b => a.1 < b.1) :
    (entries.foldl (fun map entry => map.insert entry.1 entry.2) map).entries =
      map.entries ++ entries := by
  induction entries generalizing map with
  | nil => rw [List.append_nil, List.foldl_nil]
  | cons entry entries ih =>
      have hbelow : ∀ first ∈ map.entries, first.1 < entry.1 := fun first hfirst =>
        (List.pairwise_append.mp h).2.2 first hfirst entry List.mem_cons_self
      have hinsert : (map.insert entry.1 entry.2).entries = map.entries ++ [entry] :=
        insertEntry_last entry.2 hbelow
      have hnext := ih (map.insert entry.1 entry.2)
        (by rw [hinsert, List.append_assoc]; exact h)
      rw [List.foldl_cons, hnext, hinsert, List.append_assoc]
      rfl

theorem ofList_entries (map : SortedMap α β) : ofList map.entries = map := by
  apply ext_entries
  exact foldl_insert_entries map.entries empty map.sorted

/-! Lookup. -/

theorem lookup_cons_ite (entry : α × β) (entries : List (α × β)) (key : α) :
    (entry :: entries).lookup key = if key = entry.1 then some entry.2 else entries.lookup key := by
  by_cases h : key = entry.1
  · rw [if_pos h, h]
    exact List.lookup_cons_self
  · rw [if_neg h, List.lookup_cons, beq_eq_false_iff_ne.mpr h]

theorem lookup_insertEntry (key : α) (value : β) (entries : List (α × β)) (other : α) :
    (insertEntry key value entries).lookup other =
      if other = key then some value else entries.lookup other := by
  induction entries with
  | nil => exact lookup_cons_ite (key, value) [] other
  | cons first rest ih =>
      simp only [insertEntry]
      split
      · exact lookup_cons_ite (key, value) (first :: rest) other
      · split
        · rename_i hkey
          rw [lookup_cons_ite, lookup_cons_ite, ← hkey]
          by_cases h : other = key
          · simp [h]
          · simp [h]
        · rename_i hkey
          rw [lookup_cons_ite, lookup_cons_ite, ih]
          by_cases h : other = key
          · simp [h, hkey]
          · simp [h]

theorem get_insert (map : SortedMap α β) (key : α) (value : β) (other : α) :
    (map.insert key value).get other = if other = key then some value else map.get other :=
  lookup_insertEntry key value map.entries other

theorem get_erase (map : SortedMap α β) (key other : α) :
    (map.erase key).get other = if other = key then none else map.get other := by
  simp only [get, erase]
  induction map.entries with
  | nil => simp
  | cons first rest ih =>
      by_cases hfirst : first.1 = key
      · rw [List.filter_cons_of_neg (by simp [hfirst]), ih, lookup_cons_ite, hfirst]
        by_cases h : other = key
        · simp [h]
        · simp [h]
      · rw [List.filter_cons_of_pos (by simp [hfirst]), lookup_cons_ite, lookup_cons_ite, ih]
        by_cases h : other = key
        · simp [h, Ne.symm hfirst]
        · simp [h]

theorem get_ofList_snoc (entries : List (α × β)) (entry : α × β) (key : α) :
    (ofList (entries ++ [entry])).get key =
      if key = entry.1 then some entry.2 else (ofList entries).get key := by
  rw [ofList, List.foldl_append, List.foldl_cons, List.foldl_nil]
  exact get_insert _ _ _ _

theorem mem_of_mem_ofList {entries : List (α × β)} {entry : α × β}
    (h : entry ∈ (ofList entries).entries) : entry ∈ entries := by
  induction entries using List.reverseRecOn with
  | nil => exact absurd h List.not_mem_nil
  | append_singleton entries last ih =>
      rw [ofList, List.foldl_append] at h
      obtain rfl | h := mem_insertEntry h
      · exact List.mem_append_right _ List.mem_cons_self
      · exact List.mem_append_left _ (ih h)

theorem get_ofList_of_not_mem {entries : List (α × β)} {key : α}
    (h : ∀ entry ∈ entries, entry.1 ≠ key) : (ofList entries).get key = none := by
  induction entries using List.reverseRecOn with
  | nil => rfl
  | append_singleton entries last ih =>
      have hlast : key ≠ last.1 :=
        (h last (List.mem_append_right entries List.mem_cons_self)).symm
      rw [get_ofList_snoc, if_neg hlast]
      exact ih fun entry hentry => h entry (List.mem_append_left [last] hentry)

/-! Contents. -/

theorem lookup_eq_some_of_mem {entries : List (α × β)} (h : (entries.map Prod.fst).Nodup)
    {key : α} {value : β} : entries.lookup key = some value ↔ (key, value) ∈ entries := by
  induction entries with
  | nil => simp
  | cons first rest ih =>
      rw [List.map_cons, List.nodup_cons] at h
      rw [lookup_cons_ite, List.mem_cons]
      by_cases hkey : key = first.1
      · have hfresh : (key, value) ∉ rest := fun hmem =>
          h.1 (hkey ▸ List.mem_map_of_mem (f := Prod.fst) hmem)
        rw [if_pos hkey, Option.some.injEq, or_iff_left hfresh, hkey, Prod.ext_iff]
        exact ⟨fun hvalue => ⟨rfl, hvalue.symm⟩, fun hentry => hentry.2.symm⟩
      · rw [if_neg hkey, ih h.2, or_iff_right]
        rintro rfl
        exact hkey rfl

theorem lookup_perm {entries entries' : List (α × β)} (hperm : entries.Perm entries')
    (h : (entries.map Prod.fst).Nodup) (key : α) : entries.lookup key = entries'.lookup key := by
  apply Option.ext
  intro value
  rw [lookup_eq_some_of_mem h, lookup_eq_some_of_mem ((hperm.map Prod.fst).nodup h), hperm.mem_iff]

theorem nodup_keys (map : SortedMap α β) : (map.entries.map Prod.fst).Nodup := by
  rw [List.Nodup, List.pairwise_map]
  exact map.sorted.imp fun h => ne_of_lt h

theorem mem_entries {map : SortedMap α β} {key : α} {value : β} :
    (key, value) ∈ map.entries ↔ map.get key = some value :=
  (lookup_eq_some_of_mem map.nodup_keys).symm

theorem ext_get {map other : SortedMap α β} (h : ∀ key, map.get key = other.get key) :
    map = other := by
  have hmem : ∀ entry, entry ∈ map.entries ↔ entry ∈ other.entries := by
    rintro ⟨key, value⟩
    rw [mem_entries, mem_entries, h key]
  have hperm : map.entries.Perm other.entries :=
    (List.perm_ext_iff_of_nodup (.of_map Prod.fst map.nodup_keys)
      (.of_map Prod.fst other.nodup_keys)).mpr hmem
  apply ext_entries
  refine hperm.eq_of_pairwise ?_ map.sorted other.sorted
  intro a b _ _ hab hba
  exact absurd hab (lt_asymm hba)

theorem insertEntry_perm {key : α} (value : β) {entries : List (α × β)}
    (h : key ∉ entries.map Prod.fst) :
    (insertEntry key value entries).Perm ((key, value) :: entries) := by
  induction entries with
  | nil => exact .refl _
  | cons first rest ih =>
      rw [List.map_cons, List.mem_cons, not_or] at h
      rw [insertEntry]
      split
      · exact .refl _
      · rw [if_neg h.1]
        exact ((ih h.2).cons first).trans (.swap _ _ _)

theorem insert_perm (map : SortedMap α β) (key : α) (value : β) :
    (map.insert key value).entries.Perm
      ((key, value) :: map.entries.filter fun entry => entry.1 ≠ key) := by
  have hfresh : key ∉ (map.entries.filter fun entry => entry.1 ≠ key).map Prod.fst := by
    simp [List.mem_map, List.mem_filter]
  have hkeys : (((key, value) :: map.entries.filter fun entry => entry.1 ≠ key).map
      Prod.fst).Nodup := by
    rw [List.map_cons, List.nodup_cons]
    exact ⟨hfresh, (List.filter_sublist.map Prod.fst).nodup map.nodup_keys⟩
  refine (List.perm_ext_iff_of_nodup (.of_map Prod.fst (map.insert key value).nodup_keys)
    (.of_map Prod.fst hkeys)).mpr ?_
  rintro ⟨other, found⟩
  rw [mem_entries, get_insert, List.mem_cons, List.mem_filter, mem_entries, decide_eq_true_eq]
  by_cases h : other = key
  · simp [h, eq_comm]
  · simp [h]

theorem ofList_perm {entries : List (α × β)} (h : (entries.map Prod.fst).Nodup) :
    (ofList entries).entries.Perm entries := by
  induction entries using List.reverseRecOn with
  | nil => exact .refl _
  | append_singleton entries last ih =>
      rw [List.map_append, List.map_singleton, List.nodup_append] at h
      have hbefore := ih h.1
      have hfresh : last.1 ∉ (ofList entries).entries.map Prod.fst := by
        rw [(hbefore.map Prod.fst).mem_iff]
        exact fun hmem => h.2.2 last.1 hmem last.1 List.mem_cons_self rfl
      rw [ofList, List.foldl_append]
      exact (insertEntry_perm last.2 hfresh).trans
        ((hbefore.cons last).trans (List.perm_append_singleton last entries).symm)

theorem get_ofList {entries : List (α × β)} (h : (entries.map Prod.fst).Nodup) (key : α) :
    (ofList entries).get key = entries.lookup key :=
  lookup_perm (ofList_perm h) (ofList entries).nodup_keys key

end SortedMap

end Authguard
