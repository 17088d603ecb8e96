import Authguard.Library.Runs

/-!
Entries that wait under a key until they are taken. A store keeps a journal of what was
put into it and what was taken; a take names the entry it is of. In a sound store every
entry was put by a task that may put it, and is taken at most once.
-/

namespace Authguard.SingleUse

inductive Record (κ ν : Type)
  | put (task : Nat) (key : κ) (value : ν)
  | taken (task origin : Nat) (key : κ) (value : ν)

/-- `origin` is where the journal has the put. -/
structure Entry (κ ν : Type) where
  key : κ
  value : ν
  origin : Nat

structure Store (κ ν : Type) where
  entries : List (Entry κ ν)
  journal : List (Record κ ν)

namespace Store

variable {κ ν : Type}

def empty : Store κ ν := ⟨[], []⟩

section
variable [DecidableEq κ] (store : Store κ ν)

def find (key : κ) : Option (Entry κ ν) := store.entries.find? (·.key = key)

def discard (key : κ) : Store κ ν :=
  { store with entries := store.entries.filter (·.key ≠ key) }

/-- In place of an entry that is over. -/
def put (task : Nat) (key : κ) (value : ν) : Store κ ν where
  entries := ⟨key, value, store.journal.length⟩ :: (store.discard key).entries
  journal := store.journal ++ [.put task key value]

def take (task : Nat) (key : κ) : Option ν × Store κ ν :=
  match store.find key with
  | none => (none, store)
  | some entry =>
      (some entry.value,
        { store.discard key with
          journal := store.journal ++ [.taken task entry.origin key entry.value] })

end

/-- `May` says which task may put what. -/
structure Sound (May : Nat → κ → ν → Prop) (store : Store κ ν) : Prop where
  put : ∀ task key value, .put task key value ∈ store.journal → May task key value
  waiting : ∀ entry ∈ store.entries,
    (∃ task, store.journal[entry.origin]? = some (.put task entry.key entry.value)) ∧
      ∀ task key value, .taken task entry.origin key value ∉ store.journal
  taken : ∀ (j task origin : Nat) (key : κ) (value : ν),
    store.journal[j]? = some (.taken task origin key value) →
    origin < j ∧ ∃ creator, store.journal[origin]? = some (.put creator key value)
  once : ∀ (j j' task task' origin : Nat) (key key' : κ) (value value' : ν),
    store.journal[j]? = some (.taken task origin key value) →
    store.journal[j']? = some (.taken task' origin key' value') → j = j'

section
variable {May : Nat → κ → ν → Prop} {store : Store κ ν}

theorem sound_empty : (empty : Store κ ν).Sound May where
  put _ _ _ h := absurd h List.not_mem_nil
  waiting _ h := absurd h List.not_mem_nil
  taken _ _ _ _ _ h := by simp [empty] at h
  once _ _ _ _ _ _ _ _ _ h := by simp [empty] at h

/-- What is taken was put by a task that may put it. -/
theorem Sound.origin (h : store.Sound May) {task origin : Nat} {key : κ} {value : ν}
    (htaken : .taken task origin key value ∈ store.journal) :
    ∃ creator, store.journal[origin]? = some (.put creator key value) ∧ May creator key value := by
  obtain ⟨j, hj⟩ := List.mem_iff_getElem?.mp htaken
  obtain ⟨-, creator, hput⟩ := h.taken j task origin key value hj
  exact ⟨creator, hput, h.put creator key value (List.mem_of_getElem? hput)⟩

theorem Sound.imp {May' : Nat → κ → ν → Prop} (h : store.Sound May)
    (himp : ∀ task key value, May task key value → May' task key value) : store.Sound May' :=
  { h with put := fun task key value hmem => himp task key value (h.put task key value hmem) }

theorem getElem?_journal {i : Nat} {record other : Record κ ν}
    (h : store.journal[i]? = some record) : (store.journal ++ [other])[i]? = some record := by
  rw [List.getElem?_append_left (List.getElem?_eq_some_iff.mp h).1, h]

variable [DecidableEq κ]

theorem Sound.discard (h : store.Sound May) (key : κ) : (store.discard key).Sound May :=
  { h with waiting := fun entry hentry => h.waiting entry (List.mem_filter.mp hentry).1 }

theorem Sound.put_sound (h : store.Sound May) {task : Nat} {key : κ} {value : ν}
    (hmay : May task key value) : (store.put task key value).Sound May := by
  have hkept : ∀ (j user origin : Nat) (other : κ) (found : ν),
      (store.put task key value).journal[j]? = some (Record.taken user origin other found) →
      store.journal[j]? = some (Record.taken user origin other found) := by
    intro j user origin other found hj
    obtain ⟨-, hold, -⟩ | ⟨-, heq, -⟩ := Runs.getElem?_concat_cases hj
    · exact hold
    · cases heq
  have hfree : ∀ (user origin : Nat) (other : κ) (found : ν),
      .taken user origin other found ∈ (store.put task key value).journal →
      .taken user origin other found ∈ store.journal := by
    intro user origin other found hmem
    obtain ⟨j, hj⟩ := List.mem_iff_getElem?.mp hmem
    exact List.mem_of_getElem? (hkept j user origin other found hj)
  constructor
  · intro creator other found hmem
    obtain hold | hnew := List.mem_append.mp hmem
    · exact h.put creator other found hold
    · cases List.mem_singleton.mp hnew
      exact hmay
  · intro entry hentry
    obtain rfl | hentry := List.mem_cons.mp hentry
    · refine ⟨⟨task, List.getElem?_concat_length⟩, fun user other found hmem => ?_⟩
      -- a take names an entry of the journal before it
      obtain ⟨j, hj⟩ := List.mem_iff_getElem?.mp (hfree user _ other found hmem)
      have hlt := (h.taken j user _ other found hj).1
      have hlength := (List.getElem?_eq_some_iff.mp hj).1
      dsimp only at hlt
      omega
    · obtain ⟨⟨creator, hput⟩, hunused⟩ := h.waiting entry (List.mem_filter.mp hentry).1
      exact ⟨⟨creator, getElem?_journal hput⟩,
        fun user other found hmem => hunused user other found (hfree user _ other found hmem)⟩
  · intro j user origin other found hj
    obtain ⟨hlt, creator, hput⟩ := h.taken j user origin other found (hkept _ _ _ _ _ hj)
    exact ⟨hlt, creator, getElem?_journal hput⟩
  · intro j j' user user' origin other other' found found' hj hj'
    exact h.once j j' user user' origin other other' found found' (hkept _ _ _ _ _ hj)
      (hkept _ _ _ _ _ hj')

theorem take_cases (store : Store κ ν) (task : Nat) (key : κ) :
    store.take task key = (none, store) ∨
    ∃ entry ∈ store.entries, entry.key = key ∧ store.take task key = (some entry.value,
      { store.discard key with
        journal := store.journal ++ [.taken task entry.origin key entry.value] }) := by
  cases hfind : store.find key with
  | none => exact .inl (by simp only [take, hfind])
  | some entry =>
      refine .inr ⟨entry, List.mem_of_find?_eq_some hfind, ?_, by simp only [take, hfind]⟩
      simpa using List.find?_some hfind

/-- The entry that is taken was not taken before, and no other waits that the take would be
of. -/
theorem Sound.take_sound (h : store.Sound May) (task : Nat) (key : κ) :
    (store.take task key).2.Sound May := by
  obtain heq | ⟨entry, hentry, rfl, heq⟩ := store.take_cases task key
  · rw [heq]
    exact h
  · rw [heq]
    obtain ⟨⟨creator, hput⟩, hunused⟩ := h.waiting entry hentry
    constructor
    · intro other key value hmem
      obtain hold | hnew := List.mem_append.mp hmem
      · exact h.put other key value hold
      · cases List.mem_singleton.mp hnew
    · intro other hother
      obtain ⟨hother, hne⟩ := List.mem_filter.mp hother
      obtain ⟨⟨putter, hputter⟩, hfree⟩ := h.waiting other hother
      refine ⟨⟨putter, getElem?_journal hputter⟩, fun user key value hmem => ?_⟩
      obtain hold | hnew := List.mem_append.mp hmem
      · exact hfree user key value hold
      · rw [List.mem_singleton, Record.taken.injEq] at hnew
        rw [hnew.2.1, hput, Option.some.injEq, Record.put.injEq] at hputter
        exact of_decide_eq_true hne hputter.2.1.symm
    · intro j user origin key value hj
      obtain ⟨-, hold, -⟩ | ⟨rfl, hnew, -⟩ := Runs.getElem?_concat_cases hj
      · obtain ⟨hlt, putter, hputter⟩ := h.taken j user origin key value hold
        exact ⟨hlt, putter, getElem?_journal hputter⟩
      · cases hnew
        exact ⟨(List.getElem?_eq_some_iff.mp hput).1, creator, getElem?_journal hput⟩
    · intro j j' user user' origin key key' value value' hj hj'
      obtain ⟨-, hold, -⟩ | ⟨rfl, hnew, -⟩ := Runs.getElem?_concat_cases hj
      · obtain ⟨-, hold', -⟩ | ⟨-, hnew, -⟩ := Runs.getElem?_concat_cases hj'
        · exact h.once j j' user user' origin key key' value value' hold hold'
        · cases hnew
          exact absurd (List.mem_of_getElem? hold) (hunused user key value)
      · obtain ⟨-, hold', -⟩ | ⟨rfl, -, -⟩ := Runs.getElem?_concat_cases hj'
        · cases hnew
          exact absurd (List.mem_of_getElem? hold') (hunused user' key' value')
        · rfl

/-! What an operation on a store keeps. -/

theorem journal_put (store : Store κ ν) (task : Nat) (key : κ) (value : ν) :
    store.journal <+: (store.put task key value).journal := List.prefix_append _ _

theorem journal_take (store : Store κ ν) (task : Nat) (key : κ) :
    store.journal <+: (store.take task key).2.journal := by
  obtain heq | ⟨entry, -, -, heq⟩ := store.take_cases task key
  · rw [heq]
  · rw [heq]
    exact List.prefix_append _ _

theorem taken_take {store : Store κ ν} {task : Nat} {key : κ} {value : ν}
    (h : (store.take task key).1 = some value) :
    ∃ origin, .taken task origin key value ∈ (store.take task key).2.journal := by
  obtain heq | ⟨entry, -, -, heq⟩ := store.take_cases task key
  · rw [heq] at h
    cases h
  · rw [heq] at h
    cases h
    exact ⟨entry.origin, by rw [heq]; exact List.mem_append_right _ List.mem_cons_self⟩

end

end Store

end Authguard.SingleUse
