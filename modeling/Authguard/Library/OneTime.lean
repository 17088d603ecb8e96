import Authguard.Library.Runs

/-!
Stores whose values can be taken once and are over after a deadline. Beside the
values a store keeps a journal of what was stored and what was taken. An operation
may judge deadlines by a reading of the clock that is behind; what the journal
says then still holds: a value is taken once and before its deadline, and a value
is replaced only after it was taken or was over.
-/

namespace Authguard.OneTime

structure Put (κ ν : Type) where
  task : Nat
  key : κ
  value : ν
  storedAt : Nat
  deadline : Nat

structure Take (κ ν : Type) where
  task : Nat
  key : κ
  value : ν
  now : Nat

inductive Record (κ ν : Type)
  | stored (put : Put κ ν)
  | taken (take : Take κ ν)

def Record.key {κ ν : Type} : Record κ ν → κ
  | .stored put => put.key
  | .taken take => take.key

def Record.task {κ ν : Type} : Record κ ν → Nat
  | .stored put => put.task
  | .taken take => take.task

structure Held (ν : Type) where
  value : ν
  deadline : Nat
  deriving DecidableEq

structure Store (κ ν : Type) where
  values : κ → Option (Held ν)
  journal : List (Record κ ν)

variable {κ ν : Type}

/-! Journals. -/

/-- The record is the last one about its key. -/
structure Last (journal : List (Record κ ν)) (i : Nat) (record : Record κ ν) : Prop where
  at_index : journal[i]? = some record
  after : ∀ k later, i < k → journal[k]? = some later → later.key ≠ record.key

section
variable {journal : List (Record κ ν)} {i : Nat} {record other : Record κ ν}

theorem last_concat (journal : List (Record κ ν)) (record : Record κ ν) :
    Last (journal ++ [record]) journal.length record where
  at_index := List.getElem?_concat_length
  after k later hk hlater := by
    have hlength := (List.getElem?_eq_some_iff.mp hlater).1
    simp at hlength
    omega

theorem Last.concat (h : Last journal i record) (hkey : other.key ≠ record.key) :
    Last (journal ++ [other]) i record where
  at_index := by
    rw [List.getElem?_append_left (List.getElem?_eq_some_iff.mp h.at_index).1]
    exact h.at_index
  after k later hk hlater := by
    rw [List.getElem?_append] at hlater
    split at hlater
    · exact h.after k later hk hlater
    · cases List.mem_singleton.mp (List.mem_of_getElem? hlater)
      exact hkey

/-- Of a longer journal, the last record about a key is the new one or was the last before. -/
theorem Last.of_concat (h : Last (journal ++ [other]) i record) :
    (i = journal.length ∧ record = other) ∨ (other.key ≠ record.key ∧ Last journal i record) := by
  have hindex := h.at_index
  rw [List.getElem?_append] at hindex
  split at hindex
  · rename_i hlt
    refine .inr ⟨h.after journal.length other hlt List.getElem?_concat_length, hindex, ?_⟩
    intro k later hk hlater
    apply h.after k later hk
    rw [List.getElem?_append_left (List.getElem?_eq_some_iff.mp hlater).1]
    exact hlater
  · rename_i hge
    have hlt := (List.getElem?_eq_some_iff.mp hindex).1
    simp at hlt
    refine .inl ⟨by omega, ?_⟩
    exact List.mem_singleton.mp (List.mem_of_getElem? hindex)

theorem Last.unique {i' : Nat} {record' : Record κ ν} (h : Last journal i record)
    (h' : Last journal i' record') (hkey : record.key = record'.key) : record = record' := by
  obtain hlt | rfl | hgt := Nat.lt_trichotomy i i'
  · exact absurd hkey.symm (h.after i' record' hlt h'.at_index)
  · exact Option.some.inj (h.at_index.symm.trans h'.at_index)
  · exact absurd hkey (h'.after i record hgt h.at_index)

end

section
variable (Over : Nat → Nat → Prop)

/-- What was pending when the entry at `j` was written decides what the entry may be. -/
structure Sound (journal : List (Record κ ν)) : Prop where
  taken : ∀ j take, journal[j]? = some (.taken take) →
    ∃ i put, Last (journal.take j) i (.stored put) ∧ put.key = take.key ∧
      put.value = take.value ∧ ¬Over put.deadline take.now
  stored : ∀ j put, journal[j]? = some (.stored put) →
    ∀ i earlier, Last (journal.take j) i (.stored earlier) → earlier.key = put.key →
      Over earlier.deadline put.storedAt
  ordered : ∀ (i j : Nat) (earlier put : Put κ ν), i < j → journal[i]? = some (.stored earlier) →
    journal[j]? = some (.stored put) → earlier.storedAt ≤ put.storedAt

variable {Over} {journal : List (Record κ ν)}

theorem Sound.nil : Sound Over ([] : List (Record κ ν)) where
  taken j take h := by simp at h
  stored j put h := by simp at h
  ordered i j earlier put _ h := by simp at h

theorem Sound.concat_taken (h : Sound Over journal) {take : Take κ ν} {i : Nat} {put : Put κ ν}
    (hlast : Last journal i (.stored put)) (hkey : put.key = take.key)
    (hvalue : put.value = take.value) (hover : ¬Over put.deadline take.now) :
    Sound Over (journal ++ [.taken take]) where
  taken j other hother := by
    obtain ⟨-, hold, htake⟩ | ⟨-, heq, htake⟩ := Runs.getElem?_concat_cases hother
    · rw [htake]
      exact h.taken j other hold
    · cases heq
      rw [htake]
      exact ⟨i, put, hlast, hkey, hvalue, hover⟩
  stored j other hother := by
    obtain ⟨-, hold, htake⟩ | ⟨-, heq, -⟩ := Runs.getElem?_concat_cases hother
    · rw [htake]
      exact h.stored j other hold
    · cases heq
  ordered i j earlier other hij hearlier hother := by
    obtain ⟨-, hearlier, -⟩ | ⟨-, heq, -⟩ := Runs.getElem?_concat_cases hearlier
    · obtain ⟨-, hother, -⟩ | ⟨-, heq, -⟩ := Runs.getElem?_concat_cases hother
      · exact h.ordered i j earlier other hij hearlier hother
      · cases heq
    · cases heq

theorem Sound.concat_stored (h : Sound Over journal) {put : Put κ ν}
    (hover : ∀ i earlier, Last journal i (.stored earlier) → earlier.key = put.key →
      Over earlier.deadline put.storedAt)
    (hclock : ∀ earlier, .stored earlier ∈ journal → earlier.storedAt ≤ put.storedAt) :
    Sound Over (journal ++ [.stored put]) where
  taken j other hother := by
    obtain ⟨-, hold, htake⟩ | ⟨-, heq, -⟩ := Runs.getElem?_concat_cases hother
    · rw [htake]
      exact h.taken j other hold
    · cases heq
  stored j other hother := by
    obtain ⟨-, hold, htake⟩ | ⟨-, heq, htake⟩ := Runs.getElem?_concat_cases hother
    · rw [htake]
      exact h.stored j other hold
    · cases heq
      rw [htake]
      exact hover
  ordered i j earlier other hij hearlier hother := by
    obtain ⟨hlt, hearlier, -⟩ | ⟨hi, -, -⟩ := Runs.getElem?_concat_cases hearlier
    · obtain ⟨-, hother, -⟩ | ⟨-, heq, -⟩ := Runs.getElem?_concat_cases hother
      · exact h.ordered i j earlier other hij hearlier hother
      · cases heq
        exact hclock earlier (List.mem_of_getElem? hearlier)
    · have hlt := (List.getElem?_eq_some_iff.mp hother).1
      simp at hlt
      omega

/-- Later records about the key of a stored one: there is none, or a first one, before which
the stored one was the last. -/
theorem last_or_next {i k : Nat} {record : Record κ ν} (hindex : journal[i]? = some record)
    (hik : i < k) :
    Last (journal.take k) i record ∨ ∃ m next, i < m ∧ m < k ∧ journal[m]? = some next ∧
      next.key = record.key ∧ Last (journal.take m) i record := by
  classical
  have hlast : ∀ m, i < m → (∀ n later, i < n → n < m → journal[n]? = some later →
      later.key ≠ record.key) → Last (journal.take m) i record := by
    intro m him hfree
    refine ⟨by rw [List.getElem?_take_of_lt him, hindex], ?_⟩
    intro n later hin hlater
    rw [List.getElem?_take] at hlater
    split at hlater
    · rename_i hnm
      exact hfree n later hin hnm hlater
    · cases hlater
  by_cases hnext : ∃ m, i < m ∧ m < k ∧ ∃ next, journal[m]? = some next ∧ next.key = record.key
  · obtain ⟨him, hmk, next, hm, hkey⟩ := Nat.find_spec hnext
    refine .inr ⟨Nat.find hnext, next, him, hmk, hm, hkey, hlast _ him ?_⟩
    intro n later hin hnm hlater heq
    exact Nat.find_min hnext hnm ⟨hin, hnm.trans hmk, later, hlater, heq⟩
  · refine .inl (hlast k hik ?_)
    intro n later hin hnk hlater heq
    exact hnext ⟨n, hin, hnk, later, hlater, heq⟩

theorem Last.lt {i j : Nat} {record : Record κ ν} (h : Last (journal.take j) i record) :
    i < j ∧ journal[i]? = some record := by
  have hindex := h.at_index
  rw [List.getElem?_take] at hindex
  split at hindex
  · rename_i hlt
    exact ⟨hlt, hindex⟩
  · cases hindex

/-- Every taken value has a place where it was stored, no two the same, and what was stored is
not replaced before it was taken or was over. -/
structure Origin (Over : Nat → Nat → Prop) (journal : List (Record κ ν)) (origin : Nat → Nat) :
    Prop where
  taken : ∀ j take, journal[j]? = some (.taken take) → origin j < j ∧
    ∃ put, journal[origin j]? = some (.stored put) ∧ put.key = take.key ∧
      put.value = take.value ∧ ¬Over put.deadline take.now
  once : ∀ j j' take take', journal[j]? = some (.taken take) → journal[j']? = some (.taken take') →
    origin j = origin j' → j = j'
  kept : ∀ (i k : Nat) (put later : Put κ ν), i < k → journal[i]? = some (.stored put) →
    journal[k]? = some (.stored later) → put.key = later.key →
    (∃ j take, i < j ∧ j < k ∧ journal[j]? = some (.taken take) ∧ origin j = i) ∨
      Over put.deadline later.storedAt

theorem Sound.origin (h : Sound Over journal)
    (hmono : ∀ deadline now later, now ≤ later → Over deadline now → Over deadline later) :
    ∃ origin, Origin Over journal origin := by
  classical
  have htaken : ∀ j, ∃ i, ∀ take, journal[j]? = some (.taken take) →
      ∃ put, Last (journal.take j) i (.stored put) ∧ put.key = take.key ∧
        put.value = take.value ∧ ¬Over put.deadline take.now := by
    intro j
    by_cases hj : ∃ take, journal[j]? = some (.taken take)
    · obtain ⟨take, hj⟩ := hj
      obtain ⟨i, put, hput⟩ := h.taken j take hj
      refine ⟨i, fun other hother => ?_⟩
      rw [hj] at hother
      cases hother
      exact ⟨put, hput⟩
    · exact ⟨0, fun take htake => absurd ⟨take, htake⟩ hj⟩
  choose origin horigin using htaken
  -- a second taking of the same place would come after a record about its key
  have hfirst : ∀ j j' take take', j < j' → journal[j]? = some (.taken take) →
      journal[j']? = some (.taken take') → origin j ≠ origin j' := by
    intro j j' take take' hlt hj hj' heq
    obtain ⟨put, hput, hkey, -⟩ := horigin j take hj
    obtain ⟨put', hput', hkey', -⟩ := horigin j' take' hj'
    have hsame : put = put' := by
      have hindex := hput.lt.2
      rw [heq, hput'.lt.2] at hindex
      cases hindex
      rfl
    apply hput'.after j (.taken take) (heq ▸ hput.lt.1)
    · rw [List.getElem?_take_of_lt hlt]
      exact hj
    · exact hsame ▸ hkey.symm
  refine ⟨origin, ?_, ?_, ?_⟩
  · intro j take hj
    obtain ⟨put, hput, hrest⟩ := horigin j take hj
    exact ⟨hput.lt.1, put, hput.lt.2, hrest⟩
  · intro j j' take take' hj hj' heq
    obtain hlt | rfl | hgt := Nat.lt_trichotomy j j'
    · exact absurd heq (hfirst j j' take take' hlt hj hj')
    · rfl
    · exact absurd heq.symm (hfirst j' j take' take hgt hj' hj)
  · intro i k put later hik hi hk hkey
    obtain hlast | ⟨m, next, him, hmk, hm, hnext, hlast⟩ := last_or_next hi hik
    · exact .inr (h.stored k later hk i put hlast hkey)
    · cases next with
      | stored between =>
          refine .inr (hmono _ _ _ (h.ordered m k between later hmk hm hk) ?_)
          exact h.stored m between hm i put hlast hnext.symm
      | taken take =>
          refine .inl ⟨m, take, him, hmk, hm, ?_⟩
          obtain ⟨put', hput', hkey', -⟩ := horigin m take hm
          obtain hlt | heq | hgt := Nat.lt_trichotomy (origin m) i
          · refine absurd ?_ (hput'.after i (.stored put) hlt hlast.at_index)
            exact (hkey'.trans hnext).symm
          · exact heq
          · refine absurd ?_ (hlast.after (origin m) (.stored put') hgt hput'.at_index)
            exact hkey'.trans hnext

end

/-! Stores. -/

def Store.empty : Store κ ν := ⟨fun _ => none, []⟩

section
variable (Over : Nat → Nat → Prop)

/-- The values are what the journal has pending, except for what is over. -/
structure Store.Faithful (clock : Nat) (store : Store κ ν) : Prop where
  sound : Sound Over store.journal
  held : ∀ key held, store.values key = some held → ∃ i put,
    Last store.journal i (.stored put) ∧ put.key = key ∧ held = ⟨put.value, put.deadline⟩
  gone : ∀ i put, Last store.journal i (.stored put) → store.values put.key = none →
    Over put.deadline clock
  past : ∀ put, .stored put ∈ store.journal → put.storedAt ≤ clock

variable {Over} {clock : Nat} {store : Store κ ν}

theorem Store.Faithful.empty (clock : Nat) : (Store.empty : Store κ ν).Faithful Over clock where
  sound := .nil
  held key held h := by cases h
  gone i put h := by simpa [Store.empty] using h.at_index
  past put h := by cases h

theorem Store.Faithful.later
    (hmono : ∀ deadline now later, now ≤ later → Over deadline now → Over deadline later)
    (h : store.Faithful Over clock) {clock' : Nat} (hclock : clock ≤ clock') :
    store.Faithful Over clock' where
  sound := h.sound
  held := h.held
  gone i put hlast hnone := hmono _ _ _ hclock (h.gone i put hlast hnone)
  past put hput := (h.past put hput).trans hclock

end

/-! Operations. `now` is what the operation read of the clock. -/

section
variable (Over : Nat → Nat → Prop) [DecidableRel Over]

def Store.retain (now : Nat) (store : Store κ ν) : Store κ ν :=
  { store with values := fun key =>
      (store.values key).filter fun held => decide ¬Over held.deadline now }

theorem Store.Faithful.retain {Over : Nat → Nat → Prop} [DecidableRel Over]
    (hmono : ∀ deadline now later, now ≤ later → Over deadline now → Over deadline later)
    {clock : Nat} {store : Store κ ν} (h : store.Faithful Over clock) {now : Nat}
    (hnow : now ≤ clock) : (store.retain Over now).Faithful Over clock where
  sound := h.sound
  held key held hvalue := h.held key held (Option.filter_eq_some_iff.mp hvalue).1
  gone i put hlast hnone := by
    cases hvalue : store.values put.key with
    | none => exact h.gone i put hlast hvalue
    | some held =>
        obtain ⟨i', put', hlast', hkey, rfl⟩ := h.held put.key held hvalue
        cases hlast'.unique hlast hkey
        have hover := Option.filter_eq_none_iff.mp hnone _ hvalue
        exact hmono _ _ _ hnow (by simpa using hover)
  past := h.past

variable [DecidableEq κ]

def Store.putIfAbsent (now : Nat) (put : Put κ ν) (store : Store κ ν) : Bool × Store κ ν :=
  let store := store.retain Over now
  if (store.values put.key).isSome then
    (false, store)
  else
    (true, { values := Function.update store.values put.key (some ⟨put.value, put.deadline⟩)
             journal := store.journal ++ [.stored put] })

def Store.take (now task : Nat) (key : κ) (store : Store κ ν) : Option ν × Store κ ν :=
  let store := store.retain Over now
  match store.values key with
  | none => (none, store)
  | some held =>
      (some held.value,
        { values := Function.update store.values key none
          journal := store.journal ++ [.taken { task, key, value := held.value, now }] })

theorem Store.putIfAbsent_cases (now : Nat) (put : Put κ ν) (store : Store κ ν) :
    store.putIfAbsent Over now put = (false, store.retain Over now) ∨
    ((store.retain Over now).values put.key = none ∧
      store.putIfAbsent Over now put = (true,
        { values := Function.update (store.retain Over now).values put.key
            (some ⟨put.value, put.deadline⟩)
          journal := store.journal ++ [.stored put] })) := by
  cases hvalue : (store.retain Over now).values put.key with
  | none => exact .inr ⟨rfl, by simp only [putIfAbsent, hvalue, Option.isSome_none]; rfl⟩
  | some held => exact .inl (by simp only [putIfAbsent, hvalue, Option.isSome_some, if_true])

theorem Store.take_cases (now task : Nat) (key : κ) (store : Store κ ν) :
    store.take Over now task key = (none, store.retain Over now) ∨
    ∃ held, (store.retain Over now).values key = some held ∧
      store.take Over now task key = (some held.value,
        { values := Function.update (store.retain Over now).values key none
          journal := store.journal ++ [.taken { task, key, value := held.value, now }] }) := by
  cases hvalue : (store.retain Over now).values key with
  | none => exact .inl (by simp only [take, hvalue])
  | some held => exact .inr ⟨held, rfl, by simp only [take, hvalue]; rfl⟩

theorem Store.putIfAbsent_journal (now : Nat) (put : Put κ ν) (store : Store κ ν) :
    (store.putIfAbsent Over now put).2.journal = store.journal ∨
      (store.putIfAbsent Over now put).2.journal = store.journal ++ [.stored put] := by
  obtain heq | ⟨-, heq⟩ := store.putIfAbsent_cases Over now put
  · rw [heq]
    exact .inl rfl
  · rw [heq]
    exact .inr rfl

theorem Store.take_journal (now task : Nat) (key : κ) (store : Store κ ν) :
    ((store.take Over now task key).1 = none ∧
      (store.take Over now task key).2.journal = store.journal) ∨
    ∃ value, (store.take Over now task key).1 = some value ∧
      (store.take Over now task key).2.journal =
        store.journal ++ [.taken { task, key, value, now }] := by
  obtain heq | ⟨held, -, heq⟩ := store.take_cases Over now task key
  · rw [heq]
    exact .inl ⟨rfl, rfl⟩
  · rw [heq]
    exact .inr ⟨held.value, rfl, rfl⟩

section
variable {Over} {clock now : Nat} {store : Store κ ν}
  (hmono : ∀ deadline now later, now ≤ later → Over deadline now → Over deadline later)
include hmono

theorem Store.Faithful.putIfAbsent (h : store.Faithful Over clock) (hnow : now ≤ clock)
    {put : Put κ ν} (hput : put.storedAt = clock) :
    (store.putIfAbsent Over now put).2.Faithful Over clock := by
  have hretain := h.retain hmono hnow
  obtain heq | ⟨hnone, heq⟩ := store.putIfAbsent_cases Over now put
  · rw [heq]
    exact hretain
  · rw [heq]
    refine ⟨?_, ?_, ?_, ?_⟩
    · apply hretain.sound.concat_stored
      · intro i earlier hlast hkey
        rw [hput]
        exact hretain.gone i earlier hlast (hkey ▸ hnone)
      · intro earlier hearlier
        rw [hput]
        exact h.past earlier hearlier
    · intro key held hvalue
      dsimp only at hvalue
      by_cases hkey : key = put.key
      · subst hkey
        rw [Function.update_self] at hvalue
        cases hvalue
        exact ⟨store.journal.length, put, last_concat _ _, rfl, rfl⟩
      · rw [Function.update_of_ne hkey] at hvalue
        obtain ⟨i, earlier, hlast, hearlier, hheld⟩ := hretain.held key held hvalue
        refine ⟨i, earlier, hlast.concat ?_, hearlier, hheld⟩
        exact fun hsame => hkey (hearlier ▸ hsame.symm)
    · intro i earlier hlast hgone
      dsimp only at hlast hgone
      obtain ⟨-, hsame⟩ | ⟨hkey, hlast⟩ := hlast.of_concat
      · cases hsame
        rw [Function.update_self] at hgone
        cases hgone
      · have hother : earlier.key ≠ put.key := fun hsame => hkey hsame.symm
        rw [Function.update_of_ne hother] at hgone
        exact hretain.gone i earlier hlast hgone
    · intro earlier hearlier
      cases List.mem_append.mp hearlier with
      | inl hold => exact h.past earlier hold
      | inr hnew =>
          cases List.mem_singleton.mp hnew
          exact hput.le

theorem Store.Faithful.take (h : store.Faithful Over clock) (hnow : now ≤ clock) (task : Nat)
    (key : κ) : (store.take Over now task key).2.Faithful Over clock := by
  have hretain := h.retain hmono hnow
  obtain heq | ⟨held, hvalue, heq⟩ := store.take_cases Over now task key
  · rw [heq]
    exact hretain
  · rw [heq]
    obtain ⟨i, put, hlast, hkey, rfl⟩ := hretain.held key held hvalue
    have hover : ¬Over put.deadline now := by
      simpa using (Option.filter_eq_some_iff.mp hvalue).2
    refine ⟨hretain.sound.concat_taken hlast hkey rfl hover, ?_, ?_, ?_⟩
    · intro other held hother
      dsimp only at hother
      by_cases hsame : other = key
      · subst hsame
        rw [Function.update_self] at hother
        cases hother
      · rw [Function.update_of_ne hsame] at hother
        obtain ⟨j, earlier, hearlier, hekey, hheld⟩ := hretain.held other held hother
        refine ⟨j, earlier, hearlier.concat ?_, hekey, hheld⟩
        exact fun heq => hsame (hekey ▸ heq.symm)
    · intro j earlier hearlier hgone
      dsimp only at hearlier hgone
      obtain ⟨-, hsame⟩ | ⟨hne, hearlier⟩ := hearlier.of_concat
      · cases hsame
      · have hother : earlier.key ≠ key := fun hsame => hne hsame.symm
        rw [Function.update_of_ne hother] at hgone
        exact hretain.gone j earlier hearlier hgone
    · intro earlier hearlier
      cases List.mem_append.mp hearlier with
      | inl hold => exact h.past earlier hold
      | inr hnew => cases List.mem_singleton.mp hnew

end

end

end Authguard.OneTime
