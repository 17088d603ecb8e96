import Authguard.Common.MemoryCache
import Authguard.Library.Recency
import Authguard.Library.SortedMap

/-!
The in-memory scope cache is a bounded store of records in the order of their last use:
its access numbers keep that order, so the entry with the least number is the one to
give up, and nothing that is live is lost otherwise.
-/

namespace Authguard
open Recency

/-! The reference. -/

/-- The seconds a stored scope may be used. -/
def MemoryAuthorizationCache.effectiveTtl (cache : MemoryAuthorizationCache) (ttl : Duration) : Nat :=
  max 1 (min (Duration.asSecs ttl) (Duration.asSecs cache.defaultTtl))

def MemoryAuthorizationCache.reference (cache : MemoryAuthorizationCache)
    (records : List (Record String String)) (now : EpochSeconds) :
    ScopeCall → ScopeAnswer × List (Record String String)
  | .store token encodedContext ttl =>
      (.stored, Recency.store cache.maxCapacity now
        ⟨token, encodedContext, now + cache.effectiveTtl ttl⟩ records)
  | .load token =>
      let loaded := Recency.load now token records
      (.loaded loaded.1, loaded.2)

/-- The calls one after the other, each with the clock it reads. -/
def runCalls {σ : Type} (serve : σ → EpochSeconds → ScopeCall → ScopeAnswer × σ) :
    σ → List (EpochSeconds × ScopeCall) → List ScopeAnswer × σ
  | state, [] => ([], state)
  | state, (now, call) :: calls =>
      let served := serve state now call
      let rest := runCalls serve served.2 calls
      (served.1 :: rest.1, rest.2)

/-! What the entries of the cache stand for. -/

def entryOf (use : Record String String × Nat) : String × MemoryScope :=
  (use.1.key, { encodedContext := use.1.value
                expiresAtEpochSeconds := min use.1.deadline (2 ^ 64 - 1)
                lastAccessSequence := use.2 })

/-- The live records with the numbers of their last uses are the entries of the cache. -/
structure Tracks (now : Nat) (scopes : MemoryScopes) (records : List (Record String String))
    (uses : List (Record String String × Nat)) : Prop where
  live : uses.map Prod.fst = Recency.live now records
  numbered : Numbered uses
  bounded : ∀ use ∈ uses, use.2 ≤ scopes.nextAccessSequence
  entries : scopes.entries.Perm (uses.map entryOf)
  keys : (records.map Record.key).Nodup

section
variable {now : Nat} {scopes : MemoryScopes} {records : List (Record String String)}
  {uses : List (Record String String × Nat)} (h : Tracks now scopes records uses)
include h

theorem Tracks.mem_live {record : Record String String} :
    record ∈ Recency.live now records ↔ ∃ sequence, (record, sequence) ∈ uses := by
  rw [← h.live]
  simp

theorem Tracks.length : scopes.entries.length = (Recency.live now records).length := by
  rw [h.entries.length_eq, List.length_map, ← h.live, List.length_map]

theorem Tracks.keys_entries : (scopes.entries.map Prod.fst).Nodup := by
  have hkeys : (uses.map entryOf).map Prod.fst = (Recency.live now records).map Record.key := by
    rw [← h.live, List.map_map, List.map_map]
    rfl
  rw [(h.entries.map Prod.fst).nodup_iff, hkeys]
  exact (List.Sublist.map _ List.filter_sublist).nodup h.keys

theorem Tracks.containsKey (token : String) :
    scopes.containsKey token = true ↔ token ∈ (Recency.live now records).map Record.key := by
  rw [MemoryScopes.containsKey, List.any_eq_true, List.mem_map]
  constructor
  · rintro ⟨entry, hentry, hkey⟩
    obtain ⟨use, huse, rfl⟩ := List.mem_map.mp (h.entries.mem_iff.mp hentry)
    exact ⟨use.1, h.mem_live.mpr ⟨use.2, huse⟩, by simpa [entryOf] using hkey⟩
  · rintro ⟨record, hrecord, rfl⟩
    obtain ⟨sequence, huse⟩ := h.mem_live.mp hrecord
    exact ⟨entryOf (record, sequence), h.entries.mem_iff.mpr (List.mem_map_of_mem huse),
      by simp [entryOf]⟩

theorem Tracks.lookup (token : String) (scope : MemoryScope) :
    scopes.entries.lookup token = some scope ↔
      ∃ use ∈ uses, entryOf use = (token, scope) := by
  rw [SortedMap.lookup_eq_some_of_mem h.keys_entries, h.entries.mem_iff, List.mem_map]

/-! One step each. -/

theorem Tracks.retain {later : EpochSeconds} (hlater : now ≤ later) :
    Tracks later (scopes.retain later) records
      (uses.filter fun use => later < use.1.deadline) where
  live := by
    rw [← live_live hlater, ← h.live, Recency.live, List.filter_map]
    rfl
  numbered := h.numbered.filter _
  bounded use huse := h.bounded use (List.mem_of_mem_filter huse)
  entries := by
    refine (h.entries.filter _).trans (.of_eq ?_)
    rw [List.filter_map]
    congr 1
    apply List.filter_congr
    intro use _
    have hclock : later.val < 2 ^ 64 - 1 := lt_trans later.isLt (by norm_num)
    rw [Function.comp_apply, decide_eq_decide]
    change later.val < min use.1.deadline (2 ^ 64 - 1) ↔ later.val < use.1.deadline
    omega
  keys := h.keys

theorem Tracks.remove (key : String) :
    Tracks now (scopes.remove key) (forget key records)
      (uses.filter fun use => use.1.key ≠ key) where
  live := by
    rw [live_forget, ← h.live, forget, List.filter_map]
    rfl
  numbered := h.numbered.filter _
  bounded use huse := h.bounded use (List.mem_of_mem_filter huse)
  entries := by
    refine (h.entries.filter _).trans (.of_eq ?_)
    rw [List.filter_map]
    rfl
  keys := nodup_forget_keys h.keys key

theorem Tracks.renumber {sequence : Nat} (hsequence : scopes.nextAccessSequence ≤ sequence) :
    Tracks now { scopes with nextAccessSequence := sequence } records uses where
  live := h.live
  numbered := h.numbered
  bounded use huse := (h.bounded use huse).trans hsequence
  entries := h.entries
  keys := h.keys

/-- The record that was used just now comes first; its number is greater than all others. -/
theorem Tracks.insert (record : Record String String) (sequence : Nat)
    (hlive : now < record.deadline) (hsequence : scopes.nextAccessSequence < sequence) :
    Tracks now { scopes with nextAccessSequence := sequence
                             entries := entryOf (record, sequence) ::
                               scopes.entries.filter (·.1 ≠ record.key) }
      (record :: forget record.key records)
      ((record, sequence) :: uses.filter fun use => use.1.key ≠ record.key) := by
  have hrest := h.remove record.key
  refine ⟨?_, ?_, ?_, ?_, nodup_store_keys h.keys record⟩
  · rw [List.map_cons, hrest.live, Recency.live, Recency.live, List.filter_cons_of_pos (by simpa using hlive)]
  · refine List.pairwise_cons.mpr ⟨fun use huse => ?_, hrest.numbered⟩
    exact lt_of_le_of_lt (hrest.bounded use huse) hsequence
  · refine List.forall_mem_cons.mpr ⟨le_rfl, fun use huse => ?_⟩
    exact (hrest.bounded use huse).trans hsequence.le
  · exact hrest.entries.cons _

end

/-! The entry to give up. -/

theorem minByKey_some {α : Type} {key : α → Nat} {items : List α} {least : α}
    (h : minByKey key items = some least) :
    least ∈ items ∧ ∀ item ∈ items, key least ≤ key item := by
  induction items generalizing least with
  | nil => cases h
  | cons first rest ih =>
      simp only [minByKey] at h
      cases hrest : minByKey key rest with
      | none =>
          have hnil : rest = [] := by
            cases rest with
            | nil => rfl
            | cons next rest =>
                simp only [minByKey] at hrest
                split at hrest
                · cases hrest
                · split at hrest <;> cases hrest
          rw [hrest] at h
          cases h
          simp [hnil]
      | some other =>
          obtain ⟨hmem, hleast⟩ := ih hrest
          rw [hrest] at h
          simp only at h
          split at h
          · rename_i hle
            cases h
            refine ⟨List.mem_cons_self, List.forall_mem_cons.mpr ⟨le_rfl, fun item hitem => ?_⟩⟩
            exact hle.trans (hleast item hitem)
          · rename_i hlt
            cases h
            refine ⟨List.mem_cons_of_mem _ hmem, List.forall_mem_cons.mpr ⟨?_, hleast⟩⟩
            omega

theorem minByKey_ne_none {α : Type} {key : α → Nat} {items : List α} (h : items ≠ []) :
    ∃ least, minByKey key items = some least := by
  cases items with
  | nil => exact absurd rfl h
  | cons first rest =>
      simp only [minByKey]
      split
      · exact ⟨_, rfl⟩
      · split
        · exact ⟨_, rfl⟩
        · exact ⟨_, rfl⟩

section
variable {cache : MemoryAuthorizationCache} {now : Nat} {scopes : MemoryScopes}
  {records : List (Record String String)} {uses : List (Record String String × Nat)}
  (h : Tracks now scopes records uses)
include h

/-- Whatever the order of the iterator, the least number belongs to the last live record. -/
theorem Tracks.least {token : String} {scope : MemoryScope}
    (hleast : minByKey (fun entry => entry.2.lastAccessSequence)
      (cache.order.visits scopes.entries) = some (token, scope)) :
    ∃ last, (Recency.live now records).getLast? = some last ∧ token = last.key := by
  obtain ⟨hmem, hmin⟩ := minByKey_some hleast
  have hperm := (cache.order.perm scopes.entries).trans h.entries
  obtain ⟨use, huse, hentry⟩ := List.mem_map.mp (hperm.mem_iff.mp hmem)
  obtain ⟨last, hlast⟩ : ∃ last, uses.getLast? = some last :=
    Option.isSome_iff_exists.mp (by simpa using List.ne_nil_of_mem huse)
  have hle : use.2 ≤ last.2 := by
    have hlastEntry := hperm.mem_iff.mpr (List.mem_map_of_mem (List.mem_of_getLast? hlast))
    have hle := hmin _ hlastEntry
    rw [← hentry] at hle
    exact hle
  obtain rfl := h.numbered.last_least huse hlast hle
  refine ⟨use.1, ?_, congrArg Prod.fst hentry.symm⟩
  rw [← h.live, List.getLast?_map, hlast]
  rfl

omit h in
theorem length_filter_key_lt {entries : List (String × MemoryScope)} {entry : String × MemoryScope}
    (hentry : entry ∈ entries) : (entries.filter (·.1 ≠ entry.1)).length < entries.length :=
  List.length_filter_lt_length_iff_exists.mpr ⟨entry, hentry, by simp⟩

/-- Eviction removes the same key on both sides, and leaves room. -/
theorem Tracks.evict (hcapacity : 1 ≤ cache.maxCapacity) (token : String)
    (hbound : scopes.entries.length ≤ cache.maxCapacity) :
    ∃ uses', Tracks now (cache.evict scopes token)
        ((victim cache.maxCapacity now token records).elim records fun key => forget key records)
        uses' ∧
      (cache.evict scopes token).nextAccessSequence = scopes.nextAccessSequence ∧
      ((cache.evict scopes token).entries.filter (·.1 ≠ token)).length < cache.maxCapacity := by
  rw [MemoryAuthorizationCache.evict]
  by_cases hfull : (!scopes.containsKey token && decide (cache.maxCapacity ≤ scopes.entries.length)) = true
  · rw [if_pos hfull]
    simp only [Bool.and_eq_true, Bool.not_eq_true', decide_eq_true_eq] at hfull
    obtain ⟨habsent, hlength⟩ := hfull
    have hvictim : victim cache.maxCapacity now token records =
        (Recency.live now records).getLast?.map Record.key := by
      rw [victim, if_neg]
      rw [← h.containsKey, ← h.length]
      simp only [habsent, Bool.false_eq_true, false_or]
      omega
    have hne : cache.order.visits scopes.entries ≠ [] := by
      intro hnil
      have hempty := (cache.order.perm scopes.entries).length_eq
      rw [hnil, List.length_nil] at hempty
      omega
    obtain ⟨⟨key, scope⟩, hleast⟩ := minByKey_ne_none hne
    obtain ⟨last, hlast, rfl⟩ := h.least hleast
    have hmem := (cache.order.perm scopes.entries).mem_iff.mp (minByKey_some hleast).1
    rw [hleast, hvictim, hlast]
    refine ⟨_, h.remove last.key, rfl, ?_⟩
    calc ((scopes.remove last.key).entries.filter (·.1 ≠ token)).length
        ≤ (scopes.remove last.key).entries.length := List.length_filter_le _ _
      _ < scopes.entries.length := length_filter_key_lt hmem
      _ ≤ cache.maxCapacity := hbound
  · rw [if_neg hfull]
    simp only [Bool.and_eq_true, Bool.not_eq_true', decide_eq_true_eq, not_and, not_le] at hfull
    have hroom : scopes.containsKey token = true ∨ scopes.entries.length < cache.maxCapacity := by
      by_cases habsent : scopes.containsKey token = false
      · exact .inr (hfull habsent)
      · exact .inl (by simpa using habsent)
    have hvictim : victim cache.maxCapacity now token records = none := by
      rw [victim, if_pos]
      rwa [← h.containsKey, ← h.length]
    rw [hvictim]
    refine ⟨uses, h, rfl, ?_⟩
    obtain hpresent | hroom := hroom
    · obtain ⟨entry, hentry, hkey⟩ := List.any_eq_true.mp hpresent
      obtain rfl : entry.1 = token := by simpa using hkey
      exact (length_filter_key_lt hentry).trans_le hbound
    · exact (List.length_filter_le _ _).trans_lt hroom

end

/-! One call. -/

theorem expiresAt_eq (cache : MemoryAuthorizationCache) (now : EpochSeconds) (ttl : Duration) :
    cache.expiresAt now ttl = min (now + cache.effectiveTtl ttl) (2 ^ 64 - 1) := by
  have hmin : Duration.asSecs (min ttl cache.defaultTtl) =
      min (Duration.asSecs ttl) (Duration.asSecs cache.defaultTtl) := by
    simp only [Duration.asSecs]
    rcases le_total ttl cache.defaultTtl with hle | hle
    · rw [min_eq_left hle, min_eq_left (Nat.div_le_div_right hle)]
    · rw [min_eq_right hle, min_eq_right (Nat.div_le_div_right hle)]
  rw [MemoryAuthorizationCache.expiresAt, saturatingAdd, hmin, max_comm,
    MemoryAuthorizationCache.effectiveTtl]

/-- The cache holds the live records of the reference, and no more than it may. -/
structure RefinesRecency (cache : MemoryAuthorizationCache) (last : Nat) (scopes : MemoryScopes)
    (records : List (Record String String)) : Prop where
  tracks : ∃ uses, Tracks last scopes records uses
  bounded : scopes.entries.length ≤ cache.maxCapacity

section
variable {cache : MemoryAuthorizationCache} {last : Nat} {scopes : MemoryScopes}
  {records : List (Record String String)} (h : RefinesRecency cache last scopes records)
  {now : EpochSeconds} (hnow : last ≤ now)
include h hnow

theorem RefinesRecency.retain : RefinesRecency cache now (scopes.retain now) records := by
  obtain ⟨uses, htracks⟩ := h.tracks
  exact ⟨⟨_, htracks.retain hnow⟩, (List.length_filter_le _ _).trans h.bounded⟩

variable (hroom : scopes.nextAccessSequence + 1 ≤ 2 ^ 64 - 1)
include hroom

theorem RefinesRecency.store (hcapacity : 1 ≤ cache.maxCapacity) (token encodedContext : String)
    (ttl : Duration) :
    RefinesRecency cache now (cache.storeScope scopes now token encodedContext ttl)
        (Recency.store cache.maxCapacity now
          ⟨token, encodedContext, now + cache.effectiveTtl ttl⟩ records) ∧
      (cache.storeScope scopes now token encodedContext ttl).nextAccessSequence =
        scopes.nextAccessSequence + 1 := by
  have hretained := h.retain hnow
  obtain ⟨uses, htracks⟩ := hretained.tracks
  obtain ⟨uses', hevicted, hsequence, hlength⟩ :=
    htracks.evict hcapacity token hretained.bounded
  have hnext : saturatingAdd (cache.evict (scopes.retain now) token).nextAccessSequence 1 =
      scopes.nextAccessSequence + 1 := by
    rw [hsequence, saturatingAdd]
    exact min_eq_left hroom
  have hlive : now.val < now.val + cache.effectiveTtl ttl := by
    rw [MemoryAuthorizationCache.effectiveTtl]
    omega
  have hlater : (cache.evict (scopes.retain now) token).nextAccessSequence <
      scopes.nextAccessSequence + 1 := by
    rw [hsequence]
    exact Nat.lt_succ_self _
  have hinserted := hevicted.insert ⟨token, encodedContext, now + cache.effectiveTtl ttl⟩
    (scopes.nextAccessSequence + 1) hlive hlater
  have hstore : cache.storeScope scopes now token encodedContext ttl =
      { cache.evict (scopes.retain now) token with
        nextAccessSequence := scopes.nextAccessSequence + 1
        entries := entryOf (⟨token, encodedContext, now + cache.effectiveTtl ttl⟩,
            scopes.nextAccessSequence + 1) ::
          (cache.evict (scopes.retain now) token).entries.filter (·.1 ≠ token) } := by
    simp only [MemoryAuthorizationCache.storeScope, MemoryScopes.insert, MemoryScopes.nextSequence,
      hnext, expiresAt_eq, entryOf]
  rw [hstore]
  exact ⟨⟨⟨_, hinserted⟩, hlength⟩, rfl⟩

theorem RefinesRecency.load (token : String) :
    (cache.loadScope scopes now token).1 = (Recency.load now token records).1 ∧
      RefinesRecency cache now (cache.loadScope scopes now token).2
        (Recency.load now token records).2 ∧
      (cache.loadScope scopes now token).2.nextAccessSequence = scopes.nextAccessSequence + 1 := by
  have hretained := h.retain hnow
  obtain ⟨uses, htracks⟩ := hretained.tracks
  have hnext : saturatingAdd (scopes.retain now).nextAccessSequence 1 =
      scopes.nextAccessSequence + 1 :=
    min_eq_left hroom
  rw [MemoryAuthorizationCache.loadScope, Recency.load, MemoryScopes.nextSequence, hnext]
  cases hfind : (Recency.live now records).find? fun record => record.key = token with
  | none =>
      have habsent : (scopes.retain now).entries.lookup token = none := by
        rw [Option.eq_none_iff_forall_ne_some]
        intro scope hscope
        obtain ⟨use, huse, hentry⟩ := (htracks.lookup token scope).mp hscope
        have hno := List.find?_eq_none.mp hfind use.1 (htracks.mem_live.mpr ⟨use.2, huse⟩)
        exact hno (by simpa [entryOf] using congrArg Prod.fst hentry)
      simp only [habsent]
      exact ⟨trivial, ⟨⟨uses, htracks.renumber (Nat.le_succ _)⟩, hretained.bounded⟩, trivial⟩
  | some record =>
      obtain rfl : record.key = token := by simpa using List.find?_some hfind
      obtain ⟨sequence, huse⟩ := htracks.mem_live.mp (List.mem_of_find?_eq_some hfind)
      have hlookup : (scopes.retain now).entries.lookup record.key =
          some (entryOf (record, sequence)).2 :=
        (htracks.lookup _ _).mpr ⟨_, huse, rfl⟩
      have hlive : now.val < record.deadline := by
        have hmem := List.mem_of_find?_eq_some hfind
        simpa [Recency.live] using (List.mem_filter.mp hmem).2
      have hinserted := htracks.insert record (scopes.nextAccessSequence + 1) hlive
        (Nat.lt_succ_self _)
      have hentry : entryOf (record, sequence) ∈ (scopes.retain now).entries :=
        htracks.entries.mem_iff.mpr (List.mem_map_of_mem huse)
      have hlength := length_filter_key_lt hentry
      simp only [hlookup]
      refine ⟨rfl, ⟨⟨_, hinserted⟩, ?_⟩, rfl⟩
      exact (Nat.succ_le_of_lt hlength).trans hretained.bounded

end

theorem RefinesRecency.serve {cache : MemoryAuthorizationCache} {last : Nat} {scopes : MemoryScopes}
    {records : List (Record String String)} (h : RefinesRecency cache last scopes records)
    (hcapacity : 1 ≤ cache.maxCapacity) {now : EpochSeconds} (hnow : last ≤ now)
    (hroom : scopes.nextAccessSequence + 1 ≤ 2 ^ 64 - 1) (call : ScopeCall) :
    (cache.serve scopes now call).1 = (cache.reference records now call).1 ∧
      RefinesRecency cache now (cache.serve scopes now call).2 (cache.reference records now call).2 ∧
      (cache.serve scopes now call).2.nextAccessSequence = scopes.nextAccessSequence + 1 := by
  cases call with
  | store token encodedContext ttl =>
      obtain ⟨hfollows, hnext⟩ := h.store hnow hroom hcapacity token encodedContext ttl
      exact ⟨rfl, hfollows, hnext⟩
  | load token =>
      obtain ⟨hanswer, hfollows, hnext⟩ := h.load hnow hroom token
      exact ⟨congrArg ScopeAnswer.loaded hanswer, hfollows, hnext⟩

/-! Whole runs. -/

theorem refinesRecency_new (cache : MemoryAuthorizationCache) : RefinesRecency cache 0 .new [] where
  tracks := ⟨[], rfl, .nil, nofun, .refl _, .nil⟩
  bounded := Nat.zero_le _

theorem RefinesRecency.run {cache : MemoryAuthorizationCache} (hcapacity : 1 ≤ cache.maxCapacity)
    {calls : List (EpochSeconds × ScopeCall)} (hclock : (calls.map Prod.fst).Pairwise (· ≤ ·))
    {last : Nat} {scopes : MemoryScopes} {records : List (Record String String)}
    (h : RefinesRecency cache last scopes records) (hlast : ∀ call ∈ calls, last ≤ call.1)
    (hcount : scopes.nextAccessSequence + calls.length ≤ 2 ^ 64 - 1) :
    (runCalls cache.serve scopes calls).1 = (runCalls cache.reference records calls).1 ∧
      ∃ reached : Nat, (∀ now : EpochSeconds, last ≤ now → (∀ call ∈ calls, call.1 ≤ now) →
          reached ≤ now) ∧
        RefinesRecency cache reached (runCalls cache.serve scopes calls).2
          (runCalls cache.reference records calls).2 := by
  induction calls generalizing last scopes records with
  | nil => exact ⟨rfl, last, fun _ hnow _ => hnow, h⟩
  | cons first calls ih =>
      obtain ⟨now, call⟩ := first
      obtain ⟨hnow, hrest⟩ := List.forall_mem_cons.mp hlast
      rw [List.length_cons] at hcount
      obtain ⟨hanswer, hfollows, hnext⟩ := h.serve hcapacity hnow (by omega) call
      obtain ⟨hfirst, hclock⟩ := List.pairwise_cons.mp hclock
      obtain ⟨hanswers, reached, hreached, hfinal⟩ := ih hclock hfollows
        (fun call hcall => hfirst call.1 (List.mem_map_of_mem hcall)) (by rw [hnext]; omega)
      refine ⟨?_, reached, fun later _ hcalls => ?_, hfinal⟩
      · rw [runCalls, runCalls, hanswer, hanswers]
      · obtain ⟨hthis, hothers⟩ := List.forall_mem_cons.mp hcalls
        exact hreached later hthis hothers

/-- The cache answers as the reference does, stays within its capacity, and holds at any
later time exactly the records that are live in the reference. -/
theorem memoryCache_refines_recency (cache : MemoryAuthorizationCache)
    (hcapacity : 1 ≤ cache.maxCapacity) (calls : List (EpochSeconds × ScopeCall))
    (hclock : (calls.map Prod.fst).Pairwise (· ≤ ·)) (hcount : calls.length < 2 ^ 64 - 1) :
    (runCalls cache.serve .new calls).1 = (runCalls cache.reference [] calls).1 ∧
      (runCalls cache.serve .new calls).2.entries.length ≤ cache.maxCapacity ∧
      ∀ now : EpochSeconds, (∀ call ∈ calls, call.1 ≤ now) →
        (((runCalls cache.serve .new calls).2.retain now).entries.map fun entry =>
            (entry.1, entry.2.encodedContext)).Perm
          ((live now (runCalls cache.reference [] calls).2).map fun record =>
            (record.key, record.value)) := by
  have hzero : MemoryScopes.new.nextAccessSequence + calls.length ≤ 2 ^ 64 - 1 := by
    rw [MemoryScopes.new, Nat.zero_add]
    exact hcount.le
  obtain ⟨hanswers, reached, hreached, hfollows⟩ :=
    (refinesRecency_new cache).run hcapacity hclock (fun _ _ => Nat.zero_le _) hzero
  refine ⟨hanswers, hfollows.bounded, fun now hnow => ?_⟩
  obtain ⟨uses, htracks⟩ := (hfollows.retain (hreached now (Nat.zero_le _) hnow)).tracks
  rw [← htracks.live, List.map_map]
  refine (htracks.entries.map _).trans (.of_eq ?_)
  rw [List.map_map]
  rfl

namespace SmallCache

def cache : MemoryAuthorizationCache where
  maxCapacity := 2
  defaultTtl := Duration.fromSecs 60
  order := ⟨id, fun _ => .refl _⟩

/-- Two tokens fill the cache, the first one is used, and a third one comes. -/
def calls : List (EpochSeconds × ScopeCall) :=
  [(0, .store "token-a" "context-a" (Duration.fromSecs 30)),
    (0, .store "token-b" "context-b" (Duration.fromSecs 30)), (1, .load "token-a"),
    (1, .store "token-c" "context-c" (Duration.fromSecs 30)), (2, .load "token-b"),
    (2, .load "token-a"), (3, .load "token-c")]

theorem least_recently_used_evicted :
    (runCalls cache.reference [] calls).1 =
        [.stored, .stored, .loaded (some "context-a"), .stored, .loaded none,
          .loaded (some "context-a"), .loaded (some "context-c")] ∧
      (runCalls cache.serve .new calls).1 = (runCalls cache.reference [] calls).1 :=
  ⟨by decide +kernel,
    (memoryCache_refines_recency cache (by decide) calls (by decide) (by decide)).1⟩

end SmallCache

end Authguard
