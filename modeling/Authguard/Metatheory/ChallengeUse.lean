import Authguard.Authn.ChallengeStore

/-!
Challenges are used once, for the purpose they were stored for and within their
time: in any interleaving of `put_json` and `consume_json` calls over one cache,
with a clock that never goes back. Each cache refines the one-time store; what its
journal says is then read back to the requests.
-/

namespace Authguard
open Text

/-! What differs between the caches. -/

namespace Cache

def Over : Cache → Nat → Nat → Prop
  | .memory _ => CacheStore.memoryOver
  | .redis _ => CacheStore.redisOver

instance Over.decidable (cache : Cache) : DecidableRel cache.Over :=
  match cache with
  | .memory _ => inferInstanceAs (DecidableRel CacheStore.memoryOver)
  | .redis _ => inferInstanceAs (DecidableRel CacheStore.redisOver)

/-- The clock in the unit the cache reads it in. -/
def reading : Cache → CacheStore → Nat
  | .memory _, store => store.seconds
  | .redis _, store => store.clock

def key : Cache → String → String
  | .memory _, name => name
  | .redis keyPrefix, name => cacheKey keyPrefix name

/-- Whole seconds, at least one. -/
def lifetime : Cache → Nat → Nat
  | .memory defaultTtl, ttl => max (asSecs (min ttl defaultTtl)) 1
  | .redis _, ttl => max (asSecs ttl) 1

def deadline (cache : Cache) (storedAt ttl : Nat) : Nat :=
  match cache with
  | .memory _ => CacheStore.memoryExpiry storedAt (cache.lifetime ttl)
  | .redis _ => CacheStore.redisExpiry storedAt (cache.lifetime ttl)

/-- The lifetime had elapsed; Redis counts milliseconds and the last one in. -/
def Elapsed (cache : Cache) (storedAt ttl now : Nat) : Prop :=
  match cache with
  | .memory _ => storedAt + cache.lifetime ttl ≤ now
  | .redis _ => storedAt + 1000 * cache.lifetime ttl < now

theorem over_mono (cache : Cache) (deadline now later : Nat) (hlater : now ≤ later)
    (h : cache.Over deadline now) : cache.Over deadline later := by
  cases cache with
  | memory defaultTtl => exact h.trans hlater
  | redis keyPrefix => exact lt_of_lt_of_le h hlater

theorem over_of_elapsed {cache : Cache} {storedAt ttl now : Nat}
    (h : cache.Elapsed storedAt ttl now) : cache.Over (cache.deadline storedAt ttl) now := by
  cases cache with
  | memory defaultTtl => exact (min_le_left _ _).trans h
  | redis keyPrefix => exact h

/-- Saturation is out of reach of the clock. -/
theorem elapsed_of_over {cache : Cache} {storedAt ttl : Nat} {store : CacheStore}
    (hclock : store.clock < clockLimit)
    {now : Nat} (hnow : now ≤ cache.reading store)
    (h : cache.Over (cache.deadline storedAt ttl) now) : cache.Elapsed storedAt ttl now := by
  cases cache with
  | memory defaultTtl =>
      have hseconds : now < 2 ^ 64 - 1 := by
        have hlimit : store.clock / 1000 < 2 ^ 63 :=
          Nat.div_lt_of_lt_mul (by simpa [clockLimit, Nat.mul_comm] using hclock)
        have hread : now ≤ store.clock / 1000 := hnow
        omega
      have hmin : min (storedAt + lifetime (.memory defaultTtl) ttl) (2 ^ 64 - 1) ≤ now := h
      rw [min_le_iff] at hmin
      obtain hle | hmax := hmin
      · exact hle
      · omega
  | redis keyPrefix => exact h

end Cache

/-! Keys. -/

theorem hexDigit_inj {m n : Nat} (hm : m < 16) (hn : n < 16) (h : hexDigit m = hexDigit n) :
    m = n := by
  have hall : ∀ m < 16, ∀ n < 16, hexDigit m = hexDigit n → m = n := by decide
  exact hall m hm n hn h

theorem lowerHex_inj {digest digest' : List UInt8} (h : lowerHex digest = lowerHex digest') :
    digest = digest' := by
  rw [lowerHex, lowerHex, String.ofList_inj] at h
  induction digest generalizing digest' with
  | nil =>
      cases digest' with
      | nil => rfl
      | cons byte rest => simp at h
  | cons byte rest ih =>
      cases digest' with
      | nil => simp at h
      | cons byte' rest' =>
          simp only [List.flatMap_cons, List.cons_append, List.nil_append, List.cons.injEq] at h
          obtain ⟨hhigh, hlow, hrest⟩ := h
          have hbound := byte.toNat_lt
          have hbound' := byte'.toNat_lt
          have hdiv := hexDigit_inj (by omega) (by omega) hhigh
          have hmod := hexDigit_inj (by omega) (by omega) hlow
          have hbyte : byte = byte' := UInt8.toNat_inj.mp (by omega)
          rw [hbyte, ih hrest]

theorem asBytes_inj {text text' : String} (h : asBytes text = asBytes text') : text = text' := by
  rw [asBytes, asBytes, Array.toList_inj] at h
  exact String.toByteArray_inj.mp (ByteArray.ext h)

theorem challengeName_inj {purpose purpose' challengeId challengeId' : String}
    (hpurpose : '\x00' ∉ purpose.toList) (hpurpose' : '\x00' ∉ purpose'.toList)
    (h : challengeName purpose challengeId = challengeName purpose' challengeId') :
    purpose = purpose' ∧ challengeId = challengeId' := by
  have hsplit := splitOnce_append challengeId hpurpose
  have hsplit' := splitOnce_append challengeId' hpurpose'
  rw [challengeName, challengeName] at h
  rw [asBytes_inj h, hsplit', Option.some.injEq, Prod.mk.injEq] at hsplit
  exact ⟨hsplit.1.symm, hsplit.2.symm⟩

section
variable {ι : Type} [ChallengeFormat ι]

/-- Nothing is dropped from a key that starts with another character. -/
theorem cacheKey_challengeKey (keyPrefix purpose challengeId : String) :
    Cache.cacheKey keyPrefix (challengeKey ι purpose challengeId) =
      keyPrefix ++ ":" ++ challengeKey ι purpose challengeId := by
  have hkeep : (challengeKey ι purpose challengeId).toList.dropWhile (· == ':') =
      (challengeKey ι purpose challengeId).toList := by
    have htag : "authn-challenge:v1:".toList = 'a' :: "uthn-challenge:v1:".toList := by decide
    unfold challengeKey
    rw [String.toList_append, htag, List.cons_append, List.dropWhile_cons_of_neg (by decide)]
  rw [Cache.cacheKey, hkeep, String.ofList_toList]

theorem cache_key_digest {cache : Cache} {purpose purpose' challengeId challengeId' : String}
    (h : cache.key (challengeKey ι purpose challengeId) =
      cache.key (challengeKey ι purpose' challengeId')) :
    ChallengeFormat.sha256 ι (challengeName purpose challengeId) =
      ChallengeFormat.sha256 ι (challengeName purpose' challengeId') := by
  have hkeys : challengeKey ι purpose challengeId = challengeKey ι purpose' challengeId' := by
    cases cache with
    | memory defaultTtl =>
        simp only [Cache.key] at h
        exact h
    | redis keyPrefix =>
        simp only [Cache.key, cacheKey_challengeKey] at h
        rwa [String.append_right_inj] at h
  unfold challengeKey at hkeys
  rw [String.append_right_inj] at hkeys
  exact lowerHex_inj hkeys

/-! Where a task stands. -/

def putReply (stored : Bool) : CacheProgram ChallengeError (ChallengeReply ι) := do
  requireStored stored
  .ok .stored

def takeReply (τ : ι) (value : Option (List UInt8)) :
    CacheProgram ChallengeError (ChallengeReply ι) := do
  let payload ← readPayload τ value
  .ok (.consumed τ payload)

def commandReply {α : Type} (reply : α → CacheProgram ChallengeError (ChallengeReply ι)) :
    Except CacheError α → CacheProgram ChallengeError (ChallengeReply ι)
  | .error _ => .fail .backend
  | .ok value => reply value

inductive Doing (cache : Cache) (store : CacheStore) (task : Nat) :
    ChallengeRequest ι → CacheProgram ChallengeError (ChallengeReply ι) → Prop
  | memoryPut {purpose challengeId : String} {τ : ι} {payload : ChallengeFormat.Payload τ}
      {ttl defaultTtl : Nat} {value : List UInt8} (hcache : cache = .memory defaultTtl)
      (hvalue : ChallengeFormat.toVec payload = some value) :
      Doing cache store task (.putJson purpose challengeId τ payload ttl)
        (.call .epochSeconds fun now =>
          .call (.lockedPut now (challengeKey ι purpose challengeId) value (cache.lifetime ttl))
            putReply)
  | memoryPutLocked {purpose challengeId : String} {τ : ι} {payload : ChallengeFormat.Payload τ}
      {ttl defaultTtl now : Nat} {value : List UInt8} (hcache : cache = .memory defaultTtl)
      (hvalue : ChallengeFormat.toVec payload = some value) (hnow : now ≤ store.seconds) :
      Doing cache store task (.putJson purpose challengeId τ payload ttl)
        (.call (.lockedPut now (challengeKey ι purpose challengeId) value (cache.lifetime ttl))
          putReply)
  | redisPut {purpose challengeId keyPrefix : String} {τ : ι}
      {payload : ChallengeFormat.Payload τ} {ttl : Nat} {value : List UInt8}
      (hcache : cache = .redis keyPrefix) (hvalue : ChallengeFormat.toVec payload = some value) :
      Doing cache store task (.putJson purpose challengeId τ payload ttl)
        (.call (.setNxEx (cache.key (challengeKey ι purpose challengeId)) value
          (cache.lifetime ttl)) (commandReply putReply))
  | memoryTake {purpose challengeId : String} {τ : ι} {defaultTtl : Nat}
      (hcache : cache = .memory defaultTtl) :
      Doing cache store task (.consumeJson purpose challengeId τ)
        (.call .epochSeconds fun now =>
          .call (.lockedTake now (challengeKey ι purpose challengeId)) (takeReply τ))
  | memoryTakeLocked {purpose challengeId : String} {τ : ι} {defaultTtl now : Nat}
      (hcache : cache = .memory defaultTtl) (hnow : now ≤ store.seconds) :
      Doing cache store task (.consumeJson purpose challengeId τ)
        (.call (.lockedTake now (challengeKey ι purpose challengeId)) (takeReply τ))
  | redisTake {purpose challengeId keyPrefix : String} {τ : ι}
      (hcache : cache = .redis keyPrefix) :
      Doing cache store task (.consumeJson purpose challengeId τ)
        (.call (.getDel (cache.key (challengeKey ι purpose challengeId)))
          (commandReply (takeReply τ)))
  | stored {purpose challengeId : String} {τ : ι} {payload : ChallengeFormat.Payload τ}
      {ttl : Nat} : Doing cache store task (.putJson purpose challengeId τ payload ttl) (.ok .stored)
  | nothing {purpose challengeId : String} {τ : ι} :
      Doing cache store task (.consumeJson purpose challengeId τ) (.ok (.consumed τ none))
  | consumed {purpose challengeId : String} {τ : ι} {payload : ChallengeFormat.Payload τ} {j : Nat}
      {take : OneTime.Take String (List UInt8)}
      (htaken : store.entries.journal[j]? = some (.taken take)) (htask : take.task = task)
      (hpayload : ChallengeFormat.fromSlice τ take.value = some payload) :
      Doing cache store task (.consumeJson purpose challengeId τ)
        (.ok (.consumed τ (some payload)))
  | failed {request : ChallengeRequest ι} (error : ChallengeError) :
      Doing cache store task request (.fail error)

theorem commandReply_eq {α β : Type} (next : α → CacheProgram ChallengeError β)
    (reply : β → CacheProgram ChallengeError (ChallengeReply ι)) (answer : Except CacheError α) :
    (((CacheProgram.answered answer).lift id (fun _ value => value)
      (fun _ => ChallengeError.backend) >>= next) >>= reply) =
        commandReply (fun value => next value >>= reply) answer := by
  cases answer with
  | error error => rfl
  | ok value => rfl

theorem Doing.begin (cache : Cache) (store : CacheStore) (task : Nat)
    (request : ChallengeRequest ι) : Doing cache store task request (request.program cache) := by
  cases request with
  | putJson purpose challengeId τ payload ttl =>
      cases hvalue : ChallengeFormat.toVec payload with
      | none =>
          simp only [ChallengeRequest.program, putJson, hvalue, Program.fail_bind]
          exact .failed .invalidState
      | some value =>
          cases cache with
          | memory defaultTtl =>
              simp only [ChallengeRequest.program, putJson, hvalue, Cache.putIfAbsent]
              exact .memoryPut rfl hvalue
          | redis keyPrefix =>
              simp only [ChallengeRequest.program, putJson, hvalue, Cache.putIfAbsent,
                Program.lift, Program.call_bind, commandReply_eq]
              exact .redisPut rfl hvalue
  | consumeJson purpose challengeId τ =>
      cases cache with
      | memory defaultTtl =>
          simp only [ChallengeRequest.program, consumeJson, Cache.take]
          exact .memoryTake rfl
      | redis keyPrefix =>
          simp only [ChallengeRequest.program, consumeJson, Cache.take, Program.lift,
            Program.call_bind, commandReply_eq]
          exact .redisTake rfl

/-! One call. -/

/-- What a record says of the request it was made for. -/
def RecordOf (cache : Cache) (request : ChallengeRequest ι) :
    OneTime.Record String (List UInt8) → Prop
  | .stored put => ∃ purpose challengeId, ∃ (τ : ι) (payload : ChallengeFormat.Payload τ), ∃ ttl,
      request = .putJson purpose challengeId τ payload ttl ∧
      put.key = cache.key (challengeKey ι purpose challengeId) ∧
      ChallengeFormat.toVec payload = some put.value ∧
      put.deadline = cache.deadline put.storedAt ttl
  | .taken take => ∃ purpose challengeId, ∃ τ : ι,
      request = .consumeJson purpose challengeId τ ∧
      take.key = cache.key (challengeKey ι purpose challengeId)

/-- The clock goes on and the journal grows. -/
structure Advances (store next : CacheStore) : Prop where
  clock : store.clock ≤ next.clock
  journal : store.entries.journal <+: next.entries.journal

theorem Doing.later {cache : Cache} {store next : CacheStore} {task : Nat}
    {request : ChallengeRequest ι} {rest : CacheProgram ChallengeError (ChallengeReply ι)}
    (h : Doing cache store task request rest) (hnext : Advances store next) :
    Doing cache next task request rest := by
  have hseconds : store.seconds ≤ next.seconds := Nat.div_le_div_right hnext.clock
  cases h with
  | memoryPut hcache hvalue => exact .memoryPut hcache hvalue
  | memoryPutLocked hcache hvalue hnow => exact .memoryPutLocked hcache hvalue (hnow.trans hseconds)
  | redisPut hcache hvalue => exact .redisPut hcache hvalue
  | memoryTake hcache => exact .memoryTake hcache
  | memoryTakeLocked hcache hnow => exact .memoryTakeLocked hcache (hnow.trans hseconds)
  | redisTake hcache => exact .redisTake hcache
  | stored => exact .stored
  | nothing => exact .nothing
  | consumed htaken htask hpayload =>
      obtain ⟨more, hmore⟩ := hnext.journal
      have hlater := @List.getElem?_append_left _ _ more _ (List.getElem?_eq_some_iff.mp htaken).1
      rw [hmore, htaken] at hlater
      exact .consumed hlater htask hpayload
  | failed error => exact .failed error

/-- What a call leaves behind. -/
structure Served (cache : Cache) (store next : CacheStore) (task : Nat)
    (request : ChallengeRequest ι) (rest : CacheProgram ChallengeError (ChallengeReply ι)) :
    Prop where
  advances : Advances store next
  bounded : next.clock < clockLimit
  faithful : next.entries.Faithful cache.Over (cache.reading next)
  doing : Doing cache next task request rest
  records : ∀ record ∈ next.entries.journal, record ∈ store.entries.journal ∨
    (record.task = task ∧ RecordOf cache request record)

section
variable {cache : Cache} {store next : CacheStore} {task : Nat} {request : ChallengeRequest ι}

theorem reading_mono (cache : Cache) {store next : CacheStore} (h : store.clock ≤ next.clock) :
    cache.reading store ≤ cache.reading next := by
  cases cache with
  | memory defaultTtl => exact Nat.div_le_div_right h
  | redis keyPrefix => exact h

theorem reading_entries (cache : Cache) (store : CacheStore)
    (entries : OneTime.Store String (List UInt8)) :
    cache.reading { store with entries } = cache.reading store := by
  cases cache with
  | memory defaultTtl => rfl
  | redis keyPrefix => rfl

section
variable {now : Nat} {rest : CacheProgram ChallengeError (ChallengeReply ι)}
  (hbounded : store.clock < clockLimit)
  (hfaithful : store.entries.Faithful cache.Over (cache.reading store))
include hbounded hfaithful

/-- A call that leaves the entries alone. -/
theorem served_same (hdoing : Doing cache store task request rest) :
    Served cache store store task request rest where
  advances := ⟨le_rfl, List.prefix_refl _⟩
  bounded := hbounded
  faithful := hfaithful
  doing := hdoing
  records _ hmem := .inl hmem

theorem served_put (hnow : now ≤ cache.reading store) {put : OneTime.Put String (List UInt8)}
    (hput : put.storedAt = cache.reading store) (htask : put.task = task)
    (hrecord : RecordOf cache request (.stored put))
    (hdoing : ∀ next, Doing cache next task request rest) :
    Served cache store { store with entries := (store.entries.putIfAbsent cache.Over now put).2 }
      task request rest where
  advances := by
    refine ⟨le_rfl, ?_⟩
    obtain heq | heq := store.entries.putIfAbsent_journal cache.Over now put
    · rw [heq]
    · rw [heq]
      exact List.prefix_append _ _
  bounded := hbounded
  faithful := by
    rw [reading_entries]
    exact hfaithful.putIfAbsent cache.over_mono hnow hput
  doing := hdoing _
  records record hmem := by
    obtain heq | heq := store.entries.putIfAbsent_journal cache.Over now put
    · exact .inl (heq ▸ hmem)
    · dsimp only at hmem
      rw [heq, List.mem_append, List.mem_singleton] at hmem
      obtain hold | rfl := hmem
      · exact .inl hold
      · exact .inr ⟨htask, hrecord⟩

/-- What the client goes on with depends on what was taken. -/
theorem served_take (hnow : now ≤ cache.reading store) {key : String}
    (hrecord : ∀ value, RecordOf cache request (.taken { task, key, value, now }))
    (hnone : (store.entries.take cache.Over now task key).1 = none →
      ∀ next, Doing cache next task request rest)
    (hsome : ∀ value, (store.entries.take cache.Over now task key).1 = some value →
      ∀ (next : CacheStore) (j : Nat),
        next.entries.journal[j]? = some (.taken { task, key, value, now }) →
        Doing cache next task request rest) :
    Served cache store { store with entries := (store.entries.take cache.Over now task key).2 }
      task request rest where
  advances := by
    refine ⟨le_rfl, ?_⟩
    obtain ⟨-, heq⟩ | ⟨value, -, heq⟩ := store.entries.take_journal cache.Over now task key
    · rw [heq]
    · rw [heq]
      exact List.prefix_append _ _
  bounded := hbounded
  faithful := by
    rw [reading_entries]
    exact hfaithful.take cache.over_mono hnow task key
  doing := by
    obtain ⟨hvalue, -⟩ | ⟨value, hvalue, heq⟩ :=
      store.entries.take_journal cache.Over now task key
    · exact hnone hvalue _
    · refine hsome value hvalue _ store.entries.journal.length ?_
      dsimp only
      rw [heq]
      exact List.getElem?_concat_length
  records record hmem := by
    obtain ⟨-, heq⟩ | ⟨value, -, heq⟩ := store.entries.take_journal cache.Over now task key
    · exact .inl (heq ▸ hmem)
    · dsimp only at hmem
      rw [heq, List.mem_append, List.mem_singleton] at hmem
      obtain hold | rfl := hmem
      · exact .inl hold
      · exact .inr ⟨rfl, hrecord value⟩

end

theorem doing_putReply (purpose challengeId : String) {τ : ι} (payload : ChallengeFormat.Payload τ)
    (ttl : Nat) (stored : Bool) (next : CacheStore) :
    Doing cache next task (.putJson purpose challengeId τ payload ttl) (putReply stored) := by
  cases stored with
  | false => exact .failed .backend
  | true => exact .stored

theorem doing_takeReply_none (purpose challengeId : String) (τ : ι) {value : Option (List UInt8)}
    (hvalue : value = none) (next : CacheStore) :
    Doing cache next task (.consumeJson purpose challengeId τ) (takeReply τ value) := by
  rw [hvalue]
  exact .nothing

theorem doing_takeReply_some (purpose challengeId : String) (τ : ι) {key : String} {now j : Nat}
    {value : List UInt8} {taken : Option (List UInt8)} (hvalue : taken = some value)
    (htaken : next.entries.journal[j]? = some (.taken { task, key, value, now })) :
    Doing cache next task (.consumeJson purpose challengeId τ) (takeReply τ taken) := by
  rw [hvalue]
  simp only [takeReply, readPayload]
  cases hpayload : ChallengeFormat.fromSlice τ value with
  | none => exact .failed .invalidState
  | some payload => exact .consumed htaken rfl hpayload

/-- A call of a task that stands somewhere leaves it standing somewhere. -/
theorem Doing.respond {call : CacheCall}
    {next : call.Answer → CacheProgram ChallengeError (ChallengeReply ι)}
    (h : Doing cache store task request (.call call next)) (hbounded : store.clock < clockLimit)
    (hfaithful : store.entries.Faithful cache.Over (cache.reading store)) (fate : CommandFate) :
    Served cache store (call.respond task fate store).2 task request
      (next (call.respond task fate store).1) := by
  cases h with
  | memoryPut hcache hvalue =>
      exact served_same hbounded hfaithful (.memoryPutLocked hcache hvalue le_rfl)
  | memoryPutLocked hcache hvalue hnow =>
      subst hcache
      exact served_put hbounded hfaithful hnow rfl rfl ⟨_, _, _, _, _, rfl, rfl, hvalue, rfl⟩
        (doing_putReply _ _ _ _ _)
  | redisPut hcache hvalue =>
      subst hcache
      cases fate with
      | refused => exact served_same hbounded hfaithful (.failed .backend)
      | answered =>
          exact served_put hbounded hfaithful le_rfl rfl rfl ⟨_, _, _, _, _, rfl, rfl, hvalue, rfl⟩
            (doing_putReply _ _ _ _ _)
      | lost =>
          exact served_put hbounded hfaithful le_rfl rfl rfl ⟨_, _, _, _, _, rfl, rfl, hvalue, rfl⟩
            (fun _ => .failed .backend)
  | memoryTake hcache =>
      exact served_same hbounded hfaithful (.memoryTakeLocked hcache le_rfl)
  | memoryTakeLocked hcache hnow =>
      subst hcache
      refine served_take hbounded hfaithful hnow (fun _ => ⟨_, _, _, rfl, rfl⟩) ?_ ?_
      · exact fun hnone next => doing_takeReply_none _ _ _ hnone next
      · exact fun value hvalue next j htaken => doing_takeReply_some _ _ _ hvalue htaken
  | redisTake hcache =>
      subst hcache
      cases fate with
      | refused => exact served_same hbounded hfaithful (.failed .backend)
      | answered =>
          refine served_take hbounded hfaithful le_rfl (fun _ => ⟨_, _, _, rfl, rfl⟩) ?_ ?_
          · exact fun hnone next => doing_takeReply_none _ _ _ hnone next
          · exact fun value hvalue next j htaken => doing_takeReply_some _ _ _ hvalue htaken
      | lost =>
          exact served_take hbounded hfaithful le_rfl (fun _ => ⟨_, _, _, rfl, rfl⟩)
            (fun _ _ => .failed .backend) fun _ _ _ _ _ => .failed .backend

end

/-! Runs. -/

/-- Every record was made for the request of its task. -/
def Recorded (cache : Cache) (pool : ChallengePool ι)
    (record : OneTime.Record String (List UInt8)) : Prop :=
  ∃ request, pool.requestOf record.task = some request ∧ RecordOf cache request record

structure Consistent (cache : Cache) (pool : ChallengePool ι) : Prop where
  faithful : pool.store.entries.Faithful cache.Over (cache.reading pool.store)
  doing : ∀ task request rest, pool.tasks[task]? = some (request, rest) →
    Doing cache pool.store task request rest
  recorded : ∀ record ∈ pool.store.entries.journal, Recorded cache pool record
  bounded : ∀ record ∈ pool.store.entries.journal, pool.store.clock < clockLimit

section
variable {cache : Cache} {pool next : ChallengePool ι} {event : ChallengeEvent ι}

theorem exec_served {task : Nat} {request : ChallengeRequest ι} {call : CacheCall}
    {rest : call.Answer → CacheProgram ChallengeError (ChallengeReply ι)} {outcome : CacheOutcome}
    {store after : CacheStore} {answer : call.Answer}
    (hdoing : Doing cache store task request (.call call rest))
    (hfaithful : store.entries.Faithful cache.Over (cache.reading store))
    (h : call.exec task outcome store = some (answer, after)) :
    Served cache store after task request (rest answer) := by
  simp only [CacheCall.exec] at h
  split at h
  · rename_i hbounded
    have hpassed : Advances store { store with clock := store.clock + outcome.passed } :=
      ⟨Nat.le_add_right _ _, List.prefix_refl _⟩
    have hserved := (hdoing.later hpassed).respond hbounded
      (hfaithful.later cache.over_mono (reading_mono cache hpassed.clock)) outcome.fate
    have hresult := Option.some.inj h
    rw [hresult] at hserved
    exact ⟨⟨hpassed.clock.trans hserved.advances.clock, hserved.advances.journal⟩,
      hserved.bounded, hserved.faithful, hserved.doing, hserved.records⟩
  · cases h

theorem Consistent.step (h : Consistent cache pool)
    (hstep : ChallengePool.step cache pool event = some next) : Consistent cache next := by
  have hrequests : ∀ record, Recorded cache pool record → Recorded cache next record := by
    rintro record ⟨request, hrequest, hrecord⟩
    exact ⟨request, Pool.requestOf_step hstep hrequest, hrecord⟩
  obtain ⟨request, -, hstore, htasks⟩ |
    ⟨task, outcome, request, call, rest, answer, -, htask, hexec, htasks⟩ := Pool.step_cases hstep
  · refine ⟨hstore ▸ h.faithful, ?_, ?_, hstore ▸ h.bounded⟩
    · intro task other rest htask
      rw [htasks, List.getElem?_append] at htask
      rw [hstore]
      split at htask
      · exact h.doing task other rest htask
      · cases List.mem_singleton.mp (List.mem_of_getElem? htask)
        exact .begin cache pool.store task request
    · intro record hrecord
      rw [hstore] at hrecord
      exact hrequests record (h.recorded record hrecord)
  · have hserved := exec_served (h.doing task request _ htask) h.faithful hexec
    refine ⟨hserved.faithful, ?_, ?_, fun _ _ => hserved.bounded⟩
    · intro other request' rest' hother
      rw [htasks, List.getElem?_set] at hother
      split at hother
      · rename_i hsame
        subst hsame
        split at hother
        · cases hother
          exact hserved.doing
        · cases hother
      · exact (h.doing other request' rest' hother).later hserved.advances
    · intro record hrecord
      obtain hold | ⟨rfl, hnew⟩ := hserved.records record hrecord
      · exact hrequests record (h.recorded record hold)
      · refine ⟨request, Pool.requestOf_step hstep ?_, hnew⟩
        rw [Pool.requestOf, htask]
        rfl

theorem consistent_start (cache : Cache) (clock : Nat) :
    Consistent cache (ChallengePool.start ι clock) where
  faithful := .empty _
  doing task request rest htask := by cases htask
  recorded record hrecord := by cases hrecord
  bounded record hrecord := by cases hrecord

theorem consistent_run {clock : Nat} {events : List (ChallengeEvent ι)}
    (hrun : Runs.run (ChallengePool.step cache) (ChallengePool.start ι clock) events = some pool) :
    Consistent cache pool :=
  Runs.run_invariant_of_step (Consistent cache) (fun _ _ _ h hstep => h.step hstep) hrun
    (consistent_start cache clock)

end

/-! What the claim of single use says of a run. -/

def ChallengeRequest.purpose : ChallengeRequest ι → String
  | .putJson purpose _ _ _ _ | .consumeJson purpose _ _ => purpose

def ChallengeRequest.challengeId : ChallengeRequest ι → String
  | .putJson _ challengeId _ _ _ | .consumeJson _ challengeId _ => challengeId

def ChallengeRequest.name (request : ChallengeRequest ι) : List UInt8 :=
  challengeName request.purpose request.challengeId

/-- No two names that occur in the run have one digest. -/
def CollisionFree (events : List (ChallengeEvent ι)) : Prop :=
  ∀ request request', .start request ∈ events → .start request' ∈ events →
    ChallengeFormat.sha256 ι request.name = ChallengeFormat.sha256 ι request'.name →
      request.name = request'.name

variable (ι) in
/-- A payload that was written is read back by its own type. -/
def RoundTrips : Prop :=
  ∀ (τ : ι) (payload : ChallengeFormat.Payload τ) (value : List UInt8),
    ChallengeFormat.toVec payload = some value → ChallengeFormat.fromSlice τ value = some payload

/-- The requests and the journal of a pool, where `origin` tells which storing a taking is of. -/
structure UsedOnce (cache : Cache) (pool : ChallengePool ι) (origin : Nat → Nat) : Prop where
  returned : ∀ task purpose challengeId (τ : ι) payload,
    pool.tasks[task]? =
      some (.consumeJson purpose challengeId τ, .ok (.consumed τ (some payload))) →
    ∃ j take put, ∃ (τ' : ι) (payload' : ChallengeFormat.Payload τ'), ∃ ttl,
      pool.store.entries.journal[j]? = some (.taken take) ∧ take.task = task ∧
      pool.store.entries.journal[origin j]? = some (.stored put) ∧ origin j < j ∧
      pool.requestOf put.task = some (.putJson purpose challengeId τ' payload' ttl) ∧
      ChallengeFormat.toVec payload' = some put.value ∧
      ChallengeFormat.fromSlice τ put.value = some payload ∧
      (τ' = τ → (⟨τ', payload'⟩ : Σ τ : ι, ChallengeFormat.Payload τ) = ⟨τ, payload⟩) ∧
      ¬cache.Elapsed put.storedAt ttl take.now
  once : ∀ j j' take take', pool.store.entries.journal[j]? = some (.taken take) →
    pool.store.entries.journal[j']? = some (.taken take') → origin j = origin j' → j = j'
  kept : ∀ (i k : Nat) put later purpose challengeId (τ τ' : ι) payload payload' ttl ttl', i < k →
    pool.store.entries.journal[i]? = some (.stored put) →
    pool.store.entries.journal[k]? = some (.stored later) →
    pool.requestOf put.task = some (.putJson purpose challengeId τ payload ttl) →
    pool.requestOf later.task = some (.putJson purpose challengeId τ' payload' ttl') →
    (∃ j take, i < j ∧ j < k ∧ pool.store.entries.journal[j]? = some (.taken take) ∧
      origin j = i) ∨ cache.Elapsed put.storedAt ttl later.storedAt

section
variable {cache : Cache} {pool : ChallengePool ι}

/-- The record of a put, with the request of its task at hand. -/
theorem Consistent.put (h : Consistent cache pool) {i : Nat} {put : OneTime.Put String (List UInt8)}
    (hi : pool.store.entries.journal[i]? = some (.stored put)) {purpose challengeId : String}
    {τ : ι} {payload : ChallengeFormat.Payload τ} {ttl : Nat}
    (hrequest : pool.requestOf put.task = some (.putJson purpose challengeId τ payload ttl)) :
    put.key = cache.key (challengeKey ι purpose challengeId) ∧
      put.deadline = cache.deadline put.storedAt ttl := by
  obtain ⟨request, hsame, _, _, _, _, _, rfl, hkey, -, hdeadline⟩ :=
    h.recorded _ (List.mem_of_getElem? hi)
  have heq := hrequest.symm.trans hsame
  cases heq
  exact ⟨hkey, hdeadline⟩

end

/-- One key means one purpose and one id, where the run has no collision. -/
theorem same_challenge {cache : Cache} {events : List (ChallengeEvent ι)}
    (hpurpose : ∀ request, .start request ∈ events → '\x00' ∉ request.purpose.toList)
    (hdigest : CollisionFree events) {request request' : ChallengeRequest ι}
    (hstart : .start request ∈ events) (hstart' : .start request' ∈ events)
    (hkey : cache.key (challengeKey ι request.purpose request.challengeId) =
      cache.key (challengeKey ι request'.purpose request'.challengeId)) :
    request.purpose = request'.purpose ∧ request.challengeId = request'.challengeId :=
  challengeName_inj (hpurpose request hstart) (hpurpose request' hstart')
    (hdigest request request' hstart hstart' (cache_key_digest hkey))

/-- In any run over one cache, from an empty store and with a clock that does not go back. -/
theorem challenges_used_once {cache : Cache} {clock : Nat} {events : List (ChallengeEvent ι)}
    {final : ChallengePool ι} (hround : RoundTrips ι)
    (hpurpose : ∀ request, .start request ∈ events → '\x00' ∉ request.purpose.toList)
    (hdigest : CollisionFree events)
    (hrun : Runs.run (ChallengePool.step cache) (ChallengePool.start ι clock) events =
      some final) :
    ∃ origin, UsedOnce cache final origin := by
  have h := consistent_run hrun
  obtain ⟨origin, horigin⟩ := h.faithful.sound.origin cache.over_mono
  refine ⟨origin, ?_, horigin.once, ?_⟩
  · intro task purpose challengeId τ payload htask
    have hrequest : final.requestOf task = some (.consumeJson purpose challengeId τ) := by
      rw [Pool.requestOf, htask]
      rfl
    cases h.doing task _ _ htask with
    | @consumed _ _ _ _ j take hj htake hpayload =>
        obtain ⟨hbefore, put, hput, hkey, hvalue, hover⟩ := horigin.taken j take hj
        obtain ⟨_, hputter, purpose', challengeId', τ', payload', ttl, rfl, hputKey, hwritten,
          hdeadline⟩ := h.recorded _ (List.mem_of_getElem? hput)
        obtain ⟨_, htaker, _, _, _, rfl, htakeKey⟩ := h.recorded _ (List.mem_of_getElem? hj)
        have hsame := htaker.symm.trans ((congrArg _ htake).trans hrequest)
        cases hsame
        obtain ⟨hpurposes, hids⟩ := same_challenge hpurpose hdigest
          (Pool.requestOf_started hrun hputter) (Pool.requestOf_started hrun hrequest)
          (hputKey.symm.trans (hkey.trans htakeKey))
        simp only [ChallengeRequest.purpose, ChallengeRequest.challengeId] at hpurposes hids
        subst hpurposes hids
        refine ⟨j, take, put, τ', payload', ttl, hj, htake, hput, hbefore, hputter, hwritten,
          hvalue ▸ hpayload, ?_, ?_⟩
        · rintro rfl
          have hread := hround τ' payload' put.value hwritten
          rw [hvalue, hpayload, Option.some.injEq] at hread
          rw [hread]
        · rw [hdeadline] at hover
          exact fun helapsed => hover (Cache.over_of_elapsed helapsed)
  · intro i k put later purpose challengeId τ τ' payload payload' ttl ttl' hik hi hk hput hlater
    obtain ⟨hkey, hdeadline⟩ := h.put hi hput
    obtain ⟨hkey', -⟩ := h.put hk hlater
    obtain htaken | hover := horigin.kept i k put later hik hi hk (hkey.trans hkey'.symm)
    · exact .inl htaken
    · right
      rw [hdeadline] at hover
      have hmem := List.mem_of_getElem? hk
      exact Cache.elapsed_of_over (h.bounded _ hmem) (h.faithful.past later hmem) hover

end

/-! Two clients that try to take one wallet nonce, and one that tries it for another purpose. -/

namespace Nonce

def walletDigest : List UInt8 :=
  [45, 101, 83, 117, 253, 177, 238, 116, 36, 129, 100, 162, 52, 93, 58, 12, 14, 0, 7, 236, 73, 239,
    67, 50, 169, 60, 207, 39, 31, 117, 126, 122]

def oauthDigest : List UInt8 :=
  [1, 174, 28, 92, 133, 227, 133, 144, 135, 125, 45, 223, 104, 246, 234, 132, 11, 42, 121, 221, 33,
    203, 51, 199, 144, 39, 81, 67, 201, 82, 248, 255]

def writeBool (payload : Bool) : List UInt8 := asBytes (if payload = true then "true" else "false")

def readBool (value : List UInt8) : Option Bool :=
  if value = asBytes "true" then some true
  else if value = asBytes "false" then some false
  else none

/-- Booleans as JSON; the digests are those of the two names below. -/
@[reducible]
def format : ChallengeFormat Unit where
  Payload _ := Bool
  toVec payload := some (writeBool payload)
  fromSlice _ value := readBool value
  sha256 name := if name = challengeName "wallet" "nonce" then walletDigest else oauthDigest

attribute [local instance] format

def cache : Cache := .memory (3600 * 10 ^ 9)

def now : CacheOutcome := { passed := 0 }

def events : List (ChallengeEvent Unit) :=
  [.start (.putJson "wallet" "nonce" () true (5 * 10 ^ 9)), .start (.consumeJson "wallet" "nonce" ()),
    .start (.consumeJson "wallet" "nonce" ()), .start (.consumeJson "oauth" "nonce" ()),
    .resume 0 now, .resume 1 now, .resume 0 now, .resume 3 now, .resume 3 now,
    .resume 2 { passed := 4000 }, .resume 2 now, .resume 1 now]

theorem roundTrips : RoundTrips Unit := by
  intro τ payload value h
  have hread : ∀ payload : Bool, readBool (writeBool payload) = some payload := by decide +kernel
  cases h
  exact hread payload

theorem collisionFree : CollisionFree events := by
  have hnames : ∀ request, .start request ∈ events →
      request.name = challengeName "wallet" "nonce" ∨ request.name = challengeName "oauth" "nonce" := by
    intro request hrequest
    simp only [events, List.mem_cons, PoolEvent.start.injEq, reduceCtorEq, List.not_mem_nil,
      or_false] at hrequest
    obtain rfl | rfl | rfl | rfl := hrequest
    · exact .inl rfl
    · exact .inl rfl
    · exact .inl rfl
    · exact .inr rfl
  have hdigests : ChallengeFormat.sha256 Unit (challengeName "wallet" "nonce") ≠
      ChallengeFormat.sha256 Unit (challengeName "oauth" "nonce") := by
    decide +kernel
  intro request request' hrequest hrequest' hdigest
  obtain hname | hname := hnames request hrequest
  · obtain hname' | hname' := hnames request' hrequest'
    · rw [hname, hname']
    · rw [hname, hname'] at hdigest
      exact absurd hdigest hdigests
  · obtain hname' | hname' := hnames request' hrequest'
    · rw [hname, hname'] at hdigest
      exact absurd hdigest.symm hdigests
    · rw [hname, hname']

/-- The nonce is stored and taken, each once. -/
theorem events_used_once : ∃ final : ChallengePool Unit, Runs.run (ChallengePool.step cache)
    (ChallengePool.start Unit 0) events = some final ∧ final.store.entries.journal.length = 2 ∧
      ∃ origin, UsedOnce cache final origin := by
  obtain ⟨final, hrun, hlength⟩ := Runs.exists_run_of_any
    (p := fun final : ChallengePool Unit => final.store.entries.journal.length = 2)
    (by decide +kernel : (Runs.run (ChallengePool.step cache) (ChallengePool.start Unit 0)
      events).any (fun final : ChallengePool Unit => decide (final.store.entries.journal.length = 2)) = true)
  refine ⟨final, hrun, hlength, challenges_used_once roundTrips ?_ collisionFree hrun⟩
  intro request hrequest
  simp only [events, List.mem_cons, PoolEvent.start.injEq, reduceCtorEq, List.not_mem_nil,
    or_false] at hrequest
  obtain rfl | rfl | rfl | rfl := hrequest <;> decide

end Nonce

end Authguard
