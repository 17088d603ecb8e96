import Authguard.Authn.AuthenticationPipeline
import Authguard.Library.OneTime

/-!
One-time challenges (`authn/src/authentication/challenge.rs`) over the two caches
(`common/src/cache/memory.rs`, `common/src/cache/redis.rs`). The memory cache reads
the clock before it waits for its lock and once more for the expiry of what it
inserts; a Redis command reads the server's clock. Digests and payload documents are
taken from outside.
-/

namespace Authguard

/-- `Sha256` and `serde_json`, for the payload types in use. -/
class ChallengeFormat (ι : Type) where
  Payload : ι → Type
  toVec : {τ : ι} → Payload τ → Option (List UInt8)
  fromSlice : (τ : ι) → List UInt8 → Option (Payload τ)
  sha256 : List UInt8 → List UInt8

/-! The caches. -/

inductive Cache
  | memory (defaultTtl : Nat)
  | redis (keyPrefix : String)

inductive CacheError
  | failed
  deriving DecidableEq

inductive CacheCall
  | epochSeconds
  /-- The part of `put_if_absent` under the lock, expiry included. -/
  | lockedPut (now : Nat) (key : String) (value : List UInt8) (effectiveTtl : Nat)
  | lockedTake (now : Nat) (key : String)
  | setNxEx (key : String) (value : List UInt8) (seconds : Nat)
  | getDel (key : String)

abbrev CacheCall.Answer : CacheCall → Type
  | .epochSeconds => Nat
  | .lockedPut _ _ _ _ => Bool
  | .lockedTake _ _ => Option (List UInt8)
  | .setNxEx _ _ _ => Except CacheError Bool
  | .getDel _ => Except CacheError (Option (List UInt8))

abbrev CacheProgram (ε β : Type) := Program CacheCall CacheCall.Answer ε β

/-- `Duration::as_secs`, of nanoseconds. -/
def asSecs (duration : Nat) : Nat := duration / 10 ^ 9

/-- The `?` behind a command. -/
def CacheProgram.answered {α : Type} : Except CacheError α → CacheProgram CacheError α
  | .error error => .fail error
  | .ok value => .ok value

namespace Cache

/-- Only leading colons of the key are dropped. -/
def cacheKey (keyPrefix key : String) : String :=
  keyPrefix ++ ":" ++ String.ofList (key.toList.dropWhile (· == ':'))

def putIfAbsent (cache : Cache) (key : String) (value : List UInt8) (ttl : Nat) :
    CacheProgram CacheError Bool :=
  match cache with
  | .memory defaultTtl =>
      .call .epochSeconds fun now =>
        .call (.lockedPut now key value (max (asSecs (min ttl defaultTtl)) 1)) .ok
  | .redis keyPrefix =>
      .call (.setNxEx (cacheKey keyPrefix key) value (max (asSecs ttl) 1)) CacheProgram.answered

def take (cache : Cache) (key : String) : CacheProgram CacheError (Option (List UInt8)) :=
  match cache with
  | .memory _ =>
      .call .epochSeconds fun now => .call (.lockedTake now key) .ok
  | .redis keyPrefix => .call (.getDel (cacheKey keyPrefix key)) CacheProgram.answered

end Cache

/-! The challenge functions. -/

def hexDigit (n : Nat) : Char := Char.ofNat (if n < 10 then 48 + n else 87 + n)

/-- Digests are printed in lower case, two digits a byte. -/
def lowerHex (digest : List UInt8) : String :=
  String.ofList (digest.flatMap fun byte => [hexDigit (byte.toNat / 16), hexDigit (byte.toNat % 16)])

def asBytes (text : String) : List UInt8 := text.toByteArray.data.toList

def challengeName (purpose challengeId : String) : List UInt8 :=
  asBytes (purpose ++ String.singleton '\x00' ++ challengeId)

section
variable {ι : Type} [ChallengeFormat ι]

variable (ι) in
def challengeKey (purpose challengeId : String) : String :=
  "authn-challenge:v1:" ++ lowerHex (ChallengeFormat.sha256 ι (challengeName purpose challengeId))

/-- A key that exists already is a backend failure. -/
def requireStored (stored : Bool) : CacheProgram ChallengeError Unit :=
  if stored then .ok () else .fail .backend

def readPayload (τ : ι) :
    Option (List UInt8) → CacheProgram ChallengeError (Option (ChallengeFormat.Payload τ))
  | none => .ok none
  | some value =>
      match ChallengeFormat.fromSlice τ value with
      | none => .fail .invalidState
      | some payload => .ok (some payload)

def putJson (cache : Cache) (purpose challengeId : String) {τ : ι}
    (payload : ChallengeFormat.Payload τ) (ttl : Nat) : CacheProgram ChallengeError Unit :=
  match ChallengeFormat.toVec payload with
  | none => .fail .invalidState
  | some payload => do
      let stored ← (cache.putIfAbsent (challengeKey ι purpose challengeId) payload ttl).lift id
        (fun _ answer => answer) fun _ => ChallengeError.backend
      requireStored stored

def consumeJson (cache : Cache) (purpose challengeId : String) (τ : ι) :
    CacheProgram ChallengeError (Option (ChallengeFormat.Payload τ)) := do
  let value ← (cache.take (challengeKey ι purpose challengeId)).lift id
    (fun _ answer => answer) fun _ => ChallengeError.backend
  readPayload τ value

end

/-! Clients of one cache. -/

structure CacheStore where
  /-- Milliseconds since the epoch. -/
  clock : Nat
  entries : OneTime.Store String (List UInt8)

/-- What becomes of a Redis command: it may fail before or after it took effect. -/
inductive CommandFate
  | answered
  | refused
  | lost

/-- The time that passes before a call is made, and how it goes. -/
structure CacheOutcome where
  passed : Nat
  fate : CommandFate := .answered

/-- A `SystemTime` counts seconds in 63 bits. -/
def clockLimit : Nat := 2 ^ 63 * 1000

namespace CacheStore

/-- `value.expires_at_epoch_seconds > now` is false. -/
def memoryOver (expiresAt now : Nat) : Prop := expiresAt ≤ now

/-- Redis keeps a key until the clock is past its expiry. -/
def redisOver (expiresAt now : Nat) : Prop := expiresAt < now

instance : DecidableRel memoryOver := fun expiresAt now => inferInstanceAs (Decidable (expiresAt ≤ now))

instance : DecidableRel redisOver := fun expiresAt now => inferInstanceAs (Decidable (expiresAt < now))

def seconds (store : CacheStore) : Nat := store.clock / 1000

/-- `saturating_add` on 64 bits. -/
def memoryExpiry (storedAt effectiveTtl : Nat) : Nat := min (storedAt + effectiveTtl) (2 ^ 64 - 1)

def redisExpiry (storedAt seconds : Nat) : Nat := storedAt + 1000 * seconds

def lockedPut (task now : Nat) (key : String) (value : List UInt8) (effectiveTtl : Nat)
    (store : CacheStore) : Bool × CacheStore :=
  let put := { task, key, value, storedAt := store.seconds
               deadline := memoryExpiry store.seconds effectiveTtl }
  let (inserted, entries) := store.entries.putIfAbsent memoryOver now put
  (inserted, { store with entries })

def lockedTake (task now : Nat) (key : String) (store : CacheStore) :
    Option (List UInt8) × CacheStore :=
  let (value, entries) := store.entries.take memoryOver now task key
  (value, { store with entries })

def setNxEx (task : Nat) (key : String) (value : List UInt8) (seconds : Nat)
    (store : CacheStore) : Bool × CacheStore :=
  let put := { task, key, value, storedAt := store.clock
               deadline := redisExpiry store.clock seconds }
  let (stored, entries) := store.entries.putIfAbsent redisOver store.clock put
  (stored, { store with entries })

def getDel (task : Nat) (key : String) (store : CacheStore) :
    Option (List UInt8) × CacheStore :=
  let (value, entries) := store.entries.take redisOver store.clock task key
  (value, { store with entries })

/-- A command that may fail. -/
def command {α : Type} (fate : CommandFate) (run : CacheStore → α × CacheStore)
    (store : CacheStore) : Except CacheError α × CacheStore :=
  match fate with
  | .answered => (.ok (run store).1, (run store).2)
  | .refused => (.error .failed, store)
  | .lost => (.error .failed, (run store).2)

end CacheStore

def CacheCall.respond (task : Nat) :
    (call : CacheCall) → CommandFate → CacheStore → call.Answer × CacheStore
  | .epochSeconds, _, store => (store.seconds, store)
  | .lockedPut now key value effectiveTtl, _, store =>
      store.lockedPut task now key value effectiveTtl
  | .lockedTake now key, _, store => store.lockedTake task now key
  | .setNxEx key value seconds, fate, store =>
      CacheStore.command fate (CacheStore.setNxEx task key value seconds) store
  | .getDel key, fate, store => CacheStore.command fate (CacheStore.getDel task key) store

/-- Time passes, then the call is made. -/
def CacheCall.exec (task : Nat) (call : CacheCall) (outcome : CacheOutcome) (store : CacheStore) :
    Option (call.Answer × CacheStore) :=
  let store := { store with clock := store.clock + outcome.passed }
  if store.clock < clockLimit then some (call.respond task outcome.fate store) else none

section
variable (ι : Type) [ChallengeFormat ι]

inductive ChallengeRequest
  | putJson (purpose challengeId : String) (τ : ι) (payload : ChallengeFormat.Payload τ) (ttl : Nat)
  | consumeJson (purpose challengeId : String) (τ : ι)

inductive ChallengeReply
  | stored
  | consumed (τ : ι) (payload : Option (ChallengeFormat.Payload τ))

variable {ι}

def ChallengeRequest.program (cache : Cache) :
    ChallengeRequest ι → CacheProgram ChallengeError (ChallengeReply ι)
  | .putJson purpose challengeId _ payload ttl => do
      Authguard.putJson cache purpose challengeId payload ttl
      .ok .stored
  | .consumeJson purpose challengeId τ => do
      let payload ← Authguard.consumeJson cache purpose challengeId τ
      .ok (.consumed τ payload)

variable (ι) in
abbrev ChallengePool :=
  Pool CacheCall CacheCall.Answer ChallengeError (ChallengeReply ι) (ChallengeRequest ι) CacheStore

variable (ι) in
abbrev ChallengeEvent := PoolEvent (ChallengeRequest ι) CacheOutcome

def ChallengePool.step (cache : Cache) : ChallengePool ι → ChallengeEvent ι → Option (ChallengePool ι) :=
  Pool.step (ChallengeRequest.program cache) CacheCall.exec

variable (ι) in
def ChallengePool.start (clock : Nat) : ChallengePool ι := Pool.idle ⟨clock, OneTime.Store.empty⟩

end

end Authguard
