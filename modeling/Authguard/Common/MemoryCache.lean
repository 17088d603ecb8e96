import Authguard.Common.AccessContext

/-!
The in-memory cache of authorization scopes (`common/src/cache/memory.rs`). A hash map
is a list with one entry for each key; the order in which its iterator visits the
entries is a parameter. The clock is read once for each call.
-/

namespace Authguard

/-- `SystemTime` keeps the seconds since the epoch in an `i64`. -/
abbrev EpochSeconds := Fin (2 ^ 63)

/-- An iterator visits every entry once, in an order of its own. -/
structure HashOrder (α : Type) where
  visits : List α → List α
  perm : ∀ entries, (visits entries).Perm entries

/-- `Iterator::min_by_key`: the first of the least elements. -/
def minByKey {α : Type} (key : α → Nat) : List α → Option α
  | [] => none
  | first :: rest =>
      match minByKey key rest with
      | none => some first
      | some least => if key first ≤ key least then some first else some least

structure MemoryScope where
  encodedContext : String
  expiresAtEpochSeconds : Nat
  lastAccessSequence : Nat
  deriving DecidableEq

structure MemoryScopes where
  entries : List (String × MemoryScope)
  nextAccessSequence : Nat
  deriving DecidableEq

namespace MemoryScopes

def new : MemoryScopes := { entries := [], nextAccessSequence := 0 }

def retain (scopes : MemoryScopes) (now : EpochSeconds) : MemoryScopes :=
  { scopes with entries := scopes.entries.filter fun entry => now.val < entry.2.expiresAtEpochSeconds }

def containsKey (scopes : MemoryScopes) (token : String) : Bool :=
  scopes.entries.any (·.1 == token)

def remove (scopes : MemoryScopes) (token : String) : MemoryScopes :=
  { scopes with entries := scopes.entries.filter (·.1 ≠ token) }

def insert (scopes : MemoryScopes) (token : String) (scope : MemoryScope) : MemoryScopes :=
  { scopes with entries := (token, scope) :: scopes.entries.filter (·.1 ≠ token) }

def nextSequence (scopes : MemoryScopes) : MemoryScopes :=
  { scopes with nextAccessSequence := saturatingAdd scopes.nextAccessSequence 1 }

end MemoryScopes

structure MemoryAuthorizationCache where
  maxCapacity : Nat
  defaultTtl : Duration
  order : HashOrder (String × MemoryScope)

namespace MemoryAuthorizationCache

def expiresAt (cache : MemoryAuthorizationCache) (now : EpochSeconds) (ttl : Duration) : Nat :=
  let effectiveTtl := max (Duration.asSecs (min ttl cache.defaultTtl)) 1
  saturatingAdd now.val effectiveTtl

/-- A full cache makes room for a new token. -/
def evict (cache : MemoryAuthorizationCache) (scopes : MemoryScopes) (token : String) : MemoryScopes :=
  if !scopes.containsKey token && cache.maxCapacity ≤ scopes.entries.length then
    match minByKey (fun entry => entry.2.lastAccessSequence) (cache.order.visits scopes.entries) with
    | some (leastRecentlyUsed, _) => scopes.remove leastRecentlyUsed
    | none => scopes
  else scopes

def storeScope (cache : MemoryAuthorizationCache) (scopes : MemoryScopes) (now : EpochSeconds)
    (token encodedContext : String) (ttl : Duration) : MemoryScopes :=
  let scopes := (cache.evict (scopes.retain now) token).nextSequence
  scopes.insert token
    { encodedContext, expiresAtEpochSeconds := cache.expiresAt now ttl
      lastAccessSequence := scopes.nextAccessSequence }

/-- The configuration of the cache does not enter. -/
def loadScope (_cache : MemoryAuthorizationCache) (scopes : MemoryScopes) (now : EpochSeconds)
    (token : String) : Option String × MemoryScopes :=
  let scopes := (scopes.retain now).nextSequence
  match scopes.entries.lookup token with
  | none => (none, scopes)
  | some scope =>
      (some scope.encodedContext,
        scopes.insert token { scope with lastAccessSequence := scopes.nextAccessSequence })

end MemoryAuthorizationCache

inductive ScopeCall
  | store (token encodedContext : String) (ttl : Duration)
  | load (token : String)

inductive ScopeAnswer
  | stored
  | loaded (encodedContext : Option String)
  deriving DecidableEq

def MemoryAuthorizationCache.serve (cache : MemoryAuthorizationCache) (scopes : MemoryScopes)
    (now : EpochSeconds) : ScopeCall → ScopeAnswer × MemoryScopes
  | .store token encodedContext ttl =>
      (.stored, cache.storeScope scopes now token encodedContext ttl)
  | .load token =>
      let loaded := cache.loadScope scopes now token
      (.loaded loaded.1, loaded.2)

end Authguard
