import Authguard.Authz.Check
import Authguard.Common.MemoryCache

/-!
Settings of what a permitted request carries (`common/src/config/config.rs`), and
the cache its scopes are stored in (`common/src/cache/mod.rs`, `redis.rs`). What
Redis answers, and the digest of a token, are given.
-/

namespace Authguard

structure ResignProperties where
  enabled : Bool
  maxTtl : Duration
  privateKeyB64 : String

def validateScopeDelivery (delivery : ScopeDeliveryProperties) : Except String Unit :=
  if delivery.directUrnLimit = 0 then
    .error "authz.scope_delivery.direct_urn_limit must be positive"
  else if delivery.maxDirectHeaderBytes < 1024 ∨ 64 * 1024 < delivery.maxDirectHeaderBytes then
    .error "authz.scope_delivery.max_direct_header_bytes must be between 1 KiB and 64 KiB"
  else if delivery.contextTtl = 0 ∨ delivery.scopeTokenTtl = 0 then
    .error "authz.scope_delivery TTLs must be positive"
  else
    .ok ()

def validateResign (resign : ResignProperties) : Except String Unit :=
  if !resign.enabled then .ok ()
  else if resign.maxTtl = 0 then .error "authz.resign.max_ttl must be positive when enabled"
  else if Text.isBlank resign.privateKeyB64 then
    .error "authz.resign.private_key_b64 is required when enabled"
  else .ok ()

/-- `open_resign_signer`: the lifetime the handler is made with. -/
def ResignProperties.signer (resign : ResignProperties) : Option Duration :=
  if resign.enabled then some resign.maxTtl else none

/-! The cache. -/

structure RedisAuthorizationCache where
  keyPrefix : String
  digest : String → String
  /-- What the cluster answers to a key that is set to expire. -/
  setEx : String → String → Nat → Except String Unit

namespace RedisAuthorizationCache

def scopeKey (cache : RedisAuthorizationCache) (token : String) : String :=
  cache.keyPrefix ++ ":scope:v3:" ++ cache.digest token

def storeScope (cache : RedisAuthorizationCache) (token encodedContext : String) (ttl : Duration) :
    Except String Unit :=
  cache.setEx (cache.scopeKey token) encodedContext ttl.asSecs

end RedisAuthorizationCache

/-- `IAuthorizationCache`. -/
inductive AuthorizationCache
  | memory (cache : MemoryAuthorizationCache)
  | redis (cache : RedisAuthorizationCache)

/-- Redis keeps its scopes itself. -/
def AuthorizationCache.storeScope (scopes : MemoryScopes) (now : EpochSeconds)
    (token encodedContext : String) (ttl : Duration) : AuthorizationCache → Except String MemoryScopes
  | .memory cache => .ok (cache.storeScope scopes now token encodedContext ttl)
  | .redis cache => (cache.storeScope token encodedContext ttl).map fun _ => scopes

end Authguard
