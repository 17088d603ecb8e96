import Authguard.Authz.DeliverySettings
import Authguard.Metatheory.ScopeDelivery
import Authguard.Metatheory.TokenResigning

/-!
Lifetimes that are configured. The settings are checked to the nanosecond and used
in whole seconds, so a lifetime that is accepted may be no lifetime at all.
-/

namespace Authguard

/-- A lifetime of no whole second. -/
def Fraction (ttl : Duration) : Prop := 0 < ttl ∧ ttl < Duration.fromSecs 1

/-- A lifetime the cache takes for every scope. -/
def AuthorizationCache.Accepts (cache : AuthorizationCache) (ttl : Duration) : Prop :=
  ∀ scopes now token encodedContext,
    ∃ stored, cache.storeScope scopes now token encodedContext ttl = .ok stored

/-- Redis takes a positive number of seconds, as far as its clock reaches. -/
def AuthorizationCache.TakesUpTo (limit : Nat) : AuthorizationCache → Prop
  | .memory _ => True
  | .redis cache =>
      ∀ key value seconds, cache.setEx key value seconds = .ok () ↔ 0 < seconds ∧ seconds ≤ limit

/-- The lifetime is within what the cache can count. -/
def AuthorizationCache.Reaches (limit : Nat) (ttl : Duration) : AuthorizationCache → Prop
  | .memory _ => True
  | .redis _ => ttl.asSecs ≤ limit

/-- Whatever is left of the source, the claims that are signed expire after they are issued. -/
def ResignProperties.Outlasts (resign : ResignProperties) (now : Nat) : Prop :=
  ∀ maxTtl, resign.signer = some maxTtl → ∀ identity principalId expires, now < expires →
    ∃ claims iat exp,
      resignTokenClaims identity principalId now (resignTtl maxTtl now expires) = .object claims ∧
      claims.lookup "iat" = some (.ofNat iat) ∧ claims.lookup "exp" = some (.ofNat exp) ∧ iat < exp

/-- The contexts of a delivery are valid when they are issued. -/
def ValidWhenIssued (now : Nat) (ttl : Duration) : Prop :=
  ∀ input, (AccessContext.new input now ttl).validate now = .ok ()

section
variable {ttl : Duration} {now : Nat}

theorem asSecs_pos_iff : 0 < ttl.asSecs ↔ Duration.fromSecs 1 ≤ ttl := by
  exact Nat.one_le_div_iff (by decide)

theorem not_fraction_iff (h : 0 < ttl) : ¬Fraction ttl ↔ 0 < ttl.asSecs := by
  rw [asSecs_pos_iff, Fraction, not_and, not_lt]
  exact ⟨fun hlong => hlong h, fun hlong _ => hlong⟩

theorem lt_saturatingAdd_iff {seconds : Nat} (hnow : now < 2 ^ 63) :
    now < saturatingAdd now seconds ↔ 0 < seconds := by
  rw [saturatingAdd, lt_min_iff]
  omega

theorem validWhenIssued_iff (hnow : now < 2 ^ 63) : ValidWhenIssued now ttl ↔ 0 < ttl.asSecs := by
  constructor
  · intro hvalid
    have hlifetime := (validate_lifetime (hvalid ⟨"", "", "", [], [], 0⟩)).2.1
    exact (lt_saturatingAdd_iff hnow).mp hlifetime
  · intro httl input
    have hissued : now ≤ saturatingAdd now 30 := by
      rw [saturatingAdd, le_min_iff]
      omega
    exact validate_new input (by omega) (asSecs_pos_iff.mp httl) hissued
      ((lt_saturatingAdd_iff hnow).mpr httl)

theorem accepts_iff {cache : AuthorizationCache} {limit : Nat} (hcache : cache.TakesUpTo limit)
    (httl : 0 < ttl.asSecs) : cache.Accepts ttl ↔ cache.Reaches limit ttl := by
  cases cache with
  | memory cache => exact ⟨fun _ => trivial, fun _ _ _ _ _ => ⟨_, rfl⟩⟩
  | redis cache =>
      constructor
      · intro haccepts
        obtain ⟨stored, hstored⟩ := haccepts .new 0 "" ""
        obtain ⟨⟨⟩, hset, -⟩ := Result.map_ok_iff.mp hstored
        exact ((hcache _ _ _).mp hset).2
      · intro hreaches scopes now token encodedContext
        have hset := (hcache (cache.scopeKey token) encodedContext ttl.asSecs).mpr ⟨httl, hreaches⟩
        exact ⟨scopes, Result.map_ok_iff.mpr ⟨(), hset, rfl⟩⟩

theorem resignTtl_pos_iff {maxTtl : Duration} {expires : Nat} (h : now < expires) :
    0 < (resignTtl maxTtl now expires).asSecs ↔ 0 < maxTtl.asSecs := by
  have hsource : Duration.fromSecs 1 ≤ Duration.fromSecs (expires - now) := by
    exact Nat.mul_le_mul_right _ (Nat.sub_pos_of_lt h)
  rw [asSecs_pos_iff, asSecs_pos_iff, resignTtl, le_min_iff]
  exact ⟨And.left, fun hmax => ⟨hmax, hsource⟩⟩

/-- The claims that are signed, and when they begin and end. -/
theorem resignTokenClaims_lifetime (identity : AuthenticatedPrincipalContext) (principalId : String)
    (now : Nat) (ttl : Duration) :
    ∃ claims, resignTokenClaims identity principalId now ttl = .object claims ∧
      claims.lookup "iat" = some (.ofNat now) ∧
      claims.lookup "exp" = some (.ofNat (saturatingAdd now ttl.asSecs)) := by
  have hclaims := resignTokenClaims_eq { identity with principalId } now ttl
  refine ⟨_, hclaims, ?_, ?_⟩
  · rw [lookup_resignFields]
    rfl
  · rw [lookup_resignFields]
    rfl

theorem ofNat_inj {n m : Nat} (h : Json.ofNat n = Json.ofNat m) : n = m := by
  simp only [Json.ofNat, Json.number.injEq, JsonNumber.mk.injEq, Option.some.injEq] at h
  exact h.2

theorem outlasts_iff {resign : ResignProperties} (hnow : now < 2 ^ 63) :
    resign.Outlasts now ↔ (resign.enabled = true → 0 < resign.maxTtl.asSecs) := by
  have hsigner : ∀ maxTtl, resign.signer = some maxTtl ↔
      resign.enabled = true ∧ resign.maxTtl = maxTtl := by
    intro maxTtl
    rw [ResignProperties.signer]
    split
    · rename_i henabled
      rw [Option.some.injEq, and_iff_right henabled]
    · rename_i henabled
      exact ⟨nofun, fun h => absurd h.1 henabled⟩
  constructor
  · intro houtlasts henabled
    obtain ⟨claims, iat, exp, hclaims, hiat, hexp, hlt⟩ :=
      houtlasts _ ((hsigner _).mpr ⟨henabled, rfl⟩) ⟨"", .user, [], .empty, none, []⟩ "" (now + 1)
        (Nat.lt_succ_self now)
    obtain ⟨signed, hsigned, hissued, hexpires⟩ := resignTokenClaims_lifetime
      ⟨"", .user, [], .empty, none, []⟩ "" now (resignTtl resign.maxTtl now (now + 1))
    obtain rfl := Json.object.inj (hsigned.symm.trans hclaims)
    obtain rfl := ofNat_inj (Option.some.inj (hissued.symm.trans hiat))
    obtain rfl := ofNat_inj (Option.some.inj (hexpires.symm.trans hexp))
    exact (resignTtl_pos_iff (Nat.lt_succ_self now)).mp ((lt_saturatingAdd_iff hnow).mp hlt)
  · intro hmax maxTtl hresign identity principalId expires hexpires
    obtain ⟨henabled, rfl⟩ := (hsigner _).mp hresign
    obtain ⟨claims, hclaims, hiat, hexp⟩ := resignTokenClaims_lifetime identity principalId now
      (resignTtl resign.maxTtl now expires)
    refine ⟨claims, now, _, hclaims, hiat, hexp, (lt_saturatingAdd_iff hnow).mpr ?_⟩
    exact (resignTtl_pos_iff hexpires).mpr (hmax henabled)

/-- Deliveries and re-signing are good at every instant exactly when no lifetime is less than a
second and the cache can count that of its scopes. -/
theorem lifetimes_usable_iff {delivery : ScopeDeliveryProperties} {resign : ResignProperties}
    (hdelivery : validateScopeDelivery delivery = .ok ()) (hresign : validateResign resign = .ok ())
    {cache : AuthorizationCache} {limit : Nat} (hcache : cache.TakesUpTo limit)
    (hnow : now < 2 ^ 63) :
    (ValidWhenIssued now delivery.contextTtl ∧ ValidWhenIssued now delivery.scopeTokenTtl ∧
      cache.Accepts delivery.scopeTokenTtl ∧ resign.Outlasts now) ↔
      ¬Fraction delivery.contextTtl ∧ ¬Fraction delivery.scopeTokenTtl ∧
        cache.Reaches limit delivery.scopeTokenTtl ∧
        (resign.enabled = true → ¬Fraction resign.maxTtl) := by
  have hpositive : 0 < delivery.contextTtl ∧ 0 < delivery.scopeTokenTtl := by
    rw [validateScopeDelivery] at hdelivery
    split at hdelivery
    · cases hdelivery
    · split at hdelivery
      · cases hdelivery
      · split at hdelivery
        · cases hdelivery
        · rename_i httls
          exact (not_or.mp httls).imp Nat.pos_of_ne_zero Nat.pos_of_ne_zero
  have hmax : resign.enabled = true → 0 < resign.maxTtl := by
    intro henabled
    rw [validateResign, henabled, Bool.not_true, if_neg Bool.false_ne_true] at hresign
    split at hresign
    · cases hresign
    · rename_i hzero
      exact Nat.pos_of_ne_zero hzero
  rw [validWhenIssued_iff hnow, validWhenIssued_iff hnow, outlasts_iff hnow,
    not_fraction_iff hpositive.1, not_fraction_iff hpositive.2]
  constructor
  · rintro ⟨hcontext, htoken, haccepts, houtlasts⟩
    exact ⟨hcontext, htoken, (accepts_iff hcache htoken).mp haccepts,
      fun henabled => (not_fraction_iff (hmax henabled)).mpr (houtlasts henabled)⟩
  · rintro ⟨hcontext, htoken, hreaches, houtlasts⟩
    exact ⟨hcontext, htoken, (accepts_iff hcache htoken).mpr hreaches,
      fun henabled => (not_fraction_iff (hmax henabled)).mp (houtlasts henabled)⟩

end

/-! Half a second. -/

namespace Settings

def limit : Nat := 2 ^ 53

def redis : RedisAuthorizationCache where
  keyPrefix := "authguard"
  digest := id
  setEx _ _ seconds :=
    if 0 < seconds ∧ seconds ≤ limit then .ok () else .error "ERR invalid expire time"

def delivery (ttl : Duration) : ScopeDeliveryProperties := ⟨128, 8192, ttl, ttl⟩

def resign (ttl : Duration) : ResignProperties := ⟨true, ttl, "a2V5"⟩

theorem takes : (AuthorizationCache.redis redis).TakesUpTo limit := by
  intro key value seconds
  simp only [redis]
  split
  · rename_i h
    exact ⟨fun _ => h, fun _ => rfl⟩
  · rename_i h
    exact ⟨nofun, fun hpositive => absurd hpositive h⟩

theorem half_minute_usable :
    ValidWhenIssued 0 (Duration.fromSecs 30) ∧ ValidWhenIssued 0 (Duration.fromSecs 30) ∧
      (AuthorizationCache.redis redis).Accepts (Duration.fromSecs 30) ∧
      (resign (Duration.fromSecs 30)).Outlasts 0 := by
  have hseconds : ¬Fraction (Duration.fromSecs 30) := fun h => absurd h.2 (by decide)
  have hreaches : (AuthorizationCache.redis redis).Reaches limit (Duration.fromSecs 30) :=
    show Duration.asSecs (Duration.fromSecs 30) ≤ limit by decide
  have hdelivery : validateScopeDelivery (delivery (Duration.fromSecs 30)) = .ok () := rfl
  exact (lifetimes_usable_iff hdelivery rfl takes (by decide)).mpr
    ⟨hseconds, hseconds, hreaches, fun _ => hseconds⟩

/-- Half a second is accepted; then no context is valid, Redis takes no scope, and tokens expire
when they are issued. -/
theorem half_second_accepted :
    validateScopeDelivery (delivery 500000000) = .ok () ∧
      validateResign (resign 500000000) = .ok () ∧
      (∀ input, (AccessContext.new input 0 500000000).validate 0 = .error .invalidLifetime) ∧
      redis.storeScope "ags_token" "context" 500000000 = .error "ERR invalid expire time" ∧
      ¬(resign 500000000).Outlasts 0 := by
  refine ⟨rfl, rfl, fun _ => rfl, rfl, fun houtlasts => ?_⟩
  exact absurd ((outlasts_iff (by decide)).mp houtlasts rfl) (by decide)

end Settings

end Authguard
