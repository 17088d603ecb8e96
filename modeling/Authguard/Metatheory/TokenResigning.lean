import Authguard.Metatheory.TokenReading

/-!
Re-signed tokens. The writer lists every trusted claim of the identity, `mfa`
included, and then its own claims, so the reader finds the identity again exactly
when the claims together with `mfa` are within its limit.
-/

namespace Authguard
open Text

/-- Claims written as text. -/
def stringFields (claims : StringMap) : List (String × Json) :=
  claims.entries.map fun entry => (entry.1, Json.string entry.2)

theorem nodup_stringFields (claims : StringMap) : ((stringFields claims).map Prod.fst).Nodup := by
  rw [stringFields, List.map_map]
  exact claims.nodup_keys

theorem lookup_stringFields (claims : StringMap) (name : String) :
    (stringFields claims).lookup name = (claims.get name).map Json.string := by
  rw [stringFields, SortedMap.get]
  induction claims.entries with
  | nil => rfl
  | cons entry entries ih =>
      rw [List.map_cons, SortedMap.lookup_cons_ite, SortedMap.lookup_cons_ite, ih]
      split <;> rfl

theorem ne_of_isBoundaryClaim {name other : String} (h : isBoundaryClaim name = false)
    (hother : isBoundaryClaim other = true) : name ≠ other := by
  rintro rfl
  rw [h] at hother
  cases hother

/-! The claims of a re-signed token. -/

/-- The lifetime `resign_token` grants. -/
def resignTtl (maxTtl : Duration) (now expires : Nat) : Duration :=
  min maxTtl (Duration.fromSecs (expires - now))

def resignFields (identity : AuthenticatedPrincipalContext) (now : Nat) (ttl : Duration) :
    List (String × Json) :=
  ((resignTokenClaims identity identity.principalId now ttl).asObject).getD []

theorem resignTokenClaims_eq (identity : AuthenticatedPrincipalContext) (now : Nat)
    (ttl : Duration) :
    resignTokenClaims identity identity.principalId now ttl =
      .object (resignFields identity now ttl) :=
  rfl

section
variable {identity : AuthenticatedPrincipalContext} (now : Nat) (ttl : Duration)

theorem lookup_resignFields (name : String) :
    (resignFields identity now ttl).lookup name =
      if name = "exp" then some (.ofNat (saturatingAdd now ttl.asSecs))
      else if name = "iat" then some (.ofNat now)
      else if name = "authguardOrigin" then some (.bool true)
      else if name = "amr" then some (.strings identity.amr)
      else if name = "acr" ∧ identity.acr.isSome then identity.acr.map .string
      else if name = "authguard_group_ids" then some (.strings identity.stableGroupIds)
      else if name = "principal_kind" then some (.string identity.kind.asStr)
      else if name = "principal_id" then some (.string identity.principalId)
      else if name = "sub" then some (.string identity.principalId)
      else if name = "iss" then some (.string "authguard-authz")
      else (identity.trustedClaims.get name).map .string := by
  rw [← lookup_stringFields]
  cases hacr : identity.acr with
  | none =>
      simp only [resignFields, resignTokenClaims, Json.asObject, Option.getD_some, hacr,
        Json.lookup_setField, Option.isSome_none, Bool.false_eq_true, and_false, if_false]
      rfl
  | some acr =>
      simp only [resignFields, resignTokenClaims, Json.asObject, Option.getD_some, hacr,
        Json.lookup_setField, Option.isSome_some, and_true, Option.map_some]
      rfl

theorem nodup_resignFields : ((resignFields identity now ttl).map Prod.fst).Nodup := by
  have hclaims := nodup_stringFields identity.trustedClaims
  cases hacr : identity.acr with
  | none =>
      simp only [resignFields, resignTokenClaims, Json.asObject, Option.getD_some, hacr]
      repeat apply Json.nodup_setField
      exact hclaims
  | some acr =>
      simp only [resignFields, resignTokenClaims, Json.asObject, Option.getD_some, hacr]
      repeat apply Json.nodup_setField
      exact hclaims

theorem writesIdentity_resignFields (hadmissible : identity.Admissible) :
    WritesIdentity (resignFields identity now ttl) identity where
  nodup := nodup_resignFields now ttl
  principalId := by simp [lookup_resignFields]
  kind := by simp [lookup_resignFields]
  groups := by simp [lookup_resignFields]
  amr := by simp [lookup_resignFields]
  acr := by
    cases hacr : identity.acr with
    | none => simp [lookup_resignFields, hacr, hadmissible.boundary "acr" (by decide)]
    | some acr => simp [lookup_resignFields, hacr]
  claims name hname := by
    have hne : ∀ other, isBoundaryClaim other = true → name ≠ other :=
      fun other => ne_of_isBoundaryClaim hname
    rw [lookup_resignFields, if_neg (hne _ (by decide)), if_neg (hne _ (by decide)),
      if_neg (hne _ (by decide)), if_neg (hne _ (by decide)),
      if_neg fun h => hne "acr" (by decide) h.1, if_neg (hne _ (by decide)),
      if_neg (hne _ (by decide)), if_neg (hne _ (by decide)), if_neg (hne _ (by decide)),
      if_neg (hne _ (by decide))]
    cases identity.trustedClaims.get name <;> rfl

end

theorem resignTtl_asSecs_le (maxTtl : Duration) (now expires : Nat) :
    (resignTtl maxTtl now expires).asSecs ≤ expires - now := by
  have hle : resignTtl maxTtl now expires ≤ (expires - now) * 1000000000 := min_le_right _ _
  exact Nat.div_le_of_le_mul (by rwa [Nat.mul_comm] at hle)

/-! Reading it back. -/

section
variable [Wire] [Keys]

/-- The claims that are Authguard's, whatever the identity carries. -/
structure ResignedClaims (claims : List (String × Json)) (principalId : String)
    (now exp : Nat) : Prop where
  iss : claims.lookup "iss" = some (.string "authguard-authz")
  sub : claims.lookup "sub" = some (.string principalId)
  iat : claims.lookup "iat" = some (.ofNat now)
  exp : claims.lookup "exp" = some (.ofNat exp)
  authguardOrigin : claims.lookup "authguardOrigin" = some (.bool true)

/-- The re-signed token is read as the identity it was made from. -/
def DefaultAuthorizationHandler.KeepsIdentity (handler : DefaultAuthorizationHandler)
    (maxTtl : Duration) (identity : AuthenticatedPrincipalContext) (now expires : Nat) : Prop :=
  ∃ token claims,
    handler.resignToken now identity identity.principalId (some expires) = .ok (some token) ∧
      AuthenticatedPrincipalContext.fromVerifiedJwt token = .ok identity ∧
      jwtClaims token = some claims ∧
      ResignedClaims claims identity.principalId now
        (saturatingAdd now (resignTtl maxTtl now expires).asSecs) ∧
      saturatingAdd now (resignTtl maxTtl now expires).asSecs ≤ expires

omit [Wire] [Keys] in
theorem insert_mfa_eq {identity : AuthenticatedPrincipalContext}
    (hmfa : identity.trustedClaims.get "mfa" = some (toString (identity.amr.contains "mfa"))) :
    identity.trustedClaims.insert "mfa" (toString (identity.amr.contains "mfa")) =
      identity.trustedClaims := by
  apply SortedMap.ext_get
  intro name
  rw [SortedMap.get_insert]
  split
  · rename_i hname
    rw [hname, hmfa]
  · rfl

/-- What the reader answers on the re-signed token of an identity it returned before. -/
theorem resigned_read (hwire : Wire.Standard) {handler : DefaultAuthorizationHandler}
    {key : JwtSigningKey} {maxTtl : Duration} (hresign : handler.resign = some ⟨key, maxTtl⟩)
    {identity : AuthenticatedPrincipalContext} {source : String}
    (hsource : AuthenticatedPrincipalContext.fromVerifiedJwt source = .ok identity)
    {now expires : Nat} (hnow : now < expires)
    (hjson : Wire.KeepsObject (resignFields identity now (resignTtl maxTtl now expires))) :
    ∃ token claims,
      handler.resignToken now identity identity.principalId (some expires) = .ok (some token) ∧
        jwtClaims token = some claims ∧
        (∀ name, claims.lookup name =
          (resignFields identity now (resignTtl maxTtl now expires)).lookup name) ∧
        AuthenticatedPrincipalContext.fromVerifiedJwt token =
          if maxScalarClaimBytes < claimBytes identity.trustedClaims.entries then .error .tooLarge
          else .ok identity := by
  obtain ⟨hadmissible, hmfa⟩ := fromVerifiedJwt_admissible hsource
  obtain ⟨payload, read, hwritten, hne, hread, hperm⟩ := hjson
  have hwrites := (writesIdentity_resignFields now (resignTtl maxTtl now expires) hadmissible).perm
    hperm
  refine ⟨signJwt key payload, read, ?_, jwtClaims_signJwt hwire hread,
    SortedMap.lookup_perm hperm hwrites.nodup, ?_⟩
  · have hpayload : Wire.toVec (resignTokenClaims identity identity.principalId now
        (min maxTtl (Duration.fromSecs (expires - now)))) = .ok payload := hwritten
    simp only [DefaultAuthorizationHandler.resignToken, hresign, if_neg (not_le.mpr hnow), hpayload]
  · rw [fromVerifiedJwt_signJwt hwire hne hread, hwrites.fromClaims_eq hadmissible,
      insert_mfa_eq hmfa]

theorem resigned_keeps_identity_iff (hwire : Wire.Standard)
    (handler : DefaultAuthorizationHandler) (key : JwtSigningKey) (maxTtl : Duration)
    (hresign : handler.resign = some ⟨key, maxTtl⟩) (identity : AuthenticatedPrincipalContext)
    (source : String)
    (hsource : AuthenticatedPrincipalContext.fromVerifiedJwt source = .ok identity)
    (now expires : Nat) (hnow : now < expires)
    (hjson : Wire.KeepsObject (resignFields identity now (resignTtl maxTtl now expires))) :
    handler.KeepsIdentity maxTtl identity now expires ↔
      claimBytes identity.trustedClaims.entries ≤ maxScalarClaimBytes := by
  obtain ⟨token, claims, htoken, hclaims, hlookup, hback⟩ :=
    resigned_read hwire hresign hsource hnow hjson
  constructor
  · rintro ⟨other, _, hother, hkept, -⟩
    rw [htoken, Except.ok.injEq, Option.some.injEq] at hother
    rw [← hother, hback] at hkept
    by_contra hlarge
    rw [if_pos (not_le.mp hlarge)] at hkept
    cases hkept
  · intro hsmall
    refine ⟨token, claims, htoken, ?_, hclaims, ?_, ?_⟩
    · rw [hback, if_neg (not_lt.mpr hsmall)]
    · constructor <;> rw [hlookup, lookup_resignFields] <;> simp
    · have httl := resignTtl_asSecs_le maxTtl now expires
      exact (min_le_left _ _).trans (by omega)

end

/-! A token with one claim, a second before it expires and near the limit. -/

namespace Archive
open Documents

def sourceFields (value : String) : List (String × Json) :=
  [("principal_id", .string "alice"), ("principal_kind", .string "USER"),
    ("authguard_group_ids", .strings []), ("amr", .strings []), ("a", .string value)]

/-- The identity before `mfa` is added. -/
def written (value : String) : AuthenticatedPrincipalContext where
  principalId := "alice"
  kind := .user
  stableGroupIds := []
  trustedClaims := SortedMap.ofList [("a", value)]
  acr := none
  amr := []

def identity (value : String) : AuthenticatedPrincipalContext :=
  { written value with trustedClaims := (written value).trustedClaims.insert "mfa" "false" }

def resignedFields (value : String) : List (String × Json) :=
  resignFields (identity value) 1700000000
    (resignTtl (Duration.fromSecs 60) 1700000000 1700000030)

@[reducible]
def archiveWire (value : String) : Wire := Documents.wire [sourceFields value, resignedFields value]

scoped instance unsigned : Keys where
  hmac _ := .ok []
  rsa _ _ := []

def handler : DefaultAuthorizationHandler where
  identity := ⟨"authorization", "principal_id", "principal_kind", "authguard_group_ids"⟩
  scopeDelivery := ⟨0, 4096, Duration.fromSecs 30, Duration.fromSecs 60⟩
  resign := some ⟨⟨"resigning"⟩, Duration.fromSecs 60⟩

def sourceToken (value : String) : String :=
  @signJwt (archiveWire value) unsigned ⟨"issuing"⟩ (ascii (print (sourceFields value)))

theorem sourceFields_writes (value : String) :
    WritesIdentity (sourceFields value) (written value) where
  nodup := by
    change ["principal_id", "principal_kind", "authguard_group_ids", "amr", "a"].Nodup
    decide
  principalId := rfl
  kind := rfl
  groups := rfl
  acr := rfl
  amr := rfl
  claims name hname := by
    have hne : ∀ other, isBoundaryClaim other = true → name ≠ other :=
      fun other => ne_of_isBoundaryClaim hname
    have hget : (written value).trustedClaims.get name = [("a", value)].lookup name :=
      @SortedMap.get_ofList _ _ _ [("a", value)] (List.nodup_singleton "a") name
    rw [hget]
    simp only [sourceFields, SortedMap.lookup_cons_ite, if_neg (hne "principal_id" (by decide)),
      if_neg (hne "principal_kind" (by decide)), if_neg (hne "authguard_group_ids" (by decide)),
      if_neg (hne "amr" (by decide)), List.lookup_nil]
    split <;> rfl

theorem written_admissible (value : String) : (written value).Admissible where
  principalId := by
    change validateCanonical "alice" = true
    decide
  groupCount := Nat.zero_le _
  groupBytes := Nat.zero_le _
  groupNames := rfl
  groupOrder := .nil
  boundary name hname := by
    have hne : "a" ≠ name := ne_of_isBoundaryClaim (by decide) hname
    exact SortedMap.get_ofList_of_not_mem (by simpa using hne)

theorem source_read {value : String} (h : value.utf8ByteSize < maxScalarClaimBytes) :
    @AuthenticatedPrincipalContext.fromVerifiedJwt (archiveWire value) (sourceToken value) =
      .ok (identity value) := by
  have hread := wire_fromSlice_first (sourceFields value) [resignedFields value]
  have hbytes : ¬maxScalarClaimBytes < claimBytes (written value).trustedClaims.entries := by
    have hsize : claimBytes (written value).trustedClaims.entries =
        "a".utf8ByteSize + value.utf8ByteSize + 0 := rfl
    have ha : "a".utf8ByteSize = 1 := by decide
    omega
  rw [sourceToken, @fromVerifiedJwt_signJwt (archiveWire value) unsigned _ _ _ (wire_standard _)
      (ascii_print_ne_nil _) hread,
    (sourceFields_writes value).fromClaims_eq (written_admissible value), if_neg hbytes]
  rfl

theorem identity_entries (value : String) :
    (identity value).trustedClaims.entries = [("a", value), ("mfa", "false")] := by
  refine SortedMap.insertEntry_last "false" ?_
  intro entry hentry
  rw [List.mem_singleton.mp hentry]
  change "a" < "mfa"
  decide +kernel

/-- The two documents start with different fields. -/
theorem resignedFields_kept (value : String) :
    @Wire.KeepsObject (archiveWire value) (resignedFields value) := by
  obtain ⟨rest, hrest⟩ : ∃ rest, resignedFields value =
      ("a", .string value) :: ("mfa", .string "false") :: rest := by
    have hacr : (identity value).acr = none := rfl
    simp [resignedFields, resignFields, resignTokenClaims, identity_entries, hacr, Json.setField,
      Json.asObject]
  have hdiffer : ascii (print (sourceFields value)) ≠ ascii (print (resignedFields value)) := by
    intro heq
    have hthird := congrArg (fun bytes => bytes[2]?) heq
    simp [ascii, print, sourceFields, hrest, quoted] at hthird
  apply wire_keepsObject
  rw [List.find?_cons_of_neg (by simpa using hdiffer), List.find?_cons_of_pos (by simp)]

theorem resigned_kept :
    @DefaultAuthorizationHandler.KeepsIdentity (archiveWire "accounts") unsigned handler
      (Duration.fromSecs 60) (identity "accounts") 1700000000 1700000030 :=
  (@resigned_keeps_identity_iff (archiveWire "accounts") unsigned (wire_standard _) handler
    ⟨"resigning"⟩ (Duration.fromSecs 60) rfl (identity "accounts") (sourceToken "accounts")
    (source_read (by decide +kernel)) 1700000000 1700000030 (by omega)
    (resignedFields_kept "accounts")).mpr (by decide +kernel)

/-- A claim of one byte less than the limit, under a name of one byte. -/
def longest : String := String.ofList (List.replicate 65535 'x')

theorem longest_size : longest.utf8ByteSize = 65535 :=
  utf8ByteSize_replicate 65535

theorem resigned_rejected :
    @AuthenticatedPrincipalContext.fromVerifiedJwt (archiveWire longest) (sourceToken longest) =
        .ok (identity longest) ∧
      ¬@DefaultAuthorizationHandler.KeepsIdentity (archiveWire longest) unsigned handler
        (Duration.fromSecs 60) (identity longest) 1700000000 1700000030 := by
  have hsource : @AuthenticatedPrincipalContext.fromVerifiedJwt (archiveWire longest)
      (sourceToken longest) = .ok (identity longest) :=
    source_read (by rw [longest_size, maxScalarClaimBytes]; omega)
  refine ⟨hsource, ?_⟩
  rintro ⟨token, claims, htoken, hkept, -⟩
  obtain ⟨token', _, htoken', -, -, hback⟩ :=
    @resigned_read (archiveWire longest) unsigned (wire_standard _) handler _ (Duration.fromSecs 60)
      rfl (identity longest) (sourceToken longest) hsource 1700000000 1700000030 (by omega)
      (resignedFields_kept longest)
  have hbytes : maxScalarClaimBytes < claimBytes (identity longest).trustedClaims.entries := by
    have hnames : "a".utf8ByteSize = 1 ∧ "mfa".utf8ByteSize = 3 := by decide
    simp only [identity_entries, claimBytes, List.map_cons, List.sum_cons, longest_size, hnames.1,
      hnames.2, maxScalarClaimBytes]
    omega
  rw [htoken', Except.ok.injEq, Option.some.injEq] at htoken
  rw [← htoken, hback, if_pos hbytes] at hkept
  cases hkept

end Archive

end Authguard
