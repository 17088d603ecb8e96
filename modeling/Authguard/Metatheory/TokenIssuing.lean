import Authguard.Authn.TokenIssuer
import Authguard.Metatheory.TokenResigning

/-!
Issued tokens. The projection admits the claims of the identity provider in the
order of their names while they fit its budget; `auth_time` is written later and
counts for the reader only, so a token can be issued that is never accepted.
-/

namespace Authguard
open Text

/-! The projection. -/

/-- The scalar claims that are neither private nor reserved, under a canonical name. -/
def eligibleClaims (claims : List (String × Json)) : List (String × String) :=
  (claims.filter fun claim => !isPrivateOrReservedClaim claim.1 && validateCanonical claim.1).filterMap
    fun claim => (scalarClaim claim.2).map fun value => (claim.1, value)

/-- The claims that fit, in turn, into so many bytes. -/
def takeWithin : Nat → List (String × String) → List (String × String)
  | _, [] => []
  | room, claim :: claims =>
      let size := claim.1.utf8ByteSize + claim.2.utf8ByteSize
      if size ≤ room then claim :: takeWithin (room - size) claims else takeWithin room claims

/-- What an identity provider may contribute to a token. -/
def ExternalIdentity.admitted (identity : ExternalIdentity) : List (String × String) :=
  takeWithin maxContextBytes (eligibleClaims identity.claims.entries)

theorem takeWithin_sublist (room : Nat) (claims : List (String × String)) :
    (takeWithin room claims).Sublist claims := by
  induction claims generalizing room with
  | nil => exact .slnil
  | cons claim claims ih =>
      rw [takeWithin]
      split
      · exact (ih _).cons_cons claim
      · exact (ih _).cons claim

theorem eligibleClaims_keys (claims : List (String × Json)) :
    ((eligibleClaims claims).map Prod.fst).Sublist (claims.map Prod.fst) := by
  have hmap : ∀ fields : List (String × Json),
      ((fields.filterMap fun claim => (scalarClaim claim.2).map fun value => (claim.1, value)).map
        Prod.fst).Sublist (fields.map Prod.fst) := by
    intro fields
    induction fields with
    | nil => exact .slnil
    | cons field fields ih =>
        cases hvalue : scalarClaim field.2 with
        | none =>
            rw [List.filterMap_cons_none (by simp [hvalue])]
            exact ih.cons _
        | some value =>
            rw [List.filterMap_cons_some (by simp [hvalue]; rfl)]
            exact ih.cons_cons _
  exact (hmap _).trans (List.filter_sublist.map Prod.fst)

/-- One turn of the loop is one step of `takeWithin`. -/
theorem foldl_projectClaim (claims : List (String × Json)) (context : StringMap) (bytes : Nat)
    (hbytes : bytes ≤ maxContextBytes) :
    (claims.foldl projectClaim (context, bytes)).1 =
      (takeWithin (maxContextBytes - bytes) (eligibleClaims claims)).foldl
        (fun map entry => map.insert entry.1 entry.2) context := by
  induction claims generalizing context bytes with
  | nil => rfl
  | cons claim claims ih =>
      rw [List.foldl_cons]
      by_cases hkept : isPrivateOrReservedClaim claim.1 = false ∧ validateCanonical claim.1 = true
      · cases hvalue : scalarClaim claim.2 with
        | none =>
            have hskip : projectClaim (context, bytes) claim = (context, bytes) := by
              simp [projectClaim, hkept.1, hvalue]
            have heligible : eligibleClaims (claim :: claims) = eligibleClaims claims := by
              simp [eligibleClaims, hkept.1, hkept.2, hvalue]
            rw [hskip, heligible, ih context bytes hbytes]
        | some value =>
            have heligible : eligibleClaims (claim :: claims) =
                (claim.1, value) :: eligibleClaims claims := by
              simp [eligibleClaims, hkept.1, hkept.2, hvalue]
            rw [heligible, takeWithin]
            dsimp only
            by_cases hfits : claim.1.utf8ByteSize + value.utf8ByteSize ≤ maxContextBytes - bytes
            · have htake : projectClaim (context, bytes) claim =
                  (context.insert claim.1 value,
                    bytes + (claim.1.utf8ByteSize + value.utf8ByteSize)) := by
                have hroom : ¬maxContextBytes <
                    bytes + (claim.1.utf8ByteSize + value.utf8ByteSize) := by omega
                simp [projectClaim, hkept.1, hkept.2, hvalue, hroom]
              rw [htake, if_pos hfits, List.foldl_cons, ih _ _ (by omega), Nat.sub_add_eq]
            · have hskip : projectClaim (context, bytes) claim = (context, bytes) := by
                have hroom : maxContextBytes <
                    bytes + (claim.1.utf8ByteSize + value.utf8ByteSize) := by omega
                simp [projectClaim, hkept.1, hvalue, hroom]
              rw [hskip, if_neg hfits, ih context bytes hbytes]
      · have hskip : projectClaim (context, bytes) claim = (context, bytes) := by
          cases hprivate : isPrivateOrReservedClaim claim.1 with
          | true => simp [projectClaim, hprivate]
          | false =>
              have hname : validateCanonical claim.1 = false := by
                rw [Bool.eq_false_iff]
                exact fun hname => hkept ⟨hprivate, hname⟩
              cases hvalue : scalarClaim claim.2 with
              | none => simp [projectClaim, hprivate, hvalue]
              | some value => simp [projectClaim, hprivate, hvalue, hname]
        have heligible : eligibleClaims (claim :: claims) = eligibleClaims claims := by
          rw [eligibleClaims, List.filter_cons_of_neg (by simpa using hkept)]
          rfl
        rw [hskip, heligible, ih context bytes hbytes]

theorem projected_trustedClaims (principal : AuthenticatedPrincipalContext)
    (authentication : AuthenticationResult) :
    (projectAuthorizationContext principal authentication).trustedClaims =
      SortedMap.ofList authentication.externalIdentity.admitted :=
  foldl_projectClaim _ SortedMap.empty 0 (Nat.zero_le _)

theorem admitted_nodup (identity : ExternalIdentity) :
    (identity.admitted.map Prod.fst).Nodup :=
  (((takeWithin_sublist _ _).map Prod.fst).trans (eligibleClaims_keys _)).nodup
    identity.claims.nodup_keys

/-- Every name the reader withholds is withheld by the projection. -/
theorem isPrivateOrReservedClaim_of_boundary {name : String} (h : isBoundaryClaim name = true) :
    isPrivateOrReservedClaim name = true := by
  have hlists : ∀ other ∈ boundaryClaims, isPrivateOrReservedClaim other = true := by decide
  exact hlists name (by simpa [isBoundaryClaim] using h)

theorem admitted_not_boundary {identity : ExternalIdentity} {entry : String × String}
    (h : entry ∈ identity.admitted) : isBoundaryClaim entry.1 = false := by
  obtain ⟨claim, hclaim, hvalue⟩ := List.mem_filterMap.mp ((takeWithin_sublist _ _).subset h)
  obtain ⟨value, -, rfl⟩ := Option.map_eq_some_iff.mp hvalue
  have hkept := (List.mem_filter.mp hclaim).2
  rw [Bool.and_eq_true, Bool.not_eq_true'] at hkept
  rw [Bool.eq_false_iff]
  intro hboundary
  rw [isPrivateOrReservedClaim_of_boundary hboundary] at hkept
  cases hkept.1

theorem projectGroups_cases (claims : SortedMap String Json) :
    projectGroups claims = [] ∨ ∃ groups : List String, projectGroups claims = sortDedup groups ∧
      groups.length ≤ maxGroups ∧ (groups.map String.utf8ByteSize).sum ≤ maxGroupBytes ∧
        groups.all validateCanonical = true := by
  rw [projectGroups]
  cases hgroups : ((claims.get "authguard_group_ids").bind groupValues).filter fun groups =>
      groups.length ≤ maxGroups && (groups.map String.utf8ByteSize).sum ≤ maxGroupBytes &&
        groups.all validateCanonical with
  | none => exact .inl rfl
  | some groups =>
      have hkept := (Option.filter_eq_some_iff.mp hgroups).2
      simp only [Bool.and_eq_true, decide_eq_true_eq] at hkept
      exact .inr ⟨groups, rfl, hkept.1.1, hkept.1.2, hkept.2⟩

/-! The claims of an issued token. -/

section
variable (principal : AuthenticatedPrincipalContext) (authentication : AuthenticationResult)

/-- What the issuer is given, with the authentication filled in and `auth_time` on top. -/
def issuedIdentity : AuthenticatedPrincipalContext :=
  { projectAuthorizationContext principal authentication with
    acr := authentication.acr
    amr := authentication.amr
    trustedClaims := (projectAuthorizationContext principal authentication).trustedClaims.insert
      "auth_time" (toString authentication.authenticatedAt.toNat) }

theorem issuedIdentity_admissible (hcanonical : validateCanonical principal.principalId = true) :
    (issuedIdentity principal authentication).Admissible := by
  have hboundary : ∀ name, isBoundaryClaim name = true →
      (issuedIdentity principal authentication).trustedClaims.get name = none := by
    intro name hname
    have htime : name ≠ "auth_time" := by
      rintro rfl
      revert hname
      decide
    have hadmitted : ∀ entry ∈ authentication.externalIdentity.admitted, entry.1 ≠ name :=
      fun entry hentry => ne_of_isBoundaryClaim (admitted_not_boundary hentry) hname
    rw [issuedIdentity, SortedMap.get_insert, if_neg htime, projected_trustedClaims,
      SortedMap.get_ofList_of_not_mem hadmitted]
  have hprojected : (issuedIdentity principal authentication).stableGroupIds =
      projectGroups authentication.externalIdentity.claims := rfl
  obtain hnone | ⟨groups, hgroups, hcount, hbytes, hnames⟩ :=
    projectGroups_cases authentication.externalIdentity.claims
  · rw [hnone] at hprojected
    refine ⟨hcanonical, ?_, ?_, ?_, ?_, hboundary⟩
    all_goals simp [hprojected]
  · rw [hgroups] at hprojected
    refine ⟨hcanonical, ?_, ?_, ?_, ?_, hboundary⟩
    · rw [hprojected]
      exact (sortDedup_length_le groups).trans hcount
    · rw [hprojected]
      exact (sortDedup_sum_le String.utf8ByteSize groups).trans hbytes
    · rw [hprojected, List.all_eq_true]
      exact fun group hgroup => List.all_eq_true.mp hnames group (mem_sortDedup.mp hgroup)
    · rw [hprojected]
      exact sortDedup_strictly groups

/-- The bytes the reader counts. -/
theorem issuedIdentity_claimBytes :
    claimBytes (issuedIdentity principal authentication).trustedClaims.entries =
      "auth_time".utf8ByteSize +
        (toString authentication.authenticatedAt.toNat).utf8ByteSize +
        claimBytes (authentication.externalIdentity.admitted.filter
          fun entry => entry.1 ≠ "auth_time") := by
  have hinsert := SortedMap.insert_perm
    (projectAuthorizationContext principal authentication).trustedClaims "auth_time"
    (toString authentication.authenticatedAt.toNat)
  have hadmitted := SortedMap.ofList_perm (admitted_nodup authentication.externalIdentity)
  rw [projected_trustedClaims] at hinsert
  rw [issuedIdentity, projected_trustedClaims, claimBytes_perm hinsert,
    ← claimBytes_perm (hadmitted.filter fun entry => entry.1 ≠ "auth_time")]
  rfl

variable (issuer : TokenIssuer) (now : Nat)

theorem lookup_issuedClaims (name : String) :
    (issuer.claims now authentication.authenticatedAt.toNat
        (projectAuthorizationContext principal authentication) authentication).lookup name =
      if name = "acr" ∧ authentication.acr.isSome then authentication.acr.map .string
      else if name = "exp" then some (.ofNat (saturatingAdd now issuer.config.ttl.asSecs))
      else if name = "iat" then some (.ofNat now)
      else if name = "auth_time" then some (.ofNat authentication.authenticatedAt.toNat)
      else if name = "amr" then some (.strings authentication.amr)
      else if name = "authguard_group_ids" then
        some (.strings (projectGroups authentication.externalIdentity.claims))
      else if name = "principal_kind" then some (.string principal.kind.asStr)
      else if name = "principal_id" then some (.string principal.principalId)
      else if name = "sub" then some (.string principal.principalId)
      else if name = "aud" then some (.string issuer.config.audience)
      else if name = "iss" then some (.string issuer.config.issuer)
      else ((projectAuthorizationContext principal authentication).trustedClaims.get name).map
        .string := by
  rw [← lookup_stringFields]
  cases hacr : authentication.acr with
  | none =>
      simp only [TokenIssuer.claims, hacr, Json.lookup_setField, Option.isSome_none,
        Bool.false_eq_true, and_false, if_false]
      rfl
  | some acr =>
      simp only [TokenIssuer.claims, hacr, Json.lookup_setField, Option.isSome_some, and_true,
        Option.map_some]
      rfl

theorem nodup_issuedClaims :
    ((issuer.claims now authentication.authenticatedAt.toNat
      (projectAuthorizationContext principal authentication) authentication).map
        Prod.fst).Nodup := by
  have hclaims := nodup_stringFields
    (projectAuthorizationContext principal authentication).trustedClaims
  cases hacr : authentication.acr with
  | none =>
      simp only [TokenIssuer.claims, hacr]
      repeat apply Json.nodup_setField
      exact hclaims
  | some acr =>
      simp only [TokenIssuer.claims, hacr]
      repeat apply Json.nodup_setField
      exact hclaims

theorem writesIdentity_issuedClaims
    (hcanonical : validateCanonical principal.principalId = true) :
    WritesIdentity (issuer.claims now authentication.authenticatedAt.toNat
        (projectAuthorizationContext principal authentication) authentication)
      (issuedIdentity principal authentication) where
  nodup := nodup_issuedClaims principal authentication issuer now
  principalId := by
    rw [lookup_issuedClaims]
    simp [issuedIdentity, projectAuthorizationContext]
  kind := by
    rw [lookup_issuedClaims]
    simp [issuedIdentity, projectAuthorizationContext]
  groups := by
    rw [lookup_issuedClaims]
    simp [issuedIdentity, projectAuthorizationContext]
  amr := by simp [lookup_issuedClaims, issuedIdentity]
  acr := by
    have hno : (issuedIdentity principal authentication).trustedClaims.get "acr" = none :=
      (issuedIdentity_admissible principal authentication hcanonical).boundary "acr" (by decide)
    rw [issuedIdentity, SortedMap.get_insert, if_neg (by decide)] at hno
    cases hacr : authentication.acr with
    | none => simp [lookup_issuedClaims, issuedIdentity, hacr, hno]
    | some acr => simp [lookup_issuedClaims, issuedIdentity, hacr]
  claims name hname := by
    have hne : ∀ other, isBoundaryClaim other = true → name ≠ other :=
      fun other => ne_of_isBoundaryClaim hname
    rw [lookup_issuedClaims, if_neg fun h => hne "acr" (by decide) h.1,
      if_neg (hne _ (by decide)), if_neg (hne _ (by decide)), issuedIdentity,
      SortedMap.get_insert]
    by_cases htime : name = "auth_time"
    · rw [if_pos htime, if_pos htime]
      rfl
    · rw [if_neg htime, if_neg htime, if_neg (hne _ (by decide)), if_neg (hne _ (by decide)),
        if_neg (hne _ (by decide)), if_neg (hne _ (by decide)), if_neg (hne _ (by decide)),
        if_neg (hne _ (by decide)), if_neg (hne _ (by decide))]
      cases SortedMap.get _ name <;> rfl

end

/-! Reading it back. -/

section
variable [Wire] [Keys]

/-- What the reader is to find in an issued token. -/
structure ReadsIssued (principal : AuthenticatedPrincipalContext)
    (authentication : AuthenticationResult) (context : AuthenticatedPrincipalContext) :
    Prop where
  principalId : context.principalId = principal.principalId
  kind : context.kind = principal.kind
  groups : context.stableGroupIds =
    (projectAuthorizationContext principal authentication).stableGroupIds
  groupOrder : context.stableGroupIds.Pairwise (· < ·)
  amr : context.amr = authentication.amr
  acr : context.acr = authentication.acr
  trustedClaims : context.trustedClaims =
    ((projectAuthorizationContext principal authentication).trustedClaims.insert "auth_time"
      (toString authentication.authenticatedAt.toNat)).insert "mfa"
        (toString (authentication.amr.contains "mfa"))
  mfa : context.trustedClaims.get "mfa" = some "true" ↔ "mfa" ∈ authentication.amr
  boundary : ∀ name, isBoundaryClaim name = true → context.trustedClaims.get name = none

/-- A token is issued, and the reader accepts it. -/
def TokenIssuer.IssuesReadable (issuer : TokenIssuer) (now : Nat)
    (principal : AuthenticatedPrincipalContext) (authentication : AuthenticationResult) : Prop :=
  ∃ token context,
    issuer.issue now (projectAuthorizationContext principal authentication) authentication =
        .ok token ∧
      AuthenticatedPrincipalContext.fromVerifiedJwt token = .ok context ∧
      ReadsIssued principal authentication context

variable {issuer : TokenIssuer} {now : Nat} {principal : AuthenticatedPrincipalContext}
  {authentication : AuthenticationResult}

/-- What the reader answers on an issued token. -/
theorem issued_read (hwire : Wire.Standard) {key : JwtSigningKey}
    (hkey : issuer.signingKey = some key)
    (hcanonical : validateCanonical principal.principalId = true)
    (htime : 0 ≤ authentication.authenticatedAt)
    (hjson : Wire.KeepsObject (issuer.claims now authentication.authenticatedAt.toNat
      (projectAuthorizationContext principal authentication) authentication)) :
    ∃ token,
      issuer.issue now (projectAuthorizationContext principal authentication) authentication =
          .ok token ∧
        AuthenticatedPrincipalContext.fromVerifiedJwt token =
          if maxScalarClaimBytes <
              claimBytes (issuedIdentity principal authentication).trustedClaims.entries then
            .error .tooLarge
          else .ok { issuedIdentity principal authentication with
            trustedClaims := (issuedIdentity principal authentication).trustedClaims.insert "mfa"
              (toString (authentication.amr.contains "mfa")) } := by
  obtain ⟨payload, read, hwritten, hne, hread, hperm⟩ := hjson
  have hwrites := (writesIdentity_issuedClaims principal authentication issuer now hcanonical).perm
    hperm
  refine ⟨signJwt key payload, ?_, ?_⟩
  · simp only [TokenIssuer.issue, hkey, if_neg (not_lt.mpr htime), hwritten]
  · rw [fromVerifiedJwt_signJwt hwire hne hread,
      hwrites.fromClaims_eq (issuedIdentity_admissible principal authentication hcanonical)]
    rfl

omit [Wire] [Keys] in
theorem readsIssued (hcanonical : validateCanonical principal.principalId = true) :
    ReadsIssued principal authentication { issuedIdentity principal authentication with
      trustedClaims := (issuedIdentity principal authentication).trustedClaims.insert "mfa"
        (toString (authentication.amr.contains "mfa")) } := by
  have hadmissible := issuedIdentity_admissible principal authentication hcanonical
  refine ⟨rfl, rfl, rfl, hadmissible.groupOrder, rfl, rfl, rfl, ?_, ?_⟩
  · rw [SortedMap.get_insert, if_pos rfl, Option.some.injEq, ← List.contains_iff_mem]
    cases authentication.amr.contains "mfa" <;> decide
  · intro name hname
    have hmfa : name ≠ "mfa" := by
      rintro rfl
      revert hname
      decide
    rw [SortedMap.get_insert, if_neg hmfa, hadmissible.boundary name hname]

theorem issued_readable_iff (hwire : Wire.Standard) (issuer : TokenIssuer)
    (key : JwtSigningKey) (hkey : issuer.signingKey = some key) (now : Nat)
    (principal : AuthenticatedPrincipalContext)
    (hcanonical : validateCanonical principal.principalId = true)
    (authentication : AuthenticationResult) (htime : 0 ≤ authentication.authenticatedAt)
    (hjson : Wire.KeepsObject (issuer.claims now authentication.authenticatedAt.toNat
      (projectAuthorizationContext principal authentication) authentication)) :
    issuer.IssuesReadable now principal authentication ↔
      "auth_time".utf8ByteSize +
        (toString authentication.authenticatedAt.toNat).utf8ByteSize +
        claimBytes (authentication.externalIdentity.admitted.filter
          fun entry => entry.1 ≠ "auth_time") ≤ maxScalarClaimBytes := by
  obtain ⟨token, hissued, hback⟩ := issued_read hwire hkey hcanonical htime hjson
  rw [← issuedIdentity_claimBytes principal authentication]
  constructor
  · rintro ⟨other, context, hother, hread, -⟩
    rw [hissued, Except.ok.injEq] at hother
    rw [← hother, hback] at hread
    by_contra hlarge
    rw [if_pos (not_le.mp hlarge)] at hread
    cases hread
  · intro hsmall
    rw [if_neg (not_lt.mpr hsmall)] at hback
    exact ⟨token, _, hissued, hback, readsIssued hcanonical⟩

end

/-! A login whose provider contributes as much as the projection admits. -/

namespace Archive
open Documents

def issuer : TokenIssuer :=
  ⟨⟨"https://authguard.example", "workloads", Duration.fromSecs 300⟩, some ⟨"issuing"⟩⟩

def principal : AuthenticatedPrincipalContext := ⟨"alice", .user, [], .empty, none, []⟩

def login (claims : List (String × Json)) : AuthenticationResult where
  externalIdentity := ⟨"google", "https://accounts.example", "4711", SortedMap.ofList claims⟩
  amr := ["pwd"]
  acr := none
  authenticatedAt := 1700000000

def issuedFields (claims : List (String × Json)) : List (String × Json) :=
  issuer.claims 1700000010 (login claims).authenticatedAt.toNat
    (projectAuthorizationContext principal (login claims)) (login claims)

@[reducible]
def loginWire (claims : List (String × Json)) : Wire := Documents.wire [issuedFields claims]

theorem issuedFields_kept (claims : List (String × Json)) :
    @Wire.KeepsObject (loginWire claims) (issuedFields claims) :=
  wire_keepsObject (List.find?_cons_of_pos (by simp))

/-- The provider asserts a second factor and a time of its own. -/
def asserted : List (String × Json) :=
  [("tenant_id", .string "example"), ("mfa", .bool true), ("auth_time", .ofNat 1),
    ("authguard_group_ids", .strings ["team-b", "team-a", "team-a"]), ("email", .string "a@b")]

theorem asserted_readable :
    @TokenIssuer.IssuesReadable (loginWire asserted) unsigned issuer 1700000010 principal
      (login asserted) :=
  (@issued_readable_iff (loginWire asserted) unsigned (wire_standard _) issuer ⟨"issuing"⟩ rfl
    1700000010 principal (by decide) (login asserted) (by decide) (issuedFields_kept asserted)).mpr
      (by decide +kernel)

theorem admitted_single {value : String} (hsize : value.utf8ByteSize = 65535) :
    (login [("a", .string value)]).externalIdentity.admitted = [("a", value)] := by
  have hname : isPrivateOrReservedClaim "a" = false ∧ validateCanonical "a" = true := by decide
  have heligible : eligibleClaims [("a", Json.string value)] = [("a", value)] := by
    simp [eligibleClaims, hname.1, hname.2, scalarClaim]
  have hfits : "a".utf8ByteSize + value.utf8ByteSize ≤ maxContextBytes := by
    have ha : "a".utf8ByteSize = 1 := by decide
    rw [hsize, ha, maxContextBytes]
  change takeWithin maxContextBytes (eligibleClaims [("a", Json.string value)]) = _
  rw [heligible, takeWithin]
  dsimp only
  rw [if_pos hfits, takeWithin]

theorem single_unreadable {value : String} (hsize : value.utf8ByteSize = 65535) :
    (∃ token, @TokenIssuer.issue issuer (loginWire [("a", .string value)]) unsigned 1700000010
        (projectAuthorizationContext principal (login [("a", .string value)]))
        (login [("a", .string value)]) = .ok token) ∧
      ¬@TokenIssuer.IssuesReadable (loginWire [("a", .string value)]) unsigned issuer 1700000010
        principal (login [("a", .string value)]) := by
  obtain ⟨token, hissued, hback⟩ :=
    @issued_read (loginWire [("a", .string value)]) unsigned issuer 1700000010 principal
      (login [("a", .string value)]) (wire_standard _) _ rfl (by decide) (by norm_num [login])
      (issuedFields_kept [("a", .string value)])
  have hlarge : maxScalarClaimBytes < claimBytes
      (issuedIdentity principal (login [("a", .string value)])).trustedClaims.entries := by
    have hnames : "a".utf8ByteSize = 1 ∧ "auth_time".utf8ByteSize = 9 := by decide
    rw [issuedIdentity_claimBytes, admitted_single hsize, List.filter_cons_of_pos (by simp),
      List.filter_nil]
    simp only [claimBytes, List.map_cons, List.sum_cons, hsize, hnames.1, hnames.2,
      maxScalarClaimBytes]
    omega
  refine ⟨⟨token, hissued⟩, ?_⟩
  rintro ⟨other, context, hother, hread, -⟩
  rw [hissued, Except.ok.injEq] at hother
  rw [← hother, hback, if_pos hlarge] at hread
  cases hread

theorem longest_unreadable :
    (∃ token, @TokenIssuer.issue issuer (loginWire [("a", .string longest)]) unsigned 1700000010
        (projectAuthorizationContext principal (login [("a", .string longest)]))
        (login [("a", .string longest)]) = .ok token) ∧
      ¬@TokenIssuer.IssuesReadable (loginWire [("a", .string longest)]) unsigned issuer 1700000010
        principal (login [("a", .string longest)]) :=
  single_unreadable longest_size

end Archive

end Authguard
