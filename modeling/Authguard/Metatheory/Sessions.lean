import Authguard.Authn.SessionToken
import Authguard.Metatheory.SecondFactor

/-!
Sessions. Whatever protocol a token was issued by, the service takes it back until it
expires, as a bearer or from the cookie, for the principal it was issued to, and no service
of another issuer, audience or signature does; and a gateway that reads the authorization
header identifies every request that the service accepts as the same principal.
-/

namespace Authguard
open Program Text

/-- What is relied on of RS256: under the public half of a key, the one signature of a text is
what the key writes, and is not empty. -/
structure JwtVerifier.Standard [Keys] [JwtVerifier] : Prop where
  verifies : ∀ key input signature,
    JwtVerifier.verifies (JwtVerifier.publicKeyPem key) input signature = true ↔
      signature = Keys.rsa key input
  signed : ∀ key input, Keys.rsa key input ≠ []

/-! What ends every protocol. -/

inductive PipelineRequest
  | login (authentication : AuthenticationResult) (kind : PrincipalKind) (random : List UInt8)
  | link (principalId : String) (authentication : AuthenticationResult)
  | completeStepUp (principalId : String) (authentication : AuthenticationResult)
      (kind : PrincipalKind) (random : List UInt8)

def PipelineRequest.authentication : PipelineRequest → AuthenticationResult
  | .login authentication _ _ | .link _ authentication
  | .completeStepUp _ authentication _ _ => authentication

def AuthenticationPipeline.finish [Wire] [Keys] (pipeline : AuthenticationPipeline) :
    PipelineRequest → PipelineProgram IssuedAuthentication
  | .login authentication kind random => pipeline.login authentication kind random
  | .link principalId authentication => pipeline.link principalId authentication
  | .completeStepUp principalId authentication kind random =>
      pipeline.completeStepUp principalId authentication kind random

abbrev PipelineTrace := List (Σ call : PipelineCall, call.Answer)

/-- The token was issued at a moment the clock answered, for the principal of the answer. -/
def IssuedAt [Wire] [Keys] (pipeline : AuthenticationPipeline) (authentication : AuthenticationResult)
    (trace : PipelineTrace) (issued : IssuedAuthentication) (issuedAt : Nat) : Prop :=
  ⟨.now, issuedAt⟩ ∈ trace ∧ ∃ principal,
    issued.principal = projectAuthorizationContext principal authentication ∧
    pipeline.tokens.issue issuedAt (projectAuthorizationContext principal authentication)
      authentication = .ok issued.accessToken

/-! Accepted tokens. -/

section
variable [Wire] [Keys] [JwtVerifier]

/-- The only text that verifies is the one the key writes. -/
theorem verifyJwt_eq_some (hwire : Wire.Standard) (hkeys : JwtVerifier.Standard)
    {key : JwtSigningKey} {token : String} {payload : List UInt8} :
    verifyJwt (JwtVerifier.publicKeyPem key) token = some payload ↔
      token = signJwt key payload ∧ payload ≠ [] := by
  constructor
  · intro h
    simp only [verifyJwt] at h
    split at h
    · rename_i header encoded signature hsplit
      split at h
      · cases h
      · rename_i hparts
        rw [not_or, not_or, ne_eq, not_not] at hparts
        obtain ⟨rfl, hencoded, -⟩ := hparts
        obtain ⟨bytes, hbytes, h⟩ := Option.bind_eq_some_iff.mp h
        split at h
        · rename_i hverified
          rw [hkeys.verifies] at hverified
          rw [hwire.decode] at h hbytes
          have hpayload := Base64Url.encode_of_decode h
          have hsignature := Base64Url.encode_of_decode hbytes
          have hjoined := intercalate_splitChar '.' token
          rw [hsplit] at hjoined
          constructor
          · rw [← hjoined, signJwt, hwire.encode, hwire.encode, hpayload, ← hverified, hsignature]
            rfl
          · rintro rfl
            exact hencoded hpayload.symm
        · cases h
    · cases h
  · rintro ⟨rfl, hne⟩
    have hsigned : ∀ bytes : List UInt8, bytes ≠ [] → Wire.encodeNoPad bytes ≠ "" := by
      intro bytes hbytes
      rw [hwire.encode]
      exact Base64Url.encode_ne_empty hbytes
    have hdecode : ∀ bytes, Wire.decodeNoPad (Wire.encodeNoPad bytes) = some bytes := by
      intro bytes
      rw [hwire.encode, hwire.decode, Base64Url.decode_encode]
    simp only [verifyJwt, splitChar_signJwt hwire]
    rw [if_neg (by simp [hsigned payload hne, hsigned _ (hkeys.signed _ _)]), hdecode]
    exact (if_pos ((hkeys.verifies _ _ _).mpr rfl)).trans (hdecode payload)

omit [JwtVerifier] in
/-- Tokens that are the same are of one payload and have one signature. -/
theorem signJwt_eq (hwire : Wire.Standard) {key other : JwtSigningKey} {payload written : List UInt8}
    (h : signJwt key payload = signJwt other written) :
    payload = written ∧ Keys.rsa key (jwtHeader ++ "." ++ Wire.encodeNoPad payload) =
      Keys.rsa other (jwtHeader ++ "." ++ Wire.encodeNoPad written) := by
  have hencode : ∀ bytes bytes' : List UInt8,
      Wire.encodeNoPad bytes = Wire.encodeNoPad bytes' → bytes = bytes' := by
    intro bytes bytes' hencoded
    rw [hwire.encode, hwire.encode] at hencoded
    have hdecoded := congrArg Base64Url.decode hencoded
    rwa [Base64Url.decode_encode, Base64Url.decode_encode, Option.some.injEq] at hdecoded
  have hpieces := congrArg (splitChar '.') h
  rw [splitChar_signJwt hwire, splitChar_signJwt hwire] at hpieces
  injection hpieces with _ hpieces
  injection hpieces with hpayload hpieces
  injection hpieces with hsignature _
  exact ⟨hencode _ _ hpayload, hencode _ _ hsignature⟩

/-- Keys with one public half write the same. -/
theorem signJwt_of_publicKeyPem (hkeys : JwtVerifier.Standard) {key other : JwtSigningKey}
    (h : JwtVerifier.publicKeyPem key = JwtVerifier.publicKeyPem other) (payload : List UInt8) :
    signJwt key payload = signJwt other payload := by
  have hsame : ∀ input, Keys.rsa key input = Keys.rsa other input := by
    intro input
    rw [← hkeys.verifies, ← h, hkeys.verifies]
  rw [signJwt, signJwt, hsame]

/-- The key signed the token, and its claims admit it at the moment. -/
def TokenIssuer.Vouches (issuer : TokenIssuer) (now : Nat) (token : String) : Prop :=
  ∃ key payload claims, issuer.signingKey = some key ∧ payload ≠ [] ∧
    token = signJwt key payload ∧ Wire.fromSlice payload = some (.object claims) ∧
    issuer.admits now claims = true

theorem authenticate_eq_ok (hwire : Wire.Standard) (hkeys : JwtVerifier.Standard)
    {issuer : TokenIssuer} {now : Nat} {token : String} {context : AuthenticatedPrincipalContext} :
    issuer.authenticate now token = .ok context ↔ issuer.Vouches now token ∧
      AuthenticatedPrincipalContext.fromVerifiedJwt token = .ok context := by
  constructor
  · intro h
    simp only [TokenIssuer.authenticate] at h
    split at h
    · cases h
    · rename_i publicKey hpublic
      obtain ⟨key, hkey, rfl⟩ := Option.map_eq_some_iff.mp hpublic
      split at h
      · cases h
      · rename_i claims hclaims
        split at h
        · rename_i hadmits
          obtain ⟨value, hvalue, hobject⟩ := Option.bind_eq_some_iff.mp hclaims
          obtain ⟨payload, hpayload, hread⟩ := Option.bind_eq_some_iff.mp hvalue
          obtain ⟨rfl, hne⟩ := (verifyJwt_eq_some hwire hkeys).mp hpayload
          cases value with
          | object fields =>
              cases hobject
              refine ⟨⟨key, payload, _, hkey, hne, rfl, hread, hadmits⟩, ?_⟩
              exact Result.mapError_ok.mp h
          | null | bool _ | number _ | string _ | array _ => cases hobject
        · cases h
  · rintro ⟨⟨key, payload, claims, hkey, hne, rfl, hread, hadmits⟩, hcontext⟩
    have hpublic : issuer.publicKey = some (JwtVerifier.publicKeyPem key) := by
      rw [TokenIssuer.publicKey, hkey, Option.map_some]
    have hpayload : verifyJwt (JwtVerifier.publicKeyPem key) (signJwt key payload) =
        some payload := (verifyJwt_eq_some hwire hkeys).mpr ⟨rfl, hne⟩
    simp only [TokenIssuer.authenticate, hpublic, hpayload, Option.bind_some, hread,
      Json.asObject, hadmits, if_true, hcontext]
    rfl

/-! Issued tokens. -/

omit [JwtVerifier] in
/-- The payload holds the claims of the issuer. -/
theorem issue_eq_ok (hjson : Wire.KeepsWritten) {issuer : TokenIssuer} {now : Nat}
    {principal : AuthenticatedPrincipalContext} {authentication : AuthenticationResult}
    {token : String}
    (h : issuer.issue now (projectAuthorizationContext principal authentication) authentication =
      .ok token) :
    0 ≤ authentication.authenticatedAt ∧
      ∃ key payload claims, issuer.signingKey = some key ∧ payload ≠ [] ∧
        token = signJwt key payload ∧
        Wire.fromSlice payload = some (.object claims) ∧
        claims.Perm (issuer.claims now authentication.authenticatedAt.toNat
          (projectAuthorizationContext principal authentication) authentication) := by
  rw [TokenIssuer.issue] at h
  split at h
  · cases h
  · rename_i key hkey
    split at h
    · cases h
    · rename_i htime
      dsimp only at h
      split at h
      · cases h
      · rename_i payload hpayload
        cases h
        have hnodup := nodup_issuedClaims principal authentication issuer now
        obtain ⟨written, read, hwritten, hne, hslice, hperm⟩ := hjson _ payload hnodup hpayload
        rw [hpayload, Except.ok.injEq] at hwritten
        subst hwritten
        exact ⟨not_lt.mp htime, key, payload, read, hkey, hne, rfl, hslice, hperm⟩

/-- The key of the service writes the token. -/
def TokenIssuer.Signs (service : TokenIssuer) (token : String) : Prop :=
  ∃ key payload, service.signingKey = some key ∧ token = signJwt key payload

/-- The service and the moment the token is for. -/
structure TokenIssuer.Receives (issuer : TokenIssuer) (issuedAt : Nat) (service : TokenIssuer)
    (later : Nat) : Prop where
  issuer_eq : service.config.issuer = issuer.config.issuer
  audience_eq : service.config.audience = issuer.config.audience
  unexpired : later < saturatingAdd issuedAt issuer.config.ttl.asSecs

variable {issuer service : TokenIssuer} {now later : Nat}
  {principal : AuthenticatedPrincipalContext} {authentication : AuthenticationResult}

omit [Wire] [Keys] [JwtVerifier] in
theorem admits_issued {claims : List (String × Json)}
    (hperm : claims.Perm (issuer.claims now authentication.authenticatedAt.toNat
      (projectAuthorizationContext principal authentication) authentication)) :
    service.admits later claims = true ↔ principal.principalId ≠ "" ∧
      service.config.issuer = issuer.config.issuer ∧
      service.config.audience = issuer.config.audience ∧
      later < saturatingAdd now issuer.config.ttl.asSecs := by
  have hnodup := (hperm.map Prod.fst).nodup_iff.mpr
    (nodup_issuedClaims principal authentication issuer now)
  have hlookup : ∀ name, claims.lookup name = _ := fun name =>
    (SortedMap.lookup_perm hperm hnodup name).trans
      (lookup_issuedClaims principal authentication issuer now name)
  have hprincipal : claims.lookup "principal_id" = some (.string principal.principalId) := by
    simp [hlookup]
  have hsub : claims.lookup "sub" = some (.string principal.principalId) := by simp [hlookup]
  have hissuer : claims.lookup "iss" = some (.string issuer.config.issuer) := by simp [hlookup]
  have haudience : claims.lookup "aud" = some (.string issuer.config.audience) := by
    simp [hlookup]
  have hexpires : claims.lookup "exp" =
      some (.ofNat (saturatingAdd now issuer.config.ttl.asSecs)) := by
    simp [hlookup]
  rw [TokenIssuer.admits, hprincipal, hsub, hissuer, haudience, hexpires, Option.bind_some,
    Json.toStr, Option.filter_some]
  by_cases hempty : principal.principalId = ""
  · simp [hempty]
  · simp only [hempty, ne_eq, not_false_eq_true, decide_true, if_true, Option.bind_some,
      Json.toStr, audienceMatches, Json.ofNat, Json.toU64, Option.any_some, decide_eq_true_eq,
      Option.some.injEq, true_and]
    rw [eq_comm (a := issuer.config.issuer), eq_comm (a := issuer.config.audience)]

/-- What the reader finds in an issued token. -/
def issuedContext (principal : AuthenticatedPrincipalContext)
    (authentication : AuthenticationResult) : AuthenticatedPrincipalContext :=
  { issuedIdentity principal authentication with
    trustedClaims := (issuedIdentity principal authentication).trustedClaims.insert "mfa"
      (toString (authentication.amr.contains "mfa")) }

omit [JwtVerifier] in
theorem fromVerifiedJwt_issued (hwire : Wire.Standard) {payload : List UInt8}
    {claims : List (String × Json)} (hne : payload ≠ [])
    (hread : Wire.fromSlice payload = some (.object claims))
    (hperm : claims.Perm (issuer.claims now authentication.authenticatedAt.toNat
      (projectAuthorizationContext principal authentication) authentication))
    {key : JwtSigningKey} {context : AuthenticatedPrincipalContext} :
    AuthenticatedPrincipalContext.fromVerifiedJwt (signJwt key payload) = .ok context ↔
      context = issuedContext principal authentication ∧
        validateCanonical principal.principalId = true ∧
        claimBytes (issuedIdentity principal authentication).trustedClaims.entries ≤
          maxScalarClaimBytes := by
  rw [fromVerifiedJwt_signJwt hwire hne hread]
  cases hcanonical : validateCanonical principal.principalId with
  | true =>
      have hwrites :=
        (writesIdentity_issuedClaims principal authentication issuer now hcanonical).perm hperm
      rw [hwrites.fromClaims_eq (issuedIdentity_admissible principal authentication hcanonical)]
      by_cases hlarge : maxScalarClaimBytes <
          claimBytes (issuedIdentity principal authentication).trustedClaims.entries
      · simp [hlarge]
      · rw [if_neg hlarge, Except.ok.injEq, eq_comm]
        simp only [not_lt.mp hlarge, and_true]
        rfl
  | false =>
      have hnodup := (hperm.map Prod.fst).nodup_iff.mpr
        (nodup_issuedClaims principal authentication issuer now)
      have hprincipal : claims.lookup "principal_id" = some (.string principal.principalId) := by
        rw [SortedMap.lookup_perm hperm hnodup, lookup_issuedClaims]
        simp
      simp [AuthenticatedPrincipalContext.fromClaims, hprincipal, Json.toStr, hcanonical]

theorem authenticate_issued (hwire : Wire.Standard) (hkeys : JwtVerifier.Standard)
    (hjson : Wire.KeepsWritten) {token : String}
    (hissued : issuer.issue now (projectAuthorizationContext principal authentication)
      authentication = .ok token) {context : AuthenticatedPrincipalContext} :
    service.authenticate later token = .ok context ↔
      context = issuedContext principal authentication ∧
        service.Signs token ∧ issuer.Receives now service later ∧
        validateCanonical principal.principalId = true ∧
        claimBytes (issuedIdentity principal authentication).trustedClaims.entries ≤
          maxScalarClaimBytes := by
  obtain ⟨-, key, payload, claims, -, hne, rfl, hread, hperm⟩ := issue_eq_ok hjson hissued
  rw [authenticate_eq_ok hwire hkeys, fromVerifiedJwt_issued hwire hne hread hperm]
  constructor
  · rintro ⟨⟨other, _, _, hother, -, hsame, hread', hadmits⟩, hcontext, hrest⟩
    obtain ⟨rfl, -⟩ := signJwt_eq hwire hsame
    rw [hread, Option.some.injEq, Json.object.injEq] at hread'
    subst hread'
    obtain ⟨-, hissuer, haudience, hunexpired⟩ := (admits_issued hperm).mp hadmits
    exact ⟨hcontext, ⟨other, payload, hother, hsame⟩, ⟨hissuer, haudience, hunexpired⟩, hrest⟩
  · rintro ⟨hcontext, ⟨other, _, hother, hsame⟩, hreceives, hcanonical, hsmall⟩
    obtain ⟨rfl, -⟩ := signJwt_eq hwire hsame
    refine ⟨⟨other, payload, claims, hother, hne, hsame, hread, ?_⟩, hcontext, hcanonical,
      hsmall⟩
    refine (admits_issued hperm).mpr ⟨?_, hreceives.issuer_eq, hreceives.audience_eq,
      hreceives.unexpired⟩
    intro hempty
    rw [hempty] at hcanonical
    cases hcanonical

/-- Every service with the public key of the issuer has a key that writes the token. -/
theorem signs_issued (hkeys : JwtVerifier.Standard) (hjson : Wire.KeepsWritten) {token : String}
    (hissued : issuer.issue now (projectAuthorizationContext principal authentication)
      authentication = .ok token) (hpublic : service.publicKey = issuer.publicKey) :
    service.Signs token := by
  obtain ⟨-, key, payload, claims, hkey, -, rfl, -, -⟩ := issue_eq_ok hjson hissued
  rw [TokenIssuer.publicKey, TokenIssuer.publicKey, hkey, Option.map_some] at hpublic
  obtain ⟨other, hother, hsame⟩ := Option.map_eq_some_iff.mp hpublic
  exact ⟨other, payload, hother, signJwt_of_publicKeyPem hkeys hsame.symm payload⟩

/-! The token a request carries. -/

omit [Keys] [JwtVerifier] in
/-- The token `authenticate_request_principal` looks at. -/
def requestToken (headers : HeaderMap) : Option String :=
  if (headers.lookup "authorization").isSome then
    ((headers.lookup "authorization").filter Wire.isText).bind bearerValue
  else
    ((headers.lookup "cookie").filter Wire.isText).bind cookieToken

omit [Keys] in
theorem authenticateRequestPrincipal_eq_ok {pipeline : AuthenticationPipeline}
    {headers : HeaderMap} {id : String} :
    pipeline.authenticateRequestPrincipal now headers = .ok id ↔
      ∃ token context, requestToken headers = some token ∧
        pipeline.tokens.authenticate now token = .ok context ∧ context.principalId = id := by
  rw [AuthenticationPipeline.authenticateRequestPrincipal, requestToken]
  split
  · have hbearer : TokenIssuer.bearerValue = bearerValue := rfl
    rw [TokenIssuer.authenticateBearer, hbearer]
    cases ((headers.lookup "authorization").filter Wire.isText).bind bearerValue with
    | none => simp
    | some token => simp [Result.map_ok_iff]
  · rw [TokenIssuer.authenticateCookie]
    cases ((headers.lookup "cookie").filter Wire.isText).bind cookieToken with
    | none => simp [Result.map_ok_iff]
    | some token => simp [Result.map_ok_iff]

omit [Wire] [Keys] [JwtVerifier] in
/-- One entry of a cookie header, as either reader takes it. -/
theorem cookieEntry_eq (entry : String) :
    ((stripPrefix tokenCookie entry).bind (stripPrefix "=")).filter (· ≠ "") =
      (splitOnce '=' entry).bind fun (key, value) =>
        if key == "authguard_token" && value != "" then some value else none := by
  ext token
  rw [Option.filter_eq_some_iff]
  simp only [Option.bind_eq_some_iff, stripPrefix_eq_some, Prod.exists, splitOnce_eq_some,
    decide_eq_true_eq]
  constructor
  · rintro ⟨⟨rest, rfl, rfl⟩, hne⟩
    have hjoin : tokenCookie ++ ("=" ++ token) = tokenCookie ++ String.singleton '=' ++ token := by
      rw [String.append_assoc]
      rfl
    refine ⟨tokenCookie, token, ⟨hjoin, by decide⟩, ?_⟩
    simp [tokenCookie, hne]
  · rintro ⟨key, value, ⟨rfl, -⟩, hvalue⟩
    split at hvalue
    · rename_i hkey
      cases hvalue
      rw [Bool.and_eq_true, beq_iff_eq, bne_iff_ne] at hkey
      obtain ⟨rfl, hne⟩ := hkey
      exact ⟨⟨"=" ++ token, String.append_assoc, rfl⟩, hne⟩
    · cases hvalue

omit [Keys] [JwtVerifier] in
/-- The service reads the cookie as the gateway does. -/
theorem cookieValue_eq (hwire : Wire.Standard) (headers : HeaderMap) :
    cookieValue headers "authguard_token" =
      ((headers.lookup "cookie").filter Wire.isText).bind cookieToken := by
  have hname : Wire.headerName "cookie" = some "cookie" := by
    rw [hwire.headerName]
    decide
  rw [cookieValue, HeaderMap.text, HeaderMap.get, hname, Option.bind_some]
  refine Option.bind_congr fun cookies _ => ?_
  rw [cookieToken]
  exact congrArg (List.findSome? · _) (funext fun entry => (cookieEntry_eq (trim entry)).symm)

omit [Wire] [Keys] [JwtVerifier] in
/-- What a browser keeps of a `Set-Cookie` header, to send it back. -/
def cookiePair (setCookie : String) : String :=
  ((splitOnce ';' setCookie).map Prod.fst).getD setCookie

omit [Wire] [Keys] [JwtVerifier] in
theorem cookiePair_sessionCookie {issued : IssuedAuthentication}
    (hcompact : IsCompact issued.accessToken) :
    cookiePair (sessionCookie issued) = tokenCookie ++ "=" ++ issued.accessToken := by
  have hsemicolon : ';' ∉ (tokenCookie ++ "=" ++ issued.accessToken).toList := by
    rw [String.toList_append, List.mem_append, not_or]
    refine ⟨by decide, fun hmem => ?_⟩
    have hdigit := hcompact ';' hmem
    revert hdigit
    decide
  have hcookie : sessionCookie issued = tokenCookie ++ "=" ++ issued.accessToken ++ ";" ++
      (" Path=/; Max-Age=" ++ toString issued.expiresIn ++ "; HttpOnly; Secure; SameSite=Lax") := by
    rw [sessionCookie, ← String.toList_inj]
    simp
  have hsplit := splitOnce_append (c := ';') (" Path=/; Max-Age=" ++
    toString issued.expiresIn ++ "; HttpOnly; Secure; SameSite=Lax") hsemicolon
  rw [cookiePair, hcookie]
  exact congrArg (fun found => (Option.map Prod.fst found).getD _) hsplit

/-- The request carries the token as its bearer, or as a cookie before which there is none of
the name. -/
def Presents (headers : HeaderMap) (issued : IssuedAuthentication) : Prop :=
  (∃ scheme, headers.lookup "authorization" = some (scheme ++ " " ++ issued.accessToken) ∧
    eqIgnoreAsciiCase scheme "bearer" = true ∧
    HttpHeader.isText (scheme ++ " " ++ issued.accessToken) = true) ∨
  (headers.lookup "authorization" = none ∧ ∃ cookies before after,
    headers.lookup "cookie" = some cookies ∧ HttpHeader.isText cookies = true ∧
    (splitChar ';' cookies).map trim = before ++ cookiePair (sessionCookie issued) :: after ∧
    ∀ pair ∈ before, ¬"authguard_token=".toList <+: pair.toList)

omit [Wire] [Keys] [JwtVerifier] in
theorem cookieToken_eq (cookies : String) :
    cookieToken cookies = ((splitChar ';' cookies).map trim).findSome? fun entry =>
      ((stripPrefix tokenCookie entry).bind (stripPrefix "=")).filter (· ≠ "") := by
  simp only [cookieToken, List.findSome?_map, Function.comp_def]

omit [Keys] [JwtVerifier] in
theorem requestToken_of_carries (hwire : Wire.Standard) {headers : HeaderMap}
    {issued : IssuedAuthentication} (hcompact : IsCompact issued.accessToken)
    (hne : issued.accessToken ≠ "") (h : Presents headers issued) :
    requestToken headers = some issued.accessToken := by
  rw [requestToken]
  obtain ⟨scheme, hheader, hscheme, htext⟩ |
    ⟨hnone, cookies, before, after, hcookies, htext, hpairs, hbefore⟩ := h
  · have hfree : ' ' ∉ scheme.toList := by
      intro hspace
      rw [eqIgnoreAsciiCase, beq_iff_eq] at hscheme
      have hlower := List.mem_map_of_mem (f := Char.toLower) hspace
      rw [hscheme] at hlower
      revert hlower
      decide
    have hsplit : splitOnce ' ' (scheme ++ " " ++ issued.accessToken) =
        some (scheme, issued.accessToken) := splitOnce_append issued.accessToken hfree
    rw [hheader, Option.isSome_some, if_pos rfl, Option.filter_some, hwire.isText, if_pos htext,
      Option.bind_some]
    simp [bearerValue, hsplit, hscheme, hcompact.trim_eq, hne]
  · have hpair := cookiePair_sessionCookie hcompact
    rw [hnone, Option.isSome_none, if_neg (by decide), hcookies, Option.filter_some, hwire.isText,
      if_pos htext, Option.bind_some, cookieToken_eq]
    have hskipped : before.findSome? (fun entry =>
        ((stripPrefix tokenCookie entry).bind (stripPrefix "=")).filter (· ≠ "")) = none := by
      refine List.findSome?_eq_none_iff.mpr fun entry hentry => ?_
      rw [Option.eq_none_iff_forall_ne_some]
      intro token htoken
      obtain ⟨hrest, -⟩ := Option.filter_eq_some_iff.mp htoken
      obtain ⟨rest, hname, hvalue⟩ := Option.bind_eq_some_iff.mp hrest
      rw [stripPrefix_eq_some] at hname hvalue
      refine hbefore entry hentry ⟨token.toList, ?_⟩
      rw [hname, hvalue, String.toList_append, String.toList_append]
      rfl
    have hfound : ((stripPrefix tokenCookie (cookiePair (sessionCookie issued))).bind
        (stripPrefix "=")).filter (· ≠ "") = some issued.accessToken := by
      rw [hpair, String.append_assoc, stripPrefix_append, Option.bind_some, stripPrefix_append,
        Option.filter_some, if_pos (decide_eq_true hne)]
    rw [hpairs, List.findSome?_append, hskipped, Option.none_or, List.findSome?_cons, hfound]

/-! Sessions. -/

variable {pipeline : AuthenticationPipeline} {trace : PipelineTrace}
  {issued : IssuedAuthentication}

omit [JwtVerifier] in
theorem traced_issue
    (h : Traced (pipeline.issue authentication principal) trace (.ok issued)) :
    ∃ issuedAt, IssuedAt pipeline authentication trace issued issuedAt := by
  cases h with
  | call hrest =>
      simp only [AuthenticationPipeline.issueAt] at hrest
      split at hrest
      · cases hrest
      · rename_i token htoken
        cases hrest
        exact ⟨_, List.mem_cons_self, principal, rfl, htoken⟩

omit [JwtVerifier] in
theorem traced_finish {request : PipelineRequest}
    (h : Traced (pipeline.finish request) trace (.ok issued)) :
    ∃ issuedAt, IssuedAt pipeline request.authentication trace issued issuedAt := by
  have hlater : ∀ {first rest : PipelineTrace} {issuedAt : Nat},
      IssuedAt pipeline request.authentication rest issued issuedAt →
      IssuedAt pipeline request.authentication (first ++ rest) issued issuedAt :=
    fun h => ⟨List.mem_append_right _ h.1, h.2⟩
  cases request with
  | login authentication kind random | link principalId authentication =>
      obtain ⟨principal, first, rest, rfl, -, hissue⟩ := h.of_bind
      obtain ⟨issuedAt, hissued⟩ := traced_issue hissue
      exact ⟨issuedAt, hlater hissued⟩
  | completeStepUp principalId authentication kind random =>
      obtain ⟨principal, first, rest, rfl, -, hissue⟩ := h.of_bind
      split at hissue
      · cases hissue
      · obtain ⟨issuedAt, hissued⟩ := traced_issue hissue
        exact ⟨issuedAt, hlater hissued⟩

omit [JwtVerifier] in
theorem IssuedAt.compact (hwire : Wire.Standard) (hjson : Wire.KeepsWritten) {issuedAt : Nat}
    (h : IssuedAt pipeline authentication trace issued issuedAt) :
    IsCompact issued.accessToken ∧ issued.accessToken ≠ "" := by
  obtain ⟨-, principal, -, hissued⟩ := h
  obtain ⟨-, key, payload, claims, -, -, htoken, -, -⟩ := issue_eq_ok hjson hissued
  exact ⟨htoken ▸ isCompact_signJwt hwire key payload, htoken ▸ signJwt_ne_empty key payload⟩

theorem IssuedAt.signs (hkeys : JwtVerifier.Standard) (hjson : Wire.KeepsWritten) {issuedAt : Nat}
    (h : IssuedAt pipeline authentication trace issued issuedAt)
    (service : AuthenticationPipeline)
    (hpublic : service.tokens.publicKey = pipeline.tokens.publicKey) :
    service.tokens.Signs issued.accessToken := by
  obtain ⟨-, principal, -, hissued⟩ := h
  exact signs_issued hkeys hjson hissued hpublic

theorem IssuedAt.accepted_iff (hwire : Wire.Standard) (hkeys : JwtVerifier.Standard)
    (hjson : Wire.KeepsWritten) {issuedAt : Nat}
    (h : IssuedAt pipeline authentication trace issued issuedAt) {headers : HeaderMap}
    (hpresents : Presents headers issued) {service : AuthenticationPipeline} {id : String} :
    service.authenticateRequestPrincipal later headers = .ok id ↔
      id = issued.principal.principalId ∧
        service.tokens.Signs issued.accessToken ∧
        pipeline.tokens.Receives issuedAt service.tokens later ∧
        validateCanonical id = true ∧
        claimBytes (issued.principal.trustedClaims.insert "auth_time"
          (toString authentication.authenticatedAt.toNat)).entries ≤ maxScalarClaimBytes := by
  obtain ⟨hcompact, hnonempty⟩ := h.compact hwire hjson
  obtain ⟨-, principal, hprincipal, hissued⟩ := h
  have hrequest := requestToken_of_carries hwire hcompact hnonempty hpresents
  rw [authenticateRequestPrincipal_eq_ok, hrequest, hprincipal]
  constructor
  · rintro ⟨token, context, htoken, hcontext, rfl⟩
    obtain rfl := Option.some.inj htoken
    obtain ⟨rfl, hrest⟩ := (authenticate_issued hwire hkeys hjson hissued).mp hcontext
    exact ⟨rfl, hrest⟩
  · rintro ⟨rfl, hrest⟩
    exact ⟨_, _, rfl, (authenticate_issued hwire hkeys hjson hissued).mpr ⟨rfl, hrest⟩, rfl⟩

/-- Whatever a protocol ends with is taken back until it expires by the services of the same
issuer and audience whose key writes it, as those with the public key of the issuer do, where
it can be read at all, and for the same principal. -/
theorem issued_session (hwire : Wire.Standard) (hkeys : JwtVerifier.Standard)
    (hjson : Wire.KeepsWritten) {request : PipelineRequest}
    (h : Traced (pipeline.finish request) trace (.ok issued)) :
    ∃ issuedAt, ⟨.now, issuedAt⟩ ∈ trace ∧
      (∀ service : AuthenticationPipeline, service.tokens.publicKey = pipeline.tokens.publicKey →
        service.tokens.Signs issued.accessToken) ∧
      ∀ (service : AuthenticationPipeline) (later : Nat) (headers : HeaderMap),
        Presents headers issued → ∀ id,
        (service.authenticateRequestPrincipal later headers = .ok id ↔
          id = issued.principal.principalId ∧
            service.tokens.Signs issued.accessToken ∧
            pipeline.tokens.Receives issuedAt service.tokens later ∧
            validateCanonical id = true ∧
            claimBytes (issued.principal.trustedClaims.insert "auth_time"
              (toString request.authentication.authenticatedAt.toNat)).entries ≤
                maxScalarClaimBytes) := by
  obtain ⟨issuedAt, hat⟩ := traced_finish h
  exact ⟨issuedAt, hat.1, hat.signs hkeys hjson, fun _ _ _ hpresents _ =>
    hat.accepted_iff hwire hkeys hjson hpresents⟩

/-! The gateway. -/

omit [Keys] [JwtVerifier] in
/-- The service looks at the token of the gateway, unless the gateway fell back to the
cookie past an authorization header. -/
theorem requestToken_eq_some (hwire : Wire.Standard) {tokenHeader token : String}
    (hheader : eqIgnoreAsciiCase tokenHeader "authorization" = true) {headers : HeaderMap} :
    requestToken headers = some token ↔ gatewayToken headers tokenHeader = some token ∧
      ((headers.lookup "authorization").isSome →
        ((headers.lookup "authorization").filter Wire.isText).bind bearerValue = some token) := by
  have hname : Wire.headerName tokenHeader = some "authorization" := by
    rw [hwire.headerName, HttpHeader.name_eq_some]
    exact ⟨HttpHeader.eqIgnoreAsciiCase_iff.mp hheader, by decide, by decide⟩
  have hread : headers.text tokenHeader = (headers.lookup "authorization").filter Wire.isText := by
    rw [HeaderMap.text, HeaderMap.get, hname, Option.bind_some]
  have hempty : ∀ found : Option String, ((found.filter (· != "")).bind bearerValue) =
      found.bind bearerValue := by
    intro found
    cases found with
    | none => rfl
    | some value =>
        by_cases hvalue : value = ""
        · subst hvalue
          rfl
        · rw [Option.filter_some, if_pos (bne_iff_ne.mpr hvalue)]
  have hgateway : gatewayToken headers tokenHeader =
      (((headers.lookup "authorization").filter Wire.isText).bind bearerValue).or
        (((headers.lookup "cookie").filter Wire.isText).bind cookieToken) := by
    simp only [gatewayToken, hheader, if_true, hread, hempty, cookieValue_eq hwire]
  rw [hgateway, requestToken]
  split
  · rename_i hpresent
    constructor
    · intro hbearer
      exact ⟨by rw [hbearer, Option.some_or], fun _ => hbearer⟩
    · exact fun h => h.2 hpresent
  · rename_i habsent
    have hnone : headers.lookup "authorization" = none := Option.not_isSome_iff_eq_none.mp habsent
    simp [hnone]

/-- The service accepts a request for a principal exactly where a gateway that is set to the
authorization header and to the names of the claims of the service identifies it as that
principal by a token that the service vouches for, and not by a cookie past an authorization
header. -/
theorem gateway_identity_iff (hwire : Wire.Standard) (hkeys : JwtVerifier.Standard)
    {tokenHeader : String} (hheader : eqIgnoreAsciiCase tokenHeader "authorization" = true)
    (pipeline : AuthenticationPipeline) (now : Nat) (headers : HeaderMap) (id : String) :
    pipeline.authenticateRequestPrincipal now headers = .ok id ↔
      ∃ token context, gatewayToken headers tokenHeader = some token ∧
        ((headers.lookup "authorization").isSome →
          ((headers.lookup "authorization").filter Wire.isText).bind bearerValue = some token) ∧
        pipeline.tokens.Vouches now token ∧
        AuthenticatedPrincipalContext.fromGatewayHeaders headers tokenHeader "principal_id"
          "principal_kind" "authguard_group_ids" = .ok context ∧ context.principalId = id := by
  rw [authenticateRequestPrincipal_eq_ok]
  constructor
  · rintro ⟨token, context, htoken, hcontext, hid⟩
    obtain ⟨hgateway, hbearer⟩ := (requestToken_eq_some hwire hheader).mp htoken
    obtain ⟨hvouches, hread⟩ := (authenticate_eq_ok hwire hkeys).mp hcontext
    refine ⟨token, context, hgateway, hbearer, hvouches, ?_, hid⟩
    rw [AuthenticatedPrincipalContext.fromGatewayHeaders, hgateway]
    exact hread
  · rintro ⟨token, context, hgateway, hbearer, hvouches, hread, hid⟩
    rw [AuthenticatedPrincipalContext.fromGatewayHeaders, hgateway] at hread
    exact ⟨token, context, (requestToken_eq_some hwire hheader).mpr ⟨hgateway, hbearer⟩,
      (authenticate_eq_ok hwire hkeys).mpr ⟨hvouches, hread⟩, hid⟩

end

/-! The session of a password login. -/

namespace TwoLogins
open Documents

@[reducible]
def keys : Keys where
  hmac _ := .error ""
  rsa key _ := [if key.pem = "login" then 1 else 2]

@[reducible]
def verifier : JwtVerifier where
  publicKeyPem := JwtSigningKey.pem
  verifies pem _ signature := signature = [if pem = "login" then 1 else 2]

theorem verifier_standard : @JwtVerifier.Standard keys verifier :=
  @JwtVerifier.Standard.mk keys verifier (fun _ _ _ => decide_eq_true_iff) fun _ _ =>
    List.cons_ne_nil _ _

/-- The same service with a key of its own. -/
def otherService : AuthenticationPipeline :=
  { handler.pipeline with tokens := { handler.pipeline.tokens with signingKey := some ⟨"other"⟩ } }

def passwordAuthentication : AuthenticationResult := .new external ["pwd"] none 59

def passwordSession : PipelineTrace × Except AuthenticationPipelineError IssuedAuthentication :=
  (@AuthenticationPipeline.finish (writer (tokenFields ["pwd"])) keys handler.pipeline
    (.login passwordAuthentication .user [1])).follow fun call => answers [] (.pipeline call)

theorem passwordSession_issued :
    passwordSession.2.toOption.any (fun issued =>
      issued.principal.principalId = "P_1" ∧
        claimBytes (issued.principal.trustedClaims.insert "auth_time" (toString
          passwordAuthentication.authenticatedAt.toNat)).entries ≤ maxScalarClaimBytes) = true := by
  decide +kernel

/-- Behind another cookie. -/
def cookieHeaders (issued : IssuedAuthentication) : HeaderMap :=
  [("cookie", "theme=dark; authguard_token=" ++ issued.accessToken)]

theorem trim_of_bounds {text : String} (h : ∀ c ∈ text.toList, 45 ≤ c.toNat ∧ c.toNat ≤ 122) :
    trim text = text := by
  refine trim_eq_self fun c hc => ?_
  have hbounds := h c hc
  rw [Bool.eq_false_iff]
  intro hspace
  simp only [isWhitespace, Bool.or_eq_true, Bool.and_eq_true, decide_eq_true_eq, beq_iff_eq]
    at hspace
  omega

theorem cookieHeaders_carries {issued : IssuedAuthentication}
    (hcompact : IsCompact issued.accessToken) : Presents (cookieHeaders issued) issued := by
  have hfree : ∀ c, Base64Url.isDigit c = false → c ≠ '.' → c ∉ issued.accessToken.toList := by
    intro c hdigit hdot hmem
    obtain h | h := hcompact c hmem
    · rw [hdigit] at h
      cases h
    · exact hdot h
  have htext : HttpHeader.isText ("theme=dark; authguard_token=" ++ issued.accessToken) = true := by
    rw [HttpHeader.isText, String.toList_append, List.all_append]
    exact Bool.and_eq_true_iff.mpr ⟨by decide, hcompact.isText⟩
  have hsplit : splitChar ';' ("theme=dark; authguard_token=" ++ issued.accessToken) =
      ["theme=dark", " authguard_token=" ++ issued.accessToken] := by
    have hjoin : (String.singleton ';').intercalate
        ["theme=dark", " authguard_token=" ++ issued.accessToken] =
        "theme=dark; authguard_token=" ++ issued.accessToken := by
      rw [← String.toList_inj]
      simp
    rw [← hjoin]
    refine splitChar_intercalate ';' _ (List.cons_ne_nil _ _) fun piece hpiece => ?_
    obtain rfl | rfl := List.mem_pair.mp hpiece
    · decide
    · rw [String.toList_append, List.mem_append, not_or]
      exact ⟨by decide, hfree ';' (by decide) (by decide)⟩
  have htrim : trim (" authguard_token=" ++ issued.accessToken) =
      tokenCookie ++ "=" ++ issued.accessToken := by
    have hplain : trim (tokenCookie ++ "=" ++ issued.accessToken) =
        tokenCookie ++ "=" ++ issued.accessToken := by
      refine trim_of_bounds fun c hc => ?_
      rw [String.toList_append, List.mem_append] at hc
      obtain hc | hc := hc
      · have hname : (tokenCookie ++ "=").toList.all
            (fun c => 45 ≤ c.toNat && c.toNat ≤ 122) = true := by decide
        simpa using List.all_eq_true.mp hname c hc
      · exact hcompact.bounds hc
    rw [← hplain, trim, trim]
    simp only [String.toList_append]
    rfl
  have htheme : trim "theme=dark" = "theme=dark" := by
    have hbounds : "theme=dark".toList.all (fun c => 45 ≤ c.toNat && c.toNat ≤ 122) = true := by
      decide
    exact trim_of_bounds fun c hc => by simpa using List.all_eq_true.mp hbounds c hc
  have hpairs : (splitChar ';' ("theme=dark; authguard_token=" ++ issued.accessToken)).map trim =
      ["theme=dark"] ++ cookiePair (sessionCookie issued) :: [] := by
    rw [hsplit, cookiePair_sessionCookie hcompact, List.map_cons, List.map_cons, htrim, htheme]
    rfl
  have hcookie : (cookieHeaders issued).lookup "cookie" =
      some ("theme=dark; authguard_token=" ++ issued.accessToken) := by
    simp [cookieHeaders]
  have hnone : (cookieHeaders issued).lookup "authorization" = none := by
    simp [cookieHeaders]
  have hbefore : ∀ pair ∈ ["theme=dark"], ¬"authguard_token=".toList <+: pair.toList := by decide
  exact .inr ⟨hnone, _, _, _, hcookie, htext, hpairs, hbefore⟩

theorem of_toOption {ε α : Type} {result : Except ε α} {value : α}
    (h : result.toOption = some value) : result = .ok value := by
  cases result with
  | error error => cases h
  | ok other => exact congrArg Except.ok (Option.some.inj h)

theorem passwordSession_traced {issued : IssuedAuthentication}
    (h : passwordSession.2 = .ok issued) :
    Traced (@AuthenticationPipeline.finish (writer (tokenFields ["pwd"])) keys handler.pipeline
      (.login passwordAuthentication .user [1])) passwordSession.1 (.ok issued) :=
  h ▸ traced_follow (fun call => answers [] (.pipeline call)) _

theorem otherService_unsigned {token : String}
    (hown : @TokenIssuer.Signs (writer (tokenFields ["pwd"])) keys handler.pipeline.tokens token) :
    ¬@TokenIssuer.Signs (writer (tokenFields ["pwd"])) keys otherService.tokens token := by
  rintro ⟨other, _, hother, hsame⟩
  obtain ⟨key, payload, hkey, rfl⟩ := hown
  obtain rfl := Option.some.inj hkey
  obtain rfl := Option.some.inj hother
  have hsignature : ([if "login" = "login" then 1 else 2] : List UInt8) =
      [if "other" = "login" then 1 else 2] :=
    (@signJwt_eq (writer (tokenFields ["pwd"])) keys (writer_standard _) _ _ _ _ hsame).2
  simp at hsignature

/-- The cookie is good for the principal until the token expires, and no good with the other
service. -/
theorem passwordSession_until : ∃ issued issuedAt, passwordSession.2 = .ok issued ∧
    ⟨.now, issuedAt⟩ ∈ passwordSession.1 ∧ ∀ later,
      (@AuthenticationPipeline.authenticateRequestPrincipal (writer (tokenFields ["pwd"])) verifier
          handler.pipeline later (cookieHeaders issued) = .ok "P_1" ↔
        later < saturatingAdd issuedAt 300) ∧
      @AuthenticationPipeline.authenticateRequestPrincipal (writer (tokenFields ["pwd"])) verifier
          otherService later (cookieHeaders issued) ≠ .ok "P_1" := by
  obtain ⟨issued, hissued, hread⟩ := (Option.any_eq_true _ _).mp passwordSession_issued
  rw [decide_eq_true_eq] at hread
  obtain ⟨hprincipal, hsmall⟩ := hread
  have htraced := passwordSession_traced (of_toOption hissued)
  obtain ⟨_, hat⟩ := @traced_finish (writer (tokenFields ["pwd"])) keys handler.pipeline _ issued
    _ htraced
  have hcompact := (@IssuedAt.compact (writer (tokenFields ["pwd"])) keys _ handler.pipeline _
    issued (writer_standard _) (writer_keepsWritten _) _ hat).1
  obtain ⟨issuedAt, hmoment, hsigns, hsession⟩ := @issued_session (writer (tokenFields ["pwd"])) keys
    verifier handler.pipeline _ issued (writer_standard _) verifier_standard
    (writer_keepsWritten _) _ htraced
  have hown := hsigns handler.pipeline rfl
  refine ⟨issued, issuedAt, of_toOption hissued, hmoment, fun later => ⟨?_, fun haccepted => ?_⟩⟩
  · refine (hsession handler.pipeline later _ (cookieHeaders_carries hcompact) "P_1").trans ?_
    constructor
    · rintro ⟨-, -, hreceives, -⟩
      exact hreceives.unexpired
    · exact fun hlater => ⟨hprincipal.symm, hown, ⟨rfl, rfl, hlater⟩, by decide, hsmall⟩
  · obtain ⟨-, hsigned, -⟩ :=
      (hsession otherService later _ (cookieHeaders_carries hcompact) "P_1").mp haccepted
    exact otherService_unsigned hown hsigned

/-- The gateway identifies the request with the cookie as well. -/
theorem passwordSession_identified : ∃ issued context, passwordSession.2 = .ok issued ∧
    @AuthenticatedPrincipalContext.fromGatewayHeaders (writer (tokenFields ["pwd"]))
      (cookieHeaders issued) "Authorization" "principal_id" "principal_kind"
      "authguard_group_ids" = .ok context ∧ context.principalId = "P_1" := by
  obtain ⟨issued, hissued, hread⟩ := (Option.any_eq_true _ _).mp passwordSession_issued
  rw [decide_eq_true_eq] at hread
  obtain ⟨hprincipal, hsmall⟩ := hread
  obtain ⟨issuedAt, hat⟩ := @traced_finish (writer (tokenFields ["pwd"])) keys handler.pipeline _
    issued _ (passwordSession_traced (of_toOption hissued))
  have hcompact := (@IssuedAt.compact (writer (tokenFields ["pwd"])) keys _ handler.pipeline _
    issued (writer_standard _) (writer_keepsWritten _) _ hat).1
  have hexpires : 0 < saturatingAdd issuedAt 300 := by
    rw [saturatingAdd]
    omega
  have hsigns := @IssuedAt.signs (writer (tokenFields ["pwd"])) keys verifier _ handler.pipeline _
    issued verifier_standard (writer_keepsWritten _) _ hat handler.pipeline rfl
  have haccepted := (@IssuedAt.accepted_iff (writer (tokenFields ["pwd"])) keys verifier 0 _
    handler.pipeline _ issued (writer_standard _) verifier_standard (writer_keepsWritten _) _ hat _
    (cookieHeaders_carries hcompact) handler.pipeline "P_1").mpr
    ⟨hprincipal.symm, hsigns, ⟨rfl, rfl, hexpires⟩, by decide, hsmall⟩
  obtain ⟨token, context, -, -, -, hcontext, hsame⟩ :=
    (@gateway_identity_iff (writer (tokenFields ["pwd"])) keys verifier (writer_standard _)
      verifier_standard "Authorization" (by decide) handler.pipeline 0 (cookieHeaders issued)
      "P_1").mp haccepted
  exact ⟨issued, context, of_toOption hissued, hcontext, hsame⟩

end TwoLogins

end Authguard
