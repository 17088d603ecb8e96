import Authguard.Common.AccessContext

/-!
What a login puts into the canonical token: the context projected from the
claims of the identity provider (`authn/src/handler/authentication.rs`), and the
claims the issuer writes (`authn/src/authentication/token.rs`).
-/

namespace Authguard
open Text

structure ExternalIdentity where
  provider : String
  issuer : String
  subject : String
  claims : SortedMap String Json

/-- `authenticatedAt` is the timestamp, in seconds. -/
structure AuthenticationResult where
  externalIdentity : ExternalIdentity
  amr : List String
  acr : Option String
  authenticatedAt : Int

/-! The projection. -/

def maxContextBytes : Nat := 64 * 1024

def groupValues : Json → Option (List String)
  | .string value => some [value]
  | .array values => Json.all Json.toStr values
  | _ => none

def privateOrReservedClaims : List String :=
  ["username", "email", "display_name", "iss", "sub", "aud", "iat", "exp", "nbf", "jti",
    "provider", "access_token", "refresh_token", "authorization_code", "principal_id",
    "principal_kind", "authguard_group_ids", "acr", "amr", "authguardOrigin"]

def isPrivateOrReservedClaim (name : String) : Bool := privateOrReservedClaims.contains name

def projectGroups (claims : SortedMap String Json) : List String :=
  (((claims.get "authguard_group_ids").bind groupValues).filter fun groups =>
    groups.length ≤ maxGroups && (groups.map String.utf8ByteSize).sum ≤ maxGroupBytes &&
      groups.all validateCanonical).elim [] sortDedup

/-- One turn of the loop over the claims: the context so far and the bytes it takes. -/
def projectClaim (acc : StringMap × Nat) (claim : String × Json) : StringMap × Nat :=
  let (context, contextBytes) := acc
  if isPrivateOrReservedClaim claim.1 then
    acc
  else
    match scalarClaim claim.2 with
    | none => acc
    | some value =>
        let size := claim.1.utf8ByteSize + value.utf8ByteSize
        if !validateCanonical claim.1 || maxContextBytes < contextBytes + size then
          acc
        else
          (context.insert claim.1 value, contextBytes + size)

def projectAuthorizationContext (principal : AuthenticatedPrincipalContext)
    (authentication : AuthenticationResult) : AuthenticatedPrincipalContext :=
  let claims := authentication.externalIdentity.claims
  { principal with
    stableGroupIds := projectGroups claims
    trustedClaims := (claims.entries.foldl projectClaim (.empty, 0)).1 }

/-! The issuer. -/

structure TokenProperties where
  issuer : String
  audience : String
  ttl : Duration

structure TokenIssuer where
  config : TokenProperties
  signingKey : Option JwtSigningKey

inductive TokenError
  | signingUnavailable
  | invalidToken
  deriving DecidableEq

variable (issuer : TokenIssuer)

def TokenIssuer.claims (now authTime : Nat) (principal : AuthenticatedPrincipalContext)
    (authentication : AuthenticationResult) : List (String × Json) :=
  let claims := principal.trustedClaims.entries.map fun entry => (entry.1, Json.string entry.2)
  let claims := Json.setField "iss" (.string issuer.config.issuer) claims
  let claims := Json.setField "aud" (.string issuer.config.audience) claims
  let claims := Json.setField "sub" (.string principal.principalId) claims
  let claims := Json.setField "principal_id" (.string principal.principalId) claims
  let claims := Json.setField "principal_kind" (.string principal.kind.asStr) claims
  let claims := Json.setField "authguard_group_ids" (.strings principal.stableGroupIds) claims
  let claims := Json.setField "amr" (.strings authentication.amr) claims
  let claims := Json.setField "auth_time" (.ofNat authTime) claims
  let claims := Json.setField "iat" (.ofNat now) claims
  let claims := Json.setField "exp" (.ofNat (saturatingAdd now issuer.config.ttl.asSecs)) claims
  match authentication.acr with
  | none => claims
  | some acr => Json.setField "acr" (.string acr) claims

/-- The clock is read by the caller. -/
def TokenIssuer.issue [Wire] [Keys] (now : Nat) (principal : AuthenticatedPrincipalContext)
    (authentication : AuthenticationResult) : Except TokenError String :=
  match issuer.signingKey with
  | none => .error .signingUnavailable
  | some key =>
      if authentication.authenticatedAt < 0 then
        .error .signingUnavailable
      else
        let authTime := authentication.authenticatedAt.toNat
        match Wire.toVec (.object (issuer.claims now authTime principal authentication)) with
        | .error _ => .error .signingUnavailable
        | .ok payload => .ok (signJwt key payload)

end Authguard
