import Authguard.Authn.AuthenticationPipeline
import Authguard.Common.PrincipalDiscovery

/-!
The service takes its own tokens back (`authn/src/authentication/token.rs` over
`common/src/utils/jwt.rs`): as the bearer of an API request, or in the cookie its logins set
(`authn/src/handler/mod.rs`). Errors of the signature check are not told apart.
-/

namespace Authguard
open Text

/-- The public halves of keys, and RS256 under them. -/
class JwtVerifier where
  publicKeyPem : JwtSigningKey → String
  verifies (publicKeyPem : String) : String → List UInt8 → Bool

section
variable [Wire] [JwtVerifier]

/-- `jwt::verify`. -/
def verifyJwt (publicKeyPem token : String) : Option (List UInt8) :=
  match splitChar '.' token with
  | [header, payload, signature] =>
      if header ≠ jwtHeader ∨ payload = "" ∨ signature = "" then
        none
      else do
        let signature ← Wire.decodeNoPad signature
        if JwtVerifier.verifies publicKeyPem (jwtHeader ++ "." ++ payload) signature then
          Wire.decodeNoPad payload
        else
          none
  | _ => none

end

def audienceMatches (value : Option Json) (expected : String) : Bool :=
  match value with
  | some (.string value) => value = expected
  | some (.array values) => values.any fun value => value.toStr = some expected
  | _ => false

/-! The cookie. -/

def tokenCookie : String := "authguard_token"

def cookieToken (value : String) : Option String :=
  (splitChar ';' value).findSome? fun entry =>
    ((stripPrefix tokenCookie (trim entry)).bind (stripPrefix "=")).filter (· ≠ "")

/-- The `Set-Cookie` header of a login. -/
def sessionCookie (issued : IssuedAuthentication) : String :=
  tokenCookie ++ "=" ++ issued.accessToken ++ "; Path=/; Max-Age=" ++ toString issued.expiresIn ++
    "; HttpOnly; Secure; SameSite=Lax"

/-! The verifier. -/

namespace TokenIssuer

/-- `bearer_value`, word for word that of the reader of gateway headers. -/
def bearerValue (value : String) : Option String := Authguard.bearerValue value

section
variable [Wire] [JwtVerifier] (issuer : TokenIssuer) (now : Nat)

/-- What is asked of the claims of a token, before the context is read from it. -/
def admits (claims : List (String × Json)) : Bool :=
  match ((claims.lookup "principal_id").bind Json.toStr).filter (· ≠ "") with
  | none => false
  | some principalId =>
      (claims.lookup "sub").bind Json.toStr = some principalId ∧
        (claims.lookup "iss").bind Json.toStr = some issuer.config.issuer ∧
        audienceMatches (claims.lookup "aud") issuer.config.audience ∧
        ((claims.lookup "exp").bind Json.toU64).any (now < ·)

/-- `public_key`, as `from_config` derives it. -/
def publicKey : Option String := issuer.signingKey.map JwtVerifier.publicKeyPem

def authenticate (token : String) : Except TokenError AuthenticatedPrincipalContext :=
  match issuer.publicKey with
  | none => .error .signingUnavailable
  | some publicKey =>
      match ((verifyJwt publicKey token).bind Wire.fromSlice).bind Json.asObject with
      | none => .error .invalidToken
      | some claims =>
          if issuer.admits now claims then
            (AuthenticatedPrincipalContext.fromVerifiedJwt token).mapError fun _ => .invalidToken
          else
            .error .invalidToken

def authenticateBearer (headers : HeaderMap) : Except TokenError String :=
  match ((headers.lookup "authorization").filter Wire.isText).bind bearerValue with
  | none => .error .invalidToken
  | some token => (issuer.authenticate now token).map (·.principalId)

def authenticateCookie (headers : HeaderMap) :
    Except TokenError AuthenticatedPrincipalContext :=
  match ((headers.lookup "cookie").filter Wire.isText).bind cookieToken with
  | none => .error .invalidToken
  | some token => issuer.authenticate now token

end

end TokenIssuer

/-- `authenticate_request_principal`: an authorization header hides the cookie. -/
def AuthenticationPipeline.authenticateRequestPrincipal [Wire] [JwtVerifier]
    (pipeline : AuthenticationPipeline) (now : Nat) (headers : HeaderMap) :
    Except TokenError String :=
  if (headers.lookup "authorization").isSome then
    pipeline.tokens.authenticateBearer now headers
  else
    (pipeline.tokens.authenticateCookie now headers).map (·.principalId)

end Authguard
