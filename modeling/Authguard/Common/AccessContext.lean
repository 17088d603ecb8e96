import Authguard.Common.Identity

/-!
The access context a permitted request carries upstream
(`common/src/utils/context.rs`, module `access`) and the compact tokens it is
delivered in. Durations count nanoseconds.
-/

namespace Authguard

abbrev Duration := Nat

def Duration.fromSecs (seconds : Nat) : Duration := seconds * 1000000000

def Duration.asSecs (duration : Duration) : Nat := duration / 1000000000

/-- `u64::saturating_add`. -/
def saturatingAdd (a b : Nat) : Nat := min (a + b) (2 ^ 64 - 1)

/-- A private key that was loaded, by its PEM. -/
structure JwtSigningKey where
  pem : String
  deriving DecidableEq

/-- HMAC-SHA256 over direct contexts, under the key of the process, and RS256 over tokens. -/
class Keys where
  hmac : String → Except String (List UInt8)
  rsa : JwtSigningKey → String → List UInt8

def accessContextVersion : Nat := 3
def accessContextHeader : String := "x-authguard-context"
def scopeTokenHeader : String := "x-authguard-scope-token"
def signedContextPrefix : String := "agctx1"
def jwtHeader : String := "eyJhbGciOiJSUzI1NiIsInR5cCI6IkpXVCJ9"

structure AccessContextInput where
  principalId : String
  action : String
  resourceUrn : String
  allowResourceUrns : List String
  denyResourceUrns : List String
  policyRevision : Nat
  deriving DecidableEq

structure AccessContext where
  version : Nat
  principalId : String
  action : String
  resourceUrn : String
  allowResourceUrns : List String
  denyResourceUrns : List String
  policyRevision : Nat
  issuedAtEpochSeconds : Nat
  expiresAtEpochSeconds : Nat
  deriving DecidableEq

def AccessContext.new (input : AccessContextInput) (issuedAtEpochSeconds : Nat)
    (ttl : Duration) : AccessContext :=
  { version := accessContextVersion
    principalId := input.principalId
    action := input.action
    resourceUrn := input.resourceUrn
    allowResourceUrns := input.allowResourceUrns
    denyResourceUrns := input.denyResourceUrns
    policyRevision := input.policyRevision
    issuedAtEpochSeconds
    expiresAtEpochSeconds := saturatingAdd issuedAtEpochSeconds ttl.asSecs }

def AccessContext.input (context : AccessContext) : AccessContextInput :=
  { principalId := context.principalId
    action := context.action
    resourceUrn := context.resourceUrn
    allowResourceUrns := context.allowResourceUrns
    denyResourceUrns := context.denyResourceUrns
    policyRevision := context.policyRevision }

def AccessContext.toJson (context : AccessContext) : Json :=
  .object
    [("version", .ofNat context.version), ("principal_id", .string context.principalId),
      ("action", .string context.action), ("resource_urn", .string context.resourceUrn),
      ("allow_resource_urns", .strings context.allowResourceUrns),
      ("deny_resource_urns", .strings context.denyResourceUrns),
      ("policy_revision", .ofNat context.policyRevision),
      ("issued_at_epoch_seconds", .ofNat context.issuedAtEpochSeconds),
      ("expires_at_epoch_seconds", .ofNat context.expiresAtEpochSeconds)]

variable [Wire]

def AccessContext.encode (context : AccessContext) : Except String String :=
  (Wire.toVec context.toJson).map Wire.encodeNoPad

variable [Keys]

/-- `AccessContextSigner::sign_encoded`. -/
def signEncoded (encoded : String) : Except String String := do
  let signingInput := signedContextPrefix ++ "." ++ encoded
  let signature ← Keys.hmac signingInput
  .ok (signingInput ++ "." ++ Wire.encodeNoPad signature)

/-- `jwt::sign`. -/
def signJwt (key : JwtSigningKey) (payload : List UInt8) : String :=
  let signingInput := jwtHeader ++ "." ++ Wire.encodeNoPad payload
  signingInput ++ "." ++ Wire.encodeNoPad (Keys.rsa key signingInput)

end Authguard
