import Authguard.Common.AccessContext

/-!
The reading side of an access context: verification of the signed form, decoding
and the check of its lifetime (`common/src/utils/context.rs`, module `access`).
Errors of the libraries below carry no text of their own here.
-/

namespace Authguard
open Text

inductive AccessContextError
  | base64
  | json
  | unsupportedVersion (version : Nat)
  | expired
  | issuedInFuture
  | invalidLifetime
  | invalidSigningKey
  | invalidSignedFormat
  | invalidSignature
  deriving DecidableEq

def minSigningKeyBytes : Nat := 32

def AccessContextError.toString : AccessContextError → String
  | .base64 => "invalid base64url access context"
  | .json => "invalid access context JSON"
  | .unsupportedVersion version => "unsupported access context version " ++ ToString.toString version
  | .expired => "access context has expired"
  | .issuedInFuture => "access context issue time is in the future"
  | .invalidLifetime => "access context expiry must be later than issue time"
  | .invalidSigningKey =>
      "access context signing key must contain at least " ++ ToString.toString minSigningKeyBytes ++
        " bytes"
  | .invalidSignedFormat => "invalid signed access context format"
  | .invalidSignature => "invalid signed access context signature"

def Json.toU8 (json : Json) : Option Nat := json.toU64.filter (· < 2 ^ 8)

def AccessContext.fromJson (json : Json) : Option AccessContext := do
  let fields ← json.asObject
  let version ← Json.required Json.toU8 "version" fields
  let principalId ← Json.required Json.toStr "principal_id" fields
  let action ← Json.required Json.toStr "action" fields
  let resourceUrn ← Json.required Json.toStr "resource_urn" fields
  let allowResourceUrns ← Json.required (Json.toList Json.toStr) "allow_resource_urns" fields
  let denyResourceUrns ← Json.required (Json.toList Json.toStr) "deny_resource_urns" fields
  let policyRevision ← Json.required Json.toU64 "policy_revision" fields
  let issuedAtEpochSeconds ← Json.required Json.toU64 "issued_at_epoch_seconds" fields
  let expiresAtEpochSeconds ← Json.required Json.toU64 "expires_at_epoch_seconds" fields
  some
    { version, principalId, action, resourceUrn, allowResourceUrns, denyResourceUrns,
      policyRevision, issuedAtEpochSeconds, expiresAtEpochSeconds }

def AccessContext.validate (context : AccessContext) (nowEpochSeconds : Nat) :
    Except AccessContextError Unit :=
  if context.version ≠ accessContextVersion then
    .error (.unsupportedVersion context.version)
  else if context.expiresAtEpochSeconds ≤ context.issuedAtEpochSeconds then
    .error .invalidLifetime
  else if saturatingAdd nowEpochSeconds 30 < context.issuedAtEpochSeconds then
    .error .issuedInFuture
  else if context.expiresAtEpochSeconds ≤ nowEpochSeconds then
    .error .expired
  else
    .ok ()

variable [Wire]

/-- The clock is read by the caller. -/
def AccessContext.decode (nowEpochSeconds : Nat) (encoded : String) :
    Except AccessContextError AccessContext :=
  match Wire.decodeNoPad encoded with
  | none => .error .base64
  | some json =>
      match (Wire.fromSlice json).bind AccessContext.fromJson with
      | none => .error .json
      | some context => do
          context.validate nowEpochSeconds
          .ok context

variable [Keys]

/-- `AccessContextSigner::verify`. -/
def verifySigned (signed : String) : Except AccessContextError String :=
  match splitChar '.' signed with
  | [kind, payload, signature] =>
      if kind ≠ signedContextPrefix ∨ payload = "" ∨ signature = "" then
        .error .invalidSignedFormat
      else
        match Wire.decodeNoPad signature with
        | none => .error .invalidSignedFormat
        | some signature =>
            match Keys.hmac (signedContextPrefix ++ "." ++ payload) with
            | .error _ => .error .invalidSigningKey
            | .ok mac => if mac = signature then .ok payload else .error .invalidSignature
  | _ => .error .invalidSignedFormat

end Authguard
