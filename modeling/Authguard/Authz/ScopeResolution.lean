import Authguard.Authz.Check
import Authguard.Common.AccessVerification

/-!
`resolve_scope` of the authorization service (`authz/src/handler/authorization.rs`):
a workload hands in the scope token it was sent and receives the context that was
stored for it, unless the message is too long to be sent (`authz/src/route/authorization.rs`).
-/

namespace Authguard

/-- What the service answers with when it does not resolve a token. -/
inductive ScopeStatus
  | invalidArgument (message : String)
  | unauthenticated (message : String)
  | unavailable (message : String)
  /-- The message is too long, for the service to send or for the client to read. -/
  | outOfRange
  deriving DecidableEq

def scopeTokenPrefix : String := "ags_"

/-- Lengths count bytes. What follows the first four is ASCII, so it may be read by characters. -/
def validScopeToken (token : String) : Bool :=
  token.utf8ByteSize == scopeTokenPrefix.utf8ByteSize + 43 &&
    scopeTokenPrefix.toList.isPrefixOf token.toList &&
    (token.toList.drop 4).all fun c => c.isAlphanum || c == '-' || c == '_'

/-- What the scope cache answers on a token. -/
abbrev LoadScope := String → Except String (Option String)

def resolveScope [Wire] (loadScope : LoadScope) (now : Nat) (token : String) :
    Except ScopeStatus String :=
  if !validScopeToken token then
    .error (.invalidArgument "invalid scope token")
  else
    match loadScope token with
    | .error _ => .error (.unavailable "authorization scope is temporarily unavailable")
    | .ok none => .error (.unauthenticated "scope token is unknown or expired")
    | .ok (some encoded) =>
        match AccessContext.decode now encoded with
        | .error _ => .error (.unauthenticated "scope token is unknown or expired")
        | .ok _ => .ok encoded

/-- `server.response`, as `validate_server` admits it. -/
structure ResponseProperties where
  maxMessageBytes : Nat
  maxMessageBytes_valid : 1024 ≤ maxMessageBytes ∧ maxMessageBytes ≤ 64 * 1024 * 1024

/-- The bytes of a `google.protobuf.StringValue`: the tag of its field, the length of the text
in groups of seven bits, and the text. The empty text is left out. -/
def stringValueBytes (text : String) : Nat :=
  if text = "" then 0
  else 1 + (Nat.log2 text.utf8ByteSize / 7 + 1) + text.utf8ByteSize

/-- `access_context_service`: what the answer of `resolve_scope` is on the wire. -/
def ResponseProperties.encoded (response : ResponseProperties) :
    Except ScopeStatus String → Except ScopeStatus String
  | .error status => .error status
  | .ok encoded =>
      if stringValueBytes encoded ≤ response.maxMessageBytes then .ok encoded
      else .error .outOfRange

end Authguard
