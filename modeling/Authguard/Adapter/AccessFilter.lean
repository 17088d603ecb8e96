import Authguard.Library.HttpHeader
import Authguard.Authz.ScopeResolution

/-!
The workload's side of the delivery (`adapters/rust/src/filter.rs`,
`adapters/rust/src/access.rs`): the filter asks its resolvers in turn, the first
that finds its header decides.
-/

namespace Authguard
open HttpHeader

structure AccessGrantSet where
  allowResourceUrns : List String
  denyResourceUrns : List String
  deriving DecidableEq

structure RequestAccess where
  principalId : String
  action : String
  resourceUrn : String
  grants : AccessGrantSet
  deriving DecidableEq

def RequestAccess.fromContext (context : AccessContext) : RequestAccess :=
  { principalId := context.principalId
    action := context.action
    resourceUrn := context.resourceUrn
    grants := ⟨context.allowResourceUrns, context.denyResourceUrns⟩ }

inductive AccessError
  | invalidContext (message : String)
  | resolver (message : String)
  deriving DecidableEq

/-- How a request answers for the text of a header. -/
abbrev AccessRequest := String → Option String

/-- Headers that are there and not empty. -/
def AccessRequest.nonEmpty (request : AccessRequest) (name : String) : Option String :=
  (request name).filter (· != "")

/-- What a remote call ends with: the answer of the service, or a failure of the transport. -/
abbrev ScopeTokenClient := String → Except String String

/-- The bytes of a message that a client of tonic reads unless it is told otherwise. -/
def maxDecodingMessageSize : Nat := 4 * 1024 * 1024

/-- `GrpcScopeTokenClient::resolve_scope` on a channel that works; a status is turned to text. -/
def grpcScopeTokenClient (toText : ScopeStatus → String)
    (service : String → Except ScopeStatus String) : ScopeTokenClient := fun token =>
  match service token with
  | .error status => .error (toText status)
  | .ok encoded =>
      if stringValueBytes encoded ≤ maxDecodingMessageSize then .ok encoded
      else .error (toText .outOfRange)

inductive AccessContextResolver
  | header
  | grpc (client : ScopeTokenClient)

section
variable [Wire]

/-- `HttpHeaderAccessRequest`: the first value under a name, when it is text. -/
def httpHeaderAccessRequest (headers : Headers) : AccessRequest := fun name =>
  (values headers name).head?.filter Wire.isText

variable [Keys]

/-- The clock is read by the caller. -/
def AccessContextResolver.resolve (now : Nat) (request : AccessRequest) :
    AccessContextResolver → Except AccessError (Option RequestAccess)
  | .header =>
      match request.nonEmpty accessContextHeader with
      | none => .ok none
      | some signed =>
          match verifySigned signed with
          | .error error => .error (.invalidContext error.toString)
          | .ok encoded =>
              match AccessContext.decode now encoded with
              | .error error => .error (.invalidContext error.toString)
              | .ok context => .ok (some (.fromContext context))
  | .grpc client =>
      match request.nonEmpty scopeTokenHeader with
      | none => .ok none
      | some token =>
          match client token with
          | .error error => .error (.resolver error)
          | .ok encoded =>
              match AccessContext.decode now encoded with
              | .error error => .error (.invalidContext error.toString)
              | .ok context => .ok (some (.fromContext context))

def firstAccess (now : Nat) (request : AccessRequest) :
    List AccessContextResolver → Except AccessError (Option RequestAccess)
  | [] => .ok none
  | resolver :: resolvers =>
      match resolver.resolve now request with
      | .error error => .error error
      | .ok (some access) => .ok (some access)
      | .ok none => firstAccess now request resolvers

/-- `AccessFilter::enter`; no access is the unauthenticated scope. -/
def enter (resolvers : List AccessContextResolver) (now : Nat) (request : AccessRequest) :
    Except AccessError (Option RequestAccess) :=
  if (request.nonEmpty accessContextHeader).isSome ∧
      (request.nonEmpty scopeTokenHeader).isSome then
    .error (.invalidContext "both Authguard context and scope token headers are present")
  else
    match firstAccess now request resolvers with
    | .error error => .error error
    | .ok (some access) => .ok (some access)
    | .ok none =>
        if (request.nonEmpty scopeTokenHeader).isSome then
          .error (.resolver "no resolver is configured for the Authguard scope token")
        else
          .ok none

end

end Authguard
