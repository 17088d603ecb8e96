import Authguard.Common.AccessContext
import Authguard.Common.IpAddress
import Authguard.Library.Runs
import Authguard.Authz.PolicyHandler
import Authguard.Authz.RequestPrincipal

/-!
The Envoy `ext_authz` check (`authz/src/handler/authorization.rs`): conversion of
the request, identity, decision on one catalog, and delivery of the access
context. Spans, logs and metrics are left out.
-/

namespace Authguard
open Text Result

/-! Requests, as far as the check reads them. -/

inductive Address
  | socketAddress (address : String)
  | pipe
  | envoyInternalAddress

structure Peer where
  address : Option (Option Address)

structure HttpRequest where
  method : String
  path : String
  host : String
  scheme : String
  headers : List (String × String)

structure AttributeContext where
  source : Option Peer
  request : Option (Option HttpRequest)

structure CheckRequest where
  attributes : Option AttributeContext

structure WorkloadRequest where
  method : String
  host : String
  path : String
  headers : HeaderMap
  sourceIp : Option IpAddr
  secureTransport : Bool
  deriving DecidableEq

def peerIp (peer : Peer) : Option IpAddr :=
  match peer.address.join with
  | some (.socketAddress address) => IpAddr.parse address
  | _ => none

section
variable [Wire]

/-- Headers with an invalid name or value are passed over. -/
def headerMap (headers : List (String × String)) : HeaderMap :=
  headers.foldl (fun result entry =>
    match Wire.headerName entry.1 with
    | none => result
    | some name => if Wire.headerValue entry.2 then HeaderMap.insert name entry.2 result else result)
    []

def WorkloadRequest.tryFrom (request : CheckRequest) : Except String WorkloadRequest :=
  match request.attributes with
  | none => .error "Envoy CheckRequest is missing attributes"
  | some attributes =>
      match attributes.request.join with
      | none => .error "Envoy CheckRequest is missing HTTP attributes"
      | some http =>
          if http.method = "" ∨ http.path = "" then
            .error "Envoy CheckRequest method and path are required"
          else
            .ok
              { method := http.method
                host := if http.host = "" then (http.headers.lookup "host").getD "" else http.host
                path := (splitChar '?' http.path).headD "/"
                headers := headerMap http.headers
                sourceIp := attributes.source.bind peerIp
                secureTransport := eqIgnoreAsciiCase http.scheme "https" }

end

/-! Responses. -/

inductive HttpStatusCode
  | badRequest
  | unauthorized
  | forbidden
  | internalServerError
  | serviceUnavailable
  deriving DecidableEq

inductive GrpcCode
  | ok
  | invalidArgument
  | permissionDenied
  | unauthenticated
  | internal
  deriving DecidableEq

inductive HttpResponse
  | ok (remove : List String) (overwrite : List (String × String))
  | denied (status : HttpStatusCode) (headers : List (String × String)) (body : Json)

structure CheckResponse where
  code : GrpcCode
  message : String
  http : HttpResponse

structure CheckFailure where
  status : HttpStatusCode
  code : String
  message : String
  deriving DecidableEq

def HttpStatusCode.grpcCode : HttpStatusCode → GrpcCode
  | .unauthorized => .unauthenticated
  | .badRequest => .invalidArgument
  | .internalServerError => .internal
  | _ => .permissionDenied

/-- `denied`. -/
def CheckFailure.denied (failure : CheckFailure) : CheckResponse :=
  { code := failure.status.grpcCode
    message := failure.message
    http := .denied failure.status
      (("content-type", "application/json") ::
        if failure.status = .unauthorized then
          [("www-authenticate", "Bearer realm=\"authguard\"")]
        else [])
      (.object [("code", .string failure.code), ("message", .string failure.message)]) }

namespace CheckFailure

def contextEncoding : CheckFailure :=
  ⟨.internalServerError, "context_encoding_failed", "failed to create trusted access context"⟩

def scopeCacheUnavailable : CheckFailure :=
  ⟨.serviceUnavailable, "scope_cache_unavailable",
    "authorization scope is temporarily unavailable"⟩

def invalidIdentityExpiry : CheckFailure :=
  ⟨.unauthorized, "invalid_identity_expiry",
    "trusted identity token expiry is missing or expired"⟩

def resignUnavailable : CheckFailure :=
  ⟨.serviceUnavailable, "resign_unavailable", "trusted upstream identity could not be issued"⟩

def principal : PrincipalHandlerError → CheckFailure
  | .disabled _ | .kindMismatch _ =>
      ⟨.forbidden, "principal_disabled", "the authenticated principal is disabled"⟩
  | .notFound _ | .providerUnavailable =>
      ⟨.unauthorized, "unknown_principal", "the authenticated principal is not registered"⟩
  | .referenced _ | .identityConflict | .discovery _ | .storage _ =>
      ⟨.serviceUnavailable, "principal_resolution_unavailable",
        "principal resolution is temporarily unavailable"⟩

def identity : IdentityError → CheckFailure
  | .missing => ⟨.unauthorized, "missing_identity", "trusted identity token is required"⟩
  | _ => ⟨.unauthorized, "invalid_identity", "trusted identity token is invalid"⟩

def route : HttpMappingError → CheckFailure
  | .notMapped =>
      ⟨.forbidden, "route_not_mapped", "request route has no authorization mapping"⟩
  | _ => ⟨.forbidden, "invalid_route_mapping", "request route mapping is invalid"⟩

def invalidRequest (message : String) : CheckFailure := ⟨.badRequest, "invalid_request", message⟩

def authorizationDenied : CheckFailure :=
  ⟨.forbidden, "authorization_denied", "request is not authorized"⟩

def missingScope : CheckFailure :=
  ⟨.internalServerError, "invalid_authorization_result",
    "authorization result did not contain a resource scope"⟩

end CheckFailure

/-! The handler. -/

structure IdentityProperties where
  tokenHeader : String
  principalIdClaim : String
  principalKindClaim : String
  groupsClaim : String

structure ScopeDeliveryProperties where
  directUrnLimit : Nat
  maxDirectHeaderBytes : Nat
  contextTtl : Duration
  scopeTokenTtl : Duration

structure ResignSigner where
  key : JwtSigningKey
  maxTtl : Duration

/-- Tokens are re-signed when `resign` is set. -/
structure DefaultAuthorizationHandler where
  identity : IdentityProperties
  scopeDelivery : ScopeDeliveryProperties
  resign : Option ResignSigner

structure RequestEvaluation where
  principalId : String
  route : ResolvedHttpRoute
  decision : AuthorizationDecision
  authorizationScope : Option AuthorizationScope
  policyRevision : Nat
  identity : AuthenticatedPrincipalContext
  sourceExpiresAtEpochSeconds : Option Nat
  deriving DecidableEq

section
variable [Wire] (handler : DefaultAuthorizationHandler)

def DefaultAuthorizationHandler.requestIdentity (request : WorkloadRequest) :
    Except CheckFailure AuthenticatedPrincipalContext :=
  (AuthenticatedPrincipalContext.fromGatewayHeaders request.headers handler.identity.tokenHeader
    handler.identity.principalIdClaim handler.identity.principalKindClaim
    handler.identity.groupsClaim).mapError .identity

def DefaultAuthorizationHandler.sourceTokenExpiry (request : WorkloadRequest) :
    Except CheckFailure (Option Nat) :=
  if handler.resign.isNone then
    .ok none
  else
    let expiresAt := do
      let token ← gatewayToken request.headers handler.identity.tokenHeader
      let encoded ← (splitChar '.' token)[1]?
      let payload ← decodeBase64Url encoded
      let claims ← (Wire.fromSlice payload).bind Json.asObject
      (claims.lookup "exp").bind Json.toU64
    match expiresAt with
    | none => .error .invalidIdentityExpiry
    | some expiresAt => .ok (some expiresAt)

/-- What of `evaluate_request` precedes the lookup of the principals. -/
def DefaultAuthorizationHandler.identify (request : WorkloadRequest) :
    Except CheckFailure (AuthenticatedPrincipalContext × Option Nat) := do
  let identity ← handler.requestIdentity request
  let expiry ← handler.sourceTokenExpiry request
  .ok (identity, expiry)

end

def evaluationContext (request : WorkloadRequest) (identity : AuthenticatedPrincipalContext) :
    EvaluationContext :=
  { sourceIp := request.sourceIp
    requestMethod := some request.method
    secureTransport := some request.secureTransport
    claims := identity.trustedClaims }

section
variable [Ipnet]

/-- What of `evaluate_request` follows the reading of the catalog. -/
def evaluateOn (catalog : CompiledPolicy) (request : WorkloadRequest)
    (identity : AuthenticatedPrincipalContext) (sourceExpiresAtEpochSeconds : Option Nat)
    (resolved : ResolvedRequestPrincipal) : Except CheckFailure RequestEvaluation :=
  match catalog.resolveHttpRoute request.method request.host request.path
      identity.trustedClaims.get with
  | .error error => .error (.route error)
  | .ok route =>
      let context := evaluationContext request identity
      let decision := catalog.authorize
        { principalId := resolved.principalId
          groupPrincipalIds := resolved.groupPrincipalIds
          action := route.action
          resourceUrn := route.resourceUrn
          parentUrns := route.parentUrns
          context }
      let authorizationScope :=
        if decision.allowed then
          some (catalog.authorizationScope resolved.principalId resolved.groupPrincipalIds
            route.action context)
        else
          none
      .ok
        { principalId := resolved.principalId
          route
          decision
          authorizationScope
          policyRevision := catalog.policy.revision
          identity
          sourceExpiresAtEpochSeconds }

end

/-! Delivery. -/

def resignTokenClaims (identity : AuthenticatedPrincipalContext) (principalId : String)
    (nowEpochSeconds : Nat) (ttl : Duration) : Json :=
  let claims := identity.trustedClaims.entries.map fun entry => (entry.1, Json.string entry.2)
  let claims := Json.setField "iss" (.string "authguard-authz") claims
  let claims := Json.setField "sub" (.string principalId) claims
  let claims := Json.setField "principal_id" (.string principalId) claims
  let claims := Json.setField "principal_kind" (.string identity.kind.asStr) claims
  let claims := Json.setField "authguard_group_ids" (.strings identity.stableGroupIds) claims
  let claims := match identity.acr with
    | none => claims
    | some acr => Json.setField "acr" (.string acr) claims
  let claims := Json.setField "amr" (.strings identity.amr) claims
  let claims := Json.setField "authguardOrigin" (.bool true) claims
  let claims := Json.setField "iat" (.ofNat nowEpochSeconds) claims
  .object (Json.setField "exp" (.ofNat (saturatingAdd nowEpochSeconds ttl.asSecs)) claims)

def legacyAccessHeaders : List String :=
  ["x-authguard-subject-id", "x-authguard-action", "x-authguard-resource-urn"]

def untrustedIdentityHeaders : List String :=
  ["x-authguard-id-token", "x-authguard-issuer", "x-authguard-external-id",
    "x-authguard-groups", "x-authguard-claim-tenant-id"]

inductive AccessDelivery
  | direct (encoded : String)
  | token (token : String)

section
variable (handler : DefaultAuthorizationHandler)

def DefaultAuthorizationHandler.allowedHttpResponse (delivery : AccessDelivery)
    (resignToken : Option String) : HttpResponse :=
  let bearer := eqIgnoreAsciiCase handler.identity.tokenHeader "authorization"
  let removed :=
    (if resignToken.isNone then ["authorization"] else []) ++ legacyAccessHeaders ++
      untrustedIdentityHeaders ++
      if resignToken.isNone || !bearer then [handler.identity.tokenHeader] else []
  let resigned := (resignToken.map fun token => ("authorization", "Bearer " ++ token)).toList
  match delivery with
  | .direct encoded =>
      .ok (removed ++ [scopeTokenHeader]) ((accessContextHeader, encoded) :: resigned)
  | .token token =>
      .ok (removed ++ [accessContextHeader]) ((scopeTokenHeader, token) :: resigned)

def DefaultAuthorizationHandler.permitted (delivery : AccessDelivery)
    (resignToken : Option String) : CheckResponse :=
  { code := .ok, message := "request authorized",
    http := handler.allowedHttpResponse delivery resignToken }

variable [Wire] [Keys]

/-- The clock is read by the caller. -/
def DefaultAuthorizationHandler.resignToken (now : Nat)
    (identity : AuthenticatedPrincipalContext) (principalId : String)
    (sourceExpiresAtEpochSeconds : Option Nat) : Except CheckFailure (Option String) :=
  match handler.resign with
  | none => .ok none
  | some resign =>
      match sourceExpiresAtEpochSeconds with
      | none => .error .invalidIdentityExpiry
      | some expires =>
          if expires ≤ now then
            .error .invalidIdentityExpiry
          else
            let ttl := min resign.maxTtl (Duration.fromSecs (expires - now))
            match Wire.toVec (resignTokenClaims identity principalId now ttl) with
            | .error _ => .error .resignUnavailable
            | .ok payload => .ok (some (signJwt resign.key payload))

/-- How `prepare_delivery` goes on: a direct context is ready, a token has to be stored. -/
inductive Delivery
  | direct (encoded : String)
  | store (token encoded : String)

def DefaultAuthorizationHandler.prepareDelivery (context : AccessContext) (urnCount now : Nat)
    (random : List UInt8) : Except CheckFailure Delivery := do
  let encodedPayload ← context.encode.mapError fun _ => .contextEncoding
  let directEncoded ← (signEncoded encodedPayload).mapError fun _ => .contextEncoding
  if urnCount ≤ handler.scopeDelivery.directUrnLimit ∧
      directEncoded.utf8ByteSize ≤ handler.scopeDelivery.maxDirectHeaderBytes then
    .ok (.direct directEncoded)
  else do
    let tokenContext := AccessContext.new context.input now handler.scopeDelivery.scopeTokenTtl
    let encoded ← tokenContext.encode.mapError fun _ => .contextEncoding
    .ok (.store ("ags_" ++ Wire.encodeNoPad random) encoded)

def RequestEvaluation.accessContextInput (evaluation : RequestEvaluation)
    (scope : AuthorizationScope) : AccessContextInput :=
  { principalId := evaluation.principalId
    action := evaluation.route.action
    resourceUrn := evaluation.route.resourceUrn.display
    allowResourceUrns := scope.allowResourceUrns
    denyResourceUrns := scope.denyResourceUrns
    policyRevision := evaluation.policyRevision }

/-- `allowed` up to the answer of the cache, with the clock as `allowed` and `resign_token`
read it, and the random bytes of a new scope token. -/
def DefaultAuthorizationHandler.allowed (now resignNow : Nat) (random : List UInt8)
    (evaluation : RequestEvaluation) :
    Except CheckFailure (Delivery × Option String) :=
  match evaluation.authorizationScope with
  | none => .error .missingScope
  | some scope => do
      let urnCount := scope.allowResourceUrns.length + scope.denyResourceUrns.length
      let resignToken ← handler.resignToken resignNow evaluation.identity evaluation.principalId
        evaluation.sourceExpiresAtEpochSeconds
      let directContext := AccessContext.new (evaluation.accessContextInput scope) now
        handler.scopeDelivery.contextTtl
      let delivery ← handler.prepareDelivery directContext urnCount now random
      .ok (delivery, resignToken)

end

end Authguard
