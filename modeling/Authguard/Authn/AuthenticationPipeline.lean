import Authguard.Authn.AccountLinking

/-!
The convergence point of the authentication protocols
(`authn/src/handler/authentication.rs`) and the errors of its endpoints
(`error.rs`): a verified identity is resolved to a principal and the canonical
token is issued.
-/

namespace Authguard

/-! Errors. -/

inductive ApiStatus
  | badRequest
  | unauthorized
  | forbidden
  | notFound
  | conflict
  | unavailable
  | internal
  deriving DecidableEq

structure ApiError where
  status : ApiStatus
  code : String
  message : String
  deriving DecidableEq

inductive AuthenticationPipelineError
  | linking (error : AccountLinkingError)
  | token (error : TokenError)
  | stepUpPrincipalMismatch
  deriving DecidableEq

inductive ChallengeError
  | backend
  | invalidState
  deriving DecidableEq

namespace ApiError

def badRequest (message : String) : ApiError := ⟨.badRequest, "invalid_request", message⟩

def unauthorized (message : String) : ApiError := ⟨.unauthorized, "authentication_failed", message⟩

def notFound (message : String) : ApiError := ⟨.notFound, "not_found", message⟩

def conflict (message : String) : ApiError := ⟨.conflict, "conflict", message⟩

def unavailable (message : String) : ApiError := ⟨.unavailable, "service_unavailable", message⟩

def internal (message : String) : ApiError := ⟨.internal, "internal_error", message⟩

def challenge : ChallengeError → ApiError
  | .invalidState => .badRequest "invalid or expired challenge"
  | .backend => .unavailable "authentication challenge service is unavailable"

def pipeline : AuthenticationPipelineError → ApiError
  | .linking (.authoritativeLoginRequired _) | .linking (.linkNotAllowed _)
  | .linking (.principalDisabled _) =>
      ⟨.forbidden, "account_linking_rejected", "account linking was rejected"⟩
  | .linking .identityAlreadyBound => .conflict "external identity is already linked"
  | .linking (.invalidIdentity _) | .linking (.repository _) =>
      .unavailable "account linking is unavailable"
  | .token _ => .internal "canonical token could not be issued"
  | .stepUpPrincipalMismatch =>
      ⟨.forbidden, "step_up_rejected",
        "step-up authentication does not match the current Principal"⟩

def token : TokenError → ApiError
  | .invalidToken => .unauthorized "valid AuthGuard token required"
  | .signingUnavailable => .internal "canonical token verification is unavailable"

end ApiError

/-! The pipeline. -/

inductive PipelineCall
  | identity (call : IdentityCall)
  /-- The clock. -/
  | now

def PipelineCall.Answer : PipelineCall → Type
  | .identity call => call.Answer
  | .now => Nat

abbrev PipelineProgram :=
  Program PipelineCall PipelineCall.Answer AuthenticationPipelineError

structure IssuedAuthentication where
  accessToken : String
  expiresIn : Nat
  principal : AuthenticatedPrincipalContext

structure AuthenticationPipeline where
  linking : AccountLinkingService
  tokens : TokenIssuer

def LinkProgram.inPipeline {β : Type} (program : LinkProgram β) : PipelineProgram β :=
  program.lift .identity (fun _ answer => answer) .linking

namespace AuthenticationPipeline

variable (pipeline : AuthenticationPipeline)

/-- `resolve_step_up`, whose context `verify_step_up` drops. -/
def verifyStepUp (principalId : String) (authentication : AuthenticationResult)
    (kind : PrincipalKind) (random : List UInt8) : PipelineProgram Unit := do
  let principal ← (pipeline.linking.resolveLogin authentication kind random).inPipeline
  if principal.principalId ≠ principalId then .fail .stepUpPrincipalMismatch else .ok ()

variable [Wire] [Keys]

def issueAt (authentication : AuthenticationResult) (principal : AuthenticatedPrincipalContext)
    (now : Nat) : PipelineProgram IssuedAuthentication :=
  match pipeline.tokens.issue now principal authentication with
  | .error error => .fail (.token error)
  | .ok accessToken =>
      .ok { accessToken, expiresIn := pipeline.tokens.config.ttl.asSecs, principal }

def issue (authentication : AuthenticationResult) (principal : AuthenticatedPrincipalContext) :
    PipelineProgram IssuedAuthentication :=
  .call .now
    (pipeline.issueAt authentication (projectAuthorizationContext principal authentication))

def login (authentication : AuthenticationResult) (kind : PrincipalKind) (random : List UInt8) :
    PipelineProgram IssuedAuthentication := do
  let principal ← (pipeline.linking.resolveLogin authentication kind random).inPipeline
  pipeline.issue authentication principal

def link (principalId : String) (authentication : AuthenticationResult) :
    PipelineProgram IssuedAuthentication := do
  let principal ← (pipeline.linking.linkIdentity principalId authentication).inPipeline
  pipeline.issue authentication principal

/-- A step-up that ends in a token. -/
def completeStepUp (principalId : String) (authentication : AuthenticationResult)
    (kind : PrincipalKind) (random : List UInt8) : PipelineProgram IssuedAuthentication := do
  let principal ← (pipeline.linking.resolveLogin authentication kind random).inPipeline
  if principal.principalId ≠ principalId then
    .fail .stepUpPrincipalMismatch
  else
    pipeline.issue authentication principal

end AuthenticationPipeline

end Authguard
