import Authguard.Authz.Check

/-!
One `check` while the process goes on: policy catalogs are installed and
principals change at any moment, also between two steps of the request that no
await point separates. The catalog is read once, in a step of its own, and every
later step works on the value that was read.
-/

namespace Authguard

section
variable [Ipnet]

/-- How far the request has come. -/
inductive Stage
  | received (request : CheckRequest)
  /-- Awaiting `find_by_ids`. -/
  | identified (request : WorkloadRequest) (identity : AuthenticatedPrincipalContext)
      (expiry : Option Nat)
  | resolved (request : WorkloadRequest) (identity : AuthenticatedPrincipalContext)
      (expiry : Option Nat) (principal : ResolvedRequestPrincipal)
  /-- `compiled_catalog` was called. -/
  | pinned (request : WorkloadRequest) (identity : AuthenticatedPrincipalContext)
      (expiry : Option Nat) (principal : ResolvedRequestPrincipal) (catalog : Catalog)
  | decided (evaluation : RequestEvaluation)
  /-- Awaiting `store_scope`. -/
  | storing (token encoded : String) (resignToken : Option String)
  | responded (response : CheckResponse)

structure CheckState where
  published : Catalog
  principals : PrincipalTable
  /-- What the scope cache accepted: token, encoded context and lifetime. -/
  scopes : List (String × String × Duration)
  stage : Stage

inductive CheckEvent
  | install (catalog : Catalog)
  | update (principals : PrincipalTable)
  | proceed
  /-- The principal store answers. -/
  | lookup (answer : Except String Unit)
  | deliver (now resignNow : Nat) (random : List UInt8)
  /-- The scope cache answers. -/
  | cached (answer : Except String Unit)

def Stage.failed (failure : CheckFailure) : Stage := .responded failure.denied

variable [Wire] [Keys] (handler : DefaultAuthorizationHandler)

def DefaultAuthorizationHandler.receive (request : CheckRequest) : Stage :=
  match WorkloadRequest.tryFrom request with
  | .error message => .failed (.invalidRequest message)
  | .ok input =>
      match handler.identify input with
      | .error failure => .failed failure
      | .ok (identity, expiry) => .identified input identity expiry

def Stage.evaluate (catalog : Catalog) (request : WorkloadRequest)
    (identity : AuthenticatedPrincipalContext) (expiry : Option Nat)
    (principal : ResolvedRequestPrincipal) : Stage :=
  match evaluateOn catalog.compiled request identity expiry principal with
  | .error failure => .failed failure
  | .ok evaluation =>
      if evaluation.decision.allowed then .decided evaluation else .failed .authorizationDenied

def DefaultAuthorizationHandler.deliver (now resignNow : Nat) (random : List UInt8)
    (evaluation : RequestEvaluation) : Stage :=
  match handler.allowed now resignNow random evaluation with
  | .error failure => .failed failure
  | .ok (.direct encoded, resignToken) =>
      .responded (handler.permitted (.direct encoded) resignToken)
  | .ok (.store token encoded, resignToken) => .storing token encoded resignToken

def DefaultAuthorizationHandler.step (state : CheckState) : CheckEvent → Option CheckState
  | .install catalog => some { state with published := catalog }
  | .update principals => some { state with principals }
  | .proceed =>
      match state.stage with
      | .received request => some { state with stage := handler.receive request }
      | .resolved request identity expiry principal =>
          some { state with
            stage := .pinned request identity expiry principal state.published }
      | .pinned request identity expiry principal catalog =>
          some { state with stage := .evaluate catalog request identity expiry principal }
      | _ => none
  | .lookup answer =>
      match state.stage with
      | .identified request identity expiry =>
          match resolveRequest state.principals identity answer with
          | .error error => some { state with stage := .failed (.principal error) }
          | .ok principal =>
              some { state with stage := .resolved request identity expiry principal }
      | _ => none
  | .deliver now resignNow random =>
      match state.stage with
      | .decided evaluation =>
          some { state with stage := handler.deliver now resignNow random evaluation }
      | _ => none
  | .cached answer =>
      match state.stage, answer with
      | .storing _ _ _, .error _ =>
          some { state with stage := .failed .scopeCacheUnavailable }
      | .storing token encoded resignToken, .ok () =>
          some { state with
            scopes := (token, encoded, handler.scopeDelivery.scopeTokenTtl) :: state.scopes
            stage := .responded (handler.permitted (.token token) resignToken) }
      | _, _ => none

end

end Authguard
