import Authguard.Authz.PolicyHandler
import Authguard.Authz.RequestPrincipal

/-!
The explicit authorization API (`PolicyHandler::authorize_request` in
`authz/src/handler/policy/policy.rs`), beside what the gateway makes of the same
question: `resolve_request` first, and the catalog with the groups it resolved.
-/

namespace Authguard
open Text Result

structure AuthorizeRequest where
  principalId : String
  groupPrincipalIds : List String
  action : String
  resourceUrn : String
  parentUrns : List String
  context : EvaluationContext

abbrev AuthorizeResponse := AuthorizationDecision

def parseResourceUrn (urn : String) : Except PolicyHandlerError ResourceUrn :=
  (ResourceUrn.fromStr urn).mapError fun error => .invalidRequest error.message

/-- The question a request asks, with the groups as they were given. -/
def AuthorizeRequest.question (request : AuthorizeRequest) :
    Except PolicyHandlerError AuthorizationRequest := do
  let resourceUrn ← parseResourceUrn request.resourceUrn
  let parentUrns ← collect parseResourceUrn request.parentUrns
  .ok
    { principalId := request.principalId
      groupPrincipalIds := request.groupPrincipalIds
      action := request.action
      resourceUrn
      parentUrns
      context := request.context }

def PrincipalTable.get (table : PrincipalTable) (id : String) : Option IamPrincipalInfo :=
  table.rows.find? (·.id = id)

section
variable [Ipnet]

/-- `found` is what the repository answers to the lookup of the principal. -/
def authorizeRequest (catalog : Catalog) (found : Except String (Option IamPrincipalInfo))
    (request : AuthorizeRequest) : Except PolicyHandlerError AuthorizeResponse :=
  if isBlank request.principalId ∨ isBlank request.action ∨ isBlank request.resourceUrn then
    .error (.invalidRequest "principal_id, action, and resource_urn are required")
  else do
    let question ← request.question
    let principal ← found.mapError .storage
    if principal.any (·.status = .active) then
      .ok (catalog.compiled.authorize question)
    else
      .error (.authorizationPrincipalInactive request.principalId)

/-- The API allows the request. -/
def apiAllows (catalog : Catalog) (table : PrincipalTable) (request : AuthorizeRequest) : Bool :=
  (authorizeRequest catalog (.ok (table.get request.principalId)) request).toOption.any (·.allowed)

/-- The identity of a stored principal that presents the groups. -/
def IamPrincipalInfo.presenting (principal : IamPrincipalInfo) (groups : List String) :
    AuthenticatedPrincipalContext where
  principalId := principal.id
  kind := principal.kind
  stableGroupIds := groups
  trustedClaims := .empty
  acr := none
  amr := []

/-- The gateway allows the question, for the principal as it is stored. -/
def gatewayAllows (catalog : Catalog) (table : PrincipalTable) (question : AuthorizationRequest) :
    Bool :=
  match table.get question.principalId with
  | none => false
  | some principal =>
      match resolveRequest table (principal.presenting question.groupPrincipalIds) (.ok ()) with
      | .error _ => false
      | .ok resolved =>
          (catalog.compiled.authorize
            { question with
              principalId := resolved.principalId
              groupPrincipalIds := resolved.groupPrincipalIds }).allowed

end

end Authguard
