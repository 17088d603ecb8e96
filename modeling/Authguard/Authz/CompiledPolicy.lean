import Mathlib
import Authguard.Common.HttpMatcher

/-!
Compilation and evaluation of an authorization policy
(`authz/src/handler/policy/mod.rs`).
-/

namespace Authguard
open Text Result

inductive PolicyError
  | duplicateAction (id : String)
  | duplicateRole (id : String)
  | duplicateRoleBinding (id : String)
  | duplicateRouteMatcher (id : String)
  | unknownAction (roleId actionId : String)
  | unknownRole (bindingId roleId : String)
  | invalidPrincipal (bindingId : String)
  | invalidBindingUrn (bindingId message : String)
  | invalidBindingCondition (bindingId message : String)
  | invalidHttpRoute (error : HttpMappingError)
  deriving DecidableEq

variable [Ipnet]

structure CompiledRoleBinding where
  id : String
  principalId : String
  actionIds : Finset String
  effect : Effect
  resourceUrn : UrnPattern
  conditions : AuthorizationConditions

structure CompiledPolicy where
  policy : IamPolicyInfo
  roleBindings : List CompiledRoleBinding
  routes : List CompiledHttpRoute

/-! Evaluation. -/

def principalMatches (binding : CompiledRoleBinding) (principalId : String)
    (groupPrincipalIds : List String) : Bool :=
  binding.principalId == principalId || groupPrincipalIds.contains binding.principalId

def CompiledRoleBinding.applies (binding : CompiledRoleBinding)
    (request : AuthorizationRequest) : Bool :=
  principalMatches binding request.principalId request.groupPrincipalIds &&
    binding.resourceUrn.matchesAny (request.resourceUrn :: request.parentUrns) &&
    decide (request.action ∈ binding.actionIds) &&
    binding.conditions.matches request.context

/-- The loop of `authorize` from the binding at hand on, with the last allow seen so far. -/
def authorizeFrom (request : AuthorizationRequest) :
    List CompiledRoleBinding → Option String → AuthorizationDecision
  | [], none =>
      { allowed := false, reason := "default deny", roleBindingId := none }
  | [], some id =>
      { allowed := true, reason := "matched role binding", roleBindingId := some id }
  | binding :: bindings, allow =>
      if !binding.applies request then
        authorizeFrom request bindings allow
      else if binding.effect = .deny then
        { allowed := false, reason := "explicit deny", roleBindingId := some binding.id }
      else
        authorizeFrom request bindings (some binding.id)

def CompiledPolicy.authorize (catalog : CompiledPolicy) (request : AuthorizationRequest) :
    AuthorizationDecision :=
  authorizeFrom request catalog.roleBindings none

def CompiledRoleBinding.inScope (binding : CompiledRoleBinding) (principalId : String)
    (groupPrincipalIds : List String) (action : String) (context : EvaluationContext) : Bool :=
  principalMatches binding principalId groupPrincipalIds &&
    decide (action ∈ binding.actionIds) && binding.conditions.matches context

def CompiledPolicy.authorizationScope (catalog : CompiledPolicy) (principalId : String)
    (groupPrincipalIds : List String) (action : String) (context : EvaluationContext) :
    AuthorizationScope :=
  let bindings := catalog.roleBindings.filter
    (·.inScope principalId groupPrincipalIds action context)
  let targets effect := (bindings.filter (·.effect = effect)).map (·.resourceUrn.display)
  { allowResourceUrns := sortDedup (targets .allow)
    denyResourceUrns := sortDedup (targets .deny) }

def CompiledPolicy.resolveHttpRoute (catalog : CompiledPolicy) (method host path : String)
    (claims : TemplateValues) : Except HttpMappingError ResolvedHttpRoute :=
  resolveRoute catalog.routes method host path claims

/-! Compilation. -/

def validateUniqueFrom (error : String → PolicyError) :
    List String → List String → Except PolicyError Unit
  | [], _ => .ok ()
  | value :: values, seen =>
      if isBlank value || seen.contains value then .error (error value)
      else validateUniqueFrom error values (value :: seen)

def validateUnique (values : List String) (error : String → PolicyError) :
    Except PolicyError Unit :=
  validateUniqueFrom error values []

def validateRoleActions (actionIds : List String) (role : IamRoleInfo) :
    Except PolicyError Unit :=
  match role.actionIds.find? (!actionIds.contains ·) with
  | none => .ok ()
  | some actionId => .error (.unknownAction role.id actionId)

/-- The last entry of a key wins when a hash map is collected. -/
def roleTable (roles : List IamRoleInfo) (roleId : String) : Option IamRoleInfo :=
  roles.reverse.find? (·.id == roleId)

def compileRoleBinding (roles : String → Option IamRoleInfo) (binding : IamRoleBindingInfo) :
    Except PolicyError CompiledRoleBinding :=
  if isBlank binding.principalId then
    .error (.invalidPrincipal binding.id)
  else
    match roles binding.roleId with
    | none => .error (.unknownRole binding.id binding.roleId)
    | some role => do
        let resourceUrn ← (UrnPattern.fromStr binding.resourceUrn).mapError fun error =>
          .invalidBindingUrn binding.id error.message
        let conditions ← binding.conditions.compile.mapError fun message =>
          .invalidBindingCondition binding.id message
        .ok { id := binding.id, principalId := binding.principalId,
              actionIds := role.actionIds.toFinset, effect := binding.effect,
              resourceUrn, conditions }

/-- Every matcher of the policy with the action that owns it. -/
def IamPolicyInfo.ownedMatchers (policy : IamPolicyInfo) : List (String × HttpRouteMatcher) :=
  policy.actions.flatMap fun action =>
    action.routeMatchers.map fun routeMatcher => (action.identifier, routeMatcher)

def CompiledPolicy.compile (policy : IamPolicyInfo) (revision : Nat) :
    Except PolicyError CompiledPolicy := do
  let policy := { policy with revision }
  validateUnique (policy.actions.map (·.identifier)) .duplicateAction
  validateUnique (policy.roles.map (·.id)) .duplicateRole
  validateUnique (policy.roleBindings.map (·.id)) .duplicateRoleBinding
  validateUnique (policy.actions.flatMap fun action => action.routeMatchers.map (·.id))
    .duplicateRouteMatcher
  let _ ← collect (validateRoleActions (policy.actions.map (·.identifier))) policy.roles
  let roleBindings ← collect (compileRoleBinding (roleTable policy.roles)) policy.roleBindings
  let routes ← collect (fun owned : String × HttpRouteMatcher =>
    (CompiledHttpRoute.compile owned.1 owned.2).mapError .invalidHttpRoute) policy.ownedMatchers
  .ok { policy, roleBindings, routes }

end Authguard
