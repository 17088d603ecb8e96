import Authguard.Common.PolicyUrn
import Authguard.Common.Condition

/-!
The authorization catalog and the requests it answers (`common/src/model/role.rs`
and `common/src/model/policy.rs`).
-/

namespace Authguard

structure HttpRouteMatcher where
  id : String
  methods : List String := []
  hosts : List String := []
  path : String
  resourceUrn : String
  parentUrns : List String := []
  deriving DecidableEq

structure IamActionInfo where
  identifier : String
  description : String := ""
  routeMatchers : List HttpRouteMatcher := []
  deriving DecidableEq

structure IamRoleInfo where
  id : String
  name : String
  description : String := ""
  actionIds : List String := []
  deriving DecidableEq

inductive Effect
  | allow
  | deny
  deriving DecidableEq

def Effect.asStr : Effect → String
  | .allow => "ALLOW"
  | .deny => "DENY"

structure IamRoleBindingInfo where
  id : String
  principalId : String
  roleId : String
  effect : Effect
  resourceUrn : String
  conditions : AuthorizationConditionSpec := {}
  deriving DecidableEq

structure IamPolicyInfo where
  revision : Nat := 0
  actions : List IamActionInfo := []
  roles : List IamRoleInfo := []
  roleBindings : List IamRoleBindingInfo := []
  deriving DecidableEq

structure AuthorizationRequest where
  principalId : String
  groupPrincipalIds : List String := []
  action : String
  resourceUrn : ResourceUrn
  parentUrns : List ResourceUrn := []
  context : EvaluationContext := {}
  deriving DecidableEq

structure AuthorizationDecision where
  allowed : Bool
  reason : String
  roleBindingId : Option String
  deriving DecidableEq

structure AuthorizationScope where
  allowResourceUrns : List String
  denyResourceUrns : List String
  deriving DecidableEq

end Authguard
