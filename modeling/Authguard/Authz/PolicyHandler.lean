import Authguard.Common.Principal
import Authguard.Authz.CompiledPolicy

/-!
The mutating operations of the policy handler between their await points
(`authz/src/handler/policy/policy.rs`) and the runtime they publish to
(`PolicyRuntime` in `authz/src/handler/policy/mod.rs`). What the operations await,
and in which order, is the subject of the next module.
-/

namespace Authguard
open Text Result

inductive PolicyHandlerError
  | alreadyExists (resource id : String)
  | notFound (resource id : String)
  | idMismatch (resource pathId bodyId : String)
  | principalDisabled (id : String)
  | referenced (resource id referencedBy : String)
  | revisionConflict (expected actual : Nat)
  | invalidRequest (message : String)
  | authorizationPrincipalInactive (id : String)
  | invalidPolicy (error : PolicyError)
  | storage (message : String)
  deriving DecidableEq

/-- What the policy tables hold; the revision is not stored. -/
structure Content where
  actions : List IamActionInfo
  roles : List IamRoleInfo
  roleBindings : List IamRoleBindingInfo
  deriving DecidableEq

def IamPolicyInfo.content (policy : IamPolicyInfo) : Content :=
  ⟨policy.actions, policy.roles, policy.roleBindings⟩

/-- `PolicyRepository::load`. -/
def Content.load (stored : Content) : IamPolicyInfo :=
  { revision := 1, actions := stored.actions, roles := stored.roles,
    roleBindings := stored.roleBindings }

def Content.isEmpty (stored : Content) : Bool :=
  stored.actions.isEmpty && stored.roles.isEmpty && stored.roleBindings.isEmpty

inductive Mutation
  | createRoleBinding (binding : IamRoleBindingInfo)
  | updateRoleBinding (id : String) (binding : IamRoleBindingInfo)
  | deleteRoleBinding (id : String)
  | createAction (action : IamActionInfo)
  | updateAction (id : String) (action : IamActionInfo)
  | deleteAction (id : String)
  | createRole (role : IamRoleInfo)
  | updateRole (id : String) (role : IamRoleInfo)
  | deleteRole (id : String)
  | replace (policy : IamPolicyInfo)
  | reset
  deriving DecidableEq

def ensureMatchingId (resource pathId bodyId : String) : Except PolicyHandlerError Unit :=
  if pathId = bodyId then .ok () else .error (.idMismatch resource pathId bodyId)

def ensureAbsent (ids : List String) (resource id : String) : Except PolicyHandlerError Unit :=
  if ids.contains id then .error (.alreadyExists resource id) else .ok ()

/-- Overwrites the first value with the identifier. -/
def replaceById {α : Type} (resource : String) (values : List α) (id : String)
    (valueId : α → String) (value : α) : Except PolicyHandlerError (List α) :=
  match values.findIdx? (valueId · == id) with
  | none => .error (.notFound resource id)
  | some index => .ok (values.set index value)

def removeById {α : Type} (resource : String) (values : List α) (id : String)
    (valueId : α → String) : Except PolicyHandlerError (List α) :=
  let retained := values.filter (valueId · != id)
  if retained.length = values.length then .error (.notFound resource id) else .ok retained

/-- Checks made before anything is awaited. -/
def Mutation.precheck (expectedRevision : Nat) : Mutation → Except PolicyHandlerError Unit
  | .updateRoleBinding id binding => ensureMatchingId "role binding" id binding.id
  | .updateAction id action => ensureMatchingId "action" id action.identifier
  | .updateRole id role => ensureMatchingId "role" id role.id
  | .replace policy =>
      if expectedRevision = policy.revision then .ok ()
      else .error
        (.invalidRequest "If-Match must equal the policy revision in the request body")
  | _ => .ok ()

/-- The principal that must be active before the write lock is asked for. -/
def Mutation.principalId : Mutation → Option String
  | .createRoleBinding binding | .updateRoleBinding _ binding => some binding.principalId
  | _ => none

/-- The change made to a copy of the current policy, under the write lock. -/
def Mutation.apply (mutation : Mutation) (policy : IamPolicyInfo) :
    Except PolicyHandlerError IamPolicyInfo :=
  match mutation with
  | .createRoleBinding binding => do
      ensureAbsent (policy.roleBindings.map (·.id)) "role binding" binding.id
      .ok { policy with roleBindings := policy.roleBindings ++ [binding] }
  | .updateRoleBinding id binding => do
      let roleBindings ← replaceById "role binding" policy.roleBindings id (·.id) binding
      .ok { policy with roleBindings }
  | .deleteRoleBinding id => do
      let roleBindings ← removeById "role binding" policy.roleBindings id (·.id)
      .ok { policy with roleBindings }
  | .createAction action => do
      ensureAbsent (policy.actions.map (·.identifier)) "action" action.identifier
      .ok { policy with actions := policy.actions ++ [action] }
  | .updateAction id action => do
      let actions ← replaceById "action" policy.actions id (·.identifier) action
      .ok { policy with actions }
  | .deleteAction id =>
      if policy.roles.any (·.actionIds.contains id) then
        .error (.referenced "action" id "a role")
      else do
        let actions ← removeById "action" policy.actions id (·.identifier)
        .ok { policy with actions }
  | .createRole role => do
      ensureAbsent (policy.roles.map (·.id)) "role" role.id
      .ok { policy with roles := policy.roles ++ [role] }
  | .updateRole id role => do
      let roles ← replaceById "role" policy.roles id (·.id) role
      .ok { policy with roles }
  | .deleteRole id =>
      if policy.roleBindings.any (·.roleId == id) then
        .error (.referenced "role" id "a role binding")
      else do
        let roles ← removeById "role" policy.roles id (·.id)
        .ok { policy with roles }
  | .replace replacement => .ok replacement
  | .reset => .ok { policy with actions := [], roles := [], roleBindings := [] }

/-- `require_active_principal`, given the answer of the principal store. -/
def requireActivePrincipal (id : String) :
    Except String (Option PrincipalStatus) → Except PolicyHandlerError Unit
  | .error message => .error (.storage message)
  | .ok none => .error (.notFound "principal" id)
  | .ok (some .disabled) => .error (.principalDisabled id)
  | .ok (some .active) => .ok ()

/-- The principals `replace` looks up, one after the other, under the write lock. -/
def Mutation.bindingPrincipals : Mutation → List String
  | .replace policy => sortDedup (policy.roleBindings.map (·.principalId))
  | _ => []

section
variable [Ipnet]

/-- A catalog that can be published: only compilation makes one. -/
structure Catalog where
  compiled : CompiledPolicy
  valid : ∃ policy revision, CompiledPolicy.compile policy revision = .ok compiled

def Catalog.policy (catalog : Catalog) : IamPolicyInfo := catalog.compiled.policy

def Catalog.revision (catalog : Catalog) : Nat := catalog.policy.revision

def Catalog.content (catalog : Catalog) : Content := catalog.policy.content

def Catalog.compile (policy : IamPolicyInfo) (revision : Nat) : Except PolicyError Catalog :=
  match h : CompiledPolicy.compile policy revision with
  | .error error => .error error
  | .ok compiled => .ok ⟨compiled, policy, revision, h⟩

/-- `PolicyRuntime::new`. -/
def PolicyRuntime.new (policy : IamPolicyInfo) : Except PolicyError Catalog :=
  Catalog.compile policy (max policy.revision 1)

/-- `PolicyHandler::open` up to the storing of a bootstrap policy: the catalog to publish,
and whether it must be stored first. -/
def openHandler (stored : Content) (bootstrap : Option IamPolicyInfo) :
    Except PolicyHandlerError (Catalog × Bool) := do
  let bootstrapped := stored.isEmpty && bootstrap.isSome
  let policy := if bootstrapped then bootstrap.getD stored.load else stored.load
  let catalog ← (PolicyRuntime.new policy).mapError .invalidPolicy
  .ok (catalog, bootstrapped)

def requireRevision (published : Catalog) (expectedRevision : Nat) :
    Except PolicyHandlerError IamPolicyInfo :=
  if published.revision = expectedRevision then .ok published.policy
  else .error (.revisionConflict expectedRevision published.revision)

/-- `persist_and_publish` up to the call of the repository; revisions are 64 bits wide. -/
def prepareReplacement (expectedRevision : Nat) (policy : IamPolicyInfo) :
    Except PolicyHandlerError Catalog :=
  if expectedRevision + 1 < 2 ^ 64 then
    (Catalog.compile policy (expectedRevision + 1)).mapError .invalidPolicy
  else
    .error (.storage "policy revision overflow")

end

end Authguard
