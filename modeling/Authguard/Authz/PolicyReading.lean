import Authguard.Authz.PolicyHandler

/-!
What the policy handler reads back (`authz/src/handler/policy/policy.rs`): whole
collections, single resources and counts, each with the revision of the catalog
it was read from.
-/

namespace Authguard

structure ResourceCollection (α : Type) where
  policyRevision : Nat
  total : Nat
  items : List α

structure ResourceItem (α : Type) where
  policyRevision : Nat
  resource : α

def ResourceCollection.new {α : Type} (policyRevision : Nat) (items : List α) :
    ResourceCollection α :=
  ⟨policyRevision, items.length, items⟩

structure AuthorizationStatus where
  status : String
  policyRevision : Nat
  actions : Nat
  roles : Nat
  roleBindings : Nat
  routeMatchers : Nat

def findItem {α : Type} (policyRevision : Nat) (items : List α) (resource id : String)
    (itemId : α → String) : Except PolicyHandlerError (ResourceItem α) :=
  match items.find? (itemId · == id) with
  | none => .error (.notFound resource id)
  | some item => .ok ⟨policyRevision, item⟩

namespace Catalog
variable [Ipnet]

def actions (catalog : Catalog) : ResourceCollection IamActionInfo :=
  .new catalog.revision catalog.policy.actions

def roles (catalog : Catalog) : ResourceCollection IamRoleInfo :=
  .new catalog.revision catalog.policy.roles

def roleBindings (catalog : Catalog) : ResourceCollection IamRoleBindingInfo :=
  .new catalog.revision catalog.policy.roleBindings

def actionItem (catalog : Catalog) (id : String) :
    Except PolicyHandlerError (ResourceItem IamActionInfo) :=
  findItem catalog.revision catalog.policy.actions "action" id (·.identifier)

def roleItem (catalog : Catalog) (id : String) :
    Except PolicyHandlerError (ResourceItem IamRoleInfo) :=
  findItem catalog.revision catalog.policy.roles "role" id (·.id)

def roleBindingItem (catalog : Catalog) (id : String) :
    Except PolicyHandlerError (ResourceItem IamRoleBindingInfo) :=
  findItem catalog.revision catalog.policy.roleBindings "role binding" id (·.id)

def status (catalog : Catalog) : AuthorizationStatus where
  status := "ok"
  policyRevision := catalog.revision
  actions := catalog.policy.actions.length
  roles := catalog.policy.roles.length
  roleBindings := catalog.policy.roleBindings.length
  routeMatchers := (catalog.policy.actions.map (·.routeMatchers.length)).sum

end Catalog

end Authguard
