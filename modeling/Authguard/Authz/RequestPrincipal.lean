import Authguard.Common.Identity

/-!
Resolution of the identity of a request to stored principals
(`PrincipalHandler::resolve_request` in `authz/src/handler/principal.rs`).
-/

namespace Authguard
open Text

inductive PrincipalHandlerError
  | notFound (id : String)
  | disabled (id : String)
  | kindMismatch (id : String)
  | referenced (id : String)
  | identityConflict
  | providerUnavailable
  | discovery (message : String)
  | storage (message : String)
  deriving DecidableEq

structure ResolvedRequestPrincipal where
  principalId : String
  groupPrincipalIds : List String
  deriving DecidableEq

/-- The rows of `iam_principal`; the identifier is the primary key. -/
structure PrincipalTable where
  rows : List IamPrincipalInfo
  unique : (rows.map (·.id)).Nodup

/-- `find_by_ids`; the order of the rows is lost in the map they are collected into. -/
def PrincipalTable.findByIds (table : PrincipalTable) (ids : List String) :
    List IamPrincipalInfo :=
  table.rows.filter (ids.contains ·.id)

abbrev PrincipalMap := SortedMap String IamPrincipalInfo

/-- The loop over the stable group identifiers; a group that was taken is gone from the map. -/
def takeGroups : List String → PrincipalMap → List String
  | [], _ => []
  | groupId :: groupIds, projected =>
      match projected.get groupId with
      | none => takeGroups groupIds projected
      | some group =>
          let rest := takeGroups groupIds (projected.erase groupId)
          if group.status = .active ∧ group.kind = .group then group.id :: rest else rest

/-- What is made of the rows the repository answers with. -/
def projectPrincipals (identity : AuthenticatedPrincipalContext)
    (found : List IamPrincipalInfo) : Except PrincipalHandlerError ResolvedRequestPrincipal :=
  let projected : PrincipalMap :=
    SortedMap.ofList (found.map fun principal => (principal.id, principal))
  match projected.get identity.principalId with
  | none => .error (.notFound identity.principalId)
  | some primary =>
      if primary.status ≠ .active then
        .error (.disabled primary.id)
      else if primary.kind ≠ identity.kind then
        .error (.kindMismatch primary.id)
      else
        let groups := takeGroups identity.stableGroupIds (projected.erase identity.principalId)
        .ok { principalId := primary.id, groupPrincipalIds := sortDedup groups }

/-- `resolve_request`, given whether the query can be answered. -/
def resolveRequest (table : PrincipalTable) (identity : AuthenticatedPrincipalContext) :
    Except String Unit → Except PrincipalHandlerError ResolvedRequestPrincipal
  | .error message => .error (.storage message)
  | .ok () =>
      projectPrincipals identity
        (table.findByIds (identity.principalId :: identity.stableGroupIds))

end Authguard
