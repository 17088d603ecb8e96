import Authguard.Common.PrincipalDiscovery

/-!
The Keycloak connector (`authz/src/principal/keycloak/keycloak.rs`, `model.rs`).
A request names its endpoint and its parameters; the bearer token is either there
or the error that kept it away. Mail address and user name of a projection are
left out.
-/

namespace Authguard
open Text PrincipalSearchQuery

structure KeycloakUser where
  id : Option String
  username : Option String
  firstName : Option String
  lastName : Option String
  email : Option String
  enabled : Option Bool
  serviceAccountClientId : Option String
  attributes : JsonMap

structure KeycloakGroup where
  id : Option String
  name : Option String
  path : Option String
  attributes : JsonMap

/-- The page size is checked when the connector is made. -/
structure KeycloakPrincipalDiscovery where
  providerId : String
  issuer : String
  maxPageSize : Nat
  maxPageSize_valid : 1 ≤ maxPageSize ∧ maxPageSize ≤ PrincipalSearchQuery.maxPageSize

inductive KeycloakEndpoint
  | users
  | groups
  deriving DecidableEq

/-- `id` is the segment a resolution adds to the endpoint. -/
structure KeycloakRequest where
  endpoint : KeycloakEndpoint
  id : Option String
  query : List (String × String)

/-- A status and the representations of the body, if they can be read. -/
structure KeycloakResponse where
  status : Nat
  users : Option (List KeycloakUser)
  groups : Option (List KeycloakGroup)

/-- The admin interface: a bearer token, and what the requests answer. -/
structure KeycloakAdmin where
  bearerToken : Except PrincipalDiscoveryError String
  send : KeycloakRequest → Except String KeycloakResponse

namespace KeycloakPrincipalDiscovery

variable (discovery : KeycloakPrincipalDiscovery)

def invalidResponse (message : String) : PrincipalDiscoveryError :=
  .invalidResponse discovery.providerId message

def token (admin : KeycloakAdmin) : Except PrincipalDiscoveryError String := do
  let token ← admin.bearerToken
  if isCanonical token then .ok token else .error (.authentication discovery.providerId)

/-- Service accounts may be known by their reserved user name only. -/
def isServiceAccount (user : KeycloakUser) : Bool :=
  user.serviceAccountClientId.any (fun clientId => !isBlank clientId) ||
    (user.username.bind (stripPrefix "service-account-")).any (· ≠ "")

def fullName (user : KeycloakUser) : String :=
  String.intercalate " "
    ((user.firstName.toList ++ user.lastName.toList).filter fun part => !isBlank part)

def mapUser (user : KeycloakUser) : Except PrincipalDiscoveryError PrincipalProjection :=
  match user.id.filter isCanonical with
  | none => .error (discovery.invalidResponse "user representation has no canonical id")
  | some externalId =>
      .ok
        { providerId := discovery.providerId
          issuer := discovery.issuer
          externalId
          kind := if isServiceAccount user then .workload else .user
          displayName :=
            if fullName user = "" then (user.username.or user.email).getD externalId
            else fullName user
          enabled := user.enabled.getD false
          attributes := user.attributes }

def mapGroup (group : KeycloakGroup) : Except PrincipalDiscoveryError PrincipalProjection :=
  match group.id.filter isCanonical with
  | none => .error (discovery.invalidResponse "group representation has no canonical id")
  | some groupId =>
      .ok
        { providerId := discovery.providerId
          issuer := discovery.issuer
          externalId := "group:" ++ groupId
          kind := .group
          displayName := (group.name.filter fun name => !isBlank name).getD groupId
          enabled := true
          attributes :=
            match group.path with
            | none => group.attributes
            | some path => group.attributes.insert "keycloak.group_path" (.string path) }

/-- The status of a response, checked as any other. -/
def checked (operation : String) (response : KeycloakResponse) :
    Except PrincipalDiscoveryError Unit :=
  ensureSuccess discovery.providerId operation ⟨response.status, none⟩

def exchanged (operation : String) :
    Except String KeycloakResponse → Except PrincipalDiscoveryError KeycloakResponse
  | .error reason => .error (.transport discovery.providerId operation reason)
  | .ok response => .ok response

variable (admin : KeycloakAdmin)

def searchGroups (query : PrincipalSearchQuery) :
    Except PrincipalDiscoveryError PrincipalSearchPage := do
  let offset ← query.offsetCursor discovery.providerId "groups"
  let limit := min query.perProviderLimit discovery.maxPageSize
  let _ ← discovery.token admin
  let response ← discovery.exchanged "search_groups" (admin.send
    { endpoint := .groups
      id := none
      query := [("search", trim query.text), ("first", offset.repr), ("max", limit.repr),
        ("briefRepresentation", "false")] })
  discovery.checked "search_groups" response
  match response.groups with
  | none => .error (discovery.invalidResponse "group search response is not a valid group array")
  | some groups =>
      let principals ← Result.collect discovery.mapGroup groups
      .ok
        { principals
          nextCursors :=
            nextCursor (cursorKey discovery.providerId "groups") offset limit groups.length }

/-- A search for workloads only asks for the exact user name. -/
def usersQuery (query : PrincipalSearchQuery) (offset limit : Nat) : List (String × String) :=
  [("first", offset.repr), ("max", limit.repr), ("briefRepresentation", "false")] ++
    if query.supportsKind .workload && !query.supportsKind .user then
      [("username", trim query.text), ("exact", "true")]
    else
      [("search", trim query.text), ("exact", "false")]

def searchUsers (query : PrincipalSearchQuery) :
    Except PrincipalDiscoveryError PrincipalSearchPage := do
  let offset ← query.offsetCursor discovery.providerId "users"
  let limit := min query.perProviderLimit discovery.maxPageSize
  let _ ← discovery.token admin
  let response ← discovery.exchanged "search_users"
    (admin.send { endpoint := .users, id := none, query := usersQuery query offset limit })
  discovery.checked "search_users" response
  match response.users with
  | none => .error (discovery.invalidResponse "user search response is not a valid user array")
  | some users =>
      let principals ← Result.collect discovery.mapUser users
      .ok
        { principals := principals.filter fun principal => query.supportsKind principal.kind
          nextCursors :=
            nextCursor (cursorKey discovery.providerId "users") offset limit users.length }

/-- The two searches are made at once; where both fail, either may be reported. -/
def discover (query : PrincipalSearchQuery) :
    Except PrincipalDiscoveryError PrincipalSearchPage := do
  validateSearchQuery query
  let searchUsers := query.supportsKind .user || query.supportsKind .workload
  let searchGroups := query.supportsKind .group
  match searchUsers, searchGroups with
  | true, true =>
      let users ← discovery.searchUsers admin query
      let groups ← discovery.searchGroups admin query
      .ok (users.extend groups)
  | true, false => discovery.searchUsers admin query
  | false, true => discovery.searchGroups admin query
  | false, false => .ok .empty

/-- The representation of a resolved group, or of a user. -/
def mapResolved (group : Bool) (response : KeycloakResponse) :
    Except PrincipalDiscoveryError PrincipalProjection :=
  if group then
    match response.groups with
    | some [found] => discovery.mapGroup found
    | _ => .error (discovery.invalidResponse "resolve response is not a valid group")
  else
    match response.users with
    | some [found] => discovery.mapUser found
    | _ => .error (discovery.invalidResponse "resolve response is not a valid user")

def resolvePrincipal (reference : ExternalPrincipalRef) :
    Except PrincipalDiscoveryError (Option PrincipalProjection) :=
  if reference.providerId ≠ discovery.providerId then
    .error (.unknownProvider reference.providerId)
  else if reference.issuer ≠ discovery.issuer then
    .error (.invalidQuery "principal issuer does not match provider issuer")
  else if !isCanonical reference.externalId then
    .error (.invalidQuery "principal external_id must be canonical and non-empty")
  else
    let groupId := stripPrefix "group:" reference.externalId
    if groupId = some "" then
      .error (.invalidQuery "group external_id must include the provider group id")
    else do
      let _ ← discovery.token admin
      let response ← discovery.exchanged "resolve" (admin.send
        { endpoint := if groupId.isSome then .groups else .users
          id := some (groupId.getD reference.externalId)
          query := [] })
      if response.status = 404 then
        .ok none
      else
        discovery.checked "resolve" response
        let principal ← discovery.mapResolved groupId.isSome response
        if principal.externalId ≠ reference.externalId then
          .error (discovery.invalidResponse "resolved principal external_id does not match request")
        else
          .ok (some principal)

def provider : SearchProvider where
  providerId := discovery.providerId
  discover := discovery.discover admin
  resolvePrincipal := discovery.resolvePrincipal admin

end KeycloakPrincipalDiscovery

end Authguard
