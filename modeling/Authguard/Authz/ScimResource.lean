import Authguard.Common.PrincipalDiscovery
import Authguard.Library.Base64Url
import Authguard.Storage.PrincipalStore

/-!
SCIM resources and their projection to principals
(`authz/src/principal/scim/model.rs`, `scim.rs`). A resource is read from and
written to a JSON object; attributes without a field of their own are kept
beside the fields. Errors of `serde_json` carry no text of their own here.
-/

namespace Authguard
open Text

def userSchema : String := "urn:ietf:params:scim:schemas:core:2.0:User"

def groupSchema : String := "urn:ietf:params:scim:schemas:core:2.0:Group"

def patchSchema : String := "urn:ietf:params:scim:api:messages:2.0:PatchOp"

structure ScimEmail where
  value : String
  primary : Bool

structure ScimMeta where
  resourceType : String
  created : Option String
  lastModified : Option String
  version : Option String
  location : String

structure ScimUserResource where
  schemas : List String
  id : Option String
  externalId : Option String
  userName : String
  displayName : Option String
  active : Option Bool
  emails : List ScimEmail
  metadata : Option ScimMeta
  attributes : SortedMap String Json

structure ScimGroupMember where
  value : String
  reference : Option String
  kind : Option String

structure ScimGroupResource where
  schemas : List String
  id : Option String
  externalId : Option String
  displayName : String
  members : List ScimGroupMember
  metadata : Option ScimMeta
  attributes : SortedMap String Json

inductive ScimPatchVerb
  | add
  | remove
  | replace
  deriving DecidableEq

/-- A missing value reads as `null`. -/
structure ScimPatchOperation where
  op : ScimPatchVerb
  path : Option String
  value : Json

structure ScimPatchRequest where
  schemas : List String
  operations : List ScimPatchOperation

inductive ScimResource
  | user (resource : ScimUserResource)
  | group (resource : ScimGroupResource)

def ScimResource.kind : ScimResource → PrincipalKind
  | .user _ => .user
  | .group _ => .group

/-! The JSON form. -/

section
variable {α : Type}

def optionalField (name : String) (write : α → Json) (value : Option α) :
    List (String × Json) :=
  Json.field name value.isNone (Json.optionJson write value)

def readOptional (read : Json → Option α) (name : String) (fields : List (String × Json)) :
    Option (Option α) :=
  Json.withDefault (Json.toOption read) none name fields

end

def ScimEmail.toJson (email : ScimEmail) : Json :=
  .object [("value", .string email.value), ("primary", .bool email.primary)]

def ScimEmail.fromJson (json : Json) : Option ScimEmail := do
  let fields ← json.asObject
  let value ← Json.required Json.toStr "value" fields
  let primary ← Json.withDefault Json.toBool false "primary" fields
  some { value, primary }

def ScimMeta.toJson (metadata : ScimMeta) : Json :=
  .object ([("resourceType", .string metadata.resourceType)] ++
    optionalField "created" .string metadata.created ++
    optionalField "lastModified" .string metadata.lastModified ++
    optionalField "version" .string metadata.version ++
    [("location", .string metadata.location)])

def ScimMeta.fromJson (json : Json) : Option ScimMeta := do
  let fields ← json.asObject
  let resourceType ← Json.required Json.toStr "resourceType" fields
  let created ← readOptional Json.toStr "created" fields
  let lastModified ← readOptional Json.toStr "lastModified" fields
  let version ← readOptional Json.toStr "version" fields
  let location ← Json.required Json.toStr "location" fields
  some { resourceType, created, lastModified, version, location }

def ScimGroupMember.toJson (member : ScimGroupMember) : Json :=
  .object ([("value", .string member.value)] ++
    optionalField "$ref" .string member.reference ++
    optionalField "type" .string member.kind)

def ScimGroupMember.fromJson (json : Json) : Option ScimGroupMember := do
  let fields ← json.asObject
  let value ← Json.required Json.toStr "value" fields
  let reference ← readOptional Json.toStr "$ref" fields
  let kind ← readOptional Json.toStr "type" fields
  some { value, reference, kind }

/-- What `#[serde(flatten)]` collects: the entries no field of the struct takes. -/
def flattened (names : List String) (object : JsonMap) : JsonMap :=
  names.foldl SortedMap.erase object

def ScimUserResource.fieldNames : List String :=
  ["schemas", "id", "externalId", "userName", "displayName", "active", "emails", "meta"]

def ScimUserResource.toObject (resource : ScimUserResource) : JsonMap :=
  .ofList (Json.field "schemas" false (Json.strings resource.schemas) ++
    optionalField "id" .string resource.id ++
    optionalField "externalId" .string resource.externalId ++
    Json.field "userName" false (.string resource.userName) ++
    optionalField "displayName" .string resource.displayName ++
    optionalField "active" .bool resource.active ++
    Json.field "emails" resource.emails.isEmpty (.array (resource.emails.map ScimEmail.toJson)) ++
    optionalField "meta" ScimMeta.toJson resource.metadata ++
    resource.attributes.entries)

def ScimUserResource.fromObject (object : JsonMap) : Option ScimUserResource := do
  let fields := object.entries
  let schemas ← Json.withDefault (Json.toList Json.toStr) [] "schemas" fields
  let id ← readOptional Json.toStr "id" fields
  let externalId ← readOptional Json.toStr "externalId" fields
  let userName ← Json.required Json.toStr "userName" fields
  let displayName ← readOptional Json.toStr "displayName" fields
  let active ← readOptional Json.toBool "active" fields
  let emails ← Json.withDefault (Json.toList ScimEmail.fromJson) [] "emails" fields
  let metadata ← readOptional ScimMeta.fromJson "meta" fields
  some
    { schemas, id, externalId, userName, displayName, active, emails, metadata,
      attributes := flattened ScimUserResource.fieldNames object }

def ScimGroupResource.fieldNames : List String :=
  ["schemas", "id", "externalId", "displayName", "members", "meta"]

def ScimGroupResource.toObject (resource : ScimGroupResource) : JsonMap :=
  .ofList (Json.field "schemas" false (Json.strings resource.schemas) ++
    optionalField "id" .string resource.id ++
    optionalField "externalId" .string resource.externalId ++
    Json.field "displayName" false (.string resource.displayName) ++
    Json.field "members" resource.members.isEmpty
      (.array (resource.members.map ScimGroupMember.toJson)) ++
    optionalField "meta" ScimMeta.toJson resource.metadata ++
    resource.attributes.entries)

def ScimGroupResource.fromObject (object : JsonMap) : Option ScimGroupResource := do
  let fields := object.entries
  let schemas ← Json.withDefault (Json.toList Json.toStr) [] "schemas" fields
  let id ← readOptional Json.toStr "id" fields
  let externalId ← readOptional Json.toStr "externalId" fields
  let displayName ← Json.required Json.toStr "displayName" fields
  let members ← Json.withDefault (Json.toList ScimGroupMember.fromJson) [] "members" fields
  let metadata ← readOptional ScimMeta.fromJson "meta" fields
  some
    { schemas, id, externalId, displayName, members, metadata,
      attributes := flattened ScimGroupResource.fieldNames object }

def ScimResource.toObject : ScimResource → JsonMap
  | .user resource => resource.toObject
  | .group resource => resource.toObject

/-! Discovery. -/

def requireIdentifier (name value : String) : Except PrincipalDiscoveryError Unit :=
  if isBlank value ∨ trim value ≠ value ∨ 512 < value.utf8ByteSize then
    .error (.invalidQuery (name ++ " must contain 1 to 512 canonical bytes"))
  else
    .ok ()

def requireSchema (schemas : List String) (expected : String) :
    Except PrincipalDiscoveryError Unit :=
  if schemas.contains expected then .ok ()
  else .error (.invalidQuery ("SCIM resource requires schema `" ++ expected ++ "`"))

structure ScimPrincipalDiscovery where
  discoveryId : String
  issuer : String

inductive ScimProvisioningRequest
  | upsertUser (principalId : String) (resource : ScimUserResource)
  | upsertGroup (principalId : String) (resource : ScimGroupResource)
  | delete (principalId : String)

def ScimResource.intoUpsert (principalId : String) : ScimResource → ScimProvisioningRequest
  | .user resource => .upsertUser principalId resource
  | .group resource => .upsertGroup principalId resource

inductive ScimProjectionEvent
  | upsert (principalId : String) (projection : PrincipalProjection)
  | delete (principalId : String)

def ScimPrincipalDiscovery.new (discoveryId issuer : String) :
    Except PrincipalDiscoveryError ScimPrincipalDiscovery := do
  requireIdentifier "SCIM discovery id" discoveryId
  requireIdentifier "SCIM issuer" issuer
  .ok { discoveryId, issuer }

def missingExternalId (resourceType : String) : PrincipalDiscoveryError :=
  .invalidQuery
    ("SCIM " ++ resourceType ++ " externalId is required as the stable external subject")

def groupExternalId (externalId : String) : String :=
  (stripPrefix "group:" externalId).getD externalId

variable (discovery : ScimPrincipalDiscovery)

def ScimPrincipalDiscovery.upsertIdentityKey :
    ScimProvisioningRequest → Except PrincipalDiscoveryError ExternalIdentityKey
  | .upsertUser _ resource =>
      match resource.externalId with
      | none => .error (missingExternalId "User")
      | some subject => .ok ⟨discovery.discoveryId, discovery.issuer, subject⟩
  | .upsertGroup _ resource =>
      match resource.externalId with
      | none => .error (missingExternalId "Group")
      | some externalId =>
          .ok ⟨discovery.discoveryId, discovery.issuer, "group:" ++ groupExternalId externalId⟩
  | .delete _ => .error (.invalidQuery "SCIM deletion has no external identity")

def withSchema (schema : String) (schemas : List String) : List String :=
  if schemas.contains schema then schemas else schema :: schemas

def scimMeta (resourceType location : String) : ScimMeta :=
  { resourceType, created := none, lastModified := none, version := none, location }

/-- The principal and the claims of its identity, put together again. -/
def ScimPrincipalDiscovery.restoreResource (principal : PrincipalRow) (claims : Json) :
    Except PrincipalDiscoveryError ScimResource :=
  match principal.kind with
  | .user =>
      match (objectOf claims).bind ScimUserResource.fromObject with
      | none => .error .json
      | some resource =>
          .ok (.user
            { resource with
              id := some principal.id
              schemas := withSchema userSchema resource.schemas
              active := some (principal.status = .active)
              metadata := some (scimMeta "User" ("/scim/v2/Users/" ++ principal.id)) })
  | .group =>
      match (objectOf claims).bind ScimGroupResource.fromObject with
      | none => .error .json
      | some resource =>
          .ok (.group
            { resource with
              id := some principal.id
              schemas := withSchema groupSchema resource.schemas
              metadata := some (scimMeta "Group" ("/scim/v2/Groups/" ++ principal.id)) })
  | .workload =>
      .error (.invalidQuery "SCIM User/Group endpoint cannot project a WORKLOAD Principal")

/-! PATCH. -/

def isPatchPath (path : String) : Bool :=
  path.toList.all fun c => c.isAlphanum || c = '$'

def applyPatchOperation (object : JsonMap) (operation : ScimPatchOperation) :
    Except PrincipalDiscoveryError JsonMap :=
  match operation.path with
  | none =>
      .error (.invalidQuery "SCIM PATCH operations require a top-level attribute path")
  | some path =>
      if isPatchPath path then
        match operation.op with
        | .remove => .ok (object.erase path)
        | .add | .replace => .ok (object.insert path operation.value)
      else
        .error (.invalidQuery "complex SCIM PATCH paths are not supported")

def ScimPrincipalDiscovery.patch (resource : ScimResource) (patch : ScimPatchRequest) :
    Except PrincipalDiscoveryError ScimResource :=
  if patch.schemas ≠ [patchSchema] then
    .error (.invalidQuery "SCIM PATCH requires the PatchOp schema")
  else
    match resource with
    | .user resource => do
        let object ← patch.operations.foldlM applyPatchOperation resource.toObject
        match ScimUserResource.fromObject object with
        | none => .error .json
        | some patched => .ok (.user patched)
    | .group resource => do
        let object ← patch.operations.foldlM applyPatchOperation resource.toObject
        match ScimGroupResource.fromObject object with
        | none => .error .json
        | some patched => .ok (.group patched)

/-! Projection. -/

/-- `random` are the bytes a new identifier is made of. -/
def principalIdOrNew (random : List UInt8) (value : String) :
    Except PrincipalDiscoveryError String :=
  if value ≠ "" then do
    requireIdentifier "canonical Principal ID" value
    .ok value
  else
    .ok ("P_" ++ Base64Url.encode random)

def ScimPrincipalDiscovery.discover (random : List UInt8) :
    ScimProvisioningRequest → Except PrincipalDiscoveryError ScimProjectionEvent
  | .upsertUser principalId resource => do
      let principalId ← principalIdOrNew random principalId
      requireSchema resource.schemas userSchema
      requireIdentifier "SCIM userName" resource.userName
      match resource.externalId with
      | none => .error (missingExternalId "User")
      | some externalId =>
          requireIdentifier "SCIM User externalId" externalId
          .ok (.upsert principalId
            { providerId := discovery.discoveryId
              issuer := discovery.issuer
              externalId
              kind := .user
              displayName :=
                (resource.displayName.filter fun name => !isBlank name).getD resource.userName
              enabled := resource.active.getD true
              attributes := { resource with id := none, metadata := none }.toObject })
  | .upsertGroup principalId resource => do
      let principalId ← principalIdOrNew random principalId
      requireSchema resource.schemas groupSchema
      requireIdentifier "SCIM Group displayName" resource.displayName
      match resource.externalId with
      | none => .error (missingExternalId "Group")
      | some externalId =>
          requireIdentifier "SCIM Group externalId" (groupExternalId externalId)
          .ok (.upsert principalId
            { providerId := discovery.discoveryId
              issuer := discovery.issuer
              externalId := "group:" ++ groupExternalId externalId
              kind := .group
              displayName := resource.displayName
              enabled := true
              attributes := { resource with id := none, metadata := none }.toObject })
  | .delete principalId => do
      requireIdentifier "canonical Principal ID" principalId
      .ok (.delete principalId)

end Authguard
