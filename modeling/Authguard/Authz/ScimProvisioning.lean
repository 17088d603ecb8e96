import Authguard.Authz.RequestPrincipal
import Authguard.Authz.ScimResource
import Authguard.Library.Program

/-!
SCIM provisioning (`authz/src/handler/scim.rs` and `upsert_external` in
`principal.rs`) over the principal repository (`common/src/storage/principal_sqlite.rs`,
`principal_postgres.rs`). A request is a program over the calls of the repository;
each call is one statement or one transaction of the database.
-/

namespace Authguard
open Text

/-! The repository. -/

inductive PrincipalCall
  | get (id : String)
  | findByIdentity (key : ExternalIdentityKey)
  | getIdentity (principalId provider : String)
  /-- The statement of `upsert`. -/
  | upsert (principal : PrincipalRow)
  /-- The transaction of `upsert_with_identity`. -/
  | upsertWithIdentity (principal : PrincipalRow) (identity : IamPrincipalIdentityInfo)

/-- `PrincipalIdentityConflict`, or any other error with its text. The text of a broken
constraint is left out. -/
inductive UpsertError
  | conflict
  | backend (message : String)

def PrincipalCall.Answer : PrincipalCall → Type
  | .get _ => Except String (Option PrincipalRow)
  | .findByIdentity _ => Except String (Option PrincipalRow)
  | .getIdentity _ _ => Except String (Option IamPrincipalIdentityInfo)
  | .upsert _ => Except String Unit
  | .upsertWithIdentity _ _ => Except UpsertError Unit

namespace IamDatabase

/-- The rows `get_identity` selects. -/
def identitiesOf (db : IamDatabase) (principalId provider : String) :
    List IamPrincipalIdentityInfo :=
  db.identities.rows.filter fun row => row.principalId = principalId ∧ row.provider = provider

/-- The row the outcome picks, if there is one. -/
def pickIdentity (db : IamDatabase) (principalId provider : String) (row : Nat) :
    Option (Option IamPrincipalIdentityInfo) :=
  match db.identitiesOf principalId provider with
  | [] => some none
  | rows => rows[row]?.map some

def upsert (db : IamDatabase) (principal : PrincipalRow) : Except String (Unit × IamDatabase) :=
  match db.upsertPrincipal principal with
  | .error _ => .error ""
  | .ok written => .ok ((), written)

def upsertWithIdentity (db : IamDatabase) (principal : PrincipalRow)
    (identity : IamPrincipalIdentityInfo) : Except UpsertError (Unit × IamDatabase) :=
  match db.upsertPrincipal principal with
  | .error _ => .error (.backend "")
  | .ok written =>
      match written.upsertIdentity identity with
      | .error _ => .error (.backend "")
      | .ok (bound, affected) => if affected = 1 then .ok ((), bound) else .error .conflict

theorem upsert_principals {db after : IamDatabase} {principal : PrincipalRow}
    (h : db.upsert principal = .ok ((), after)) :
    after.principals = db.principals.upsert principal := by
  simp only [upsert] at h
  split at h
  · cases h
  · rename_i written hwritten
    cases h
    exact (upsertPrincipal_eq_ok hwritten).1

theorem upsertWithIdentity_eq_ok {db after : IamDatabase} {principal : PrincipalRow}
    {identity : IamPrincipalIdentityInfo}
    (h : db.upsertWithIdentity principal identity = .ok ((), after)) :
    after.principals = db.principals.upsert principal ∧
      ∀ key, after.identities.find key =
        if key = identity.key then some identity else db.identities.find key := by
  simp only [upsertWithIdentity] at h
  split at h
  · cases h
  · rename_i written hwritten
    obtain ⟨hprincipals, hidentities⟩ := upsertPrincipal_eq_ok hwritten
    split at h
    · cases h
    · rename_i bound affected hbound
      split at h
      · rename_i haffected
        cases h
        subst haffected
        constructor
        · rw [upsertIdentity_principals hbound, hprincipals]
        · intro key
          rw [upsertIdentity_eq_ok hbound key, hidentities]
      · cases h

end IamDatabase

def PrincipalCall.exec (call : PrincipalCall) (outcome : StoreOutcome) (db : IamDatabase) :
    Option (call.Answer × IamDatabase) :=
  match call with
  | .get principalId => some (readCall db id (db.principals.find principalId) outcome)
  | .findByIdentity key => some (readCall db id (db.findPrincipalByIdentity key) outcome)
  | .getIdentity principalId provider =>
      match outcome with
      | .answered row =>
          (db.pickIdentity principalId provider row).map fun found => (.ok found, db)
      | .failed message | .lost message => some (.error message, db)
  | .upsert principal =>
      some (writeCall db id (db.upsert principal) outcome)
  | .upsertWithIdentity principal identity =>
      some (writeCall db .backend (db.upsertWithIdentity principal identity) outcome)

/-! The handler. -/

abbrev ScimProgram := Program PrincipalCall PrincipalCall.Answer PrincipalHandlerError

structure PrincipalHandler where
  backend : Backend
  scim : Option ScimPrincipalDiscovery

def ScimProgram.discover {α : Type} : Except PrincipalDiscoveryError α → ScimProgram α
  | .ok value => .ok value
  | .error error => .fail (.discovery error.toString)

namespace PrincipalHandler

/-- `PrincipalHandlerError::Storage` of what the repository answers. -/
def stored {α : Type} : Except String α → ScimProgram α
  | .ok value => .ok value
  | .error message => .fail (.storage message)

def get (id : String) : ScimProgram (Option PrincipalRow) := .call (.get id) stored

def findByIdentity (key : ExternalIdentityKey) : ScimProgram (Option PrincipalRow) :=
  .call (.findByIdentity key) stored

def getIdentity (principalId provider : String) :
    ScimProgram (Option IamPrincipalIdentityInfo) :=
  .call (.getIdentity principalId provider) stored

def validatePrincipal (principal : PrincipalRow) : ScimProgram Unit :=
  if isBlank principal.id ∨ isBlank principal.displayName then
    .fail (.storage "IAM principal ID and display name must not be empty")
  else
    .ok ()

variable (handler : PrincipalHandler)

/-- SQLite reads the row again; PostgreSQL returns it from the statement. -/
def readBack (principal : PrincipalRow) : ScimProgram PrincipalRow :=
  match handler.backend with
  | .postgres => .ok principal
  | .sqlite => do
      match ← get principal.id with
      | none => .fail (.storage "upserted IAM principal is missing")
      | some found => .ok found

def upsertContext : String :=
  match handler.backend with
  | .sqlite => "upsert IAM principal"
  | .postgres => "upsert IAM principal projection"

/-- What the statement answers, under the context it is reported with. -/
def upserted : Except String Unit → ScimProgram Unit
  | .error _ => .fail (.storage handler.upsertContext)
  | .ok () => .ok ()

def upsert (principal : PrincipalRow) : ScimProgram PrincipalRow := do
  validatePrincipal principal
  .call (.upsert principal) handler.upserted
  handler.readBack principal

def mapStorageError : Except UpsertError Unit → ScimProgram Unit
  | .error .conflict => .fail .identityConflict
  | .error (.backend message) => .fail (.storage message)
  | .ok () => .ok ()

def upsertExternal (principalId : String) (projection : PrincipalProjection) :
    ScimProgram PrincipalRow := do
  let principal : PrincipalRow :=
    { id := principalId
      kind := projection.kind
      displayName := projection.displayName
      status := if projection.enabled then .active else .disabled
      authorizationState := .empty }
  let identity : IamPrincipalIdentityInfo :=
    { principalId
      provider := projection.providerId
      issuer := projection.issuer
      subject := projection.externalId
      claims := .object projection.attributes.entries }
  validatePrincipal principal
  .call (.upsertWithIdentity principal identity) mapStorageError
  handler.readBack principal

/-- The administrative change of a status: one statement, and what is answered. -/
def updateStatus (db : IamDatabase) (id : String) (status : PrincipalStatus) :
    StoreOutcome → Except PrincipalHandlerError PrincipalRow × IamDatabase
  | .answered _ =>
      match db.updateStatus id status with
      | none => (.error (.notFound id), db)
      | some (updated, after) => (.ok updated, after)
  | .failed message => (.error (.storage message), db)
  | .lost message =>
      match db.updateStatus id status with
      | none => (.error (.storage message), db)
      | some (_, after) => (.error (.storage message), after)

end PrincipalHandler

/-- The mark a SCIM deletion leaves on the principal. -/
def PrincipalRow.scimDeleted (principal : PrincipalRow) : Bool :=
  match principal.authorizationState.get "scimDeleted" with
  | some (.bool true) => true
  | _ => false

namespace PrincipalHandler

variable (handler : PrincipalHandler)

def applyScimProjection : ScimProjectionEvent → ScimProgram (Option PrincipalRow)
  | .upsert principalId projection => do
      let principal ← handler.upsertExternal principalId projection
      .ok (some principal)
  | .delete principalId => do
      match ← get principalId with
      | none => .ok none
      | some principal =>
          let deleted ← handler.upsert
            { principal with
              status := .disabled
              authorizationState :=
                principal.authorizationState.insert "scimDeleted" (.bool true) }
          .ok (some deleted)

def scimDiscovery : ScimProgram ScimPrincipalDiscovery :=
  match handler.scim with
  | none => .fail .providerUnavailable
  | some discovery => .ok discovery

end PrincipalHandler

def ScimProvisioningRequest.principalIdMissing : ScimProvisioningRequest → Bool
  | .upsertUser principalId _ | .upsertGroup principalId _ => principalId = ""
  | .delete _ => false

def ScimProvisioningRequest.withPrincipal (id : String) :
    ScimProvisioningRequest → ScimProvisioningRequest
  | .upsertUser _ resource => .upsertUser id resource
  | .upsertGroup _ resource => .upsertGroup id resource
  | .delete principalId => .delete principalId

/-- `binding.claims.get("schemas").is_some()`. -/
def scimManaged : Option IamPrincipalIdentityInfo → Bool
  | none => false
  | some binding => (binding.claims.asObject.bind (·.lookup "schemas")).isSome

namespace PrincipalHandler

variable (handler : PrincipalHandler)

/-- A resource without an identifier takes over the principal its identity is bound to,
unless SCIM manages that principal already. -/
def adopt (discovery : ScimPrincipalDiscovery) (request : ScimProvisioningRequest) :
    ScimProgram ScimProvisioningRequest := do
  let identity ← ScimProgram.discover (discovery.upsertIdentityKey request)
  match ← findByIdentity identity with
  | none => .ok request
  | some principal =>
      let binding ← getIdentity principal.id identity.provider
      if scimManaged binding && !principal.scimDeleted then
        .fail .identityConflict
      else
        .ok (request.withPrincipal principal.id)

def provisionScim (random : List UInt8) (request : ScimProvisioningRequest) :
    ScimProgram (Option PrincipalRow) := do
  let discovery ← handler.scimDiscovery
  let request ← if request.principalIdMissing then adopt discovery request else .ok request
  let event ← ScimProgram.discover (discovery.discover random request)
  handler.applyScimProjection event

def getScim (principalId : String) (expectedKind : PrincipalKind) :
    ScimProgram ScimResource := do
  let discovery ← handler.scimDiscovery
  match ← get principalId with
  | none => .fail (.notFound principalId)
  | some principal =>
      if principal.scimDeleted ∨ principal.kind ≠ expectedKind then
        .fail (.notFound principalId)
      else
        match ← getIdentity principalId discovery.discoveryId with
        | none => .fail (.notFound principalId)
        | some identity =>
            ScimProgram.discover (ScimPrincipalDiscovery.restoreResource principal identity.claims)

def upsertScim (principalId : String) (resource : ScimResource) (replace : Bool)
    (random : List UInt8) : ScimProgram ScimResource := do
  if replace then
    let _ ← handler.getScim principalId resource.kind
  match ← handler.provisionScim random (resource.intoUpsert principalId) with
  | none => .fail (.notFound "SCIM resource")
  | some principal => handler.getScim principal.id resource.kind

def deleteScim (principalId : String) (kind : PrincipalKind) : ScimProgram Unit := do
  let _ ← handler.getScim principalId kind
  let _ ← handler.provisionScim [] (.delete principalId)
  .ok ()

def patchScim (principalId : String) (expectedKind : PrincipalKind) (patch : ScimPatchRequest)
    (random : List UInt8) : ScimProgram ScimResource := do
  let current ← handler.getScim principalId expectedKind
  let patched ← ScimProgram.discover (ScimPrincipalDiscovery.patch current patch)
  let _ ← handler.provisionScim random (patched.intoUpsert principalId)
  handler.getScim principalId expectedKind

end PrincipalHandler

/-! The endpoints (`authz/src/route/scim.rs`). -/

/-- `random` are the bytes an identifier would be made of. -/
inductive ScimRequest
  | create (resource : ScimResource) (random : List UInt8)
  | put (principalId : String) (resource : ScimResource) (random : List UInt8)
  | patch (principalId : String) (kind : PrincipalKind) (patch : ScimPatchRequest)
      (random : List UInt8)
  | delete (principalId : String) (kind : PrincipalKind)

inductive ScimReply
  | resource (resource : ScimResource)
  | noContent

def PrincipalHandler.serve (handler : PrincipalHandler) : ScimRequest → ScimProgram ScimReply
  | .create resource random => do
      let created ← handler.upsertScim "" resource false random
      .ok (.resource created)
  | .put principalId resource random => do
      let replaced ← handler.upsertScim principalId resource true random
      .ok (.resource replaced)
  | .patch principalId kind patch random => do
      let patched ← handler.patchScim principalId kind patch random
      .ok (.resource patched)
  | .delete principalId kind => do
      handler.deleteScim principalId kind
      .ok .noContent

/-- Any number of SCIM requests over one database. -/
abbrev ScimPool :=
  Pool PrincipalCall PrincipalCall.Answer PrincipalHandlerError ScimReply ScimRequest IamDatabase

abbrev ScimEvent := PoolEvent ScimRequest StoreOutcome

def PrincipalHandler.scimStep (handler : PrincipalHandler) : ScimPool → ScimEvent → Option ScimPool :=
  Pool.step handler.serve fun _ => PrincipalCall.exec

end Authguard
