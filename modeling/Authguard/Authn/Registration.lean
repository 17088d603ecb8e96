import Authguard.Authn.StandaloneLogin

/-!
The registration of a standalone account (`authn/src/handler/standalone.rs`) and
the rollback of the binding it made (`authn/src/principal/jit.rs`,
`common/src/storage/principal_sqlite.rs`, `principal_postgres.rs`), with how the
calls of one request may end.
-/

namespace Authguard
open Text

/-! The store. -/

namespace StandaloneStore

/-- The foreign key of `iam_standalone_credential`. -/
def References (store : StandaloneStore) : Prop :=
  ∀ row ∈ store.credentials.rows, (store.iam.identities.find row.identity).isSome

/-- The credentials of a deleted binding go with it (`ON DELETE CASCADE`). -/
def rollbackIdentityBinding (store : StandaloneStore) (principalId : String)
    (identity : ExternalIdentityKey) : StandaloneStore :=
  let deleted := (store.iam.identities.find identity).any (·.principalId = principalId)
  { store with
    iam := (store.iam.deleteIdentity principalId identity).deleteUnbound principalId
    credentials :=
      if deleted then store.credentials.filter fun row => row.identity ≠ identity
      else store.credentials }

end StandaloneStore

/-! The calls. -/

inductive RegistrationCall
  | standalone (call : StandaloneCall)
  | rollbackIdentityBinding (principalId : String) (identity : ExternalIdentityKey)

def RegistrationCall.Answer : RegistrationCall → Type
  | .standalone call => call.Answer
  | .rollbackIdentityBinding _ _ => Except IdentityRepositoryError Unit

/-- How the calls of one request end: what the database makes of each call of a repository,
and the moment of each call. -/
structure RequestOutcomes where
  repository : RegistrationCall → StoreOutcome
  clock : RegistrationCall → Nat

namespace RequestOutcomes

variable (outcomes : RequestOutcomes)

def ofCall (call : StandaloneCall) : CallOutcome :=
  let now := outcomes.clock (.standalone call)
  match call with
  | .clock | .pipeline .now => .answered now
  | _ =>
      match outcomes.repository (.standalone call) with
      | .answered _ => .answered now
      | .failed message => .failed message
      | .lost message => .lost message now

end RequestOutcomes

def StandaloneCall.execAt [SqlJson] (backend : Backend) (call : StandaloneCall)
    (outcomes : RequestOutcomes) (store : StandaloneStore) :
    Option (call.Answer × StandaloneStore) :=
  call.exec backend 0 (outcomes.ofCall call) store

def RegistrationCall.exec [SqlJson] (backend : Backend) (call : RegistrationCall)
    (outcomes : RequestOutcomes) (store : StandaloneStore) :
    Option (call.Answer × StandaloneStore) :=
  match call with
  | .standalone call => call.execAt backend outcomes store
  | .rollbackIdentityBinding principalId identity =>
      let undone := store.rollbackIdentityBinding principalId identity
      match outcomes.repository (.rollbackIdentityBinding principalId identity) with
      | .answered _ => some (.ok (), undone)
      | .failed message => some (.error (.backend message), store)
      | .lost message => some (.error (.backend message), undone)

abbrev RegistrationProgram := Program RegistrationCall RegistrationCall.Answer ApiError

def StandaloneProgram.registering {β : Type} (program : StandaloneProgram β) :
    RegistrationProgram β :=
  program.lift .standalone (fun _ answer => answer) id

/-! The handler. -/

/-- `hash_sync` of a password with a random salt. -/
class PasswordHashing where
  hash : String → List UInt8 → Option String

structure RegistrationRequest where
  login : String
  password : String
  displayName : String

/-- `minimumLength` of the `PasswordVerifier`. -/
structure RegistrationHandler extends StandaloneHandler where
  minimumLength : Nat

namespace RegistrationHandler

def validateNew (handler : RegistrationHandler) (password : String) : Bool :=
  handler.minimumLength ≤ password.utf8ByteSize && password.utf8ByteSize ≤ 1024

def identity (handler : RegistrationHandler) (displayName : String) (random : List UInt8) :
    ExternalIdentity :=
  { provider := "standalone"
    issuer := handler.issuer
    subject := "local_" ++ Base64Url.encode random
    claims := .ofList [("display_name", .string (trim displayName))] }

/-- The credential the registration creates. -/
def passwordCredential (login hash : String) (identity : ExternalIdentityKey)
    (random : List UInt8) : IamStandaloneCredential :=
  { id := "pwd_" ++ Base64Url.encode random
    identity
    kind := .password
    credentialKey := some login
    secretData := some hash
    credentialData := none }

/-- The write of the credential, undoing the binding where it fails. -/
def keepCredential (principalId : String) (credential : IamStandaloneCredential) :
    RegistrationProgram Unit :=
  .call (.standalone (.createCredential credential)) fun
    | .ok () => .ok ()
    | .error error =>
        .call (.rollbackIdentityBinding principalId credential.identity) fun
          | .ok () => .fail (.credential error)
          | .error _ => .fail (.internal "standalone registration rollback failed")

variable [StandaloneCrypto] [PasswordHashing] [Wire] [Keys] (handler : RegistrationHandler)

/-- Up to the binding: the login, the hash and what was authenticated, under its key. -/
def beforeBinding (request : RegistrationRequest) (subject salt : List UInt8) :
    StandaloneProgram (String × String × AuthenticationResult × ExternalIdentityKey) := do
  let login ← normalizeLogin request.login
  if !handler.validateNew request.password then
    .fail (.badRequest "password does not meet the configured policy")
  else if isBlank request.displayName ∨ 256 < request.displayName.utf8ByteSize then
    .fail (.badRequest "displayName is required")
  else do
    let found ← StandaloneProgram.findByKey handler.issuer .password login
    if found.isSome then
      .fail (.conflict "credential identifier is already registered")
    else do
      let identity := handler.identity request.displayName subject
      let passwordHash ← StandaloneProgram.ofOption
        (.internal "password credential could not be created")
        (PasswordHashing.hash request.password salt)
      let now ← StandaloneProgram.clock
      let key ← StandaloneProgram.ofOption (.internal "standalone identity is invalid")
        identity.key.toOption
      .ok (login, passwordHash, .new identity ["pwd"] none now, key)

/-- `caller` is what `authenticate_token` makes of the `Authorization` header, where there is
one. -/
def bind (caller : Option (Except TokenError String)) (authentication : AuthenticationResult)
    (random : List UInt8) : StandaloneProgram IssuedAuthentication :=
  match caller with
  | none => (handler.pipeline.login authentication .user random).converge
  | some (.error error) => .fail (.token error)
  | some (.ok principalId) => (handler.pipeline.link principalId authentication).converge

/-- `subject`, `salt`, `principal` and `credential` are the bytes the registration draws. -/
def register (request : RegistrationRequest) (caller : Option (Except TokenError String))
    (subject salt principal credential : List UInt8) :
    RegistrationProgram LoginResponse := do
  let (login, passwordHash, authentication, key) ←
    (handler.beforeBinding request subject salt).registering
  let issued ← (handler.bind caller authentication principal).registering
  keepCredential issued.principal.principalId (passwordCredential login passwordHash key credential)
  .ok { issued, returnUri := "" }

end RegistrationHandler

/-! Requests that make accounts. -/

inductive AccountRequest
  | login (authentication : AuthenticationResult) (kind : PrincipalKind) (random : List UInt8)
  | link (principalId : String) (authentication : AuthenticationResult)
  | register (request : RegistrationRequest) (caller : Option (Except TokenError String))
      (subject salt principal credential : List UInt8)

def RegistrationHandler.serveAccount [StandaloneCrypto] [PasswordHashing] [Wire] [Keys]
    (handler : RegistrationHandler) : AccountRequest → RegistrationProgram IssuedAuthentication
  | .login authentication kind random =>
      (handler.pipeline.login authentication kind random).converge.registering
  | .link principalId authentication =>
      (handler.pipeline.link principalId authentication).converge.registering
  | .register request caller subject salt principal credential => do
      let response ← handler.register request caller subject salt principal credential
      .ok response.issued

/-- One request alone on a store. -/
def RegistrationHandler.runAccount [StandaloneCrypto] [PasswordHashing] [Wire] [Keys] [SqlJson]
    (handler : RegistrationHandler) (outcomes : RequestOutcomes) (request : AccountRequest)
    (store : StandaloneStore) :
    Option (Except ApiError IssuedAuthentication × StandaloneStore) :=
  (handler.serveAccount request).evaluate (RegistrationCall.exec handler.backend) outcomes store

end Authguard
