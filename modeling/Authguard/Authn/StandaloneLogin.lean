import Authguard.Authn.AuthenticationPipeline
import Authguard.Storage.CredentialStore

/-!
Password logins with TOTP (`authn/src/handler/standalone.rs`) and the step-up of
a passkey registration (`webauthn.rs`). A request is a program over the calls of
the repositories, the challenge cache and the clock. Password hashing, the
cipher and the checker of the codes are taken from outside.
-/

namespace Authguard
open Text

/-- `str::to_lowercase`, Argon2id, the cipher of the secrets and `totp_rs`. -/
class StandaloneCrypto where
  toLowercase : String → String
  /-- `verify_sync`: the password against an encoded hash. -/
  verifyPassword : String → String → Bool
  /-- The secret for a new credential of the account, and its `otpauth` address. -/
  generate : String → List UInt8 → Option (String × String)
  /-- The secret under the identifier of its credential, with a random nonce. -/
  encrypt : String → String → List UInt8 → Option String
  decrypt : String → String → Option String
  /-- `TotpService::check` of secret, account and code at a moment: the counter of the
  step the code matches. -/
  check : String → String → String → Nat → Option (Option Nat)

structure StandaloneCredentialIdentity where
  externalIdentity : ExternalIdentity
  credential : IamStandaloneCredential

structure TotpEnrollmentChallenge where
  externalIdentity : ExternalIdentity
  credentialId : String
  encryptedSecret : String

/-! The calls. -/

inductive StandaloneCall
  | pipeline (call : PipelineCall)
  | findByKey (issuer : String) (kind : StandaloneCredentialKind) (credentialKey : String)
  | listByIdentity (identity : ExternalIdentityKey) (kind : StandaloneCredentialKind)
  | createCredential (credential : IamStandaloneCredential)
  | advanceTotpCounter (credentialId : String) (counter : Nat)
  | putChallenge (challengeId : String) (challenge : TotpEnrollmentChallenge)
  | consumeChallenge (challengeId : String)
  /-- The clock `check_current` reads. -/
  | clock

def StandaloneCall.Answer : StandaloneCall → Type
  | .pipeline call => call.Answer
  | .findByKey _ _ _ => Except CredentialRepositoryError (Option StandaloneCredentialIdentity)
  | .listByIdentity _ _ => Except CredentialRepositoryError (List IamStandaloneCredential)
  | .createCredential _ => Except CredentialRepositoryError Unit
  | .advanceTotpCounter _ _ => Except CredentialRepositoryError Bool
  | .putChallenge _ _ => Except ChallengeError Unit
  | .consumeChallenge _ => Except ChallengeError (Option TotpEnrollmentChallenge)
  | .clock => Nat

/-- An advance of a counter that answered a task with success. -/
structure Acceptance where
  task : Nat
  credentialId : String
  counter : Nat

/-- The tables and the challenges that wait for their verification. The two records at the
end are not stored: they keep what the calls on TOTP credentials did, oldest first. -/
structure StandaloneStore where
  iam : IamDatabase
  credentials : CredentialTable
  challenges : List (String × TotpEnrollmentChallenge)
  enrolled : List IamStandaloneCredential
  accepted : List Acceptance

/-- How a call ends: at a moment of the clock of its server, with the challenge it asks for
expired, stopped, or applied with the answer lost. -/
inductive CallOutcome
  | answered (now : Nat)
  | expired
  | failed (message : String)
  | lost (message : String) (now : Nat)

def CallOutcome.toStore : CallOutcome → Option StoreOutcome
  | .answered now => some (.answered now)
  | .expired => none
  | .failed message => some (.failed message)
  | .lost message _ => some (.lost message)

/-- `claims` is read into a map, so anything but an object is an error. -/
def decodeIdentityCredential (iam : IamDatabase) (row : CredentialRow) :
    Except CredentialRepositoryError (Option StandaloneCredentialIdentity) :=
  match iam.identities.find row.identity with
  | none => .ok none
  | some identity =>
      match identity.claims.asObject with
      | none => .error (.backend "")
      | some claims =>
          match ExternalIdentityKey.new identity.provider identity.issuer identity.subject with
          | .error error => .error (.backend error.toString)
          | .ok key =>
              .ok (some
                { externalIdentity :=
                    { provider := identity.provider
                      issuer := identity.issuer
                      subject := identity.subject
                      claims := .ofList claims }
                  credential := { row.toIamStandaloneCredential with identity := key } })

def decodeCredential (row : CredentialRow) :
    Except CredentialRepositoryError IamStandaloneCredential :=
  match ExternalIdentityKey.new row.identity.provider row.identity.issuer row.identity.subject with
  | .error error => .error (.backend error.toString)
  | .ok key => .ok { row.toIamStandaloneCredential with identity := key }

namespace StandaloneStore

variable (store : StandaloneStore)

def findByKey (issuer : String) (kind : StandaloneCredentialKind) (credentialKey : String) :
    Except CredentialRepositoryError (Option StandaloneCredentialIdentity) :=
  match store.credentials.byKey issuer kind credentialKey with
  | none => .ok none
  | some row => decodeIdentityCredential store.iam row

def listByIdentity (identity : ExternalIdentityKey) (kind : StandaloneCredentialKind) :
    Except CredentialRepositoryError (List IamStandaloneCredential) :=
  Result.collect decodeCredential (store.credentials.listByIdentity identity kind)

/-- The store with the credential; its creation is recorded. -/
def createCredential (now : Nat) (credential : IamStandaloneCredential) :
    Except CredentialRepositoryError StandaloneStore :=
  (store.credentials.createCredential store.iam now credential).map fun credentials =>
    { store with credentials, enrolled := store.enrolled ++ [credential] }

/-- A call that changes nothing, as the outcome lets it end. -/
def read {α : Type} (answer : Except CredentialRepositoryError α) :
    CallOutcome → Option (Except CredentialRepositoryError α × StandaloneStore)
  | .answered _ => some (answer, store)
  | .expired => none
  | .failed message | .lost message _ => some (.error (.backend message), store)

end StandaloneStore

section
variable [SqlJson] (backend : Backend)

def StandaloneCall.exec (task : Nat) (call : StandaloneCall) (outcome : CallOutcome)
    (store : StandaloneStore) : Option (call.Answer × StandaloneStore) :=
  match call with
  | .pipeline (.identity call) =>
      outcome.toStore.bind fun outcome =>
        (call.exec outcome store.iam).map fun (answer, iam) => (answer, { store with iam })
  | .pipeline .now | .clock =>
      match outcome with
      | .answered now => some (now, store)
      | _ => none
  | .findByKey issuer kind credentialKey =>
      store.read (store.findByKey issuer kind credentialKey) outcome
  | .listByIdentity identity kind => store.read (store.listByIdentity identity kind) outcome
  | .createCredential credential =>
      match outcome with
      | .answered now =>
          match store.createCredential now credential with
          | .error error => some (.error error, store)
          | .ok created => some (.ok (), created)
      | .expired => none
      | .failed message => some (.error (.backend message), store)
      | .lost message now =>
          match store.createCredential now credential with
          | .error error => some (.error error, store)
          | .ok created => some (.error (.backend message), created)
  | .advanceTotpCounter credentialId counter =>
      match outcome with
      | .answered _ =>
          match store.credentials.advanceTotpCounter backend credentialId counter with
          | .error error => some (.error error, store)
          | .ok (false, _) => some (.ok false, store)
          | .ok (true, credentials) =>
              some (.ok true,
                { store with
                  credentials
                  accepted := store.accepted ++ [{ task, credentialId, counter }] })
      | .expired => none
      | .failed message => some (.error (.backend message), store)
      | .lost message _ =>
          match store.credentials.advanceTotpCounter backend credentialId counter with
          | .error error => some (.error error, store)
          | .ok (_, credentials) => some (.error (.backend message), { store with credentials })
  | .putChallenge challengeId challenge =>
      match outcome with
      | .answered _ =>
          match store.challenges.lookup challengeId with
          | some _ => some (.error .backend, store)
          | none =>
              some (.ok (),
                { store with challenges := (challengeId, challenge) :: store.challenges })
      | .expired => none
      | .failed _ => some (.error .backend, store)
      | .lost _ _ =>
          some (.error .backend,
            { store with challenges := (challengeId, challenge) :: store.challenges })
  | .consumeChallenge challengeId =>
      let taken :=
        { store with challenges := store.challenges.filter fun entry => entry.1 ≠ challengeId }
      match outcome with
      | .answered _ => some (.ok (store.challenges.lookup challengeId), taken)
      | .expired => some (.ok none, taken)
      | .failed _ => some (.error .backend, store)
      | .lost _ _ => some (.error .backend, taken)

end

/-! The handler. -/

def ApiError.credential : CredentialRepositoryError → ApiError
  | .keyConflict => .conflict "credential identifier is already registered"
  | .backend _ => .unavailable "credential storage is unavailable"

structure LoginRequest where
  login : String
  password : String
  totp : Option String
  returnTo : String

structure LoginResponse where
  issued : IssuedAuthentication
  returnUri : String

abbrev StandaloneProgram := Program StandaloneCall StandaloneCall.Answer ApiError

namespace StandaloneProgram

def repository {α : Type} : Except CredentialRepositoryError α → StandaloneProgram α
  | .ok value => .ok value
  | .error error => .fail (.credential error)

def challenged {α : Type} : Except ChallengeError α → StandaloneProgram α
  | .ok value => .ok value
  | .error error => .fail (.challenge error)

def ofOption {α : Type} (error : ApiError) : Option α → StandaloneProgram α
  | none => .fail error
  | some value => .ok value

def findByKey (issuer : String) (kind : StandaloneCredentialKind) (credentialKey : String) :
    StandaloneProgram (Option StandaloneCredentialIdentity) :=
  .call (.findByKey issuer kind credentialKey) repository

def listByIdentity (identity : ExternalIdentityKey) (kind : StandaloneCredentialKind) :
    StandaloneProgram (List IamStandaloneCredential) :=
  .call (.listByIdentity identity kind) repository

def createCredential (credential : IamStandaloneCredential) : StandaloneProgram Unit :=
  .call (.createCredential credential) repository

def advanceTotpCounter (credentialId : String) (counter : Nat) : StandaloneProgram Bool :=
  .call (.advanceTotpCounter credentialId counter) repository

def putChallenge (challengeId : String) (challenge : TotpEnrollmentChallenge) :
    StandaloneProgram Unit :=
  .call (.putChallenge challengeId challenge) challenged

def consumeChallenge (challengeId : String) :
    StandaloneProgram (Option TotpEnrollmentChallenge) :=
  .call (.consumeChallenge challengeId) challenged

def clock : StandaloneProgram Nat := .call .clock .ok

end StandaloneProgram

def PipelineProgram.converge {β : Type} (program : PipelineProgram β) : StandaloneProgram β :=
  program.lift .pipeline (fun _ answer => answer) .pipeline

/-- The configuration: whether a challenge cache and the TOTP service are there, the hash
that stands in for a missing password, and the database. -/
structure StandaloneHandler where
  issuer : String
  challenges : Bool
  totp : Bool
  webauthn : Bool
  dummyHash : String
  pipeline : AuthenticationPipeline
  backend : Backend

section
variable [StandaloneCrypto]

def normalizeLogin (login : String) : StandaloneProgram String :=
  let login := StandaloneCrypto.toLowercase (trim login)
  if login = "" ∨ 320 < login.utf8ByteSize then
    .fail (.badRequest "login must be between 1 and 320 bytes")
  else
    .ok login

/-- `AuthenticationResult::new` drops repeated methods. -/
def AuthenticationResult.new (externalIdentity : ExternalIdentity) (methods : List String)
    (acr : Option String) (authenticatedAt : Int) : AuthenticationResult :=
  { externalIdentity
    amr := methods.foldl (fun amr method =>
      if amr.contains method then amr else amr ++ [method]) []
    acr
    authenticatedAt }

namespace StandaloneHandler

variable (handler : StandaloneHandler)

def challengeStore : StandaloneProgram Unit :=
  if handler.challenges then .ok ()
  else .fail (.notFound "interactive standalone authentication is disabled")

/-- The loop of `verify_totp`: the first credential the code matches decides. -/
def verifyCredentials (subject code : String) :
    List IamStandaloneCredential → StandaloneProgram Bool
  | [] => .ok false
  | credential :: credentials =>
      match credential.secretData with
      | none => verifyCredentials subject code credentials
      | some encrypted => do
          let secret ← StandaloneProgram.ofOption
            (.internal "TOTP credential could not be verified")
            (StandaloneCrypto.decrypt encrypted credential.id)
          let now ← StandaloneProgram.clock
          let counter ← StandaloneProgram.ofOption (.unauthorized "invalid credentials")
            (StandaloneCrypto.check secret subject code now)
          match counter with
          | none => verifyCredentials subject code credentials
          | some counter => StandaloneProgram.advanceTotpCounter credential.id counter

def verifyTotp (identity : StandaloneCredentialIdentity)
    (credentials : List IamStandaloneCredential) (code : String) : StandaloneProgram Bool :=
  if handler.totp then
    verifyCredentials identity.externalIdentity.subject code credentials
  else
    .fail (.internal "TOTP verifier is not configured")

/-- The second factor, where one is enrolled, and the methods that were used. -/
def secondFactor (found : StandaloneCredentialIdentity)
    (totpCredentials : List IamStandaloneCredential) (totp : Option String) :
    StandaloneProgram (List String) :=
  if totpCredentials.isEmpty then
    .ok ["pwd"]
  else do
    let code ← StandaloneProgram.ofOption (.unauthorized "TOTP is required") totp
    if ← handler.verifyTotp found totpCredentials code then
      .ok ["pwd", "otp"]
    else
      .fail (.unauthorized "invalid credentials")

def authenticateCredentials (request : LoginRequest) :
    StandaloneProgram AuthenticationResult := do
  let login ← normalizeLogin request.login
  let found ← StandaloneProgram.findByKey handler.issuer .password login
  let hash := (found.bind (·.credential.secretData)).getD handler.dummyHash
  if StandaloneCrypto.verifyPassword request.password hash then
    let found ← StandaloneProgram.ofOption (.unauthorized "invalid credentials") found
    let totpCredentials ← StandaloneProgram.listByIdentity found.credential.identity .totp
    let amr ← handler.secondFactor found totpCredentials request.totp
    let now ← StandaloneProgram.clock
    .ok (.new found.externalIdentity amr none now)
  else
    .fail (.unauthorized "invalid credentials")

end StandaloneHandler

end

/-! The endpoints. -/

/-- `random` are the bytes the endpoint draws: of a new principal, or of the credential, the
secret, the nonce and the challenge of an enrollment. The return address and the principal of
the caller's token are given as they were validated. -/
inductive StandaloneRequest
  | login (request : LoginRequest) (random : List UInt8)
  | stepUp (principalId : String) (request : LoginRequest) (random : List UInt8)
  | enrollmentChallenge (request : LoginRequest)
      (credential secret nonce challenge : List UInt8)
  | enrollmentVerify (challengeId code : String) (random : List UInt8)

inductive StandaloneReply
  | issued (response : LoginResponse)
  | stepUp (authentication : AuthenticationResult)
  | enrollment (challengeId secret otpauthUri : String)

namespace StandaloneHandler

variable [StandaloneCrypto] (handler : StandaloneHandler)

def totpEnrollmentChallenge (request : LoginRequest)
    (credential secret nonce challenge : List UInt8) : StandaloneProgram StandaloneReply := do
  let authentication ← handler.authenticateCredentials request
  if handler.totp then
    let credentialId := "totp_" ++ Base64Url.encode credential
    let (secret, otpauthUri) ← StandaloneProgram.ofOption
      (.internal "TOTP enrollment could not be started")
      (StandaloneCrypto.generate authentication.externalIdentity.subject secret)
    let encryptedSecret ← StandaloneProgram.ofOption
      (.internal "TOTP enrollment could not be started")
      (StandaloneCrypto.encrypt secret credentialId nonce)
    handler.challengeStore
    let challengeId := Base64Url.encode challenge
    StandaloneProgram.putChallenge challengeId
      { externalIdentity := authentication.externalIdentity, credentialId, encryptedSecret }
    .ok (.enrollment challengeId secret otpauthUri)
  else
    .fail (.notFound "TOTP is not enabled")

/-- The credential an enrollment creates. -/
def totpCredential (challenge : TotpEnrollmentChallenge) (identity : ExternalIdentityKey)
    (counter : Nat) : IamStandaloneCredential :=
  { id := challenge.credentialId
    identity
    kind := .totp
    credentialKey := none
    secretData := some challenge.encryptedSecret
    credentialData := some (.object [("lastCounter", .ofNat counter)]) }

/-- The challenge a verification consumes, with the counter its code matches. -/
def verifyEnrollment (challengeId code : String) :
    StandaloneProgram (TotpEnrollmentChallenge × Nat) := do
  handler.challengeStore
  let challenge ← StandaloneProgram.consumeChallenge challengeId
  let challenge ← StandaloneProgram.ofOption
    (.badRequest "invalid or expired TOTP enrollment") challenge
  let secret ← StandaloneProgram.ofOption (.badRequest "invalid or expired TOTP enrollment")
    (StandaloneCrypto.decrypt challenge.encryptedSecret challenge.credentialId)
  let now ← StandaloneProgram.clock
  let counter ← StandaloneProgram.ofOption (.unauthorized "invalid TOTP code")
    (StandaloneCrypto.check secret challenge.externalIdentity.subject code now)
  let counter ← StandaloneProgram.ofOption (.unauthorized "invalid TOTP code") counter
  .ok (challenge, counter)

variable [Wire] [Keys]

def totpEnrollmentVerify (challengeId code : String) (random : List UInt8) :
    StandaloneProgram StandaloneReply :=
  if handler.totp then do
    let (challenge, counter) ← handler.verifyEnrollment challengeId code
    let identity ← StandaloneProgram.ofOption (.badRequest "invalid standalone identity")
      challenge.externalIdentity.key.toOption
    StandaloneProgram.createCredential (totpCredential challenge identity counter)
    let now ← StandaloneProgram.clock
    let authentication :=
      AuthenticationResult.new challenge.externalIdentity ["pwd", "otp"] none now
    let issued ← (handler.pipeline.login authentication .user random).converge
    .ok (.issued { issued, returnUri := "" })
  else
    .fail (.notFound "TOTP is not enabled")

def login (request : LoginRequest) (random : List UInt8) :
    StandaloneProgram StandaloneReply := do
  let authentication ← handler.authenticateCredentials request
  let issued ← (handler.pipeline.login authentication .user random).converge
  .ok (.issued { issued, returnUri := request.returnTo })

omit [Wire] [Keys] in
/-- `webauthn_registration_challenge` up to the ceremony it opens. -/
def stepUp (principalId : String) (request : LoginRequest) (random : List UInt8) :
    StandaloneProgram StandaloneReply :=
  if handler.webauthn then do
    let authentication ← handler.authenticateCredentials request
    (handler.pipeline.verifyStepUp principalId authentication .user random).converge
    .ok (.stepUp authentication)
  else
    .fail (.notFound "WebAuthn is not enabled")

def serve : StandaloneRequest → StandaloneProgram StandaloneReply
  | .login request random => handler.login request random
  | .stepUp principalId request random => handler.stepUp principalId request random
  | .enrollmentChallenge request credential secret nonce challenge =>
      handler.totpEnrollmentChallenge request credential secret nonce challenge
  | .enrollmentVerify challengeId code random =>
      handler.totpEnrollmentVerify challengeId code random

end StandaloneHandler

/-! Any number of requests over one store. -/

abbrev StandalonePool :=
  Pool StandaloneCall StandaloneCall.Answer ApiError StandaloneReply StandaloneRequest
    StandaloneStore

abbrev StandaloneEvent := PoolEvent StandaloneRequest CallOutcome

def StandaloneHandler.standaloneStep [StandaloneCrypto] [Wire] [Keys] [SqlJson]
    (handler : StandaloneHandler) : StandalonePool → StandaloneEvent → Option StandalonePool :=
  Pool.step handler.serve (StandaloneCall.exec handler.backend)

end Authguard
