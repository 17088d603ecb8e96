import Authguard.Authn.ApplicationRoute
import Authguard.Authn.CeremonyStore
import Authguard.Authn.TokenRequest

/-!
Registration and use of passkeys (`authn/src/handler/webauthn.rs` over
`authn/src/provider/standalone/webauthn.rs`). A ceremony is opened by one request and
completed by another; what the assertion of a login changes in the passkey is written back
by one conditional update. The protocol of `webauthn-rs` is taken from outside.
-/

namespace Authguard

/-- `webauthn-rs`, with the bytes it draws, and the version 5 UUID of an account. -/
class WebauthnServer where
  Passkey : Type
  PasskeyRegistration : Type
  PasskeyAuthentication : Type
  RegisterPublicKeyCredential : Type
  PublicKeyCredential : Type
  /-- Its `AuthenticationResult`. -/
  Verified : Type
  fromValue : Json → Option Passkey
  toValue : Passkey → Option Json
  credId : Passkey → List UInt8
  userId : String → String
  startPasskeyRegistration : String → String → String → Option (List (List UInt8)) →
    List UInt8 → Option (Json × PasskeyRegistration)
  finishPasskeyRegistration : RegisterPublicKeyCredential → PasskeyRegistration → Option Passkey
  startPasskeyAuthentication : List Passkey → List UInt8 → Option (Json × PasskeyAuthentication)
  finishPasskeyAuthentication : PublicKeyCredential → PasskeyAuthentication → Option Verified
  userVerified : Verified → Bool
  needsUpdate : Verified → Bool
  /-- The passkey after the assertion and whether it changed, where the assertion is its. -/
  updateCredential : Passkey → Verified → Option (Bool × Passkey)

open WebauthnServer

/-! The provider. -/

inductive WebauthnProviderError
  | ceremony
  | userVerificationRequired
  | invalidCredentialData
  | credentialNotMatched
  deriving DecidableEq

def ApiError.webauthn : WebauthnProviderError → ApiError
  | .invalidCredentialData => .internal "WebAuthn credential data is invalid"
  | .userVerificationRequired => .unauthorized "WebAuthn user verification is required"
  | .ceremony | .credentialNotMatched => .unauthorized "WebAuthn authentication failed"

namespace WebauthnProvider

def ofOption {α : Type} (error : WebauthnProviderError) :
    Option α → Except WebauthnProviderError α
  | none => .error error
  | some value => .ok value

variable [WebauthnServer]

def parsePasskey (credential : IamStandaloneCredential) : Except WebauthnProviderError Passkey :=
  ofOption .invalidCredentialData (credential.credentialData.bind fromValue)

def startRegistration (identity : ExternalIdentityKey) (displayName : String)
    (credentials : List IamStandaloneCredential) (drawn : List UInt8) :
    Except WebauthnProviderError (Json × PasskeyRegistration) := do
  let passkeys ← Result.collect parsePasskey credentials
  let exclude := passkeys.map credId
  ofOption .ceremony
    (startPasskeyRegistration (userId (identity.issuer ++ ":" ++ identity.subject))
      identity.subject displayName (if exclude.isEmpty then none else some exclude) drawn)

def finishRegistration (credential : RegisterPublicKeyCredential) (state : PasskeyRegistration) :
    Except WebauthnProviderError (String × Json) := do
  let passkey ← ofOption .ceremony (finishPasskeyRegistration credential state)
  let data ← ofOption .invalidCredentialData (toValue passkey)
  .ok (Base64Url.encode (credId passkey), data)

def startAuthentication (credentials : List IamStandaloneCredential) (drawn : List UInt8) :
    Except WebauthnProviderError (Json × PasskeyAuthentication) := do
  let passkeys ← Result.collect parsePasskey credentials
  if passkeys.isEmpty then
    .error .credentialNotMatched
  else
    ofOption .ceremony (startPasskeyAuthentication passkeys drawn)

/-- The loop of `finish_authentication`: the first passkey the assertion is of decides. An
assertion that calls for an update and changes nothing is refused. -/
def updateMatching (verified : Verified) :
    List IamStandaloneCredential → Except WebauthnProviderError (String × Option Json)
  | [] => .error .credentialNotMatched
  | credential :: credentials => do
      let passkey ← parsePasskey credential
      match updateCredential passkey verified with
      | none => updateMatching verified credentials
      | some (changed, updated) =>
          if needsUpdate verified && !changed then
            .error .credentialNotMatched
          else if changed then do
            let data ← ofOption .invalidCredentialData (toValue updated)
            .ok (credential.id, some data)
          else
            .ok (credential.id, none)

def finishAuthentication (credential : PublicKeyCredential) (state : PasskeyAuthentication)
    (credentials : List IamStandaloneCredential) :
    Except WebauthnProviderError (String × Option Json) := do
  let verified ← ofOption .ceremony (finishPasskeyAuthentication credential state)
  if userVerified verified then
    updateMatching verified credentials
  else
    .error .userVerificationRequired

end WebauthnProvider

/-! The calls. -/

section
variable [WebauthnServer]

structure RegistrationChallenge where
  principalId : String
  externalIdentity : ExternalIdentity
  amr : List String
  state : PasskeyRegistration

structure AuthenticationChallenge where
  externalIdentity : ExternalIdentity
  state : PasskeyAuthentication

inductive WebauthnCall
  | standalone (call : StandaloneCall)
  | compareAndSwapCredentialData (credentialId : String) (currentData credentialData : Json)
  | putRegistration (challengeId : String) (challenge : RegistrationChallenge)
  | consumeRegistration (challengeId : String)
  | putAuthentication (challengeId : String) (challenge : AuthenticationChallenge)
  | consumeAuthentication (challengeId : String)

def WebauthnCall.Answer : WebauthnCall → Type
  | .standalone call => call.Answer
  | .compareAndSwapCredentialData _ _ _ => Except CredentialRepositoryError Bool
  | .putRegistration _ _ | .putAuthentication _ _ => Except ChallengeError Unit
  | .consumeRegistration _ => Except ChallengeError (Option RegistrationChallenge)
  | .consumeAuthentication _ => Except ChallengeError (Option AuthenticationChallenge)

/-- An update that was written: the data it replaced, the data it was compared with and the
data it wrote. -/
structure Swap where
  task : Nat
  credentialId : String
  stored : Json
  current : Json
  written : Json

/-- The tables, the challenges of both ceremonies and, not stored, the updates of passkeys
that were written, oldest first. -/
structure WebauthnStore where
  standalone : StandaloneStore
  registrations : SingleUse.Store String RegistrationChallenge
  authentications : SingleUse.Store String AuthenticationChallenge
  swaps : List Swap

namespace WebauthnStore

variable [SqlJsonEquality] (backend : Backend) (store : WebauthnStore)

def compareAndSwapCredentialData (task : Nat) (credentialId : String)
    (currentData credentialData : Json) : Bool × WebauthnStore :=
  match store.standalone.credentials.compareAndSwapCredentialData backend credentialId currentData
      credentialData with
  | none => (false, store)
  | some credentials =>
      let stored :=
        (store.standalone.credentials.find credentialId).bind (·.credentialData)
      (true,
        { store with
          standalone := { store.standalone with credentials }
          swaps := store.swaps ++ (stored.map fun stored =>
            ⟨task, credentialId, stored, currentData, credentialData⟩).toList })

end WebauthnStore

def WebauthnCall.exec [SqlJson] [SqlJsonEquality] (backend : Backend) (task : Nat)
    (call : WebauthnCall) (outcome : CallOutcome) (store : WebauthnStore) :
    Option (call.Answer × WebauthnStore) :=
  match call with
  | .standalone call =>
      (call.exec backend task outcome store.standalone).map fun (answer, after) =>
        (answer, { store with standalone := after })
  | .compareAndSwapCredentialData credentialId currentData credentialData =>
      let swapped :=
        store.compareAndSwapCredentialData backend task credentialId currentData credentialData
      match outcome with
      | .answered _ => some (.ok swapped.1, swapped.2)
      | .expired => none
      | .failed message => some (.error (.backend message), store)
      | .lost message _ => some (.error (.backend message), swapped.2)
  | .putRegistration challengeId challenge =>
      let (answer, registrations) :=
        store.registrations.putJson task challengeId challenge outcome
      some (answer, { store with registrations })
  | .consumeRegistration challengeId =>
      let (answer, registrations) := store.registrations.consumeJson task challengeId outcome
      some (answer, { store with registrations })
  | .putAuthentication challengeId challenge =>
      let (answer, authentications) :=
        store.authentications.putJson task challengeId challenge outcome
      some (answer, { store with authentications })
  | .consumeAuthentication challengeId =>
      let (answer, authentications) := store.authentications.consumeJson task challengeId outcome
      some (answer, { store with authentications })

/-! The handler. -/

abbrev WebauthnProgram := Program WebauthnCall WebauthnCall.Answer ApiError

namespace WebauthnProgram

def ofExcept {α : Type} : Except ApiError α → WebauthnProgram α
  | .error error => .fail error
  | .ok value => .ok value

def ofOption {α : Type} (error : ApiError) : Option α → WebauthnProgram α
  | none => .fail error
  | some value => .ok value

def provided {α : Type} (answer : Except WebauthnProviderError α) : WebauthnProgram α :=
  ofExcept (answer.mapError .webauthn)

def listByIdentity (identity : ExternalIdentityKey) (kind : StandaloneCredentialKind) :
    WebauthnProgram (List IamStandaloneCredential) :=
  .call (.standalone (.listByIdentity identity kind)) fun answer =>
    ofExcept (answer.mapError .credential)

def findByKey (issuer : String) (kind : StandaloneCredentialKind) (credentialKey : String) :
    WebauthnProgram (Option StandaloneCredentialIdentity) :=
  .call (.standalone (.findByKey issuer kind credentialKey)) fun answer =>
    ofExcept (answer.mapError .credential)

def createCredential (credential : IamStandaloneCredential) : WebauthnProgram Unit :=
  .call (.standalone (.createCredential credential)) fun answer =>
    ofExcept (answer.mapError .credential)

def compareAndSwapCredentialData (credentialId : String) (currentData credentialData : Json) :
    WebauthnProgram Bool :=
  .call (.compareAndSwapCredentialData credentialId currentData credentialData) fun answer =>
    ofExcept (answer.mapError .credential)

def putRegistration (challengeId : String) (challenge : RegistrationChallenge) :
    WebauthnProgram Unit :=
  .call (.putRegistration challengeId challenge) fun answer =>
    ofExcept (answer.mapError .challenge)

def consumeRegistration (challengeId : String) : WebauthnProgram (Option RegistrationChallenge) :=
  .call (.consumeRegistration challengeId) fun answer => ofExcept (answer.mapError .challenge)

def putAuthentication (challengeId : String) (challenge : AuthenticationChallenge) :
    WebauthnProgram Unit :=
  .call (.putAuthentication challengeId challenge) fun answer =>
    ofExcept (answer.mapError .challenge)

def consumeAuthentication (challengeId : String) :
    WebauthnProgram (Option AuthenticationChallenge) :=
  .call (.consumeAuthentication challengeId) fun answer => ofExcept (answer.mapError .challenge)

def clock : WebauthnProgram Nat := .call (.standalone .clock) .ok

end WebauthnProgram

/-- A program of the standalone handler, among the calls of the ceremonies. -/
def StandaloneProgram.inCeremony {β : Type} (program : StandaloneProgram β) :
    WebauthnProgram β :=
  program.lift .standalone (fun _ answer => answer) id

structure RegistrationChallengeRequest where
  login : String
  password : String
  totp : Option String
  displayName : Option String

structure RegistrationVerifyRequest where
  challengeId : String
  credential : RegisterPublicKeyCredential
  returnTo : String

structure AuthenticationVerifyRequest where
  challengeId : String
  credential : PublicKeyCredential
  returnTo : String

/-- `random` are the bytes of a new principal, `drawn` those of the protocol. The principal
of the caller's token or cookie is given as it was validated. -/
inductive WebauthnRequest
  | standalone (request : StandaloneRequest)
  | registrationChallenge (caller : Except TokenError String)
      (request : RegistrationChallengeRequest) (random drawn challenge : List UInt8)
  | registrationVerify (host : Option String) (caller : Except TokenError String)
      (request : RegistrationVerifyRequest) (random credential : List UInt8)
  | authenticationChallenge (login : String) (drawn challenge : List UInt8)
  | authenticationVerify (host : Option String) (request : AuthenticationVerifyRequest)
      (random : List UInt8)

inductive WebauthnReply
  | standalone (reply : StandaloneReply)
  | options (challengeId : String) (options : Json)
  | issued (response : LoginResponse)

structure WebauthnHandler where
  standalone : StandaloneHandler
  applications : SortedMap String ApplicationProperties

def passkeyAcr : String := "urn:authguard:acr:webauthn:uv"

namespace WebauthnHandler

variable (handler : WebauthnHandler)

def enabled : WebauthnProgram Unit :=
  if handler.standalone.webauthn then .ok () else .fail (.notFound "WebAuthn is not enabled")

def challengeStore : WebauthnProgram Unit :=
  if handler.standalone.challenges then .ok ()
  else .fail (.notFound "interactive standalone authentication is disabled")

/-- The name a passkey is offered under. -/
def displayName (requested : Option String) (identity : ExternalIdentity) : String :=
  (requested.or ((identity.claims.get "display_name").bind Json.toStr)).getD "AuthGuard user"

section
variable [StandaloneCrypto]

def webauthnRegistrationChallenge (caller : Except TokenError String)
    (request : RegistrationChallengeRequest) (random drawn challenge : List UInt8) :
    WebauthnProgram WebauthnReply := do
  handler.enabled
  let principalId ← WebauthnProgram.ofExcept (caller.mapError .token)
  let authentication ← (handler.standalone.authenticateCredentials
    ⟨request.login, request.password, request.totp, ""⟩).inCeremony
  (handler.standalone.pipeline.verifyStepUp principalId authentication .user
    random).converge.inCeremony
  let identity ← WebauthnProgram.ofOption (.internal "standalone identity is invalid")
    authentication.externalIdentity.key.toOption
  let existing ← WebauthnProgram.listByIdentity identity .webauthn
  let (options, registration) ← WebauthnProgram.provided
    (WebauthnProvider.startRegistration identity
      (displayName request.displayName authentication.externalIdentity) existing drawn)
  handler.challengeStore
  let challengeId := Base64Url.encode challenge
  WebauthnProgram.putRegistration challengeId
    ⟨principalId, authentication.externalIdentity, authentication.amr, registration⟩
  .ok (.options challengeId options)

def webauthnAuthenticationChallenge (login : String) (drawn challenge : List UInt8) :
    WebauthnProgram WebauthnReply := do
  handler.enabled
  let login ← (normalizeLogin login).inCeremony
  let found ← WebauthnProgram.findByKey handler.standalone.issuer .password login
  let found ← WebauthnProgram.ofOption (.unauthorized "WebAuthn authentication failed") found
  let credentials ← WebauthnProgram.listByIdentity found.credential.identity .webauthn
  let (options, authentication) ← WebauthnProgram.provided
    (WebauthnProvider.startAuthentication credentials drawn)
  handler.challengeStore
  let challengeId := Base64Url.encode challenge
  WebauthnProgram.putAuthentication challengeId ⟨found.externalIdentity, authentication⟩
  .ok (.options challengeId options)

end

/-- The credential a registration creates. -/
def passkeyCredential (credential : List UInt8) (identity : ExternalIdentityKey)
    (key : String) (data : Json) : IamStandaloneCredential where
  id := "webauthn_" ++ Base64Url.encode credential
  identity
  kind := .webauthn
  credentialKey := some key
  secretData := none
  credentialData := some data

/-- The data of the passkey, where the assertion changed it, written back over the data it
was checked against. -/
def storeUpdate (credentials : List IamStandaloneCredential) (credentialId : String) :
    Option Json → WebauthnProgram Unit
  | none => .ok ()
  | some data => do
      let current ← WebauthnProgram.ofOption (.unauthorized "WebAuthn authentication failed")
        ((credentials.find? (·.id = credentialId)).bind (·.credentialData))
      let swapped ← WebauthnProgram.compareAndSwapCredentialData credentialId current data
      if swapped then .ok () else .fail (.unauthorized "WebAuthn authentication failed")

variable [UrlParts] [Wire]

def returnTo (host : Option String) (returnTo : String) : Except ApiError String :=
  (ApplicationResolver.mk handler.applications host).validateReturnTo returnTo

variable [Keys]

def webauthnRegistrationVerify (host : Option String) (caller : Except TokenError String)
    (request : RegistrationVerifyRequest) (random credential : List UInt8) :
    WebauthnProgram WebauthnReply := do
  let returnUri ← WebauthnProgram.ofExcept (handler.returnTo host request.returnTo)
  handler.enabled
  let principalId ← WebauthnProgram.ofExcept (caller.mapError .token)
  handler.challengeStore
  let challenge ← WebauthnProgram.consumeRegistration request.challengeId
  let challenge ← WebauthnProgram.ofOption
    (.badRequest "invalid or expired WebAuthn challenge") challenge
  if challenge.principalId ≠ principalId then
    .fail (.unauthorized "WebAuthn registration belongs to another Principal")
  else do
    let (key, data) ← WebauthnProgram.provided
      (WebauthnProvider.finishRegistration request.credential challenge.state)
    let identity ← WebauthnProgram.ofOption (.badRequest "invalid standalone identity")
      challenge.externalIdentity.key.toOption
    let now ← WebauthnProgram.clock
    let authentication := AuthenticationResult.new challenge.externalIdentity
      (challenge.amr ++ ["webauthn"]) (some passkeyAcr) now
    let issued ← (handler.standalone.pipeline.completeStepUp principalId authentication .user
      random).converge.inCeremony
    WebauthnProgram.createCredential (passkeyCredential credential identity key data)
    .ok (.issued ⟨issued, returnUri⟩)

def webauthnAuthenticationVerify (host : Option String) (request : AuthenticationVerifyRequest)
    (random : List UInt8) : WebauthnProgram WebauthnReply := do
  let returnUri ← WebauthnProgram.ofExcept (handler.returnTo host request.returnTo)
  handler.enabled
  handler.challengeStore
  let challenge ← WebauthnProgram.consumeAuthentication request.challengeId
  let challenge ← WebauthnProgram.ofOption
    (.badRequest "invalid or expired WebAuthn challenge") challenge
  let identity ← WebauthnProgram.ofOption (.badRequest "invalid standalone identity")
    challenge.externalIdentity.key.toOption
  let credentials ← WebauthnProgram.listByIdentity identity .webauthn
  let (credentialId, data) ← WebauthnProgram.provided
    (WebauthnProvider.finishAuthentication request.credential challenge.state credentials)
  storeUpdate credentials credentialId data
  let now ← WebauthnProgram.clock
  let authentication :=
    AuthenticationResult.new challenge.externalIdentity ["webauthn"] (some passkeyAcr) now
  let issued ← (handler.standalone.pipeline.login authentication .user random).converge.inCeremony
  .ok (.issued ⟨issued, returnUri⟩)

variable [StandaloneCrypto]

def serve : WebauthnRequest → WebauthnProgram WebauthnReply
  | .standalone request => do
      let reply ← (handler.standalone.serve request).inCeremony
      .ok (.standalone reply)
  | .registrationChallenge caller request random drawn challenge =>
      handler.webauthnRegistrationChallenge caller request random drawn challenge
  | .registrationVerify host caller request random credential =>
      handler.webauthnRegistrationVerify host caller request random credential
  | .authenticationChallenge login drawn challenge =>
      handler.webauthnAuthenticationChallenge login drawn challenge
  | .authenticationVerify host request random =>
      handler.webauthnAuthenticationVerify host request random

end WebauthnHandler

abbrev WebauthnPool :=
  Pool WebauthnCall WebauthnCall.Answer ApiError WebauthnReply WebauthnRequest WebauthnStore

abbrev WebauthnEvent := PoolEvent WebauthnRequest CallOutcome

def WebauthnHandler.webauthnStep [UrlParts] [Wire] [Keys] [StandaloneCrypto] [SqlJson]
    [SqlJsonEquality] (handler : WebauthnHandler) :
    WebauthnPool → WebauthnEvent → Option WebauthnPool :=
  Pool.step handler.serve (WebauthnCall.exec handler.standalone.backend)

end

end Authguard
