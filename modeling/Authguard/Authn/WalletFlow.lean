import Authguard.Authn.ApplicationRoute
import Authguard.Authn.CeremonyStore
import Authguard.Authn.WalletAccount

/-!
Logins and links with wallets (`authn/src/handler/wallet.rs` over
`authn/src/provider/wallet/mod.rs`). A challenge is prepared by one request and its proof
is sent by another. How the libraries answer, the network among them, is given with each
request.
-/

namespace Authguard

/-! Errors. -/

/-- `not_implemented` answers are of this handler alone. -/
inductive WalletApiError
  | api (error : ApiError)
  | notImplemented (code message : String)
  deriving DecidableEq

def walletError : WalletProviderError → WalletApiError
  | .invalidAccount => .api (.badRequest "invalid CAIP-10 account id")
  | .chainNotConfigured => .api (.badRequest "wallet chain is not configured")
  | .unsupportedNamespace => .api (.badRequest "unsupported CAIP namespace")
  | .signatureTooLarge => .api (.badRequest "wallet signature is too large")
  | .invalidSignatureEncoding => .api (.badRequest "wallet signature encoding is invalid")
  | .backend => .api (.unavailable "wallet verification service is unavailable")
  | .contractVerificationNotConfigured =>
      .notImplemented "contract_wallet_not_supported"
        "contract-wallet verification is not configured for this chain"
  | .verificationMethodMismatch =>
      .api (.unauthorized "wallet verification method does not match the proof")
  | .verification => .api (.unauthorized "wallet signature verification failed")

/-! The calls. -/

inductive WalletCall
  | pipeline (call : PipelineCall)
  | putChallenge (challengeId : String) (challenge : WalletChallenge)
  | consumeChallenge (challengeId : String)
  | clock

def WalletCall.Answer : WalletCall → Type
  | .pipeline call => call.Answer
  | .putChallenge _ _ => Except ChallengeError Unit
  | .consumeChallenge _ => Except ChallengeError (Option WalletChallenge)
  | .clock => Nat

structure WalletStore where
  iam : IamDatabase
  challenges : SingleUse.Store String WalletChallenge

def WalletCall.exec (task : Nat) (call : WalletCall) (outcome : CallOutcome)
    (store : WalletStore) : Option (call.Answer × WalletStore) :=
  match call with
  | .pipeline (.identity call) =>
      outcome.toStore.bind fun outcome =>
        (call.exec outcome store.iam).map fun (answer, iam) => (answer, { store with iam })
  | .pipeline .now | .clock =>
      match outcome with
      | .answered now => some (now, store)
      | .expired | .failed _ | .lost _ _ => none
  | .putChallenge challengeId challenge =>
      let (answer, challenges) := store.challenges.putJson task challengeId challenge outcome
      some (answer, { store with challenges })
  | .consumeChallenge challengeId =>
      let (answer, challenges) := store.challenges.consumeJson task challengeId outcome
      some (answer, { store with challenges })

abbrev WalletProgram := Program WalletCall WalletCall.Answer WalletApiError

namespace WalletProgram

def ofExcept {α : Type} : Except WalletApiError α → WalletProgram α
  | .error error => .fail error
  | .ok value => .ok value

def checked {α : Type} (answer : Except ApiError α) : WalletProgram α :=
  ofExcept (answer.mapError .api)

def provided {α : Type} (answer : Except WalletProviderError α) : WalletProgram α :=
  ofExcept (answer.mapError walletError)

def putChallenge (challengeId : String) (challenge : WalletChallenge) : WalletProgram Unit :=
  .call (.putChallenge challengeId challenge) fun answer => checked (answer.mapError .challenge)

def consumeChallenge (challengeId : String) : WalletProgram (Option WalletChallenge) :=
  .call (.consumeChallenge challengeId) fun answer => checked (answer.mapError .challenge)

def clock : WalletProgram Nat := .call .clock .ok

end WalletProgram

def PipelineProgram.inWallet {β : Type} (program : PipelineProgram β) : WalletProgram β :=
  program.lift .pipeline (fun _ answer => answer) fun error => .api (.pipeline error)

/-! The endpoints. -/

structure WalletChallengeResponse where
  challengeId : String
  accountId : String
  message : String
  expiresAt : String
  signatureEncoding : String
  verificationMethods : List String

structure WalletVerifyRequest where
  challengeId : String
  signature : String
  verificationMethod : WalletVerificationMethod
  returnTo : String

/-- `siwx` is how the libraries answer in the request, `challenge` are the bytes of the
identifier, `nonce` is drawn by the libraries, and `random` are the bytes of a new principal.
The principal of the caller's token is given as it was validated. -/
inductive WalletRequest (Message : Type)
  | challenge (siwx : SiwxLibrary Message) (accountId nonce : String) (challenge : List UInt8)
  | verify (siwx : SiwxLibrary Message) (host : Option String) (request : WalletVerifyRequest)
      (random : List UInt8)
  | link (siwx : SiwxLibrary Message) (caller : Except TokenError String)
      (request : WalletVerifyRequest)

inductive WalletReply
  | prepared (response : WalletChallengeResponse)
  | issued (response : LoginResponse)

structure WalletHandler where
  provider : WalletProvider
  applications : SortedMap String ApplicationProperties
  pipeline : AuthenticationPipeline

namespace WalletHandler

variable {Message : Type} (handler : WalletHandler) (siwx : SiwxLibrary Message)

def verifyChallenge (request : WalletVerifyRequest) : WalletProgram AuthenticationResult := do
  let found ← WalletProgram.consumeChallenge request.challengeId
  match found with
  | none => .fail (.api (.badRequest "invalid or expired wallet challenge"))
  | some challenge => do
      let now ← WalletProgram.clock
      WalletProgram.provided (handler.provider.verify siwx now challenge request.challengeId
        request.signature request.verificationMethod)

def challenge (accountId nonce : String) (challenge : List UInt8) : WalletProgram WalletReply := do
  let challengeId := Base64Url.encode challenge
  let now ← WalletProgram.clock
  let prepared ← WalletProgram.provided
    (handler.provider.prepareChallenge siwx nonce now accountId challengeId)
  WalletProgram.putChallenge challengeId prepared.state
  .ok (.prepared
    { challengeId
      accountId := prepared.accountId
      message := prepared.message
      expiresAt := prepared.expiresAt
      signatureEncoding := prepared.signatureEncoding
      verificationMethods := prepared.verificationMethods })

variable [Wire] [Keys]

def link (caller : Except TokenError String) (request : WalletVerifyRequest) :
    WalletProgram WalletReply := do
  let principalId ← WalletProgram.checked (caller.mapError .token)
  let authentication ← handler.verifyChallenge siwx request
  let issued ← (handler.pipeline.link principalId authentication).inWallet
  .ok (.issued ⟨issued, ""⟩)

variable [UrlParts]

def verify (host : Option String) (request : WalletVerifyRequest) (random : List UInt8) :
    WalletProgram WalletReply := do
  let returnTo ← WalletProgram.checked
    ((ApplicationResolver.mk handler.applications host).validateReturnTo request.returnTo)
  let authentication ← handler.verifyChallenge siwx request
  let issued ← (handler.pipeline.login authentication .user random).inWallet
  .ok (.issued ⟨issued, returnTo⟩)

def serve : WalletRequest Message → WalletProgram WalletReply
  | .challenge siwx accountId nonce challenge => handler.challenge siwx accountId nonce challenge
  | .verify siwx host request random => handler.verify siwx host request random
  | .link siwx caller request => handler.link siwx caller request

end WalletHandler

abbrev WalletPool (Message : Type) :=
  Pool WalletCall WalletCall.Answer WalletApiError WalletReply (WalletRequest Message) WalletStore

abbrev WalletEvent (Message : Type) := PoolEvent (WalletRequest Message) CallOutcome

def WalletHandler.walletStep [UrlParts] [Wire] [Keys] (handler : WalletHandler) {Message : Type} :
    WalletPool Message → WalletEvent Message → Option (WalletPool Message) :=
  Pool.step handler.serve WalletCall.exec

end Authguard
