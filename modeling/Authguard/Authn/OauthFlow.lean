import Authguard.Authn.ApplicationRoute
import Authguard.Authn.StandaloneLogin
import Authguard.Authn.TokenRequest

/-!
Logins and links through external providers (`authn/src/handler/oauth2.rs`). A first
request stores a flow under a random state value and sends its browser to the provider;
a callback takes the flow and asks the provider who has logged in. What an adapter
answers then is taken from outside, with the bytes that are drawn.
-/

namespace Authguard

structure AuthorizeQuery where
  returnUri : String
  returnTo : String

/-- The destination, and whether the login ends in a redirect to it. -/
def AuthorizeQuery.returnDestination (query : AuthorizeQuery) :
    Except ApiError (String × Bool) :=
  if query.returnUri ≠ "" ∧ query.returnTo ≠ "" ∧ query.returnUri ≠ query.returnTo then
    .error (.badRequest "return_uri and return_to must match when both are set")
  else if query.returnTo = "" then
    .ok (query.returnUri, false)
  else
    .ok (query.returnTo, true)

structure CallbackQuery where
  code : String
  state : String

/-! Providers. -/

inductive ProviderProtocol
  | oauth2
  | oidc
  deriving DecidableEq

structure ProviderAuthorization where
  url : String
  nonce : Option String
  pkceVerifier : Option String

/-- `authorize` is the adapter's, of client, callback address, state and drawn bytes. -/
structure ProviderRuntime where
  authorize : String → String → String → List UInt8 → Option ProviderAuthorization
  clientId : String
  clientSecret : String
  callbackUrl : String
  protocol : ProviderProtocol

/-- The methods of an `amr` claim. -/
def claimedMethods : Option Json → List String
  | some (.array values) =>
      ((values.filterMap Json.toStr).filter fun value =>
        value ≠ "" ∧ value.utf8ByteSize ≤ 64).take 16
  | _ => []

/-- The claims of the login itself do not stay with the identity. -/
def providerAuthentication (identity : ExternalIdentity) (protocol : ProviderProtocol)
    (now : Int) : AuthenticationResult :=
  let methodClaim := identity.claims.get "amr"
  let assuranceClaim := identity.claims.get "acr"
  let identity := { identity with claims := (identity.claims.erase "amr").erase "acr" }
  match protocol with
  | .oauth2 => .new identity ["oauth2"] none now
  | .oidc =>
      let amr := claimedMethods methodClaim
      let acr := (assuranceClaim.bind Json.toStr).filter fun value =>
        value ≠ "" ∧ value.utf8ByteSize ≤ 512
      .new identity (if amr.isEmpty then ["oidc"] else amr) acr now

def providerError : ApiError := .unavailable "external identity provider authentication failed"

/-! The calls. -/

structure OAuthChallenge where
  provider : String
  returnUri : String
  redirectAfterLogin : Bool
  nonce : Option String
  pkceVerifier : Option String
  linkPrincipalId : Option String

inductive OAuthCall
  | pipeline (call : PipelineCall)
  | putChallenge (state : String) (challenge : OAuthChallenge)
  | consumeChallenge (state : String)
  | authenticate (provider : String) (callback : OAuthLikeCallback)
  | clock

def OAuthCall.Answer : OAuthCall → Type
  | .pipeline call => call.Answer
  | .putChallenge _ _ => Except ChallengeError Unit
  | .consumeChallenge _ => Except ChallengeError (Option OAuthChallenge)
  | .authenticate _ _ => Option ExternalIdentity
  | .clock => Nat

/-- What the calls of a task did. A use names the entry that opened the flow. -/
inductive FlowRecord
  | opened (task : Nat) (state : String) (challenge : OAuthChallenge)
  | used (task opened : Nat) (state : String) (challenge : OAuthChallenge)
  | authenticated (task : Nat) (provider : String) (callback : OAuthLikeCallback)
      (identity : ExternalIdentity)

structure WaitingFlow where
  state : String
  challenge : OAuthChallenge
  opened : Nat

/-- The tables and the flows that wait for their callback. The journal is not stored: it
keeps what the calls on flows and providers did, oldest first. -/
structure OAuthStore where
  iam : IamDatabase
  flows : List WaitingFlow
  journal : List FlowRecord

namespace OAuthStore

variable (store : OAuthStore)

def waiting (state : String) : Option WaitingFlow := store.flows.find? (·.state = state)

def remove (state : String) : OAuthStore :=
  { store with flows := store.flows.filter (·.state ≠ state) }

def record (entry : FlowRecord) : OAuthStore :=
  { store with journal := store.journal ++ [entry] }

/-- The flow is stored in place of one that is over. -/
def openFlow (task : Nat) (state : String) (challenge : OAuthChallenge) : OAuthStore where
  iam := store.iam
  flows := ⟨state, challenge, store.journal.length⟩ :: (store.remove state).flows
  journal := store.journal ++ [.opened task state challenge]

end OAuthStore

/-- How a call ends; a call to a provider ends with its answer. -/
inductive OAuthOutcome
  | ended (outcome : CallOutcome)
  | authenticated (identity : Option ExternalIdentity)

def OAuthOutcome.toCall : OAuthOutcome → Option CallOutcome
  | .ended outcome => some outcome
  | .authenticated _ => none

def OAuthStore.putChallenge (store : OAuthStore) (task : Nat) (state : String)
    (challenge : OAuthChallenge) : CallOutcome → Except ChallengeError Unit × OAuthStore
  | .answered _ =>
      match store.waiting state with
      | some _ => (.error .backend, store)
      | none => (.ok (), store.openFlow task state challenge)
  | .expired => (.ok (), store.openFlow task state challenge)
  | .failed _ => (.error .backend, store)
  | .lost _ _ =>
      match store.waiting state with
      | some _ => (.error .backend, store)
      | none => (.error .backend, store.openFlow task state challenge)

def OAuthStore.consumeChallenge (store : OAuthStore) (task : Nat) (state : String) :
    CallOutcome → Except ChallengeError (Option OAuthChallenge) × OAuthStore
  | .answered _ =>
      match store.waiting state with
      | none => (.ok none, store)
      | some flow =>
          (.ok (some flow.challenge),
            (store.remove state).record (.used task flow.opened state flow.challenge))
  | .expired => (.ok none, store.remove state)
  | .failed _ => (.error .backend, store)
  | .lost _ _ => (.error .backend, store.remove state)

def OAuthCall.exec (task : Nat) (call : OAuthCall) (outcome : OAuthOutcome)
    (store : OAuthStore) : Option (call.Answer × OAuthStore) :=
  match call with
  | .pipeline (.identity call) =>
      (outcome.toCall.bind CallOutcome.toStore).bind fun outcome =>
        (call.exec outcome store.iam).map fun (answer, iam) => (answer, { store with iam })
  | .pipeline .now | .clock =>
      match outcome with
      | .ended (.answered now) => some (now, store)
      | _ => none
  | .putChallenge state challenge =>
      outcome.toCall.map (store.putChallenge task state challenge)
  | .consumeChallenge state => outcome.toCall.map (store.consumeChallenge task state)
  | .authenticate provider callback =>
      match outcome with
      | .authenticated none => some (none, store)
      | .authenticated (some identity) =>
          some (some identity, store.record (.authenticated task provider callback identity))
      | .ended _ => none

abbrev OAuthProgram := Program OAuthCall OAuthCall.Answer ApiError

namespace OAuthProgram

def ofOption {α : Type} (error : ApiError) : Option α → OAuthProgram α
  | none => .fail error
  | some value => .ok value

def ofExcept {α : Type} : Except ApiError α → OAuthProgram α
  | .error error => .fail error
  | .ok value => .ok value

def putChallenge (state : String) (challenge : OAuthChallenge) : OAuthProgram Unit :=
  .call (.putChallenge state challenge) fun answer => ofExcept (answer.mapError .challenge)

def consumeChallenge (state : String) : OAuthProgram (Option OAuthChallenge) :=
  .call (.consumeChallenge state) fun answer => ofExcept (answer.mapError .challenge)

def authenticate (provider : String) (callback : OAuthLikeCallback) :
    OAuthProgram ExternalIdentity :=
  .call (.authenticate provider callback) (ofOption providerError)

def clock : OAuthProgram Nat := .call .clock .ok

end OAuthProgram

def PipelineProgram.finishFlow {β : Type} (program : PipelineProgram β) : OAuthProgram β :=
  program.lift .pipeline (fun _ answer => answer) .pipeline

/-! The endpoints. -/

inductive OAuthReply
  | authorize (url : String)
  | loggedIn (response : LoginResponse)
  | redirected (response : LoginResponse)

def OAuthReply.response : OAuthReply → Option LoginResponse
  | .authorize _ => none
  | .loggedIn response | .redirected response => some response

def LoginResponse.intoRedirect (response : LoginResponse) : OAuthReply :=
  if response.returnUri = "" then .loggedIn response else .redirected response

/-- `state` are the bytes of the state value, `drawn` those of the adapter, `random` those of
a new principal. The principal of the caller's token is given as it was validated. -/
inductive OAuthRequest
  | authorize (provider : String) (query : AuthorizeQuery) (host : Option String)
      (state drawn : List UInt8)
  | linkAuthorize (caller : Except TokenError String) (provider : String)
      (query : AuthorizeQuery) (host : Option String) (state drawn : List UInt8)
  | callback (provider : String) (query : CallbackQuery) (random : List UInt8)

/-- A request, and the browser that sends it. -/
structure SentRequest where
  browser : Nat
  request : OAuthRequest

structure OAuth2Handler where
  providers : SortedMap String ProviderRuntime
  applications : SortedMap String ApplicationProperties
  pipeline : AuthenticationPipeline

def ProviderRuntime.callback (runtime : ProviderRuntime) (code : String)
    (flow : OAuthChallenge) : OAuthLikeCallback where
  authorizationCode := code
  redirectUri := runtime.callbackUrl
  clientId := runtime.clientId
  clientSecret := runtime.clientSecret
  nonce := flow.nonce
  pkceVerifier := flow.pkceVerifier

namespace OAuth2Handler

variable (handler : OAuth2Handler)

def runtime (provider : String) : Except ApiError ProviderRuntime :=
  match handler.providers.get provider with
  | none => .error (.notFound "authentication provider is not configured")
  | some runtime => .ok runtime

section
variable [UrlParts] [Wire]

def destination (host : Option String) (returnUri : String) (redirectAfterLogin : Bool) :
    Except ApiError String :=
  let resolver : ApplicationResolver := ⟨handler.applications, host⟩
  if redirectAfterLogin then resolver.validateReturnTo returnUri
  else resolver.validateResponseReturnUri returnUri

/-- The flow that `prepare_authorization` stores, with where it sends the browser. -/
def prepared (provider : String) (host : Option String) (returnUri : String)
    (redirectAfterLogin : Bool) (linkPrincipalId : Option String) (state : String)
    (drawn : List UInt8) : Except ApiError (String × OAuthChallenge) := do
  let returnUri ← handler.destination host returnUri redirectAfterLogin
  let runtime ← handler.runtime provider
  match runtime.authorize runtime.clientId runtime.callbackUrl state drawn with
  | none => .error providerError
  | some authorization =>
      .ok (authorization.url,
        { provider
          returnUri
          redirectAfterLogin
          nonce := authorization.nonce
          pkceVerifier := authorization.pkceVerifier
          linkPrincipalId })

def prepareAuthorization (provider : String) (host : Option String) (query : AuthorizeQuery)
    (linkPrincipalId : Option String) (state drawn : List UInt8) : OAuthProgram OAuthReply := do
  let (returnUri, redirectAfterLogin) ← OAuthProgram.ofExcept query.returnDestination
  let stateValue := Base64Url.encode state
  let (url, challenge) ← OAuthProgram.ofExcept
    (handler.prepared provider host returnUri redirectAfterLogin linkPrincipalId stateValue drawn)
  OAuthProgram.putChallenge stateValue challenge
  .ok (.authorize url)

def authorize (provider : String) (query : AuthorizeQuery) (host : Option String)
    (state drawn : List UInt8) : OAuthProgram OAuthReply :=
  handler.prepareAuthorization provider host query none state drawn

def linkAuthorize (caller : Except TokenError String) (provider : String)
    (query : AuthorizeQuery) (host : Option String) (state drawn : List UInt8) :
    OAuthProgram OAuthReply := do
  let principalId ← OAuthProgram.ofExcept (caller.mapError .token)
  handler.prepareAuthorization provider host query (some principalId) state drawn

end

section
variable [Wire] [Keys]

/-- A flow that was opened for a link ends in one, any other in a login. -/
def complete (flow : OAuthChallenge) (authentication : AuthenticationResult)
    (random : List UInt8) : PipelineProgram IssuedAuthentication :=
  match flow.linkPrincipalId with
  | some principalId => handler.pipeline.link principalId authentication
  | none => handler.pipeline.login authentication .user random

def callback (provider : String) (query : CallbackQuery) (random : List UInt8) :
    OAuthProgram OAuthReply := do
  let found ← OAuthProgram.consumeChallenge query.state
  let flow ← OAuthProgram.ofOption (.badRequest "invalid or expired OAuth state")
    (found.filter fun flow => flow.provider = provider)
  let runtime ← OAuthProgram.ofExcept (handler.runtime provider)
  let identity ← OAuthProgram.authenticate provider (runtime.callback query.code flow)
  let now ← OAuthProgram.clock
  let authentication := providerAuthentication identity runtime.protocol now
  let issued ← (handler.complete flow authentication random).finishFlow
  let response : LoginResponse := { issued, returnUri := flow.returnUri }
  .ok (if flow.redirectAfterLogin then response.intoRedirect else .loggedIn response)

end

variable [UrlParts] [Wire] [Keys]

/-- The browser is not looked at. -/
def serve (sent : SentRequest) : OAuthProgram OAuthReply :=
  match sent.request with
  | .authorize provider query host state drawn => handler.authorize provider query host state drawn
  | .linkAuthorize caller provider query host state drawn =>
      handler.linkAuthorize caller provider query host state drawn
  | .callback provider query random => handler.callback provider query random

end OAuth2Handler

abbrev OAuthPool :=
  Pool OAuthCall OAuthCall.Answer ApiError OAuthReply SentRequest OAuthStore

abbrev OAuthEvent := PoolEvent SentRequest OAuthOutcome

def OAuth2Handler.oauthStep [UrlParts] [Wire] [Keys] (handler : OAuth2Handler) :
    OAuthPool → OAuthEvent → Option OAuthPool :=
  Pool.step handler.serve OAuthCall.exec

end Authguard
