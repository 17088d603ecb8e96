import Authguard.Authn.TokenIssuer
import Authguard.Library.Base64Url
import Authguard.Library.Program
import Authguard.Storage.PrincipalStore

/-!
Resolution of external identities to principals (`authn/src/principal/jit.rs`)
over the identity repository (`common/src/storage/principal_sqlite.rs`,
`principal_postgres.rs`). A login and an explicit link are programs over the
calls of the repository, each call one transaction.
-/

namespace Authguard
open Text

/-! Identities (`common/src/model/identity.rs`). -/

inductive IdentityModelError
  | invalidIdentityComponent (name : String)
  deriving DecidableEq

def IdentityModelError.toString : IdentityModelError → String
  | .invalidIdentityComponent name =>
      "external identity " ++ name ++ " must contain 1 to 512 canonical bytes"

def ExternalIdentityKey.new (provider issuer subject : String) :
    Except IdentityModelError ExternalIdentityKey :=
  if !validateCanonical provider then .error (.invalidIdentityComponent "provider")
  else if !validateCanonical issuer then .error (.invalidIdentityComponent "issuer")
  else if !validateCanonical subject then .error (.invalidIdentityComponent "subject")
  else .ok ⟨provider, issuer, subject⟩

def ExternalIdentity.key (identity : ExternalIdentity) :
    Except IdentityModelError ExternalIdentityKey :=
  ExternalIdentityKey.new identity.provider identity.issuer identity.subject

/-! The repository. -/

inductive IdentityRepositoryError
  | identityAlreadyBound
  | backend (message : String)
  deriving DecidableEq

/-- `map_identity_error`; the text of a broken constraint is left out. -/
def mapIdentityError : Violation → IdentityRepositoryError
  | .unique => .identityAlreadyBound
  | .check | .foreignKey => .backend ""

def ExternalIdentity.boundTo (identity : ExternalIdentity) (principalId : String) :
    IamPrincipalIdentityInfo :=
  { principalId
    provider := identity.provider
    issuer := identity.issuer
    subject := identity.subject
    claims := .object identity.claims.entries }

namespace IamDatabase

def createPrincipalAndBind (db : IamDatabase) (principal : PrincipalRow)
    (identity : ExternalIdentity) :
    Except IdentityRepositoryError (PrincipalRow × IamDatabase) := do
  let created ← (db.insertPrincipal principal).mapError mapIdentityError
  let bound ← (created.insertIdentity (identity.boundTo principal.id)).mapError mapIdentityError
  .ok (principal, bound)

def bindIdentity (db : IamDatabase) (principalId : String) (identity : ExternalIdentity) :
    Except IdentityRepositoryError (PrincipalRow × IamDatabase) :=
  match db.principals.find principalId with
  | none => .error (.backend "missing principal")
  | some principal => do
      let bound ← (db.insertIdentity (identity.boundTo principalId)).mapError mapIdentityError
      .ok (principal, bound)

def principalHasProvider (db : IamDatabase) (principalId provider : String) : Bool :=
  db.identities.rows.any fun row => row.principalId = principalId ∧ row.provider = provider

end IamDatabase

inductive IdentityCall
  | findPrincipalByIdentity (key : ExternalIdentityKey)
  | createPrincipalAndBind (principal : PrincipalRow) (identity : ExternalIdentity)
  | bindIdentity (principalId : String) (identity : ExternalIdentity)
  | principalHasProvider (principalId provider : String)

def IdentityCall.Answer : IdentityCall → Type
  | .findPrincipalByIdentity _ => Except IdentityRepositoryError (Option PrincipalRow)
  | .createPrincipalAndBind _ _ => Except IdentityRepositoryError PrincipalRow
  | .bindIdentity _ _ => Except IdentityRepositoryError PrincipalRow
  | .principalHasProvider _ _ => Except IdentityRepositoryError Bool

def IdentityCall.exec (call : IdentityCall) (outcome : StoreOutcome) (db : IamDatabase) :
    Option (call.Answer × IamDatabase) :=
  match call with
  | .findPrincipalByIdentity key =>
      some (readCall db .backend (db.findPrincipalByIdentity key) outcome)
  | .createPrincipalAndBind principal identity =>
      some (writeCall db .backend (db.createPrincipalAndBind principal identity) outcome)
  | .bindIdentity principalId identity =>
      some (writeCall db .backend (db.bindIdentity principalId identity) outcome)
  | .principalHasProvider principalId provider =>
      some (readCall db .backend (db.principalHasProvider principalId provider) outcome)

/-! The service. -/

inductive LinkingStrategy
  | explicit
  | firstLogin
  deriving DecidableEq

structure AccountLinkingProperties where
  strategy : LinkingStrategy
  authoritativeProviders : List String
  allowLink : SortedMap String (List String)

inductive AccountLinkingError
  | invalidIdentity (error : IdentityModelError)
  | authoritativeLoginRequired (provider : String)
  | linkNotAllowed (provider : String)
  | principalDisabled (id : String)
  | identityAlreadyBound
  | repository (message : String)
  deriving DecidableEq

def AccountLinkingError.toString : AccountLinkingError → String
  | .invalidIdentity error => error.toString
  | .authoritativeLoginRequired provider =>
      "unbound provider `" ++ provider ++ "` requires authoritative login before linking"
  | .linkNotAllowed provider =>
      "linking provider `" ++ provider ++ "` is not allowed for this Principal"
  | .principalDisabled id => "Principal `" ++ id ++ "` is disabled"
  | .identityAlreadyBound => "external identity is already bound to another Principal"
  | .repository message => "account-linking repository failed: " ++ message

def AccountLinkingError.ofRepository : IdentityRepositoryError → AccountLinkingError
  | .identityAlreadyBound => .identityAlreadyBound
  | .backend message => .repository message

abbrev LinkProgram := Program IdentityCall IdentityCall.Answer AccountLinkingError

namespace LinkProgram

def answered {α : Type} : Except IdentityRepositoryError α → LinkProgram α
  | .ok value => .ok value
  | .error error => .fail (.ofRepository error)

def findPrincipalByIdentity (key : ExternalIdentityKey) : LinkProgram (Option PrincipalRow) :=
  .call (.findPrincipalByIdentity key) answered

def createPrincipalAndBind (principal : PrincipalRow) (identity : ExternalIdentity) :
    LinkProgram PrincipalRow :=
  .call (.createPrincipalAndBind principal identity) answered

def bindIdentity (principalId : String) (identity : ExternalIdentity) :
    LinkProgram PrincipalRow :=
  .call (.bindIdentity principalId identity) answered

def principalHasProvider (principalId provider : String) : LinkProgram Bool :=
  .call (.principalHasProvider principalId provider) answered

end LinkProgram

def ExternalIdentity.validKey (identity : ExternalIdentity) : LinkProgram ExternalIdentityKey :=
  match identity.key with
  | .ok key => .ok key
  | .error error => .fail (.invalidIdentity error)

def displayNameClaims : List String := ["display_name", "username", "email"]

/-- `random` are the bytes of the identifier. -/
def newPrincipal (identity : ExternalIdentity) (kind : PrincipalKind) (random : List UInt8) :
    PrincipalRow :=
  let claimed := displayNameClaims.findSome? fun name =>
    (identity.claims.get name).bind Json.toStr
  { id := "P_" ++ Base64Url.encode random
    kind
    displayName := (claimed.filter fun value => !isBlank value).getD identity.subject
    status := .active
    authorizationState := .empty }

def loginContext (principal : PrincipalRow) (authentication : AuthenticationResult) :
    LinkProgram AuthenticatedPrincipalContext :=
  if principal.status ≠ .active then
    .fail (.principalDisabled principal.id)
  else
    .ok
      { principalId := principal.id
        kind := principal.kind
        stableGroupIds := []
        trustedClaims := .empty
        acr := authentication.acr
        amr := authentication.amr }

/-- The providers the strategy lets create a principal. -/
def AccountLinkingProperties.creates (policy : AccountLinkingProperties) (provider : String) :
    Bool :=
  policy.strategy = .firstLogin || policy.authoritativeProviders.contains provider

structure AccountLinkingService where
  policy : AccountLinkingProperties

namespace AccountLinkingService

variable (service : AccountLinkingService)

def resolveLogin (authentication : AuthenticationResult) (kind : PrincipalKind)
    (random : List UInt8) : LinkProgram AuthenticatedPrincipalContext := do
  let identity := authentication.externalIdentity
  let key ← identity.validKey
  match ← LinkProgram.findPrincipalByIdentity key with
  | some principal => loginContext principal authentication
  | none =>
      if service.policy.creates identity.provider then
        let principal ←
          LinkProgram.createPrincipalAndBind (newPrincipal identity kind random) identity
        loginContext principal authentication
      else
        .fail (.authoritativeLoginRequired identity.provider)

/-- The loop over `allow_link`: it stops at the first entry that permits the link. -/
def permitted (principalId provider : String) :
    List (String × List String) → LinkProgram Bool
  | [] => .ok false
  | (authoritative, secondary) :: rest =>
      if secondary.contains provider then do
        if ← LinkProgram.principalHasProvider principalId authoritative then
          .ok true
        else
          permitted principalId provider rest
      else
        permitted principalId provider rest

def linkIdentity (authenticatedPrincipalId : String) (authentication : AuthenticationResult) :
    LinkProgram AuthenticatedPrincipalContext := do
  let identity := authentication.externalIdentity
  let _ ← identity.validKey
  if ← permitted authenticatedPrincipalId identity.provider service.policy.allowLink.entries then
    let principal ← LinkProgram.bindIdentity authenticatedPrincipalId identity
    loginContext principal authentication
  else
    .fail (.linkNotAllowed identity.provider)

end AccountLinkingService

/-! Any number of logins and links over one database. -/

inductive LinkRequest
  | resolveLogin (authentication : AuthenticationResult) (kind : PrincipalKind)
      (random : List UInt8)
  | linkIdentity (principalId : String) (authentication : AuthenticationResult)

def AccountLinkingService.serve (service : AccountLinkingService) :
    LinkRequest → LinkProgram AuthenticatedPrincipalContext
  | .resolveLogin authentication kind random => service.resolveLogin authentication kind random
  | .linkIdentity principalId authentication => service.linkIdentity principalId authentication

abbrev LinkPool :=
  Pool IdentityCall IdentityCall.Answer AccountLinkingError AuthenticatedPrincipalContext
    LinkRequest IamDatabase

abbrev LinkEvent := PoolEvent LinkRequest StoreOutcome

def AccountLinkingService.linkStep (service : AccountLinkingService) :
    LinkPool → LinkEvent → Option LinkPool :=
  Pool.step service.serve fun _ => IdentityCall.exec

end Authguard
