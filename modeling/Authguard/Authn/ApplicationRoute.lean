import Authguard.Authn.AuthenticationPipeline
import Authguard.Library.WebUrl

/-!
Applications and the destinations a login may return to
(`authn/src/route/application.rs`). Addresses are read by `Url::parse`.
-/

namespace Authguard
open Text

structure ApplicationThemeProperties where
  id : String
  stylesheet : String
  deriving DecidableEq

structure ApplicationProperties where
  hosts : List String
  displayName : String
  logo : String
  theme : Option ApplicationThemeProperties
  returnUris : List String
  deriving DecidableEq

structure ResolvedApplication where
  id : String
  displayName : String
  logo : String
  theme : Option ApplicationThemeProperties
  properties : ApplicationProperties
  deriving DecidableEq

/-- `host` is the value of the `Host` header. -/
structure ApplicationResolver where
  applications : SortedMap String ApplicationProperties
  host : Option String

def isAsciiControl (c : Char) : Bool := c.toNat ≤ 0x1F || c.toNat = 0x7F

/-- `trim_end_matches('/')`. -/
def trimSlashes (path : String) : String := String.ofList (path.toList.rdropWhile (· = '/'))

def Url.portOrKnownDefault (url : Url) : Option Nat :=
  url.port.or <|
    if url.scheme = "http" ∨ url.scheme = "ws" then some 80
    else if url.scheme = "https" ∨ url.scheme = "wss" then some 443
    else if url.scheme = "ftp" then some 21
    else none

/-- `strip_suffix("/**")`, and whether there was one. -/
def stripWildcard (configured : String) : String × Bool :=
  if configured.toList.reverse.take 3 = ['*', '*', '/'] then
    (String.ofList (configured.toList.take (configured.toList.length - 3)), true)
  else
    (configured, false)

section
variable [UrlParts]

/-- One turn of the loop over `return_uris`. -/
def matchesConfigured (candidate : Url) (configured : String) : Bool :=
  let (pre, wildcard) := stripWildcard configured
  match Url.parse pre with
  | none => false
  | some configured =>
      if candidate.scheme ≠ configured.scheme ∨ candidate.host ≠ configured.host ∨
          candidate.portOrKnownDefault ≠ configured.portOrKnownDefault then
        false
      else if wildcard then
        let path := trimSlashes configured.path
        path = "" || candidate.path = path || (path ++ "/").toList.isPrefixOf candidate.path.toList
      else
        candidate.path = configured.path

def matchesReturnUri (application : ApplicationProperties) (candidate : Url) : Bool :=
  application.returnUris.any (matchesConfigured candidate)

namespace ApplicationResolver

variable [Wire] (resolver : ApplicationResolver)

def requestHost : Except ApiError (Option String) :=
  match resolver.host with
  | none => .ok none
  | some value =>
      if !Wire.isText value then .error (.badRequest "Host header is invalid")
      else if value = "" ∨ value.toList.any (fun c => c = '/' || c = '@' || c = '\\') then
        .error (.badRequest "Host header is invalid")
      else
        match Url.parse ("https://" ++ value) with
        | none => .error (.badRequest "Host header is invalid")
        | some parsed =>
            if parsed.username ≠ "" ∨ parsed.password.isSome ∨ parsed.path ≠ "/" then
              .error (.badRequest "Host header is invalid")
            else
              match parsed.host with
              | none => .error (.badRequest "Host header is invalid")
              | some host => .ok (some (toAsciiLowercase host))

def resolve : Except ApiError (Option ResolvedApplication) := do
  match ← resolver.requestHost with
  | none => .ok none
  | some host =>
      .ok (resolver.applications.entries.findSome? fun (id, application) =>
        if application.hosts.contains host then
          some
            { id
              displayName := application.displayName
              logo := application.logo
              theme := application.theme
              properties := application }
        else
          none)

/-- The address of a destination that begins with a slash. -/
def rootedCandidate (host destination : String) : Except ApiError Url :=
  if destination.toList.take 2 = ['/', '/'] ∨ destination.toList.contains '\\' ∨
      destination.toList.any isAsciiControl then
    .error (.badRequest "return_to must be a same-origin path")
  else
    match Url.parse ("https://" ++ host ++ destination) with
    | none => .error (.badRequest "return_to is invalid")
    | some candidate => .ok candidate

/-- The address of any other destination. -/
def absoluteCandidate (application : Option ResolvedApplication) (host destination : String) :
    Except ApiError Url :=
  match application with
  | none => .error (.badRequest "absolute return_to requires a configured application")
  | some application =>
      match Url.parse destination with
      | none => .error (.badRequest "return_to is invalid")
      | some parsed =>
          if parsed.scheme ≠ "https" ∨ parsed.host ≠ some host ∨ parsed.username ≠ "" ∨
              parsed.password.isSome ∨ parsed.fragment.isSome then
            .error (.badRequest "return_to must target the current HTTPS host")
          else if !matchesReturnUri application.properties parsed then
            .error (.badRequest "return_to is not configured for this application")
          else
            .ok parsed

def destinationCandidate (application : Option ResolvedApplication) (host destination : String) :
    Except ApiError Url :=
  if destination.toList.head? = some '/' then rootedCandidate host destination
  else absoluteCandidate application host destination

def requiredHost : Except ApiError String :=
  match resolver.requestHost with
  | .error error => .error error
  | .ok none => .error (.badRequest "Host header is required")
  | .ok (some host) => .ok host

def validateDestination (destination : String) (requireApplication : Bool) :
    Except ApiError String :=
  if destination = "" then
    .ok ""
  else do
    let host ← resolver.requiredHost
    let application ← resolver.resolve
    if requireApplication ∧ application.isNone then
      .error (.badRequest "return_to requires a configured application host")
    else do
      let candidate ← destinationCandidate application host destination
      if application.any fun application => !matchesReturnUri application.properties candidate then
        .error (.badRequest "return_to is not configured for this application")
      else
        .ok (candidate.path ++ (candidate.query.map ("?" ++ ·)).getD "")

def validateReturnTo (returnTo : String) : Except ApiError String :=
  resolver.validateDestination returnTo true

/-- Without the requirement of an application. -/
def validateResponseReturnUri (returnUri : String) : Except ApiError String :=
  resolver.validateDestination returnUri false

end ApplicationResolver

end

end Authguard
