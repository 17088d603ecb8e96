import Authguard.Common.PrincipalDiscovery

/-!
The connector for in-house identity systems (`common/src/principal/custom.rs`),
whose requests and responses are mapped in the configuration. The base URL and
the bearer token are left out of the requests.
-/

namespace Authguard
open Text PrincipalSearchQuery

structure CustomRequestBinding where
  path : String
  textParam : String
  offsetParam : String
  limitParam : String
  externalIdParam : String
  bodyTemplate : Option String

structure CustomResponseMapping where
  arrayPath : String
  idAttr : String
  displayNameAttr : String
  enabledAttr : Option String
  kindAttr : Option String

/-- The page size is checked when the connector is made. -/
structure CustomPrincipalDiscovery where
  providerId : String
  issuer : String
  request : CustomRequestBinding
  response : CustomResponseMapping
  maxPageSize : Nat
  maxPageSize_valid : 1 ≤ maxPageSize ∧ maxPageSize ≤ PrincipalSearchQuery.maxPageSize

/-- The segments go after those of the base URL; a request with a body is a `POST`. -/
structure CustomHttpRequest where
  segments : List String
  query : List (String × String)
  body : Option String

/-! What is checked when a connector is made. -/

/-- `isJson` is what the JSON reader takes. -/
def validateBodyTemplate (isJson : String → Bool) :
    Option String → Except PrincipalDiscoveryError Unit
  | none => .ok ()
  | some template =>
      if isJson template then .ok ()
      else
        .error (.invalidConfiguration "HTTP discovery request.body_template must be valid JSON")

def validateRequestPath (path : String) : Except PrincipalDiscoveryError Unit :=
  if path = "" ∨ trim path ≠ path ∨ path.toList.head? = some '/' ∨ contains '?' path ∨
      contains '#' path then
    .error (.invalidConfiguration
      "HTTP discovery request.path must be a non-empty relative path such as `users/search`")
  else
    .ok ()

/-! Templates. -/

/-- What is before the first occurrence, and what is after it. -/
def cutAt (mark : List Char) : List Char → Option (List Char × List Char)
  | [] => none
  | c :: cs =>
      if mark.isPrefixOf (c :: cs) then some ([], (c :: cs).drop mark.length)
      else (cutAt mark cs).map fun (before, rest) => (c :: before, rest)

/-- Each turn takes a placeholder, so the length of the template bounds them. -/
def renderChars (resolve : String → Option String) : Nat → List Char → List Char
  | 0, rest => rest
  | fuel + 1, rest =>
      match cutAt "\x7b\x7b".toList rest with
      | none => rest
      | some (before, inside) =>
          match cutAt "\x7d\x7d".toList inside with
          | none => before ++ rest
          | some (name, after) =>
              match resolve (trim (String.ofList name)) with
              | some value => before ++ value.toList ++ renderChars resolve fuel after
              | none =>
                  before ++ "\x7b\x7b".toList ++ name ++ "\x7d\x7d".toList ++
                    renderChars resolve fuel after

/-- Unknown placeholders stay as they are. -/
def render (template : String) (resolve : String → Option String) : String :=
  String.ofList (renderChars resolve template.toList.length template.toList)

def kindPlaceholderValue : PrincipalKind → String
  | .group => "group"
  | .workload => "workload"
  | .user => "user"

def cursorStream : PrincipalKind → String
  | .group => "groups"
  | .user | .workload => "users"

def pathSegments (path : String) : List String := (splitChar '/' path).filter (· ≠ "")

/-! Responses. -/

def replacePair (first second value : Char) : List Char → List Char
  | c :: d :: rest =>
      if c = first ∧ d = second then value :: replacePair first second value rest
      else c :: replacePair first second value (d :: rest)
  | rest => rest

/-- One step of a JSON pointer. -/
def pointerName (reference : String) : String :=
  String.ofList (replacePair '~' '0' '~' (replacePair '~' '1' '/' reference.toList))

def asArray : Json → Option (List Json)
  | .array items => some items
  | _ => none

def selectArray (path : String) (payload : Json) : Option (List Json) :=
  if path = "" then
    asArray payload
  else do
    let selected ← (splitChar '/' path).tail.foldlM
      (fun current reference => (objectOf current).bind fun object => object.get (pointerName reference))
      payload
    asArray selected

def asStr : Option Json → Option String
  | some (.string value) => some value
  | _ => none

namespace CustomPrincipalDiscovery

variable (discovery : CustomPrincipalDiscovery)

def invalidResponse (message : String) : PrincipalDiscoveryError :=
  .invalidResponse discovery.providerId message

def streamOffset (query : PrincipalSearchQuery) (stream : String) :
    Except PrincipalDiscoveryError Nat :=
  query.offsetOf (cursorKey discovery.providerId stream) discovery.providerId

def searchRequest (query : PrincipalSearchQuery) (kind : PrincipalKind) (offset limit : Nat) :
    CustomHttpRequest :=
  { segments := pathSegments (render discovery.request.path fun placeholder =>
      if placeholder = "kind" then some (kindPlaceholderValue kind) else none)
    query :=
      [(discovery.request.textParam, trim query.text),
        (discovery.request.offsetParam, offset.repr),
        (discovery.request.limitParam, limit.repr)]
    body := discovery.request.bodyTemplate.map fun template =>
      render template fun placeholder =>
        if placeholder = "search" then some (trim query.text)
        else if placeholder = "offset" then some offset.repr
        else if placeholder = "limit" then some limit.repr
        else if placeholder = "kind" then some (kindPlaceholderValue kind)
        else none }

def resolveRequest (externalId : String) (kind : PrincipalKind) : CustomHttpRequest :=
  { segments := pathSegments (render discovery.request.path fun placeholder =>
      if placeholder = "external_id" then some externalId
      else if placeholder = "kind" then some (kindPlaceholderValue kind)
      else none)
    query := [(discovery.request.externalIdParam, externalId)]
    body := discovery.request.bodyTemplate.map fun template =>
      render template fun placeholder =>
        if placeholder = "external_id" then some externalId else none }

/-- The kind an entry says it has; one that says nothing known is a user. -/
def kindOf (object : JsonMap) (defaultKind : PrincipalKind) : PrincipalKind :=
  match discovery.response.kindAttr with
  | none => defaultKind
  | some kindAttr =>
      match asStr (object.get kindAttr) with
      | some value =>
          if value ∈ ["GROUP", "group", "Group"] then .group
          else if value ∈ ["WORKLOAD", "workload", "SERVICE_ACCOUNT", "service_account"] then
            .workload
          else .user
      | none => .user

def enabledOf (object : JsonMap) : Bool :=
  match discovery.response.enabledAttr with
  | none => true
  | some enabledAttr =>
      match object.get enabledAttr with
      | some (.bool enabled) => enabled
      | some (.string enabled) => !eqIgnoreAsciiCase enabled "false"
      | _ => false

def mapEntry (entry : Json) (defaultKind : PrincipalKind) :
    Except PrincipalDiscoveryError PrincipalProjection :=
  match objectOf entry with
  | none => .error (discovery.invalidResponse "custom search entry is not a JSON object")
  | some object =>
      match (asStr (object.get discovery.response.idAttr)).filter isCanonical with
      | none =>
          .error (discovery.invalidResponse "custom search entry has no canonical id attribute")
      | some id =>
          let kind := discovery.kindOf object defaultKind
          let externalId := if kind = .group then "group:" ++ id else id
          .ok
            { providerId := discovery.providerId
              issuer := discovery.issuer
              externalId
              kind
              displayName :=
                ((asStr (object.get discovery.response.displayNameAttr)).filter fun name =>
                  !isBlank name).getD externalId
              enabled := discovery.enabledOf object
              attributes := object }

variable (api : CustomHttpRequest → Except String DirectoryResponse)

def requestKind (kind : PrincipalKind) (query : PrincipalSearchQuery) :
    Except PrincipalDiscoveryError PrincipalSearchPage := do
  let offset ← discovery.streamOffset query (cursorStream kind)
  let limit := min query.perProviderLimit discovery.maxPageSize
  let response ← exchanged discovery.providerId "search"
    (api (discovery.searchRequest query kind offset limit))
  ensureSuccess discovery.providerId "search" response
  match response.body with
  | none => .error (discovery.invalidResponse "custom search response is not valid JSON")
  | some payload =>
      match selectArray discovery.response.arrayPath payload with
      | none =>
          .error (discovery.invalidResponse
            "custom search response has no array at the configured array_path")
      | some items =>
          let principals ← Result.collect (discovery.mapEntry · kind) items
          .ok
            { principals := principals.filter fun principal => query.supportsKind principal.kind
              nextCursors :=
                nextCursor (cursorKey discovery.providerId (cursorStream kind)) offset limit
                  items.length }

/-- The two requests are made at once; where both fail, either may be reported. -/
def discover (query : PrincipalSearchQuery) :
    Except PrincipalDiscoveryError PrincipalSearchPage := do
  validateSearchQuery query
  let searchUsers := query.supportsKind .user || query.supportsKind .workload
  let searchGroups := query.supportsKind .group
  let userKind := if query.supportsKind .workload then PrincipalKind.workload else .user
  match searchUsers, searchGroups with
  | true, true =>
      let users ← discovery.requestKind api userKind query
      let groups ← discovery.requestKind api .group query
      .ok (users.extend groups)
  | true, false => discovery.requestKind api userKind query
  | false, true => discovery.requestKind api .group query
  | false, false => .ok .empty

/-- The kind and the identifier a reference asks for. -/
def requested (externalId : String) : PrincipalKind × String :=
  match stripPrefix "group:" externalId with
  | some id => if id ≠ "" then (.group, id) else (.user, externalId)
  | none => (.user, externalId)

def resolvePrincipal (reference : ExternalPrincipalRef) :
    Except PrincipalDiscoveryError (Option PrincipalProjection) :=
  if reference.providerId ≠ discovery.providerId then
    .error (.unknownProvider reference.providerId)
  else if reference.issuer ≠ discovery.issuer then
    .error (.invalidQuery "principal issuer does not match provider issuer")
  else if !isCanonical reference.externalId then
    .error (.invalidQuery "principal external_id must be canonical and non-empty")
  else do
    let (kind, id) := requested reference.externalId
    let response ← exchanged discovery.providerId "resolve" (api (discovery.resolveRequest id kind))
    if response.status = 404 then
      .ok none
    else
      ensureSuccess discovery.providerId "resolve" response
      match response.body with
      | none => .error (discovery.invalidResponse "custom resolve response is not valid JSON")
      | some payload =>
          if ((objectOf payload).bind (·.get discovery.response.idAttr)).isNone then
            .ok none
          else
            let entry ← discovery.mapEntry payload kind
            if entry.externalId ≠ reference.externalId then
              .error (discovery.invalidResponse
                "resolved principal external_id does not match request")
            else
              .ok (some entry)

def provider : SearchProvider where
  providerId := discovery.providerId
  discover := discovery.discover api
  resolvePrincipal := discovery.resolvePrincipal api

end CustomPrincipalDiscovery

end Authguard
