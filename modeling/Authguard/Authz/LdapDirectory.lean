import Authguard.Common.PrincipalDiscovery
import Authguard.Library.Base64Url

/-!
The LDAP connector (`authz/src/principal/ldap/ldap.rs`, `model.rs`). What the
directory answers to a search is given; so is `ldap_escape` of the client library.
Settings of the connection and the mail address of an entry are left out.
-/

namespace Authguard
open Text PrincipalSearchQuery

structure LdapObjectMapping where
  searchBase : String
  objectFilter : String
  idAttribute : String
  nameAttribute : String
  displayNameAttribute : Option String
  emailAttribute : Option String
  enabledAttribute : Option String
  searchAttributes : List String

structure LdapPrincipalDiscovery where
  discoveryId : String
  issuer : String
  baseDn : String
  user : LdapObjectMapping
  group : LdapObjectMapping
  maxPageSize : Nat

structure LdapSearchRequest where
  baseDn : String
  filter : String
  attributes : List String
  pageSize : Nat
  cookie : List UInt8

/-- The names of the attributes are in lower case. -/
structure LdapEntry where
  dn : String
  attributes : SortedMap String (List String)

structure LdapSearchPage where
  entries : List LdapEntry
  nextCookie : List UInt8

/-- The client: how it escapes a value in a filter, and what a search answers. -/
structure LdapClient where
  ldapEscape : String → String
  search : LdapSearchRequest → Except PrincipalDiscoveryError LdapSearchPage

def LdapEntry.first (entry : LdapEntry) (name : String) : Option String :=
  (entry.attributes.get (toAsciiLowercase name)).bind List.head?

namespace LdapObjectMapping

variable (mapping : LdapObjectMapping) (client : LdapClient)

def requestedAttributes : List String :=
  sortDedup ([mapping.idAttribute, mapping.nameAttribute] ++ mapping.searchAttributes ++
    mapping.displayNameAttribute.toList ++ mapping.emailAttribute.toList ++
    mapping.enabledAttribute.toList)

def searchFilter (text : String) : String :=
  let escaped := client.ldapEscape (trim text)
  let candidates := mapping.searchAttributes.foldl
    (fun out name => out ++ "(" ++ name ++ "=*" ++ escaped ++ "*)") ""
  "(&" ++ mapping.objectFilter ++ "(|" ++ candidates ++ "))"

def exactFilter (externalId : String) : String :=
  "(&" ++ mapping.objectFilter ++ "(" ++ mapping.idAttribute ++ "=" ++
    client.ldapEscape externalId ++ "))"

end LdapObjectMapping

namespace LdapPrincipalDiscovery

/-- `validate_canonical`, under the name the error gives the value. -/
def validateCanonical (name value : String) : Except PrincipalDiscoveryError Unit :=
  if value = "" ∨ trim value ≠ value ∨
      value.toList.any (fun c => c = '\x00' || c = '\r' || c = '\n') then
    .error (.invalidConfiguration
      ("LDAP " ++ name ++ " must be non-empty and have no surrounding whitespace"))
  else
    .ok ()

def configurationError (message : String) : PrincipalDiscoveryError :=
  .invalidConfiguration ("LDAP " ++ message)

def validateDn (name value : String) (allowEmpty : Bool) : Except PrincipalDiscoveryError Unit :=
  if (!allowEmpty ∧ value = "") ∨ trim value ≠ value ∨
      value.toList.any (fun c => c = '\x00' || c = '\r' || c = '\n') then
    .error (configurationError (name ++ " must be a canonical LDAP distinguished name"))
  else
    .ok ()

/-- The bytes of a name that are accepted are all characters of one byte. -/
def validateAttribute (kind name : String) : Except PrincipalDiscoveryError Unit :=
  if name ≠ "" ∧ trim name = name ∧
      name.toList.all (fun c => c.isAlphanum || c = '-' || c = '.' || c = ';') then
    .ok ()
  else
    .error (configurationError
      (kind ++ " LDAP attribute names must be canonical attribute descriptions"))

/-- `parseFilter` tells whether the client library can read a filter. -/
def validateMapping (parseFilter : String → Bool) (kind : String) (mapping : LdapObjectMapping) :
    Except PrincipalDiscoveryError Unit := do
  validateDn (kind ++ ".search_base") mapping.searchBase true
  if !parseFilter mapping.objectFilter then
    .error (configurationError (kind ++ ".object_filter must be a valid RFC 4515 filter"))
  else
    let attributes := [mapping.idAttribute, mapping.nameAttribute] ++
      mapping.displayNameAttribute.toList ++ mapping.emailAttribute.toList ++
      mapping.enabledAttribute.toList ++ mapping.searchAttributes
    attributes.forM (validateAttribute kind)
    if mapping.searchAttributes = [] ∨ 16 < mapping.searchAttributes.length then
      .error (configurationError
        (kind ++ ".search_attributes must contain between 1 and 16 attributes"))
    else if (sortDedup (mapping.searchAttributes.map toAsciiLowercase)).length ≠
        mapping.searchAttributes.length then
      .error (configurationError (kind ++ ".search_attributes must not contain duplicates"))
    else
      .ok ()

variable (discovery : LdapPrincipalDiscovery)

def invalidResponse (message : String) : PrincipalDiscoveryError :=
  .invalidResponse discovery.discoveryId ("LDAP " ++ message)

def decodeCursor (query : PrincipalSearchQuery) (stream : String) :
    Except PrincipalDiscoveryError (List UInt8) :=
  let key := cursorKey discovery.discoveryId stream
  match (query.cursors.get key).or (query.cursors.get discovery.discoveryId) with
  | none => .ok []
  | some value =>
      match Base64Url.decode value with
      | none =>
          .error (.invalidQuery ("cursor for provider stream " ++ key ++ " is invalid"))
      | some cookie => .ok cookie

def searchDn (mapping : LdapObjectMapping) : String :=
  if mapping.searchBase = "" then discovery.baseDn
  else mapping.searchBase ++ "," ++ discovery.baseDn

def mapping (kind : PrincipalKind) : LdapObjectMapping × String :=
  if kind = .group then (discovery.group, "groups") else (discovery.user, "users")

def requiredValue (entry : LdapEntry) (name purpose : String) :
    Except PrincipalDiscoveryError String :=
  match (entry.first name).filter fun value => value ≠ "" ∧ trim value = value with
  | none => .error (discovery.invalidResponse ("entry has no canonical " ++ purpose ++ " attribute"))
  | some value => .ok value

def parseEnabled (value : String) : Except PrincipalDiscoveryError Bool :=
  let lowered := toAsciiLowercase value
  if lowered ∈ ["true", "1", "yes", "enabled", "active"] then .ok true
  else if lowered ∈ ["false", "0", "no", "disabled", "inactive"] then .ok false
  else .error (discovery.invalidResponse "enabled attribute has an unsupported value")

def enabledOf (entry : LdapEntry) (mapping : LdapObjectMapping) :
    Except PrincipalDiscoveryError Bool :=
  match mapping.enabledAttribute.bind entry.first with
  | none => .ok true
  | some value => discovery.parseEnabled value

def mapEntry (entry : LdapEntry) (mapping : LdapObjectMapping) (kind : PrincipalKind) :
    Except PrincipalDiscoveryError PrincipalProjection := do
  let id ← discovery.requiredValue entry mapping.idAttribute "id"
  let name ← discovery.requiredValue entry mapping.nameAttribute "name"
  let enabled ← discovery.enabledOf entry mapping
  .ok
    { providerId := discovery.discoveryId
      issuer := discovery.issuer
      externalId := if kind = .group then "group:" ++ id else id
      kind
      displayName :=
        ((mapping.displayNameAttribute.bind entry.first).filter fun value =>
          !isBlank value).getD name
      enabled
      attributes := .ofList ((entry.attributes.entries.map fun (name, values) =>
        (name, Json.array (values.map .string))) ++ [("ldap.dn", .string entry.dn)]) }

variable (client : LdapClient)

def searchKind (query : PrincipalSearchQuery) (kind : PrincipalKind) :
    Except PrincipalDiscoveryError PrincipalSearchPage := do
  let (mapping, stream) := discovery.mapping kind
  let cookie ← discovery.decodeCursor query stream
  let page ← client.search
    { baseDn := discovery.searchDn mapping
      filter := mapping.searchFilter client query.text
      attributes := mapping.requestedAttributes
      pageSize := min query.perProviderLimit discovery.maxPageSize
      cookie }
  let principals ← Result.collect (discovery.mapEntry · mapping kind) page.entries
  .ok
    { principals
      nextCursors :=
        if page.nextCookie = [] then .empty
        else SortedMap.empty.insert (cursorKey discovery.discoveryId stream)
          (Base64Url.encode page.nextCookie) }

def resolveKind (externalId : String) (kind : PrincipalKind) :
    Except PrincipalDiscoveryError (Option PrincipalProjection) := do
  let (mapping, _) := discovery.mapping kind
  let page ← client.search
    { baseDn := discovery.searchDn mapping
      filter := mapping.exactFilter client externalId
      attributes := mapping.requestedAttributes
      pageSize := 2
      cookie := [] }
  match page.entries with
  | [] => .ok none
  | [entry] => (discovery.mapEntry entry mapping kind).map some
  | _ => .error (discovery.invalidResponse "identity attribute is not unique")

/-- The two searches are made at once; where both fail, either may be reported. -/
def discover (query : PrincipalSearchQuery) :
    Except PrincipalDiscoveryError PrincipalSearchPage := do
  validateSearchQuery query
  match query.supportsKind .user, query.supportsKind .group with
  | true, true =>
      let users ← discovery.searchKind client query .user
      let groups ← discovery.searchKind client query .group
      .ok (users.extend groups)
  | true, false => discovery.searchKind client query .user
  | false, true => discovery.searchKind client query .group
  | false, false => .ok .empty

def resolvePrincipal (reference : ExternalPrincipalRef) :
    Except PrincipalDiscoveryError (Option PrincipalProjection) :=
  if reference.providerId ≠ discovery.discoveryId then
    .error (.unknownProvider reference.providerId)
  else if reference.issuer ≠ discovery.issuer then
    .error (.invalidQuery "principal issuer does not match LDAP provider issuer")
  else do
    (validateCanonical "external_id" reference.externalId).mapError fun error =>
      .invalidQuery error.toString
    match stripPrefix "group:" reference.externalId with
    | some id =>
        if id = "" then
          .error (.invalidQuery "group external_id must include the directory identity attribute")
        else
          discovery.resolveKind client id .group
    | none => discovery.resolveKind client reference.externalId .user

def provider : SearchProvider where
  providerId := discovery.discoveryId
  discover := discovery.discover client
  resolvePrincipal := discovery.resolvePrincipal client

end LdapPrincipalDiscovery

end Authguard
