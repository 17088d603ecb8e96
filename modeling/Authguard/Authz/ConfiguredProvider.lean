import Authguard.Authz.LdapDirectory
import Authguard.Authz.PrincipalSearch
import Authguard.Common.CustomDirectory

/-!
The principal service with one configured provider (`authz/src/handler/principal.rs`): a
client pushes SCIM resources to it, or a directory is searched and what it has is
materialized.
-/

namespace Authguard

inductive Connector
  | scim (discovery : ScimPrincipalDiscovery)
  | ldap (discovery : LdapPrincipalDiscovery)
  | custom (discovery : CustomPrincipalDiscovery)

/-- The directory while a request is served. -/
structure DirectoryAnswers where
  ldap : LdapClient
  custom : CustomHttpRequest → Except String DirectoryResponse

inductive ProviderRequest
  | scim (request : ScimRequest)
  | search (answers : DirectoryAnswers) (query : PrincipalSearchQuery)
  | materialize (answers : DirectoryAnswers) (request : PrincipalMaterializationRequest)

inductive ProviderReply
  | scim (reply : ScimReply)
  | page (page : PrincipalSearchPage)
  | principal (principal : PrincipalRow)

abbrev ProviderPool :=
  Pool PrincipalCall PrincipalCall.Answer PrincipalHandlerError ProviderReply ProviderRequest
    IamDatabase

abbrev ProviderEvent := PoolEvent ProviderRequest StoreOutcome

namespace Connector

variable (connector : Connector)

def id : String :=
  match connector with
  | .scim discovery => discovery.discoveryId
  | .ldap discovery => discovery.discoveryId
  | .custom discovery => discovery.providerId

def issuer : String :=
  match connector with
  | .scim discovery => discovery.issuer
  | .ldap discovery => discovery.issuer
  | .custom discovery => discovery.issuer

/-- The providers that are searched; SCIM is not one of them. -/
def providers (answers : DirectoryAnswers) : List SearchProvider :=
  match connector with
  | .scim _ => []
  | .ldap discovery => [discovery.provider answers.ldap]
  | .custom discovery => [discovery.provider answers.custom]

def handler (backend : Backend) : PrincipalHandler where
  backend
  scim :=
    match connector with
    | .scim discovery => some discovery
    | .ldap _ | .custom _ => none

def serve (backend : Backend) : ProviderRequest → ScimProgram ProviderReply
  | .scim request => do
      let reply ← (connector.handler backend).serve request
      .ok (.scim reply)
  | .search answers query =>
      match PrincipalHandler.search (connector.providers answers) query with
      | .ok page => .ok (.page page)
      | .error error => .fail error
  | .materialize answers request => do
      let principal ← (connector.handler backend).materialize (connector.providers answers) request
      .ok (.principal principal)

/-- Any number of requests over one database. -/
def step (backend : Backend) : ProviderPool → ProviderEvent → Option ProviderPool :=
  Pool.step (connector.serve backend) fun _ => PrincipalCall.exec

end Connector

end Authguard
