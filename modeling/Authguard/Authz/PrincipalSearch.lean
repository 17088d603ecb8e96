import Authguard.Authz.ScimProvisioning
import Authguard.Common.PrincipalDiscovery

/-!
Federated search and materialization (`search` and `materialize` in
`authz/src/handler/principal.rs`) over the configured providers.
-/

namespace Authguard

namespace PrincipalHandler

/-- One provider for each identifier of the filter; none stands for all of them. -/
def selectedSearchProviders (providers : List SearchProvider) (filter : StringSet) :
    Except PrincipalDiscoveryError (List SearchProvider) :=
  if filter.isEmpty then
    .ok providers
  else
    Result.collect (fun providerId =>
      match providers.filter (·.providerId = providerId) with
      | [] => .error (.unknownProvider providerId)
      | [selected] => .ok selected
      | _ =>
          .error (.invalidConfiguration
            ("duplicate search provider id `" ++ providerId ++ "`"))) filter.items

/-- The key principals of overlapping directories are told apart by. -/
def identityKey (principal : PrincipalProjection) : String ×ₗ String :=
  toLex (principal.issuer, principal.externalId)

/-- The first principal of every key, in the order of the keys. -/
def deduplicatePrincipals (principals : List PrincipalProjection) : List PrincipalProjection :=
  (principals.foldl (fun (unique : SortedMap (String ×ₗ String) PrincipalProjection) principal =>
    if (unique.get (identityKey principal)).isSome then unique
    else unique.insert (identityKey principal) principal) .empty).entries.map Prod.snd

/-- The pages of the providers, one after the other. -/
def aggregate (pages : SortedMap String PrincipalSearchPage) : PrincipalSearchPage :=
  pages.entries.foldl (fun page entry => page.extend entry.2) .empty

/-- The providers are asked at once; where several fail, any of them may be reported. -/
def search (providers : List SearchProvider) (query : PrincipalSearchQuery) :
    Except PrincipalHandlerError PrincipalSearchPage :=
  if providers.isEmpty then
    match validateSearchQuery query with
    | .error error => .error (.discovery error.toString)
    | .ok () => .error .providerUnavailable
  else
    let found : Except PrincipalDiscoveryError (List (String × PrincipalSearchPage)) := do
      validateSearchQuery query
      let selected ← selectedSearchProviders providers query.providerIds
      Result.collect (fun provider => (provider.discover query).map (provider.providerId, ·)) selected
    match found with
    | .error error => .error (.discovery error.toString)
    | .ok pages =>
        let page := aggregate (.ofList pages)
        .ok { page with principals := deduplicatePrincipals page.principals }

variable (handler : PrincipalHandler)

def materialize (providers : List SearchProvider) (request : PrincipalMaterializationRequest) :
    ScimProgram PrincipalRow :=
  match providers.find? (·.providerId = request.reference.providerId) with
  | none => .fail (.discovery (PrincipalDiscoveryError.unknownProvider
      request.reference.providerId).toString)
  | some provider => do
      match ← ScimProgram.discover (provider.resolvePrincipal request.reference) with
      | none => .fail (.notFound request.reference.externalId)
      | some external => handler.upsertExternal request.principalId external

end PrincipalHandler

end Authguard
