import Authguard.Authz.ConfiguredProvider
import Authguard.Metatheory.DirectoryEntries
import Authguard.Metatheory.ScimRoundTrip

/-!
The external subjects of users and groups at one provider. The subject of a group is its
identifier behind a mark; the identifier of a user is its subject as it is, and may have
the mark already.
-/

namespace Authguard
open PrincipalSearchQuery

def PrincipalKind.isGroup (kind : PrincipalKind) : Bool := kind = .group

/-- The identifiers a group can have at the provider. -/
def Connector.takesGroup (connector : Connector) (id : String) : Bool :=
  match connector with
  | .scim _ => true
  | .ldap _ => id ≠ ""
  | .custom _ => isCanonical id

/-- What the provider takes for the subject of a group. -/
def Connector.marksGroup (connector : Connector) (subject : String) : Bool :=
  match stripPrefix "group:" subject with
  | none => false
  | some id => connector.takesGroup id

theorem Connector.marksGroup_append (connector : Connector) (id : String) :
    connector.marksGroup ("group:" ++ id) = connector.takesGroup id := by
  rw [marksGroup, stripPrefix_append]

/-! Source objects. -/

/-- The resource that is submitted. -/
def ScimRequest.resource : ScimRequest → Option ScimResource
  | .create resource _ | .put _ resource _ => some resource
  | .patch _ _ _ _ | .delete _ _ => none

def ScimResource.externalId : ScimResource → Option String
  | .user resource => resource.externalId
  | .group resource => resource.externalId

/-- An object of the source that a request brings, with the kind it is read as and the
identifier the source gives it. -/
inductive SourceObject : Connector → ProviderRequest → PrincipalKind → String → Prop
  | submitted {discovery : ScimPrincipalDiscovery} {request : ScimRequest} {resource : ScimResource}
      {id : String} (hresource : request.resource = some resource)
      (hid : resource.externalId = some id) :
      SourceObject (.scim discovery) (.scim request) resource.kind id
  | patched {discovery : ScimPrincipalDiscovery} {principalId : String} {kind : PrincipalKind}
      {patch : ScimPatchRequest} {random : List UInt8} {operation : ScimPatchOperation} {id : String}
      (hoperation : operation ∈ patch.operations) (hpath : operation.path = some "externalId")
      (hop : operation.op ≠ .remove) (hvalue : operation.value = .string id) :
      SourceObject (.scim discovery) (.scim (.patch principalId kind patch random)) kind id
  | ldapListed {discovery : LdapPrincipalDiscovery} {answers : DirectoryAnswers}
      {query : PrincipalSearchQuery} {kind : PrincipalKind} {cookie : List UInt8}
      {page : LdapSearchPage} {entry : LdapEntry} {id : String}
      (hkind : kind ≠ .workload) (hsupports : query.supportsKind kind = true)
      (hpage : answers.ldap.search
        { baseDn := discovery.searchDn (discovery.mapping kind).1
          filter := (discovery.mapping kind).1.searchFilter answers.ldap query.text
          attributes := (discovery.mapping kind).1.requestedAttributes
          pageSize := min query.perProviderLimit discovery.maxPageSize
          cookie } = .ok page)
      (hentry : entry ∈ page.entries)
      (hid : entry.first (discovery.mapping kind).1.idAttribute = some id) :
      SourceObject (.ldap discovery) (.search answers query) kind id
  | ldapResolved {discovery : LdapPrincipalDiscovery} {answers : DirectoryAnswers}
      {request : PrincipalMaterializationRequest} {kind : PrincipalKind} {asked : String}
      {page : LdapSearchPage} {entry : LdapEntry} {id : String}
      (hasked : request.reference.externalId = if kind = .group then "group:" ++ asked else asked)
      (hpage : answers.ldap.search
        { baseDn := discovery.searchDn (discovery.mapping kind).1
          filter := (discovery.mapping kind).1.exactFilter answers.ldap asked
          attributes := (discovery.mapping kind).1.requestedAttributes
          pageSize := 2
          cookie := [] } = .ok page)
      (hentry : page.entries = [entry])
      (hid : entry.first (discovery.mapping kind).1.idAttribute = some id) :
      SourceObject (.ldap discovery) (.materialize answers request) kind id
  | customListed {discovery : CustomPrincipalDiscovery} {answers : DirectoryAnswers}
      {query : PrincipalSearchQuery} {stream : DirectoryStream} {entry : Json} {object : JsonMap}
      {id : String} (hsearched : stream.searched query = true)
      (hentry : discovery.Lists answers.custom query stream entry)
      (hobject : objectOf entry = some object)
      (hid : object.get discovery.response.idAttr = some (.string id)) :
      SourceObject (.custom discovery) (.search answers query)
        (discovery.kindOf object (stream.kind query)) id
  | customResolved {discovery : CustomPrincipalDiscovery} {answers : DirectoryAnswers}
      {request : PrincipalMaterializationRequest} {kind : PrincipalKind} {asked : String}
      {response : DirectoryResponse} {entry : Json} {object : JsonMap} {id : String}
      (hasked : CustomPrincipalDiscovery.requested request.reference.externalId = (kind, asked))
      (hresponse : answers.custom (discovery.resolveRequest asked kind) = .ok response)
      (hbody : response.body = some entry) (hobject : objectOf entry = some object)
      (hid : object.get discovery.response.idAttr = some (.string id)) :
      SourceObject (.custom discovery) (.materialize answers request)
        (discovery.kindOf object kind) id

/-- No user or workload the request brings has an identifier with the mark of a group. -/
def Connector.Unmarked (connector : Connector) (request : ProviderRequest) : Prop :=
  ∀ kind id, SourceObject connector request kind id → kind.isGroup = false →
    connector.marksGroup id = false

/-- The projection is read from a source object the request brings. -/
structure Connector.Reads (connector : Connector) (request : ProviderRequest)
    (projection : PrincipalProjection) (id : String) : Prop where
  source : SourceObject connector request projection.kind id
  provider : projection.providerId = connector.id
  issuer : projection.issuer = connector.issuer
  subject : projection.externalId = if projection.kind = .group then "group:" ++ id else id
  takes : projection.kind = .group → connector.takesGroup id = true

theorem Connector.Reads.marks {connector : Connector} {request : ProviderRequest}
    {projection : PrincipalProjection} {id : String} (h : connector.Reads request projection id)
    (hunmarked : projection.kind.isGroup = false → connector.Unmarked request) :
    connector.marksGroup projection.externalId = projection.kind.isGroup := by
  rw [h.subject]
  by_cases hkind : projection.kind = .group
  · rw [if_pos hkind, connector.marksGroup_append, h.takes hkind, hkind]
    rfl
  · have huser : projection.kind.isGroup = false := decide_eq_false hkind
    rw [if_neg hkind, huser]
    exact hunmarked huser _ id h.source huser

/-! LDAP. -/

namespace LdapPrincipalDiscovery

variable {discovery : LdapPrincipalDiscovery} {client : LdapClient}

theorem mapEntry_eq_ok {entry : LdapEntry} {mapping : LdapObjectMapping} {kind : PrincipalKind}
    {projection : PrincipalProjection}
    (h : discovery.mapEntry entry mapping kind = .ok projection) :
    ∃ id, entry.first mapping.idAttribute = some id ∧ id ≠ "" ∧
      projection.providerId = discovery.discoveryId ∧ projection.issuer = discovery.issuer ∧
      projection.kind = kind ∧
      projection.externalId = if kind = .group then "group:" ++ id else id := by
  obtain ⟨id, hid, h⟩ := Result.bind_ok_iff.mp h
  obtain ⟨_, -, h⟩ := Result.bind_ok_iff.mp h
  obtain ⟨_, -, h⟩ := Result.bind_ok_iff.mp h
  cases h
  rw [requiredValue] at hid
  split at hid
  · cases hid
  · rename_i value hvalue
    cases hid
    obtain ⟨hfirst, hcanonical⟩ := Option.filter_eq_some_iff.mp hvalue
    exact ⟨id, hfirst, (of_decide_eq_true hcanonical).1, rfl, rfl, rfl, rfl⟩

theorem reads_of_mapEntry {request : ProviderRequest} {entry : LdapEntry} {kind : PrincipalKind}
    {projection : PrincipalProjection}
    (h : discovery.mapEntry entry (discovery.mapping kind).1 kind = .ok projection)
    (hsource : ∀ id, entry.first (discovery.mapping kind).1.idAttribute = some id →
      SourceObject (.ldap discovery) request kind id) :
    projection.kind = kind ∧ ∃ id, (Connector.ldap discovery).Reads request projection id := by
  obtain ⟨id, hid, hne, hprovider, hissuer, rfl, hsubject⟩ := mapEntry_eq_ok h
  exact ⟨rfl, id, hsource id hid, hprovider, hissuer, hsubject, fun _ => decide_eq_true hne⟩

variable {answers : DirectoryAnswers} {query : PrincipalSearchQuery}

theorem searchKind_reads {kind : PrincipalKind} {page : PrincipalSearchPage}
    (hkind : kind ≠ .workload) (hsupports : query.supportsKind kind = true)
    (h : discovery.searchKind answers.ldap query kind = .ok page) :
    ∀ projection ∈ page.principals,
      ∃ id, (Connector.ldap discovery).Reads (.search answers query) projection id := by
  obtain ⟨cookie, -, h⟩ := Result.bind_ok_iff.mp h
  obtain ⟨found, hfound, h⟩ := Result.bind_ok_iff.mp h
  obtain ⟨principals, hprincipals, h⟩ := Result.bind_ok_iff.mp h
  cases h
  intro projection hprojection
  obtain ⟨entry, hentry, hmapped⟩ := Result.collect_ok_mem hprincipals hprojection
  exact (reads_of_mapEntry hmapped fun id hid =>
    .ldapListed hkind hsupports hfound hentry hid).2

theorem discover_reads {page : PrincipalSearchPage}
    (h : discovery.discover answers.ldap query = .ok page) :
    ∀ projection ∈ page.principals,
      ∃ id, (Connector.ldap discovery).Reads (.search answers query) projection id := by
  obtain ⟨_, -, h⟩ := Result.bind_ok_iff.mp h
  split at h
  · rename_i hasUsers hasGroups
    obtain ⟨users, husers, h⟩ := Result.bind_ok_iff.mp h
    obtain ⟨groups, hgroups, h⟩ := Result.bind_ok_iff.mp h
    cases h
    intro projection hprojection
    obtain huser | hgroup := List.mem_append.mp hprojection
    · exact searchKind_reads (by decide) hasUsers husers projection huser
    · exact searchKind_reads (by decide) hasGroups hgroups projection hgroup
  · rename_i hasUsers _
    exact searchKind_reads (by decide) hasUsers h
  · rename_i _ hasGroups
    exact searchKind_reads (by decide) hasGroups h
  · cases h
    exact fun _ hprojection => absurd hprojection List.not_mem_nil

variable {request : PrincipalMaterializationRequest}

theorem resolveKind_reads {asked : String} {kind : PrincipalKind} {projection : PrincipalProjection}
    (hasked : request.reference.externalId = if kind = .group then "group:" ++ asked else asked)
    (h : discovery.resolveKind answers.ldap asked kind = .ok (some projection)) :
    projection.kind = kind ∧
      ∃ id, (Connector.ldap discovery).Reads (.materialize answers request) projection id := by
  obtain ⟨page, hpage, h⟩ := Result.bind_ok_iff.mp h
  split at h
  · cases h
  · rename_i entry hentry
    obtain ⟨mapped, hmapped, hsome⟩ := Result.map_ok_iff.mp h
    cases hsome
    exact reads_of_mapEntry hmapped fun id hid => .ldapResolved hasked hpage hentry hid
  · cases h

/-- The kind of what is resolved is the one the reference asks for. -/
theorem resolvePrincipal_reads {projection : PrincipalProjection}
    (h : discovery.resolvePrincipal answers.ldap request.reference = .ok (some projection)) :
    (Connector.ldap discovery).marksGroup request.reference.externalId = projection.kind.isGroup ∧
      ∃ id, (Connector.ldap discovery).Reads (.materialize answers request) projection id := by
  rw [resolvePrincipal] at h
  split at h
  · cases h
  · split at h
    · cases h
    · obtain ⟨_, -, h⟩ := Result.bind_ok_iff.mp h
      rw [Connector.marksGroup]
      split at h
      · rename_i id hstrip
        split at h
        · cases h
        · rename_i hne
          obtain ⟨hkind, hreads⟩ :=
            resolveKind_reads ((stripPrefix_eq_some.mp hstrip).trans (if_pos rfl).symm) h
          rw [hstrip, hkind]
          exact ⟨decide_eq_true hne, hreads⟩
      · rename_i hstrip
        obtain ⟨hkind, hreads⟩ := resolveKind_reads (if_neg (by decide)).symm h
        rw [hstrip, hkind]
        exact ⟨rfl, hreads⟩

end LdapPrincipalDiscovery

/-! Custom directories. -/

namespace CustomPrincipalDiscovery

variable {discovery : CustomPrincipalDiscovery}

theorem exchanged_eq_ok {providerId operation : String}
    {exchange : Except String DirectoryResponse} {response : DirectoryResponse} :
    exchanged providerId operation exchange = .ok response ↔ exchange = .ok response := by
  cases exchange with
  | error reason => simp [exchanged]
  | ok answered => simp [exchanged]

theorem mapEntry_eq_ok {entry : Json} {kind : PrincipalKind} {projection : PrincipalProjection}
    (h : discovery.mapEntry entry kind = .ok projection) :
    ∃ object id, objectOf entry = some object ∧
      object.get discovery.response.idAttr = some (.string id) ∧ isCanonical id = true ∧
      projection = discovery.projected object id (discovery.kindOf object kind) := by
  rw [mapEntry] at h
  split at h
  · cases h
  · rename_i object hobject
    split at h
    · cases h
    · rename_i id hid
      obtain ⟨hstr, hcanonical⟩ := Option.filter_eq_some_iff.mp hid
      cases h
      refine ⟨object, id, hobject, ?_, hcanonical, rfl⟩
      rw [asStr.eq_def] at hstr
      split at hstr
      · rename_i value hvalue
        cases hstr
        exact hvalue
      · cases hstr

theorem projected_reads {request : ProviderRequest} {object : JsonMap} {id : String}
    {kind : PrincipalKind} (hcanonical : isCanonical id = true)
    (hsource : SourceObject (.custom discovery) request kind id) :
    (Connector.custom discovery).Reads request (discovery.projected object id kind) id :=
  ⟨hsource, rfl, rfl, rfl, fun _ => hcanonical⟩

variable {answers : DirectoryAnswers} {query : PrincipalSearchQuery}

theorem requestKind_lists {stream : DirectoryStream} {page : PrincipalSearchPage}
    (h : discovery.requestKind answers.custom (stream.kind query) query = .ok page) :
    ∀ projection ∈ page.principals, ∃ entry, discovery.Lists answers.custom query stream entry ∧
      discovery.mapEntry entry (stream.kind query) = .ok projection := by
  obtain ⟨offset, hoffset, h⟩ := Result.bind_ok_iff.mp h
  rw [cursorStream_kind] at hoffset
  obtain ⟨response, hresponse, h⟩ := Result.bind_ok_iff.mp h
  obtain ⟨⟨⟩, -, h⟩ := Result.bind_ok_iff.mp h
  split at h
  · cases h
  · rename_i payload hpayload
    split at h
    · cases h
    · rename_i items hitems
      obtain ⟨principals, hprincipals, h⟩ := Result.bind_ok_iff.mp h
      cases h
      intro projection hprojection
      obtain ⟨entry, hentry, hmapped⟩ :=
        Result.collect_ok_mem hprincipals (List.mem_filter.mp hprojection).1
      refine ⟨entry, ⟨offset, response, payload, items, hoffset, ?_, hpayload, hitems, hentry⟩,
        hmapped⟩
      exact exchanged_eq_ok.mp hresponse

theorem search_reads {page : PrincipalSearchPage}
    (h : discovery.discover answers.custom query = .ok page) :
    ∀ projection ∈ page.principals,
      ∃ id, (Connector.custom discovery).Reads (.search answers query) projection id := by
  obtain ⟨pages, hread, hprincipals⟩ := discover_reads h
  intro projection hprojection
  rw [hprincipals] at hprojection
  obtain ⟨stream, hstream, hprojection⟩ := List.mem_flatMap.mp hprojection
  have hsearched : stream.searched query = true := (List.mem_filter.mp hstream).2
  obtain ⟨entry, hentry, hmapped⟩ :=
    requestKind_lists (hread stream hsearched) projection hprojection
  obtain ⟨object, id, hobject, hid, hcanonical, rfl⟩ := mapEntry_eq_ok hmapped
  exact ⟨id, projected_reads hcanonical (.customListed hsearched hentry hobject hid)⟩

/-- What is resolved has the subject of the reference. -/
theorem resolvePrincipal_reads {request : PrincipalMaterializationRequest}
    {projection : PrincipalProjection}
    (h : discovery.resolvePrincipal answers.custom request.reference = .ok (some projection)) :
    projection.externalId = request.reference.externalId ∧
      ∃ id, (Connector.custom discovery).Reads (.materialize answers request) projection id := by
  rw [resolvePrincipal] at h
  split at h
  · cases h
  · split at h
    · cases h
    · split at h
      · cases h
      · obtain ⟨response, hresponse, h⟩ := Result.bind_ok_iff.mp h
        split at h
        · cases h
        · obtain ⟨⟨⟩, -, h⟩ := Result.bind_ok_iff.mp h
          split at h
          · cases h
          · rename_i payload hpayload
            split at h
            · cases h
            · obtain ⟨entry, hmapped, h⟩ := Result.bind_ok_iff.mp h
              split at h
              · cases h
              · rename_i hsame
                cases h
                obtain ⟨object, id, hobject, hid, hcanonical, rfl⟩ := mapEntry_eq_ok hmapped
                refine ⟨not_not.mp hsame, id, projected_reads hcanonical ?_⟩
                exact .customResolved rfl (exchanged_eq_ok.mp hresponse) hpayload hobject hid

end CustomPrincipalDiscovery

/-! SCIM. -/

theorem ScimPrincipalDiscovery.upsertIdentityKey_eq_ok {discovery : ScimPrincipalDiscovery}
    {principalId : String} {resource : ScimResource} {key : ExternalIdentityKey}
    (h : discovery.upsertIdentityKey (resource.intoUpsert principalId) = .ok key) :
    ∃ subject, resource.subject = some subject ∧
      key = ⟨discovery.discoveryId, discovery.issuer, subject⟩ := by
  cases resource with
  | user resource | group resource =>
      simp only [ScimResource.intoUpsert, upsertIdentityKey] at h
      split at h
      · cases h
      · rename_i externalId hid
        cases h
        exact ⟨_, by rw [ScimResource.subject, hid] <;> rfl, rfl⟩

theorem ScimResource.marks_subject {discovery : ScimPrincipalDiscovery} {resource : ScimResource}
    {subject : String} (hsubject : resource.subject = some subject)
    (hplain : resource.kind.isGroup = false → ∀ id, resource.externalId = some id →
      (Connector.scim discovery).marksGroup id = false) :
    (Connector.scim discovery).marksGroup subject = resource.kind.isGroup := by
  cases resource with
  | user resource => exact hplain rfl subject hsubject
  | group resource =>
      obtain ⟨id, -, rfl⟩ := Option.map_eq_some_iff.mp hsubject
      exact Connector.marksGroup_append _ _

/-! Any provider. -/

namespace Connector

variable {connector : Connector} {answers : DirectoryAnswers} {provider : SearchProvider}

theorem discover_reads {query : PrincipalSearchQuery} {page : PrincipalSearchPage}
    (hprovider : provider ∈ connector.providers answers) (h : provider.discover query = .ok page) :
    ∀ projection ∈ page.principals,
      ∃ id, connector.Reads (.search answers query) projection id := by
  cases connector with
  | scim discovery => exact absurd hprovider List.not_mem_nil
  | ldap discovery =>
      obtain rfl := List.mem_singleton.mp hprovider
      exact LdapPrincipalDiscovery.discover_reads h
  | custom discovery =>
      obtain rfl := List.mem_singleton.mp hprovider
      exact CustomPrincipalDiscovery.search_reads h

theorem resolve_reads {request : PrincipalMaterializationRequest} {projection : PrincipalProjection}
    (hprovider : provider ∈ connector.providers answers)
    (h : provider.resolvePrincipal request.reference = .ok (some projection)) :
    ∃ id, connector.Reads (.materialize answers request) projection id := by
  cases connector with
  | scim discovery => exact absurd hprovider List.not_mem_nil
  | ldap discovery =>
      obtain rfl := List.mem_singleton.mp hprovider
      exact (LdapPrincipalDiscovery.resolvePrincipal_reads h).2
  | custom discovery =>
      obtain rfl := List.mem_singleton.mp hprovider
      exact (CustomPrincipalDiscovery.resolvePrincipal_reads h).2

/-- What a reference resolves to has the kind its subject shows. -/
theorem resolve_marks {request : PrincipalMaterializationRequest} {projection : PrincipalProjection}
    (hunmarked : connector.Unmarked (.materialize answers request))
    (hprovider : provider ∈ connector.providers answers)
    (h : provider.resolvePrincipal request.reference = .ok (some projection)) :
    connector.marksGroup request.reference.externalId = projection.kind.isGroup := by
  cases connector with
  | scim discovery => exact absurd hprovider List.not_mem_nil
  | ldap discovery =>
      obtain rfl := List.mem_singleton.mp hprovider
      exact (LdapPrincipalDiscovery.resolvePrincipal_reads h).1
  | custom discovery =>
      obtain rfl := List.mem_singleton.mp hprovider
      obtain ⟨hsame, id, hreads⟩ := CustomPrincipalDiscovery.resolvePrincipal_reads h
      exact hsame ▸ hreads.marks fun _ => hunmarked

end Connector

/-- A subject the provider computes for a source object of the kind. -/
inductive SubjectOf (connector : Connector) : ProviderRequest → PrincipalKind → String → Prop
  | pushed {discovery : ScimPrincipalDiscovery} {request : ScimRequest} {resource : ScimResource}
      {key : ExternalIdentityKey} (hconnector : connector = .scim discovery)
      (hresource : request.resource = some resource)
      (hkey : discovery.upsertIdentityKey (resource.intoUpsert "") = .ok key) :
      SubjectOf connector (.scim request) resource.kind key.subject
  | listed {answers : DirectoryAnswers} {query : PrincipalSearchQuery} {provider : SearchProvider}
      {page : PrincipalSearchPage} {projection : PrincipalProjection}
      (hprovider : provider ∈ connector.providers answers)
      (hpage : provider.discover query = .ok page) (hlisted : projection ∈ page.principals) :
      SubjectOf connector (.search answers query) projection.kind projection.externalId
  | resolved {answers : DirectoryAnswers} {request : PrincipalMaterializationRequest}
      {provider : SearchProvider} {projection : PrincipalProjection}
      (hprovider : provider ∈ connector.providers answers)
      (hresolved : provider.resolvePrincipal request.reference = .ok (some projection)) :
      SubjectOf connector (.materialize answers request) projection.kind projection.externalId

/-- A subject shows whether it is one of a group, where users have no marked identifiers. -/
theorem SubjectOf.marks {connector : Connector} {request : ProviderRequest} {kind : PrincipalKind}
    {subject : String} (h : SubjectOf connector request kind subject)
    (hunmarked : kind.isGroup = false → connector.Unmarked request) :
    connector.marksGroup subject = kind.isGroup := by
  cases h with
  | pushed hconnector hresource hkey =>
      subst hconnector
      obtain ⟨subject, hsubject, rfl⟩ := ScimPrincipalDiscovery.upsertIdentityKey_eq_ok hkey
      refine ScimResource.marks_subject hsubject fun hkind id hid => ?_
      exact hunmarked hkind _ id (.submitted hresource hid) hkind
  | listed hprovider hpage hlisted =>
      obtain ⟨id, hreads⟩ := Connector.discover_reads hprovider hpage _ hlisted
      exact hreads.marks hunmarked
  | resolved hprovider hresolved =>
      obtain ⟨id, hreads⟩ := Connector.resolve_reads hprovider hresolved
      exact hreads.marks hunmarked

/-! The page a search answers with. -/

theorem mem_selectedSearchProviders {providers selected : List SearchProvider} {filter : StringSet}
    (h : PrincipalHandler.selectedSearchProviders providers filter = .ok selected) :
    ∀ provider ∈ selected, provider ∈ providers := by
  intro provider hprovider
  rw [PrincipalHandler.selectedSearchProviders] at h
  split at h
  · cases h
    exact hprovider
  · obtain ⟨providerId, -, hselected⟩ := Result.collect_ok_mem h hprovider
    split at hselected
    · cases hselected
    · rename_i found hfound
      cases hselected
      exact (List.mem_filter.mp (hfound ▸ List.mem_cons_self)).1
    · cases hselected

theorem mem_deduplicatePrincipals {principals : List PrincipalProjection}
    {projection : PrincipalProjection}
    (h : projection ∈ PrincipalHandler.deduplicatePrincipals principals) :
    projection ∈ principals := by
  obtain ⟨⟨key, found⟩, hentry, rfl⟩ := List.mem_map.mp h
  clear h
  induction principals using List.reverseRecOn with
  | nil => exact absurd hentry List.not_mem_nil
  | append_singleton principals last ih =>
      rw [List.foldl_append, List.foldl_cons, List.foldl_nil] at hentry
      split at hentry
      · exact List.mem_append_left _ (ih hentry)
      · obtain heq | hentry := SortedMap.mem_insertEntry hentry
        · cases heq
          exact List.mem_append_right _ List.mem_cons_self
        · exact List.mem_append_left _ (ih hentry)

theorem mem_aggregate {pages : List (String × PrincipalSearchPage)}
    {projection : PrincipalProjection}
    (h : projection ∈ (PrincipalHandler.aggregate (.ofList pages)).principals) :
    ∃ entry ∈ pages, projection ∈ entry.2.principals := by
  rw [PrincipalHandler.aggregate, ← List.foldl_map,
    CustomPrincipalDiscovery.foldl_extend_principals, List.flatMap_map] at h
  obtain hnone | h := List.mem_append.mp h
  · exact absurd hnone List.not_mem_nil
  · obtain ⟨entry, hentry, hprojection⟩ := List.mem_flatMap.mp h
    exact ⟨entry, SortedMap.mem_of_mem_ofList hentry, hprojection⟩

/-- A principal that is shown has a subject the provider computed for it. -/
theorem subjectOf_search {connector : Connector} {answers : DirectoryAnswers}
    {query : PrincipalSearchQuery} {page : PrincipalSearchPage}
    (h : PrincipalHandler.search (connector.providers answers) query = .ok page) :
    ∀ shown ∈ page.principals,
      SubjectOf connector (.search answers query) shown.kind shown.externalId := by
  intro shown hshown
  rw [PrincipalHandler.search] at h
  split at h
  · split at h <;> cases h
  · simp only at h
    split at h
    · cases h
    · rename_i pages hpages
      cases h
      obtain ⟨_, -, hpages⟩ := Result.bind_ok_iff.mp hpages
      obtain ⟨selected, hselected, hcollect⟩ := Result.bind_ok_iff.mp hpages
      obtain ⟨entry, hentry, hmem⟩ := mem_aggregate (mem_deduplicatePrincipals hshown)
      obtain ⟨provider, hprovider, hfound⟩ := Result.collect_ok_mem hcollect hentry
      obtain ⟨found, hdiscover, rfl⟩ := Result.map_ok_iff.mp hfound
      exact .listed (mem_selectedSearchProviders hselected provider hprovider) hdiscover hmem

end Authguard
