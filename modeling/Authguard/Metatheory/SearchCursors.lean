import Authguard.Authz.KeycloakDirectory
import Authguard.Authz.PrincipalSearch
import Authguard.Common.CustomDirectory
import Authguard.Library.Pagination

/-!
Searches that follow their cursors. A directory keeps users and groups in streams
of their own; a stream without a cursor is read from its start, whether it was
never read or has ended. A search goes on until all streams end on one page, so a
stream that ends before starts over.
-/

namespace Authguard
open PrincipalSearchQuery

inductive DirectoryStream
  | users
  | groups
  deriving DecidableEq

namespace DirectoryStream

def all : List DirectoryStream := [.users, .groups]

def name : DirectoryStream → String
  | .users => "users"
  | .groups => "groups"

/-- The stream is read for the kinds of the query. -/
def searched (query : PrincipalSearchQuery) : DirectoryStream → Bool
  | .users => query.supportsKind .user || query.supportsKind .workload
  | .groups => query.supportsKind .group

/-- The kind the stream is asked for. -/
def kind (query : PrincipalSearchQuery) : DirectoryStream → PrincipalKind
  | .users => if query.supportsKind .workload then .workload else .user
  | .groups => .group

end DirectoryStream

/-- A configured directory, and what it answers. -/
inductive Directory
  | keycloak (discovery : KeycloakPrincipalDiscovery) (admin : KeycloakAdmin)
  | custom (discovery : CustomPrincipalDiscovery)
      (api : CustomHttpRequest → Except String DirectoryResponse)

namespace Directory

def provider : Directory → SearchProvider
  | .keycloak discovery admin => discovery.provider admin
  | .custom discovery api => discovery.provider api

def providerId (directory : Directory) : String := directory.provider.providerId

def maxPageSize : Directory → Nat
  | .keycloak discovery _ => discovery.maxPageSize
  | .custom discovery _ => discovery.maxPageSize

theorem maxPageSize_pos (directory : Directory) : 1 ≤ directory.maxPageSize := by
  cases directory with
  | keycloak discovery admin => exact discovery.maxPageSize_valid.1
  | custom discovery api => exact discovery.maxPageSize_valid.1

def limit (query : PrincipalSearchQuery) (directory : Directory) : Nat :=
  min query.perProviderLimit directory.maxPageSize

def key (directory : Directory) (stream : DirectoryStream) : String :=
  cursorKey directory.providerId stream.name

/-- The directory answers a stream with slices of one list, which reads as the principals. -/
def Returns (query : PrincipalSearchQuery) :
    Directory → DirectoryStream → List PrincipalProjection → Prop
  | .keycloak discovery admin, .users, principals =>
      (∃ token, discovery.token admin = .ok token) ∧
        ∃ users, Result.collect discovery.mapUser users = .ok principals ∧
          ∀ offset limit, ∃ response,
            admin.send ⟨.users, none, KeycloakPrincipalDiscovery.usersQuery query offset limit⟩ =
              .ok response ∧
            discovery.checked "search_users" response = .ok () ∧
            response.users = some ((users.drop offset).take limit)
  | .keycloak discovery admin, .groups, principals =>
      (∃ token, discovery.token admin = .ok token) ∧
        ∃ groups, Result.collect discovery.mapGroup groups = .ok principals ∧
          ∀ offset limit, ∃ response,
            admin.send ⟨.groups, none, [("search", Text.trim query.text), ("first", offset.repr),
              ("max", limit.repr), ("briefRepresentation", "false")]⟩ = .ok response ∧
            discovery.checked "search_groups" response = .ok () ∧
            response.groups = some ((groups.drop offset).take limit)
  | .custom discovery api, stream, principals =>
      ∃ items, Result.collect (discovery.mapEntry · (stream.kind query)) items = .ok principals ∧
        ∀ offset limit, ∃ response payload,
          api (discovery.searchRequest query (stream.kind query) offset limit) = .ok response ∧
          ensureSuccess discovery.providerId "search" response = .ok () ∧
          response.body = some payload ∧
          selectArray discovery.response.arrayPath payload = some ((items.drop offset).take limit)

end Directory

/-- The pages of a search that follows the cursors of each page until there are none. -/
inductive Follows (providers : List SearchProvider) :
    PrincipalSearchQuery → List PrincipalSearchPage → Prop
  | last {query : PrincipalSearchQuery} {page : PrincipalSearchPage}
      (found : PrincipalHandler.search providers query = .ok page)
      (done : page.nextCursors = .empty) : Follows providers query [page]
  | next {query : PrincipalSearchQuery} {page : PrincipalSearchPage}
      {pages : List PrincipalSearchPage}
      (found : PrincipalHandler.search providers query = .ok page)
      (more : page.nextCursors ≠ .empty)
      (rest : Follows providers { query with cursors := page.nextCursors } pages) :
      Follows providers query (page :: pages)

theorem Follows.unique {providers : List SearchProvider} {query : PrincipalSearchQuery}
    {pages others : List PrincipalSearchPage} (h : Follows providers query pages)
    (hothers : Follows providers query others) : pages = others := by
  induction h generalizing others with
  | last found done =>
      cases hothers with
      | last found' done' => rw [Except.ok.inj (found.symm.trans found')]
      | next found' more' rest' =>
          rw [← Except.ok.inj (found.symm.trans found')] at more'
          exact absurd done more'
  | next found more rest ih =>
      cases hothers with
      | last found' done' =>
          rw [← Except.ok.inj (found.symm.trans found')] at done'
          exact absurd done' more
      | next found' more' rest' =>
          obtain rfl := Except.ok.inj (found.symm.trans found')
          rw [ih rest']

/-! Cursors. -/

theorem parseU32_repr {n : Nat} (h : n < 2 ^ 32) : parseU32 n.repr = some n := by
  have hdigits : ∀ c ∈ Nat.toDigits 10 n, c.isDigit := fun c hc =>
    Nat.isDigit_of_mem_toDigits (by decide) (by decide) hc
  have hsign : (Nat.toDigits 10 n).head? ≠ some '+' := by
    intro hhead
    exact absurd (hdigits '+' (List.mem_of_mem_head? hhead)) (by decide)
  simp only [parseU32, Nat.toList_repr, if_neg hsign, Nat.ofDigitChars_ten_toDigits]
  rw [if_pos ⟨Nat.toDigits_ne_nil, List.all_eq_true.mpr hdigits, h⟩]

theorem cursorKey_inj {providerId other : String} {stream stream' : DirectoryStream}
    (h : cursorKey providerId stream.name = cursorKey other stream'.name) :
    providerId = other ∧ stream = stream' := by
  have hchars := congrArg (fun key => key.toList.reverse) h
  cases stream <;> cases stream' <;>
    simp [cursorKey, DirectoryStream.name, String.toList_append, String.toList_inj] at hchars ⊢ <;>
    exact hchars

/-! Pages that are put together. -/

/-- The cursors of the page are these. -/
def PrincipalSearchPage.HasCursors (page : PrincipalSearchPage) (pairs : List (String × String)) :
    Prop :=
  (pairs.map Prod.fst).Nodup ∧ page.nextCursors = .ofList pairs

theorem foldl_insert_get {pairs : List (String × String)} (h : (pairs.map Prod.fst).Nodup)
    (map : SortedMap String String) (key : String) :
    (pairs.foldl (fun map entry => map.insert entry.1 entry.2) map).get key =
      (pairs.lookup key).or (map.get key) := by
  induction pairs generalizing map with
  | nil => rfl
  | cons first rest ih =>
      rw [List.map_cons, List.nodup_cons] at h
      rw [List.foldl_cons, ih h.2, SortedMap.get_insert, SortedMap.lookup_cons_ite]
      by_cases hkey : key = first.1
      · have habsent : rest.lookup key = none := by
          rw [List.lookup_eq_none_iff]
          intro entry hentry
          rw [bne_iff_ne]
          rintro rfl
          exact h.1 (hkey ▸ List.mem_map_of_mem hentry)
        rw [if_pos hkey, if_pos hkey, habsent, Option.none_or, Option.some_or]
      · rw [if_neg hkey, if_neg hkey]

theorem PrincipalSearchPage.HasCursors.extend {page other : PrincipalSearchPage}
    {pairs others : List (String × String)} (h : page.HasCursors pairs)
    (hother : other.HasCursors others)
    (hnodup : ((pairs ++ others).map Prod.fst).Nodup) :
    (page.extend other).HasCursors (pairs ++ others) := by
  refine ⟨hnodup, SortedMap.ext_get fun key => ?_⟩
  have hperm := SortedMap.ofList_perm hother.1
  rw [PrincipalSearchPage.extend, hother.2, h.2,
    foldl_insert_get (SortedMap.nodup_keys _), SortedMap.get_ofList h.1,
    SortedMap.get_ofList hnodup, SortedMap.lookup_perm hperm (SortedMap.nodup_keys _)]
  rw [List.map_append, List.nodup_append] at hnodup
  rw [List.lookup_append]
  cases hpairs : pairs.lookup key with
  | none => simp
  | some value =>
      have habsent : others.lookup key = none := by
        rw [List.lookup_eq_none_iff]
        intro entry hentry
        rw [bne_iff_ne]
        rintro rfl
        have hmem := (SortedMap.lookup_eq_some_of_mem h.1).mp hpairs
        exact hnodup.2.2 _ (List.mem_map_of_mem hmem) _ (List.mem_map_of_mem hentry) rfl
      rw [habsent]
      rfl

/-- Pages that are put together have the principals and the cursors of each. -/
theorem foldl_extend {ι : Type} (sources : List ι) (page : ι → PrincipalSearchPage)
    (pairs : ι → List (String × String)) (hpages : ∀ source ∈ sources,
      (page source).HasCursors (pairs source))
    (hnodup : ((sources.flatMap pairs).map Prod.fst).Nodup) :
    ((sources.map page).foldl PrincipalSearchPage.extend .empty).principals =
        sources.flatMap (fun source => (page source).principals) ∧
      ((sources.map page).foldl PrincipalSearchPage.extend .empty).HasCursors
        (sources.flatMap pairs) := by
  induction sources using List.reverseRecOn with
  | nil => exact ⟨rfl, List.nodup_nil, rfl⟩
  | append_singleton sources source ih =>
      rw [List.flatMap_append, List.flatMap_singleton] at hnodup
      obtain ⟨hprincipals, hcursors⟩ := ih
        (fun other hother => hpages other (List.mem_append_left _ hother))
        (by rw [List.map_append, List.nodup_append] at hnodup; exact hnodup.1)
      rw [List.map_append, List.foldl_append, List.map_singleton, List.foldl_cons, List.foldl_nil,
        List.flatMap_append, List.flatMap_append, List.flatMap_singleton, List.flatMap_singleton]
      constructor
      · rw [← hprincipals]
        rfl
      · exact hcursors.extend (hpages source (List.mem_append_right _ List.mem_cons_self)) hnodup

/-! Streams. -/

theorem collect_slice {α β : Type} {f : α → Except PrincipalDiscoveryError β} {items : List α}
    {results : List β} (h : Result.collect f items = .ok results) (offset limit : Nat) :
    Result.collect f ((items.drop offset).take limit) = .ok ((results.drop offset).take limit) :=
  Result.collect_eq_ok.mpr (List.forall₂_take limit (List.forall₂_drop offset
    (Result.collect_eq_ok.mp h)))

theorem collect_length {α β : Type} {f : α → Except PrincipalDiscoveryError β} {items : List α}
    {results : List β} (h : Result.collect f items = .ok results) :
    items.length = results.length :=
  (Result.collect_eq_ok.mp h).length_eq

/-- The request a connector makes for one stream. -/
def Directory.readStream (query : PrincipalSearchQuery) :
    Directory → DirectoryStream → Except PrincipalDiscoveryError PrincipalSearchPage
  | .keycloak discovery admin, .users => discovery.searchUsers admin query
  | .keycloak discovery admin, .groups => discovery.searchGroups admin query
  | .custom discovery api, stream => discovery.requestKind api (stream.kind query) query

/-- The page of a stream: the part of it that starts at the offset. -/
def streamPage (query : PrincipalSearchQuery) (directory : Directory) (stream : DirectoryStream)
    (items : List PrincipalProjection) (offset : Nat) : PrincipalSearchPage where
  principals :=
    ((items.drop offset).take (directory.limit query)).filter fun principal =>
      query.supportsKind principal.kind
  nextCursors :=
    nextCursor (directory.key stream) offset (directory.limit query)
      ((items.drop offset).take (directory.limit query)).length

section
variable {query : PrincipalSearchQuery} {directory : Directory} {stream : DirectoryStream}
  {items : List PrincipalProjection}

theorem cursorStream_kind (stream : DirectoryStream) :
    cursorStream (stream.kind query) = stream.name := by
  cases stream with
  | users =>
      rw [DirectoryStream.kind]
      split <;> rfl
  | groups => rfl

theorem mapGroup_kind {discovery : KeycloakPrincipalDiscovery} {group : KeycloakGroup}
    {principal : PrincipalProjection} (h : discovery.mapGroup group = .ok principal) :
    principal.kind = .group := by
  rw [KeycloakPrincipalDiscovery.mapGroup] at h
  split at h
  · cases h
  · cases h
    rfl

/-- What the directory returns for a stream is read as a page of it. -/
theorem readStream_eq (hreturns : directory.Returns query stream items)
    (hsearched : stream.searched query = true) (cursors : SortedMap String String) {offset : Nat}
    (hoffset : ∀ name, offsetOf { query with cursors } (directory.key stream) name = .ok offset) :
    directory.readStream { query with cursors } stream =
      .ok (streamPage query directory stream items offset) := by
  cases directory with
  | keycloak discovery admin =>
      cases stream with
      | users =>
          obtain ⟨⟨token, htoken⟩, users, hmap, hsend⟩ := hreturns
          obtain ⟨response, hresponse, hchecked, husers⟩ := hsend offset
            (min query.perProviderLimit discovery.maxPageSize)
          have hslice := collect_slice hmap offset
            (min query.perProviderLimit discovery.maxPageSize)
          refine Result.bind_ok_iff.mpr ⟨offset, hoffset _, ?_⟩
          refine Result.bind_ok_iff.mpr ⟨token, htoken, ?_⟩
          refine Result.bind_ok_iff.mpr
            ⟨response, congrArg (discovery.exchanged "search_users") hresponse, ?_⟩
          refine Result.bind_ok_iff.mpr ⟨(), hchecked, ?_⟩
          rw [husers]
          refine Result.bind_ok_iff.mpr ⟨_, hslice, ?_⟩
          rw [collect_length hslice]
          rfl
      | groups =>
          obtain ⟨⟨token, htoken⟩, groups, hmap, hsend⟩ := hreturns
          obtain ⟨response, hresponse, hchecked, hgroups⟩ := hsend offset
            (min query.perProviderLimit discovery.maxPageSize)
          have hslice := collect_slice hmap offset
            (min query.perProviderLimit discovery.maxPageSize)
          -- Groups are not filtered: a search that asks for them supports them all.
          have hkept : ((items.drop offset).take (min query.perProviderLimit
              discovery.maxPageSize)).filter (fun principal => query.supportsKind principal.kind) =
                (items.drop offset).take (min query.perProviderLimit discovery.maxPageSize) := by
            refine List.filter_eq_self.mpr fun principal hprincipal => ?_
            obtain ⟨group, -, hgroup⟩ := Result.collect_ok_mem hslice hprincipal
            rw [mapGroup_kind hgroup]
            exact hsearched
          refine Result.bind_ok_iff.mpr ⟨offset, hoffset _, ?_⟩
          refine Result.bind_ok_iff.mpr ⟨token, htoken, ?_⟩
          refine Result.bind_ok_iff.mpr
            ⟨response, congrArg (discovery.exchanged "search_groups") hresponse, ?_⟩
          refine Result.bind_ok_iff.mpr ⟨(), hchecked, ?_⟩
          rw [hgroups]
          refine Result.bind_ok_iff.mpr ⟨_, hslice, ?_⟩
          rw [streamPage, Directory.limit, Directory.maxPageSize, hkept, collect_length hslice]
          rfl
  | custom discovery api =>
      obtain ⟨entries, hmap, hsend⟩ := hreturns
      obtain ⟨response, payload, hresponse, hchecked, hbody, hselected⟩ := hsend offset
        (min query.perProviderLimit discovery.maxPageSize)
      have hslice := collect_slice hmap offset (min query.perProviderLimit discovery.maxPageSize)
      have hoff : discovery.streamOffset { query with cursors } (cursorStream (stream.kind query)) =
          .ok offset := by
        rw [cursorStream_kind]
        exact hoffset _
      have hkind : stream.kind { query with cursors } = stream.kind query := by
        cases stream <;> rfl
      rw [Directory.readStream, hkind]
      refine Result.bind_ok_iff.mpr ⟨offset, hoff, ?_⟩
      refine Result.bind_ok_iff.mpr
        ⟨response, congrArg (exchanged discovery.providerId "search") hresponse, ?_⟩
      refine Result.bind_ok_iff.mpr ⟨(), hchecked, ?_⟩
      rw [hbody]
      simp only [hselected]
      refine Result.bind_ok_iff.mpr ⟨_, hslice, ?_⟩
      rw [streamPage, Directory.key, cursorStream_kind, collect_length hslice]
      rfl

/-- The streams a query reads, in the order they are put together. -/
def searchedStreams (query : PrincipalSearchQuery) : List DirectoryStream :=
  DirectoryStream.all.filter (DirectoryStream.searched query)

theorem empty_extend (page : PrincipalSearchPage) : PrincipalSearchPage.empty.extend page = page := by
  have hcursors := page.nextCursors.ofList_entries
  cases page
  rw [PrincipalSearchPage.extend]
  exact congrArg (PrincipalSearchPage.mk _) hcursors

/-- Both connectors read the streams the kinds of the query ask for. -/
theorem discover_streams (directory : Directory) (hvalid : validateSearchQuery query = .ok ()) :
    directory.provider.discover query =
      if DirectoryStream.users.searched query then
        if DirectoryStream.groups.searched query then do
          let users ← directory.readStream query .users
          let groups ← directory.readStream query .groups
          .ok (users.extend groups)
        else
          directory.readStream query .users
      else if DirectoryStream.groups.searched query then
        directory.readStream query .groups
      else
        .ok .empty := by
  have hreduce : ∀ next : Except PrincipalDiscoveryError PrincipalSearchPage,
      (validateSearchQuery query >>= fun _ => next) = next := by
    intro next
    rw [hvalid]
    rfl
  have husers : DirectoryStream.users.searched query =
      (query.supportsKind .user || query.supportsKind .workload) := rfl
  have hgroups : DirectoryStream.groups.searched query = query.supportsKind .group := rfl
  cases directory with
  | keycloak discovery admin =>
      refine (hreduce _).trans ?_
      cases hu : DirectoryStream.users.searched query <;>
        cases hg : DirectoryStream.groups.searched query <;>
        simp [← husers, ← hgroups, hu, hg, Directory.readStream]
  | custom discovery api =>
      refine (hreduce _).trans ?_
      cases hu : DirectoryStream.users.searched query <;>
        cases hg : DirectoryStream.groups.searched query <;>
        simp [← husers, ← hgroups, hu, hg, Directory.readStream, DirectoryStream.kind]

/-- A directory is discovered stream by stream. -/
theorem discover_eq (hvalid : validateSearchQuery query = .ok ())
    (pages : DirectoryStream → PrincipalSearchPage)
    (hread : ∀ stream, stream.searched query = true →
      directory.readStream query stream = .ok (pages stream)) :
    directory.provider.discover query =
      .ok (((searchedStreams query).map pages).foldl PrincipalSearchPage.extend .empty) := by
  rw [discover_streams directory hvalid, searchedStreams, DirectoryStream.all]
  cases husers : DirectoryStream.users.searched query with
  | false =>
      cases hgroups : DirectoryStream.groups.searched query with
      | false => simp [husers, hgroups]
      | true => simp [husers, hgroups, hread _ hgroups, empty_extend]
  | true =>
      cases hgroups : DirectoryStream.groups.searched query with
      | false => simp [husers, hgroups, hread _ husers, empty_extend]
      | true =>
          simp only [List.filter, husers, hgroups, hread _ husers, hread _ hgroups, if_true,
            List.map, List.foldl_cons, List.foldl_nil, empty_extend]
          rfl

end

/-! Directories. -/

/-- A list that permutes the values of a function is the values of a permutation. -/
theorem exists_perm_map {α β : Type} {f : α → β} {items : List α} {values : List β}
    (h : values.Perm (items.map f)) :
    ∃ order : List α, order.Perm items ∧ values = order.map f := by
  have hvalues : List.Forall₂ (fun value item => value = f item) (items.map f) items :=
    List.forall₂_map_left_iff.mpr (List.forall₂_same.mpr fun _ _ => rfl)
  obtain ⟨order, hmap, horder⟩ := List.perm_comp_forall₂ h hvalues
  refine ⟨order, horder, ?_⟩
  rw [← List.forall₂_eq_eq_eq, List.forall₂_map_right_iff]
  exact hmap

/-- Principals with keys of their own are all kept. -/
theorem deduplicatePrincipals_perm {principals : List PrincipalProjection}
    (h : (principals.map PrincipalHandler.identityKey).Nodup) :
    (PrincipalHandler.deduplicatePrincipals principals).Perm principals := by
  have hfold : principals.foldl
      (fun (unique : SortedMap (String ×ₗ String) PrincipalProjection) principal =>
        if (unique.get (PrincipalHandler.identityKey principal)).isSome then unique
        else unique.insert (PrincipalHandler.identityKey principal) principal) .empty =
      SortedMap.ofList (principals.map fun principal =>
        (PrincipalHandler.identityKey principal, principal)) := by
    induction principals using List.reverseRecOn with
    | nil => rfl
    | append_singleton principals last ih =>
        rw [List.map_append, List.nodup_append] at h
        have hfresh : (SortedMap.ofList (principals.map fun principal =>
            (PrincipalHandler.identityKey principal, principal))).get
              (PrincipalHandler.identityKey last) = none := by
          refine SortedMap.get_ofList_of_not_mem ?_
          intro entry hentry
          obtain ⟨principal, hprincipal, rfl⟩ := List.mem_map.mp hentry
          exact h.2.2 _ (List.mem_map_of_mem hprincipal) _ (by simp)
        rw [List.foldl_append, List.foldl_cons, List.foldl_nil, ih h.1, hfresh]
        simp [SortedMap.ofList, List.foldl_append]
  rw [PrincipalHandler.deduplicatePrincipals, hfold]
  have hperm : (SortedMap.ofList (principals.map fun principal =>
      (PrincipalHandler.identityKey principal, principal))).entries.Perm
        (principals.map fun principal => (PrincipalHandler.identityKey principal, principal)) := by
    apply SortedMap.ofList_perm
    rw [List.map_map]
    exact h
  have hsnd := hperm.map Prod.snd
  rw [List.map_map, show (Prod.snd ∘ fun principal : PrincipalProjection =>
    (PrincipalHandler.identityKey principal, principal)) = id from rfl, List.map_id] at hsnd
  exact hsnd

theorem search_eq_ok {providers selected : List SearchProvider} {query : PrincipalSearchQuery}
    {pages : List (String × PrincipalSearchPage)} (hsome : providers.isEmpty = false)
    (hvalid : validateSearchQuery query = .ok ())
    (hselected : PrincipalHandler.selectedSearchProviders providers query.providerIds = .ok selected)
    (hcollect : Result.collect (fun provider => (provider.discover query).map
      (provider.providerId, ·)) selected = .ok pages) :
    PrincipalHandler.search providers query =
      .ok { PrincipalHandler.aggregate (.ofList pages) with
        principals := PrincipalHandler.deduplicatePrincipals
          (PrincipalHandler.aggregate (.ofList pages)).principals } := by
  simp only [PrincipalHandler.search, hsome, hvalid, hselected, bind, Except.bind, hcollect,
    Bool.false_eq_true, if_false]

section
variable (directories : List Directory) (query : PrincipalSearchQuery)

/-- The directories a query selects: those its filter names, or all of them. -/
def selectedDirectories : List Directory :=
  if query.providerIds.isEmpty then directories
  else query.providerIds.items.filterMap fun id =>
    directories.find? fun directory => directory.providerId = id

variable {directories query} (hids : (directories.map Directory.providerId).Nodup)
  (hknown : ∀ id ∈ query.providerIds.items, ∃ directory ∈ directories, directory.providerId = id)
include hids

theorem find_directory {directory : Directory} (h : directory ∈ directories) :
    directories.find? (fun other => other.providerId = directory.providerId) = some directory ∧
      directories.filter (fun other => other.providerId = directory.providerId) = [directory] := by
  induction directories with
  | nil => cases h
  | cons first rest ih =>
      rw [List.map_cons, List.nodup_cons] at hids
      rcases List.mem_cons.mp h with rfl | hrest
      · have habsent : rest.filter (fun other => other.providerId = directory.providerId) = [] := by
          rw [List.filter_eq_nil_iff]
          intro other hother heq
          exact hids.1 (of_decide_eq_true heq ▸ List.mem_map_of_mem hother)
        simp [habsent]
      · have hne : first.providerId ≠ directory.providerId := fun heq =>
          hids.1 (heq ▸ List.mem_map_of_mem hrest)
        simp [hne, ih hids.2 hrest]

include hknown

theorem selected_ids (hfilter : query.providerIds.isEmpty = false) :
    (selectedDirectories directories query).map Directory.providerId = query.providerIds.items := by
  rw [selectedDirectories, hfilter]
  generalize query.providerIds.items = ids at hknown
  induction ids with
  | nil => rfl
  | cons id ids ih =>
      obtain ⟨⟨directory, hdirectory, rfl⟩, hrest⟩ := List.forall_mem_cons.mp hknown
      simp only [Bool.false_eq_true, if_false] at ih ⊢
      rw [List.filterMap_cons, (find_directory hids hdirectory).1, List.map_cons, ih hrest]

theorem selected_nodup :
    ((selectedDirectories directories query).map Directory.providerId).Nodup := by
  cases hfilter : query.providerIds.isEmpty with
  | true =>
      rw [selectedDirectories, hfilter]
      exact hids
  | false =>
      rw [selected_ids hids hknown hfilter]
      exact query.providerIds.nodup_keys

theorem selectedSearchProviders_eq :
    PrincipalHandler.selectedSearchProviders (directories.map Directory.provider) query.providerIds =
      .ok ((selectedDirectories directories query).map Directory.provider) := by
  rw [PrincipalHandler.selectedSearchProviders, selectedDirectories]
  cases hfilter : query.providerIds.isEmpty with
  | true => rfl
  | false =>
      simp only [Bool.false_eq_true, if_false]
      generalize query.providerIds.items = ids at hknown
      induction ids with
      | nil => rfl
      | cons id ids ih =>
          obtain ⟨⟨directory, hdirectory, rfl⟩, hrest⟩ := List.forall_mem_cons.mp hknown
          obtain ⟨hfind, hsingle⟩ := find_directory hids hdirectory
          have hproviders : (directories.map Directory.provider).filter
              (fun provider => provider.providerId = directory.providerId) =
                [directory.provider] := by
            rw [List.filter_map]
            exact congrArg (List.map Directory.provider) hsingle
          rw [Result.collect, hproviders, List.filterMap_cons, hfind]
          simp only [ih hrest]
          rfl

end

theorem mem_selectedDirectories {directories : List Directory} {query : PrincipalSearchQuery}
    {directory : Directory} (h : directory ∈ selectedDirectories directories query) :
    directory ∈ directories := by
  rw [selectedDirectories] at h
  split at h
  · exact h
  · obtain ⟨id, -, hfind⟩ := List.mem_filterMap.mp h
    exact List.mem_of_find?_eq_some hfind

/-! Sources: the streams that are read together. -/

section
variable (directories : List Directory) (content : String → DirectoryStream → List PrincipalProjection)
  (query : PrincipalSearchQuery) (hlimit : 0 < query.perProviderLimit)

def sources : List (Directory × DirectoryStream) :=
  (selectedDirectories directories query).flatMap fun directory =>
    (searchedStreams query).map fun stream => (directory, stream)

def sourceKey (source : Directory × DirectoryStream) : String := source.1.key source.2

/-- The feed of a stream, as it is paged for the query. -/
def sourceFeed (source : Directory × DirectoryStream) : Feed PrincipalProjection where
  items := content source.1.providerId source.2
  limit := source.1.limit query
  limit_pos := lt_min hlimit source.1.maxPageSize_pos

/-- The offset a stream is at after a number of pages. -/
def offsetAt (n : Nat) (source : Directory × DirectoryStream) : Nat :=
  n % (sourceFeed content query hlimit source).pageCount * source.1.limit query

/-- The cursor of a stream: none at its start. -/
def pairsAt (n : Nat) (source : Directory × DirectoryStream) : List (String × String) :=
  if n % (sourceFeed content query hlimit source).pageCount = 0 then []
  else [(sourceKey source, (offsetAt content query hlimit n source).repr)]

def cursorsAt (n : Nat) : SortedMap String String :=
  .ofList ((sources directories query).flatMap (pairsAt content query hlimit n))

theorem flatMap_sources {β : Type} (f : Directory × DirectoryStream → List β) :
    (sources directories query).flatMap f =
      (selectedDirectories directories query).flatMap fun directory =>
        (searchedStreams query).flatMap fun stream => f (directory, stream) := by
  rw [sources, List.flatMap_assoc]
  simp only [List.flatMap_map]

variable {directories query}

theorem mem_sources {source : Directory × DirectoryStream} :
    source ∈ sources directories query ↔
      source.1 ∈ selectedDirectories directories query ∧ source.2.searched query = true := by
  obtain ⟨directory, stream⟩ := source
  have hall : stream ∈ DirectoryStream.all := by cases stream <;> decide
  simp [sources, searchedStreams, List.mem_filter, hall]

theorem pairsAt_keys (n : Nat) (source : Directory × DirectoryStream) :
    ((pairsAt content query hlimit n source).map Prod.fst).Sublist [sourceKey source] := by
  rw [pairsAt]
  split
  · exact List.nil_sublist _
  · exact List.Sublist.refl _

section
variable (hids : (directories.map Directory.providerId).Nodup)
  (hknown : ∀ id ∈ query.providerIds.items, ∃ directory ∈ directories, directory.providerId = id)
include hids hknown

theorem sources_nodup : ((sources directories query).map sourceKey).Nodup := by
  have hstreams : (searchedStreams query).Nodup := List.Nodup.filter _ (by decide)
  have hselected := selected_nodup hids hknown
  rw [sources, List.map_flatMap, List.nodup_flatMap]
  constructor
  · intro directory _
    rw [List.map_map]
    refine List.Nodup.map ?_ hstreams
    intro stream other heq
    exact (cursorKey_inj heq).2
  · rw [List.Nodup, List.pairwise_map] at hselected
    refine hselected.imp ?_
    intro directory other hne key hkey hother
    obtain ⟨_, hsource, rfl⟩ := List.mem_map.mp hkey
    obtain ⟨_, hsource', heq⟩ := List.mem_map.mp hother
    obtain ⟨stream, -, rfl⟩ := List.mem_map.mp hsource
    obtain ⟨stream', -, rfl⟩ := List.mem_map.mp hsource'
    exact hne (cursorKey_inj heq).1.symm

theorem pairsAt_nodup (n : Nat) :
    (((sources directories query).flatMap (pairsAt content query hlimit n)).map Prod.fst).Nodup := by
  have hsub : (((sources directories query).flatMap (pairsAt content query hlimit n)).map
      Prod.fst).Sublist ((sources directories query).map sourceKey) := by
    rw [List.map_flatMap, ← List.flatMap_singleton' ((sources directories query).map sourceKey),
      List.flatMap_map]
    exact List.Sublist.flatMap_right _ fun source _ => pairsAt_keys content hlimit n source
  exact hsub.nodup (sources_nodup hids hknown)

theorem get_cursorsAt {n : Nat} {source : Directory × DirectoryStream}
    (hsource : source ∈ sources directories query) :
    (cursorsAt directories content query hlimit n).get (sourceKey source) =
      if n % (sourceFeed content query hlimit source).pageCount = 0 then none
      else some (offsetAt content query hlimit n source).repr := by
  have hnodup := pairsAt_nodup content hlimit hids hknown n
  rw [cursorsAt, SortedMap.get_ofList hnodup]
  split
  · rename_i hstart
    rw [List.lookup_eq_none_iff]
    rintro ⟨key, value⟩ hentry
    obtain ⟨other, hother, hpair⟩ := List.mem_flatMap.mp hentry
    rw [bne_iff_ne]
    rintro rfl
    have hkey := (pairsAt_keys content hlimit n other).subset (List.mem_map_of_mem hpair)
    have hsame : source = other :=
      List.inj_on_of_nodup_map (sources_nodup hids hknown) hsource hother
        (List.mem_singleton.mp hkey)
    rw [← hsame, pairsAt, if_pos hstart] at hpair
    cases hpair
  · rename_i hstarted
    rw [SortedMap.lookup_eq_some_of_mem hnodup]
    refine List.mem_flatMap.mpr ⟨source, hsource, ?_⟩
    rw [pairsAt, if_neg hstarted]
    exact List.mem_singleton.mpr rfl

/-- The cursor of a stream is read as the offset it is at. -/
theorem offsetOf_cursorsAt {n : Nat} {source : Directory × DirectoryStream}
    (hsource : source ∈ sources directories query)
    (hbound : (content source.1.providerId source.2).length < 2 ^ 31) (name : String) :
    offsetOf { query with cursors := cursorsAt directories content query hlimit n }
      (sourceKey source) name = .ok (offsetAt content query hlimit n source) := by
  have hoffset : offsetAt content query hlimit n source < 2 ^ 32 := by
    have hpage : n % (sourceFeed content query hlimit source).pageCount ≤
        (sourceFeed content query hlimit source).items.length /
          (sourceFeed content query hlimit source).limit :=
      Nat.lt_succ_iff.mp (Nat.mod_lt n (sourceFeed content query hlimit source).pageCount_pos)
    have hle : offsetAt content query hlimit n source ≤
        (content source.1.providerId source.2).length :=
      (Nat.mul_le_mul_right _ hpage).trans (Nat.div_mul_le_self _ _)
    omega
  rw [offsetOf, get_cursorsAt content hlimit hids hknown hsource]
  by_cases hstart : n % (sourceFeed content query hlimit source).pageCount = 0
  · rw [if_pos hstart, offsetAt, hstart, Nat.zero_mul]
  · rw [if_neg hstart]
    simp only [parseU32_repr hoffset]

end

/-- The page of a stream has the cursor it is at after one more page. -/
theorem streamPage_hasCursors {n : Nat} (source : Directory × DirectoryStream)
    (hbound : (content source.1.providerId source.2).length < 2 ^ 31) :
    (streamPage query source.1 source.2 (content source.1.providerId source.2)
      (offsetAt content query hlimit n source)).HasCursors
        (pairsAt content query hlimit (n + 1) source) := by
  have hkeys := pairsAt_keys content hlimit (n + 1) source
  refine ⟨hkeys.nodup (List.nodup_singleton _), ?_⟩
  have hturn : ((content source.1.providerId source.2).drop (offsetAt content query hlimit n
      source)).take (source.1.limit query) = (sourceFeed content query hlimit source).turn n := rfl
  have hnext : (n + 1) % (sourceFeed content query hlimit source).pageCount =
      if ((sourceFeed content query hlimit source).turn n).length = source.1.limit query then
        n % (sourceFeed content query hlimit source).pageCount + 1 else 0 :=
    (sourceFeed content query hlimit source).next_turn n
  rw [streamPage, hturn, nextCursor, pairsAt]
  by_cases hfull : ((sourceFeed content query hlimit source).turn n).length = source.1.limit query
  · rw [if_pos hfull] at hnext
    have hadd : saturatingAddU32 (offsetAt content query hlimit n source) (source.1.limit query) =
        offsetAt content query hlimit (n + 1) source := by
      have hle := (sourceFeed content query hlimit source).length_page_eq_limit.mp hfull
      have hmul : (n % (sourceFeed content query hlimit source).pageCount + 1) *
          source.1.limit query ≤ (content source.1.providerId source.2).length :=
        (Nat.mul_le_mul_right _ (Nat.lt_succ_iff.mp hle)).trans (Nat.div_mul_le_self _ _)
      rw [saturatingAddU32, offsetAt, offsetAt, hnext, Nat.succ_mul] at *
      omega
    rw [if_pos hfull, if_neg (by rw [hnext]; exact Nat.succ_ne_zero _), hadd]
    rfl
  · rw [if_neg hfull] at hnext
    rw [if_neg hfull, if_pos hnext]
    rfl

/-! Pages of a search. -/

/-- What the search is promised of the directories it is made on. -/
structure Serves (directories : List Directory)
    (content : String → DirectoryStream → List PrincipalProjection)
    (query : PrincipalSearchQuery) : Prop where
  ids : (directories.map Directory.providerId).Nodup
  known : ∀ id ∈ query.providerIds.items, ∃ directory ∈ directories, directory.providerId = id
  valid : validateSearchQuery query = .ok ()
  returns : ∀ directory ∈ directories, ∀ stream,
    directory.Returns query stream (content directory.providerId stream)
  bounded : ∀ directory ∈ directories, ∀ stream,
    (content directory.providerId stream).length < 2 ^ 31
  distinct : ((directories.flatMap fun directory => DirectoryStream.all.flatMap
    (content directory.providerId)).map PrincipalHandler.identityKey).Nodup

section
variable {content} (hserves : Serves directories content query) (n : Nat)

/-- The page a directory contributes after a number of pages. -/
def directoryPage (content : String → DirectoryStream → List PrincipalProjection)
    (query : PrincipalSearchQuery) (hlimit : 0 < query.perProviderLimit) (n : Nat)
    (directory : Directory) : PrincipalSearchPage :=
  ((searchedStreams query).map fun stream =>
    streamPage query directory stream (content directory.providerId stream)
      (offsetAt content query hlimit n (directory, stream))).foldl PrincipalSearchPage.extend .empty

include hserves

theorem discover_directory {directory : Directory}
    (hselected : directory ∈ selectedDirectories directories query) :
    directory.provider.discover
      { query with cursors := cursorsAt directories content query hlimit n } =
        .ok (directoryPage content query hlimit n directory) := by
  have hdirectory := mem_selectedDirectories hselected
  have hstreams : ∀ stream, stream.searched query = true →
      directory.readStream { query with cursors := cursorsAt directories content query hlimit n }
        stream = .ok (streamPage query directory stream (content directory.providerId stream)
          (offsetAt content query hlimit n (directory, stream))) := by
    intro stream hsearched
    refine readStream_eq (hserves.returns directory hdirectory stream) hsearched _ fun name => ?_
    have hsource : (directory, stream) ∈ sources directories query :=
      mem_sources.mpr ⟨hselected, hsearched⟩
    exact offsetOf_cursorsAt content hlimit hserves.ids hserves.known hsource
      (hserves.bounded directory hdirectory stream) name
  have hsame : ∀ stream, DirectoryStream.searched
      { query with cursors := cursorsAt directories content query hlimit n } stream =
        DirectoryStream.searched query stream := by
    intro stream
    cases stream <;> rfl
  have hpages := @discover_eq
    { query with cursors := cursorsAt directories content query hlimit n } directory hserves.valid _
    fun stream hsearched => hstreams stream (hsame stream ▸ hsearched)
  rw [hpages, searchedStreams, funext hsame]
  rfl

theorem directoryPage_eq {directory : Directory}
    (hselected : directory ∈ selectedDirectories directories query) :
    (directoryPage content query hlimit n directory).principals =
        (searchedStreams query).flatMap (fun stream =>
          ((sourceFeed content query hlimit (directory, stream)).turn n).filter fun principal =>
            query.supportsKind principal.kind) ∧
      (directoryPage content query hlimit n directory).HasCursors
        ((searchedStreams query).flatMap fun stream =>
          pairsAt content query hlimit (n + 1) (directory, stream)) := by
  have hnodup : (((searchedStreams query).flatMap fun stream =>
      pairsAt content query hlimit (n + 1) (directory, stream)).map Prod.fst).Nodup := by
    have hall := pairsAt_nodup content hlimit hserves.ids hserves.known (n + 1)
    rw [flatMap_sources, List.map_flatMap, List.nodup_flatMap] at hall
    exact hall.1 directory hselected
  exact foldl_extend (searchedStreams query) _
    (fun stream => pairsAt content query hlimit (n + 1) (directory, stream))
    (fun stream _ => streamPage_hasCursors content hlimit (directory, stream)
      (hserves.bounded directory (mem_selectedDirectories hselected) stream)) hnodup

theorem collect_directories :
    Result.collect (fun provider => (provider.discover
      { query with cursors := cursorsAt directories content query hlimit n }).map
        (provider.providerId, ·)) ((selectedDirectories directories query).map Directory.provider) =
      .ok ((selectedDirectories directories query).map fun directory =>
        (directory.providerId, directoryPage content query hlimit n directory)) := by
  rw [Result.collect_eq_ok, List.forall₂_map_left_iff, List.forall₂_map_right_iff,
    List.forall₂_same]
  intro directory hselected
  rw [discover_directory hlimit hserves n hselected]
  rfl

/-- The feeds of a search. -/
def searchFeeds (directories : List Directory)
    (content : String → DirectoryStream → List PrincipalProjection)
    (query : PrincipalSearchQuery) (hlimit : 0 < query.perProviderLimit) :
    List (Feed PrincipalProjection) :=
  (sources directories query).map (sourceFeed content query hlimit)

theorem aggregate_directories :
    (PrincipalHandler.aggregate (.ofList ((selectedDirectories directories query).map fun directory =>
        (directory.providerId, directoryPage content query hlimit n directory)))).principals.Perm
        (Feed.turns (searchFeeds directories content query hlimit)
          (fun principal => query.supportsKind principal.kind) n) ∧
      (PrincipalHandler.aggregate (.ofList ((selectedDirectories directories query).map
        fun directory => (directory.providerId,
          directoryPage content query hlimit n directory)))).nextCursors =
        cursorsAt directories content query hlimit (n + 1) := by
  have hselected := selected_nodup hserves.ids hserves.known
  have hentries : (SortedMap.ofList ((selectedDirectories directories query).map
      fun directory => (directory.providerId,
        directoryPage content query hlimit n directory))).entries.Perm
      ((selectedDirectories directories query).map fun directory =>
        (directory.providerId, directoryPage content query hlimit n directory)) := by
    apply SortedMap.ofList_perm
    rw [List.map_map]
    exact hselected
  obtain ⟨order, horder, hmap⟩ := exists_perm_map hentries
  have hpairs := pairsAt_nodup content hlimit hserves.ids hserves.known (n + 1)
  rw [flatMap_sources] at hpairs
  have hperm : (order.flatMap fun directory => (searchedStreams query).flatMap fun stream =>
      pairsAt content query hlimit (n + 1) (directory, stream)).Perm
      ((selectedDirectories directories query).flatMap fun directory =>
        (searchedStreams query).flatMap fun stream =>
          pairsAt content query hlimit (n + 1) (directory, stream)) := horder.flatMap_right _
  obtain ⟨hprincipals, hcursors⟩ := foldl_extend order (directoryPage content query hlimit n)
    (fun directory => (searchedStreams query).flatMap fun stream =>
      pairsAt content query hlimit (n + 1) (directory, stream))
    (fun directory hdirectory => (directoryPage_eq hlimit hserves n (horder.subset hdirectory)).2)
    ((hperm.map Prod.fst).nodup_iff.mpr hpairs)
  rw [PrincipalHandler.aggregate, hmap, List.foldl_map, ← List.foldl_map]
  constructor
  · have hturns : order.flatMap (fun directory =>
        (directoryPage content query hlimit n directory).principals) =
        order.flatMap fun directory => (searchedStreams query).flatMap fun stream =>
          ((sourceFeed content query hlimit (directory, stream)).turn n).filter fun principal =>
            query.supportsKind principal.kind :=
      List.flatMap_congr fun directory hdirectory =>
        (directoryPage_eq hlimit hserves n (horder.subset hdirectory)).1
    rw [hprincipals, hturns, Feed.turns, searchFeeds, List.flatMap_map, flatMap_sources]
    exact horder.flatMap_right _
  · rw [hcursors.2, cursorsAt, flatMap_sources]
    refine SortedMap.ext_get fun key => ?_
    rw [SortedMap.get_ofList hcursors.1, SortedMap.get_ofList hpairs,
      SortedMap.lookup_perm hperm hcursors.1]

theorem selected_distinct :
    (((selectedDirectories directories query).flatMap fun directory =>
      DirectoryStream.all.flatMap (content directory.providerId)).map
        PrincipalHandler.identityKey).Nodup := by
  have hnodup : (selectedDirectories directories query).Nodup :=
    (selected_nodup hserves.ids hserves.known).of_map
  obtain ⟨order, horder, hsub⟩ := hnodup.subperm fun _ => mem_selectedDirectories
  have hdistinct := ((hsub.flatMap fun directory =>
    DirectoryStream.all.flatMap (content directory.providerId)).map
      PrincipalHandler.identityKey).nodup hserves.distinct
  exact (((horder.flatMap_right _).map _).nodup_iff).mp hdistinct

theorem feeds_distinct :
    (((searchFeeds directories content query hlimit).flatMap Feed.items).map
      PrincipalHandler.identityKey).Nodup := by
  refine List.Sublist.nodup ?_ (selected_distinct hserves)
  rw [searchFeeds, List.flatMap_map, flatMap_sources]
  refine List.Sublist.map _ (List.Sublist.flatMap_right _ fun directory _ => ?_)
  exact List.Sublist.flatMap List.filter_sublist _

/-- One search returns the page every stream is at, and the cursors of the page after it. -/
theorem search_step (hconfigured : directories ≠ []) :
    ∃ page, PrincipalHandler.search (directories.map Directory.provider)
        { query with cursors := cursorsAt directories content query hlimit n } = .ok page ∧
      page.principals.Perm (Feed.turns (searchFeeds directories content query hlimit)
        (fun principal => query.supportsKind principal.kind) n) ∧
      page.nextCursors = cursorsAt directories content query hlimit (n + 1) := by
  obtain ⟨hprincipals, hcursors⟩ := aggregate_directories hlimit hserves n
  have hkeys := ((Feed.turns_sublist (searchFeeds directories content query hlimit)
    (fun principal => query.supportsKind principal.kind) n).map
      PrincipalHandler.identityKey).nodup (feeds_distinct hlimit hserves)
  have hdedup := deduplicatePrincipals_perm ((hprincipals.map _).nodup_iff.mpr hkeys)
  have hsome : (directories.map Directory.provider).isEmpty = false := by
    simpa using hconfigured
  have hselected : PrincipalHandler.selectedSearchProviders (directories.map Directory.provider)
      query.providerIds = .ok ((selectedDirectories directories query).map Directory.provider) :=
    selectedSearchProviders_eq hserves.ids hserves.known
  have hvalid : validateSearchQuery
      { query with cursors := cursorsAt directories content query hlimit n } = .ok () :=
    hserves.valid
  have hcollect := collect_directories hlimit hserves n
  generalize hpage : PrincipalHandler.aggregate (.ofList ((selectedDirectories directories query).map
    fun directory => (directory.providerId,
      directoryPage content query hlimit n directory))) = page at hprincipals hcursors hdedup
  refine ⟨{ page with principals := PrincipalHandler.deduplicatePrincipals page.principals }, ?_,
    hdedup.trans hprincipals, hcursors⟩
  rw [search_eq_ok hsome hvalid hselected hcollect, hpage]

theorem cursorsAt_eq_empty :
    cursorsAt directories content query hlimit n = .empty ↔
      ∀ feed ∈ searchFeeds directories content query hlimit, feed.pageCount ∣ n := by
  rw [searchFeeds, List.forall_mem_map]
  constructor
  · intro hempty source hsource
    have hget := get_cursorsAt content hlimit hserves.ids hserves.known (n := n) hsource
    rw [hempty] at hget
    by_contra hdvd
    rw [if_neg fun hmod => hdvd (Nat.dvd_of_mod_eq_zero hmod)] at hget
    cases hget
  · intro hdvd
    have hpairs : (sources directories query).flatMap (pairsAt content query hlimit n) = [] := by
      rw [List.flatMap_eq_nil_iff]
      intro source hsource
      rw [pairsAt, if_pos (Nat.mod_eq_zero_of_dvd (hdvd source hsource))]
    rw [cursorsAt, hpairs]
    rfl

/-- From any page on, the search goes on to the end of the round. -/
theorem follows_round (hconfigured : directories ≠ []) (left : Nat) (hleft : 0 < left)
    (hround : n + left = Feed.round (searchFeeds directories content query hlimit)) :
    ∃ pages, Follows (directories.map Directory.provider)
        { query with cursors := cursorsAt directories content query hlimit n } pages ∧
      (pages.flatMap PrincipalSearchPage.principals).Perm ((List.range' n left).flatMap
        (Feed.turns (searchFeeds directories content query hlimit)
          fun principal => query.supportsKind principal.kind)) := by
  obtain ⟨page, hpage, hprincipals, hcursors⟩ := search_step hlimit hserves n hconfigured
  induction left generalizing n page with
  | zero => exact absurd hleft (Nat.lt_irrefl 0)
  | succ left ih =>
      rw [List.range'_succ, List.flatMap_cons]
      rcases Nat.eq_zero_or_pos left with rfl | hmore
      · have hdone : page.nextCursors = .empty := by
          rw [hcursors, cursorsAt_eq_empty hlimit hserves, hround]
          exact fun feed => Feed.pageCount_dvd_round
        refine ⟨[page], .last hpage hdone, ?_⟩
        simpa using hprincipals
      · have hrest : page.nextCursors ≠ .empty := by
          rw [hcursors, Ne, cursorsAt_eq_empty hlimit hserves]
          intro hdvd
          have hle := Nat.le_of_dvd (Nat.succ_pos n) (Feed.round_dvd hdvd)
          omega
        obtain ⟨following, hfollowing, hnext, hthen⟩ := search_step hlimit hserves (n + 1) hconfigured
        obtain ⟨pages, hpages, hperm⟩ := ih (n + 1) hmore (by omega) following hfollowing hnext hthen
        refine ⟨page :: pages, .next hpage hrest ?_, ?_⟩
        · rw [hcursors]
          exact hpages
        · rw [List.flatMap_cons]
          exact hprincipals.append hperm

end

/-! Principals that match. -/

/-- The principals of the selected directories that match the query. -/
def matching (directories : List Directory)
    (content : String → DirectoryStream → List PrincipalProjection)
    (query : PrincipalSearchQuery) : List PrincipalProjection :=
  (selectedDirectories directories query).flatMap fun directory =>
    DirectoryStream.all.flatMap fun stream =>
      (content directory.providerId stream).filter fun principal => query.supportsKind principal.kind

/-- Following the cursors ends, with every principal that matches on one of the pages, once. -/
def Enumerates (directories : List Directory)
    (content : String → DirectoryStream → List PrincipalProjection)
    (query : PrincipalSearchQuery) : Prop :=
  ∃ pages, Follows (directories.map Directory.provider) query pages ∧
    (pages.flatMap PrincipalSearchPage.principals).Perm (matching directories content query)

/-- The pages a stream is read in. -/
def streamPages (content : String → DirectoryStream → List PrincipalProjection)
    (query : PrincipalSearchQuery) (source : Directory × DirectoryStream) : Nat :=
  (content source.1.providerId source.2).length / source.1.limit query + 1

/-- A stream with a principal that matches is read, and ends on the last page of the search. -/
structure Aligned (directories : List Directory)
    (content : String → DirectoryStream → List PrincipalProjection)
    (query : PrincipalSearchQuery) : Prop where
  configured : directories ≠ []
  read : ∀ directory ∈ selectedDirectories directories query, ∀ stream,
    stream.searched query = false →
      ∀ principal ∈ content directory.providerId stream, query.supportsKind principal.kind = false
  aligned : ∀ source ∈ sources directories query,
    (∃ principal ∈ content source.1.providerId source.2, query.supportsKind principal.kind = true) →
      ∀ other ∈ sources directories query,
        streamPages content query other ∣ streamPages content query source

section
variable {content}

/-- The streams that are not read. -/
def unreadSources (directories : List Directory) (query : PrincipalSearchQuery) :
    List (Directory × DirectoryStream) :=
  (selectedDirectories directories query).flatMap fun directory =>
    (DirectoryStream.all.filter fun stream => !stream.searched query).map fun stream =>
      (directory, stream)

variable (directories query) in
theorem flatMap_streams_perm {β : Type} (f : Directory × DirectoryStream → List β) :
    ((selectedDirectories directories query).flatMap fun directory =>
      DirectoryStream.all.flatMap fun stream => f (directory, stream)).Perm
      ((sources directories query).flatMap f ++ (unreadSources directories query).flatMap f) := by
  have hstreams : ∀ directory : Directory,
      (DirectoryStream.all.flatMap fun stream => f (directory, stream)).Perm
        ((searchedStreams query).flatMap (fun stream => f (directory, stream)) ++
          (DirectoryStream.all.filter fun stream => !stream.searched query).flatMap
            fun stream => f (directory, stream)) := by
    intro directory
    rw [← List.flatMap_append]
    exact (List.filter_append_perm (DirectoryStream.searched query) _).symm.flatMap_right _
  have hunread : (unreadSources directories query).flatMap f =
      (selectedDirectories directories query).flatMap fun directory =>
        (DirectoryStream.all.filter fun stream => !stream.searched query).flatMap
          fun stream => f (directory, stream) := by
    rw [unreadSources, List.flatMap_assoc]
    simp only [List.flatMap_map]
  rw [flatMap_sources, hunread]
  exact (List.Perm.flatMap_left _ fun directory _ => hstreams directory).trans
    (List.flatMap_append_perm _ _ _).symm

theorem mem_unreadSources {source : Directory × DirectoryStream} :
    source ∈ unreadSources directories query ↔
      source.1 ∈ selectedDirectories directories query ∧ source.2.searched query = false := by
  obtain ⟨directory, stream⟩ := source
  have hall : stream ∈ DirectoryStream.all := by cases stream <;> decide
  simp [unreadSources, List.mem_filter, hall]

theorem limit_pos_of_valid (h : validateSearchQuery query = .ok ()) : 0 < query.perProviderLimit := by
  rw [validateSearchQuery] at h
  split at h
  · cases h
  · split at h
    · cases h
    · split at h
      · cases h
      · omega

variable (directories content query) in
/-- What matches is in a stream that is read, or in one that is not. -/
theorem matching_perm (hlimit : 0 < query.perProviderLimit) :
    (matching directories content query).Perm
      ((searchFeeds directories content query hlimit).flatMap (fun feed =>
        feed.items.filter fun principal => query.supportsKind principal.kind) ++
      (unreadSources directories query).flatMap fun source =>
        (content source.1.providerId source.2).filter fun principal =>
          query.supportsKind principal.kind) := by
  rw [searchFeeds, List.flatMap_map]
  exact flatMap_streams_perm directories query fun source => (content source.1.providerId source.2).filter
    fun principal => query.supportsKind principal.kind

/-- No principal is in both. -/
theorem read_unread_disjoint (hserves : Serves directories content query)
    (hlimit : 0 < query.perProviderLimit) :
    List.Disjoint ((searchFeeds directories content query hlimit).flatMap Feed.items)
      ((unreadSources directories query).flatMap fun source =>
        content source.1.providerId source.2) := by
  have hsplit := flatMap_streams_perm directories query fun source =>
    content source.1.providerId source.2
  have hnodup := ((hsplit.map _).nodup_iff.mp (selected_distinct hserves)).of_map
  rw [searchFeeds, List.flatMap_map]
  exact List.disjoint_of_nodup_append hnodup

theorem filter_ne_nil {items : List PrincipalProjection} :
    items.filter (fun principal => query.supportsKind principal.kind) ≠ [] ↔
      ∃ principal ∈ items, query.supportsKind principal.kind = true := by
  simp [List.filter_eq_nil_iff]

theorem unread_eq_nil (h : ∀ directory ∈ selectedDirectories directories query, ∀ stream,
    stream.searched query = false → ∀ principal ∈ content directory.providerId stream,
      query.supportsKind principal.kind = false) :
    (unreadSources directories query).flatMap (fun source =>
      (content source.1.providerId source.2).filter fun principal =>
        query.supportsKind principal.kind) = [] := by
  rw [List.flatMap_eq_nil_iff]
  intro source hsource
  obtain ⟨hselected, hunread⟩ := mem_unreadSources.mp hsource
  rw [List.filter_eq_nil_iff]
  intro principal hprincipal
  rw [h source.1 hselected source.2 hunread principal hprincipal]
  exact Bool.false_ne_true

/-- The pages of a round, against what matches. -/
theorem round_perm_iff (hserves : Serves directories content query)
    (hlimit : 0 < query.perProviderLimit) (hconfigured : directories ≠ []) :
    ((List.range (Feed.round (searchFeeds directories content query hlimit))).flatMap
      (Feed.turns (searchFeeds directories content query hlimit) fun principal =>
        query.supportsKind principal.kind)).Perm (matching directories content query) ↔
      Aligned directories content query := by
  have hfeeds := ((feeds_distinct hlimit hserves).of_map)
  have honce := Feed.flatMap_turns_perm_iff (fun principal => query.supportsKind principal.kind)
    hfeeds
  have hmatching := matching_perm directories content query hlimit
  constructor
  · intro hround
    have hunread : ∀ directory ∈ selectedDirectories directories query, ∀ stream,
        stream.searched query = false → ∀ principal ∈ content directory.providerId stream,
          query.supportsKind principal.kind = false := by
      intro directory hdirectory stream hstream principal hprincipal
      by_contra hsupported
      rw [Bool.not_eq_false] at hsupported
      have hsource : (directory, stream) ∈ unreadSources directories query :=
        mem_unreadSources.mpr ⟨hdirectory, hstream⟩
      have hmember : principal ∈ matching directories content query :=
        hmatching.mem_iff.mpr (List.mem_append_right _ (List.mem_flatMap.mpr
          ⟨(directory, stream), hsource, List.mem_filter.mpr ⟨hprincipal, hsupported⟩⟩))
      obtain ⟨n, -, hturn⟩ := List.mem_flatMap.mp (hround.mem_iff.mpr hmember)
      exact read_unread_disjoint hserves hlimit ((Feed.turns_sublist _ _ n).subset hturn)
        (List.mem_flatMap.mpr ⟨(directory, stream), hsource, hprincipal⟩)
    refine ⟨hconfigured, hunread, ?_⟩
    rw [unread_eq_nil hunread, List.append_nil] at hmatching
    have haligned := honce.mp (hround.trans hmatching)
    rw [searchFeeds, List.forall_mem_map] at haligned
    intro source hsource hkept other hother
    exact haligned source hsource (filter_ne_nil.mpr hkept) _ (List.mem_map_of_mem hother)
  · intro haligned
    rw [unread_eq_nil haligned.read, List.append_nil] at hmatching
    refine (honce.mpr ?_).trans hmatching.symm
    rw [searchFeeds, List.forall_mem_map]
    intro source hsource hkept
    rw [List.forall_mem_map]
    exact haligned.aligned source hsource (filter_ne_nil.mp hkept)

end

/-- The pages of a search are those of one round. -/
theorem enumerates_iff_round {directories : List Directory}
    {content : String → DirectoryStream → List PrincipalProjection} {query : PrincipalSearchQuery}
    (hserves : Serves directories content query) (hstart : query.cursors = .empty)
    (hconfigured : directories ≠ []) (hlimit : 0 < query.perProviderLimit) :
    Enumerates directories content query ↔
      ((List.range (Feed.round (searchFeeds directories content query hlimit))).flatMap
        (Feed.turns (searchFeeds directories content query hlimit) fun principal =>
          query.supportsKind principal.kind)).Perm (matching directories content query) := by
  obtain ⟨pages, hpages, hperm⟩ := follows_round hlimit hserves 0 hconfigured _ Feed.round_pos
    (Nat.zero_add _)
  rw [(cursorsAt_eq_empty hlimit hserves 0).mpr fun _ _ => Nat.dvd_zero _, ← hstart] at hpages
  rw [← List.range_eq_range'] at hperm
  constructor
  · rintro ⟨others, hothers, hmatching⟩
    obtain rfl := hpages.unique hothers
    exact hperm.symm.trans hmatching
  · intro hround
    exact ⟨pages, hpages, hperm.trans hround⟩

theorem not_follows_nil {query : PrincipalSearchQuery} {pages : List PrincipalSearchPage}
    (hvalid : validateSearchQuery query = .ok ()) : ¬Follows [] query pages := by
  have hfailed : PrincipalHandler.search [] query = .error .providerUnavailable := by
    simp [PrincipalHandler.search, hvalid]
  intro hpages
  cases hpages with
  | last found done => cases hfailed.symm.trans found
  | next found more rest => cases hfailed.symm.trans found

theorem search_enumerates_iff {directories : List Directory}
    {content : String → DirectoryStream → List PrincipalProjection} {query : PrincipalSearchQuery}
    (hserves : Serves directories content query) (hstart : query.cursors = .empty) :
    Enumerates directories content query ↔ Aligned directories content query := by
  have hlimit := limit_pos_of_valid hserves.valid
  by_cases hconfigured : directories = []
  · constructor
    · rintro ⟨pages, hpages, -⟩
      subst hconfigured
      exact absurd hpages (not_follows_nil hserves.valid)
    · intro haligned
      exact absurd hconfigured haligned.configured
  · rw [enumerates_iff_round hserves hstart hconfigured hlimit,
      round_perm_iff hserves hlimit hconfigured]

end

/-! A realm of two users and a group. -/

namespace Realm

def discovery : KeycloakPrincipalDiscovery := ⟨"idp", "https://idp.example", 50, pageSize_fifty⟩

def users : List KeycloakUser :=
  [⟨some "u1", some "ada", none, none, none, some true, none, .empty⟩,
    ⟨some "u2", some "adam", none, none, none, some true, none, .empty⟩]

def groups : List KeycloakGroup := [⟨some "g1", some "adams", none, .empty⟩]

def parameter (request : KeycloakRequest) (name : String) : Nat :=
  ((request.query.lookup name).bind String.toNat?).getD 0

theorem parameter_eq {request : KeycloakRequest} {name : String} {value : Nat}
    (h : request.query.lookup name = some value.repr) : parameter request name = value := by
  rw [parameter, h, Option.bind_some, Nat.toNat?_repr]
  rfl

def admin : KeycloakAdmin where
  bearerToken := .ok "token"
  send request :=
    .ok ⟨200, some ((users.drop (parameter request "first")).take (parameter request "max")),
      some ((groups.drop (parameter request "first")).take (parameter request "max"))⟩

def directories : List Directory := [.keycloak discovery admin]

def content (_ : String) : DirectoryStream → List PrincipalProjection
  | .users =>
      [⟨"idp", "https://idp.example", "u1", .user, "ada", true, .empty⟩,
        ⟨"idp", "https://idp.example", "u2", .user, "adam", true, .empty⟩]
  | .groups => [⟨"idp", "https://idp.example", "group:g1", .group, "adams", true, .empty⟩]

def query (limit : Nat) : PrincipalSearchQuery := ⟨"ada", ∅, .empty, limit, .empty⟩

theorem serves {limit : Nat} (hvalid : validateSearchQuery (query limit) = .ok ()) :
    Serves directories content (query limit) where
  ids := by decide
  known := by
    intro id hid
    cases hid
  valid := hvalid
  returns := by
    intro directory hdirectory stream
    obtain rfl := List.mem_singleton.mp hdirectory
    cases stream with
    | users =>
        refine ⟨⟨"token", rfl⟩, users, rfl, fun offset limit => ⟨_, rfl, rfl, ?_⟩⟩
        rw [parameter_eq rfl, parameter_eq rfl]
    | groups =>
        refine ⟨⟨"token", rfl⟩, groups, rfl, fun offset limit => ⟨_, rfl, rfl, ?_⟩⟩
        rw [parameter_eq rfl, parameter_eq rfl]
  bounded := by
    intro directory hdirectory stream
    cases stream with
    | users => exact (by decide : 2 < 2 ^ 31)
    | groups => exact (by decide : 1 < 2 ^ 31)
  distinct := by decide

theorem mem_sources_iff {limit : Nat} {source : Directory × DirectoryStream} :
    source ∈ sources directories (query limit) ↔ source.1 = .keycloak discovery admin := by
  obtain ⟨directory, stream⟩ := source
  have hsearched : stream.searched (query limit) = true := by cases stream <;> rfl
  rw [mem_sources]
  exact ⟨fun h => List.mem_singleton.mp h.1, fun h => ⟨List.mem_singleton.mpr h, hsearched⟩⟩

/-- Pages of two: the users need a second page, and the group is on both. -/
theorem pages_of_two_repeat :
    Serves directories content (query 2) ∧ (query 2).cursors = .empty ∧
      ¬Enumerates directories content (query 2) := by
  have hserves : Serves directories content (query 2) := serves (by decide)
  refine ⟨hserves, rfl, ?_⟩
  rw [enumerates_iff_round hserves rfl (by decide) (by decide),
    round_perm_iff hserves (by decide) (by decide)]
  intro haligned
  have hdvd := haligned.aligned (.keycloak discovery admin, .groups) (mem_sources_iff.mpr rfl)
    ⟨_, List.mem_cons_self, by decide⟩ (.keycloak discovery admin, .users)
    (mem_sources_iff.mpr rfl)
  exact absurd hdvd (by decide)

/-- Pages of three: both streams end on the first. -/
theorem pages_of_three_enumerate : Enumerates directories content (query 3) := by
  refine (search_enumerates_iff (serves (by decide)) rfl).mpr ⟨by decide, ?_, ?_⟩
  · intro directory _ stream hunread
    cases stream <;> cases hunread
  · intro source hsource _ other hother
    have hpages : ∀ source ∈ sources directories (query 3),
        streamPages content (query 3) source = 1 := by
      rintro ⟨directory, stream⟩ hmem
      obtain rfl := mem_sources_iff.mp hmem
      cases stream <;> rfl
    rw [hpages other hother]
    exact one_dvd _

end Realm

end Authguard
