import Authguard.Metatheory.SearchCursors

/-!
Entries of a custom directory that are found, and then resolved. A search reads a
kind out of the query, a resolution out of the reference; where the entry does not
say its kind, the two need not agree.
-/

namespace Authguard
open Text PrincipalSearchQuery

/-! Directories. -/

section
variable (discovery : CustomPrincipalDiscovery)
  (directory : CustomHttpRequest → Except String DirectoryResponse)

/-- The entry is among those a stream is answered with. -/
def CustomPrincipalDiscovery.Lists (query : PrincipalSearchQuery) (stream : DirectoryStream)
    (entry : Json) : Prop :=
  ∃ offset response payload items,
    discovery.streamOffset query stream.name = .ok offset ∧
    directory (discovery.searchRequest query (stream.kind query) offset
      (min query.perProviderLimit discovery.maxPageSize)) = .ok response ∧
    response.body = some payload ∧
    selectArray discovery.response.arrayPath payload = some items ∧ entry ∈ items

/-- A search returns the projection, for the entry. -/
structure CustomPrincipalDiscovery.Shows (query : PrincipalSearchQuery) (stream : DirectoryStream)
    (entry : Json) (projection : PrincipalProjection) : Prop where
  searched : stream.searched query = true
  listed : discovery.Lists directory query stream entry
  mapped : discovery.mapEntry entry (stream.kind query) = .ok projection
  returned : ∃ page, discovery.discover directory query = .ok page ∧ projection ∈ page.principals

/-- Whatever kind is asked for, the identifier is answered with the entry. -/
def CustomPrincipalDiscovery.Answers (id : String) (entry : Json) : Prop :=
  ∀ kind, ∃ response, directory (discovery.resolveRequest id kind) = .ok response ∧
    response.isSuccess = true ∧ response.body = some entry

/-- The same principal is resolved. -/
def CustomPrincipalDiscovery.Resolves (projection : PrincipalProjection) : Prop :=
  ∃ resolved, discovery.resolvePrincipal directory projection.reference = .ok (some resolved) ∧
    resolved.reference = projection.reference ∧ resolved.kind = projection.kind ∧
    resolved.displayName = projection.displayName ∧ resolved.enabled = projection.enabled

end

/-- What a reference would take for the mark of a group. -/
def MarkedGroup (id : String) : Prop := ∃ rest, rest ≠ "" ∧ id = "group:" ++ rest

/-- The kind the search reads is read again: an attribute of the entry gives it, or the
stream that was searched; and a user does not have the identifier of a group. -/
def CustomPrincipalDiscovery.KeepsKind (discovery : CustomPrincipalDiscovery)
    (query : PrincipalSearchQuery) (stream : DirectoryStream) (object : JsonMap) (id : String) :
    Prop :=
  match discovery.response.kindAttr with
  | none => stream = .groups ∨ (query.supportsKind .workload = false ∧ ¬MarkedGroup id)
  | some kindAttr =>
      (∃ value ∈ ["GROUP", "group", "Group"], object.get kindAttr = some (.string value)) ∨
        ¬MarkedGroup id

/-! References. -/

/-- A canonical identifier does not end in a blank. -/
theorem last_of_canonical {id : String} (h : isCanonical id = true) :
    ∃ init last, id.toList = init ++ [last] ∧ isWhitespace last = false := by
  rw [isCanonical, Bool.and_eq_true, Bool.not_eq_true', decide_eq_true_eq] at h
  obtain ⟨hblank, htrim⟩ := h
  have hne : id.toList ≠ [] := by
    intro hnil
    rw [isBlank, hnil] at hblank
    cases hblank
  have hchars := congrArg String.toList htrim
  rw [trim, String.toList_ofList] at hchars
  have hreverse := congrArg List.reverse hchars
  rw [List.reverse_reverse] at hreverse
  have hfront := (List.dropWhile_suffix isWhitespace (l := id.toList)).length_le
  have hback := (List.dropWhile_suffix isWhitespace
    (l := (id.toList.dropWhile isWhitespace).reverse))
  have hsame : (id.toList.dropWhile isWhitespace).reverse = id.toList.reverse := by
    have hlength := congrArg List.length hreverse
    have hle := hback.length_le
    rw [List.length_reverse] at hlength hle
    refine (hreverse ▸ hback.eq_of_length ?_).symm
    rw [hlength, List.length_reverse]
    omega
  rw [hsame] at hreverse
  obtain ⟨init, last, hlast⟩ := List.eq_nil_or_concat'  id.toList |>.resolve_left hne
  refine ⟨init, last, hlast, ?_⟩
  rw [hlast, List.reverse_append, List.reverse_singleton, List.singleton_append] at hreverse
  cases hspace : isWhitespace last with
  | false => rfl
  | true =>
      rw [List.dropWhile_cons_of_pos hspace] at hreverse
      have := (List.dropWhile_suffix isWhitespace (l := init.reverse)).length_le
      rw [hreverse, List.length_cons] at this
      omega

theorem canonical_append {head id : String} {first : Char} {rest : List Char}
    (hhead : head.toList = first :: rest) (hfirst : isWhitespace first = false)
    (hid : isCanonical id = true) : isCanonical (head ++ id) = true := by
  obtain ⟨init, last, hlast, hspace⟩ := last_of_canonical hid
  have hchars : (head ++ id).toList = first :: (rest ++ init) ++ [last] := by
    rw [String.toList_append, hhead, hlast]
    simp
  have htrim : trim (head ++ id) = head ++ id := by
    rw [← String.toList_inj, trim, String.toList_ofList, hchars, List.cons_append,
      List.dropWhile_cons_of_neg (by simp [hfirst]), ← List.cons_append, List.reverse_append,
      List.reverse_singleton, List.singleton_append,
      List.dropWhile_cons_of_neg (by simp [hspace])]
    simp
  have hblank : isBlank (head ++ id) = false := by
    rw [isBlank, hchars, List.cons_append, List.all_cons, hfirst, Bool.false_and]
  rw [isCanonical, hblank, htrim]
  simp

namespace CustomPrincipalDiscovery

theorem requested_group {id : String} (h : id ≠ "") : requested ("group:" ++ id) = (.group, id) := by
  rw [requested, stripPrefix_append]
  exact if_pos h

theorem requested_plain {id : String} (h : ¬MarkedGroup id) : requested id = (.user, id) := by
  rw [requested]
  cases hstrip : stripPrefix "group:" id with
  | none => rfl
  | some rest =>
      refine if_neg fun hne => h ⟨rest, hne, stripPrefix_eq_some.mp hstrip⟩

section
variable {discovery : CustomPrincipalDiscovery} {entry : Json} {object : JsonMap} {id : String}

/-- What an entry with a canonical identifier is read as. -/
def projected (discovery : CustomPrincipalDiscovery) (object : JsonMap) (id : String)
    (kind : PrincipalKind) : PrincipalProjection :=
  let externalId := if kind = .group then "group:" ++ id else id
  { providerId := discovery.providerId
    issuer := discovery.issuer
    externalId
    kind
    displayName :=
      ((asStr (object.get discovery.response.displayNameAttr)).filter fun name =>
        !isBlank name).getD externalId
    enabled := discovery.enabledOf object
    attributes := object }

theorem mapEntry_eq (hobject : objectOf entry = some object)
    (hid : object.get discovery.response.idAttr = some (.string id)) (kind : PrincipalKind) :
    discovery.mapEntry entry kind =
      if isCanonical id then .ok (discovery.projected object id (discovery.kindOf object kind))
      else .error (discovery.invalidResponse "custom search entry has no canonical id attribute") := by
  rw [mapEntry, hobject]
  simp only [hid, asStr, Option.filter_some]
  cases isCanonical id with
  | false => rfl
  | true => rfl

theorem mapped_eq {kind : PrincipalKind} {projection : PrincipalProjection}
    (hobject : objectOf entry = some object)
    (hid : object.get discovery.response.idAttr = some (.string id))
    (h : discovery.mapEntry entry kind = .ok projection) :
    isCanonical id = true ∧ projection = discovery.projected object id (discovery.kindOf object kind) := by
  rw [mapEntry_eq hobject hid] at h
  split at h
  · rename_i hcanonical
    cases h
    exact ⟨hcanonical, rfl⟩
  · cases h

/-- A resolution reads the entry it is answered with. -/
theorem resolvePrincipal_eq {directory : CustomHttpRequest → Except String DirectoryResponse}
    {externalId asked : String} {kind : PrincipalKind} {response : DirectoryResponse}
    (hobject : objectOf entry = some object)
    (hid : object.get discovery.response.idAttr = some (.string id))
    (hcanonical : isCanonical externalId = true) (hrequested : requested externalId = (kind, asked))
    (hresponse : directory (discovery.resolveRequest asked kind) = .ok response)
    (hsuccess : response.isSuccess = true) (hbody : response.body = some entry) :
    discovery.resolvePrincipal directory ⟨discovery.providerId, discovery.issuer, externalId⟩ =
      (discovery.mapEntry entry kind >>= fun resolved =>
        if resolved.externalId ≠ externalId then
          .error (discovery.invalidResponse
            "resolved principal external_id does not match request")
        else
          .ok (some resolved)) := by
  have hfound : response.status ≠ 404 := by
    intro hstatus
    rw [DirectoryResponse.isSuccess, hstatus] at hsuccess
    exact absurd hsuccess (by decide)
  have hensure : ensureSuccess discovery.providerId "resolve" response = .ok () := by
    rw [ensureSuccess, hsuccess, if_pos rfl]
  have hattr : ((objectOf entry).bind (·.get discovery.response.idAttr)).isNone = false := by
    rw [hobject, Option.bind_some, hid]
    rfl
  rw [resolvePrincipal, if_neg (not_not.mpr rfl), if_neg (not_not.mpr rfl), hcanonical,
    Bool.not_true, if_neg Bool.false_ne_true]
  simp only [hrequested, hresponse, exchanged, Bind.bind, Except.bind, if_neg hfound, hensure,
    hbody, hattr, if_neg Bool.false_ne_true]

theorem resolvePrincipal_missing {directory : CustomHttpRequest → Except String DirectoryResponse}
    {externalId asked : String} {kind : PrincipalKind} {response : DirectoryResponse}
    (hcanonical : isCanonical externalId = true) (hrequested : requested externalId = (kind, asked))
    (hresponse : directory (discovery.resolveRequest asked kind) = .ok response)
    (hstatus : response.status = 404) :
    discovery.resolvePrincipal directory ⟨discovery.providerId, discovery.issuer, externalId⟩ =
      .ok none := by
  rw [resolvePrincipal, if_neg (not_not.mpr rfl), if_neg (not_not.mpr rfl), hcanonical,
    Bool.not_true, if_neg Bool.false_ne_true]
  simp only [hrequested, hresponse, exchanged, Bind.bind, Except.bind, if_pos hstatus]

/-- A resolution that reads the kind of the projection out of the entry resolves it. -/
theorem resolves_of_kind {directory : CustomHttpRequest → Except String DirectoryResponse}
    {kind requestedKind : PrincipalKind}
    (hobject : objectOf entry = some object)
    (hid : object.get discovery.response.idAttr = some (.string id))
    (hcanonical : isCanonical id = true)
    (hrequested : requested (discovery.projected object id kind).externalId = (requestedKind, id))
    (hanswers : discovery.Answers directory id entry)
    (hkind : discovery.kindOf object requestedKind = kind) :
    discovery.Resolves directory (discovery.projected object id kind) := by
  obtain ⟨response, hresponse, hsuccess, hbody⟩ := hanswers requestedKind
  have hexternal : isCanonical (discovery.projected object id kind).externalId = true := by
    rw [projected]
    split
    · exact canonical_append rfl rfl hcanonical
    · exact hcanonical
  have hresolve := resolvePrincipal_eq hobject hid hexternal hrequested hresponse hsuccess hbody
  rw [mapEntry_eq hobject hid, hcanonical, if_pos rfl, hkind] at hresolve
  refine ⟨discovery.projected object id kind, hresolve.trans ?_, rfl, rfl, rfl, rfl⟩
  exact if_neg (not_not.mpr rfl)

theorem kindOf_default (h : discovery.response.kindAttr = none) (kind : PrincipalKind) :
    discovery.kindOf object kind = kind := by
  rw [kindOf, h]

theorem kindOf_attribute {kindAttr : String} (h : discovery.response.kindAttr = some kindAttr)
    (kind other : PrincipalKind) : discovery.kindOf object kind = discovery.kindOf object other := by
  rw [kindOf, kindOf, h]

theorem kindOf_group_iff {kindAttr : String} (h : discovery.response.kindAttr = some kindAttr)
    (kind : PrincipalKind) :
    discovery.kindOf object kind = .group ↔
      ∃ value ∈ ["GROUP", "group", "Group"], object.get kindAttr = some (.string value) := by
  simp only [kindOf, h]
  generalize object.get kindAttr = found
  have hother : (∀ text, found ≠ some (.string text)) → asStr found = none := by
    intro hne
    rw [asStr.eq_def]
    split
    · exact absurd rfl (hne _)
    · rfl
  by_cases hstring : ∃ text, found = some (.string text)
  · obtain ⟨text, rfl⟩ := hstring
    by_cases hgroup : text ∈ ["GROUP", "group", "Group"]
    · simp only [asStr, if_pos hgroup, true_iff]
      exact ⟨text, hgroup, rfl⟩
    · simp only [asStr, if_neg hgroup]
      constructor
      · intro hkind
        split at hkind <;> cases hkind
      · rintro ⟨value, hmem, heq⟩
        cases heq
        exact absurd hmem hgroup
  · simp only [hother fun text htext => hstring ⟨text, htext⟩]
    constructor
    · nofun
    · rintro ⟨value, -, hvalue⟩
      exact absurd ⟨value, hvalue⟩ hstring

end

/-! A search that reads its streams. -/

section
variable {discovery : CustomPrincipalDiscovery}
  {directory : CustomHttpRequest → Except String DirectoryResponse} {query : PrincipalSearchQuery}
  {stream : DirectoryStream} {page : PrincipalSearchPage}

theorem valid_of_discover (h : discovery.discover directory query = .ok page) :
    validateSearchQuery query = .ok () := by
  obtain ⟨⟨⟩, hvalid, -⟩ := Result.bind_ok_iff.mp h
  exact hvalid

/-- The streams of a search that succeeds are read. -/
theorem discover_reads (h : discovery.discover directory query = .ok page) :
    ∃ pages : DirectoryStream → PrincipalSearchPage,
      (∀ stream, stream.searched query = true →
        discovery.requestKind directory (stream.kind query) query = .ok (pages stream)) ∧
      page.principals = (searchedStreams query).flatMap fun stream => (pages stream).principals := by
  have hread := (discover_streams (.custom discovery directory) (valid_of_discover h)).symm.trans h
  have hstreams : searchedStreams query =
      (if DirectoryStream.users.searched query then [DirectoryStream.users] else []) ++
        if DirectoryStream.groups.searched query then [DirectoryStream.groups] else [] := by
    rw [searchedStreams, DirectoryStream.all]
    cases husers : DirectoryStream.users.searched query <;>
      cases hgroups : DirectoryStream.groups.searched query <;> simp [husers, hgroups]
  rw [hstreams]
  split at hread
  · rename_i husers
    rw [if_pos husers]
    split at hread
    · rename_i hgroups
      rw [if_pos hgroups]
      obtain ⟨users, husersRead, hread⟩ := Result.bind_ok_iff.mp hread
      obtain ⟨groups, hgroupsRead, hread⟩ := Result.bind_ok_iff.mp hread
      cases hread
      refine ⟨fun stream => if stream = .users then users else groups, fun stream _ => ?_, by
        simp [PrincipalSearchPage.extend]⟩
      cases stream with
      | users => exact husersRead
      | groups => exact hgroupsRead
    · rename_i hgroups
      rw [if_neg hgroups]
      refine ⟨fun _ => page, fun stream hsearched => ?_, by simp⟩
      cases stream with
      | users => exact hread
      | groups => exact absurd hsearched hgroups
  · rename_i husers
    rw [if_neg husers]
    split at hread
    · rename_i hgroups
      rw [if_pos hgroups]
      refine ⟨fun _ => page, fun stream hsearched => ?_, by simp⟩
      cases stream with
      | users => exact absurd hsearched husers
      | groups => exact hread
    · rename_i hgroups
      rw [if_neg hgroups]
      cases hread
      refine ⟨fun _ => .empty, fun stream hsearched => ?_, rfl⟩
      cases stream with
      | users => exact absurd hsearched husers
      | groups => exact absurd hsearched hgroups

theorem foldl_extend_principals (pages : List PrincipalSearchPage) (page : PrincipalSearchPage) :
    (pages.foldl PrincipalSearchPage.extend page).principals =
      page.principals ++ pages.flatMap PrincipalSearchPage.principals := by
  induction pages generalizing page with
  | nil => exact (List.append_nil _).symm
  | cons first rest ih =>
      rw [List.foldl_cons, ih, PrincipalSearchPage.extend, List.flatMap_cons, List.append_assoc]

/-- What a stream is answered with is returned. -/
theorem discover_returns {pages : DirectoryStream → PrincipalSearchPage}
    (hvalid : validateSearchQuery query = .ok ())
    (hread : ∀ stream, stream.searched query = true →
      discovery.requestKind directory (stream.kind query) query = .ok (pages stream))
    (hsearched : stream.searched query = true) {principal : PrincipalProjection}
    (hprincipal : principal ∈ (pages stream).principals) :
    ∃ page, discovery.discover directory query = .ok page ∧ principal ∈ page.principals := by
  refine ⟨_, @discover_eq _ (.custom discovery directory) hvalid pages hread, ?_⟩
  rw [foldl_extend_principals]
  refine List.mem_append_right _ (List.mem_flatMap.mpr ⟨pages stream, List.mem_map_of_mem ?_,
    hprincipal⟩)
  refine List.mem_filter.mpr ⟨?_, hsearched⟩
  cases stream <;> decide

/-- Only streams that can be read are read, and only kinds that are asked for are kept. -/
theorem requestKind_eq_ok {kind : PrincipalKind}
    (h : discovery.requestKind directory kind query = .ok page) :
    (∃ offset, discovery.streamOffset query (cursorStream kind) = .ok offset) ∧
      ∀ principal ∈ page.principals, query.supportsKind principal.kind = true := by
  obtain ⟨offset, hoffset, h⟩ := Result.bind_ok_iff.mp h
  refine ⟨⟨offset, hoffset⟩, ?_⟩
  obtain ⟨response, -, h⟩ := Result.bind_ok_iff.mp h
  obtain ⟨⟨⟩, -, h⟩ := Result.bind_ok_iff.mp h
  split at h
  · cases h
  · split at h
    · cases h
    · obtain ⟨principals, -, h⟩ := Result.bind_ok_iff.mp h
      cases h
      intro principal hprincipal
      exact (List.mem_filter.mp hprincipal).2

end

/-! A directory with one entry. -/

section
variable {discovery : CustomPrincipalDiscovery} {query : PrincipalSearchQuery}
  {stream : DirectoryStream} {entry payload : Json} {object : JsonMap} {id : String}

theorem names_lead (names : List String) (items : List Json) :
    ∃ payload, (names.foldlM (fun current reference => (objectOf current).bind fun object =>
      object.get (pointerName reference)) payload) = some (.array items) := by
  induction names with
  | nil => exact ⟨.array items, rfl⟩
  | cons name names ih =>
      obtain ⟨payload, hpayload⟩ := ih
      refine ⟨.object [(pointerName name, payload)], ?_⟩
      have hget : (objectOf (.object [(pointerName name, payload)])).bind
          (fun object => object.get (pointerName name)) = some payload := by
        rw [objectOf, Json.asObject, Option.map_some, Option.bind_some,
          SortedMap.get_ofList (by simp)]
        simp
      rw [List.foldlM_cons, hget]
      exact hpayload

/-- Every path leads to the items of some answer. -/
theorem selectArray_total (path : String) (items : List Json) :
    ∃ payload, selectArray path payload = some items := by
  by_cases hpath : path = ""
  · exact ⟨.array items, if_pos hpath⟩
  · obtain ⟨payload, hpayload⟩ := names_lead (splitChar '/' path).tail items
    refine ⟨payload, ?_⟩
    rw [selectArray, if_neg hpath, hpayload]
    rfl

/-- A search is answered with the payload, the identifier with the entry; there is no other. -/
def singleEntry (discovery : CustomPrincipalDiscovery) (payload entry : Json) (id : String) :
    CustomHttpRequest → Except String DirectoryResponse := fun request =>
  if request.query = [(discovery.request.externalIdParam, id)] then .ok ⟨200, some entry⟩
  else if request.query.length = 1 then .ok ⟨404, none⟩
  else .ok ⟨200, some payload⟩

theorem singleEntry_answers (discovery : CustomPrincipalDiscovery) (payload entry : Json)
    (id : String) : discovery.Answers (discovery.singleEntry payload entry id) id entry :=
  fun _ => ⟨⟨200, some entry⟩, if_pos rfl, rfl, rfl⟩

theorem singleEntry_search (kind : PrincipalKind) (offset limit : Nat) :
    discovery.singleEntry payload entry id (discovery.searchRequest query kind offset limit) =
      .ok ⟨200, some payload⟩ := by
  rw [singleEntry, if_neg fun h => absurd (congrArg List.length h) (by simp [searchRequest]),
    if_neg (by simp [searchRequest])]

theorem singleEntry_requestKind {kind : PrincipalKind} {offset : Nat}
    (hobject : objectOf entry = some object)
    (hid : object.get discovery.response.idAttr = some (.string id))
    (hcanonical : isCanonical id = true)
    (hpayload : selectArray discovery.response.arrayPath payload = some [entry])
    (hoffset : discovery.streamOffset query (cursorStream kind) = .ok offset) :
    discovery.requestKind (discovery.singleEntry payload entry id) kind query =
      .ok
        { principals := [discovery.projected object id (discovery.kindOf object kind)].filter
            fun principal => query.supportsKind principal.kind
          nextCursors := nextCursor (cursorKey discovery.providerId (cursorStream kind)) offset
            (min query.perProviderLimit discovery.maxPageSize) 1 } := by
  have hmap : Result.collect (discovery.mapEntry · kind) [entry] =
      .ok [discovery.projected object id (discovery.kindOf object kind)] := by
    simp only [Result.collect, mapEntry_eq hobject hid, hcanonical]
    rfl
  refine Result.bind_ok_iff.mpr ⟨offset, hoffset, ?_⟩
  refine Result.bind_ok_iff.mpr
    ⟨⟨200, some payload⟩, congrArg (exchanged _ "search") (singleEntry_search _ _ _), ?_⟩
  refine Result.bind_ok_iff.mpr ⟨(), rfl, ?_⟩
  simp only [hpayload]
  exact Result.bind_ok_iff.mpr ⟨_, hmap, rfl⟩

/-- A directory with nothing but the entry shows what any directory shows for it. -/
theorem singleEntry_shows {directory : CustomHttpRequest → Except String DirectoryResponse}
    {projection : PrincipalProjection} (hobject : objectOf entry = some object)
    (hid : object.get discovery.response.idAttr = some (.string id))
    (hpayload : selectArray discovery.response.arrayPath payload = some [entry])
    (hshows : discovery.Shows directory query stream entry projection) :
    discovery.Shows (discovery.singleEntry payload entry id) query stream entry projection := by
  obtain ⟨page, hpage, hreturned⟩ := hshows.returned
  obtain ⟨pages, hpages, hprincipals⟩ := discover_reads hpage
  obtain ⟨hcanonical, -⟩ := mapped_eq hobject hid hshows.mapped
  have hsupported : query.supportsKind projection.kind = true := by
    rw [hprincipals] at hreturned
    obtain ⟨other, hother, hmem⟩ := List.mem_flatMap.mp hreturned
    exact (requestKind_eq_ok (hpages other (List.mem_filter.mp hother).2)).2 _ hmem
  have hoffset : ∀ other, DirectoryStream.searched query other = true →
      ∃ offset, discovery.streamOffset query other.name = .ok offset := by
    intro other hother
    obtain ⟨⟨offset, hoffset⟩, -⟩ := requestKind_eq_ok (hpages other hother)
    exact ⟨offset, @cursorStream_kind query other ▸ hoffset⟩
  have hread : ∀ other, DirectoryStream.searched query other = true → ∃ page,
      discovery.requestKind (discovery.singleEntry payload entry id) (other.kind query) query =
        .ok page ∧
      page.principals = [discovery.projected object id
        (discovery.kindOf object (other.kind query))].filter
          fun principal => query.supportsKind principal.kind := by
    intro other hother
    obtain ⟨offset, hoffset⟩ := hoffset other hother
    rw [← @cursorStream_kind query other] at hoffset
    exact ⟨_, singleEntry_requestKind hobject hid hcanonical hpayload hoffset, rfl⟩
  have hpages : Nonempty PrincipalSearchPage := ⟨page⟩
  choose! read hread hfound using hread
  refine ⟨hshows.searched, ?_, hshows.mapped, ?_⟩
  · obtain ⟨offset, hoffset⟩ := hoffset stream hshows.searched
    exact ⟨offset, _, payload, [entry], hoffset, singleEntry_search _ _ _, rfl, hpayload,
      List.mem_singleton_self entry⟩
  · refine discover_returns (valid_of_discover hpage) hread hshows.searched ?_
    rw [hfound stream hshows.searched, ← (mapped_eq hobject hid hshows.mapped).2]
    exact List.mem_filter.mpr ⟨List.mem_singleton_self _, hsupported⟩

end

/-! Entries that are resolved. -/

section
variable {discovery : CustomPrincipalDiscovery}
  {directory : CustomHttpRequest → Except String DirectoryResponse} {query : PrincipalSearchQuery}
  {stream : DirectoryStream} {entry : Json} {object : JsonMap} {id : String}
  {projection : PrincipalProjection}

theorem keeps_resolves (hobject : objectOf entry = some object)
    (hid : object.get discovery.response.idAttr = some (.string id))
    (hkeeps : discovery.KeepsKind query stream object id)
    (hshows : discovery.Shows directory query stream entry projection)
    (hanswers : discovery.Answers directory id entry) :
    discovery.Resolves directory projection := by
  obtain ⟨hcanonical, rfl⟩ := mapped_eq hobject hid hshows.mapped
  have hid' : id ≠ "" := by
    rintro rfl
    cases hcanonical
  by_cases hgroup : discovery.kindOf object (stream.kind query) = .group
  · rw [hgroup]
    refine resolves_of_kind hobject hid hcanonical (requested_group hid') hanswers ?_
    cases hattr : discovery.response.kindAttr with
    | none => exact kindOf_default hattr _
    | some kindAttr => exact (kindOf_attribute hattr _ _).trans hgroup
  · have hplain : ¬MarkedGroup id ∧
        discovery.kindOf object .user = discovery.kindOf object (stream.kind query) := by
      rw [KeepsKind] at hkeeps
      cases hattr : discovery.response.kindAttr with
      | none =>
          rw [kindOf_default hattr] at hgroup
          simp only [hattr] at hkeeps
          obtain rfl | ⟨hworkload, hplain⟩ := hkeeps
          · exact absurd rfl hgroup
          · refine ⟨hplain, ?_⟩
            rw [kindOf_default hattr, kindOf_default hattr]
            cases stream with
            | users => exact (if_neg (Bool.not_eq_true _ ▸ hworkload)).symm
            | groups => exact absurd rfl hgroup
      | some kindAttr =>
          simp only [hattr, ← kindOf_group_iff hattr (stream.kind query)] at hkeeps
          exact ⟨hkeeps.resolve_left hgroup, kindOf_attribute hattr _ _⟩
    refine resolves_of_kind hobject hid hcanonical ?_ hanswers hplain.2
    rw [projected]
    simp only [if_neg hgroup]
    exact requested_plain hplain.1

/-- A kind that is not kept is that of no group. -/
theorem not_keeps (h : ¬discovery.KeepsKind query stream object id) :
    discovery.kindOf object (stream.kind query) ≠ .group ∧
      (MarkedGroup id ∨ discovery.response.kindAttr = none ∧ stream.kind query = .workload) := by
  rw [KeepsKind] at h
  cases hattr : discovery.response.kindAttr with
  | none =>
      simp only [hattr, not_or, not_and, not_not] at h
      obtain ⟨hstream, hmarked⟩ := h
      rw [kindOf_default hattr]
      cases stream with
      | groups => exact absurd rfl hstream
      | users =>
          rw [DirectoryStream.kind]
          cases hworkload : query.supportsKind .workload with
          | false => exact ⟨by decide, .inl (hmarked hworkload)⟩
          | true => exact ⟨by decide, .inr ⟨rfl, rfl⟩⟩
  | some kindAttr =>
      simp only [hattr, not_or, not_not] at h
      rw [Ne, kindOf_group_iff hattr]
      exact ⟨h.1, .inl h.2⟩

theorem not_resolves {payload : Json} {kind : PrincipalKind}
    (hobject : objectOf entry = some object)
    (hid : object.get discovery.response.idAttr = some (.string id))
    (hcanonical : isCanonical id = true) (hgroup : discovery.kindOf object kind ≠ .group)
    (h : MarkedGroup id ∨ discovery.response.kindAttr = none ∧ kind = .workload) :
    ¬discovery.Resolves (discovery.singleEntry payload entry id)
      (discovery.projected object id (discovery.kindOf object kind)) := by
  rintro ⟨resolved, hresolved, -, hkind, -⟩
  have hexternal : (discovery.projected object id (discovery.kindOf object kind)).reference =
      ⟨discovery.providerId, discovery.issuer, id⟩ := by
    rw [PrincipalProjection.reference, projected]
    simp only [if_neg hgroup]
  rw [hexternal] at hresolved
  by_cases hmarked : MarkedGroup id
  · obtain ⟨rest, hrest, hmark⟩ := hmarked
    have hother : rest ≠ id := by
      rintro rfl
      have hlength := congrArg List.length (congrArg String.toList hmark)
      rw [String.toList_append, List.length_append] at hlength
      exact absurd hlength (Nat.ne_of_lt (Nat.lt_add_of_pos_left (by decide)))
    have hmissing : discovery.singleEntry payload entry id (discovery.resolveRequest rest .group) =
        .ok ⟨404, none⟩ := by
      rw [singleEntry, if_neg (by simp [resolveRequest, hother]), if_pos (by simp [resolveRequest])]
    rw [resolvePrincipal_missing hcanonical (hmark ▸ requested_group hrest) hmissing rfl] at hresolved
    cases hresolved
  · obtain ⟨hattr, rfl⟩ := h.resolve_left hmarked
    obtain ⟨response, hresponse, hsuccess, hbody⟩ :=
      singleEntry_answers discovery payload entry id .user
    rw [resolvePrincipal_eq hobject hid hcanonical (requested_plain hmarked) hresponse hsuccess hbody,
      mapEntry_eq hobject hid, hcanonical, if_pos rfl, kindOf_default hattr] at hresolved
    obtain ⟨user, huser, hresolved⟩ := Result.bind_ok_iff.mp hresolved
    cases huser
    split at hresolved
    · cases hresolved
    · cases hresolved
      rw [projected, projected, kindOf_default hattr] at hkind
      cases hkind

end

end CustomPrincipalDiscovery

/-- Wherever a search shows an entry, the entry is resolved to the same principal exactly when
its kind is kept. -/
theorem shown_resolves_iff {discovery : CustomPrincipalDiscovery}
    {directory : CustomHttpRequest → Except String DirectoryResponse}
    {query : PrincipalSearchQuery} {stream : DirectoryStream} {entry : Json} {object : JsonMap}
    {id : String} {projection : PrincipalProjection} (hobject : objectOf entry = some object)
    (hid : object.get discovery.response.idAttr = some (.string id))
    (hshows : discovery.Shows directory query stream entry projection) :
    (∀ directory, discovery.Shows directory query stream entry projection →
      discovery.Answers directory id entry → discovery.Resolves directory projection) ↔
      discovery.KeepsKind query stream object id := by
  constructor
  · intro hresolves
    by_contra hkeeps
    obtain ⟨hgroup, hfails⟩ := CustomPrincipalDiscovery.not_keeps hkeeps
    obtain ⟨payload, hpayload⟩ :=
      CustomPrincipalDiscovery.selectArray_total discovery.response.arrayPath [entry]
    have hresolved := hresolves _
      (CustomPrincipalDiscovery.singleEntry_shows hobject hid hpayload hshows)
      (CustomPrincipalDiscovery.singleEntry_answers discovery payload entry id)
    obtain ⟨hcanonical, rfl⟩ := CustomPrincipalDiscovery.mapped_eq hobject hid hshows.mapped
    exact CustomPrincipalDiscovery.not_resolves hobject hid hcanonical hgroup hfails hresolved
  · intro hkeeps directory hshows hanswers
    exact CustomPrincipalDiscovery.keeps_resolves hobject hid hkeeps hshows hanswers

/-! A directory whose entries do not say their kind. -/

namespace People
open CustomPrincipalDiscovery

def discovery : CustomPrincipalDiscovery where
  providerId := "people"
  issuer := "https://people.example"
  request := ⟨"people", "q", "offset", "limit", "id", none⟩
  response := ⟨"", "id", "name", none, none⟩
  maxPageSize := 50
  maxPageSize_valid := pageSize_fifty

def ada : Json := .object [("id", .string "7"), ("name", .string "Ada")]

def directory : CustomHttpRequest → Except String DirectoryResponse :=
  discovery.singleEntry (.array [ada]) ada "7"

def search (kinds : Finset PrincipalKind) : PrincipalSearchQuery := ⟨"ada", kinds, .empty, 10, .empty⟩

def found (kind : PrincipalKind) : PrincipalProjection :=
  discovery.projected (.ofList [("id", .string "7"), ("name", .string "Ada")]) "7" kind

theorem shows_workload : discovery.Shows directory (search ∅) .users ada (found .workload) where
  searched := by decide
  listed := ⟨0, _, _, _, rfl, singleEntry_search _ _ _, rfl, rfl, List.mem_singleton_self ada⟩
  mapped := rfl
  returned := ⟨_, rfl, List.mem_cons_self⟩

theorem shows_user : discovery.Shows directory (search {.user}) .users ada (found .user) where
  searched := by decide
  listed := ⟨0, _, _, _, rfl, singleEntry_search _ _ _, rfl, rfl, List.mem_singleton_self ada⟩
  mapped := rfl
  returned := ⟨_, rfl, List.mem_cons_self⟩

/-- A search for users alone shows what is resolved. -/
theorem user_resolves : discovery.Resolves directory (found .user) := by
  refine (shown_resolves_iff rfl rfl shows_user).mpr (.inr ⟨by decide, ?_⟩) directory shows_user
    (singleEntry_answers discovery _ ada "7")
  rintro ⟨rest, -, hmark⟩
  have hfirst := congrArg List.head? (congrArg String.toList hmark)
  rw [String.toList_append] at hfirst
  cases hfirst

/-- A search for all kinds shows a workload, and a user is resolved. -/
theorem workload_becomes_user :
    discovery.Shows directory (search ∅) .users ada (found .workload) ∧
      discovery.Answers directory "7" ada ∧
      discovery.resolvePrincipal directory (found .workload).reference = .ok (some (found .user)) ∧
      ¬discovery.Resolves directory (found .workload) := by
  have hresolved : discovery.resolvePrincipal directory (found .workload).reference =
      .ok (some (found .user)) := rfl
  refine ⟨shows_workload, singleEntry_answers discovery _ ada "7", hresolved, ?_⟩
  rintro ⟨resolved, hother, -, hkind, -⟩
  rw [hresolved] at hother
  cases hother
  cases hkind

end People

end Authguard
