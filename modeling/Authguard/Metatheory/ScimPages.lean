import Authguard.Metatheory.PrincipalPages
import Authguard.Metatheory.ScimRoundTrip

/-!
Pages of the SCIM collection. The outer loop reads all principals by their
identifiers and keeps the resources of one kind; the windows of the answer are then
taken from the same list whatever index they start at, and cover it.
-/

namespace Authguard
open Program

/-! Reading one resource. -/

section
variable {handler : PrincipalHandler} {discovery : ScimPrincipalDiscovery} {db : IamDatabase}
  {row : String → Nat} {kind : PrincipalKind} {principal : PrincipalRow}

/-- The row that is selected exists, if any does. -/
def Chooses (db : IamDatabase) (provider : String) (row : String → Nat) : Prop :=
  ∀ id, db.identitiesOf id provider ≠ [] → row id < (db.identitiesOf id provider).length

theorem find_of_mem (h : principal ∈ db.principals.rows) :
    db.principals.find principal.id = some principal :=
  Table.find_eq_some.mpr ⟨h, rfl⟩

theorem evaluate_get (id : String) (row : Nat) :
    (PrincipalHandler.get id).evaluate PrincipalCall.exec (.answered row) db =
      some (.ok (db.principals.find id), db) := rfl

theorem evaluate_getIdentity (id provider : String) (row : Nat) :
    (PrincipalHandler.getIdentity id provider).evaluate PrincipalCall.exec (.answered row) db =
      (db.pickIdentity id provider row).map fun found => (.ok found, db) := by
  simp only [PrincipalHandler.getIdentity, evaluate, PrincipalCall.exec]
  cases db.pickIdentity id provider row with
  | none | some found => rfl

/-- What is served of a principal and the identity that is selected. -/
def servedAs (principal : PrincipalRow) :
    Option IamPrincipalIdentityInfo → Except PrincipalHandlerError ScimResource
  | none => .error (.notFound principal.id)
  | some identity =>
      (ScimPrincipalDiscovery.restoreResource principal identity.claims).mapError fun error =>
        .discovery error.toString

/-- What `get_scim` answers on a principal that is there. -/
theorem readScim_eq (hscim : handler.scim = some discovery)
    (hprincipal : principal ∈ db.principals.rows) :
    handler.readScim db row kind principal.id =
      if principal.scimDeleted ∨ principal.kind ≠ kind then
        some (.error (.notFound principal.id))
      else
        (db.pickIdentity principal.id discovery.discoveryId (row principal.id)).map
          (servedAs principal) := by
  have hfind := find_of_mem hprincipal
  rw [PrincipalHandler.readScim, PrincipalHandler.getScim, PrincipalHandler.scimDiscovery, hscim,
    ok_bind, evaluate_bind, evaluate_get, hfind, Option.bind_some, continueWith]
  simp only
  split
  · rfl
  · rw [evaluate_bind, evaluate_getIdentity]
    cases db.pickIdentity principal.id discovery.discoveryId (row principal.id) with
    | none => rfl
    | some found =>
        cases found with
        | none => rfl
        | some identity =>
            simp only [Option.map_some, Option.bind_some, continueWith, servedAs]
            cases ScimPrincipalDiscovery.restoreResource principal identity.claims with
            | ok resource | error error => rfl

/-- The resource that is listed for a principal, if there is one. -/
def listed (db : IamDatabase) (discovery : ScimPrincipalDiscovery) (row : String → Nat)
    (kind : PrincipalKind) (principal : PrincipalRow) : Option ScimResource :=
  if principal.scimDeleted ∨ principal.kind ≠ kind then
    none
  else
    ((db.pickIdentity principal.id discovery.discoveryId (row principal.id)).bind id).bind
      fun identity =>
        (ScimPrincipalDiscovery.restoreResource principal identity.claims).toOption

/-- All claims of identities of the provider are resources of the kind of their principal. -/
def ClaimsParse (db : IamDatabase) (discovery : ScimPrincipalDiscovery) : Prop :=
  ∀ principal ∈ db.principals.rows,
    ∀ identity ∈ db.identitiesOf principal.id discovery.discoveryId,
      ∃ resource, ScimPrincipalDiscovery.restoreResource principal identity.claims = .ok resource

/-- All claims a listing of the kind reads are resources. -/
def KindParses (db : IamDatabase) (discovery : ScimPrincipalDiscovery) (kind : PrincipalKind) :
    Prop :=
  ∀ principal ∈ db.principals.rows, principal.scimDeleted = false → principal.kind = kind →
    ∀ identity ∈ db.identitiesOf principal.id discovery.discoveryId,
      ∃ resource, ScimPrincipalDiscovery.restoreResource principal identity.claims = .ok resource

theorem ClaimsParse.ofKind (h : ClaimsParse db discovery) (kind : PrincipalKind) :
    KindParses db discovery kind :=
  fun principal hprincipal _ _ => h principal hprincipal

theorem pickIdentity_cases {provider : String} (id : String)
    (hrow : Chooses db provider row) :
    (db.identitiesOf id provider = [] ∧ db.pickIdentity id provider (row id) = some none) ∨
      ∃ identity ∈ db.identitiesOf id provider,
        db.pickIdentity id provider (row id) = some (some identity) := by
  have hchoice := hrow id
  rw [IamDatabase.pickIdentity]
  cases hrows : db.identitiesOf id provider with
  | nil => exact .inl ⟨rfl, rfl⟩
  | cons first rest =>
      rw [hrows] at hchoice
      have hlt := hchoice (List.cons_ne_nil first rest)
      refine .inr ⟨(first :: rest)[row id], List.getElem_mem hlt, ?_⟩
      simp only
      rw [List.getElem?_eq_getElem hlt, Option.map_some]

/-- A principal of the kind that is bound is served, as itself. -/
theorem readScim_bound (hscim : handler.scim = some discovery)
    (hrow : Chooses db discovery.discoveryId row) (hparse : KindParses db discovery kind)
    (hprincipal : principal ∈ db.principals.rows) (hkind : principal.kind = kind)
    (hlive : principal.scimDeleted = false)
    (hbound : db.identitiesOf principal.id discovery.discoveryId ≠ []) :
    ∃ resource, handler.readScim db row kind principal.id = some (.ok resource) ∧
      resource.id = some principal.id := by
  obtain ⟨hnone, -⟩ | ⟨identity, hidentity, hpick⟩ := pickIdentity_cases principal.id hrow
  · exact absurd hnone hbound
  · obtain ⟨resource, hresource⟩ := hparse principal hprincipal hlive hkind identity hidentity
    refine ⟨resource, ?_, (restoreResource_eq_ok hresource).2.1⟩
    rw [readScim_eq hscim hprincipal, if_neg (by simp [hlive, hkind]), hpick, Option.map_some,
      servedAs, hresource]
    rfl

/-- A principal is listed, or not found. -/
theorem readScim_cases (hscim : handler.scim = some discovery)
    (hrow : Chooses db discovery.discoveryId row) (hparse : KindParses db discovery kind)
    (hprincipal : principal ∈ db.principals.rows) :
    (∃ resource, listed db discovery row kind principal = some resource ∧
        handler.readScim db row kind principal.id = some (.ok resource)) ∨
      (listed db discovery row kind principal = none ∧
        handler.readScim db row kind principal.id = some (.error (.notFound principal.id))) := by
  rw [readScim_eq hscim hprincipal, listed]
  split
  · exact .inr ⟨rfl, rfl⟩
  · rename_i hkept
    rw [not_or, Bool.not_eq_true, not_not] at hkept
    obtain ⟨-, hpick⟩ | ⟨identity, hidentity, hpick⟩ :=
      pickIdentity_cases principal.id hrow
    · rw [hpick]
      exact .inr ⟨rfl, rfl⟩
    · obtain ⟨resource, hresource⟩ := hparse principal hprincipal hkept.1 hkept.2 identity hidentity
      refine .inl ⟨resource, ?_, ?_⟩
      · rw [hpick, Option.bind_some, id, Option.bind_some, hresource]
        rfl
      · rw [hpick, Option.map_some, servedAs, hresource]
        rfl

theorem readPage_eq (hscim : handler.scim = some discovery)
    (hrow : Chooses db discovery.discoveryId row) (hparse : KindParses db discovery kind)
    {page : List PrincipalRow} (hpage : ∀ principal ∈ page, principal ∈ db.principals.rows) :
    handler.readPage db row kind page =
      some (.ok (page.filterMap (listed db discovery row kind))) := by
  induction page with
  | nil => rfl
  | cons principal page ih =>
      obtain ⟨hprincipal, hrest⟩ := List.forall_mem_cons.mp hpage
      have hpage := ih hrest
      rw [PrincipalHandler.readPage]
      split
      · obtain ⟨resource, hlisted, hread⟩ | ⟨hlisted, hread⟩ :=
          readScim_cases hscim hrow hparse hprincipal
        · simp only [hread, hpage, List.filterMap_cons, hlisted]
          rfl
        · simp only [hread, hpage, List.filterMap_cons, hlisted]
      · rename_i hkind
        have hlisted : listed db discovery row kind principal = none := if_pos (.inr hkind)
        rw [hpage, List.filterMap_cons, hlisted]

end

/-! The collection. -/

section
variable {κ : Type} [LinearOrder κ] {rank : String → κ} {handler : PrincipalHandler}
  {discovery : ScimPrincipalDiscovery} {db : IamDatabase} {row : String → Nat}
  {kind : PrincipalKind}

/-- The resources of a kind, in the order of their identifiers. -/
def IamDatabase.collection (rank : String → κ) (db : IamDatabase)
    (discovery : ScimPrincipalDiscovery) (row : String → Nat) (kind : PrincipalKind) :
    List ScimResource :=
  (db.found rank "").filterMap (listed db discovery row kind)

theorem collectScim_eq (hrank : Collates rank) (hscim : handler.scim = some discovery)
    (hrow : Chooses db discovery.discoveryId row) (hparse : KindParses db discovery kind)
    (fuel : Nat) (cursor : Option String) (resources : List ScimResource) :
    handler.collectScim rank db row kind fuel cursor resources =
      ((db.keyset hrank "" 100).follow fuel (rank (cursor.getD ""))).map fun pages =>
        .ok (resources ++ pages.flatten.filterMap (listed db discovery row kind)) := by
  induction fuel generalizing cursor resources with
  | zero => rfl
  | succ fuel ih =>
      have hlimit : (db.keyset hrank "" 100).limit = 100 := rfl
      have hkey : ∀ last : PrincipalRow, (db.keyset hrank "" 100).key last = rank last.id :=
        fun _ => rfl
      have hpage : handler.readPage db row kind
          ((db.keyset hrank "" 100).page (rank (cursor.getD ""))) =
            some (.ok (((db.keyset hrank "" 100).page (rank (cursor.getD ""))).filterMap
              (listed db discovery row kind))) := by
        refine readPage_eq hscim hrow hparse fun principal hprincipal => ?_
        have hbehind := (List.take_sublist _ _).subset hprincipal
        exact (mem_found.mp (List.mem_filter.mp hbehind).1).1
      have hshort : ((db.keyset hrank "" 100).page (rank (cursor.getD ""))).length ≤ 100 :=
        List.length_take_le _ _
      rw [PrincipalHandler.collectScim, Keyset.follow, list_eq_page hrank]
      cases hlast : ((db.keyset hrank "" 100).page (rank (cursor.getD ""))).getLast? with
      | none =>
          rw [List.getLast?_eq_none_iff] at hlast
          simp [hlast]
      | some last =>
          simp only [hpage, hlimit, hkey]
          by_cases hfull : ((db.keyset hrank "" 100).page (rank (cursor.getD ""))).length = 100
          · have hnext := ih (some last.id) (resources ++
              ((db.keyset hrank "" 100).page (rank (cursor.getD ""))).filterMap
                (listed db discovery row kind))
            rw [Option.getD_some] at hnext
            rw [if_neg (by omega), if_pos hfull, hnext, Option.map_map]
            congr 1
            funext pages
            simp
          · rw [if_pos (by omega), if_neg hfull]
            simp

/-- The outer loop ends with the whole collection. -/
theorem collectScim_collection (hrank : Collates rank) (hscim : handler.scim = some discovery)
    (hrow : Chooses db discovery.discoveryId row) (hparse : KindParses db discovery kind) {fuel : Nat}
    (hfuel : (db.found rank "").length < fuel) :
    handler.collectScim rank db row kind fuel none [] =
      some (.ok (db.collection rank discovery row kind)) := by
  obtain ⟨pages, hpages, hflatten⟩ := (db.keyset hrank "" 100).follow_behind (rank "")
  rw [behind_start] at hpages hflatten
  rw [collectScim_eq hrank hscim hrow hparse, Option.getD_none, hpages fuel hfuel,
    Option.map_some, hflatten, List.nil_append]
  rfl

theorem listed_eq_some {principal : PrincipalRow} {resource : ScimResource} :
    listed db discovery row kind principal = some resource ↔
      principal.scimDeleted = false ∧ principal.kind = kind ∧
        ∃ identity, db.pickIdentity principal.id discovery.discoveryId (row principal.id) =
            some (some identity) ∧
          ScimPrincipalDiscovery.restoreResource principal identity.claims = .ok resource := by
  rw [listed]
  split
  · rename_i hskipped
    refine iff_of_false (fun h => nomatch h) ?_
    rintro ⟨hlive, hkind, -⟩
    obtain hdeleted | hother := hskipped
    · rw [hlive] at hdeleted
      cases hdeleted
    · exact hother hkind
  · rename_i hkept
    rw [not_or, Bool.not_eq_true, not_not] at hkept
    rw [and_iff_right hkept.1, and_iff_right hkept.2, Option.bind_eq_some_iff]
    constructor
    · rintro ⟨identity, hpick, hrestored⟩
      obtain ⟨found, hfound, rfl⟩ := Option.bind_eq_some_iff.mp hpick
      refine ⟨identity, hfound, ?_⟩
      cases hresource : ScimPrincipalDiscovery.restoreResource principal identity.claims with
      | error error =>
          rw [hresource] at hrestored
          cases hrestored
      | ok restored =>
          rw [hresource] at hrestored
          cases hrestored
          rfl
    · rintro ⟨identity, hpick, hrestored⟩
      refine ⟨identity, by rw [hpick]; rfl, by rw [hrestored]; rfl⟩

end

/-! Walking through the pages. -/

/-- The pages from an index on, each beginning where the one before it ends, until the total is
passed. -/
def walk (page : Nat → ScimListResponse) : Nat → Nat → Option (List ScimListResponse)
  | 0, _ => none
  | steps + 1, start =>
      let next := start + (page start).itemsPerPage
      if (page start).totalResults < next then some [page start]
      else (walk page steps next).map (page start :: ·)

/-- The answers show windows of one list. -/
structure Windows (items : List ScimResource) (count : Nat) (page : Nat → ScimListResponse) :
    Prop where
  total : ∀ start, (page start).totalResults = items.length
  shown : ∀ start, (page start).itemsPerPage = (page start).resources.length
  resources : ∀ start,
    (page start).resources = (items.drop (max start 1 - 1)).take count

theorem Windows.walk_covers {items : List ScimResource} {count : Nat}
    {page : Nat → ScimListResponse} (h : Windows items count page) (hcount : 0 < count)
    {fuel start : Nat} (hstart : 0 < start) (hfuel : (items.drop (start - 1)).length < fuel) :
    ∃ pages, (∀ steps ≥ fuel, walk page steps start = some pages) ∧
      pages.flatMap ScimListResponse.resources = items.drop (start - 1) := by
  induction fuel generalizing start with
  | zero => exact absurd hfuel (Nat.not_lt_zero _)
  | succ fuel ih =>
      have hresources : (page start).resources = (items.drop (start - 1)).take count := by
        rw [h.resources, Nat.max_eq_left hstart]
      have hlength : (page start).itemsPerPage = min count (items.length - (start - 1)) := by
        rw [h.shown, hresources, List.length_take, List.length_drop]
      rw [List.length_drop] at hfuel
      by_cases hpassed : (page start).totalResults < start + (page start).itemsPerPage
      · refine ⟨[page start], fun steps hsteps => ?_, ?_⟩
        · obtain ⟨steps, rfl⟩ := Nat.exists_eq_succ_of_ne_zero (Nat.ne_zero_of_lt hsteps)
          simp only [walk, if_pos hpassed]
        · rw [List.flatMap_singleton, hresources, List.take_of_length_le]
          rw [h.total, hlength] at hpassed
          rw [List.length_drop]
          omega
      · have hfull : (page start).itemsPerPage = count := by
          rw [h.total, hlength] at hpassed
          omega
        have hnext : start + count - 1 = start - 1 + count := by omega
        have hfew : (items.drop (start + count - 1)).length < fuel := by
          rw [h.total, hfull] at hpassed
          rw [List.length_drop]
          omega
        obtain ⟨pages, hpages, hflatten⟩ := ih (by omega) hfew
        refine ⟨page start :: pages, fun steps hsteps => ?_, ?_⟩
        · obtain ⟨steps, rfl⟩ := Nat.exists_eq_succ_of_ne_zero (Nat.ne_zero_of_lt hsteps)
          simp only [walk, if_neg hpassed]
          rw [hfull, hpages steps (by omega), Option.map_some]
        · rw [List.flatMap_cons, hflatten, hresources, hnext, ← List.drop_drop,
            List.take_append_drop]

/-! The answers. -/

/-- The filter is one the parser takes, and the resource has the value it asks for. -/
def Satisfies (filter : Option String) (resource : ScimResource) : Prop :=
  ∀ text, filter = some text → ∃ name value, parseFilter text = .ok (name, value) ∧
    resource.attributeIs name value = true

def FilterAccepted (filter : Option String) : Prop :=
  ∀ text, filter = some text → ∃ read, parseFilter text = .ok read

theorem retainFiltered_ok {filter : Option String} (h : FilterAccepted filter)
    (resources : List ScimResource) :
    ∃ kept, retainFiltered resources filter = .ok kept ∧ kept.Sublist resources ∧
      ∀ resource, resource ∈ kept ↔ resource ∈ resources ∧ Satisfies filter resource := by
  cases filter with
  | none => exact ⟨resources, rfl, .refl _, fun resource => by simp [Satisfies]⟩
  | some text =>
      obtain ⟨⟨name, value⟩, hread⟩ := h text rfl
      refine ⟨resources.filter (ScimResource.attributeIs name value), ?_, List.filter_sublist, ?_⟩
      · rw [retainFiltered, hread]
        rfl
      · intro resource
        rw [List.mem_filter]
        refine and_congr_right fun _ => ?_
        constructor
        · rintro hvalue other ⟨⟩
          exact ⟨name, value, hread, hvalue⟩
        · intro hsatisfies
          obtain ⟨name', value', hread', hvalue⟩ := hsatisfies text rfl
          rw [hread] at hread'
          cases hread'
          exact hvalue

section
variable {κ : Type} [LinearOrder κ] {rank : String → κ} {handler : PrincipalHandler}
  {discovery : ScimPrincipalDiscovery} {db : IamDatabase} {row : String → Nat}
  {kind : PrincipalKind}

theorem collection_increasing (hrank : Collates rank) :
    (db.collection rank discovery row kind).Pairwise fun resource other =>
      ∃ id otherId, resource.id = some id ∧ other.id = some otherId ∧ rank id < rank otherId := by
  rw [IamDatabase.collection, List.pairwise_filterMap]
  refine (db.keyset hrank "" 100).increasing.imp ?_
  intro principal other hlt resource hresource otherResource hother
  obtain ⟨-, -, identity, -, hrestored⟩ := listed_eq_some.mp hresource
  obtain ⟨-, -, otherIdentity, -, hotherRestored⟩ := listed_eq_some.mp hother
  exact ⟨principal.id, other.id, (restoreResource_eq_ok hrestored).2.1,
    (restoreResource_eq_ok hotherRestored).2.1, hlt⟩

/-- The collection holds what is served of the principals that are bound. -/
theorem mem_collection (hscim : handler.scim = some discovery)
    (hrow : Chooses db discovery.discoveryId row) (hparse : KindParses db discovery kind)
    {resource : ScimResource} :
    resource ∈ db.collection rank discovery row kind ↔
      ∃ principal ∈ db.principals.rows, principal.kind = kind ∧ principal.scimDeleted = false ∧
        db.identitiesOf principal.id discovery.discoveryId ≠ [] ∧
        handler.readScim db row kind principal.id = some (.ok resource) := by
  rw [IamDatabase.collection, List.mem_filterMap]
  constructor
  · rintro ⟨principal, hfound, hlisted⟩
    have hprincipal := (mem_found.mp hfound).1
    obtain ⟨hlive, hkind, identity, hpick, -⟩ := listed_eq_some.mp hlisted
    refine ⟨principal, hprincipal, hkind, hlive, fun hnone => ?_, ?_⟩
    · rw [IamDatabase.pickIdentity, hnone] at hpick
      cases hpick
    · obtain ⟨other, hother, hread⟩ | ⟨hother, -⟩ :=
        readScim_cases hscim hrow hparse hprincipal
      · rw [hlisted] at hother
        cases hother
        exact hread
      · rw [hlisted] at hother
        cases hother
  · rintro ⟨principal, hprincipal, -, -, -, hread⟩
    refine ⟨principal, mem_found.mpr ⟨hprincipal, .inl List.nil_prefix⟩, ?_⟩
    obtain ⟨other, hlisted, hother⟩ | ⟨-, hother⟩ :=
      readScim_cases hscim hrow hparse hprincipal
    · rw [hread] at hother
      cases hother
      exact hlisted
    · rw [hread] at hother
      cases hother

/-- Whatever index it starts at, a listing shows a window of the resources that satisfy the
filter; the windows from the first on cover them, each principal once and in the order of the
identifiers, and no principal that is bound lacks a resource. -/
theorem scim_pages_cover (hrank : Collates rank) (hscim : handler.scim = some discovery)
    (hrow : Chooses db discovery.discoveryId row) (hparse : ClaimsParse db discovery)
    {filter : Option String} (hfilter : FilterAccepted filter) {count : Nat} (hcount : 0 < count) :
    ∃ (page : Nat → ScimListResponse) (items : List ScimResource),
      (∃ enough, ∀ fuel ≥ enough, ∀ start,
        handler.listScim rank db row kind fuel ⟨start, count, filter⟩ = some (.ok (page start))) ∧
      (∀ start, (page start).totalResults = items.length) ∧
      (∃ pages, (∃ enough, ∀ steps ≥ enough, walk page steps 1 = some pages) ∧
        pages.flatMap ScimListResponse.resources = items) ∧
      (items.Pairwise fun resource other =>
        ∃ id otherId, resource.id = some id ∧ other.id = some otherId ∧ rank id < rank otherId) ∧
      (∀ principal ∈ db.principals.rows, principal.kind = kind → principal.scimDeleted = false →
        db.identitiesOf principal.id discovery.discoveryId ≠ [] →
        ∃ resource, handler.readScim db row kind principal.id = some (.ok resource) ∧
          resource.id = some principal.id) ∧
      ∀ resource, resource ∈ items ↔
        (∃ principal ∈ db.principals.rows, principal.kind = kind ∧ principal.scimDeleted = false ∧
          db.identitiesOf principal.id discovery.discoveryId ≠ [] ∧
          handler.readScim db row kind principal.id = some (.ok resource)) ∧
        Satisfies filter resource := by
  obtain ⟨items, hkept, hsublist, hmem⟩ :=
    retainFiltered_ok hfilter (db.collection rank discovery row kind)
  let page : Nat → ScimListResponse := fun start =>
    { schemas := [listSchema]
      totalResults := items.length
      startIndex := max start 1
      itemsPerPage := ((items.drop (max start 1 - 1)).take (min count 100)).length
      resources := (items.drop (max start 1 - 1)).take (min count 100) }
  have hwindows : Windows items (min count 100) page := ⟨fun _ => rfl, fun _ => rfl, fun _ => rfl⟩
  have hpositive : 0 < min count 100 := lt_min hcount (by decide)
  obtain ⟨pages, hpages, hcover⟩ :=
    hwindows.walk_covers hpositive Nat.zero_lt_one (Nat.lt_succ_self (items.drop (1 - 1)).length)
  refine ⟨page, items, ⟨(db.found rank "").length + 1, fun fuel hfuel start => ?_⟩, fun _ => rfl,
    ⟨pages, ⟨_, hpages⟩, hcover⟩, (collection_increasing hrank).sublist hsublist,
    fun principal => readScim_bound hscim hrow (hparse.ofKind kind), fun resource => ?_⟩
  · have hcollected := collectScim_collection hrank hscim hrow (hparse.ofKind kind) hfuel
    simp only [PrincipalHandler.listScim, hscim, hcollected, Option.map_some]
    rw [Except.bind, ScimPrincipalDiscovery.listPage, hkept]
    rfl
  · rw [hmem, mem_collection hscim hrow (hparse.ofKind kind)]

end

/-! A collection of two users and a group. -/

namespace Staff

def handler : PrincipalHandler := ⟨.sqlite, some ⟨"hr", "hr.example"⟩⟩

def account (number userName : String) : ScimUserResource where
  schemas := [userSchema]
  id := none
  externalId := some number
  userName := userName
  displayName := none
  active := none
  emails := []
  metadata := none
  attributes := .empty

def ops : ScimGroupResource where
  schemas := [groupSchema]
  id := none
  externalId := some "ops"
  displayName := "operations"
  members := []
  metadata := none
  attributes := .empty

def database : IamDatabase where
  principals :=
    ⟨[Roster.person "P_2" "bob", { Roster.person "G_1" "operations" with kind := .group },
      Roster.person "P_1" "ada"], by decide⟩
  identities :=
    ⟨[{ principalId := "P_1", provider := "hr", issuer := "hr.example", subject := "1",
        claims := .object (account "1" "ada").toObject.entries },
      { principalId := "P_2", provider := "hr", issuer := "hr.example", subject := "2",
        claims := .object (account "2" "bob").toObject.entries },
      { principalId := "G_1", provider := "hr", issuer := "hr.example", subject := "group:ops",
        claims := .object ops.toObject.entries }], by decide⟩
  principals_checked := by decide
  identities_checked := by decide
  identities_principal := by decide

theorem chooses : Chooses database "hr" fun _ => 0 :=
  fun _ h => List.length_pos_iff.mpr h

theorem claims_parse : ClaimsParse database ⟨"hr", "hr.example"⟩ := by
  intro principal hprincipal identity hidentity
  simp only [database, List.mem_cons, List.not_mem_nil, or_false] at hprincipal
  obtain rfl | rfl | rfl := hprincipal
  · obtain rfl := List.mem_singleton.mp (show identity ∈ [database.identities.rows[1]] from hidentity)
    exact ⟨_, rfl⟩
  · obtain rfl := List.mem_singleton.mp (show identity ∈ [database.identities.rows[2]] from hidentity)
    exact ⟨_, rfl⟩
  · obtain rfl := List.mem_singleton.mp (show identity ∈ [database.identities.rows[0]] from hidentity)
    exact ⟨_, rfl⟩

theorem bob_accepted : FilterAccepted (some "userName eq \"bob\"") := by
  rintro text ⟨⟩
  exact ⟨("userName", "bob"), by decide +kernel⟩

theorem users_covered :
    ∃ (page : Nat → ScimListResponse) (items : List ScimResource),
      (∃ enough, ∀ fuel ≥ enough, ∀ start,
        handler.listScim String.toList database (fun _ => 0) .user fuel
          ⟨start, 1, some "userName eq \"bob\""⟩ = some (.ok (page start))) ∧
      (∃ pages, (∃ enough, ∀ steps ≥ enough, walk page steps 1 = some pages) ∧
        pages.flatMap ScimListResponse.resources = items) ∧
      ∃ resource ∈ items, resource.id = some "P_2" := by
  obtain ⟨page, items, hpage, -, hpages, -, -, hmem⟩ :=
    @scim_pages_cover _ _ _ handler _ _ _ .user Roster.collates rfl chooses claims_parse _
      bob_accepted _ Nat.zero_lt_one
  refine ⟨page, items, hpage, hpages,
    .user { account "2" "bob" with
      id := some "P_2", active := some true
      metadata := some (scimMeta "User" "/scim/v2/Users/P_2") },
    (hmem _).mpr ⟨⟨Roster.person "P_2" "bob", by simp [database], rfl, rfl, by decide, rfl⟩, ?_⟩, rfl⟩
  rintro text ⟨⟩
  exact ⟨"userName", "bob", by decide +kernel, by decide +kernel⟩

end Staff

end Authguard
