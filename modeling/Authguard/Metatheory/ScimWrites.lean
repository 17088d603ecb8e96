import Authguard.Metatheory.ScimRoundTrip

/-!
SCIM requests one after another. A write stores the principal as one row and the
resource as the claims of the identity it is bound to; a read puts the two together
again. A principal whose bindings at the provider all have the subject of the write
is read back as it was written.
-/

namespace Authguard
open Program

/-- A request that has the database to itself. -/
abbrev ScimExecutes {β : Type} (program : ScimProgram β) (db : IamDatabase)
    (result : Except PrincipalHandlerError β) (after : IamDatabase) : Prop :=
  Executes PrincipalCall.exec program db result after

/-! Calls. -/

section
variable {β : Type} {db last : IamDatabase}

theorem executes_stored {answer : Except String β} {value : β} :
    ScimExecutes (PrincipalHandler.stored answer) db (.ok value) last ↔
      answer = .ok value ∧ last = db := by
  cases answer with
  | error message =>
      constructor
      · rintro ⟨⟩
      · rintro ⟨⟨⟩, -⟩
  | ok found =>
      refine executes_ok.trans ?_
      simp [eq_comm]

theorem executes_discover {found : Except PrincipalDiscoveryError β} {value : β} :
    ScimExecutes (ScimProgram.discover found) db (.ok value) last ↔
      found = .ok value ∧ last = db := by
  cases found with
  | error error =>
      constructor
      · rintro ⟨⟩
      · rintro ⟨⟨⟩, -⟩
  | ok found =>
      refine executes_ok.trans ?_
      simp [eq_comm]

theorem executes_get {id : String} {found : Option PrincipalRow} :
    ScimExecutes (PrincipalHandler.get id) db (.ok found) last ↔
      found = db.principals.find id ∧ last = db := by
  constructor
  · intro h
    cases h with
    | call choice hanswered hrest =>
        obtain ⟨hanswer, rfl⟩ := executes_stored.mp hrest
        obtain ⟨rfl, hread⟩ := readCall_cases (Option.some.inj hanswered)
        rw [hanswer] at hread
        obtain hread | ⟨error, hread⟩ := hread
        · exact ⟨Except.ok.inj hread, rfl⟩
        · cases hread
  · rintro ⟨rfl, rfl⟩
    exact .call (.answered 0) rfl (.ok _ _)

theorem executes_findByIdentity {key : ExternalIdentityKey} {found : Option PrincipalRow}
    (h : ScimExecutes (PrincipalHandler.findByIdentity key) db (.ok found) last) :
    last = db := by
  cases h with
  | call choice hanswered hrest =>
      obtain ⟨-, rfl⟩ := executes_stored.mp hrest
      exact (readCall_cases (Option.some.inj hanswered)).1

theorem executes_answered {principalId provider : String} {index : Nat}
    {found : Option IamPrincipalIdentityInfo}
    (h : db.pickIdentity principalId provider index = some found) :
    ScimExecutes (PrincipalHandler.getIdentity principalId provider) db (.ok found) db := by
  have hexec : (PrincipalCall.getIdentity principalId provider).exec (.answered index) db =
      some (.ok found, db) := by
    simp only [PrincipalCall.exec, h]
    rfl
  exact .call (.answered index) hexec (.ok found db)

theorem executes_getIdentity {principalId provider : String}
    {found : Option IamPrincipalIdentityInfo} :
    ScimExecutes (PrincipalHandler.getIdentity principalId provider) db (.ok found) last ↔
      last = db ∧ ((found = none ∧ db.identitiesOf principalId provider = []) ∨
        ∃ row ∈ db.identitiesOf principalId provider, found = some row) := by
  constructor
  · intro h
    cases h with
    | call choice hanswered hrest =>
        obtain ⟨rfl, rfl⟩ := executes_stored.mp hrest
        cases choice with
        | answered row =>
            obtain ⟨picked, hpicked, hfound⟩ := Option.map_eq_some_iff.mp hanswered
            cases hfound
            refine ⟨rfl, ?_⟩
            rw [IamDatabase.pickIdentity] at hpicked
            split at hpicked
            · rename_i hrows
              cases hpicked
              exact .inl ⟨rfl, hrows⟩
            · obtain ⟨identity, hidentity, hsome⟩ := Option.map_eq_some_iff.mp hpicked
              exact .inr ⟨identity, List.mem_of_getElem? hidentity, hsome.symm⟩
        | failed message | lost message => cases hanswered
  · rintro ⟨rfl, ⟨rfl, hrows⟩ | ⟨row, hrow, rfl⟩⟩
    · have hpicked : last.pickIdentity principalId provider 0 = some none := by
        rw [IamDatabase.pickIdentity, hrows]
      exact executes_answered hpicked
    · obtain ⟨index, hindex⟩ := List.mem_iff_getElem?.mp hrow
      have hpicked : last.pickIdentity principalId provider index = some (some row) := by
        rw [IamDatabase.pickIdentity]
        split
        · rename_i hrows
          rw [hrows] at hindex
          cases hindex
        · rw [hindex]
          rfl
      exact executes_answered hpicked

end

/-! Projections. -/

/-- The projection is the one the resource is stored as. -/
structure Projects (discovery : ScimPrincipalDiscovery) (resource : ScimResource)
    (projection : PrincipalProjection) : Prop where
  provider : projection.providerId = discovery.discoveryId
  issuer : projection.issuer = discovery.issuer
  subject : resource.subject = some projection.externalId
  kind : projection.kind = resource.kind
  enabled : projection.enabled = resource.enabled
  attributes : projection.attributes = resource.submitted.toObject

theorem principalIdOrNew_eq_ok {random : List UInt8} {value id : String}
    (h : principalIdOrNew random value = .ok id) : value ≠ "" → id = value := by
  intro hvalue
  rw [principalIdOrNew, if_pos hvalue] at h
  obtain ⟨-, -, hid⟩ := Result.bind_ok_iff.mp h
  exact (Except.ok.inj hid).symm

theorem discover_intoUpsert {discovery : ScimPrincipalDiscovery} {random : List UInt8}
    {principalId : String} {resource : ScimResource} {event : ScimProjectionEvent}
    (h : discovery.discover random (resource.intoUpsert principalId) = .ok event) :
    ∃ id projection, event = .upsert id projection ∧ (principalId ≠ "" → id = principalId) ∧
      Projects discovery resource projection := by
  cases resource with
  | user resource =>
      simp only [ScimResource.intoUpsert, ScimPrincipalDiscovery.discover] at h
      obtain ⟨id, hid, h⟩ := Result.bind_ok_iff.mp h
      obtain ⟨-, -, h⟩ := Result.bind_ok_iff.mp h
      obtain ⟨-, -, h⟩ := Result.bind_ok_iff.mp h
      split at h
      · cases h
      · rename_i externalId hexternalId
        obtain ⟨-, -, h⟩ := Result.bind_ok_iff.mp h
        cases h
        exact ⟨id, _, rfl, principalIdOrNew_eq_ok hid, ⟨rfl, rfl, hexternalId, rfl, rfl, rfl⟩⟩
  | group resource =>
      simp only [ScimResource.intoUpsert, ScimPrincipalDiscovery.discover] at h
      obtain ⟨id, hid, h⟩ := Result.bind_ok_iff.mp h
      obtain ⟨-, -, h⟩ := Result.bind_ok_iff.mp h
      obtain ⟨-, -, h⟩ := Result.bind_ok_iff.mp h
      split at h
      · cases h
      · rename_i externalId hexternalId
        obtain ⟨-, -, h⟩ := Result.bind_ok_iff.mp h
        cases h
        refine ⟨id, _, rfl, principalIdOrNew_eq_ok hid, ⟨rfl, rfl, ?_, rfl, rfl, rfl⟩⟩
        rw [ScimResource.subject, hexternalId]
        rfl

/-- The row a projection is stored as. -/
def PrincipalProjection.row (projection : PrincipalProjection) (id : String) : PrincipalRow where
  id
  kind := projection.kind
  displayName := projection.displayName
  status := if projection.enabled then .active else .disabled
  authorizationState := .empty

/-- The binding a projection is stored with. -/
def PrincipalProjection.identity (projection : PrincipalProjection) (id : String) :
    IamPrincipalIdentityInfo where
  principalId := id
  provider := projection.providerId
  issuer := projection.issuer
  subject := projection.externalId
  claims := .object projection.attributes.entries

/-! Requests. -/

section
variable {handler : PrincipalHandler} {db last : IamDatabase}

theorem executes_scimDiscovery {discovery : ScimPrincipalDiscovery} :
    ScimExecutes handler.scimDiscovery db (.ok discovery) last ↔
      handler.scim = some discovery ∧ last = db := by
  rw [PrincipalHandler.scimDiscovery]
  cases handler.scim with
  | none =>
      constructor
      · rintro ⟨⟩
      · rintro ⟨⟨⟩, -⟩
  | some found =>
      refine executes_ok.trans ?_
      simp [eq_comm]

theorem executes_readBack {principal found : PrincipalRow}
    (h : ScimExecutes (handler.readBack principal) db (.ok found) last) :
    found.id = principal.id ∧ last = db := by
  rw [PrincipalHandler.readBack] at h
  split at h
  · cases h
    exact ⟨rfl, rfl⟩
  · obtain ⟨stored, middle, hget, hfound⟩ := executes_bind.mp h
    obtain ⟨rfl, rfl⟩ := executes_get.mp hget
    split at hfound
    · cases hfound
    · rename_i row hrow
      cases hfound
      exact ⟨(Table.find_eq_some.mp hrow).2, rfl⟩

theorem executes_validatePrincipal {principal : PrincipalRow} {valid : Unit}
    (h : ScimExecutes (PrincipalHandler.validatePrincipal principal) db (.ok valid) last) :
    last = db := by
  rw [PrincipalHandler.validatePrincipal] at h
  split at h
  · cases h
  · cases h
    rfl

theorem executes_upsertExternal {id : String} {projection : PrincipalProjection}
    {found : PrincipalRow}
    (h : ScimExecutes (handler.upsertExternal id projection) db (.ok found) last) :
    found.id = id ∧
      db.upsertWithIdentity (projection.row id) (projection.identity id) = .ok ((), last) := by
  rw [PrincipalHandler.upsertExternal] at h
  obtain ⟨_, validated, hvalid, hupsert⟩ := executes_bind.mp h
  obtain rfl := executes_validatePrincipal hvalid
  obtain ⟨_, written, hwrite, hread⟩ := executes_bind.mp hupsert
  obtain ⟨hid, rfl⟩ := executes_readBack hread
  refine ⟨hid, ?_⟩
  cases hwrite with
  | call choice hanswered hrest =>
      rename_i answer
      cases answer with
      | error error =>
          cases error with
          | conflict | backend message => cases hrest
      | ok value =>
          cases hrest
          obtain ⟨-, error, herror⟩ | ⟨_, hwritten, _⟩ := writeCall_cases (Option.some.inj hanswered)
          · cases herror
          · exact hwritten

theorem executes_adopt {discovery : ScimPrincipalDiscovery} {resource : ScimResource}
    {adopted : ScimProvisioningRequest}
    (h : ScimExecutes (PrincipalHandler.adopt discovery (resource.intoUpsert "")) db (.ok adopted)
      last) : (∃ id, adopted = resource.intoUpsert id) ∧ last = db := by
  rw [PrincipalHandler.adopt] at h
  obtain ⟨key, start, hkey, hsearch⟩ := executes_bind.mp h
  obtain ⟨-, rfl⟩ := executes_discover.mp hkey
  obtain ⟨found, middle, hfound, hadopt⟩ := executes_bind.mp hsearch
  obtain rfl := executes_findByIdentity hfound
  split at hadopt
  · cases hadopt
    exact ⟨⟨"", rfl⟩, rfl⟩
  · rename_i principal
    obtain ⟨binding, after, hbinding, hdecide⟩ := executes_bind.mp hadopt
    obtain ⟨rfl, -⟩ := executes_getIdentity.mp hbinding
    split at hdecide
    · cases hdecide
    · cases hdecide
      refine ⟨⟨principal.id, ?_⟩, rfl⟩
      cases resource <;> rfl

/-- A resource that is provisioned is written as one transaction. -/
theorem executes_provisionScim {random : List UInt8} {principalId : String}
    {resource : ScimResource} {reply : Option PrincipalRow}
    (h : ScimExecutes (handler.provisionScim random (resource.intoUpsert principalId)) db
      (.ok reply) last) :
    ∃ discovery projection principal, handler.scim = some discovery ∧ reply = some principal ∧
      (principalId ≠ "" → principal.id = principalId) ∧ Projects discovery resource projection ∧
      db.upsertWithIdentity (projection.row principal.id) (projection.identity principal.id) =
        .ok ((), last) := by
  rw [PrincipalHandler.provisionScim] at h
  obtain ⟨discovery, start, hdiscovery, hprovision⟩ := executes_bind.mp h
  obtain ⟨hscim, rfl⟩ := executes_scimDiscovery.mp hdiscovery
  obtain ⟨id, hid, hproject⟩ : ∃ id, (principalId ≠ "" → id = principalId) ∧
      ScimExecutes (ScimProgram.discover (discovery.discover random (resource.intoUpsert id)) >>=
        handler.applyScimProjection) start (.ok reply) last := by
    split at hprovision
    · rename_i hmissing
      have hempty : principalId = "" := by
        cases resource <;> exact of_decide_eq_true hmissing
      subst hempty
      obtain ⟨request, middle, hadopt, hproject⟩ := executes_bind.mp hprovision
      obtain ⟨⟨id, rfl⟩, rfl⟩ := executes_adopt hadopt
      exact ⟨id, fun hne => absurd rfl hne, hproject⟩
    · exact ⟨principalId, fun _ => rfl, hprovision⟩
  obtain ⟨event, projected, hevent, happly⟩ := executes_bind.mp hproject
  obtain ⟨hfound, rfl⟩ := executes_discover.mp hevent
  obtain ⟨target, projection, rfl, htarget, hprojects⟩ := discover_intoUpsert hfound
  obtain ⟨principal, after, hupsert, hreply⟩ := executes_bind.mp happly
  obtain ⟨rfl, hwritten⟩ := executes_upsertExternal hupsert
  cases hreply
  refine ⟨discovery, projection, principal, hscim, rfl, ?_, hprojects, hwritten⟩
  intro hne
  have hsame := hid hne
  subst hsame
  exact htarget hne

theorem executes_getScim {principalId : String} {kind : PrincipalKind} {resource : ScimResource} :
    ScimExecutes (handler.getScim principalId kind) db (.ok resource) last ↔
      last = db ∧ ∃ discovery principal identity, handler.scim = some discovery ∧
        db.principals.find principalId = some principal ∧ principal.scimDeleted = false ∧
        principal.kind = kind ∧ identity ∈ db.identitiesOf principalId discovery.discoveryId ∧
        ScimPrincipalDiscovery.restoreResource principal identity.claims = .ok resource := by
  rw [PrincipalHandler.getScim]
  constructor
  · intro h
    obtain ⟨discovery, start, hdiscovery, hread⟩ := executes_bind.mp h
    obtain ⟨hscim, rfl⟩ := executes_scimDiscovery.mp hdiscovery
    obtain ⟨found, middle, hget, hshow⟩ := executes_bind.mp hread
    obtain ⟨rfl, rfl⟩ := executes_get.mp hget
    split at hshow
    · cases hshow
    · rename_i principal hprincipal
      split at hshow
      · cases hshow
      · rename_i hshown
        rw [not_or, Bool.not_eq_true, not_not] at hshown
        obtain ⟨binding, after, hbinding, hrestore⟩ := executes_bind.mp hshow
        obtain ⟨rfl, hrow⟩ := executes_getIdentity.mp hbinding
        obtain ⟨rfl, -⟩ | ⟨identity, hidentity, rfl⟩ := hrow
        · cases hrestore
        · obtain ⟨hrestored, rfl⟩ := executes_discover.mp hrestore
          exact ⟨rfl, discovery, principal, identity, hscim, hprincipal, hshown.1, hshown.2,
            hidentity, hrestored⟩
  · rintro ⟨rfl, discovery, principal, identity, hscim, hprincipal, hdeleted, hkind, hidentity,
      hrestored⟩
    refine executes_bind.mpr ⟨discovery, last, executes_scimDiscovery.mpr ⟨hscim, rfl⟩, ?_⟩
    refine executes_bind.mpr ⟨some principal, last, executes_get.mpr ⟨hprincipal.symm, rfl⟩, ?_⟩
    have hshown : ¬(principal.scimDeleted = true ∨ principal.kind ≠ kind) := by
      simp [hdeleted, hkind]
    simp only [if_neg hshown]
    refine executes_bind.mpr ⟨some identity, last,
      executes_getIdentity.mpr ⟨rfl, .inr ⟨identity, hidentity, rfl⟩⟩, ?_⟩
    exact executes_discover.mpr ⟨hrestored, rfl⟩

theorem getScim_id {kind : PrincipalKind} {principalId : String} {resource : ScimResource}
    (h : ScimExecutes (handler.getScim principalId kind) db (.ok resource) last) :
    resource.id = some principalId ∧ last = db := by
  obtain ⟨rfl, -, principal, identity, -, hprincipal, -, -, -, hrestored⟩ :=
    executes_getScim.mp h
  have hid : principal.id = principalId := (Table.find_eq_some.mp hprincipal).2
  exact ⟨hid ▸ (restoreResource_eq_ok hrestored).2.1, rfl⟩

theorem id_ne_empty {principalId : String} {principal : PrincipalRow}
    (h : db.principals.find principalId = some principal) : principalId ≠ "" := by
  rintro rfl
  obtain ⟨hmem, hkey⟩ := Table.find_eq_some.mp h
  have hchecked := db.principals_checked principal hmem
  rw [PrincipalRow.checked, show principal.id = "" from hkey] at hchecked
  cases hchecked

/-- A resource is patched as it was read, and written again. -/
theorem executes_patchScim {principalId : String} {kind : PrincipalKind}
    {patch : ScimPatchRequest} {random : List UInt8} {reply : ScimResource}
    (h : ScimExecutes (handler.patchScim principalId kind patch random) db (.ok reply) last) :
    ∃ current patched discovery projection,
      ScimExecutes (handler.getScim principalId kind) db (.ok current) db ∧
      ScimPrincipalDiscovery.patch current patch = .ok patched ∧
      handler.scim = some discovery ∧ Projects discovery patched projection ∧
      db.upsertWithIdentity (projection.row principalId) (projection.identity principalId) =
        .ok ((), last) ∧ reply.id = some principalId := by
  rw [PrincipalHandler.patchScim] at h
  obtain ⟨current, start, hread, hpatch⟩ := executes_bind.mp h
  obtain ⟨rfl, -, principal, -, -, hprincipal, -⟩ := executes_getScim.mp hread
  obtain ⟨patched, middle, hpatched, hwrite⟩ := executes_bind.mp hpatch
  obtain ⟨hpatched', rfl⟩ := executes_discover.mp hpatched
  obtain ⟨_, after, hprovision, hserve⟩ := executes_bind.mp hwrite
  obtain ⟨discovery, projection, written, hscim, -, hid, hprojects, hwritten⟩ :=
    executes_provisionScim hprovision
  obtain ⟨hserved, rfl⟩ := getScim_id hserve
  rw [hid (id_ne_empty hprincipal)] at hwritten
  exact ⟨current, patched, discovery, projection, hread, hpatched', hscim, hprojects, hwritten,
    hserved⟩

theorem find_written {id : String} {projection : PrincipalProjection}
    (h : db.upsertWithIdentity (projection.row id) (projection.identity id) = .ok ((), last)) :
    last.principals.find id = some (projection.row id) := by
  rw [(IamDatabase.upsertWithIdentity_eq_ok h).1, Table.find_upsert]
  exact if_pos rfl

end

/-! What a PATCH does to the principal. -/

section
variable {handler : PrincipalHandler} {db last : IamDatabase}

/-- The decision about the principal that a PATCH leaves alone. -/
def SameStanding (before after : PrincipalRow) : Prop :=
  after.status = before.status ∧ after.kind = before.kind ∧
    after.authorizationState = before.authorizationState

/-- A PATCH that does not name the flag writes a user under the status it had, and a
group as active. -/
theorem patched_enabled {principalId : String} {kind : PrincipalKind} {patch : ScimPatchRequest}
    {current patched : ScimResource} {principal : PrincipalRow}
    (hpaths : ∀ operation ∈ patch.operations, operation.path ≠ some "active")
    (hprincipal : db.principals.find principalId = some principal)
    (hread : ScimExecutes (handler.getScim principalId kind) db (.ok current) db)
    (hpatched : ScimPrincipalDiscovery.patch current patch = .ok patched) :
    patched.kind = principal.kind ∧
      patched.enabled = if principal.kind = .group then true else principal.status = .active := by
  obtain ⟨-, discovery, found, identity, -, hfound, -, -, -, hrestored⟩ := executes_getScim.mp hread
  obtain rfl : principal = found := Option.some.inj (hprincipal.symm.trans hfound)
  obtain ⟨hseparate, -, hkind, hactive⟩ := restoreResource_eq_ok hrestored
  obtain ⟨-, hsame⟩ := ScimPrincipalDiscovery.patch_eq_ok hpatched
  refine ⟨hsame.trans hkind, ?_⟩
  rw [← hkind]
  cases current with
  | user current =>
      rw [ScimPrincipalDiscovery.patch_enabled hpatched hseparate (hactive current rfl) hpaths]
      rfl
  | group current =>
      obtain ⟨_, _, rfl, -⟩ := ScimPrincipalDiscovery.patch_group hpatched
      rfl

theorem patch_keeps_standing_iff {principalId : String} {kind : PrincipalKind}
    {patch : ScimPatchRequest} {random : List UInt8} {reply : ScimReply}
    {principal : PrincipalRow} (hprincipal : db.principals.find principalId = some principal)
    (hpaths : ∀ operation ∈ patch.operations, operation.path ≠ some "active")
    (hpatch : ScimExecutes (handler.serve (.patch principalId kind patch random)) db (.ok reply)
      last) :
    (∃ kept, last.principals.find principalId = some kept ∧ SameStanding principal kept) ↔
      (principal.kind = .group → principal.status = .active) ∧
        principal.authorizationState = .empty := by
  obtain ⟨resource, middle, hresource, hreply⟩ := executes_bind.mp hpatch
  obtain ⟨current, patched, discovery, projection, hread, hpatched, -, hprojects, hwritten,
    -⟩ := executes_patchScim hresource
  obtain ⟨-, rfl⟩ := executes_ok.mp hreply
  obtain ⟨hkind, henabled⟩ := patched_enabled hpaths hprincipal hread hpatched
  rw [find_written hwritten]
  simp only [Option.some.injEq, exists_eq_left', SameStanding, PrincipalProjection.row,
    hprojects.kind, hprojects.enabled, hkind, henabled]
  by_cases hgroup : principal.kind = .group
  · simp [hgroup, eq_comm]
  · cases hstatus : principal.status with
    | active => simp [hgroup, eq_comm]
    | disabled => simp [hgroup, eq_comm]

end

/-! A team and one of its members, both disabled by an administrator. -/

namespace Suspended

def handler : PrincipalHandler := ⟨.sqlite, some ⟨"hr", "hr.example"⟩⟩

def member : ScimUserResource where
  schemas := [userSchema]
  id := none
  externalId := some "7"
  userName := "ada"
  displayName := none
  active := none
  emails := []
  metadata := none
  attributes := .empty

def team : ScimGroupResource where
  schemas := [groupSchema]
  id := none
  externalId := some "ops"
  displayName := "operations"
  members := [⟨"P_1", none, none⟩]
  metadata := none
  attributes := .empty

def database : IamDatabase where
  principals :=
    ⟨[{ id := "P_1", kind := .user, status := .active, displayName := "ada",
        authorizationState := .empty },
      { id := "G_1", kind := .group, status := .active, displayName := "operations",
        authorizationState := .empty }], by decide⟩
  identities :=
    ⟨[{ principalId := "P_1", provider := "hr", issuer := "hr.example", subject := "7",
        claims := .object member.toObject.entries },
      { principalId := "G_1", provider := "hr", issuer := "hr.example", subject := "group:ops",
        claims := .object team.toObject.entries }], by decide⟩
  principals_checked := by decide
  identities_checked := by decide
  identities_principal := by decide

/-- The database after the administrator disabled the principal. -/
def disabled (id : String) : IamDatabase :=
  (PrincipalHandler.updateStatus database id .disabled (.answered 0)).2

def rename : ScimPatchRequest where
  schemas := [patchSchema]
  operations := [⟨.replace, some "displayName", .string "platform"⟩]

def renamed (id : String) (kind : PrincipalKind) :
    Option (Except PrincipalHandlerError ScimReply × IamDatabase) :=
  (handler.serve (.patch id kind rename [])).evaluate PrincipalCall.exec (.answered 0) (disabled id)

/-- The request succeeds and the row it leaves passes the test. -/
def leaves (id : String) (test : PrincipalRow → Bool) :
    Except PrincipalHandlerError ScimReply × IamDatabase → Bool
  | (.ok _, last) => (last.principals.find id).any test
  | _ => false

theorem of_leaves (id : String) (kind : PrincipalKind) (test : PrincipalRow → Bool)
    (h : (renamed id kind).any (leaves id test) = true) :
    ∃ reply last, ScimExecutes (handler.serve (.patch id kind rename [])) (disabled id) (.ok reply)
      last ∧ ∃ row, last.principals.find id = some row ∧ test row = true := by
  obtain ⟨⟨result, last⟩, hrenamed, hleaves⟩ := (Option.any_eq_true _ _).mp h
  cases result with
  | error error => cases hleaves
  | ok reply =>
      obtain ⟨row, hrow, htest⟩ := (Option.any_eq_true _ _).mp hleaves
      exact ⟨reply, last, executes_of_evaluate hrenamed, row, hrow, htest⟩

theorem rename_paths : ∀ operation ∈ rename.operations, operation.path ≠ some "active" := by
  decide

theorem disabled_status (id : String)
    (h : ((disabled id).principals.find id).any (·.status = .disabled) = true) :
    ∃ row, (disabled id).principals.find id = some row ∧ row.status = .disabled := by
  obtain ⟨row, hrow, hstatus⟩ := (Option.any_eq_true _ _).mp h
  exact ⟨row, hrow, of_decide_eq_true hstatus⟩

/-- The team is renamed, and enabled again. -/
theorem renamed_team_enabled :
    ∃ principal reply last, (disabled "G_1").principals.find "G_1" = some principal ∧
      (∀ operation ∈ rename.operations, operation.path ≠ some "active") ∧
      ScimExecutes (handler.serve (.patch "G_1" .group rename [])) (disabled "G_1") (.ok reply)
        last ∧
      ¬∃ kept, last.principals.find "G_1" = some kept ∧ SameStanding principal kept := by
  obtain ⟨principal, hprincipal, hstatus⟩ := disabled_status "G_1" (by decide +kernel)
  obtain ⟨reply, last, hpatch, row, hrow, hactive⟩ :=
    of_leaves "G_1" .group (fun row => row.status = .active) (by decide +kernel)
  refine ⟨principal, reply, last, hprincipal, rename_paths, hpatch, ?_⟩
  rintro ⟨kept, hkept, hsame, -⟩
  rw [hrow, Option.some.injEq] at hkept
  subst hkept
  rw [of_decide_eq_true hactive, hstatus] at hsame
  cases hsame

/-- The member stays disabled. -/
theorem renamed_member_disabled :
    ∃ principal reply last, (disabled "P_1").principals.find "P_1" = some principal ∧
      principal.status = .disabled ∧
      ScimExecutes (handler.serve (.patch "P_1" .user rename [])) (disabled "P_1") (.ok reply)
        last ∧
      ∃ kept, last.principals.find "P_1" = some kept ∧ SameStanding principal kept := by
  obtain ⟨principal, hprincipal, hstatus⟩ := disabled_status "P_1" (by decide +kernel)
  obtain ⟨reply, last, hpatch, -, -, -⟩ :=
    of_leaves "P_1" .user (fun _ => true) (by decide +kernel)
  have hstanding : principal.kind = .user ∧ principal.authorizationState = .empty := by
    have htest : ((disabled "P_1").principals.find "P_1").any (fun row =>
        row.kind = .user && row.authorizationState.isEmpty) = true := by decide +kernel
    rw [hprincipal, Option.any_some, Bool.and_eq_true, decide_eq_true_eq] at htest
    refine ⟨htest.1, SortedMap.ext_entries ?_⟩
    exact List.isEmpty_iff.mp htest.2
  refine ⟨principal, reply, last, hprincipal, hstatus, hpatch, ?_⟩
  refine (patch_keeps_standing_iff hprincipal rename_paths hpatch).mpr ⟨?_, hstanding.2⟩
  rw [hstanding.1]
  nofun

end Suspended

end Authguard
