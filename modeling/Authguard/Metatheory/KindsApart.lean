import Authguard.Metatheory.GroupSubjects
import Authguard.Metatheory.PrincipalWrites
import Authguard.Metatheory.ScimWrites

/-!
Users and groups of one provider over whole runs. An identity leads to the principal its
subject is bound to, and the subject of a user is its identifier as it is; so a user whose
identifier has the mark of a group takes over the principal of that group. While no user
has such an identifier, and no identifier of a principal is brought for both kinds, every
subject leads to a principal of its kind, and principals keep their kinds.
-/

namespace Authguard
open Program Json

/-! Resources. -/

section
variable {id : String}

theorem readOptional_string {name : String} {fields : List (String × Json)}
    (h : readOptional Json.toStr name fields = some (some id)) :
    fields.lookup name = some (.string id) := by
  rw [readOptional, withDefault] at h
  split at h
  · cases h
  · rename_i value hvalue
    rw [hvalue]
    rw [toOption.eq_def] at h
    split at h
    · cases h
    · obtain ⟨text, htext, hsome⟩ := Option.map_eq_some_iff.mp h
      cases hsome
      rw [toStr.eq_def] at htext
      split at htext
      · cases htext
        rfl
      · cases htext

theorem ScimUserResource.fromObject_externalId {object : JsonMap} {resource : ScimUserResource}
    (h : fromObject object = some resource) (hid : resource.externalId = some id) :
    object.get "externalId" = some (.string id) := by
  simp only [fromObject, Option.bind_eq_bind, Option.bind_eq_some_iff, Option.some.injEq] at h
  obtain ⟨schemas, -, _, -, externalId, hexternalId, userName, -, displayName, -, active, -,
    emails, -, metadata, -, rfl⟩ := h
  exact readOptional_string (hexternalId.trans (congrArg some hid))

theorem ScimUserResource.toObject_externalId {resource : ScimUserResource}
    (hfree : FreeOf fieldNames resource.attributes) :
    resource.toObject.get "externalId" = resource.externalId.map .string := by
  rw [toObject_eq, SortedMap.get_ofList (nodup_toObject hfree)]
  have habsent : resource.attributes.entries.lookup "externalId" = none :=
    hfree "externalId" (by decide)
  simp only [writtenFields, optionalField, List.append_assoc,
    lookup_field_ne (show "externalId" ≠ "schemas" by decide),
    lookup_field_ne (show "externalId" ≠ "id" by decide)]
  cases resource.externalId with
  | none =>
      rw [show field "externalId" (none : Option String).isNone (optionJson Json.string none) = []
        from rfl, List.nil_append]
      simp only [lookup_field_ne (show "externalId" ≠ "userName" by decide),
        lookup_field_ne (show "externalId" ≠ "displayName" by decide),
        lookup_field_ne (show "externalId" ≠ "active" by decide),
        lookup_field_ne (show "externalId" ≠ "emails" by decide),
        lookup_field_ne (show "externalId" ≠ "meta" by decide), habsent, Option.map_none]
  | some id => rfl

/-- A field after a PATCH: as it was, removed, or what an operation set it to. -/
theorem foldlM_applyPatchOperation_cases {name : String} {value : Json}
    {operations : List ScimPatchOperation} {object patched : JsonMap}
    (h : operations.foldlM applyPatchOperation object = .ok patched)
    (hvalue : patched.get name = some value) :
    object.get name = some value ∨ ∃ operation ∈ operations, operation.path = some name ∧
      operation.op ≠ .remove ∧ operation.value = value := by
  induction operations generalizing object with
  | nil =>
      cases h
      exact .inl hvalue
  | cons operation operations ih =>
      rw [List.foldlM_cons] at h
      obtain ⟨next, hnext, h⟩ := Result.bind_ok_iff.mp h
      obtain hkept | ⟨set, hset, hfound⟩ := ih h
      · rw [applyPatchOperation] at hnext
        split at hnext
        · cases hnext
        · rename_i path hpath
          split at hnext
          · split at hnext
            · cases hnext
              rw [SortedMap.get_erase] at hkept
              split at hkept
              · cases hkept
              · exact .inl hkept
            all_goals
              rename_i hop
              cases hnext
              rw [SortedMap.get_insert] at hkept
              split at hkept
              · rename_i hname
                refine .inr ⟨operation, List.mem_cons_self, hname ▸ hpath, ?_,
                  Option.some.inj hkept⟩
                rw [hop]
                decide
              · exact .inl hkept
          · cases hnext
      · exact .inr ⟨set, List.mem_cons_of_mem _ hset, hfound⟩

end

section
variable {discovery : ScimPrincipalDiscovery}

/-- A user has no identifier with the mark of a group. -/
structure ScimResource.Plain (discovery : ScimPrincipalDiscovery) (resource : ScimResource) :
    Prop where
  separate : resource.Separate
  unmarked : resource.kind.isGroup = false → ∀ id, resource.externalId = some id →
    (Connector.scim discovery).marksGroup id = false

/-- The claims an identity is stored with have no such identifier; only SCIM reads them. -/
def Connector.PlainClaims (connector : Connector) (claims : Json) : Prop :=
  match connector with
  | .scim _ => ∀ object id, objectOf claims = some object →
      object.get "externalId" = some (.string id) → connector.marksGroup id = false
  | .ldap _ | .custom _ => True

theorem ScimResource.Plain.claims {resource : ScimResource} (h : resource.Plain discovery)
    (hkind : resource.kind.isGroup = false) :
    (Connector.scim discovery).PlainClaims (.object resource.submitted.toObject.entries) := by
  intro object id hobject hid
  rw [objectOf_entries, Option.some.injEq] at hobject
  subst hobject
  cases resource with
  | group resource => cases hkind
  | user resource =>
      have hwritten : ({ resource with id := none, metadata := none } :
          ScimUserResource).toObject.get "externalId" = resource.externalId.map .string :=
        ScimUserResource.toObject_externalId h.separate
      have hget := hwritten.symm.trans hid
      obtain ⟨externalId, hexternalId, hstring⟩ := Option.map_eq_some_iff.mp hget
      cases hstring
      exact h.unmarked hkind _ hexternalId

theorem ScimResource.plain_of_restored {principal : PrincipalRow} {claims : Json}
    {resource : ScimResource}
    (h : ScimPrincipalDiscovery.restoreResource principal claims = .ok resource)
    (hclaims : principal.kind.isGroup = false →
      (Connector.scim discovery).PlainClaims claims) : resource.Plain discovery := by
  obtain ⟨hseparate, -, hkind, -⟩ := restoreResource_eq_ok h
  refine ⟨hseparate, fun huser id hid => ?_⟩
  rw [hkind] at huser
  rw [ScimPrincipalDiscovery.restoreResource] at h
  split at h
  · split at h
    · cases h
    · rename_i read hread
      cases h
      obtain ⟨object, hobject, hfields⟩ := Option.bind_eq_some_iff.mp hread
      exact hclaims huser object id hobject (ScimUserResource.fromObject_externalId hfields hid)
  · rename_i hgroup
    rw [hgroup] at huser
    cases huser
  · cases h

/-- A PATCH that sets no marked identifier leaves a plain resource plain. -/
theorem ScimResource.Plain.patch {current patched : ScimResource} {patch : ScimPatchRequest}
    (h : current.Plain discovery)
    (hpatched : ScimPrincipalDiscovery.patch current patch = .ok patched)
    (hoperations : current.kind.isGroup = false → ∀ operation ∈ patch.operations, ∀ id,
      operation.path = some "externalId" → operation.op ≠ .remove → operation.value = .string id →
        (Connector.scim discovery).marksGroup id = false) : patched.Plain discovery := by
  obtain ⟨hparsed, hkind⟩ := ScimPrincipalDiscovery.patch_eq_ok hpatched
  refine ⟨hparsed.separate, fun huser id hid => ?_⟩
  rw [hkind] at huser
  cases current with
  | group current => cases huser
  | user current =>
      obtain ⟨object, resource, rfl, hobject, hfields⟩ := ScimPrincipalDiscovery.patch_user hpatched
      have hget := ScimUserResource.fromObject_externalId hfields hid
      obtain hkept | ⟨operation, hoperation, hpath, hop, hvalue⟩ :=
        foldlM_applyPatchOperation_cases hobject hget
      · rw [ScimUserResource.toObject_externalId h.separate] at hkept
        obtain ⟨externalId, hexternalId, hstring⟩ := Option.map_eq_some_iff.mp hkept
        cases hstring
        exact h.unmarked huser _ hexternalId
      · exact hoperations huser operation hoperation id hpath hop hvalue

end

/-! The store. -/

/-- Some identifiers of principals are those of groups, and the subjects at the provider show
which. -/
structure Connector.Divides (connector : Connector) (groups : String → Bool) (db : IamDatabase) :
    Prop where
  principals : ∀ row ∈ db.principals.rows, row.kind.isGroup = groups row.id
  bound : ∀ row ∈ db.identities.rows, row.provider = connector.id → row.issuer = connector.issuer →
    connector.marksGroup row.subject = groups row.principalId
  claims : ∀ row ∈ db.identities.rows, row.provider = connector.id →
    groups row.principalId = false → connector.PlainClaims row.claims

section
variable {connector : Connector} {groups : String → Bool}

/-- What the calls write. -/
def Connector.Writes (connector : Connector) (groups : String → Bool) : PrincipalCall → Prop
  | .upsert principal => principal.kind.isGroup = groups principal.id
  | .upsertWithIdentity principal identity =>
      principal.kind.isGroup = groups principal.id ∧ identity.principalId = principal.id ∧
        connector.marksGroup identity.subject = groups principal.id ∧
        (groups principal.id = false → connector.PlainClaims identity.claims)
  | .get _ | .findByIdentity _ | .getIdentity _ _ => True

/-- What the calls are answered. -/
def Connector.Told (connector : Connector) (groups : String → Bool) :
    (call : PrincipalCall) → call.Answer → Prop
  | .get id, answer => ∀ row, answer = .ok (some row) →
      row.id = id ∧ id ≠ "" ∧ row.kind.isGroup = groups row.id
  | .findByIdentity key, answer => ∀ row, answer = .ok (some row) →
      key.provider = connector.id → key.issuer = connector.issuer →
        connector.marksGroup key.subject = groups row.id
  | .getIdentity principalId provider, answer => ∀ row, answer = .ok (some row) →
      provider = connector.id → groups principalId = false → connector.PlainClaims row.claims
  | .upsert _, _ | .upsertWithIdentity _ _, _ => True

variable {db after : IamDatabase}

theorem Connector.Divides.upsert {principal : PrincipalRow} (h : connector.Divides groups db)
    (hwrites : principal.kind.isGroup = groups principal.id)
    (hwritten : db.upsert principal = .ok ((), after)) : connector.Divides groups after := by
  obtain ⟨hprincipals, hidentities⟩ := IamDatabase.upsert_eq_ok hwritten
  refine ⟨fun row hrow => ?_, ?_, ?_⟩
  · rw [hprincipals] at hrow
    obtain rfl | hrow := Table.mem_upsert hrow
    · exact hwrites
    · exact h.principals row hrow
  · rw [hidentities]
    exact h.bound
  · rw [hidentities]
    exact h.claims

theorem Connector.Divides.upsertWithIdentity {principal : PrincipalRow}
    {identity : IamPrincipalIdentityInfo} (h : connector.Divides groups db)
    (hwrites : connector.Writes groups (.upsertWithIdentity principal identity))
    (hwritten : db.upsertWithIdentity principal identity = .ok ((), after)) :
    connector.Divides groups after := by
  obtain ⟨hkind, hid, hsubject, hclaims⟩ := hwrites
  have hidentities := IamDatabase.mem_identities_upsertWithIdentity hwritten
  refine ⟨fun row hrow => ?_, fun row hrow hprovider hissuer => ?_, fun row hrow hprovider => ?_⟩
  · rw [(IamDatabase.upsertWithIdentity_eq_ok hwritten).1] at hrow
    obtain rfl | hrow := Table.mem_upsert hrow
    · exact hkind
    · exact h.principals row hrow
  · obtain rfl | hrow := hidentities row hrow
    · rw [hid]
      exact hsubject
    · exact h.bound row hrow hprovider hissuer
  · obtain rfl | hrow := hidentities row hrow
    · rw [hid]
      exact hclaims
    · exact h.claims row hrow hprovider

/-- The store answers what it is divided by, and stays divided. -/
theorem Connector.Divides.exec {call : PrincipalCall} {outcome : StoreOutcome}
    {answer : call.Answer} (h : connector.Divides groups db) (hwrites : connector.Writes groups call)
    (hexec : call.exec outcome db = some (answer, after)) :
    connector.Told groups call answer ∧ connector.Divides groups after := by
  cases call with
  | get id =>
      obtain ⟨rfl, hread⟩ := readCall_cases (Option.some.inj hexec)
      refine ⟨fun row hrow => ?_, h⟩
      obtain hread | ⟨error, hread⟩ := hread
      · have hfound := Except.ok.inj (hread.symm.trans hrow)
        obtain ⟨hmem, hkey⟩ := Table.find_eq_some.mp hfound
        exact ⟨hkey, id_ne_empty hfound, h.principals row hmem⟩
      · cases hread.symm.trans hrow
  | findByIdentity key =>
      obtain ⟨rfl, hread⟩ := readCall_cases (Option.some.inj hexec)
      refine ⟨fun row hrow hprovider hissuer => ?_, h⟩
      obtain hread | ⟨error, hread⟩ := hread
      · obtain ⟨identity, hidentity, hprincipal⟩ :=
          Option.bind_eq_some_iff.mp (Except.ok.inj (hread.symm.trans hrow))
        obtain ⟨hmem, rfl⟩ := Table.find_eq_some.mp hidentity
        obtain ⟨-, hkey⟩ := Table.find_eq_some.mp hprincipal
        exact (h.bound identity hmem hprovider hissuer).trans (congrArg groups hkey.symm)
      · cases hread.symm.trans hrow
  | getIdentity principalId provider =>
      cases outcome with
      | failed message | lost message =>
          cases hexec
          exact ⟨nofun, h⟩
      | answered index =>
          obtain ⟨found, hfound, heq⟩ := Option.map_eq_some_iff.mp hexec
          cases heq
          refine ⟨fun row hrow hprovider huser => ?_, h⟩
          cases hrow
          rw [IamDatabase.pickIdentity] at hfound
          split at hfound
          · cases hfound
          · obtain ⟨identity, hidentity, hsome⟩ := Option.map_eq_some_iff.mp hfound
            cases hsome
            obtain ⟨hmem, howner⟩ := List.mem_filter.mp (List.mem_of_getElem? hidentity)
            obtain ⟨rfl, rfl⟩ := of_decide_eq_true howner
            exact h.claims row hmem hprovider huser
  | upsert principal =>
      refine ⟨trivial, ?_⟩
      obtain ⟨rfl, -⟩ | ⟨_, hwritten, -⟩ := writeCall_cases (Option.some.inj hexec)
      · exact h
      · exact h.upsert hwrites hwritten
  | upsertWithIdentity principal identity =>
      refine ⟨trivial, ?_⟩
      obtain ⟨rfl, -⟩ | ⟨_, hwritten, -⟩ := writeCall_cases (Option.some.inj hexec)
      · exact h
      · exact h.upsertWithIdentity hwrites hwritten

end

/-! Programs. -/

/-- The program writes nothing that is not divided, while it is told nothing else. -/
abbrev Heeds (connector : Connector) (groups : String → Bool) {β : Type} (q : β → Prop)
    (program : ScimProgram β) : Prop :=
  program.Guarded (connector.Writes groups) (connector.Told groups) q

section
variable {connector : Connector} {groups : String → Bool} {handler : PrincipalHandler}

theorem heeds_discover {β : Type} (found : Except PrincipalDiscoveryError β) :
    Heeds connector groups (fun value => found = .ok value) (ScimProgram.discover found) := by
  cases found with
  | ok value => rfl
  | error error => trivial

theorem heeds_get (id : String) :
    Heeds connector groups (fun found => ∀ row, found = some row →
      row.id = id ∧ id ≠ "" ∧ row.kind.isGroup = groups row.id) (PrincipalHandler.get id) := by
  refine ⟨trivial, fun answer htold => ?_⟩
  cases answer with
  | error message => trivial
  | ok found => exact fun row hrow => htold row (congrArg Except.ok hrow)

theorem heeds_findByIdentity {key : ExternalIdentityKey} (hprovider : key.provider = connector.id)
    (hissuer : key.issuer = connector.issuer) :
    Heeds connector groups (fun found => ∀ row, found = some row →
      connector.marksGroup key.subject = groups row.id) (PrincipalHandler.findByIdentity key) := by
  refine ⟨trivial, fun answer htold => ?_⟩
  cases answer with
  | error message => trivial
  | ok found => exact fun row hrow => htold row (congrArg Except.ok hrow) hprovider hissuer

theorem heeds_getIdentity {principalId provider : String} (hprovider : provider = connector.id) :
    Heeds connector groups (fun found => ∀ row, found = some row → groups principalId = false →
      connector.PlainClaims row.claims) (PrincipalHandler.getIdentity principalId provider) := by
  refine ⟨trivial, fun answer htold => ?_⟩
  cases answer with
  | error message => trivial
  | ok found => exact fun row hrow => htold row (congrArg Except.ok hrow) hprovider

theorem heeds_readBack (principal : PrincipalRow) :
    Heeds connector groups (fun _ => True) (handler.readBack principal) := by
  rw [PrincipalHandler.readBack]
  cases handler.backend with
  | postgres => trivial
  | sqlite =>
      refine (heeds_get principal.id).bind fun found _ => ?_
      cases found with
      | none | some found => trivial

theorem heeds_validatePrincipal (principal : PrincipalRow) :
    Heeds connector groups (fun _ => True) (PrincipalHandler.validatePrincipal principal) := by
  rw [PrincipalHandler.validatePrincipal]
  split <;> trivial

theorem heeds_upsert {principal : PrincipalRow}
    (hkind : principal.kind.isGroup = groups principal.id) :
    Heeds connector groups (fun _ => True) (handler.upsert principal) := by
  refine (heeds_validatePrincipal principal).bind fun _ _ => ?_
  refine Guarded.bind (q := fun _ => True) ⟨hkind, fun answer _ => ?_⟩ fun _ _ =>
    heeds_readBack principal
  cases answer with
  | ok value | error message => trivial

theorem heeds_upsertExternal {id : String} {projection : PrincipalProjection}
    (hkind : projection.kind.isGroup = groups id)
    (hsubject : connector.marksGroup projection.externalId = groups id)
    (hclaims : groups id = false →
      connector.PlainClaims (.object projection.attributes.entries)) :
    Heeds connector groups (fun _ => True) (handler.upsertExternal id projection) := by
  refine (heeds_validatePrincipal _).bind fun _ _ => ?_
  refine Guarded.bind (q := fun _ => True) ⟨⟨hkind, rfl, hsubject, hclaims⟩, fun answer _ => ?_⟩
    fun _ _ => heeds_readBack _
  cases answer with
  | ok value => trivial
  | error error =>
      cases error with
      | conflict | backend message => trivial

end

section
variable {discovery : ScimPrincipalDiscovery} {groups : String → Bool} {handler : PrincipalHandler}

abbrev HeedsScim (discovery : ScimPrincipalDiscovery) (groups : String → Bool) {β : Type}
    (q : β → Prop) (program : ScimProgram β) : Prop := Heeds (.scim discovery) groups q program

theorem heeds_scimDiscovery :
    HeedsScim discovery groups (fun found => handler.scim = some found) handler.scimDiscovery := by
  rw [PrincipalHandler.scimDiscovery]
  cases handler.scim with
  | none => trivial
  | some found => rfl

theorem heeds_getScim (hscim : handler.scim = some discovery) (principalId : String)
    (kind : PrincipalKind) :
    HeedsScim discovery groups (fun resource => resource.kind = kind ∧ resource.Plain discovery ∧
      principalId ≠ "" ∧ groups principalId = kind.isGroup) (handler.getScim principalId kind) := by
  refine heeds_scimDiscovery.bind fun found hfound => ?_
  obtain rfl : discovery = found := Option.some.inj (hscim.symm.trans hfound)
  refine (heeds_get principalId).bind fun principal hprincipal => ?_
  cases principal with
  | none => trivial
  | some principal =>
      obtain ⟨rfl, hne, hgroup⟩ := hprincipal principal rfl
      simp only
      split
      · trivial
      · rename_i hshown
        rw [not_or, not_not] at hshown
        obtain ⟨-, rfl⟩ := hshown
        refine (heeds_getIdentity rfl).bind fun identity hidentity => ?_
        cases identity with
        | none => trivial
        | some identity =>
            refine (heeds_discover _).imp fun resource hrestored => ?_
            refine ⟨(restoreResource_eq_ok hrestored).2.2.1, ?_, hne, hgroup.symm⟩
            exact ScimResource.plain_of_restored hrestored fun huser =>
              hidentity identity rfl (hgroup.symm.trans huser)

theorem ScimResource.externalId_of_subject {resource : ScimResource} {subject : String}
    (h : resource.subject = some subject) : ∃ id, resource.externalId = some id := by
  cases resource with
  | user resource => exact ⟨subject, h⟩
  | group resource =>
      obtain ⟨id, hid, -⟩ := Option.map_eq_some_iff.mp h
      exact ⟨id, hid⟩

/-- A resource that brings no identifier takes over a principal of its kind. -/
theorem heeds_adopt {resource : ScimResource} (hplain : resource.Plain discovery) :
    HeedsScim discovery groups (fun request => ∃ id, request = resource.intoUpsert id ∧
      (id ≠ "" → groups id = resource.kind.isGroup))
      (PrincipalHandler.adopt discovery (resource.intoUpsert "")) := by
  refine (heeds_discover _).bind fun key hkey => ?_
  obtain ⟨subject, hsubject, rfl⟩ := ScimPrincipalDiscovery.upsertIdentityKey_eq_ok hkey
  have hmarks := ScimResource.marks_subject hsubject hplain.unmarked
  refine (heeds_findByIdentity rfl rfl).bind fun principal hprincipal => ?_
  cases principal with
  | none => exact ⟨"", rfl, fun hne => absurd rfl hne⟩
  | some principal =>
      refine (heeds_getIdentity rfl).bind fun binding _ => ?_
      split
      · trivial
      · refine ⟨principal.id, ?_, fun _ => (hprincipal principal rfl).symm.trans hmarks⟩
        cases resource <;> rfl

theorem discover_drawn {random : List UInt8} {resource : ScimResource} {id : String}
    {projection : PrincipalProjection}
    (h : discovery.discover random (resource.intoUpsert "") = .ok (.upsert id projection)) :
    id = "P_" ++ Base64Url.encode random := by
  cases resource with
  | user resource | group resource =>
      simp only [ScimResource.intoUpsert, ScimPrincipalDiscovery.discover] at h
      obtain ⟨drawn, hdrawn, h⟩ := Result.bind_ok_iff.mp h
      cases hdrawn
      obtain ⟨-, -, h⟩ := Result.bind_ok_iff.mp h
      obtain ⟨-, -, h⟩ := Result.bind_ok_iff.mp h
      split at h
      · cases h
      · obtain ⟨-, -, h⟩ := Result.bind_ok_iff.mp h
        cases h
        rfl

theorem heeds_project {resource : ScimResource} (hplain : resource.Plain discovery)
    {principalId : String} {random : List UInt8}
    (hid : principalId ≠ "" → groups principalId = resource.kind.isGroup)
    (hdrawn : principalId = "" → ∀ externalId, resource.externalId = some externalId →
      groups ("P_" ++ Base64Url.encode random) = resource.kind.isGroup) :
    HeedsScim discovery groups (fun _ => True)
      (ScimProgram.discover (discovery.discover random (resource.intoUpsert principalId)) >>=
        handler.applyScimProjection) := by
  refine (heeds_discover _).bind fun event hevent => ?_
  obtain ⟨id, projection, rfl, htarget, hprojects⟩ := discover_intoUpsert hevent
  have hgroup : groups id = resource.kind.isGroup := by
    by_cases hne : principalId = ""
    · subst hne
      obtain ⟨externalId, hexternalId⟩ := ScimResource.externalId_of_subject hprojects.subject
      rw [discover_drawn hevent]
      exact hdrawn rfl externalId hexternalId
    · rw [htarget hne]
      exact hid hne
  have hupsert : HeedsScim discovery groups (fun _ => True)
      (handler.upsertExternal id projection) := by
    refine heeds_upsertExternal ?_ ?_ ?_
    · rw [hprojects.kind, hgroup]
    · rw [hgroup]
      exact ScimResource.marks_subject hprojects.subject hplain.unmarked
    · intro huser
      rw [hprojects.attributes]
      exact hplain.claims (hgroup.symm.trans huser)
  exact hupsert.bind fun _ _ => trivial

theorem heeds_provisionScim (hscim : handler.scim = some discovery) {resource : ScimResource}
    (hplain : resource.Plain discovery) {principalId : String} {random : List UInt8}
    (hid : principalId ≠ "" → groups principalId = resource.kind.isGroup)
    (hdrawn : principalId = "" → ∀ externalId, resource.externalId = some externalId →
      groups ("P_" ++ Base64Url.encode random) = resource.kind.isGroup) :
    HeedsScim discovery groups (fun _ => True)
      (handler.provisionScim random (resource.intoUpsert principalId)) := by
  refine heeds_scimDiscovery.bind fun found hfound => ?_
  obtain rfl : discovery = found := Option.some.inj (hscim.symm.trans hfound)
  split
  · rename_i hmissing
    obtain rfl : principalId = "" := by
      cases resource <;> exact of_decide_eq_true hmissing
    refine (heeds_adopt hplain).bind fun request hrequest => ?_
    obtain ⟨id, rfl, hadopted⟩ := hrequest
    exact heeds_project hplain hadopted fun _ => hdrawn rfl
  · exact heeds_project hplain hid hdrawn

theorem heeds_provisionDelete (principalId : String) :
    HeedsScim discovery groups (fun _ => True)
      (handler.provisionScim [] (.delete principalId)) := by
  refine heeds_scimDiscovery.bind fun found _ => ?_
  refine (heeds_discover _).bind fun event hevent => ?_
  obtain ⟨-, -, hdelete⟩ := Result.bind_ok_iff.mp hevent
  cases hdelete
  refine (heeds_get principalId).bind fun principal hprincipal => ?_
  cases principal with
  | none => trivial
  | some principal =>
      refine Guarded.bind (q := fun _ => True) (heeds_upsert ?_) fun _ _ => trivial
      exact (hprincipal principal rfl).2.2

theorem heeds_upsertScim (hscim : handler.scim = some discovery) {resource : ScimResource}
    (hplain : resource.Plain discovery) {principalId : String} {replace : Bool}
    {random : List UInt8} (hdrawn : replace = false → principalId = "" ∧
      ∀ externalId, resource.externalId = some externalId →
        groups ("P_" ++ Base64Url.encode random) = resource.kind.isGroup) :
    HeedsScim discovery groups (fun _ => True)
      (handler.upsertScim principalId resource replace random) := by
  have hrest : (principalId ≠ "" → groups principalId = resource.kind.isGroup) →
      (principalId = "" → ∀ externalId, resource.externalId = some externalId →
        groups ("P_" ++ Base64Url.encode random) = resource.kind.isGroup) →
      HeedsScim discovery groups (fun _ => True)
        (handler.upsertScim principalId resource false random) := by
    intro hid hempty
    rw [PrincipalHandler.upsertScim, if_neg Bool.false_ne_true]
    refine (heeds_provisionScim hscim hplain hid hempty).bind fun principal _ => ?_
    cases principal with
    | none => trivial
    | some principal => exact (heeds_getScim hscim principal.id resource.kind).imp fun _ _ => trivial
  cases replace with
  | false =>
      obtain ⟨rfl, hgroup⟩ := hdrawn rfl
      exact hrest (fun hne => absurd rfl hne) fun _ => hgroup
  | true =>
      refine (heeds_getScim hscim principalId resource.kind).bind fun _ hfound => ?_
      obtain ⟨-, -, hne, hgroup⟩ := hfound
      exact hrest (fun _ => hgroup) fun hempty => absurd hempty hne

theorem heeds_patchScim (hscim : handler.scim = some discovery) {principalId : String}
    {kind : PrincipalKind} {patch : ScimPatchRequest} {random : List UInt8}
    (hoperations : kind.isGroup = false → ∀ operation ∈ patch.operations, ∀ id,
      operation.path = some "externalId" → operation.op ≠ .remove → operation.value = .string id →
        (Connector.scim discovery).marksGroup id = false) :
    HeedsScim discovery groups (fun _ => True)
      (handler.patchScim principalId kind patch random) := by
  refine (heeds_getScim hscim principalId kind).bind fun current hcurrent => ?_
  obtain ⟨rfl, hplain, hne, hgroup⟩ := hcurrent
  refine (heeds_discover _).bind fun patched hpatched => ?_
  have hkind := (ScimPrincipalDiscovery.patch_eq_ok hpatched).2
  refine Guarded.bind (q := fun _ => True) ?_ fun _ _ =>
    (heeds_getScim hscim principalId current.kind).imp fun _ _ => trivial
  exact heeds_provisionScim hscim (hplain.patch hpatched hoperations)
    (fun _ => hgroup.trans (congrArg PrincipalKind.isGroup hkind.symm)) fun hempty =>
    absurd hempty hne

theorem heeds_deleteScim (hscim : handler.scim = some discovery) (principalId : String)
    (kind : PrincipalKind) :
    HeedsScim discovery groups (fun _ => True) (handler.deleteScim principalId kind) :=
  (heeds_getScim hscim principalId kind).bind fun _ _ =>
    (heeds_provisionDelete principalId).bind fun _ _ => trivial

end

/-! Requests. -/

/-- The identifier of a principal that a request brings, for what it finds or submits. -/
def ProviderRequest.principalId : ProviderRequest → Option String
  | .scim (.create _ random) => some ("P_" ++ Base64Url.encode random)
  | .materialize _ request => some request.principalId
  | .scim _ | .search _ _ => none

/-- The identifier is brought for an object of its kind. -/
def Connector.Brings (connector : Connector) (groups : String → Bool) (request : ProviderRequest) :
    Prop :=
  ∀ kind externalId id, SourceObject connector request kind externalId →
    request.principalId = some id → kind.isGroup = groups id

/-- The page of a search is what the providers answer. -/
def Connector.Replies (connector : Connector) : ProviderRequest → ProviderReply → Prop
  | .search answers query, reply => ∃ page, reply = .page page ∧
      PrincipalHandler.search (connector.providers answers) query = .ok page
  | .scim _, _ | .materialize _ _, _ => True

section
variable {connector : Connector} {groups : String → Bool} {backend : Backend}

/-- Without SCIM, its requests do not reach the store. -/
theorem serve_unavailable {handler : PrincipalHandler} (h : handler.scim = none)
    (request : ScimRequest) : handler.serve request = .fail .providerUnavailable := by
  cases request with
  | create resource random | put principalId resource random | patch principalId kind patch random
  | delete principalId kind =>
      simp [PrincipalHandler.serve, PrincipalHandler.upsertScim, PrincipalHandler.patchScim,
        PrincipalHandler.deleteScim, PrincipalHandler.getScim, PrincipalHandler.provisionScim,
        PrincipalHandler.scimDiscovery, h]

theorem heeds_serve {discovery : ScimPrincipalDiscovery} {handler : PrincipalHandler}
    (hscim : handler.scim = some discovery) {request : ScimRequest} (hparsed : request.Parsed)
    (hunmarked : (Connector.scim discovery).Unmarked (.scim request))
    (hbrings : (Connector.scim discovery).Brings groups (.scim request)) :
    HeedsScim discovery groups (fun _ => True) (handler.serve request) := by
  have hplain : ∀ resource : ScimResource, request.resource = some resource → resource.Parsed →
      resource.Plain discovery := fun resource hresource hresourceParsed =>
    ⟨hresourceParsed.separate, fun huser id hid =>
      hunmarked _ id (.submitted hresource hid) huser⟩
  cases request with
  | create resource random =>
      refine (heeds_upsertScim hscim (hplain resource rfl hparsed) fun _ =>
        ⟨rfl, fun externalId hid => ?_⟩).bind fun _ _ => trivial
      exact (hbrings _ externalId _ (.submitted rfl hid) rfl).symm
  | put principalId resource random =>
      refine Guarded.bind (q := fun _ => True) (heeds_upsertScim hscim (hplain resource rfl hparsed)
        ?_) fun _ _ => trivial
      nofun
  | patch principalId kind patch random =>
      refine (heeds_patchScim hscim fun huser operation hoperation id hpath hop hvalue => ?_).bind
        fun _ _ => trivial
      exact hunmarked kind id (.patched hoperation hpath hop hvalue) huser
  | delete principalId kind =>
      exact (heeds_deleteScim hscim principalId kind).bind fun _ _ => trivial

theorem heeds_materialize {handler : PrincipalHandler} {answers : DirectoryAnswers}
    {request : PrincipalMaterializationRequest}
    (hunmarked : connector.Unmarked (.materialize answers request))
    (hbrings : connector.Brings groups (.materialize answers request)) :
    Heeds connector groups (fun _ => True)
      (handler.materialize (connector.providers answers) request) := by
  rw [PrincipalHandler.materialize]
  split
  · trivial
  · rename_i provider hfind
    have hprovider := List.mem_of_find?_eq_some hfind
    refine (heeds_discover _).bind fun found hfound => ?_
    cases found with
    | none => trivial
    | some projection =>
        obtain ⟨id, hreads⟩ := Connector.resolve_reads hprovider hfound
        have hgroup := hbrings projection.kind id request.principalId hreads.source rfl
        refine heeds_upsertExternal hgroup ((hreads.marks fun _ => hunmarked).trans hgroup) fun _ => ?_
        cases connector with
        | scim discovery => cases hfind
        | ldap discovery | custom discovery => trivial

/-- A request heeds how the store is divided. -/
theorem heeds_request {request : ProviderRequest}
    (hparsed : ∀ inner, request = .scim inner → inner.Parsed)
    (hunmarked : connector.Unmarked request) (hbrings : connector.Brings groups request) :
    Heeds connector groups (connector.Replies request) (connector.serve backend request) := by
  cases request with
  | scim inner =>
      cases connector with
      | scim discovery =>
          exact (heeds_serve rfl (hparsed inner rfl) hunmarked hbrings).bind fun _ _ => trivial
      | ldap discovery | custom discovery =>
          rw [Connector.serve, serve_unavailable rfl]
          trivial
  | search answers query =>
      rw [Connector.serve]
      split
      · rename_i page hpage
        exact ⟨page, rfl, hpage⟩
      · trivial
  | materialize answers request =>
      exact (heeds_materialize hunmarked hbrings).bind fun _ _ => trivial

end

/-! Every run. -/

section
variable (connector : Connector) (backend : Backend) (db : IamDatabase)
  (events : List ProviderEvent)

/-- What users and groups can be told apart by: users have no marked identifiers, and the
principals have identifiers of one kind, those the requests bring and those that are there. -/
structure Connector.TellsApart : Prop where
  unmarked : ∀ request, .start request ∈ events → connector.Unmarked request
  brought : ∃ groups, connector.Divides groups db ∧
    ∀ request, .start request ∈ events → connector.Brings groups request

/-- Users and groups stay apart in the run. -/
structure Connector.KindsApart (final : ProviderPool) : Prop where
  /-- The subject of a user or workload is not computed for any group, whatever is requested. -/
  subjects : ∀ request request' kind kind' subject, .start request ∈ events →
    SubjectOf connector request kind subject → SubjectOf connector request' kind' subject →
    kind.isGroup = false → kind'.isGroup = false
  /-- A subject leads to a principal of its kind, whenever it is looked up. -/
  finds : ∀ past reached, past <+: events →
    Runs.run (connector.step backend) (Pool.idle db) past = some reached →
    ∀ request kind subject principal, .start request ∈ events →
      SubjectOf connector request kind subject →
      reached.store.findPrincipalByIdentity ⟨connector.id, connector.issuer, subject⟩ =
        some principal → principal.kind.isGroup = kind.isGroup
  /-- A principal of a group stays one of a group, and no other becomes one. -/
  keeps : ∀ past reached, past <+: events →
    Runs.run (connector.step backend) (Pool.idle db) past = some reached →
    ∀ id before after, reached.store.principals.find id = some before →
      final.store.principals.find id = some after → before.kind.isGroup = after.kind.isGroup
  /-- A reference that was shown for a principal does not resolve to one of the other kind. -/
  resolves : ∀ (task : Nat) answers query page,
    final.tasks[task]? = some (.search answers query, .ok (.page page)) →
    ∀ shown ∈ page.principals, ∀ answers' request provider resolved,
      .start (.materialize answers' request) ∈ events → request.reference = shown.reference →
      provider ∈ connector.providers answers' →
      provider.resolvePrincipal request.reference = .ok (some resolved) →
        resolved.kind.isGroup = shown.kind.isGroup

end

section
variable {connector : Connector} {backend : Backend} {db : IamDatabase} {events : List ProviderEvent}
  {final : ProviderPool}

theorem divides_along {groups : String → Bool}
    (hparsed : ∀ request, .start (.scim request) ∈ events → request.Parsed)
    (hunmarked : ∀ request, .start request ∈ events → connector.Unmarked request)
    (hdivides : connector.Divides groups db)
    (hbrings : ∀ request, .start request ∈ events → connector.Brings groups request)
    (hrun : Runs.run (connector.step backend) (Pool.idle db) events = some final) :
    final.Guarded (connector.Divides groups) (connector.Writes groups) (connector.Told groups)
      connector.Replies := by
  refine Pool.run_guarded (fun request hstart => ?_) (fun _ name choice store answer after => ?_)
    (Pool.guarded_idle hdivides) hrun
  · exact heeds_request (fun inner hinner => hparsed inner (hinner ▸ hstart))
      (hunmarked request hstart) (hbrings request hstart)
  · exact Connector.Divides.exec

/-- In every run whose inputs tell users and groups apart, they stay apart. -/
theorem kinds_apart
    (hparsed : ∀ request, .start (.scim request) ∈ events → request.Parsed)
    (hapart : connector.TellsApart db events)
    (hrun : Runs.run (connector.step backend) (Pool.idle db) events = some final) :
    connector.KindsApart backend db events final := by
  obtain ⟨hunmarked, groups, hdivides, hbrings⟩ := hapart
  have hreached : ∀ past reached, past <+: events →
      Runs.run (connector.step backend) (Pool.idle db) past = some reached →
      connector.Divides groups reached.store := by
    intro past reached hpast hrun
    exact (divides_along (fun request hstart => hparsed request (hpast.subset hstart))
      (fun request hstart => hunmarked request (hpast.subset hstart)) hdivides
      (fun request hstart => hbrings request (hpast.subset hstart)) hrun).1
  have hfinal := divides_along hparsed hunmarked hdivides hbrings hrun
  refine ⟨?_, ?_, ?_, ?_⟩
  · intro request request' kind kind' subject hstart hsubject hsubject' huser
    by_contra hgroup
    have hmarks' := hsubject'.marks fun huser' => absurd huser' hgroup
    rw [hsubject.marks fun _ => hunmarked request hstart, huser] at hmarks'
    exact hgroup hmarks'.symm
  · intro past reached hpast hrun request kind subject principal hstart hsubject hfound
    have hstore := hreached past reached hpast hrun
    obtain ⟨identity, hidentity, hprincipal⟩ := Option.bind_eq_some_iff.mp hfound
    obtain ⟨hbound, hkey⟩ := Table.find_eq_some.mp hidentity
    obtain ⟨hstored, hid⟩ := Table.find_eq_some.mp hprincipal
    obtain ⟨hprovider, hissuer, rfl⟩ := ExternalIdentityKey.mk.inj hkey
    rw [← hsubject.marks fun _ => hunmarked request hstart,
      hstore.bound identity hbound hprovider hissuer, hstore.principals principal hstored]
    exact congrArg groups hid
  · intro past reached hpast hrun id before after hbefore hafter
    obtain ⟨hstored, hid⟩ := Table.find_eq_some.mp hbefore
    obtain ⟨hstored', hid'⟩ := Table.find_eq_some.mp hafter
    rw [(hreached past reached hpast hrun).principals before hstored,
      hfinal.1.principals after hstored']
    exact congrArg groups (hid.trans hid'.symm)
  · intro task answers query page htask shown hshown answers' request provider resolved hstart
      hreference hprovider hresolved
    obtain ⟨_, heq, hpage⟩ := hfinal.2 task _ _ htask
    cases heq
    have hrequest : final.requestOf task = some (.search answers query) := by
      rw [Pool.requestOf, htask]
      rfl
    have hsearch := Pool.requestOf_started hrun hrequest
    have hmarks := (subjectOf_search hpage shown hshown).marks fun _ => hunmarked _ hsearch
    have hresolve := Connector.resolve_marks (hunmarked _ hstart) hprovider hresolved
    rw [← hresolve, ← hmarks, hreference]
    rfl

end

/-! A group that is deleted, and a user whose identifier has its mark. -/

namespace MarkedUser

def connector : Connector := .scim ⟨"hr", "hr.example"⟩

def group : ScimGroupResource where
  schemas := [groupSchema]
  id := none
  externalId := some "ops"
  displayName := "operations"
  members := []
  metadata := none
  attributes := .empty

def user (externalId : String) : ScimUserResource where
  schemas := [userSchema]
  id := none
  externalId := some externalId
  userName := "ada"
  displayName := none
  active := none
  emails := []
  metadata := none
  attributes := .empty

/-- The group is created. -/
def created : List ProviderEvent :=
  [.start (.scim (.create (.group group) [1]))] ++ List.replicate 5 (.resume 0 (.answered 0))

/-- Then it is deleted, and the user is created. -/
def events (externalId : String) : List ProviderEvent :=
  created ++ ([.start (.scim (.delete "P_AQ" .group))] ++
    List.replicate 5 (.resume 1 (.answered 0)) ++
    [.start (.scim (.create (.user (user externalId)) [2]))] ++
    List.replicate 5 (.resume 2 (.answered 0)))

abbrev run (events : List ProviderEvent) : Option ProviderPool :=
  Runs.run (connector.step .sqlite) (Pool.idle .empty) events

theorem started {externalId : String} {request : ProviderRequest}
    (h : .start request ∈ events externalId) :
    request = .scim (.create (.group group) [1]) ∨ request = .scim (.delete "P_AQ" .group) ∨
      request = .scim (.create (.user (user externalId)) [2]) := by
  simpa [events, created] using h

theorem events_parsed {externalId : String} {request : ScimRequest}
    (h : .start (.scim request) ∈ events externalId) : request.Parsed := by
  obtain heq | heq | heq := started h
  · cases heq
    exact ⟨group.toObject, rfl⟩
  · cases heq
    trivial
  · cases heq
    exact ⟨(user externalId).toObject, ScimUserResource.fromObject_toObject fun _ _ => rfl⟩

/-- Whether the principal of the group is one of a group. -/
def groupKept (pool : ProviderPool) : Option Bool :=
  (pool.store.principals.find "P_AQ").map (·.kind.isGroup)

/-- The user takes over the principal of the group. -/
theorem marked_user_takes_over : ∃ final, run (events "group:ops") = some final ∧
    (∀ request, .start (.scim request) ∈ events "group:ops" → request.Parsed) ∧
    ¬connector.KindsApart .sqlite .empty (events "group:ops") final := by
  have hcreated : (run created).any (fun reached => groupKept reached = some true) = true := by
    decide +kernel
  have hrun : (run (events "group:ops")).any (fun final => groupKept final = some false) = true := by
    decide +kernel
  obtain ⟨reached, hreached, hgroup⟩ := (Option.any_eq_true _ _).mp hcreated
  obtain ⟨final, hfinal, huser⟩ := (Option.any_eq_true _ _).mp hrun
  obtain ⟨before, hbefore, hbeforeKind⟩ := Option.map_eq_some_iff.mp (of_decide_eq_true hgroup)
  obtain ⟨after, hafter, hafterKind⟩ := Option.map_eq_some_iff.mp (of_decide_eq_true huser)
  refine ⟨final, hfinal, fun _ => events_parsed, fun hapart => ?_⟩
  have hkept := hapart.keeps created reached (List.prefix_append _ _) hreached "P_AQ" before after
    hbefore hafter
  rw [hbeforeKind, hafterKind] at hkept
  cases hkept

/-- A user with the identifier of the group has a principal of its own. -/
theorem plain_user_apart : ∃ final, run (events "ops") = some final ∧
    final.store.principals.rows.length = 2 ∧
    connector.KindsApart .sqlite .empty (events "ops") final := by
  have hrun : (run (events "ops")).any (fun final =>
      final.store.principals.rows.length = 2) = true := by decide +kernel
  obtain ⟨final, hfinal, hlength⟩ := (Option.any_eq_true _ _).mp hrun
  refine ⟨final, hfinal, of_decide_eq_true hlength, ?_⟩
  refine kinds_apart (fun _ => events_parsed) ⟨?_, (· = "P_AQ"), ?_, ?_⟩ hfinal
  · intro request hstart kind id hsource huser
    obtain rfl | rfl | rfl := started hstart
    · cases hsource with
      | submitted hresource hid =>
          cases hresource
          cases huser
    · cases hsource with
      | submitted hresource hid => cases hresource
    · cases hsource with
      | submitted hresource hid =>
          cases hresource
          cases hid
          decide +kernel
  · exact ⟨fun _ h => absurd h List.not_mem_nil, fun _ h => absurd h List.not_mem_nil,
      fun _ h => absurd h List.not_mem_nil⟩
  · intro request hstart kind externalId id hsource hid
    obtain rfl | rfl | rfl := started hstart
    · cases hsource with
      | submitted hresource _ =>
          cases hresource
          cases hid
          decide +kernel
    · cases hid
    · cases hsource with
      | submitted hresource _ =>
          cases hresource
          cases hid
          decide +kernel

end MarkedUser

end Authguard
