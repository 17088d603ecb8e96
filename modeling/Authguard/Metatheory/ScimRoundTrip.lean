import Authguard.Authz.ScimProvisioning

/-!
SCIM resources through their JSON form. A resource that was read from an object
keeps in its attributes only what no field takes, so writing it and reading it
again gives it back, and a PATCH that leaves a field alone leaves what is read
from it.
-/

namespace Authguard

open Json

/-! Attributes beside the fields. -/

/-- The names of fields are not taken by attributes. -/
def FreeOf (names : List String) (attributes : JsonMap) : Prop :=
  ∀ name ∈ names, attributes.get name = none

theorem get_flattened (names : List String) (object : JsonMap) (name : String) :
    (flattened names object).get name = if name ∈ names then none else object.get name := by
  induction names generalizing object with
  | nil => simp [flattened]
  | cons first rest ih =>
      have hrest := ih (object.erase first)
      rw [flattened] at hrest
      rw [flattened, List.foldl_cons, hrest, SortedMap.get_erase]
      by_cases hfirst : name = first
      · simp [hfirst]
      · simp [hfirst]

theorem freeOf_flattened (names : List String) (object : JsonMap) :
    FreeOf names (flattened names object) := by
  intro name hname
  rw [get_flattened, if_pos hname]

section
variable {names : List String} {fields : List (String × Json)} {attributes : JsonMap}

theorem nodup_written (hnames : names.Nodup) (hfields : (fields.map Prod.fst).Sublist names)
    (hfree : FreeOf names attributes) : ((fields ++ attributes.entries).map Prod.fst).Nodup := by
  rw [List.map_append, List.nodup_append]
  refine ⟨hfields.nodup hnames, attributes.nodup_keys, ?_⟩
  rintro key hkey other hother rfl
  obtain ⟨⟨found, value⟩, hentry, rfl⟩ := List.mem_map.mp hother
  have habsent := hfree found (hfields.subset hkey)
  rw [SortedMap.mem_entries.mp hentry] at habsent
  cases habsent

/-- What is collected beside the fields of a written object are its attributes. -/
theorem flattened_written (hnames : names.Nodup)
    (hfields : (fields.map Prod.fst).Sublist names) (hfree : FreeOf names attributes) :
    flattened names (.ofList (fields ++ attributes.entries)) = attributes := by
  apply SortedMap.ext_get
  intro name
  rw [get_flattened]
  by_cases hname : name ∈ names
  · rw [if_pos hname, hfree name hname]
  · have habsent : fields.lookup name = none := by
      rw [List.lookup_eq_none_iff]
      intro entry hentry
      rw [bne_iff_ne]
      rintro rfl
      exact hname (hfields.subset (List.mem_map_of_mem hentry))
    rw [if_neg hname, SortedMap.get_ofList (nodup_written hnames hfields hfree),
      List.lookup_append, habsent, Option.none_or]
    rfl

end

/-! Values. -/

theorem ScimEmail.fromJson_toJson (email : ScimEmail) :
    ScimEmail.fromJson email.toJson = some email := rfl

theorem ScimMeta.fromJson_toJson (metadata : ScimMeta) :
    toOption ScimMeta.fromJson metadata.toJson = some (some metadata) := by
  obtain ⟨resourceType, created, lastModified, version, location⟩ := metadata
  cases created <;> cases lastModified <;> cases version <;> rfl

theorem ScimGroupMember.fromJson_toJson (member : ScimGroupMember) :
    ScimGroupMember.fromJson member.toJson = some member := by
  obtain ⟨value, reference, kind⟩ := member
  cases reference <;> cases kind <;> rfl

/-! Resources. -/

namespace ScimUserResource

variable (resource : ScimUserResource)

/-- What is written before the attributes. -/
def writtenFields : List (String × Json) :=
  field "schemas" false (strings resource.schemas) ++
    optionalField "id" .string resource.id ++
    optionalField "externalId" .string resource.externalId ++
    field "userName" false (.string resource.userName) ++
    optionalField "displayName" .string resource.displayName ++
    optionalField "active" .bool resource.active ++
    field "emails" resource.emails.isEmpty (.array (resource.emails.map ScimEmail.toJson)) ++
    optionalField "meta" ScimMeta.toJson resource.metadata

theorem toObject_eq :
    resource.toObject = .ofList (resource.writtenFields ++ resource.attributes.entries) := rfl

theorem writtenFields_keys : (resource.writtenFields.map Prod.fst).Sublist fieldNames := by
  simp only [writtenFields, List.map_append]
  exact (((((((field_keys _ _ _).append (field_keys _ _ _)).append (field_keys _ _ _)).append
    (field_keys _ _ _)).append (field_keys _ _ _)).append (field_keys _ _ _)).append
    (field_keys _ _ _)).append (field_keys _ _ _)

variable {resource} (hfree : FreeOf fieldNames resource.attributes)
include hfree

theorem nodup_toObject :
    ((resource.writtenFields ++ resource.attributes.entries).map Prod.fst).Nodup :=
  nodup_written (by decide) resource.writtenFields_keys hfree

theorem fromObject_toObject : fromObject resource.toObject = some resource := by
  have habsent : ∀ name ∈ fieldNames, resource.attributes.entries.lookup name = none := hfree
  simp only [fieldNames, List.forall_mem_cons] at habsent
  obtain ⟨hschemas, hid, hexternalId, huserName, hdisplayName, hactive, hemails, hmeta, -⟩ :=
    habsent
  rw [toObject_eq, fromObject]
  simp only [readOptional, withDefault_ofList (nodup_toObject hfree),
    required_ofList (nodup_toObject hfree),
    flattened_written (by decide) resource.writtenFields_keys hfree]
  simp [writtenFields, optionalField, List.append_assoc, withDefault_absent, toList_strings,
    toStr, read_optional toOption_string, read_optional toOption_bool,
    read_items ScimEmail.fromJson_toJson, read_optional ScimMeta.fromJson_toJson, *]

end ScimUserResource

namespace ScimGroupResource

variable (resource : ScimGroupResource)

/-- What is written before the attributes. -/
def writtenFields : List (String × Json) :=
  field "schemas" false (strings resource.schemas) ++
    optionalField "id" .string resource.id ++
    optionalField "externalId" .string resource.externalId ++
    field "displayName" false (.string resource.displayName) ++
    field "members" resource.members.isEmpty
      (.array (resource.members.map ScimGroupMember.toJson)) ++
    optionalField "meta" ScimMeta.toJson resource.metadata

theorem toObject_eq :
    resource.toObject = .ofList (resource.writtenFields ++ resource.attributes.entries) := rfl

theorem writtenFields_keys : (resource.writtenFields.map Prod.fst).Sublist fieldNames := by
  simp only [writtenFields, List.map_append]
  exact (((((field_keys _ _ _).append (field_keys _ _ _)).append (field_keys _ _ _)).append
    (field_keys _ _ _)).append (field_keys _ _ _)).append (field_keys _ _ _)

variable {resource} (hfree : FreeOf fieldNames resource.attributes)
include hfree

theorem nodup_toObject :
    ((resource.writtenFields ++ resource.attributes.entries).map Prod.fst).Nodup :=
  nodup_written (by decide) resource.writtenFields_keys hfree

theorem fromObject_toObject : fromObject resource.toObject = some resource := by
  have habsent : ∀ name ∈ fieldNames, resource.attributes.entries.lookup name = none := hfree
  simp only [fieldNames, List.forall_mem_cons] at habsent
  obtain ⟨hschemas, hid, hexternalId, hdisplayName, hmembers, hmeta, -⟩ := habsent
  rw [toObject_eq, fromObject]
  simp only [readOptional, withDefault_ofList (nodup_toObject hfree),
    required_ofList (nodup_toObject hfree),
    flattened_written (by decide) resource.writtenFields_keys hfree]
  simp [writtenFields, optionalField, List.append_assoc, withDefault_absent, toList_strings,
    toStr, read_optional toOption_string, read_items ScimGroupMember.fromJson_toJson,
    read_optional ScimMeta.fromJson_toJson, *]

end ScimGroupResource

/-! Reading. -/

theorem ScimUserResource.of_fromObject {object : JsonMap} {resource : ScimUserResource}
    (h : fromObject object = some resource) :
    readOptional Json.toBool "active" object.entries = some resource.active ∧
      resource.attributes = flattened fieldNames object := by
  simp only [fromObject, Option.bind_eq_bind, Option.bind_eq_some_iff, Option.some.injEq] at h
  obtain ⟨schemas, -, id, -, externalId, -, userName, -, displayName, -, active, hactive,
    emails, -, metadata, -, rfl⟩ := h
  exact ⟨hactive, rfl⟩

theorem ScimGroupResource.of_fromObject {object : JsonMap} {resource : ScimGroupResource}
    (h : fromObject object = some resource) :
    resource.attributes = flattened fieldNames object := by
  simp only [fromObject, Option.bind_eq_bind, Option.bind_eq_some_iff, Option.some.injEq] at h
  obtain ⟨schemas, -, id, -, externalId, -, displayName, -, members, -, metadata, -, rfl⟩ := h
  rfl

namespace ScimResource

/-- The resource of a request body. -/
def Parsed : ScimResource → Prop
  | .user resource => ∃ object, ScimUserResource.fromObject object = some resource
  | .group resource => ∃ object, ScimGroupResource.fromObject object = some resource

/-- No attribute takes the name of a field. -/
def Separate : ScimResource → Prop
  | .user resource => FreeOf ScimUserResource.fieldNames resource.attributes
  | .group resource => FreeOf ScimGroupResource.fieldNames resource.attributes

theorem Parsed.separate {resource : ScimResource} (h : resource.Parsed) : resource.Separate := by
  cases resource with
  | user resource =>
      obtain ⟨object, hobject⟩ := h
      rw [Separate, (ScimUserResource.of_fromObject hobject).2]
      exact freeOf_flattened _ _
  | group resource =>
      obtain ⟨object, hobject⟩ := h
      rw [Separate, ScimGroupResource.of_fromObject hobject]
      exact freeOf_flattened _ _

def id : ScimResource → Option String
  | .user resource => resource.id
  | .group resource => resource.id

/-- Without what the server supplies. -/
def submitted : ScimResource → ScimResource
  | .user resource => .user { resource with id := none, metadata := none }
  | .group resource => .group { resource with id := none, metadata := none }

/-- The subject the resource is bound to. -/
def subject : ScimResource → Option String
  | .user resource => resource.externalId
  | .group resource => resource.externalId.map fun externalId =>
      "group:" ++ groupExternalId externalId

def enabled : ScimResource → Bool
  | .user resource => resource.active.getD true
  | .group _ => true

/-- The resource as it is served under an identifier: completed with what only the server
knows, a flag that was left out being set. -/
def served (id : String) : ScimResource → ScimResource
  | .user resource =>
      .user
        { resource with
          id := some id
          schemas := withSchema userSchema resource.schemas
          active := some (resource.active.getD true)
          metadata := some (scimMeta "User" ("/scim/v2/Users/" ++ id)) }
  | .group resource =>
      .group
        { resource with
          id := some id
          schemas := withSchema groupSchema resource.schemas
          metadata := some (scimMeta "Group" ("/scim/v2/Groups/" ++ id)) }

end ScimResource

/-- The body of the request was parsed. -/
def ScimRequest.Parsed : ScimRequest → Prop
  | .create resource _ | .put _ resource _ => resource.Parsed
  | .patch _ _ _ _ | .delete _ _ => True

theorem objectOf_entries (object : JsonMap) : objectOf (.object object.entries) = some object :=
  congrArg some object.ofList_entries

/-- What was written is read back, for the principal that was written with it. -/
theorem restoreResource_submitted {resource : ScimResource} (h : resource.Separate)
    {principal : PrincipalRow} (hkind : principal.kind = resource.kind)
    (hstatus : principal.status = if resource.enabled then .active else .disabled) :
    ScimPrincipalDiscovery.restoreResource principal
      (.object resource.submitted.toObject.entries) = .ok (resource.served principal.id) := by
  have hflag : decide (principal.status = .active) = resource.enabled := by
    rw [hstatus]
    cases resource.enabled <;> rfl
  cases resource with
  | user resource =>
      have hread : ScimUserResource.fromObject
          { resource with id := none, metadata := none }.toObject =
            some { resource with id := none, metadata := none } :=
        ScimUserResource.fromObject_toObject h
      rw [ScimPrincipalDiscovery.restoreResource, hkind]
      simp only [ScimResource.kind, ScimResource.submitted, ScimResource.toObject,
        objectOf_entries, Option.bind_some, hread, hflag]
      rfl
  | group resource =>
      have hread : ScimGroupResource.fromObject
          { resource with id := none, metadata := none }.toObject =
            some { resource with id := none, metadata := none } :=
        ScimGroupResource.fromObject_toObject h
      rw [ScimPrincipalDiscovery.restoreResource, hkind]
      simp only [ScimResource.kind, ScimResource.submitted, ScimResource.toObject,
        objectOf_entries, Option.bind_some, hread]
      rfl

/-- A resource that is read has the identifier and the kind of its principal, its flag is the
status. -/
theorem restoreResource_eq_ok {principal : PrincipalRow} {claims : Json} {resource : ScimResource}
    (h : ScimPrincipalDiscovery.restoreResource principal claims = .ok resource) :
    resource.Separate ∧ resource.id = some principal.id ∧ resource.kind = principal.kind ∧
      ∀ user, resource = .user user → user.active = some (decide (principal.status = .active)) := by
  rw [ScimPrincipalDiscovery.restoreResource] at h
  split at h
  · split at h
    · cases h
    · rename_i hkind _ read hread
      obtain ⟨object, -, hobject⟩ := Option.bind_eq_some_iff.mp hread
      cases h
      refine ⟨?_, rfl, hkind.symm, ?_⟩
      · exact @ScimResource.Parsed.separate (.user read) ⟨object, hobject⟩
      · rintro user ⟨⟩
        rfl
  · split at h
    · cases h
    · rename_i hkind _ read hread
      obtain ⟨object, -, hobject⟩ := Option.bind_eq_some_iff.mp hread
      cases h
      refine ⟨?_, rfl, hkind.symm, nofun⟩
      exact @ScimResource.Parsed.separate (.group read) ⟨object, hobject⟩
  · cases h

/-! PATCH. -/

section
variable {name : String}

theorem applyPatchOperation_get {object patched : JsonMap} {operation : ScimPatchOperation}
    (h : applyPatchOperation object operation = .ok patched) (hpath : operation.path ≠ some name) :
    patched.get name = object.get name := by
  rw [applyPatchOperation] at h
  split at h
  · cases h
  · rename_i path hfound
    have hne : name ≠ path := fun heq => hpath (heq ▸ hfound)
    split at h
    · split at h
      all_goals
        cases h
        first
          | rw [SortedMap.get_erase, if_neg hne]
          | rw [SortedMap.get_insert, if_neg hne]
    · cases h

theorem foldlM_applyPatchOperation_get {operations : List ScimPatchOperation}
    {object patched : JsonMap} (h : operations.foldlM applyPatchOperation object = .ok patched)
    (hpath : ∀ operation ∈ operations, operation.path ≠ some name) :
    patched.get name = object.get name := by
  induction operations generalizing object with
  | nil =>
      cases h
      rfl
  | cons operation operations ih =>
      obtain ⟨hfirst, hrest⟩ := List.forall_mem_cons.mp hpath
      rw [List.foldlM_cons] at h
      cases hoperation : applyPatchOperation object operation with
      | error error =>
          rw [hoperation] at h
          cases h
      | ok next =>
          rw [hoperation] at h
          rw [ih h hrest, applyPatchOperation_get hoperation hfirst]

end

theorem ScimUserResource.toObject_active {resource : ScimUserResource}
    (hfree : FreeOf fieldNames resource.attributes) {flag : Bool}
    (hactive : resource.active = some flag) :
    resource.toObject.get "active" = some (.bool flag) := by
  rw [toObject_eq, SortedMap.get_ofList (nodup_toObject hfree)]
  simp [writtenFields, optionalField, List.append_assoc, lookup_field_ne, hactive]
  rfl

/-- A patched resource is the one read from the patched object. -/
theorem ScimPrincipalDiscovery.patch_user {current : ScimUserResource} {patched : ScimResource}
    {request : ScimPatchRequest}
    (h : ScimPrincipalDiscovery.patch (.user current) request = .ok patched) :
    ∃ object resource, patched = .user resource ∧
      request.operations.foldlM applyPatchOperation current.toObject = .ok object ∧
      ScimUserResource.fromObject object = some resource := by
  simp only [ScimPrincipalDiscovery.patch] at h
  split at h
  · cases h
  · obtain ⟨object, hobject, hread⟩ := Result.bind_ok_iff.mp h
    split at hread
    · cases hread
    · rename_i resource hresource
      cases hread
      exact ⟨object, resource, rfl, hobject, hresource⟩

theorem ScimPrincipalDiscovery.patch_group {current : ScimGroupResource} {patched : ScimResource}
    {request : ScimPatchRequest}
    (h : ScimPrincipalDiscovery.patch (.group current) request = .ok patched) :
    ∃ object resource, patched = .group resource ∧
      ScimGroupResource.fromObject object = some resource := by
  simp only [ScimPrincipalDiscovery.patch] at h
  split at h
  · cases h
  · obtain ⟨object, -, hread⟩ := Result.bind_ok_iff.mp h
    split at hread
    · cases hread
    · rename_i resource hresource
      cases hread
      exact ⟨object, resource, rfl, hresource⟩

theorem ScimPrincipalDiscovery.patch_eq_ok {current patched : ScimResource}
    {request : ScimPatchRequest}
    (h : ScimPrincipalDiscovery.patch current request = .ok patched) :
    patched.Parsed ∧ patched.kind = current.kind := by
  cases current with
  | user current =>
      obtain ⟨object, resource, rfl, -, hread⟩ := patch_user h
      exact ⟨⟨object, hread⟩, rfl⟩
  | group current =>
      obtain ⟨object, resource, rfl, hread⟩ := patch_group h
      exact ⟨⟨object, hread⟩, rfl⟩

/-- A PATCH that does not name the flag of a user leaves it. -/
theorem ScimPrincipalDiscovery.patch_enabled {current : ScimUserResource} {patched : ScimResource}
    {request : ScimPatchRequest} {flag : Bool}
    (h : ScimPrincipalDiscovery.patch (.user current) request = .ok patched)
    (hfree : FreeOf ScimUserResource.fieldNames current.attributes)
    (hactive : current.active = some flag)
    (hpath : ∀ operation ∈ request.operations, operation.path ≠ some "active") :
    patched.enabled = flag := by
  obtain ⟨object, resource, rfl, hobject, hread⟩ := patch_user h
  have hget : object.entries.lookup "active" = some (.bool flag) :=
    (foldlM_applyPatchOperation_get hobject hpath).trans
      (ScimUserResource.toObject_active hfree hactive)
  have hresource := (ScimUserResource.of_fromObject hread).1
  rw [readOptional, withDefault, hget] at hresource
  have hflag : some flag = resource.active := Option.some.inj hresource
  rw [ScimResource.enabled, ← hflag]
  rfl

end Authguard
