import Authguard.Metatheory.ScimRoundTrip

/-!
PATCH operations on attributes of several values. The rule of RFC 7644 keeps the
values an attribute has when it adds others; the operation that is applied sets the
attribute, so that an addition keeps just the values it gives again.
-/

namespace Authguard

/-! The rule. -/

def multiValued : List String := ["emails", "members"]

/-- The values of an attribute: those of an array, or the one that stands for itself. -/
def valuesOf : Option Json → List Json
  | none | some .null => []
  | some (.array items) => items
  | some value => [value]

/-- What an operation makes of the attribute it names. -/
def ruleValue (name : String) (held : Option Json) (operation : ScimPatchOperation) : Option Json :=
  match operation.op with
  | .remove => none
  | .replace => some operation.value
  | .add =>
      if name ∈ multiValued then some (.array (valuesOf held ++ valuesOf (some operation.value)))
      else some operation.value

/-- What the operations make of an attribute, one after the other. -/
def ruleResult (object : JsonMap) (operations : List ScimPatchOperation) (name : String) :
    Option Json :=
  operations.foldl
    (fun held operation =>
      if operation.path = some name then ruleValue name held operation else held)
    (object.get name)

/-- A value of several as the resource keeps it. -/
def normalValue (kind : PrincipalKind) (name : String) (value : Json) : Json :=
  match kind, name with
  | .user, "emails" => ((ScimEmail.fromJson value).map ScimEmail.toJson).getD value
  | .group, "members" => ((ScimGroupMember.fromJson value).map ScimGroupMember.toJson).getD value
  | _, _ => value

def ScimResource.ofObject (kind : PrincipalKind) (object : JsonMap) : Option ScimResource :=
  match kind with
  | .user => (ScimUserResource.fromObject object).map .user
  | .group => (ScimGroupResource.fromObject object).map .group
  | .workload => none

/-- The patched resource is what the rule makes of it: read from an object with the attributes
of the rule, and with the same values where an attribute has several. -/
structure FollowsRule (resource : ScimResource) (operations : List ScimPatchOperation)
    (patched : ScimResource) : Prop where
  single : ∃ object, ScimResource.ofObject resource.kind object = some patched ∧
    ∀ name ∉ multiValued, object.get name = ruleResult resource.toObject operations name
  several : ∀ name ∈ multiValued, ∀ value,
    value ∈ valuesOf (patched.toObject.get name) ↔
      value ∈ (valuesOf (ruleResult resource.toObject operations name)).map
        (normalValue resource.kind name)

/-- The last operation on an attribute of several values, where it adds, gives again all the
values the attribute has by then. -/
def AddsRepeat (resource : ScimResource) (operations : List ScimPatchOperation) : Prop :=
  ∀ name ∈ multiValued, ∀ before last after, operations = before ++ last :: after →
    last.path = some name → last.op = .add → (∀ operation ∈ after, operation.path ≠ some name) →
      ∀ value ∈ valuesOf (ruleResult resource.toObject before name),
        ∃ given ∈ valuesOf (some last.value),
          normalValue resource.kind name given = normalValue resource.kind name value

/-! One attribute. -/

section
variable {name : String} {object patched : JsonMap} {operations before after : List ScimPatchOperation}
  {last : ScimPatchOperation}

theorem ruleResult_untouched (h : ∀ operation ∈ operations, operation.path ≠ some name) :
    ruleResult object operations name = object.get name := by
  rw [ruleResult]
  induction operations with
  | nil => rfl
  | cons operation operations ih =>
      obtain ⟨hfirst, hrest⟩ := List.forall_mem_cons.mp h
      rw [List.foldl_cons, if_neg hfirst]
      exact ih hrest

theorem ruleResult_append :
    ruleResult object (before ++ after) name =
      after.foldl (fun held operation =>
        if operation.path = some name then ruleValue name held operation else held)
        (ruleResult object before name) := by
  rw [ruleResult, List.foldl_append, ruleResult]

theorem ruleResult_last (hlast : last.path = some name)
    (hafter : ∀ operation ∈ after, operation.path ≠ some name) :
    ruleResult object (before ++ last :: after) name =
      ruleValue name (ruleResult object before name) last := by
  rw [ruleResult_append, List.foldl_cons, if_pos hlast]
  induction after with
  | nil => rfl
  | cons operation operations ih =>
      obtain ⟨hfirst, hrest⟩ := List.forall_mem_cons.mp hafter
      rw [List.foldl_cons, if_neg hfirst]
      exact ih hrest

theorem applyPatchOperation_named (h : applyPatchOperation object last = .ok patched)
    (hlast : last.path = some name) :
    patched.get name = if last.op = .remove then none else some last.value := by
  rw [applyPatchOperation, hlast] at h
  simp only at h
  split at h
  · cases hop : last.op with
    | remove =>
        rw [hop] at h
        cases h
        rw [SortedMap.get_erase, if_pos rfl, if_pos rfl]
    | add | replace =>
        rw [hop] at h
        cases h
        rw [SortedMap.get_insert, if_pos rfl]
        rfl
  · cases h

/-- The last operation on an attribute leaves its own value there. -/
theorem foldlM_applyPatchOperation_last
    (h : (before ++ last :: after).foldlM applyPatchOperation object = .ok patched)
    (hlast : last.path = some name)
    (hafter : ∀ operation ∈ after, operation.path ≠ some name) :
    patched.get name = if last.op = .remove then none else some last.value := by
  rw [List.foldlM_append] at h
  obtain ⟨middle, -, h⟩ := Result.bind_ok_iff.mp h
  rw [List.foldlM_cons] at h
  obtain ⟨next, hnext, h⟩ := Result.bind_ok_iff.mp h
  rw [foldlM_applyPatchOperation_get h hafter, applyPatchOperation_named hnext hlast]

/-- An attribute is named by no operation, or by a last one. -/
theorem last_operation (name : String) (operations : List ScimPatchOperation) :
    (∀ operation ∈ operations, operation.path ≠ some name) ∨
      ∃ before last after, operations = before ++ last :: after ∧ last.path = some name ∧
        ∀ operation ∈ after, operation.path ≠ some name := by
  induction operations with
  | nil => exact .inl fun operation h => absurd h List.not_mem_nil
  | cons first operations ih =>
      obtain hnone | ⟨before, last, after, hsplit, hlast, hafter⟩ := ih
      · by_cases hfirst : first.path = some name
        · exact .inr ⟨[], first, operations, rfl, hfirst, hnone⟩
        · exact .inl (List.forall_mem_cons.mpr ⟨hfirst, hnone⟩)
      · exact .inr ⟨first :: before, last, after, by rw [hsplit, List.cons_append], hlast, hafter⟩

/-- Attributes of one value are set as the rule has it. -/
theorem foldlM_applyPatchOperation_single
    (h : operations.foldlM applyPatchOperation object = .ok patched) (hname : name ∉ multiValued) :
    patched.get name = ruleResult object operations name := by
  obtain hnone | ⟨before, last, after, rfl, hlast, hafter⟩ := last_operation name operations
  · rw [foldlM_applyPatchOperation_get h hnone, ruleResult_untouched hnone]
  · rw [foldlM_applyPatchOperation_last h hlast hafter, ruleResult_last hlast hafter, ruleValue]
    cases last.op with
    | remove | replace => rfl
    | add => exact (if_neg hname).symm

end

/-! The values of the patched resource. -/

section
variable {α : Type} {read : Json → Option α} {write : α → Json}

/-- A value as it is read and written again. -/
def rewritten (read : Json → Option α) (write : α → Json) (value : Json) : Json :=
  ((read value).map write).getD value

theorem map_write_of_all {items : List Json} {values : List α}
    (h : Json.all read items = some values) : values.map write = items.map (rewritten read write) := by
  induction items generalizing values with
  | nil =>
      cases h
      rfl
  | cons item items ih =>
      simp only [Json.all, Option.bind_eq_bind, Option.bind_eq_some_iff, Option.some.injEq] at h
      obtain ⟨first, hfirst, rest, hrest, rfl⟩ := h
      rw [List.map_cons, List.map_cons, ih hrest, rewritten, hfirst]
      rfl

theorem map_write_of_read {fields : List (String × Json)} {name : String} {values : List α}
    (h : Json.withDefault (Json.toList read) [] name fields = some values) :
    values.map write = (valuesOf (fields.lookup name)).map (rewritten read write) := by
  rw [Json.withDefault] at h
  split at h
  · rename_i habsent
    cases h
    rw [habsent]
    rfl
  · rename_i value hvalue
    rw [hvalue]
    cases value with
    | array items => exact map_write_of_all h
    | null | bool _ | number _ | string _ | object _ => cases h

end

theorem ScimUserResource.emails_of_fromObject {object : JsonMap} {resource : ScimUserResource}
    (h : fromObject object = some resource) :
    Json.withDefault (Json.toList ScimEmail.fromJson) [] "emails" object.entries =
      some resource.emails := by
  simp only [fromObject, Option.bind_eq_bind, Option.bind_eq_some_iff, Option.some.injEq] at h
  obtain ⟨schemas, -, id, -, externalId, -, userName, -, displayName, -, active, -,
    emails, hemails, metadata, -, rfl⟩ := h
  exact hemails

theorem ScimGroupResource.members_of_fromObject {object : JsonMap} {resource : ScimGroupResource}
    (h : fromObject object = some resource) :
    Json.withDefault (Json.toList ScimGroupMember.fromJson) [] "members" object.entries =
      some resource.members := by
  simp only [fromObject, Option.bind_eq_bind, Option.bind_eq_some_iff, Option.some.injEq] at h
  obtain ⟨schemas, -, id, -, externalId, -, displayName, -, members, hmembers, metadata, -, rfl⟩ := h
  exact hmembers

theorem lookup_field (name : String) (skip : Bool) (value : Json) (fields : List (String × Json)) :
    (Json.field name skip value ++ fields).lookup name =
      if skip then fields.lookup name else some value := by
  cases skip with
  | true => rfl
  | false => exact List.lookup_cons_self

theorem valuesOf_items {α : Type} (write : α → Json) (items : List α) :
    valuesOf (if items.isEmpty then none else some (.array (items.map write))) =
      items.map write := by
  cases items with
  | nil | cons item items => rfl

theorem ScimUserResource.toObject_emails {resource : ScimUserResource}
    (hfree : FreeOf fieldNames resource.attributes) :
    valuesOf (resource.toObject.get "emails") = resource.emails.map ScimEmail.toJson := by
  have habsent : resource.attributes.entries.lookup "emails" = none := hfree "emails" (by decide)
  rw [toObject_eq, SortedMap.get_ofList (nodup_toObject hfree), ← valuesOf_items]
  simp [writtenFields, optionalField, List.append_assoc, Json.lookup_field_ne, lookup_field,
    habsent]

theorem ScimGroupResource.toObject_members {resource : ScimGroupResource}
    (hfree : FreeOf fieldNames resource.attributes) :
    valuesOf (resource.toObject.get "members") = resource.members.map ScimGroupMember.toJson := by
  have habsent : resource.attributes.entries.lookup "members" = none := hfree "members" (by decide)
  rw [toObject_eq, SortedMap.get_ofList (nodup_toObject hfree), ← valuesOf_items]
  simp [writtenFields, optionalField, List.append_assoc, Json.lookup_field_ne, lookup_field,
    habsent]

/-- An attribute beside the fields stays as it was read. -/
theorem get_written {names : List String} (hnames : names.Nodup) {fields : List (String × Json)}
    (hfields : (fields.map Prod.fst).Sublist names) {object : JsonMap} {name : String}
    (hname : name ∉ names) :
    (SortedMap.ofList (fields ++ (flattened names object).entries)).get name = object.get name := by
  have hwritten : fields.lookup name = none := by
    rw [List.lookup_eq_none_iff]
    intro entry hentry
    rw [bne_iff_ne]
    rintro rfl
    exact hname (hfields.subset (List.mem_map_of_mem hentry))
  rw [SortedMap.get_ofList (nodup_written hnames hfields (freeOf_flattened _ _)),
    List.lookup_append, hwritten, Option.none_or]
  exact (get_flattened names object name).trans (if_neg hname)

theorem ScimUserResource.toObject_other {object : JsonMap} {resource : ScimUserResource}
    (h : fromObject object = some resource) {name : String} (hname : name ∉ fieldNames) :
    resource.toObject.get name = object.get name := by
  rw [toObject_eq, (of_fromObject h).2]
  exact get_written (by decide) resource.writtenFields_keys hname

theorem ScimGroupResource.toObject_other {object : JsonMap} {resource : ScimGroupResource}
    (h : fromObject object = some resource) {name : String} (hname : name ∉ fieldNames) :
    resource.toObject.get name = object.get name := by
  rw [toObject_eq, of_fromObject h]
  exact get_written (by decide) resource.writtenFields_keys hname

/-- The values of a resource are those of the object it was read from, as it keeps them. -/
theorem valuesOf_ofObject {kind : PrincipalKind} {object : JsonMap} {resource : ScimResource}
    (h : ScimResource.ofObject kind object = some resource) {name : String}
    (hname : name ∈ multiValued) :
    valuesOf (resource.toObject.get name) =
      (valuesOf (object.get name)).map (normalValue kind name) := by
  have hnames : name = "emails" ∨ name = "members" := by simpa [multiValued] using hname
  cases kind with
  | user =>
      obtain ⟨user, huser, rfl⟩ := Option.map_eq_some_iff.mp h
      obtain rfl | rfl := hnames
      · have hfree : FreeOf ScimUserResource.fieldNames user.attributes :=
          @ScimResource.Parsed.separate (.user user) ⟨object, huser⟩
        rw [ScimResource.toObject, ScimUserResource.toObject_emails hfree]
        exact map_write_of_read (ScimUserResource.emails_of_fromObject huser)
      · rw [ScimResource.toObject, ScimUserResource.toObject_other huser (by decide)]
        exact (List.map_id _).symm
  | group =>
      obtain ⟨group, hgroup, rfl⟩ := Option.map_eq_some_iff.mp h
      obtain rfl | rfl := hnames
      · rw [ScimResource.toObject, ScimGroupResource.toObject_other hgroup (by decide)]
        exact (List.map_id _).symm
      · have hfree : FreeOf ScimGroupResource.fieldNames group.attributes :=
          @ScimResource.Parsed.separate (.group group) ⟨object, hgroup⟩
        rw [ScimResource.toObject, ScimGroupResource.toObject_members hfree]
        exact map_write_of_read (ScimGroupResource.members_of_fromObject hgroup)
  | workload => cases h

/-! The result. -/

theorem patch_ofObject {resource patched : ScimResource} {request : ScimPatchRequest}
    (h : ScimPrincipalDiscovery.patch resource request = .ok patched) :
    ∃ object, request.operations.foldlM applyPatchOperation resource.toObject = .ok object ∧
      ScimResource.ofObject resource.kind object = some patched := by
  simp only [ScimPrincipalDiscovery.patch] at h
  split at h
  · cases h
  · cases resource with
    | user resource =>
        obtain ⟨object, hobject, hread⟩ := Result.bind_ok_iff.mp h
        split at hread
        · cases hread
        · rename_i read hfields
          cases hread
          exact ⟨object, hobject, congrArg (Option.map ScimResource.user) hfields⟩
    | group resource =>
        obtain ⟨object, hobject, hread⟩ := Result.bind_ok_iff.mp h
        split at hread
        · cases hread
        · rename_i read hfields
          cases hread
          exact ⟨object, hobject, congrArg (Option.map ScimResource.group) hfields⟩

section
variable {kind : PrincipalKind} {name : String} {object patched : JsonMap}
  {before after : List ScimPatchOperation} {last : ScimPatchOperation}

/-- An attribute of several values has those of the rule, unless the last operation on it adds
and does not give all the others again. -/
theorem same_values_iff (hname : name ∈ multiValued) (normal : Json → Json)
    (h : (before ++ last :: after).foldlM applyPatchOperation object = .ok patched)
    (hlast : last.path = some name) (hafter : ∀ operation ∈ after, operation.path ≠ some name) :
    (∀ value, value ∈ (valuesOf (patched.get name)).map normal ↔
        value ∈ (valuesOf (ruleResult object (before ++ last :: after) name)).map normal) ↔
      (last.op = .add → ∀ value ∈ valuesOf (ruleResult object before name),
        ∃ given ∈ valuesOf (some last.value), normal given = normal value) := by
  rw [foldlM_applyPatchOperation_last h hlast hafter, ruleResult_last hlast hafter, ruleValue]
  cases hop : last.op with
  | remove | replace => simp
  | add =>
      simp only [if_pos hname, reduceCtorEq, if_false, forall_const]
      change (∀ value, _ ↔ value ∈ (valuesOf _ ++ valuesOf _).map normal) ↔ _
      simp only [List.map_append, List.mem_append, List.mem_map]
      constructor
      · intro hsame value hvalue
        exact (hsame (normal value)).mpr (.inl ⟨value, hvalue, rfl⟩)
      · intro hrepeat value
        constructor
        · exact Or.inr
        · rintro (⟨held, hheld, rfl⟩ | hgiven)
          · exact hrepeat held hheld
          · exact hgiven

end

/-- An accepted PATCH follows the rule exactly where its additions repeat what is there. -/
theorem patch_follows_rule_iff {resource patched : ScimResource} {request : ScimPatchRequest}
    (h : ScimPrincipalDiscovery.patch resource request = .ok patched) :
    FollowsRule resource request.operations patched ↔ AddsRepeat resource request.operations := by
  obtain ⟨object, hobject, hread⟩ := patch_ofObject h
  have hvalues := fun name (hname : name ∈ multiValued) => valuesOf_ofObject hread hname
  constructor
  · intro hrule name hname before last after hsplit hlast hadd hafter
    rw [hsplit] at hobject
    have hsame := hrule.several name hname
    rw [hvalues name hname, hsplit] at hsame
    exact (same_values_iff hname _ hobject hlast hafter).mp hsame hadd
  · intro hrepeat
    refine ⟨⟨object, hread, fun name hname => foldlM_applyPatchOperation_single hobject hname⟩, ?_⟩
    intro name hname
    rw [hvalues name hname]
    obtain hnone | ⟨before, last, after, hsplit, hlast, hafter⟩ :=
      last_operation name request.operations
    · rw [foldlM_applyPatchOperation_get hobject hnone, ruleResult_untouched hnone]
      exact fun value => Iff.rfl
    · rw [hsplit] at hobject ⊢
      exact (same_values_iff hname _ hobject hlast hafter).mpr fun hadd =>
        hrepeat name hname before last after hsplit hlast hadd hafter

namespace Team

def team : ScimResource :=
  .group
    { schemas := [groupSchema]
      id := some "P_1"
      externalId := some "eng"
      displayName := "Engineering"
      members := [⟨"P_ada", none, none⟩]
      metadata := none
      attributes := .empty }

def member (id : String) : Json := .object [("value", .string id)]

def addMembers (ids : List String) : ScimPatchRequest where
  schemas := [patchSchema]
  operations := [⟨.add, some "members", .array (ids.map member)⟩]

def withMembers (ids : List String) : ScimResource :=
  .group
    { schemas := [groupSchema]
      id := some "P_1"
      externalId := some "eng"
      displayName := "Engineering"
      members := ids.map fun id => ⟨id, none, none⟩
      metadata := none
      attributes := .empty }

theorem repeated_added :
    ScimPrincipalDiscovery.patch team (addMembers ["P_ada", "P_bob"]) =
      .ok (withMembers ["P_ada", "P_bob"]) := rfl

theorem repeated_follows :
    FollowsRule team (addMembers ["P_ada", "P_bob"]).operations
      (withMembers ["P_ada", "P_bob"]) := by
  refine (patch_follows_rule_iff repeated_added).mpr ?_
  intro name hname before last after hsplit hlast hadd hafter value hvalue
  obtain rfl : before = [] := by
    have hlength : 1 = (before ++ last :: after).length := congrArg List.length hsplit
    rw [List.length_append, List.length_cons] at hlength
    exact List.length_eq_zero_iff.mp (by omega)
  obtain ⟨rfl, -⟩ := List.cons.inj hsplit
  obtain rfl : "members" = name := Option.some.inj hlast
  have hmembers : valuesOf (ruleResult team.toObject [] "members") = [member "P_ada"] := rfl
  rw [hmembers, List.mem_singleton] at hvalue
  exact ⟨member "P_ada", List.mem_cons_self, by rw [hvalue]⟩

/-- Who was a member is none any more when another is added. -/
theorem member_lost :
    ScimPrincipalDiscovery.patch team (addMembers ["P_bob"]) = .ok (withMembers ["P_bob"]) ∧
      ¬FollowsRule team (addMembers ["P_bob"]).operations (withMembers ["P_bob"]) := by
  refine ⟨rfl, fun hrule => ?_⟩
  have hheld : member "P_ada" ∈
      (valuesOf (ruleResult team.toObject (addMembers ["P_bob"]).operations "members")).map
        (normalValue .group "members") := .head _
  have hkept : member "P_ada" ∈ [member "P_bob"] :=
    (hrule.several "members" (by decide) (member "P_ada")).mpr hheld
  simp [member] at hkept

end Team

end Authguard
