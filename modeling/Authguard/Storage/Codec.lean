import Authguard.Library.Json
import Authguard.Common.Role

/-!
JSON columns of the policy tables: the derived serializers of route matchers and
binding conditions (`common/src/model/role.rs`, `common/src/utils/context.rs`).
Keys stand in the order of a `serde_json` object.
-/

namespace Authguard
open Json

def HttpRouteMatcher.toJson (routeMatcher : HttpRouteMatcher) : Json :=
  .object (List.flatten
    [field "hosts" false (strings routeMatcher.hosts),
      field "id" false (.string routeMatcher.id),
      field "methods" false (strings routeMatcher.methods),
      field "parent_urns" false (strings routeMatcher.parentUrns),
      field "path" false (.string routeMatcher.path),
      field "resource_urn" false (.string routeMatcher.resourceUrn)])

def HttpRouteMatcher.fromJson (json : Json) : Option HttpRouteMatcher := do
  let fields ← json.asObject
  let id ← required toStr "id" fields
  let methods ← withDefault (toList toStr) [] "methods" fields
  let hosts ← withDefault (toList toStr) [] "hosts" fields
  let path ← required toStr "path" fields
  let resourceUrn ← required toStr "resource_urn" fields
  let parentUrns ← withDefault (toList toStr) [] "parent_urns" fields
  some { id, methods, hosts, path, resourceUrn, parentUrns }

def SourceIpConditionSpec.toJson (spec : SourceIpConditionSpec) : Json :=
  .object (List.flatten
    [field "inCidr" spec.inCidr.isEmpty (strings spec.inCidr),
      field "notInCidr" spec.notInCidr.isEmpty (strings spec.notInCidr)])

def SourceIpConditionSpec.fromJson (json : Json) : Option SourceIpConditionSpec := do
  let fields ← json.asObject
  let inCidr ← withDefault (toList toStr) [] "inCidr" fields
  let notInCidr ← withDefault (toList toStr) [] "notInCidr" fields
  some { inCidr, notInCidr }

def RequestConditionSpec.isEmpty (spec : RequestConditionSpec) : Bool :=
  spec.methods.isEmpty && spec.secureTransport.isNone

def RequestConditionSpec.toJson (spec : RequestConditionSpec) : Json :=
  .object (List.flatten
    [field "methods" spec.methods.isEmpty (strings spec.methods),
      field "secureTransport" spec.secureTransport.isNone
        (optionJson .bool spec.secureTransport)])

def RequestConditionSpec.fromJson (json : Json) : Option RequestConditionSpec := do
  let fields ← json.asObject
  let methods ← withDefault (toList toStr) [] "methods" fields
  let secureTransport ← withDefault (toOption toBool) none "secureTransport" fields
  some { methods, secureTransport }

def SubjectConditionSpec.isEmpty (spec : SubjectConditionSpec) : Bool :=
  spec.mfa.isNone && spec.claims.isEmpty

def claimsJson (claims : StringMap) : Json :=
  .object (claims.entries.map fun claim => (claim.1, .string claim.2))

def claimsFromJson (json : Json) : Option StringMap := do
  let fields ← json.asObject
  let entries ← all (fun entry : String × Json => entry.2.toStr.map fun value => (entry.1, value))
    fields
  some (SortedMap.ofList entries)

def SubjectConditionSpec.toJson (spec : SubjectConditionSpec) : Json :=
  .object (List.flatten
    [field "claims" spec.claims.isEmpty (claimsJson spec.claims),
      field "mfa" spec.mfa.isNone (optionJson .bool spec.mfa)])

def SubjectConditionSpec.fromJson (json : Json) : Option SubjectConditionSpec := do
  let fields ← json.asObject
  let mfa ← withDefault (toOption toBool) none "mfa" fields
  let claims ← withDefault claimsFromJson SortedMap.empty "claims" fields
  some { mfa, claims }

def AuthorizationConditionSpec.toJson (spec : AuthorizationConditionSpec) : Json :=
  .object (List.flatten
    [field "request" spec.request.isEmpty spec.request.toJson,
      field "sourceIp" spec.sourceIp.isNone
        (optionJson SourceIpConditionSpec.toJson spec.sourceIp),
      field "subject" spec.subject.isEmpty spec.subject.toJson])

def AuthorizationConditionSpec.fromJson (json : Json) : Option AuthorizationConditionSpec := do
  let fields ← json.asObject
  let sourceIp ← withDefault (toOption SourceIpConditionSpec.fromJson) none "sourceIp" fields
  let request ← withDefault RequestConditionSpec.fromJson {} "request" fields
  let subject ← withDefault SubjectConditionSpec.fromJson {} "subject" fields
  some { sourceIp, request, subject }

/-! Reading back what was written. -/

theorem HttpRouteMatcher.fromJson_toJson (routeMatcher : HttpRouteMatcher) :
    fromJson routeMatcher.toJson = some routeMatcher := by
  simp only [fromJson, toJson, asObject, List.flatten_cons, List.flatten_nil, withDefault_field,
    withDefault_field_ne, required_field, required_field_ne, toList_strings, toStr,
    Option.bind_eq_bind, Option.bind_some, ne_eq, String.reduceEq, not_false_eq_true,
    Bool.false_eq_true, ite_false]

theorem SourceIpConditionSpec.fromJson_toJson (spec : SourceIpConditionSpec) :
    fromJson spec.toJson = some spec := by
  have hstrings : ∀ values : List String,
      (if values.isEmpty then some [] else toList toStr (strings values)) = some values :=
    fun values => read_skipped (fun h => (List.isEmpty_iff.mp h).symm) (toList_strings values)
  simp only [fromJson, toJson, asObject, List.flatten_cons, List.flatten_nil, withDefault_field,
    withDefault_field_ne, withDefault_nil, hstrings, Option.bind_eq_bind, Option.bind_some,
    ne_eq, String.reduceEq, not_false_eq_true]

theorem RequestConditionSpec.fromJson_toJson (spec : RequestConditionSpec) :
    fromJson spec.toJson = some spec := by
  have hmethods : (if spec.methods.isEmpty then some []
      else toList toStr (strings spec.methods)) = some spec.methods :=
    read_skipped (fun h => (List.isEmpty_iff.mp h).symm) (toList_strings spec.methods)
  have htransport := read_skipped_option toBool .bool spec.secureTransport fun _ => rfl
  simp only [fromJson, toJson, asObject, List.flatten_cons, List.flatten_nil, withDefault_field,
    withDefault_field_ne, withDefault_nil, hmethods, htransport, Option.bind_eq_bind,
    Option.bind_some, ne_eq, String.reduceEq, not_false_eq_true]

theorem claimsFromJson_claimsJson (claims : StringMap) :
    claimsFromJson (claimsJson claims) = some claims := by
  have hentries := all_map
    (fun entry : String × Json => entry.2.toStr.map fun value => (entry.1, value))
    (fun claim : String × String => (claim.1, Json.string claim.2)) (fun _ => rfl)
    claims.entries
  simp only [claimsFromJson, claimsJson, asObject, Option.bind_eq_bind, Option.bind_some,
    hentries, SortedMap.ofList_entries]

theorem SubjectConditionSpec.fromJson_toJson (spec : SubjectConditionSpec) :
    fromJson spec.toJson = some spec := by
  have hclaims : (if spec.claims.isEmpty then some SortedMap.empty
      else claimsFromJson (claimsJson spec.claims)) = some spec.claims := by
    refine read_skipped ?_ (claimsFromJson_claimsJson spec.claims)
    intro hempty
    exact SortedMap.ext_entries (List.isEmpty_iff.mp hempty).symm
  have hmfa := read_skipped_option toBool .bool spec.mfa fun _ => rfl
  simp only [fromJson, toJson, asObject, List.flatten_cons, List.flatten_nil, withDefault_field,
    withDefault_field_ne, withDefault_nil, hclaims, hmfa, Option.bind_eq_bind,
    Option.bind_some, ne_eq, String.reduceEq, not_false_eq_true]

theorem RequestConditionSpec.eq_default {spec : RequestConditionSpec}
    (h : spec.isEmpty = true) : {} = spec := by
  cases spec
  simp_all [RequestConditionSpec.isEmpty]

theorem SubjectConditionSpec.eq_default {spec : SubjectConditionSpec}
    (h : spec.isEmpty = true) : {} = spec := by
  obtain ⟨mfa, claims⟩ := spec
  simp only [SubjectConditionSpec.isEmpty, Bool.and_eq_true, Option.isNone_iff_eq_none] at h
  have hclaims : SortedMap.empty = claims :=
    SortedMap.ext_entries (List.isEmpty_iff.mp h.2).symm
  rw [h.1, hclaims]

theorem AuthorizationConditionSpec.fromJson_toJson (spec : AuthorizationConditionSpec) :
    fromJson spec.toJson = some spec := by
  have hsome : ∀ s : SourceIpConditionSpec,
      toOption SourceIpConditionSpec.fromJson s.toJson = some (some s) := by
    intro s
    exact congrArg (Option.map some) s.fromJson_toJson
  have hsource := read_skipped_option _ _ spec.sourceIp hsome
  have hrequest := read_skipped RequestConditionSpec.eq_default
    spec.request.fromJson_toJson
  have hsubject := read_skipped SubjectConditionSpec.eq_default
    spec.subject.fromJson_toJson
  simp only [fromJson, toJson, asObject, List.flatten_cons, List.flatten_nil, withDefault_field,
    withDefault_field_ne, withDefault_nil, hsource, hrequest, hsubject, Option.bind_eq_bind,
    Option.bind_some, ne_eq, String.reduceEq, not_false_eq_true]

end Authguard
