import Authguard.Adapter.AccessFilter
import Authguard.Metatheory.UpstreamHeaders
import Authguard.Metatheory.TokenReading

/-!
Direct and token delivery. Either way the workload ends up with the context of the
evaluation: signed in a header it verifies itself, or stored under a token that the
authorization service resolves for it, as long as the message it answers with is not too
long. Nothing else authenticates a request.
-/

namespace Authguard
open Text Result HttpHeader

/-- HMAC-SHA256 gives 32 bytes. -/
def Keys.Standard [Keys] : Prop :=
  ∀ text mac, Keys.hmac text = .ok mac → mac.length = 32

/-! Contexts on the wire. -/

def AccessContext.fields (context : AccessContext) : List (String × Json) :=
  context.toJson.asObject.getD []

theorem AccessContext.toJson_eq (context : AccessContext) :
    context.toJson = .object context.fields :=
  rfl

theorem AccessContext.fields_nodup (context : AccessContext) :
    (context.fields.map Prod.fst).Nodup := by
  change ["version", "principal_id", "action", "resource_urn", "allow_resource_urns",
    "deny_resource_urns", "policy_revision", "issued_at_epoch_seconds",
    "expires_at_epoch_seconds"].Nodup
  decide

/-- The fields may come back in any order. -/
theorem AccessContext.fromJson_perm {context : AccessContext} (hversion : context.version < 2 ^ 8)
    {read : List (String × Json)} (hperm : read.Perm context.fields) :
    AccessContext.fromJson (.object read) = some context := by
  have hlookup : ∀ name, read.lookup name = context.fields.lookup name :=
    SortedMap.lookup_perm hperm ((hperm.map Prod.fst).nodup_iff.mpr context.fields_nodup)
  have hfield : ∀ {α : Type} (parse : Json → Option α) (name : String) (value : Json),
      context.fields.lookup name = some value → Json.required parse name read = parse value := by
    intro α parse name value h
    rw [Json.required, hlookup, h, Option.bind_some]
  have hshort : (some context.version).filter (· < 2 ^ 8) = some context.version := by
    rw [Option.filter_some, if_pos (by simpa using hversion)]
  simp only [AccessContext.fromJson, Json.asObject, Option.bind_eq_bind, Option.bind_some,
    hfield Json.toU8 "version" (.ofNat context.version) rfl,
    hfield Json.toStr "principal_id" (.string context.principalId) rfl,
    hfield Json.toStr "action" (.string context.action) rfl,
    hfield Json.toStr "resource_urn" (.string context.resourceUrn) rfl,
    hfield (Json.toList Json.toStr) "allow_resource_urns" (.strings context.allowResourceUrns) rfl,
    hfield (Json.toList Json.toStr) "deny_resource_urns" (.strings context.denyResourceUrns) rfl,
    hfield Json.toU64 "policy_revision" (.ofNat context.policyRevision) rfl,
    hfield Json.toU64 "issued_at_epoch_seconds" (.ofNat context.issuedAtEpochSeconds) rfl,
    hfield Json.toU64 "expires_at_epoch_seconds" (.ofNat context.expiresAtEpochSeconds) rfl,
    Json.toU8, Json.toU64, Json.ofNat, Json.toStr, Json.toList_strings, hshort]

section
variable [Wire]

/-- Reading back what was written leaves only the check of the lifetime. -/
theorem AccessContext.decode_encode (hwire : Wire.Standard) {context : AccessContext}
    (hversion : context.version < 2 ^ 8) (hjson : Wire.KeepsObject context.fields)
    {encoded : String} (hencoded : context.encode = .ok encoded) :
    encoded ≠ "" ∧ '.' ∉ encoded.toList ∧ IsCompact encoded ∧
      ∀ now, context.validate now = .ok () → AccessContext.decode now encoded = .ok context := by
  obtain ⟨bytes, read, hwritten, hne, hread, hperm⟩ := hjson
  rw [AccessContext.encode, context.toJson_eq, hwritten] at hencoded
  cases hencoded
  refine ⟨?_, ?_, isCompact_encode hwire bytes, ?_⟩
  · rw [hwire.encode]
    exact Base64Url.encode_ne_empty hne
  · intro hdot
    rw [hwire.encode] at hdot
    exact Base64Url.isDigit_ne_dot (Base64Url.isDigit_of_mem_encode hdot) rfl
  · intro now hvalid
    have hdecode : Wire.decodeNoPad (Wire.encodeNoPad bytes) = some bytes := by
      rw [hwire.encode, hwire.decode, Base64Url.decode_encode]
    simp only [AccessContext.decode, hdecode, hread, Option.bind_some,
      AccessContext.fromJson_perm hversion hperm, hvalid]
    rfl

end

/-- A context of at least a second is valid until it expires, with half a minute of tolerance
for clocks that run behind. -/
theorem validate_new (input : AccessContextInput) {now : Nat} {ttl : Duration}
    (hclock : now < 2 ^ 64 - 1) (httl : Duration.fromSecs 1 ≤ ttl) {instant : Nat}
    (hissued : now ≤ saturatingAdd instant 30)
    (hexpiry : instant < saturatingAdd now ttl.asSecs) :
    (AccessContext.new input now ttl).validate instant = .ok () := by
  have hsecs : 1 ≤ ttl.asSecs := (Nat.one_le_div_iff (by decide)).mpr httl
  have hlifetime : ¬saturatingAdd now ttl.asSecs ≤ now := by
    rw [saturatingAdd, min_le_iff, not_or, not_le, not_le]
    exact ⟨by omega, hclock⟩
  have hversion : ¬(AccessContext.new input now ttl).version ≠ accessContextVersion := by
    simp [AccessContext.new]
  rw [AccessContext.validate, if_neg hversion]
  change (if saturatingAdd now ttl.asSecs ≤ now then _ else
    if saturatingAdd instant 30 < now then _ else
    if saturatingAdd now ttl.asSecs ≤ instant then _ else _) = _
  rw [if_neg hlifetime, if_neg (not_lt.mpr hissued), if_neg (not_le.mpr hexpiry)]

theorem validate_lifetime {context : AccessContext} {now : Nat}
    (h : context.validate now = .ok ()) :
    context.version = accessContextVersion ∧
      context.issuedAtEpochSeconds < context.expiresAtEpochSeconds ∧
      context.issuedAtEpochSeconds ≤ saturatingAdd now 30 ∧
      now < context.expiresAtEpochSeconds := by
  unfold AccessContext.validate at h
  split at h
  · cases h
  · rename_i hversion
    split at h
    · cases h
    · rename_i hlifetime
      split at h
      · cases h
      · rename_i hissued
        split at h
        · cases h
        · rename_i hexpired
          exact ⟨not_not.mp hversion, not_le.mp hlifetime, not_lt.mp hissued, not_le.mp hexpired⟩

section
variable [Wire] [Keys]

theorem verifySigned_signEncoded (hwire : Wire.Standard) (hkeys : Keys.Standard)
    {encoded signed : String} (hne : encoded ≠ "") (hfree : '.' ∉ encoded.toList)
    (h : signEncoded encoded = .ok signed) : verifySigned signed = .ok encoded := by
  obtain ⟨mac, hmac, h⟩ := bind_ok_iff.mp h
  cases h
  have hsignature : Wire.encodeNoPad mac ≠ "" := by
    rw [hwire.encode]
    apply Base64Url.encode_ne_empty
    intro hnil
    have hlength := hkeys _ _ hmac
    rw [hnil] at hlength
    cases hlength
  have hsplit := splitChar_intercalate '.' [signedContextPrefix, encoded, Wire.encodeNoPad mac]
    (by simp) (by
      intro piece hpiece
      simp only [List.mem_cons, List.not_mem_nil, or_false] at hpiece
      obtain rfl | rfl | rfl := hpiece
      · decide
      · exact hfree
      · intro hdot
        rw [hwire.encode] at hdot
        exact Base64Url.isDigit_ne_dot (Base64Url.isDigit_of_mem_encode hdot) rfl)
  have hjoin : (String.singleton '.').intercalate
      [signedContextPrefix, encoded, Wire.encodeNoPad mac] =
      signedContextPrefix ++ "." ++ encoded ++ "." ++ Wire.encodeNoPad mac := rfl
  have hdecode : Wire.decodeNoPad (Wire.encodeNoPad mac) = some mac := by
    rw [hwire.encode, hwire.decode, Base64Url.decode_encode]
  rw [hjoin] at hsplit
  simp only [verifySigned, hsplit, ne_eq, not_true, hne, hsignature, or_self, if_false, hdecode,
    hmac, if_true]

/-- What verification accepts carries the mac of its own payload. -/
theorem verifySigned_ok {signed encoded : String} (h : verifySigned signed = .ok encoded) :
    ∃ signature mac, splitChar '.' signed = [signedContextPrefix, encoded, signature] ∧
      Wire.decodeNoPad signature = some mac ∧
      Keys.hmac (signedContextPrefix ++ "." ++ encoded) = .ok mac := by
  unfold verifySigned at h
  split at h
  · rename_i kind payload signature hsplit
    split at h
    · cases h
    · rename_i hform
      split at h
      · cases h
      · rename_i mac hmac
        split at h
        · cases h
        · rename_i computed hcomputed
          split at h
          · rename_i hsame
            cases h
            have hkind : kind = signedContextPrefix := by tauto
            exact ⟨signature, mac, hkind ▸ hsplit, hmac, hsame ▸ hcomputed⟩
          · cases h
  · cases h

end

/-! Scope tokens. -/

theorem utf8Size_of_isDigit {c : Char} (h : Base64Url.isDigit c = true) : c.utf8Size = 1 := by
  have hbounds := Base64Url.isDigit_bounds h
  rw [Char.utf8Size_eq_one_iff]
  change c.val.toNat ≤ 127
  exact hbounds.2.trans (by decide)

theorem utf8ByteSize_encode (bytes : List UInt8) :
    (Base64Url.encode bytes).utf8ByteSize = (bytes.length * 4 + 2) / 3 := by
  have hsize : ∀ cs : List Char, (∀ c ∈ cs, Base64Url.isDigit c = true) →
      String.utf8Len cs = cs.length := by
    intro cs hcs
    induction cs with
    | nil => rfl
    | cons c cs ih =>
        rw [String.utf8Len_cons, utf8Size_of_isDigit (hcs c List.mem_cons_self),
          ih fun d hd => hcs d (List.mem_cons_of_mem _ hd), List.length_cons]
  rw [← Base64Url.encode_length, ← hsize _ fun c hc => Base64Url.isDigit_of_mem_encode hc,
    ← String.utf8ByteSize_ofList, String.ofList_toList]

theorem encode_tokenChars {bytes : List UInt8} {c : Char}
    (h : c ∈ (Base64Url.encode bytes).toList) : (c.isAlphanum || c == '-' || c == '_') = true := by
  have hdigits : ∀ n < 64, ((Base64Url.digit n).isAlphanum || Base64Url.digit n == '-' ||
      Base64Url.digit n == '_') = true := by decide
  rw [Base64Url.encode, String.toList_ofList] at h
  obtain ⟨n, hn, rfl⟩ := List.mem_map.mp h
  exact hdigits n (Base64Url.encodeDigits_lt bytes n hn)

theorem validScopeToken_new {random : List UInt8} (h : random.length = 32) :
    validScopeToken (scopeTokenPrefix ++ Base64Url.encode random) = true := by
  have hsize : (scopeTokenPrefix ++ Base64Url.encode random).utf8ByteSize =
      scopeTokenPrefix.utf8ByteSize + 43 := by
    rw [String.utf8ByteSize_append, utf8ByteSize_encode, h]
  have hlist : (scopeTokenPrefix ++ Base64Url.encode random).toList =
      'a' :: 'g' :: 's' :: '_' :: (Base64Url.encode random).toList := by
    rw [String.toList_append]
    rfl
  rw [validScopeToken, hsize, hlist]
  simp only [beq_self_eq_true, Bool.true_and, List.drop_succ_cons, List.drop_zero,
    Bool.and_eq_true, List.all_eq_true]
  exact ⟨rfl, fun c hc => encode_tokenChars hc⟩

/-! The filter. -/

section
variable [Wire] [Keys]

/-- If the resolvers that find a header agree, the filter answers as they do. -/
theorem firstAccess_of_agree {now : Nat} {request : AccessRequest}
    {answer : Except AccessError (Option RequestAccess)} {resolvers : List AccessContextResolver}
    (hanswer : answer ≠ .ok none)
    (hagree : ∀ resolver ∈ resolvers, resolver.resolve now request = .ok none ∨
      resolver.resolve now request = answer)
    (hfound : ∃ resolver ∈ resolvers, resolver.resolve now request = answer) :
    firstAccess now request resolvers = answer := by
  induction resolvers with
  | nil =>
      obtain ⟨resolver, hmem, -⟩ := hfound
      cases hmem
  | cons first rest ih =>
      rw [firstAccess]
      cases hagree first List.mem_cons_self with
      | inr hsome =>
          rw [hsome]
          obtain failure | _ | found := answer
          · rfl
          · exact absurd rfl hanswer
          · rfl
      | inl hnone =>
          rw [hnone]
          obtain ⟨resolver, hmem, hresolver⟩ := hfound
          refine ih (fun other hother => hagree other (List.mem_cons_of_mem _ hother)) ?_
          cases List.mem_cons.mp hmem with
          | inl heq =>
              rw [heq, hnone] at hresolver
              exact absurd hresolver.symm hanswer
          | inr hrest => exact ⟨resolver, hrest, hresolver⟩

theorem firstAccess_mem {now : Nat} {request : AccessRequest} {access : RequestAccess}
    {resolvers : List AccessContextResolver}
    (h : firstAccess now request resolvers = .ok (some access)) :
    ∃ resolver ∈ resolvers, resolver.resolve now request = .ok (some access) := by
  induction resolvers with
  | nil => cases h
  | cons first rest ih =>
      rw [firstAccess] at h
      split at h
      · cases h
      · rename_i found hfound
        cases h
        exact ⟨first, List.mem_cons_self, hfound⟩
      · obtain ⟨resolver, hmem, hresolver⟩ := ih h
        exact ⟨resolver, List.mem_cons_of_mem _ hmem, hresolver⟩

/-- The resolvers of a filter: the header resolver and the scope-token resolver, in any order. -/
structure Configured (resolvers : List AccessContextResolver) (client : ScopeTokenClient) :
    Prop where
  header : .header ∈ resolvers
  grpc : .grpc client ∈ resolvers
  only : ∀ resolver ∈ resolvers, resolver = .header ∨ resolver = .grpc client

/-- A request that carries one of the delivery headers. -/
structure HoldsDelivery (request : AccessRequest) (delivery : AccessDelivery) : Prop where
  used : request.nonEmpty delivery.header = some delivery.value
  unused : request.nonEmpty delivery.unusedHeader = none

variable {resolvers : List AccessContextResolver} {client : ScopeTokenClient} {now : Nat}
  {request : AccessRequest} {context : AccessContext} {signed encoded token : String}

theorem enter_direct (hconfigured : Configured resolvers client)
    (hholds : HoldsDelivery request (.direct signed)) (hverified : verifySigned signed = .ok encoded)
    (hdecoded : AccessContext.decode now encoded = .ok context) :
    enter resolvers now request = .ok (some (.fromContext context)) := by
  have hused : request.nonEmpty accessContextHeader = some signed := hholds.used
  have hunused : request.nonEmpty scopeTokenHeader = none := hholds.unused
  have hheader : AccessContextResolver.header.resolve now request =
      .ok (some (.fromContext context)) := by
    simp only [AccessContextResolver.resolve, hused, hverified, hdecoded]
  have hgrpc : (AccessContextResolver.grpc client).resolve now request = .ok none := by
    simp only [AccessContextResolver.resolve, hunused]
  have hfirst : firstAccess now request resolvers = .ok (some (.fromContext context)) := by
    refine firstAccess_of_agree (by simp) ?_ ⟨.header, hconfigured.header, hheader⟩
    intro resolver hresolver
    obtain rfl | rfl := hconfigured.only resolver hresolver
    · exact .inr hheader
    · exact .inl hgrpc
  simp [enter, hunused, hfirst]

/-- With a scope token alone the resolver of tokens decides. -/
theorem firstAccess_token (hconfigured : Configured resolvers client)
    (hholds : HoldsDelivery request (.token token))
    {answer : Except AccessError (Option RequestAccess)} (hanswer : answer ≠ .ok none)
    (hgrpc : (AccessContextResolver.grpc client).resolve now request = answer) :
    firstAccess now request resolvers = answer := by
  have hunused : request.nonEmpty accessContextHeader = none := hholds.unused
  have hheader : AccessContextResolver.header.resolve now request = .ok none := by
    simp only [AccessContextResolver.resolve, hunused]
  refine firstAccess_of_agree hanswer ?_ ⟨.grpc client, hconfigured.grpc, hgrpc⟩
  intro resolver hresolver
  obtain rfl | rfl := hconfigured.only resolver hresolver
  · exact .inl hheader
  · exact .inr hgrpc

theorem enter_token (hconfigured : Configured resolvers client)
    (hholds : HoldsDelivery request (.token token)) (hresolved : client token = .ok encoded)
    (hdecoded : AccessContext.decode now encoded = .ok context) :
    enter resolvers now request = .ok (some (.fromContext context)) := by
  have hused : request.nonEmpty scopeTokenHeader = some token := hholds.used
  have hunused : request.nonEmpty accessContextHeader = none := hholds.unused
  have hgrpc : (AccessContextResolver.grpc client).resolve now request =
      .ok (some (.fromContext context)) := by
    simp only [AccessContextResolver.resolve, hused, hresolved, hdecoded]
  simp [enter, hunused, firstAccess_token hconfigured hholds (by simp) hgrpc]

/-- A token that the service does not answer on. -/
theorem enter_refused (hconfigured : Configured resolvers client)
    (hholds : HoldsDelivery request (.token token)) {message : String}
    (hrefused : client token = .error message) :
    enter resolvers now request = .error (.resolver message) := by
  have hused : request.nonEmpty scopeTokenHeader = some token := hholds.used
  have hunused : request.nonEmpty accessContextHeader = none := hholds.unused
  have hgrpc : (AccessContextResolver.grpc client).resolve now request =
      .error (.resolver message) := by
    simp only [AccessContextResolver.resolve, hused, hrefused]
  simp [enter, hunused, firstAccess_token hconfigured hholds (by simp) hgrpc]

/-! Nothing else authenticates. -/

/-- A signed header that verifies, with a lifetime that is valid now. -/
structure FromHeader (now : Nat) (request : AccessRequest) (access : RequestAccess)
    (context : AccessContext) : Prop where
  verified : ∃ signed encoded signature mac, request.nonEmpty accessContextHeader = some signed ∧
    splitChar '.' signed = [signedContextPrefix, encoded, signature] ∧
    Wire.decodeNoPad signature = some mac ∧
    Keys.hmac (signedContextPrefix ++ "." ++ encoded) = .ok mac ∧
    AccessContext.decode now encoded = .ok context
  lifetime : context.issuedAtEpochSeconds ≤ saturatingAdd now 30 ∧
    now < context.expiresAtEpochSeconds
  access_eq : access = .fromContext context

/-- A scope token that the service resolved to a context which has not expired. -/
structure FromToken (loadScope : LoadScope) (resolvedAt now : Nat) (request : AccessRequest)
    (access : RequestAccess) (context : AccessContext) : Prop where
  resolved : ∃ token encoded, request.nonEmpty scopeTokenHeader = some token ∧
    resolveScope loadScope resolvedAt token = .ok encoded ∧
    loadScope token = .ok (some encoded) ∧
    AccessContext.decode now encoded = .ok context
  lifetime : resolvedAt < context.expiresAtEpochSeconds ∧ now < context.expiresAtEpochSeconds
  access_eq : access = .fromContext context

omit [Keys] in
theorem decode_ok (h : AccessContext.decode now encoded = .ok context) :
    (∃ bytes, Wire.decodeNoPad encoded = some bytes ∧
        (Wire.fromSlice bytes).bind AccessContext.fromJson = some context) ∧
      context.validate now = .ok () := by
  unfold AccessContext.decode at h
  split at h
  · cases h
  · rename_i bytes hbytes
    split at h
    · cases h
    · rename_i read hread
      obtain ⟨_, hvalid, h⟩ := bind_ok_iff.mp h
      cases h
      exact ⟨⟨bytes, hbytes, hread⟩, hvalid⟩

omit [Keys] in
theorem resolveScope_ok {loadScope : LoadScope} {resolvedAt : Nat}
    (h : resolveScope loadScope resolvedAt token = .ok encoded) :
    loadScope token = .ok (some encoded) ∧
      ∃ context, AccessContext.decode resolvedAt encoded = .ok context := by
  unfold resolveScope at h
  split at h
  · cases h
  · split at h
    · cases h
    · cases h
    · rename_i stored hstored
      split at h
      · cases h
      · rename_i context hcontext
        cases h
        exact ⟨hstored, context, hcontext⟩

theorem resolve_header_ok {access : RequestAccess}
    (h : AccessContextResolver.header.resolve now request = .ok (some access)) :
    ∃ context, FromHeader now request access context := by
  simp only [AccessContextResolver.resolve] at h
  split at h
  · cases h
  · rename_i signed hsigned
    split at h
    · cases h
    · rename_i encoded hverified
      split at h
      · cases h
      · rename_i context hdecoded
        cases h
        obtain ⟨signature, mac, hsplit, hmac, hcomputed⟩ := verifySigned_ok hverified
        have hlifetime := validate_lifetime (decode_ok hdecoded).2
        exact ⟨context, ⟨signed, encoded, signature, mac, hsigned, hsplit, hmac, hcomputed, hdecoded⟩,
          ⟨hlifetime.2.2.1, hlifetime.2.2.2⟩, rfl⟩

theorem resolve_grpc_ok {loadScope : LoadScope} {resolvedAt : Nat} {access : RequestAccess}
    (hclient : ∀ token encoded, client token = .ok encoded →
      resolveScope loadScope resolvedAt token = .ok encoded)
    (h : (AccessContextResolver.grpc client).resolve now request = .ok (some access)) :
    ∃ context, FromToken loadScope resolvedAt now request access context := by
  simp only [AccessContextResolver.resolve] at h
  split at h
  · cases h
  · rename_i token htoken
    split at h
    · cases h
    · rename_i encoded hencoded
      split at h
      · cases h
      · rename_i context hdecoded
        cases h
        have hresolved := hclient token encoded hencoded
        obtain ⟨hstored, other, hother⟩ := resolveScope_ok hresolved
        obtain ⟨⟨bytes, hbytes, hread⟩, hvalid⟩ := decode_ok hdecoded
        obtain ⟨⟨bytes', hbytes', hread'⟩, hvalid'⟩ := decode_ok hother
        -- the service and the workload read the same context
        have hsame : other = context := by
          rw [hbytes, Option.some.injEq] at hbytes'
          rw [← hbytes', hread, Option.some.injEq] at hread'
          exact hread'.symm
        exact ⟨context, ⟨token, encoded, htoken, hresolved, hstored, hdecoded⟩,
          ⟨hsame ▸ (validate_lifetime hvalid').2.2.2, (validate_lifetime hvalid).2.2.2⟩, rfl⟩

/-- What authenticates a request, and that it is one header only. -/
theorem enter_authenticated {loadScope : LoadScope} {resolvedAt : Nat} {access : RequestAccess}
    (hclients : ∀ client, .grpc client ∈ resolvers → ∀ token encoded,
      client token = .ok encoded → resolveScope loadScope resolvedAt token = .ok encoded)
    (h : enter resolvers now request = .ok (some access)) :
    ((∃ context, FromHeader now request access context) ∨
        ∃ context, FromToken loadScope resolvedAt now request access context) ∧
      ¬((request.nonEmpty accessContextHeader).isSome ∧
        (request.nonEmpty scopeTokenHeader).isSome) := by
  unfold enter at h
  split at h
  · cases h
  · rename_i hone
    refine ⟨?_, hone⟩
    split at h
    · cases h
    · rename_i found hfound
      cases h
      obtain ⟨resolver, hmem, hresolver⟩ := firstAccess_mem hfound
      cases resolver with
      | header => exact .inl (resolve_header_ok hresolver)
      | grpc client => exact .inr (resolve_grpc_ok (hclients client hmem) hresolver)
    · split at h <;> cases h

end

/-! What the response produces. -/

section
variable [Wire]

theorem upstream_holdsDelivery (hwire : Wire.Standard) (handler : DefaultAuthorizationHandler)
    (delivery : AccessDelivery) (resignToken : Option String) (headers : Headers)
    (hcompact : IsCompact delivery.value) (hne : delivery.value ≠ "") :
    HoldsDelivery (httpHeaderAccessRequest (handler.upstream delivery resignToken headers))
      delivery := by
  have hused : values (handler.upstream delivery resignToken headers) delivery.header =
      [delivery.value] := by
    rw [values_upstream, if_pos rfl]
  have hunused : values (handler.upstream delivery resignToken headers) delivery.unusedHeader = [] :=
    values_stripped delivery resignToken headers List.mem_cons_self
  constructor
  · have htext : Wire.isText delivery.value = true := by
      rw [hwire.isText]
      exact hcompact.isText
    simp [AccessRequest.nonEmpty, httpHeaderAccessRequest, hused, htext, hne]
  · simp [AccessRequest.nonEmpty, httpHeaderAccessRequest, hunused]

variable [Keys]

theorem isCompact_signEncoded (hwire : Wire.Standard) {encoded signed : String}
    (hcompact : IsCompact encoded) (h : signEncoded encoded = .ok signed) :
    IsCompact signed ∧ signed ≠ "" := by
  obtain ⟨mac, -, h⟩ := bind_ok_iff.mp h
  cases h
  have hkind : IsCompact signedContextPrefix := by
    have hdigits : signedContextPrefix.toList.all Base64Url.isDigit = true := by decide
    exact fun c hc => .inl (List.all_eq_true.mp hdigits c hc)
  refine ⟨(((hkind.append isCompact_dot).append hcompact).append isCompact_dot).append
    (isCompact_encode hwire mac), ?_⟩
  intro hempty
  have hlength := congrArg (fun text => text.toList.length) hempty
  simp [signedContextPrefix] at hlength

omit [Keys] in
theorem isCompact_scopeToken (hwire : Wire.Standard) (random : List UInt8) :
    IsCompact (scopeTokenPrefix ++ Wire.encodeNoPad random) ∧
      scopeTokenPrefix ++ Wire.encodeNoPad random ≠ "" := by
  have hkind : IsCompact scopeTokenPrefix := by
    have hdigits : scopeTokenPrefix.toList.all Base64Url.isDigit = true := by decide
    exact fun c hc => .inl (List.all_eq_true.mp hdigits c hc)
  refine ⟨hkind.append (isCompact_encode hwire random), ?_⟩
  intro hempty
  have hlength := congrArg (fun text => text.toList.length) hempty
  simp [scopeTokenPrefix] at hlength

variable {handler : DefaultAuthorizationHandler} {evaluation : RequestEvaluation}
  {scope : AuthorizationScope}

/-- The two ways in which an allowed evaluation is delivered. -/
theorem allowed_cases {now resignNow : Nat} {random : List UInt8} {prepared : Delivery}
    {resignToken : Option String} (hscope : evaluation.authorizationScope = some scope)
    (h : handler.allowed now resignNow random evaluation = .ok (prepared, resignToken)) :
    (∃ encoded signed,
      (AccessContext.new (evaluation.accessContextInput scope) now
        handler.scopeDelivery.contextTtl).encode = .ok encoded ∧
      signEncoded encoded = .ok signed ∧ prepared = .direct signed) ∨
    ∃ encoded,
      (AccessContext.new (evaluation.accessContextInput scope) now
        handler.scopeDelivery.scopeTokenTtl).encode = .ok encoded ∧
      prepared = .store (scopeTokenPrefix ++ Wire.encodeNoPad random) encoded := by
  simp only [DefaultAuthorizationHandler.allowed, hscope, bind_ok_iff] at h
  obtain ⟨_, _, delivery, hdelivery, h⟩ := h
  cases h
  simp only [DefaultAuthorizationHandler.prepareDelivery, bind_ok_iff, mapError_ok] at hdelivery
  obtain ⟨encoded, hencoded, signed, hsigned, hdelivery⟩ := hdelivery
  split at hdelivery
  · cases hdelivery
    exact .inl ⟨encoded, signed, hencoded, hsigned, rfl⟩
  · simp only [bind_ok_iff, mapError_ok] at hdelivery
    obtain ⟨stored, hstored, hdelivery⟩ := hdelivery
    cases hdelivery
    exact .inr ⟨stored, hstored, rfl⟩

end

/-- The lifetime that goes with a delivery. -/
def Delivery.ttl (prepared : Delivery) (properties : ScopeDeliveryProperties) : Duration :=
  match prepared with
  | .direct _ => properties.contextTtl
  | .store _ _ => properties.scopeTokenTtl

/-- The cache still has what was stored for the delivery. -/
def Delivery.Cached (prepared : Delivery) (loadScope : LoadScope) : Prop :=
  match prepared with
  | .direct _ => True
  | .store token encoded => loadScope token = .ok (some encoded)

/-- What the workload resolves for the delivery is not too long, for the service to send and for
the client to read. -/
def Delivery.Fits (prepared : Delivery) (response : ResponseProperties) : Prop :=
  match prepared with
  | .direct _ => True
  | .store _ encoded =>
      stringValueBytes encoded ≤ min response.maxMessageBytes maxDecodingMessageSize

theorem grpcScopeTokenClient_cases (response : ResponseProperties) (toText : ScopeStatus → String)
    {service : String → Except ScopeStatus String} {token encoded : String}
    (hanswer : service token = .ok encoded) :
    let answer := grpcScopeTokenClient toText (fun token => response.encoded (service token)) token
    ((Delivery.store token encoded).Fits response ∧ answer = .ok encoded) ∨
      (¬(Delivery.store token encoded).Fits response ∧ answer = .error (toText .outOfRange)) := by
  simp only [grpcScopeTokenClient, hanswer, ResponseProperties.encoded, Delivery.Fits, le_min_iff]
  by_cases hsent : stringValueBytes encoded ≤ response.maxMessageBytes
  · by_cases hread : stringValueBytes encoded ≤ maxDecodingMessageSize
    · simp [hsent, hread]
    · simp [hsent, hread]
  · simp [hsent]

def RequestEvaluation.requestAccess (evaluation : RequestEvaluation)
    (scope : AuthorizationScope) : RequestAccess :=
  { principalId := evaluation.principalId
    action := evaluation.route.action
    resourceUrn := evaluation.route.resourceUrn.display
    grants := ⟨scope.allowResourceUrns, scope.denyResourceUrns⟩ }

/-- An instant at which a context issued at `now` is due, on a clock that may run behind a little. -/
structure Due (now : Nat) (ttl : Duration) (instant : Nat) : Prop where
  issued : now ≤ saturatingAdd instant 30
  unexpired : instant < saturatingAdd now ttl.asSecs

section
variable [Wire] [Keys]

/-- The server's side: an allowed evaluation was delivered, and its context survives JSON. -/
structure Delivered (handler : DefaultAuthorizationHandler) (evaluation : RequestEvaluation)
    (scope : AuthorizationScope) (now : Nat) (prepared : Delivery) (resignToken : Option String) :
    Prop where
  contextTtl : Duration.fromSecs 1 ≤ handler.scopeDelivery.contextTtl
  scopeTokenTtl : Duration.fromSecs 1 ≤ handler.scopeDelivery.scopeTokenTtl
  clock : now < 2 ^ 64 - 1
  scope_eq : evaluation.authorizationScope = some scope
  allowed : ∃ resignNow random, random.length = 32 ∧
    handler.allowed now resignNow random evaluation = .ok (prepared, resignToken)
  json : Wire.KeepsObject (AccessContext.new (evaluation.accessContextInput scope) now
    (prepared.ttl handler.scopeDelivery)).fields

omit [Keys] in
/-- The workload's side: both resolvers, a service that is reached and reaches its cache, and two
clocks. -/
structure Attended (prepared : Delivery) (now : Nat) (ttl : Duration) (loadScope : LoadScope)
    (response : ResponseProperties) (resolvedAt instant : Nat)
    (resolvers : List AccessContextResolver) (client : ScopeTokenClient) : Prop where
  cached : prepared.Cached loadScope
  served : Due now ttl resolvedAt
  read : Due now ttl instant
  configured : Configured resolvers client
  answers : ∃ toText, client = grpcScopeTokenClient toText fun token =>
    response.encoded (resolveScope loadScope resolvedAt token)

omit [Wire] [Keys] in
theorem new_version (input : AccessContextInput) (now : Nat) (ttl : Duration) :
    (AccessContext.new input now ttl).version < 2 ^ 8 := by
  change 3 < 2 ^ 8
  decide

variable {handler : DefaultAuthorizationHandler} {evaluation : RequestEvaluation}
  {scope : AuthorizationScope} {now : Nat} {prepared : Delivery} {resignToken : Option String}
  {loadScope : LoadScope} {response : ResponseProperties} {resolvedAt instant : Nat}
  {resolvers : List AccessContextResolver} {client : ScopeTokenClient}

/-- Whichever way it was delivered, the workload reads the access of the evaluation, unless the
message it would be read from is too long. -/
theorem enter_delivered (hwire : Wire.Standard) (hkeys : Keys.Standard)
    (hdelivered : Delivered handler evaluation scope now prepared resignToken)
    (hattended : Attended prepared now (prepared.ttl handler.scopeDelivery) loadScope response
      resolvedAt instant resolvers client)
    (headers : Headers) :
    (prepared.Fits response →
      enter resolvers instant
          (httpHeaderAccessRequest (handler.upstream prepared.delivery resignToken headers)) =
        .ok (some (evaluation.requestAccess scope))) ∧
    (¬prepared.Fits response → ∃ message,
      enter resolvers instant
          (httpHeaderAccessRequest (handler.upstream prepared.delivery resignToken headers)) =
        .error (.resolver message)) := by
  obtain ⟨resignNow, random, hrandom, hallowed⟩ := hdelivered.allowed
  have hjson := hdelivered.json
  have hinstant := hattended.read
  have hresolvedAt := hattended.served
  obtain ⟨encoded, signed, hencoded, hsigned, rfl⟩ | ⟨encoded, hencoded, rfl⟩ :=
    allowed_cases hdelivered.scope_eq hallowed
  · obtain ⟨hne, hfree, hcompact, hdecode⟩ :=
      AccessContext.decode_encode hwire (new_version _ _ _) hjson hencoded
    obtain ⟨hcompact', hne'⟩ := isCompact_signEncoded hwire hcompact hsigned
    refine ⟨fun _ => ?_, fun hfits => absurd trivial hfits⟩
    exact enter_direct hattended.configured
      (upstream_holdsDelivery hwire handler (.direct signed) resignToken headers hcompact' hne')
      (verifySigned_signEncoded hwire hkeys hne hfree hsigned)
      (hdecode instant (validate_new _ hdelivered.clock hdelivered.contextTtl hinstant.issued
        hinstant.unexpired))
  · obtain ⟨-, -, -, hdecode⟩ :=
      AccessContext.decode_encode hwire (new_version _ _ _) hjson hencoded
    obtain ⟨hcompact, hne⟩ := isCompact_scopeToken hwire random
    have hresolved : resolveScope loadScope resolvedAt
        (scopeTokenPrefix ++ Wire.encodeNoPad random) = .ok encoded := by
      have hvalid := validScopeToken_new hrandom
      have hdue := hdecode resolvedAt (validate_new _ hdelivered.clock hdelivered.scopeTokenTtl
        hresolvedAt.issued hresolvedAt.unexpired)
      have hloaded : loadScope (scopeTokenPrefix ++ Wire.encodeNoPad random) =
          .ok (some encoded) := hattended.cached
      rw [← hwire.encode] at hvalid
      simp only [resolveScope, hvalid, Bool.not_true, Bool.false_eq_true, if_false, hloaded, hdue]
    have hholds := upstream_holdsDelivery hwire handler
      (.token (scopeTokenPrefix ++ Wire.encodeNoPad random)) resignToken headers hcompact hne
    obtain ⟨toText, hclient⟩ := hattended.answers
    obtain ⟨hfits, hanswer⟩ | ⟨hlong, hanswer⟩ :=
      grpcScopeTokenClient_cases response toText hresolved
    · refine ⟨fun _ => ?_, fun hlong => absurd hfits hlong⟩
      exact enter_token hattended.configured hholds (hclient ▸ hanswer)
        (hdecode instant (validate_new _ hdelivered.clock hdelivered.scopeTokenTtl hinstant.issued
          hinstant.unexpired))
    · exact ⟨fun hfits => absurd hfits hlong, fun _ =>
        ⟨_, enter_refused hattended.configured hholds (hclient ▸ hanswer)⟩⟩

theorem deliveries_agree (hwire : Wire.Standard) (hkeys : Keys.Standard)
    (handler : DefaultAuthorizationHandler) (evaluation : RequestEvaluation)
    (scope : AuthorizationScope) (now : Nat) (prepared : Delivery) (resignToken : Option String)
    (hdelivered : Delivered handler evaluation scope now prepared resignToken)
    (loadScope : LoadScope) (response : ResponseProperties) (resolvedAt instant : Nat)
    (resolvers : List AccessContextResolver) (client : ScopeTokenClient)
    (hattended : Attended prepared now (prepared.ttl handler.scopeDelivery) loadScope response
      resolvedAt instant resolvers client)
    (headers : Headers) :
    (prepared.Fits response →
      enter resolvers instant
          (httpHeaderAccessRequest (handler.upstream prepared.delivery resignToken headers)) =
        .ok (some (evaluation.requestAccess scope))) ∧
    (¬prepared.Fits response → ∃ message,
      enter resolvers instant
          (httpHeaderAccessRequest (handler.upstream prepared.delivery resignToken headers)) =
        .error (.resolver message)) ∧
    ∀ (resolvers : List AccessContextResolver) (loadScope : LoadScope) (resolvedAt now : Nat)
      (request : AccessRequest) (access : RequestAccess),
      (∀ client, .grpc client ∈ resolvers → ∀ token encoded,
        client token = .ok encoded → resolveScope loadScope resolvedAt token = .ok encoded) →
      enter resolvers now request = .ok (some access) →
      ((∃ context, FromHeader now request access context) ∨
          ∃ context, FromToken loadScope resolvedAt now request access context) ∧
        ¬((request.nonEmpty accessContextHeader).isSome ∧
          (request.nonEmpty scopeTokenHeader).isSome) := by
  obtain ⟨hfits, hlong⟩ := enter_delivered hwire hkeys hdelivered hattended headers
  refine ⟨hfits, hlong, ?_⟩
  intro _ _ _ _ _ _ hclients hentered
  exact enter_authenticated hclients hentered

end

/-! A payroll, read by its service. -/

namespace PayrollService
open Documents (ascii print wire wire_standard wire_keepsObject)

def scope : AuthorizationScope := ⟨["urn:iam:aws:hr:eu:acme:payrolls/**"], []⟩

def evaluation : RequestEvaluation where
  principalId := "alice"
  route := ⟨"payroll-read", "payroll.read", ⟨"aws", "hr", "eu", "acme", ["payrolls", "january"]⟩, []⟩
  decision := ⟨true, "allowed", none⟩
  authorizationScope := some scope
  policyRevision := 1
  identity := ⟨"alice", .user, [], .empty, none, []⟩
  sourceExpiresAtEpochSeconds := none

def context : AccessContext :=
  AccessContext.new (evaluation.accessContextInput scope) 1700000000 (Duration.fromSecs 30)

/-- A scope with a long name in it, the context of which is longer than a kilobyte. -/
def wideScope : AuthorizationScope where
  allowResourceUrns := ["urn:iam:aws:hr:eu:acme:payrolls/**",
    "urn:iam:aws:hr:eu:acme:reports/" ++ String.ofList (List.replicate 800 'x')]
  denyResourceUrns := []

def wideEvaluation : RequestEvaluation := { evaluation with authorizationScope := some wideScope }

def wideContext : AccessContext :=
  AccessContext.new (wideEvaluation.accessContextInput wideScope) 1700000000 (Duration.fromSecs 30)

/-- Every scope is stored, and a token is sent for it. -/
def handler : DefaultAuthorizationHandler where
  identity := ⟨"authorization", "principal_id", "principal_kind", "authguard_group_ids"⟩
  scopeDelivery := ⟨0, 4096, Duration.fromSecs 30, Duration.fromSecs 30⟩
  resign := none

/-- Scopes of a single name are sent in the header. -/
def wideHandler : DefaultAuthorizationHandler :=
  { handler with scopeDelivery := { handler.scopeDelivery with directUrnLimit := 1 } }

scoped instance contextWire : Wire := wire [context.fields, wideContext.fields]

/-- The mac of the one context, under a key of 32 times `k`. -/
def mac : List UInt8 :=
  [137, 190, 1, 129, 52, 204, 162, 164, 250, 51, 135, 5, 224, 10, 112, 149, 133, 245, 192, 227, 100,
    215, 86, 252, 74, 246, 140, 93, 108, 108, 105, 58]

scoped instance contextKeys : Keys where
  hmac _ := .ok mac
  rsa _ _ := []

theorem contextKeys_standard : Keys.Standard := by
  intro text found h
  cases h
  rfl

theorem context_kept : Wire.KeepsObject context.fields :=
  wire_keepsObject (List.find?_cons_of_pos (by simp))

def encoded : String := Wire.encodeNoPad (ascii (print context.fields))

def random : List UInt8 := List.replicate 32 7

def token : String := scopeTokenPrefix ++ Wire.encodeNoPad random

theorem delivered :
    Delivered handler evaluation scope 1700000000 (.store token encoded) none where
  contextTtl := by decide
  scopeTokenTtl := by decide
  clock := by norm_num
  scope_eq := rfl
  allowed := ⟨1700000000, random, rfl, rfl⟩
  json := context_kept

def loadScope : LoadScope := fun _ => .ok (some encoded)

/-- The least the configuration admits. -/
def response : ResponseProperties := ⟨1024, by decide⟩

def client : ScopeTokenClient := grpcScopeTokenClient (fun _ => "unauthenticated") fun token =>
  response.encoded (resolveScope loadScope 1700000010 token)

theorem attended :
    Attended (.store token encoded) 1700000000 (Duration.fromSecs 30) loadScope response 1700000010
      1700000020 [.header, .grpc client] client where
  cached := rfl
  served := ⟨by norm_num [saturatingAdd], by norm_num [saturatingAdd, Duration.asSecs, Duration.fromSecs]⟩
  read := ⟨by norm_num [saturatingAdd], by norm_num [saturatingAdd, Duration.asSecs, Duration.fromSecs]⟩
  configured := ⟨by simp, by simp, by simp⟩
  answers := ⟨_, rfl⟩

/-- Seven hundred bytes are less than a kilobyte in Base64url. -/
theorem fits_of_length {document : List UInt8} (h : document.length ≤ 700) (token : String) :
    (Delivery.store token (Base64Url.encode document)).Fits response := by
  have hsize : (Base64Url.encode document).utf8ByteSize ≤ 1000 := by
    rw [utf8ByteSize_encode]
    omega
  have hgroups : (Base64Url.encode document).utf8ByteSize.log2 < 10 := by
    by_cases hempty : (Base64Url.encode document).utf8ByteSize = 0
    · rw [hempty]
      decide
    · exact (Nat.log2_lt hempty).mpr (by omega)
  have hbytes : stringValueBytes (Base64Url.encode document) ≤ 1024 := by
    rw [stringValueBytes]
    split <;> omega
  exact hbytes

theorem context_short : (ascii (print context.fields)).length ≤ 700 :=
  (Documents.length_print_le _).trans (by decide +kernel)

theorem fits : (Delivery.store token encoded).Fits response :=
  fits_of_length context_short token

theorem january_delivered :
    enter [.header, .grpc client] 1700000020
        (httpHeaderAccessRequest (handler.upstream (.token token) none
          [("x-authguard-context", "forged")])) =
      .ok (some (evaluation.requestAccess scope)) :=
  (deliveries_agree (wire_standard _) contextKeys_standard handler evaluation scope 1700000000
    (.store token encoded) none delivered loadScope response 1700000010 1700000020
    [.header, .grpc client] client attended [("x-authguard-context", "forged")]).1 fits

def signed : String :=
  signedContextPrefix ++ "." ++ encoded ++ "." ++ Wire.encodeNoPad mac

/-- A client adds an empty scope token to the direct context it was given. -/
def doubled : Headers := [("x-authguard-context", signed), ("x-authguard-scope-token", "")]

theorem doubled_authenticated :
    (httpHeaderAccessRequest doubled accessContextHeader).isSome = true ∧
      (httpHeaderAccessRequest doubled scopeTokenHeader).isSome = true ∧
      enter [.header, .grpc client] 1700000020 (httpHeaderAccessRequest doubled) =
        .ok (some (evaluation.requestAccess scope)) := by
  have hencoded : context.encode = .ok encoded := rfl
  have hsigned : signEncoded encoded = .ok signed := rfl
  obtain ⟨hne, hfree, hcompact, hdecode⟩ :=
    AccessContext.decode_encode (wire_standard _) (new_version _ _ _) context_kept hencoded
  obtain ⟨hcompact', hne'⟩ := isCompact_signEncoded (wire_standard _) hcompact hsigned
  have hcontext : httpHeaderAccessRequest doubled accessContextHeader = some signed := by
    have hvalues : values doubled accessContextHeader = [signed] := rfl
    have htext : Wire.isText signed = true := hcompact'.isText
    rw [httpHeaderAccessRequest, hvalues, List.head?_cons, Option.filter_some, if_pos htext]
  have htoken : httpHeaderAccessRequest doubled scopeTokenHeader = some "" := rfl
  have hholds : HoldsDelivery (httpHeaderAccessRequest doubled) (.direct signed) := by
    constructor
    · change (httpHeaderAccessRequest doubled accessContextHeader).filter (· != "") = some signed
      rw [hcontext, Option.filter_some, if_pos (by simpa using hne')]
    · change (httpHeaderAccessRequest doubled scopeTokenHeader).filter (· != "") = none
      rw [htoken]
      rfl
  refine ⟨by rw [hcontext]; rfl, by rw [htoken]; rfl, ?_⟩
  exact enter_direct attended.configured hholds
    (verifySigned_signEncoded (wire_standard _) contextKeys_standard hne hfree hsigned)
    (hdecode 1700000020 (validate_new _ (by norm_num) (by decide) attended.read.issued
      attended.read.unexpired))

def wideEncoded : String := Wire.encodeNoPad (ascii (print wideContext.fields))

theorem wideContext_long : 800 ≤ (ascii (print wideContext.fields)).length := by
  have hname : (800 : Nat) ≤ ("urn:iam:aws:hr:eu:acme:reports/" ++
      String.ofList (List.replicate 800 'x')).length := by
    rw [String.length_append, @String.length_ofList (List.replicate 800 'x'),
      List.length_replicate]
    exact Nat.le_add_left _ _
  have hurns := @Documents.length_le_printValue (wideScope.allowResourceUrns.map .string) _
    (List.mem_map.mpr ⟨_, List.mem_cons_of_mem _ List.mem_cons_self, rfl⟩)
  have hfield : ("allow_resource_urns", .strings wideScope.allowResourceUrns) ∈
      wideContext.fields :=
    .tail _ (.tail _ (.tail _ (.tail _ (.head _))))
  exact hname.trans (hurns.trans (Documents.length_le_print hfield))

theorem wideContext_kept : Wire.KeepsObject wideContext.fields := by
  have hlength := context_short
  refine wire_keepsObject ((List.find?_cons_of_neg fun hsame => ?_).trans
    (List.find?_cons_of_pos (by simp)))
  rw [eq_of_beq hsame] at hlength
  exact absurd (wideContext_long.trans hlength) (by decide)

theorem wide_delivered :
    Delivered wideHandler wideEvaluation wideScope 1700000000 (.store token wideEncoded) none where
  contextTtl := by decide
  scopeTokenTtl := by decide
  clock := by norm_num
  scope_eq := rfl
  allowed := ⟨1700000000, random, rfl, rfl⟩
  json := wideContext_kept

def wideLoad : LoadScope := fun _ => .ok (some wideEncoded)

def wideClient : ScopeTokenClient :=
  grpcScopeTokenClient (fun _ => "unauthenticated") fun token =>
    response.encoded (resolveScope wideLoad 1700000010 token)

theorem wide_attended :
    Attended (.store token wideEncoded) 1700000000 (Duration.fromSecs 30) wideLoad response
      1700000010 1700000020 [.header, .grpc wideClient] wideClient where
  cached := rfl
  served := attended.served
  read := attended.read
  configured := ⟨by simp, by simp, by simp⟩
  answers := ⟨_, rfl⟩

theorem wide_long : ¬(Delivery.store token wideEncoded).Fits response := by
  have hsize : 1024 < wideEncoded.utf8ByteSize := by
    rw [wideEncoded, (wire_standard _).encode, utf8ByteSize_encode]
    have hlong := wideContext_long
    omega
  have hbytes : 1024 < stringValueBytes wideEncoded := by
    have hne : wideEncoded ≠ "" := by
      rintro hempty
      rw [hempty] at hsize
      cases hsize
    rw [stringValueBytes, if_neg hne]
    omega
  exact not_le.mpr ((min_le_left _ _).trans_lt hbytes)

/-- A client may send an empty token next to a direct context, and what a token stands for may
be too long to be sent. -/
theorem delivery_exceptions :
    ((httpHeaderAccessRequest doubled accessContextHeader).isSome = true ∧
      (httpHeaderAccessRequest doubled scopeTokenHeader).isSome = true ∧
      enter [.header, .grpc client] 1700000020 (httpHeaderAccessRequest doubled) =
        .ok (some (evaluation.requestAccess scope))) ∧
    Delivered wideHandler wideEvaluation wideScope 1700000000 (.store token wideEncoded) none ∧
      Attended (.store token wideEncoded) 1700000000 (Duration.fromSecs 30) wideLoad response
        1700000010 1700000020 [.header, .grpc wideClient] wideClient ∧
      ∃ message, enter [.header, .grpc wideClient] 1700000020
        (httpHeaderAccessRequest (wideHandler.upstream (.token token) none [])) =
          .error (.resolver message) :=
  ⟨doubled_authenticated, wide_delivered, wide_attended,
    (enter_delivered (wire_standard _) contextKeys_standard wide_delivered wide_attended []).2
      wide_long⟩

end PayrollService

end Authguard
