import Authguard.Metatheory.PolicyScope

/-!
Requests of which some context attributes are missing. A condition that asks for
a missing attribute does not hold, so taking attributes away only ever switches
bindings off: allow bindings fail closed, deny bindings fail open.
-/

namespace Authguard
open DenyOverrides

/-- The first context is the second with some attributes taken away. -/
structure EvaluationContext.Erases (erased context : EvaluationContext) : Prop where
  sourceIp : erased.sourceIp = none ∨ erased.sourceIp = context.sourceIp
  requestMethod : erased.requestMethod = none ∨ erased.requestMethod = context.requestMethod
  secureTransport : erased.secureTransport = none ∨
    erased.secureTransport = context.secureTransport
  claims : ∀ name value, erased.claims.get name = some value →
    context.claims.get name = some value

theorem eq_some_of_erased {α : Type} {erased value : Option α} {found : α}
    (h : erased = none ∨ erased = value) (hfound : erased = some found) : value = some found := by
  cases h with
  | inl hnone => rw [hnone] at hfound; cases hfound
  | inr hsame => rw [← hsame, hfound]

section
variable [Ipnet] {erased : EvaluationContext}

theorem AuthorizationConditionSpec.Holds.of_erased {spec : AuthorizationConditionSpec}
    {context : EvaluationContext} (herased : erased.Erases context) (h : spec.Holds erased) :
    spec.Holds context where
  sourceIp condition hcondition := by
    obtain ⟨address, haddress, hnetworks⟩ := h.sourceIp condition hcondition
    exact ⟨address, eq_some_of_erased herased.sourceIp haddress, hnetworks⟩
  method := by
    cases h.method with
    | inl hany => exact .inl hany
    | inr hmethod =>
        obtain ⟨method, hmethod, hallowed⟩ := hmethod
        exact .inr ⟨method, eq_some_of_erased herased.requestMethod hmethod, hallowed⟩
  transport expected hexpected :=
    eq_some_of_erased herased.secureTransport (h.transport expected hexpected)
  mfa expected hexpected := by
    obtain ⟨value, hvalue, hparsed⟩ := h.mfa expected hexpected
    exact ⟨value, herased.claims "mfa" value hvalue, hparsed⟩
  claims claim hclaim := herased.claims claim.1 claim.2 (h.claims claim hclaim)

theorem IamPolicyInfo.Matches.of_erased {policy : IamPolicyInfo} {request : AuthorizationRequest}
    {binding : IamRoleBindingInfo} (herased : erased.Erases request.context)
    (h : policy.Matches { request with context := erased } binding) :
    policy.Matches request binding where
  principal := h.principal
  action := h.action
  resource := h.resource
  conditions := h.conditions.of_erased herased

/-- If an allow binding still matches the erased request and a deny binding matched the whole
one, then a deny binding matches the erased request too. -/
def IamPolicyInfo.DenialKept (policy : IamPolicyInfo) (request : AuthorizationRequest)
    (erased : EvaluationContext) : Prop :=
  (∃ binding ∈ policy.roleBindings,
    binding.effect = .allow ∧ policy.Matches { request with context := erased } binding) →
  (∃ binding ∈ policy.roleBindings,
    binding.effect = .deny ∧ policy.Matches request binding) →
  ∃ binding ∈ policy.roleBindings,
    binding.effect = .deny ∧ policy.Matches { request with context := erased } binding

theorem denied_stays_denied_iff {policy : IamPolicyInfo} {revision : Nat}
    {catalog : CompiledPolicy} (hcompiled : CompiledPolicy.compile policy revision = .ok catalog)
    {request : AuthorizationRequest} (herased : erased.Erases request.context) :
    (¬(catalog.authorize request).allowed = true →
        ¬(catalog.authorize { request with context := erased }).allowed = true) ↔
      policy.DenialKept request erased := by
  rw [compiled_permits hcompiled, compiled_permits hcompiled]
  apply permits_narrows_iff
  rintro binding - ⟨heffect, hmatches⟩
  exact ⟨heffect, hmatches.of_erased herased⟩

/-- The request of the same principal and action for one resource. -/
def AuthorizationRequest.on (request : AuthorizationRequest) (resource : ResourceUrn) :
    AuthorizationRequest :=
  { request with resourceUrn := resource, parentUrns := [] }

/-- The scope computed for the request, with the given context. -/
def CompiledPolicy.scopeOf (catalog : CompiledPolicy) (request : AuthorizationRequest)
    (context : EvaluationContext) : AuthorizationScope :=
  catalog.authorizationScope request.principalId request.groupPrincipalIds request.action context

theorem missing_attributes_narrow_iff (policy : IamPolicyInfo) (revision : Nat)
    (catalog : CompiledPolicy)
    (hcompiled : CompiledPolicy.compile policy revision = .ok catalog)
    (request : AuthorizationRequest) (erased : EvaluationContext)
    (herased : erased.Erases request.context) :
    (((catalog.authorize request).allowed = false →
        (catalog.authorize { request with context := erased }).allowed = false) ∧
      ∀ resource, ¬(catalog.scopeOf request request.context).Permits [resource] →
        ¬(catalog.scopeOf request erased).Permits [resource]) ↔
    policy.DenialKept request erased ∧
      ∀ resource, policy.DenialKept (request.on resource) erased := by
  rw [← denied_stays_denied_iff hcompiled herased, Bool.not_eq_true, Bool.not_eq_true]
  refine and_congr_right fun _ => forall_congr' fun resource => ?_
  have hresource : erased.Erases (request.on resource).context := herased
  rw [← denied_stays_denied_iff hcompiled hresource, authorize_allowed_iff_scope hcompiled,
    authorize_allowed_iff_scope hcompiled]
  rfl

end

namespace Payroll

/-- The office binding asks for a source address, so without one nothing is allowed. -/
theorem board_denied_without_address :
    ∃ catalog, CompiledPolicy.compile policy 1 = .ok catalog ∧
      (catalog.authorize { request "board" with context := {} }).allowed = false := by
  refine ⟨_, rfl, ?_⟩
  have herased : EvaluationContext.Erases {} (request "board").context :=
    ⟨.inl rfl, .inl rfl, .inl rfl, fun name value h => by cases h⟩
  have hkept : ∀ asked : AuthorizationRequest, policy.DenialKept asked {} := by
    rintro asked ⟨binding, hmem, heffect, hmatches⟩ -
    simp only [policy, List.mem_cons, List.not_mem_nil, or_false] at hmem
    obtain rfl | rfl := hmem
    · obtain ⟨address, haddress, -⟩ := hmatches.conditions.sourceIp _ rfl
      cases haddress
    · cases heffect
  have hnarrow := missing_attributes_narrow_iff policy 1 _ rfl (request "board") {} herased
  exact (hnarrow.mpr ⟨hkept _, fun _ => hkept _⟩).1 (by decide)

/-- Everybody may read, but not from outside the office. -/
def officeOnly : IamPolicyInfo :=
  { policy with
    roleBindings :=
      [{ id := "staff", principalId := "alice", roleId := "reader", effect := .allow,
         resourceUrn := "urn:iam:*:payroll:*:default:payroll/**" },
       { id := "outside", principalId := "alice", roleId := "reader", effect := .deny,
         resourceUrn := "urn:iam:*:payroll:*:default:payroll/**",
         conditions := { sourceIp := some { notInCidr := ["10.0.0.0/8"] } } }] }

def outside : EvaluationContext := { sourceIp := some (.v4 0xC0A80001#32) }

theorem missing_address_widens :
    ∃ catalog, CompiledPolicy.compile officeOnly 1 = .ok catalog ∧
      EvaluationContext.Erases {} outside ∧
      (catalog.authorize { request "january" with context := outside }).allowed = false ∧
      (catalog.authorize { request "january" with context := {} }).allowed = true :=
  ⟨_, rfl, ⟨.inl rfl, .inr rfl, .inr rfl, fun name value h => by cases h⟩, by decide, by decide⟩

end Payroll

end Authguard
