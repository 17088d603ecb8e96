import Authguard.Metatheory.PolicyDecision

/-!
The authorization scope against the decision. A scope lists the resource
patterns of every binding that applies up to the resource, as text; whoever reads
the texts back and applies deny-overrides reaches the decision of the engine.
-/

namespace Authguard
open Text Result DenyOverrides

section
variable [Ipnet]

theorem mem_allowResourceUrns {catalog : CompiledPolicy} {principalId action target : String}
    {groups : List String} {context : EvaluationContext} :
    target ∈ (catalog.authorizationScope principalId groups action context).allowResourceUrns ↔
      ∃ binding ∈ catalog.roleBindings,
        binding.inScope principalId groups action context = true ∧
          binding.effect = .allow ∧ binding.resourceUrn.display = target := by
  simp [CompiledPolicy.authorizationScope, mem_sortDedup, and_assoc, and_left_comm]

theorem mem_denyResourceUrns {catalog : CompiledPolicy} {principalId action target : String}
    {groups : List String} {context : EvaluationContext} :
    target ∈ (catalog.authorizationScope principalId groups action context).denyResourceUrns ↔
      ∃ binding ∈ catalog.roleBindings,
        binding.inScope principalId groups action context = true ∧
          binding.effect = .deny ∧ binding.resourceUrn.display = target := by
  simp [CompiledPolicy.authorizationScope, mem_sortDedup, and_assoc, and_left_comm]

/-- The order of the bindings does not show in a scope. -/
theorem authorizationScope_perm {catalog catalog' : CompiledPolicy}
    (h : catalog.roleBindings.Perm catalog'.roleBindings) (principalId : String)
    (groups : List String) (action : String) (context : EvaluationContext) :
    catalog.authorizationScope principalId groups action context =
      catalog'.authorizationScope principalId groups action context := by
  simp only [CompiledPolicy.authorizationScope, AuthorizationScope.mk.injEq]
  exact ⟨sortDedup_perm (((h.filter _).filter _).map _),
    sortDedup_perm (((h.filter _).filter _).map _)⟩

/-- Compiled patterns survive being printed and read back. -/
theorem compiled_fromStr_display {policy : IamPolicyInfo} {revision : Nat}
    {catalog : CompiledPolicy} (hcompiled : CompiledPolicy.compile policy revision = .ok catalog)
    {binding : CompiledRoleBinding} (hmem : binding ∈ catalog.roleBindings) :
    UrnPattern.fromStr binding.resourceUrn.display = .ok binding.resourceUrn := by
  obtain ⟨raw, -, h⟩ := collect_ok_mem (compile_eq_ok.mp hcompiled).bindings hmem
  obtain ⟨-, _, -, hpattern, -⟩ := compileRoleBinding_ok h
  exact UrnPattern.fromStr_display hpattern

/-- A pattern given as text accepts the resource or one of its parents. -/
def AcceptsText (urns : List ResourceUrn) (text : String) : Prop :=
  ∃ pattern, UrnPattern.fromStr text = .ok pattern ∧ ∃ urn ∈ urns, pattern.matches urn = true

omit [Ipnet] in
theorem acceptsText_iff {urns : List ResourceUrn} {text : String} {pattern : UrnPattern}
    (h : UrnPattern.fromStr text = .ok pattern) :
    AcceptsText urns text ↔ pattern.matchesAny urns = true := by
  rw [UrnPattern.matchesAny_iff]
  constructor
  · rintro ⟨pattern', h', hurn⟩
    rw [h, Except.ok.injEq] at h'
    exact h' ▸ hurn
  · intro hurn
    exact ⟨pattern, h, hurn⟩

theorem CompiledRoleBinding.applies_iff_inScope {binding : CompiledRoleBinding}
    {request : AuthorizationRequest} :
    binding.applies request = true ↔
      binding.inScope request.principalId request.groupPrincipalIds request.action
        request.context = true ∧
      binding.resourceUrn.matchesAny (request.resourceUrn :: request.parentUrns) = true := by
  simp only [CompiledRoleBinding.applies, CompiledRoleBinding.inScope, Bool.and_eq_true]
  constructor
  · rintro ⟨⟨⟨hprincipal, hurn⟩, haction⟩, hconditions⟩
    exact ⟨⟨⟨hprincipal, haction⟩, hconditions⟩, hurn⟩
  · rintro ⟨⟨⟨hprincipal, haction⟩, hconditions⟩, hurn⟩
    exact ⟨⟨⟨hprincipal, hurn⟩, haction⟩, hconditions⟩

/-- The scope permits a resource with these parents. -/
def AuthorizationScope.Permits (scope : AuthorizationScope) (urns : List ResourceUrn) : Prop :=
  (∃ text ∈ scope.allowResourceUrns, AcceptsText urns text) ∧
    ¬ ∃ text ∈ scope.denyResourceUrns, AcceptsText urns text

theorem authorize_allowed_iff_scope {policy : IamPolicyInfo} {revision : Nat}
    {catalog : CompiledPolicy} (hcompiled : CompiledPolicy.compile policy revision = .ok catalog)
    (request : AuthorizationRequest) :
    (catalog.authorize request).allowed = true ↔
      (catalog.authorizationScope request.principalId request.groupPrincipalIds request.action
        request.context).Permits (request.resourceUrn :: request.parentUrns) := by
  -- a binding applies when it is in scope and its printed pattern accepts the resource
  have happlies : ∀ effect, ∀ binding ∈ catalog.roleBindings,
      (binding.effect = effect ∧ binding.applies request = true ↔
        binding.inScope request.principalId request.groupPrincipalIds request.action
            request.context = true ∧ binding.effect = effect ∧
          AcceptsText (request.resourceUrn :: request.parentUrns)
            binding.resourceUrn.display) := by
    intro effect binding hmem
    rw [acceptsText_iff (compiled_fromStr_display hcompiled hmem),
      CompiledRoleBinding.applies_iff_inScope]
    exact and_left_comm
  rw [(authorize_decides catalog request).permits,
    permits_congr (happlies .allow) (happlies .deny)]
  exact permits_targets (fun _ => mem_allowResourceUrns) (fun _ => mem_denyResourceUrns)

theorem authorize_agrees_with_scope (policy : IamPolicyInfo) (revision : Nat)
    (catalog : CompiledPolicy)
    (hcompiled : CompiledPolicy.compile policy revision = .ok catalog)
    (principalId : String) (groups : List String) (action : String)
    (context : EvaluationContext) (resourceUrn : ResourceUrn) (parentUrns : List ResourceUrn) :
    let scope := catalog.authorizationScope principalId groups action context
    let decision := catalog.authorize
      { principalId, groupPrincipalIds := groups, action, resourceUrn, parentUrns, context }
    (∀ text ∈ scope.allowResourceUrns ++ scope.denyResourceUrns,
      ∃ pattern, UrnPattern.fromStr text = .ok pattern) ∧
    (decision.allowed = true ↔
      (∃ text ∈ scope.allowResourceUrns, AcceptsText (resourceUrn :: parentUrns) text) ∧
        ¬ ∃ text ∈ scope.denyResourceUrns, AcceptsText (resourceUrn :: parentUrns) text) := by
  intro scope decision
  constructor
  · intro text htext
    rw [List.mem_append, mem_allowResourceUrns, mem_denyResourceUrns] at htext
    cases htext with
    | inl h | inr h =>
        obtain ⟨binding, hmem, -, -, rfl⟩ := h
        exact ⟨_, compiled_fromStr_display hcompiled hmem⟩
  · exact authorize_allowed_iff_scope hcompiled
      { principalId, groupPrincipalIds := groups, action, resourceUrn, parentUrns, context }

end

namespace Payroll

theorem january_in_scope :
    ∃ catalog, CompiledPolicy.compile policy 1 = .ok catalog ∧
      ∃ text ∈ (catalog.authorizationScope "alice" ["contractors"] "payroll.read"
          (request "january").context).allowResourceUrns,
        AcceptsText [(request "january").resourceUrn] text := by
  refine ⟨_, rfl, ?_⟩
  have hagrees := authorize_agrees_with_scope policy 1 _ rfl "alice" ["contractors"]
    "payroll.read" (request "january").context (request "january").resourceUrn []
  exact (hagrees.2.mp (by decide)).1

end Payroll

end Authguard
