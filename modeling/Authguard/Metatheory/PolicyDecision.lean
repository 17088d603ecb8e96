import Authguard.Library.DenyOverrides
import Authguard.Metatheory.PolicyCompile

/-!
The decision of a compiled policy against the declarative meaning of the raw
catalog: some matching binding allows, and no matching binding denies. The
evaluator's early exit, its last-allow accumulator and the order of the catalog
leave the decision alone; the order can only choose which binding is named.
-/

namespace Authguard
open Text Result DenyOverrides

section
variable [Ipnet]

/-! The declarative meaning. -/

def InCidr (text : String) (address : IpAddr) : Prop :=
  ∃ network, Ipnet.parse text = .ok network ∧ Ipnet.contains network address = true

structure AuthorizationConditionSpec.Holds (spec : AuthorizationConditionSpec)
    (context : EvaluationContext) : Prop where
  sourceIp : ∀ condition, spec.sourceIp = some condition →
    ∃ address, context.sourceIp = some address ∧
      (condition.inCidr = [] ∨ ∃ text ∈ condition.inCidr, InCidr text address) ∧
      ¬ ∃ text ∈ condition.notInCidr, InCidr text address
  method : spec.request.methods = [] ∨
    ∃ method, context.requestMethod = some method ∧
      ∃ allowed ∈ spec.request.methods, eqIgnoreAsciiCase allowed method = true
  transport : ∀ expected, spec.request.secureTransport = some expected →
    context.secureTransport = some expected
  mfa : ∀ expected, spec.subject.mfa = some expected →
    ∃ value, context.claims.get "mfa" = some value ∧ parseBool value = some expected
  claims : ∀ claim ∈ spec.subject.claims.entries, context.claims.get claim.1 = some claim.2

/-- A raw binding matches the request. -/
structure IamPolicyInfo.Matches (policy : IamPolicyInfo) (request : AuthorizationRequest)
    (binding : IamRoleBindingInfo) : Prop where
  principal : binding.principalId = request.principalId ∨
    binding.principalId ∈ request.groupPrincipalIds
  action : ∃ role ∈ policy.roles, role.id = binding.roleId ∧ request.action ∈ role.actionIds
  resource : ∃ pattern, UrnPattern.fromStr binding.resourceUrn = .ok pattern ∧
    ∃ urn ∈ request.resourceUrn :: request.parentUrns, pattern.matches urn = true
  conditions : binding.conditions.Holds request.context

def IamPolicyInfo.Permits (policy : IamPolicyInfo) (request : AuthorizationRequest) : Prop :=
  DenyOverrides.Permits
    (fun binding => binding.effect = .allow ∧ policy.Matches request binding)
    (fun binding => binding.effect = .deny ∧ policy.Matches request binding)
    policy.roleBindings

/-! Conditions. -/

theorem parseCidrs_any {values : List String} {field : String} {networks : List Ipnet.IpNet}
    (h : parseCidrs values field = .ok networks) (address : IpAddr) :
    networks.any (Ipnet.contains · address) = true ↔ ∃ text ∈ values, InCidr text address := by
  rw [List.any_eq_true]
  constructor
  · rintro ⟨network, hmem, hcontains⟩
    obtain ⟨text, htext, hparse⟩ := collect_ok_mem h hmem
    exact ⟨text, htext, network, mapError_ok.mp hparse, hcontains⟩
  · rintro ⟨text, htext, network, hparse, hcontains⟩
    obtain ⟨network', hmem, hparse'⟩ := collect_mem_ok h htext
    rw [mapError_ok, hparse, Except.ok.injEq] at hparse'
    exact ⟨network', hmem, hparse' ▸ hcontains⟩

theorem parseCidrs_isEmpty {values : List String} {field : String}
    {networks : List Ipnet.IpNet} (h : parseCidrs values field = .ok networks) :
    networks.isEmpty = true ↔ values = [] := by
  have hlength := (collect_eq_ok.mp h).length_eq
  rw [List.isEmpty_iff, ← List.length_eq_zero_iff, ← hlength, List.length_eq_zero_iff]

theorem SourceIpConditionSpec.compile_matches {spec : SourceIpConditionSpec}
    {conditions : SourceIpConditions} (h : spec.compile = .ok conditions)
    (sourceIp : Option IpAddr) :
    conditions.matches sourceIp = true ↔ ∃ address, sourceIp = some address ∧
      (spec.inCidr = [] ∨ ∃ text ∈ spec.inCidr, InCidr text address) ∧
      ¬ ∃ text ∈ spec.notInCidr, InCidr text address := by
  simp only [SourceIpConditionSpec.compile, bind_ok_iff] at h
  obtain ⟨inCidr, hin, notInCidr, hnot, h⟩ := h
  cases h
  cases sourceIp with
  | none => simp [SourceIpConditions.matches]
  | some address =>
      simp only [SourceIpConditions.matches, Bool.and_eq_true, Bool.or_eq_true,
        Bool.not_eq_true', ← Bool.not_eq_true, parseCidrs_any hin, parseCidrs_any hnot,
        parseCidrs_isEmpty hin, Option.some.injEq, exists_eq_left']

omit [Ipnet] in
theorem RequestConditionSpec.matches_iff (spec : RequestConditionSpec)
    (context : EvaluationContext) :
    spec.matches context = true ↔
      (spec.methods = [] ∨ ∃ method, context.requestMethod = some method ∧
        ∃ allowed ∈ spec.methods, eqIgnoreAsciiCase allowed method = true) ∧
      ∀ expected, spec.secureTransport = some expected →
        context.secureTransport = some expected := by
  simp only [RequestConditionSpec.matches, Bool.and_eq_true, Bool.or_eq_true, List.isEmpty_iff,
    Option.any_eq_true, List.any_eq_true, Option.all_eq_true, beq_iff_eq]

omit [Ipnet] in
theorem SubjectConditionSpec.matches_iff (spec : SubjectConditionSpec)
    (context : EvaluationContext) :
    spec.matches context = true ↔
      (∀ expected, spec.mfa = some expected →
        ∃ value, context.claims.get "mfa" = some value ∧ parseBool value = some expected) ∧
      ∀ claim ∈ spec.claims.entries, context.claims.get claim.1 = some claim.2 := by
  simp only [SubjectConditionSpec.matches, Bool.and_eq_true, Option.all_eq_true, beq_iff_eq,
    Option.bind_eq_some_iff, List.all_eq_true]

theorem compileSourceIp_matches {spec : Option SourceIpConditionSpec}
    {conditions : Option SourceIpConditions} (h : compileSourceIp spec = .ok conditions)
    (sourceIp : Option IpAddr) :
    conditions.all (·.matches sourceIp) = true ↔
      ∀ condition, spec = some condition →
        ∃ address, sourceIp = some address ∧
          (condition.inCidr = [] ∨ ∃ text ∈ condition.inCidr, InCidr text address) ∧
          ¬ ∃ text ∈ condition.notInCidr, InCidr text address := by
  cases spec with
  | none =>
      cases h
      simp
  | some condition =>
      cases hcompiled : condition.compile with
      | error message => simp [compileSourceIp, hcompiled, Except.map] at h
      | ok compiled =>
          simp only [compileSourceIp, hcompiled, Except.map, Except.ok.injEq] at h
          simp only [← h, Option.all_some, Option.some.injEq, forall_eq',
            SourceIpConditionSpec.compile_matches hcompiled]

theorem AuthorizationConditionSpec.compile_matches {spec : AuthorizationConditionSpec}
    {conditions : AuthorizationConditions} (h : spec.compile = .ok conditions)
    (context : EvaluationContext) :
    conditions.matches context = true ↔ spec.Holds context := by
  simp only [AuthorizationConditionSpec.compile, bind_ok_iff] at h
  obtain ⟨sourceIp, hsource, h⟩ := h
  cases h
  simp only [AuthorizationConditions.matches, Bool.and_eq_true, compileSourceIp_matches hsource,
    RequestConditionSpec.matches_iff, SubjectConditionSpec.matches_iff]
  constructor
  · rintro ⟨⟨hsource, hmethod, htransport⟩, hmfa, hclaims⟩
    exact ⟨hsource, hmethod, htransport, hmfa, hclaims⟩
  · intro h
    exact ⟨⟨h.sourceIp, h.method, h.transport⟩, h.mfa, h.claims⟩

/-! Bindings and decisions. -/

theorem principalMatches_iff {binding : CompiledRoleBinding} {principalId : String}
    {groups : List String} :
    principalMatches binding principalId groups = true ↔
      binding.principalId = principalId ∨ binding.principalId ∈ groups := by
  simp [principalMatches]

omit [Ipnet] in
theorem UrnPattern.matchesAny_iff {pattern : UrnPattern} {urns : List ResourceUrn} :
    pattern.matchesAny urns = true ↔ ∃ urn ∈ urns, pattern.matches urn = true := by
  rw [UrnPattern.matchesAny, List.any_eq_true]

theorem applies_iff_matches {policy : IamPolicyInfo}
    (unique : (policy.roles.map (·.id)).Nodup) {binding : IamRoleBindingInfo}
    {compiled : CompiledRoleBinding}
    (h : compileRoleBinding (roleTable policy.roles) binding = .ok compiled)
    (request : AuthorizationRequest) :
    compiled.applies request = true ↔ policy.Matches request binding := by
  obtain ⟨-, role, hrole, hpattern, hconditions, -, hprincipal, hactions, -⟩ :=
    compileRoleBinding_ok h
  obtain ⟨hmem, hid⟩ := roleTable_mem hrole
  have haction : request.action ∈ compiled.actionIds ↔
      ∃ role ∈ policy.roles, role.id = binding.roleId ∧ request.action ∈ role.actionIds := by
    rw [hactions, List.mem_toFinset]
    constructor
    · intro hgranted
      exact ⟨role, hmem, hid, hgranted⟩
    · rintro ⟨other, hother, hotherId, hgranted⟩
      rw [List.inj_on_of_nodup_map unique hmem hother (hid.trans hotherId.symm)]
      exact hgranted
  simp only [CompiledRoleBinding.applies, Bool.and_eq_true, principalMatches_iff,
    UrnPattern.matchesAny_iff, decide_eq_true_eq, haction, hprincipal,
    AuthorizationConditionSpec.compile_matches hconditions]
  constructor
  · rintro ⟨⟨⟨hprincipal, hurn⟩, haction⟩, hholds⟩
    exact ⟨hprincipal, haction, ⟨_, hpattern, hurn⟩, hholds⟩
  · rintro ⟨hprincipal, haction, ⟨pattern, hparsed, hurn⟩, hholds⟩
    rw [hpattern, Except.ok.injEq] at hparsed
    exact ⟨⟨⟨hprincipal, hparsed ▸ hurn⟩, haction⟩, hholds⟩

/-- What the loop can decide, with an allow already seen or not. -/
inductive Decides (request : AuthorizationRequest) (bindings : List CompiledRoleBinding)
    (seen : Option String) : AuthorizationDecision → Prop
  | denied (binding : CompiledRoleBinding) : binding ∈ bindings →
      binding.applies request = true → binding.effect = .deny →
      Decides request bindings seen ⟨false, "explicit deny", some binding.id⟩
  | allowed (binding : CompiledRoleBinding) : binding ∈ bindings →
      binding.applies request = true → binding.effect = .allow →
      (¬ ∃ other ∈ bindings, other.effect = .deny ∧ other.applies request = true) →
      Decides request bindings seen ⟨true, "matched role binding", some binding.id⟩
  | kept (id : String) : seen = some id →
      (¬ ∃ other ∈ bindings, other.effect = .deny ∧ other.applies request = true) →
      Decides request bindings seen ⟨true, "matched role binding", some id⟩
  | undecided : seen = none → (¬ ∃ other ∈ bindings, other.applies request = true) →
      Decides request bindings seen ⟨false, "default deny", none⟩

theorem Decides.skip {request : AuthorizationRequest} {binding : CompiledRoleBinding}
    {bindings : List CompiledRoleBinding} {seen : Option String}
    {decision : AuthorizationDecision} (hskip : binding.applies request = false)
    (h : Decides request bindings seen decision) :
    Decides request (binding :: bindings) seen decision := by
  have hdeny : (∃ other ∈ binding :: bindings, other.effect = .deny ∧
      other.applies request = true) ↔
      ∃ other ∈ bindings, other.effect = .deny ∧ other.applies request = true := by
    simp [hskip]
  cases h with
  | denied other hmem happlies heffect =>
      exact .denied other (List.mem_cons_of_mem _ hmem) happlies heffect
  | allowed other hmem happlies heffect hno =>
      exact .allowed other (List.mem_cons_of_mem _ hmem) happlies heffect (hdeny.not.mpr hno)
  | kept id hseen hno => exact .kept id hseen (hdeny.not.mpr hno)
  | undecided hseen hno => exact .undecided hseen (by simpa [hskip] using hno)

theorem Decides.allow {request : AuthorizationRequest} {binding : CompiledRoleBinding}
    {bindings : List CompiledRoleBinding} {seen : Option String}
    {decision : AuthorizationDecision} (happlies : binding.applies request = true)
    (heffect : binding.effect = .allow)
    (h : Decides request bindings (some binding.id) decision) :
    Decides request (binding :: bindings) seen decision := by
  have hdeny : (∃ other ∈ binding :: bindings, other.effect = .deny ∧
      other.applies request = true) ↔
      ∃ other ∈ bindings, other.effect = .deny ∧ other.applies request = true := by
    simp [heffect]
  cases h with
  | denied other hmem happlies heffect =>
      exact .denied other (List.mem_cons_of_mem _ hmem) happlies heffect
  | allowed other hmem happlies heffect hno =>
      exact .allowed other (List.mem_cons_of_mem _ hmem) happlies heffect (hdeny.not.mpr hno)
  | kept id hseen hno =>
      cases hseen
      exact .allowed binding List.mem_cons_self happlies heffect (hdeny.not.mpr hno)
  | undecided hseen _ => cases hseen

theorem authorizeFrom_decides (request : AuthorizationRequest)
    (bindings : List CompiledRoleBinding) (seen : Option String) :
    Decides request bindings seen (authorizeFrom request bindings seen) := by
  induction bindings generalizing seen with
  | nil =>
      cases seen with
      | none => exact .undecided rfl (by simp)
      | some id => exact .kept id rfl (by simp)
  | cons binding bindings ih =>
      rw [authorizeFrom]
      by_cases happlies : binding.applies request = true
      · rw [if_neg (by simp [happlies])]
        by_cases heffect : binding.effect = .deny
        · rw [if_pos heffect]
          exact .denied binding List.mem_cons_self happlies heffect
        · rw [if_neg heffect]
          have hallow : binding.effect = .allow := by
            cases h : binding.effect with
            | allow => rfl
            | deny => exact absurd h heffect
          exact (ih (some binding.id)).allow happlies hallow
      · rw [Bool.not_eq_true] at happlies
        rw [if_pos (by simp [happlies])]
        exact (ih seen).skip happlies

theorem authorize_decides (catalog : CompiledPolicy) (request : AuthorizationRequest) :
    Decides request catalog.roleBindings none (catalog.authorize request) :=
  authorizeFrom_decides request catalog.roleBindings none

theorem Decides.permits {request : AuthorizationRequest} {bindings : List CompiledRoleBinding}
    {decision : AuthorizationDecision} (h : Decides request bindings none decision) :
    decision.allowed = true ↔
      DenyOverrides.Permits
        (fun binding => binding.effect = .allow ∧ binding.applies request = true)
        (fun binding => binding.effect = .deny ∧ binding.applies request = true) bindings := by
  cases h with
  | denied binding hmem happlies heffect =>
      exact iff_of_false (by simp) fun hpermits =>
        hpermits.2 ⟨binding, hmem, heffect, happlies⟩
  | allowed binding hmem happlies heffect hno =>
      exact iff_of_true rfl ⟨⟨binding, hmem, heffect, happlies⟩, hno⟩
  | kept id hseen _ => cases hseen
  | undecided _ hno =>
      refine iff_of_false (by simp) ?_
      rintro ⟨⟨binding, hmem, _, happlies⟩, _⟩
      exact hno ⟨binding, hmem, happlies⟩

/-- The order of the bindings changes neither the answer nor the reason. -/
theorem Decides.perm {request : AuthorizationRequest}
    {bindings bindings' : List CompiledRoleBinding} {decision decision' : AuthorizationDecision}
    (hp : bindings.Perm bindings') (h : Decides request bindings none decision)
    (h' : Decides request bindings' none decision') :
    decision'.allowed = decision.allowed ∧ decision'.reason = decision.reason := by
  have hallowed : decision'.allowed = decision.allowed := by
    rw [Bool.eq_iff_iff, h.permits, h'.permits, permits_perm hp]
  refine ⟨hallowed, ?_⟩
  cases h with
  | kept id hseen _ => cases hseen
  | denied binding hmem happlies _ =>
      cases h' with
      | denied => rfl
      | allowed => cases hallowed
      | kept id hseen _ => cases hseen
      | undecided _ hno => exact absurd ⟨binding, hp.mem_iff.mp hmem, happlies⟩ hno
  | allowed =>
      cases h' with
      | allowed => rfl
      | kept id hseen _ => cases hseen
      | denied | undecided => cases hallowed
  | undecided _ hno =>
      cases h' with
      | denied binding hmem happlies _ =>
          exact absurd ⟨binding, hp.mem_iff.mpr hmem, happlies⟩ hno
      | allowed => cases hallowed
      | kept id hseen _ => cases hseen
      | undecided => rfl

theorem compiled_permits {policy : IamPolicyInfo} {revision : Nat} {catalog : CompiledPolicy}
    (hcompiled : CompiledPolicy.compile policy revision = .ok catalog)
    (request : AuthorizationRequest) :
    (catalog.authorize request).allowed = true ↔ policy.Permits request := by
  have hpolicy := compile_eq_ok.mp hcompiled
  rw [(authorize_decides catalog request).permits, IamPolicyInfo.Permits]
  have happlies := fun binding compiled h =>
    @applies_iff_matches _ policy hpolicy.roleIds.nodup binding compiled h request
  refine (permits_forall₂ ?_ ?_ (collect_eq_ok.mp hpolicy.bindings)).symm
  · intro binding compiled h
    obtain ⟨-, _, -, -, -, -, -, -, heffect⟩ := compileRoleBinding_ok h
    rw [heffect, happlies binding compiled h]
  · intro binding compiled h
    obtain ⟨-, _, -, -, -, -, -, -, heffect⟩ := compileRoleBinding_ok h
    rw [heffect, happlies binding compiled h]

def Effect.decided (allowed : Bool) : Effect := if allowed then .allow else .deny

theorem compiled_roleBindingId {policy : IamPolicyInfo} {revision : Nat}
    {catalog : CompiledPolicy} (hcompiled : CompiledPolicy.compile policy revision = .ok catalog)
    (request : AuthorizationRequest) (id : String)
    (hid : (catalog.authorize request).roleBindingId = some id) :
    ∃ binding ∈ policy.roleBindings, binding.id = id ∧ policy.Matches request binding ∧
      binding.effect = Effect.decided (catalog.authorize request).allowed := by
  have hpolicy := compile_eq_ok.mp hcompiled
  have hraw : ∀ compiled ∈ catalog.roleBindings, compiled.applies request = true →
      ∃ binding ∈ policy.roleBindings, binding.id = compiled.id ∧
        policy.Matches request binding ∧ binding.effect = compiled.effect := by
    intro compiled hmem happlies
    obtain ⟨binding, hbinding, h⟩ := collect_ok_mem hpolicy.bindings hmem
    have hmatches := (applies_iff_matches hpolicy.roleIds.nodup h request).mp happlies
    obtain ⟨-, _, -, -, -, hsame, -, -, heffect⟩ := compileRoleBinding_ok h
    exact ⟨binding, hbinding, hsame.symm, hmatches, heffect.symm⟩
  generalize hdecision : catalog.authorize request = decision at hid
  have hdecides := authorize_decides catalog request
  rw [hdecision] at hdecides
  cases hdecides with
  | denied binding hmem happlies heffect =>
      cases hid
      obtain ⟨raw, hmem, hsame, hmatches, hkind⟩ := hraw binding hmem happlies
      exact ⟨raw, hmem, hsame, hmatches, hkind.trans heffect⟩
  | allowed binding hmem happlies heffect _ =>
      cases hid
      obtain ⟨raw, hmem, hsame, hmatches, hkind⟩ := hraw binding hmem happlies
      exact ⟨raw, hmem, hsame, hmatches, hkind.trans heffect⟩
  | kept _ hseen _ => cases hseen
  | undecided => cases hid

omit [Ipnet] in
theorem sameGrants_of_perm {policy : IamPolicyInfo} {actions : List IamActionInfo}
    {roles : List IamRoleInfo} {roleBindings : List IamRoleBindingInfo}
    (hactions : actions.Perm policy.actions) (hroles : roles.Perm policy.roles)
    (hbindings : roleBindings.Perm policy.roleBindings) :
    SameGrants policy { policy with actions, roles, roleBindings } where
  actions := hactions.symm
  bindings := hbindings.symm
  roleIds := (hroles.map _).symm
  granted role hrole := ⟨role, hroles.mem_iff.mpr hrole, rfl, rfl⟩

/-- Compilation followed by evaluation is the deny-overrides reading of the raw catalog,
in every order of the catalog, and names a binding that decided. -/
theorem authorize_denyOverrides (policy : IamPolicyInfo) (revision : Nat)
    (catalog : CompiledPolicy)
    (hcompiled : CompiledPolicy.compile policy revision = .ok catalog)
    (request : AuthorizationRequest) :
    ((catalog.authorize request).allowed = true ↔
      (∃ binding ∈ policy.roleBindings,
        binding.effect = .allow ∧ policy.Matches request binding) ∧
      ¬ ∃ binding ∈ policy.roleBindings,
        binding.effect = .deny ∧ policy.Matches request binding) ∧
    (∀ id, (catalog.authorize request).roleBindingId = some id →
      ∃ binding ∈ policy.roleBindings, binding.id = id ∧ policy.Matches request binding ∧
        binding.effect = Effect.decided (catalog.authorize request).allowed) ∧
    ∀ actions roles roleBindings, actions.Perm policy.actions → roles.Perm policy.roles →
      roleBindings.Perm policy.roleBindings →
      ∃ catalog', CompiledPolicy.compile { policy with actions, roles, roleBindings } revision =
          .ok catalog' ∧
        (catalog'.authorize request).allowed = (catalog.authorize request).allowed ∧
        (catalog'.authorize request).reason = (catalog.authorize request).reason := by
  refine ⟨compiled_permits hcompiled request, compiled_roleBindingId hcompiled request, ?_⟩
  intro actions roles roleBindings hactions hroles hbindings
  have hsame := sameGrants_of_perm hactions hroles hbindings
  obtain ⟨catalog', hcatalog', hperm, -⟩ := hsame.compile hcompiled revision
  exact ⟨catalog', hcatalog',
    (authorize_decides catalog request).perm hperm (authorize_decides catalog' request)⟩

end

namespace Payroll

/-- The `ipnet` crate on the one network used here. -/
scoped instance officeNetworks : Ipnet where
  IpNet := Unit
  parse text := if text = "10.0.0.0/8" then .ok () else .error "invalid IP address syntax"
  contains _ address := match address with
    | .v4 address => address.extractLsb' 24 8 == 10#8
    | .v6 _ => false

def policy : IamPolicyInfo where
  revision := 1
  actions := [{ identifier := "payroll.read", routeMatchers := [
    { id := "payroll-read", methods := ["GET"], path := "/payrolls/\x7bpayroll_id\x7d",
      resourceUrn := "urn:iam:prod:payroll:global:default:payroll/\x7bpayroll_id\x7d" }] }]
  roles := [{ id := "reader", name := "Reader", actionIds := ["payroll.read"] }]
  roleBindings :=
    [{ id := "office", principalId := "alice", roleId := "reader", effect := .allow,
       resourceUrn := "urn:iam:*:payroll:*:default:payroll/**",
       conditions := { sourceIp := some { inCidr := ["10.0.0.0/8"] } } },
     { id := "contractors", principalId := "contractors", roleId := "reader", effect := .deny,
       resourceUrn := "urn:iam:*:payroll:*:default:payroll/board" }]

def request (payroll : String) : AuthorizationRequest where
  principalId := "alice"
  groupPrincipalIds := ["contractors"]
  action := "payroll.read"
  resourceUrn := ⟨"prod", "payroll", "global", "default", ["payroll", payroll]⟩
  context := { sourceIp := some (.v4 0x0A000001#32), requestMethod := some "GET" }

theorem january_permitted :
    (∃ binding ∈ policy.roleBindings,
      binding.effect = .allow ∧ policy.Matches (request "january") binding) ∧
    ¬ ∃ binding ∈ policy.roleBindings,
      binding.effect = .deny ∧ policy.Matches (request "january") binding := by
  have hdecision := authorize_denyOverrides policy 1 _ rfl (request "january")
  exact hdecision.1.mp (by decide)

end Payroll

end Authguard
