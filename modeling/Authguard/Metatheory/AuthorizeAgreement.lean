import Authguard.Authz.AuthorizeRequest
import Authguard.Metatheory.CheckSafety

/-!
The authorization API against the gateway. Both ask the same catalog; the gateway
drops the groups that are not stored as active groups, the API does not. They
agree where no binding of such a group tips the decision.
-/

namespace Authguard
open Text Result

/-! Stored principals. -/

theorem PrincipalTable.get_eq_some {table : PrincipalTable} {id : String}
    {principal : IamPrincipalInfo} :
    table.get id = some principal ↔ principal ∈ table.rows ∧ principal.id = id := by
  constructor
  · intro h
    exact ⟨List.mem_of_find?_eq_some h, by simpa using List.find?_some h⟩
  · rintro ⟨hmem, rfl⟩
    obtain ⟨found, hfound⟩ := Option.isSome_iff_exists.mp
      (List.find?_isSome.mpr ⟨principal, hmem, decide_eq_true rfl⟩ :
        (table.get principal.id).isSome)
    have hsame : found = principal :=
      List.inj_on_of_nodup_map table.unique (List.mem_of_find?_eq_some hfound) hmem
        (by simpa using List.find?_some hfound)
    exact hsame ▸ hfound

/-- A stored active principal is resolved, with the groups that are active. -/
theorem resolveRequest_presenting {table : PrincipalTable} {principal : IamPrincipalInfo}
    (hstored : principal ∈ table.rows) (hactive : principal.status = .active)
    (groups : List String) :
    ∃ resolved, resolveRequest table (principal.presenting groups) (.ok ()) = .ok resolved := by
  have hunique : ((table.findByIds (principal.id :: groups)).map (·.id)).Nodup :=
    table.unique.sublist (List.filter_sublist.map _)
  have hfound : principal ∈ table.findByIds (principal.id :: groups) :=
    List.mem_filter.mpr ⟨hstored, by simp⟩
  have hget := (projected_get hunique principal.id principal).mpr ⟨hfound, rfl⟩
  simp only [resolveRequest, projectPrincipals, IamPrincipalInfo.presenting, hget, hactive,
    ne_eq, not_true_eq_false, if_false]
  exact ⟨_, rfl⟩

theorem resolveRequest_inactive {table : PrincipalTable} {principal : IamPrincipalInfo}
    (hget : table.get principal.id = some principal) (hinactive : principal.status ≠ .active)
    (groups : List String) (resolved : ResolvedRequestPrincipal) :
    resolveRequest table (principal.presenting groups) (.ok ()) ≠ .ok resolved := by
  intro h
  obtain ⟨other, hother, hid, hactive, -⟩ := (resolveRequest_ok h).primary
  have hsame := PrincipalTable.get_eq_some.mpr ⟨hother, hid⟩
  rw [show (principal.presenting groups).principalId = principal.id from rfl, hget,
    Option.some.injEq] at hsame
  exact hinactive (hsame ▸ hactive)

section
variable [Ipnet]

/-- The binding is held by the principal itself or by a stored active group. -/
def PrincipalTable.Keeps (table : PrincipalTable) (principalId : String)
    (binding : CompiledRoleBinding) : Prop :=
  binding.principalId = principalId ∨ table.activeGroup binding.principalId = true

/-- No binding of a group that is missing, disabled or no group decides the question. -/
structure InactiveGroupsHarmless (table : PrincipalTable) (bindings : List CompiledRoleBinding)
    (question : AuthorizationRequest) : Prop where
  /-- Such a DENY applies only where another DENY does, or where nothing else allows. -/
  denials : (∃ binding ∈ bindings, (binding.effect = .deny ∧ binding.applies question = true) ∧
      ¬table.Keeps question.principalId binding) →
    (∃ binding ∈ bindings, (binding.effect = .allow ∧ binding.applies question = true) ∧
      table.Keeps question.principalId binding) →
    ∃ binding ∈ bindings, (binding.effect = .deny ∧ binding.applies question = true) ∧
      table.Keeps question.principalId binding
  /-- Such an ALLOW applies only where another ALLOW does, or some DENY. -/
  allowances : (∃ binding ∈ bindings, (binding.effect = .allow ∧
      binding.applies question = true) ∧ ¬table.Keeps question.principalId binding) →
    (∃ binding ∈ bindings, (binding.effect = .allow ∧ binding.applies question = true) ∧
      table.Keeps question.principalId binding) ∨
    ∃ binding ∈ bindings, binding.effect = .deny ∧ binding.applies question = true

theorem applies_activeGroups (table : PrincipalTable) (question : AuthorizationRequest)
    (binding : CompiledRoleBinding) :
    binding.applies { question with
      groupPrincipalIds := table.activeGroups question.groupPrincipalIds } = true ↔
      binding.applies question = true ∧ table.Keeps question.principalId binding := by
  simp only [CompiledRoleBinding.applies, Bool.and_eq_true, principalMatches_iff,
    PrincipalTable.activeGroups, List.mem_filter, PrincipalTable.Keeps]
  tauto

/-- What the gateway answers, in terms of the bindings that apply to the question. -/
theorem gatewayAllows_iff (catalog : Catalog) (table : PrincipalTable)
    (question : AuthorizationRequest) :
    gatewayAllows catalog table question = true ↔
      (∃ principal, table.get question.principalId = some principal ∧
        principal.status = .active) ∧
      DenyOverrides.Permits
        (fun binding => (binding.effect = .allow ∧ binding.applies question = true) ∧
          table.Keeps question.principalId binding)
        (fun binding => (binding.effect = .deny ∧ binding.applies question = true) ∧
          table.Keeps question.principalId binding) catalog.compiled.roleBindings := by
  rw [gatewayAllows]
  split
  · rename_i hnone
    simp [hnone]
  · rename_i principal hget
    have hprincipal := PrincipalTable.get_eq_some.mp hget
    split
    · rename_i error herror
      refine iff_of_false (by simp) ?_
      rintro ⟨⟨stored, hstored, hactive⟩, -⟩
      rw [hget, Option.some.injEq] at hstored
      subst hstored
      obtain ⟨resolved, hresolved⟩ :=
        resolveRequest_presenting hprincipal.1 hactive question.groupPrincipalIds
      rw [hresolved] at herror
      cases herror
    · rename_i resolved hresolved
      have hresolves := resolveRequest_ok hresolved
      have hid : resolved.principalId = question.principalId :=
        hresolves.principalId.trans hprincipal.2
      have hactive : principal.status = .active := by
        by_contra hinactive
        exact resolveRequest_inactive (hprincipal.2 ▸ hget) hinactive _ _ hresolved
      have hsame : catalog.compiled.authorize
          { question with
            principalId := resolved.principalId
            groupPrincipalIds := resolved.groupPrincipalIds } =
          catalog.compiled.authorize
            { question with
              groupPrincipalIds := table.activeGroups question.groupPrincipalIds } := by
        rw [hid]
        refine authorize_groups_congr fun id => ?_
        have hgroups := hresolves.groups id
        rwa [show (principal.presenting question.groupPrincipalIds).principalId =
          question.principalId from hprincipal.2] at hgroups
      have hpermits : ∀ effect, (fun binding : CompiledRoleBinding => binding.effect = effect ∧
          binding.applies { question with
            groupPrincipalIds := table.activeGroups question.groupPrincipalIds } = true) =
          fun binding => (binding.effect = effect ∧ binding.applies question = true) ∧
            table.Keeps question.principalId binding := by
        intro effect
        funext binding
        rw [applies_activeGroups, and_assoc]
      rw [hsame, (authorize_decides _ _).permits, hpermits, hpermits]
      constructor
      · intro h
        exact ⟨⟨principal, hget, hactive⟩, h⟩
      · exact fun h => h.2

/-- A published catalog knows no blank action. -/
theorem applies_action {catalog : Catalog} {binding : CompiledRoleBinding}
    (hbinding : binding ∈ catalog.compiled.roleBindings) {question : AuthorizationRequest}
    (h : binding.applies question = true) : isBlank question.action = false := by
  have hpolicy := compile_eq_ok.mp catalog.recompiles
  obtain ⟨raw, hraw, hcompiled⟩ := collect_ok_mem hpolicy.bindings hbinding
  obtain ⟨-, role, hrole, -, -, -, -, hactions, -⟩ := compileRoleBinding_ok hcompiled
  have haction : question.action ∈ role.actionIds := by
    simp only [CompiledRoleBinding.applies, Bool.and_eq_true, decide_eq_true_eq, hactions,
      List.mem_toFinset] at h
    exact h.1.2
  have hgranted := hpolicy.roleActions role (roleTable_mem hrole).1 _ haction
  exact hpolicy.actionIds.notBlank _ hgranted

omit [Ipnet] in
theorem resourceUrn_blank {urn : String} {parsed : ResourceUrn}
    (h : ResourceUrn.fromStr urn = .ok parsed) : isBlank urn = false := by
  simp only [ResourceUrn.fromStr, bind_ok_iff] at h
  obtain ⟨parts, hparts, -⟩ := h
  rw [← splitUrn_ok hparts, isBlank, List.all_eq_false]
  refine ⟨'u', ?_, by decide⟩
  rw [urnText, String.intercalate_cons_cons]
  simp

theorem authorizeRequest_eq (catalog : Catalog) (found : Option IamPrincipalInfo)
    {request : AuthorizeRequest} {question : AuthorizationRequest}
    (hfilled : ¬(isBlank request.principalId ∨ isBlank request.action ∨
      isBlank request.resourceUrn)) (hquestion : request.question = .ok question) :
    authorizeRequest catalog (.ok found) request =
      if found.any (·.status = .active) then .ok (catalog.compiled.authorize question)
      else .error (.authorizationPrincipalInactive request.principalId) := by
  rw [authorizeRequest, if_neg hfilled, hquestion]
  rfl

/-- What the API answers, in terms of the bindings that apply to the question. -/
theorem apiAllows_iff (catalog : Catalog) {table : PrincipalTable}
    (hstored : ∀ principal ∈ table.rows, isBlank principal.id = false)
    {request : AuthorizeRequest} {question : AuthorizationRequest}
    (hquestion : request.question = .ok question) :
    apiAllows catalog table request = true ↔
      (∃ principal, table.get question.principalId = some principal ∧
        principal.status = .active) ∧
      DenyOverrides.Permits
        (fun binding => binding.effect = .allow ∧ binding.applies question = true)
        (fun binding => binding.effect = .deny ∧ binding.applies question = true)
        catalog.compiled.roleBindings := by
  have hparsed := hquestion
  simp only [AuthorizeRequest.question, bind_ok_iff] at hparsed
  obtain ⟨urn, hurn, parents, -, hsame⟩ := hparsed
  have hurn := resourceUrn_blank (mapError_ok.mp hurn)
  have hid : question.principalId = request.principalId := by rw [← Except.ok.inj hsame]
  have haction : question.action = request.action := by rw [← Except.ok.inj hsame]
  rw [apiAllows]
  by_cases hblank : isBlank request.principalId ∨ isBlank request.action ∨
      isBlank request.resourceUrn
  · -- the gateway has no blank principal and no blank action either
    rw [authorizeRequest, if_pos hblank]
    refine iff_of_false (by simp [Except.toOption]) ?_
    rintro ⟨⟨principal, hget, -⟩, ⟨binding, hbinding, -, happlies⟩, -⟩
    obtain ⟨hrow, hprincipal⟩ := PrincipalTable.get_eq_some.mp hget
    have hname := hstored principal hrow
    have hknown := applies_action hbinding happlies
    rw [hprincipal, hid] at hname
    rw [haction] at hknown
    simp [hname, hknown, hurn] at hblank
  · rw [authorizeRequest_eq catalog _ hblank hquestion,
      ← (authorize_decides catalog.compiled question).permits, hid]
    split
    · rename_i hactive
      obtain ⟨principal, hget, hstatus⟩ := (Option.any_eq_true _ _).mp hactive
      exact ⟨fun h => ⟨⟨principal, hget, of_decide_eq_true hstatus⟩, h⟩, fun h => h.2⟩
    · rename_i hinactive
      refine iff_of_false (by simp [Except.toOption]) ?_
      rintro ⟨⟨principal, hget, hstatus⟩, -⟩
      exact hinactive ((Option.any_eq_true _ _).mpr ⟨principal, hget, decide_eq_true hstatus⟩)

theorem InactiveGroupsHarmless.of_active {table : PrincipalTable}
    {bindings : List CompiledRoleBinding} {question : AuthorizationRequest}
    (hactive : ∀ id ∈ question.groupPrincipalIds, table.activeGroup id = true) :
    InactiveGroupsHarmless table bindings question := by
  have hkept : ∀ binding : CompiledRoleBinding, binding.applies question = true →
      table.Keeps question.principalId binding := by
    intro binding happlies
    simp only [CompiledRoleBinding.applies, Bool.and_eq_true] at happlies
    obtain hself | hgroup := principalMatches_iff.mp happlies.1.1.1
    · exact .inl hself
    · exact .inr (hactive _ hgroup)
  constructor
  · rintro ⟨binding, -, ⟨-, happlies⟩, hlost⟩
    exact absurd (hkept binding happlies) hlost
  · rintro ⟨binding, -, ⟨-, happlies⟩, hlost⟩
    exact absurd (hkept binding happlies) hlost

/-- The API and the gateway give the same answer exactly where the groups that are not stored
as active groups do not tip it. -/
theorem api_agrees_with_gateway_iff (catalog : Catalog) (table : PrincipalTable)
    (hstored : ∀ principal ∈ table.rows, isBlank principal.id = false)
    (request : AuthorizeRequest) :
    (apiAllows catalog table request = true ↔
      ∃ question, request.question = .ok question ∧
        gatewayAllows catalog table question = true) ↔
      ∀ question, request.question = .ok question → ∀ principal,
        table.get question.principalId = some principal → principal.status = .active →
        InactiveGroupsHarmless table catalog.compiled.roleBindings question := by
  cases hquestion : request.question with
  | error error =>
      have hrefused : apiAllows catalog table request = false := by
        rw [apiAllows, authorizeRequest]
        split
        · rfl
        · rw [hquestion]
          rfl
      simp [hrefused]
  | ok question =>
      simp only [Except.ok.injEq, exists_eq_left', forall_eq', apiAllows_iff catalog hstored
        hquestion, gatewayAllows_iff]
      constructor
      · intro hagrees principal hget hactive
        have hkept := DenyOverrides.permits_kept_iff.mp
          ((and_congr_right_iff.mp hagrees) ⟨principal, hget, hactive⟩)
        exact ⟨hkept.1, hkept.2⟩
      · intro hharmless
        refine and_congr_right ?_
        rintro ⟨principal, hget, hactive⟩
        obtain ⟨hdenials, hallowances⟩ := hharmless principal hget hactive
        exact DenyOverrides.permits_kept_iff.mpr ⟨hdenials, hallowances⟩

end

namespace Payroll

def boardRequest : AuthorizeRequest where
  principalId := "alice"
  groupPrincipalIds := ["contractors"]
  action := "payroll.read"
  resourceUrn := "urn:iam:prod:payroll:global:default:payroll/board"
  parentUrns := []
  context := { sourceIp := some (.v4 0x0A000001#32), requestMethod := some "GET" }

/-- Both deny, as long as the group of the denial is active. -/
theorem board_agreed :
    ∃ catalog, Catalog.compile policy 1 = .ok catalog ∧
      (apiAllows catalog principals boardRequest = true ↔
        ∃ question, boardRequest.question = .ok question ∧
          gatewayAllows catalog principals question = true) := by
  obtain ⟨catalog, hcatalog⟩ : ∃ catalog, Catalog.compile policy 1 = .ok catalog := ⟨_, rfl⟩
  refine ⟨catalog, hcatalog, (api_agrees_with_gateway_iff catalog principals (by decide)
    boardRequest).mpr fun question hquestion principal hget hstatus => .of_active ?_⟩
  have hgroups : question.groupPrincipalIds = ["contractors"] := by
    simp only [AuthorizeRequest.question, bind_ok_iff] at hquestion
    obtain ⟨_, -, _, -, hsame⟩ := hquestion
    rw [← Except.ok.inj hsame]
    rfl
  rw [hgroups]
  decide

/-- The contractors may read every payroll. -/
def contractorsPolicy : IamPolicyInfo :=
  { policy with
    roleBindings := [{ id := "contractors", principalId := "contractors", roleId := "reader",
                       effect := .allow, resourceUrn := "urn:iam:*:payroll:*:default:payroll/**" }] }

def disbanded : PrincipalTable where
  rows := [⟨"alice", .user, .active⟩, ⟨"contractors", .group, .disabled⟩]
  unique := by decide

/-- The disabled group still grants through the API. -/
theorem disbanded_disagree :
    ∃ catalog, Catalog.compile contractorsPolicy 1 = .ok catalog ∧
      (∀ principal ∈ disbanded.rows, isBlank principal.id = false) ∧
      apiAllows catalog disbanded boardRequest = true ∧
      ¬∃ question, boardRequest.question = .ok question ∧
        gatewayAllows catalog disbanded question = true := by
  have hchecked : ((Catalog.compile contractorsPolicy 1).toOption.any fun catalog =>
      apiAllows catalog disbanded boardRequest &&
        !(boardRequest.question.toOption.any (gatewayAllows catalog disbanded))) = true := by
    decide +kernel
  obtain ⟨catalog, hcatalog, hanswers⟩ := (Option.any_eq_true _ _).mp hchecked
  obtain ⟨hallowed, hdenied⟩ := Bool.and_eq_true_iff.mp hanswers
  refine ⟨catalog, ?_, by decide, hallowed, ?_⟩
  · cases hcompiled : Catalog.compile contractorsPolicy 1 with
    | error error =>
        rw [hcompiled] at hcatalog
        cases hcatalog
    | ok compiled =>
        rw [hcompiled] at hcatalog
        rw [Option.some.inj hcatalog]
  · rintro ⟨question, hquestion, hgateway⟩
    rw [hquestion] at hdenied
    simp [Except.toOption, hgateway] at hdenied

end Payroll

end Authguard
