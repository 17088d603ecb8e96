import Authguard.Authz.CompiledPolicy
import Authguard.Metatheory.UrnPatterns

/-!
What compilation accepts and what it produces. The accepted policies are
described once, by `CompiledAs`; two policies with the same actions, the same
bindings and roles that grant the same actions compile to the same bindings and
routes, up to order.
-/

namespace Authguard
open Text Result

/-- Identifiers that are pairwise different and not blank. -/
structure UniqueIds (ids : List String) : Prop where
  nodup : ids.Nodup
  notBlank : ∀ id ∈ ids, isBlank id = false

theorem UniqueIds.perm {ids ids' : List String} (h : UniqueIds ids) (hp : ids.Perm ids') :
    UniqueIds ids' where
  nodup := hp.nodup_iff.mp h.nodup
  notBlank id hid := h.notBlank id (hp.mem_iff.mpr hid)

theorem uniqueIds_cons {id : String} {ids : List String} :
    UniqueIds (id :: ids) ↔ isBlank id = false ∧ id ∉ ids ∧ UniqueIds ids := by
  constructor
  · intro h
    obtain ⟨hnot, hnodup⟩ := List.nodup_cons.mp h.nodup
    exact ⟨h.notBlank id List.mem_cons_self, hnot, hnodup,
      fun other hother => h.notBlank other (List.mem_cons_of_mem _ hother)⟩
  · rintro ⟨hblank, hnot, h⟩
    refine ⟨List.nodup_cons.mpr ⟨hnot, h.nodup⟩, ?_⟩
    intro other hother
    cases List.mem_cons.mp hother with
    | inl heq => exact heq ▸ hblank
    | inr hmem => exact h.notBlank other hmem

/-- The names seen so far join the ones that must not occur again. -/
theorem validateUniqueFrom_ok (error : String → PolicyError) (values seen : List String) :
    validateUniqueFrom error values seen = .ok () ↔
      UniqueIds values ∧ ∀ value ∈ values, value ∉ seen := by
  induction values generalizing seen with
  | nil => exact iff_of_true rfl ⟨⟨.nil, by simp⟩, by simp⟩
  | cons value values ih =>
      rw [validateUniqueFrom, uniqueIds_cons, List.forall_mem_cons]
      by_cases hbad : (isBlank value || seen.contains value) = true
      · rw [if_pos hbad]
        simp only [Bool.or_eq_true, List.contains_iff_mem] at hbad
        refine iff_of_false (by simp) ?_
        rintro ⟨⟨hblank, _, _⟩, hnot, _⟩
        cases hbad with
        | inl h => simp [h] at hblank
        | inr h => exact hnot h
      · rw [if_neg hbad, ih (value :: seen)]
        simp only [Bool.or_eq_true, List.contains_iff_mem, not_or, Bool.not_eq_true] at hbad
        constructor
        · rintro ⟨hunique, hseen⟩
          refine ⟨⟨hbad.1, ?_, hunique⟩, hbad.2, ?_⟩
          · intro hmem
            exact hseen value hmem List.mem_cons_self
          · intro other hother hmem
            exact hseen other hother (List.mem_cons_of_mem _ hmem)
        · rintro ⟨⟨_, hnot, hunique⟩, _, hseen⟩
          refine ⟨hunique, ?_⟩
          intro other hother hmem
          cases List.mem_cons.mp hmem with
          | inl heq => exact hnot (heq ▸ hother)
          | inr h => exact hseen other hother h

theorem validateUnique_ok {values : List String} {error : String → PolicyError} :
    validateUnique values error = .ok () ↔ UniqueIds values := by
  simp [validateUnique, validateUniqueFrom_ok]

theorem validateRoleActions_ok {actionIds : List String} {role : IamRoleInfo} :
    validateRoleActions actionIds role = .ok () ↔ ∀ id ∈ role.actionIds, id ∈ actionIds := by
  unfold validateRoleActions
  split
  · rename_i hfind
    simpa using hfind
  · rename_i actionId hfind
    have hmem := List.mem_of_find?_eq_some hfind
    have hunknown := List.find?_some hfind
    refine iff_of_false (by simp) ?_
    intro h
    simp [h actionId hmem] at hunknown

theorem collect_unit {α ε : Type} {f : α → Except ε Unit} {xs : List α} :
    (∃ ys, collect f xs = .ok ys) ↔ ∀ a ∈ xs, f a = .ok () := by
  constructor
  · rintro ⟨ys, h⟩ a ha
    obtain ⟨_, -, hf⟩ := collect_mem_ok h ha
    exact hf
  · intro h
    exact ⟨xs.map fun _ => (), collect_eq_ok.mpr (by
      induction xs with
      | nil => exact .nil
      | cons a xs ih =>
          exact .cons (h a List.mem_cons_self) (ih fun b hb => h b (List.mem_cons_of_mem _ hb)))⟩

section
variable [Ipnet]

def compileOwned (owned : String × HttpRouteMatcher) : Except PolicyError CompiledHttpRoute :=
  (CompiledHttpRoute.compile owned.1 owned.2).mapError .invalidHttpRoute

/-- The policy is accepted at the revision, with the given result. -/
structure CompiledAs (policy : IamPolicyInfo) (revision : Nat) (catalog : CompiledPolicy) :
    Prop where
  actionIds : UniqueIds (policy.actions.map (·.identifier))
  roleIds : UniqueIds (policy.roles.map (·.id))
  bindingIds : UniqueIds (policy.roleBindings.map (·.id))
  matcherIds : UniqueIds (policy.actions.flatMap fun action => action.routeMatchers.map (·.id))
  roleActions : ∀ role ∈ policy.roles, ∀ id ∈ role.actionIds,
    id ∈ policy.actions.map (·.identifier)
  bindings : collect (compileRoleBinding (roleTable policy.roles)) policy.roleBindings =
    .ok catalog.roleBindings
  routes : collect compileOwned policy.ownedMatchers = .ok catalog.routes
  policy_eq : catalog.policy = { policy with revision }

theorem compile_eq_ok {policy : IamPolicyInfo} {revision : Nat} {catalog : CompiledPolicy} :
    CompiledPolicy.compile policy revision = .ok catalog ↔
      CompiledAs policy revision catalog := by
  simp only [CompiledPolicy.compile, bind_ok_iff]
  constructor
  · rintro ⟨_, hactions, _, hroles, _, hbindings, _, hmatchers, units, hunits, bindings,
      hcompiled, routes, hroutes, hcatalog⟩
    cases hcatalog
    refine ⟨validateUnique_ok.mp hactions, validateUnique_ok.mp hroles,
      validateUnique_ok.mp hbindings, validateUnique_ok.mp hmatchers, ?_, hcompiled, hroutes, rfl⟩
    intro role hrole
    exact validateRoleActions_ok.mp (collect_unit.mp ⟨units, hunits⟩ role hrole)
  · intro h
    obtain ⟨units, hunits⟩ := collect_unit.mpr fun role hrole =>
      validateRoleActions_ok.mpr (h.roleActions role hrole)
    refine ⟨(), validateUnique_ok.mpr h.actionIds, (), validateUnique_ok.mpr h.roleIds,
      (), validateUnique_ok.mpr h.bindingIds, (), validateUnique_ok.mpr h.matcherIds,
      units, hunits, catalog.roleBindings, h.bindings, catalog.routes, h.routes, ?_⟩
    rw [← h.policy_eq]

/-! The role a binding refers to. -/

omit [Ipnet] in
theorem roleTable_mem {roles : List IamRoleInfo} {roleId : String} {role : IamRoleInfo}
    (h : roleTable roles roleId = some role) : role ∈ roles ∧ role.id = roleId := by
  have hmem := List.mem_of_find?_eq_some h
  have hid := List.find?_some h
  exact ⟨List.mem_reverse.mp hmem, beq_iff_eq.mp hid⟩

omit [Ipnet] in
theorem roleTable_eq_some {roles : List IamRoleInfo} (unique : (roles.map (·.id)).Nodup)
    {roleId : String} {role : IamRoleInfo} :
    roleTable roles roleId = some role ↔ role ∈ roles ∧ role.id = roleId := by
  constructor
  · exact roleTable_mem
  · rintro ⟨hmem, hid⟩
    cases hfound : roleTable roles roleId with
    | none =>
        have hnone := List.find?_eq_none.mp hfound role (List.mem_reverse.mpr hmem)
        simp [hid] at hnone
    | some other =>
        obtain ⟨hother, hsame⟩ := roleTable_mem hfound
        rw [List.inj_on_of_nodup_map unique hother hmem (hsame.trans hid.symm)]

/-- Only the set of granted actions of a role reaches a compiled binding. -/
theorem compileRoleBinding_congr {roles roles' : String → Option IamRoleInfo}
    {binding : IamRoleBindingInfo}
    (h : (roles binding.roleId).map (·.actionIds.toFinset) =
      (roles' binding.roleId).map (·.actionIds.toFinset)) :
    compileRoleBinding roles binding = compileRoleBinding roles' binding := by
  unfold compileRoleBinding
  cases hrole : roles binding.roleId with
  | none =>
      rw [hrole, Option.map_none, eq_comm, Option.map_eq_none_iff] at h
      rw [h]
  | some role =>
      cases hrole' : roles' binding.roleId with
      | none => simp [hrole, hrole'] at h
      | some role' =>
          simp only [hrole, hrole', Option.map_some, Option.some.injEq] at h
          simp only [h]

theorem compileRoleBinding_ok {roles : String → Option IamRoleInfo}
    {binding : IamRoleBindingInfo} {compiled : CompiledRoleBinding}
    (h : compileRoleBinding roles binding = .ok compiled) :
    isBlank binding.principalId = false ∧ ∃ role, roles binding.roleId = some role ∧
      UrnPattern.fromStr binding.resourceUrn = .ok compiled.resourceUrn ∧
      binding.conditions.compile = .ok compiled.conditions ∧
      compiled.id = binding.id ∧ compiled.principalId = binding.principalId ∧
      compiled.actionIds = role.actionIds.toFinset ∧ compiled.effect = binding.effect := by
  unfold compileRoleBinding at h
  split at h
  · cases h
  · rename_i hblank
    split at h
    · cases h
    · rename_i role hrole
      simp only [bind_ok_iff] at h
      obtain ⟨pattern, hpattern, conditions, hconditions, h⟩ := h
      cases h
      refine ⟨by simpa using hblank, role, hrole, ?_, ?_, rfl, rfl, rfl, rfl⟩
      · exact mapError_ok.mp hpattern
      · exact mapError_ok.mp hconditions

/-- What a catalog that compiled looks like. -/
structure IamPolicyInfo.WellFormed (policy : IamPolicyInfo) : Prop where
  actionIds : UniqueIds (policy.actions.map (·.identifier))
  roleIds : UniqueIds (policy.roles.map (·.id))
  bindingIds : UniqueIds (policy.roleBindings.map (·.id))
  matcherIds : UniqueIds (policy.actions.flatMap fun action => action.routeMatchers.map (·.id))
  roleActions : ∀ role ∈ policy.roles, ∀ id ∈ role.actionIds,
    id ∈ policy.actions.map (·.identifier)
  bindingRoles : ∀ binding ∈ policy.roleBindings, binding.roleId ∈ policy.roles.map (·.id)
  bindingPrincipals : ∀ binding ∈ policy.roleBindings, isBlank binding.principalId = false
  bindingUrns : ∀ binding ∈ policy.roleBindings,
    ∃ pattern, UrnPattern.fromStr binding.resourceUrn = .ok pattern
  bindingConditions : ∀ binding ∈ policy.roleBindings,
    ∃ conditions, binding.conditions.compile = .ok conditions

theorem CompiledAs.wellFormed {policy : IamPolicyInfo} {revision : Nat} {catalog : CompiledPolicy}
    (h : CompiledAs policy revision catalog) : catalog.policy.WellFormed := by
  have hbinding : ∀ binding ∈ policy.roleBindings,
      ∃ compiled, compileRoleBinding (roleTable policy.roles) binding = .ok compiled := by
    intro binding hmem
    obtain ⟨compiled, -, hcompiled⟩ := collect_mem_ok h.bindings hmem
    exact ⟨compiled, hcompiled⟩
  rw [h.policy_eq]
  refine ⟨h.actionIds, h.roleIds, h.bindingIds, h.matcherIds, h.roleActions, ?_, ?_, ?_, ?_⟩
  · intro binding hmem
    obtain ⟨compiled, hcompiled⟩ := hbinding binding hmem
    obtain ⟨-, role, hrole, -⟩ := compileRoleBinding_ok hcompiled
    obtain ⟨hmem, hid⟩ := roleTable_mem hrole
    rw [← hid]
    exact List.mem_map_of_mem hmem
  · intro binding hmem
    obtain ⟨compiled, hcompiled⟩ := hbinding binding hmem
    exact (compileRoleBinding_ok hcompiled).1
  · intro binding hmem
    obtain ⟨compiled, hcompiled⟩ := hbinding binding hmem
    obtain ⟨-, _, -, hpattern, -⟩ := compileRoleBinding_ok hcompiled
    exact ⟨compiled.resourceUrn, hpattern⟩
  · intro binding hmem
    obtain ⟨compiled, hcompiled⟩ := hbinding binding hmem
    obtain ⟨-, _, -, -, hconditions, -⟩ := compileRoleBinding_ok hcompiled
    exact ⟨compiled.conditions, hconditions⟩

/-! Order and repetition do not matter. -/

/-- Same actions, same bindings, and roles that grant the same sets of actions. -/
structure SameGrants (policy other : IamPolicyInfo) : Prop where
  actions : policy.actions.Perm other.actions
  bindings : policy.roleBindings.Perm other.roleBindings
  roleIds : (policy.roles.map (·.id)).Perm (other.roles.map (·.id))
  granted : ∀ role ∈ policy.roles, ∃ role' ∈ other.roles,
    role'.id = role.id ∧ role'.actionIds.toFinset = role.actionIds.toFinset

omit [Ipnet] in
theorem SameGrants.roleTable_eq {policy other : IamPolicyInfo} (h : SameGrants policy other)
    (unique : (policy.roles.map (·.id)).Nodup) (roleId : String) :
    (roleTable policy.roles roleId).map (·.actionIds.toFinset) =
      (roleTable other.roles roleId).map (·.actionIds.toFinset) := by
  have unique' := h.roleIds.nodup_iff.mp unique
  cases hrole : roleTable policy.roles roleId with
  | none =>
      cases hrole' : roleTable other.roles roleId with
      | none => rfl
      | some role' =>
          obtain ⟨hmem', hid'⟩ := (roleTable_eq_some unique').mp hrole'
          have hmem : roleId ∈ policy.roles.map (·.id) :=
            h.roleIds.mem_iff.mpr (List.mem_map.mpr ⟨role', hmem', hid'⟩)
          obtain ⟨role, hmem, hid⟩ := List.mem_map.mp hmem
          rw [(roleTable_eq_some unique).mpr ⟨hmem, hid⟩] at hrole
          cases hrole
  | some role =>
      obtain ⟨hmem, hid⟩ := (roleTable_eq_some unique).mp hrole
      obtain ⟨role', hmem', hid', hgranted⟩ := h.granted role hmem
      rw [(roleTable_eq_some unique').mpr ⟨hmem', hid'.trans hid⟩, Option.map_some,
        Option.map_some, hgranted]

omit [Ipnet] in
theorem SameGrants.granted_of_other {policy other : IamPolicyInfo} (h : SameGrants policy other)
    (unique : (policy.roles.map (·.id)).Nodup) (role' : IamRoleInfo) (hrole' : role' ∈ other.roles) :
    ∃ role ∈ policy.roles, role'.actionIds.toFinset = role.actionIds.toFinset := by
  have hid : role'.id ∈ policy.roles.map (·.id) :=
    h.roleIds.mem_iff.mpr (List.mem_map_of_mem hrole')
  obtain ⟨role, hrole, hsame⟩ := List.mem_map.mp hid
  obtain ⟨same, hmem, hid', hgranted⟩ := h.granted role hrole
  have heq : same = role' := List.inj_on_of_nodup_map (h.roleIds.nodup_iff.mp unique) hmem hrole'
    (hid'.trans hsame)
  exact ⟨role, hrole, heq ▸ hgranted⟩

theorem SameGrants.compile {policy other : IamPolicyInfo} (h : SameGrants policy other)
    {revision : Nat} {catalog : CompiledPolicy}
    (hcompiled : CompiledPolicy.compile policy revision = .ok catalog) (revision' : Nat) :
    ∃ catalog', CompiledPolicy.compile other revision' = .ok catalog' ∧
      catalog.roleBindings.Perm catalog'.roleBindings ∧ catalog.routes.Perm catalog'.routes := by
  have hpolicy := compile_eq_ok.mp hcompiled
  have htable : compileRoleBinding (roleTable policy.roles) =
      compileRoleBinding (roleTable other.roles) := by
    funext binding
    exact compileRoleBinding_congr (h.roleTable_eq hpolicy.roleIds.nodup binding.roleId)
  have hbindings := hpolicy.bindings
  rw [htable] at hbindings
  obtain ⟨bindings, hbindings, hpermBindings⟩ := collect_perm h.bindings hbindings
  have howned : policy.ownedMatchers.Perm other.ownedMatchers := h.actions.flatMap_right _
  obtain ⟨routes, hroutes, hpermRoutes⟩ := collect_perm howned hpolicy.routes
  refine ⟨⟨{ other with revision := revision' }, bindings, routes⟩, ?_, hpermBindings,
    hpermRoutes⟩
  apply compile_eq_ok.mpr
  refine ⟨hpolicy.actionIds.perm (h.actions.map _), hpolicy.roleIds.perm h.roleIds,
    hpolicy.bindingIds.perm (h.bindings.map _),
    hpolicy.matcherIds.perm (h.actions.flatMap_right _), ?_, hbindings, hroutes, rfl⟩
  intro role' hrole' id hid
  obtain ⟨role, hrole, hsame⟩ := h.granted_of_other hpolicy.roleIds.nodup role' hrole'
  have hgranted : id ∈ role.actionIds := by
    rw [← List.mem_toFinset, ← hsame, List.mem_toFinset]
    exact hid
  exact (h.actions.map _).mem_iff.mp (hpolicy.roleActions role hrole id hgranted)

end

end Authguard
