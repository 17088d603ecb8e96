import Authguard.Metatheory.ClusterHistory
import Authguard.Metatheory.PolicyScope

/-!
What the mutations of a catalog can do to decisions. A decision that changes
between two moments of a run is accounted for by one mutation installed between
them, and by one binding which that mutation adds or takes away for the action of
the request. Mutations that touch no binding and no grant of a role leave every
decision and every scope as it was, and those that touch no route leave the
resolution of every request as it was.
-/

namespace Authguard
open Text Result Runs DenyOverrides

/-! What a mutation adds and takes away. -/

/-- A role of the identifier grants the action. -/
def IamPolicyInfo.Grants (policy : IamPolicyInfo) (roleId action : String) : Prop :=
  ∃ role ∈ policy.roles, role.id = roleId ∧ action ∈ role.actionIds

/-- The bindings that a mutation of the current catalog can make apply to the action. -/
def Mutation.Adds (current : IamPolicyInfo) (action : String) (binding : IamRoleBindingInfo) :
    Mutation → Prop
  | .createRoleBinding added | .updateRoleBinding _ added => binding = added
  | .updateRole id role =>
      binding.roleId = id ∧ action ∈ role.actionIds ∧ ¬current.Grants id action
  | .replace policy => binding ∈ policy.roleBindings
  | .deleteRoleBinding _ | .createAction _ | .updateAction _ _ | .deleteAction _
  | .createRole _ | .deleteRole _ | .reset => False

/-- The bindings that it can keep from applying to the action. -/
def Mutation.Removes (current : IamPolicyInfo) (action : String)
    (binding : IamRoleBindingInfo) : Mutation → Prop
  | .updateRoleBinding id _ | .deleteRoleBinding id => binding.id = id
  | .updateRole id role =>
      binding.roleId = id ∧ current.Grants id action ∧ action ∉ role.actionIds
  | .replace _ | .reset => True
  | .createRoleBinding _ | .createAction _ | .updateAction _ _ | .deleteAction _
  | .createRole _ | .deleteRole _ => False

/-- Neither a binding nor what a role grants changes. -/
def Mutation.KeepsGrants (current : IamPolicyInfo) : Mutation → Prop
  | .createAction _ | .updateAction _ _ | .deleteAction _ | .createRole _ | .deleteRole _ => True
  | .updateRole id role => ∀ action, current.Grants id action ↔ action ∈ role.actionIds
  | .createRoleBinding _ | .updateRoleBinding _ _ | .deleteRoleBinding _ | .replace _
  | .reset => False

/-- The routes of no action change. -/
def Mutation.KeepsRoutes (current : IamPolicyInfo) : Mutation → Prop
  | .createRoleBinding _ | .updateRoleBinding _ _ | .deleteRoleBinding _
  | .createRole _ | .updateRole _ _ | .deleteRole _ => True
  | .createAction action => action.routeMatchers = []
  | .updateAction id action => action.identifier = id ∧
      ∀ held ∈ current.actions, held.identifier = id → held.routeMatchers = action.routeMatchers
  | .deleteAction id =>
      ∀ held ∈ current.actions, held.identifier = id → held.routeMatchers = []
  | .replace _ | .reset => False

theorem Mutation.KeepsGrants.not_adds {current : IamPolicyInfo} {mutation : Mutation}
    (h : mutation.KeepsGrants current) (action : String) (binding : IamRoleBindingInfo) :
    ¬mutation.Adds current action binding := by
  cases mutation <;> simp_all [Mutation.KeepsGrants, Mutation.Adds]

theorem Mutation.KeepsGrants.not_removes {current : IamPolicyInfo} {mutation : Mutation}
    (h : mutation.KeepsGrants current) (action : String) (binding : IamRoleBindingInfo) :
    ¬mutation.Removes current action binding := by
  cases mutation <;> simp_all [Mutation.KeepsGrants, Mutation.Removes]

/-! The edits of lists by identifier. -/

theorem ensureAbsent_ok {ids : List String} {resource id : String} :
    ensureAbsent ids resource id = .ok () ↔ id ∉ ids := by
  simp [ensureAbsent]

theorem replaceById_ok {α : Type} {resource id : String} {values values' : List α}
    {valueId : α → String} {value : α}
    (h : replaceById resource values id valueId value = .ok values') :
    ∃ before held after, values = before ++ held :: after ∧ valueId held = id ∧
      values' = before ++ value :: after := by
  unfold replaceById at h
  split at h
  · cases h
  · rename_i index hindex
    cases h
    obtain ⟨hlt, hid, -⟩ := List.findIdx?_eq_some_iff_getElem.mp hindex
    refine ⟨values.take index, values[index], values.drop (index + 1), ?_, beq_iff_eq.mp hid, ?_⟩
    · rw [List.getElem_cons_drop, List.take_append_drop]
    · rw [List.set_eq_take_append_cons_drop, if_pos hlt]

theorem removeById_ok {α : Type} {resource id : String} {values values' : List α}
    {valueId : α → String} (h : removeById resource values id valueId = .ok values') :
    (∃ held ∈ values, valueId held = id) ∧ values' = values.filter (valueId · != id) := by
  simp only [removeById] at h
  split at h
  · cases h
  · rename_i hlength
    cases h
    refine ⟨?_, rfl⟩
    by_contra hnone
    apply hlength
    rw [List.filter_eq_self.mpr]
    intro held hheld
    rw [bne_iff_ne]
    intro hid
    exact hnone ⟨held, hheld, hid⟩

/-- Everything a mutation can do to a catalog. -/
inductive Edits (current : IamPolicyInfo) : Mutation → IamPolicyInfo → Prop
  | createRoleBinding (binding : IamRoleBindingInfo) :
      binding.id ∉ current.roleBindings.map (·.id) →
      Edits current (.createRoleBinding binding)
        { current with roleBindings := current.roleBindings ++ [binding] }
  | updateRoleBinding (id : String) (binding held : IamRoleBindingInfo)
      (before after : List IamRoleBindingInfo) :
      current.roleBindings = before ++ held :: after → held.id = id →
      Edits current (.updateRoleBinding id binding)
        { current with roleBindings := before ++ binding :: after }
  | deleteRoleBinding (id : String) : (∃ held ∈ current.roleBindings, held.id = id) →
      Edits current (.deleteRoleBinding id)
        { current with roleBindings := current.roleBindings.filter (·.id != id) }
  | createAction (action : IamActionInfo) :
      action.identifier ∉ current.actions.map (·.identifier) →
      Edits current (.createAction action)
        { current with actions := current.actions ++ [action] }
  | updateAction (id : String) (action held : IamActionInfo) (before after : List IamActionInfo) :
      current.actions = before ++ held :: after → held.identifier = id →
      Edits current (.updateAction id action)
        { current with actions := before ++ action :: after }
  | deleteAction (id : String) : (∀ role ∈ current.roles, id ∉ role.actionIds) →
      (∃ held ∈ current.actions, held.identifier = id) →
      Edits current (.deleteAction id)
        { current with actions := current.actions.filter (·.identifier != id) }
  | createRole (role : IamRoleInfo) : role.id ∉ current.roles.map (·.id) →
      Edits current (.createRole role) { current with roles := current.roles ++ [role] }
  | updateRole (id : String) (role held : IamRoleInfo) (before after : List IamRoleInfo) :
      current.roles = before ++ held :: after → held.id = id →
      Edits current (.updateRole id role) { current with roles := before ++ role :: after }
  | deleteRole (id : String) : (∀ binding ∈ current.roleBindings, binding.roleId ≠ id) →
      (∃ held ∈ current.roles, held.id = id) →
      Edits current (.deleteRole id)
        { current with roles := current.roles.filter (·.id != id) }
  | replace (policy : IamPolicyInfo) : Edits current (.replace policy) policy
  | reset : Edits current .reset { current with actions := [], roles := [], roleBindings := [] }

theorem Mutation.apply_edits {mutation : Mutation} {current policy : IamPolicyInfo}
    (h : mutation.apply current = .ok policy) : Edits current mutation policy := by
  cases mutation with
  | createRoleBinding binding =>
      simp only [Mutation.apply, bind_ok_iff] at h
      obtain ⟨_, habsent, h⟩ := h
      cases h
      exact .createRoleBinding binding (ensureAbsent_ok.mp habsent)
  | updateRoleBinding id binding =>
      simp only [Mutation.apply, bind_ok_iff] at h
      obtain ⟨_, hreplaced, h⟩ := h
      cases h
      obtain ⟨before, held, after, hsplit, hid, rfl⟩ := replaceById_ok hreplaced
      exact .updateRoleBinding id binding held before after hsplit hid
  | deleteRoleBinding id =>
      simp only [Mutation.apply, bind_ok_iff] at h
      obtain ⟨_, hremoved, h⟩ := h
      cases h
      obtain ⟨hheld, rfl⟩ := removeById_ok hremoved
      exact .deleteRoleBinding id hheld
  | createAction action =>
      simp only [Mutation.apply, bind_ok_iff] at h
      obtain ⟨_, habsent, h⟩ := h
      cases h
      exact .createAction action (ensureAbsent_ok.mp habsent)
  | updateAction id action =>
      simp only [Mutation.apply, bind_ok_iff] at h
      obtain ⟨_, hreplaced, h⟩ := h
      cases h
      obtain ⟨before, held, after, hsplit, hid, rfl⟩ := replaceById_ok hreplaced
      exact .updateAction id action held before after hsplit hid
  | deleteAction id =>
      simp only [Mutation.apply] at h
      split at h
      · cases h
      · rename_i hunreferenced
        obtain ⟨_, hremoved, h⟩ := bind_ok_iff.mp h
        cases h
        obtain ⟨hheld, rfl⟩ := removeById_ok hremoved
        exact .deleteAction id (by simpa using hunreferenced) hheld
  | createRole role =>
      simp only [Mutation.apply, bind_ok_iff] at h
      obtain ⟨_, habsent, h⟩ := h
      cases h
      exact .createRole role (ensureAbsent_ok.mp habsent)
  | updateRole id role =>
      simp only [Mutation.apply, bind_ok_iff] at h
      obtain ⟨_, hreplaced, h⟩ := h
      cases h
      obtain ⟨before, held, after, hsplit, hid, rfl⟩ := replaceById_ok hreplaced
      exact .updateRole id role held before after hsplit hid
  | deleteRole id =>
      simp only [Mutation.apply] at h
      split at h
      · cases h
      · rename_i hunreferenced
        obtain ⟨_, hremoved, h⟩ := bind_ok_iff.mp h
        cases h
        obtain ⟨hheld, rfl⟩ := removeById_ok hremoved
        exact .deleteRole id (by simpa using hunreferenced) hheld
  | replace policy =>
      cases h
      exact .replace policy
  | reset =>
      cases h
      exact .reset

section
variable {current policy : IamPolicyInfo} {mutation : Mutation}
  (hedits : Edits current mutation policy)
include hedits

theorem Edits.new_binding (action : String) {binding : IamRoleBindingInfo}
    (hmem : binding ∈ policy.roleBindings) (hnew : binding ∉ current.roleBindings) :
    mutation.Adds current action binding := by
  cases hedits with
  | createRoleBinding added _ =>
      cases List.mem_append.mp hmem with
      | inl hold => exact absurd hold hnew
      | inr hlast => exact List.mem_singleton.mp hlast
  | updateRoleBinding id added held before after hsplit _ =>
      rw [hsplit] at hnew
      simp only [List.mem_append, List.mem_cons, not_or] at hmem hnew
      obtain hbefore | rfl | hafter := hmem
      · exact absurd hbefore hnew.1
      · rfl
      · exact absurd hafter hnew.2.2
  | deleteRoleBinding id _ => exact absurd (List.mem_filter.mp hmem).1 hnew
  | replace => exact hmem
  | reset => cases hmem
  | createAction | updateAction | deleteAction | createRole | updateRole | deleteRole =>
      exact absurd hmem hnew

theorem Edits.lost_binding (action : String) {binding : IamRoleBindingInfo}
    (hmem : binding ∈ current.roleBindings) (hlost : binding ∉ policy.roleBindings) :
    mutation.Removes current action binding := by
  cases hedits with
  | createRoleBinding added _ => exact absurd (List.mem_append_left _ hmem) hlost
  | updateRoleBinding id added held before after hsplit hid =>
      rw [hsplit] at hmem
      simp only [List.mem_append, List.mem_cons, not_or] at hmem hlost
      obtain hbefore | rfl | hafter := hmem
      · exact absurd hbefore hlost.1
      · exact hid
      · exact absurd hafter hlost.2.2
  | deleteRoleBinding id _ =>
      by_contra hother
      exact hlost (List.mem_filter.mpr ⟨hmem, bne_iff_ne.mpr hother⟩)
  | replace | reset => trivial
  | createAction | updateAction | deleteAction | createRole | updateRole | deleteRole =>
      exact absurd hmem hlost

end

/-- A value and its replacement, in lists without a second value of the identifier. -/
theorem id_eq_of_replaced {α : Type} {valueId : α → String} {before after : List α}
    {held value other : α} (hold : ((before ++ held :: after).map valueId).Nodup)
    (hmem : other ∈ before ++ value :: after) (hid : valueId other = valueId held) :
    other = value := by
  simp only [List.map_append, List.map_cons, List.nodup_append, List.nodup_cons, List.mem_cons,
    List.mem_map] at hold
  obtain ⟨-, ⟨hafter, -⟩, hbefore⟩ := hold
  rw [List.mem_append, List.mem_cons] at hmem
  obtain hmem | rfl | hmem := hmem
  · exact absurd hid (hbefore _ ⟨other, hmem, rfl⟩ _ (.inl rfl))
  · rfl
  · exact absurd ⟨other, hmem, hid⟩ hafter

section
variable [Ipnet] {current policy : IamPolicyInfo} {mutation : Mutation}
  (hedits : Edits current mutation policy)
  (hcurrent : current.WellFormed) (hpolicy : policy.WellFormed)
  {action : String} {binding : IamRoleBindingInfo} (hmem : binding ∈ current.roleBindings)
  (hmem' : binding ∈ policy.roleBindings)
include hedits hcurrent hpolicy hmem hmem'

theorem Edits.new_grant (hgrants : policy.Grants binding.roleId action)
    (hnew : ¬current.Grants binding.roleId action) : mutation.Adds current action binding := by
  obtain ⟨role, hrole, hid, haction⟩ := hgrants
  cases hedits with
  | createRole added habsent =>
      cases List.mem_append.mp hrole with
      | inl hold => exact absurd ⟨role, hold, hid, haction⟩ hnew
      | inr hlast =>
          rw [List.mem_singleton.mp hlast] at hid
          exact absurd (hid ▸ hcurrent.bindingRoles binding hmem) habsent
  | deleteRole id _ _ => exact absurd ⟨role, (List.mem_filter.mp hrole).1, hid, haction⟩ hnew
  | updateRole id added held before after hsplit hheld =>
      -- only the role that took the place of another can grant the action anew
      by_cases hrole' : role ∈ current.roles
      · exact absurd ⟨role, hrole', hid, haction⟩ hnew
      have hadded : role = added := by
        rw [hsplit] at hrole'
        simp only [List.mem_append, List.mem_cons, not_or] at hrole hrole'
        obtain hbefore | hsame | hafter := hrole
        · exact absurd hbefore hrole'.1
        · exact hsame
        · exact absurd hafter hrole'.2.2
      subst hadded
      obtain ⟨other, hother, hotherId⟩ :=
        List.mem_map.mp (hcurrent.bindingRoles binding hmem)
      have hsame : other = held := id_eq_of_replaced hpolicy.roleIds.nodup
        (by rw [← hsplit]; exact hother) (hotherId.trans hid.symm)
      rw [← hsame] at hheld
      exact ⟨hotherId.symm.trans hheld, haction, by rw [← hheld, hotherId]; exact hnew⟩
  | replace => exact hmem'
  | reset => cases hmem'
  | createRoleBinding | updateRoleBinding | deleteRoleBinding | createAction | updateAction
  | deleteAction => exact absurd ⟨role, hrole, hid, haction⟩ hnew

theorem Edits.lost_grant (hgrants : current.Grants binding.roleId action)
    (hlost : ¬policy.Grants binding.roleId action) : mutation.Removes current action binding := by
  obtain ⟨role, hrole, hid, haction⟩ := hgrants
  cases hedits with
  | createRole added _ =>
      exact absurd ⟨role, List.mem_append_left _ hrole, hid, haction⟩ hlost
  | deleteRole id hfree _ =>
      have hkept : role ∈ current.roles.filter (·.id != id) :=
        List.mem_filter.mpr ⟨hrole, bne_iff_ne.mpr (hid ▸ hfree binding hmem)⟩
      exact absurd ⟨role, hkept, hid, haction⟩ hlost
  | updateRole id added held before after hsplit hheld =>
      have hrole' := hrole
      rw [hsplit] at hrole'
      simp only [List.mem_append, List.mem_cons] at hrole'
      obtain hbefore | rfl | hafter := hrole'
      · exact absurd ⟨role, by simp [hbefore], hid, haction⟩ hlost
      · obtain ⟨other, hother, hotherId⟩ := List.mem_map.mp (hpolicy.bindingRoles binding hmem')
        have hroles := hcurrent.roleIds.nodup
        rw [hsplit] at hroles
        have hsame : other = added := id_eq_of_replaced hroles hother (hotherId.trans hid.symm)
        refine ⟨hid.symm.trans hheld, ⟨role, hrole, hheld, haction⟩, ?_⟩
        intro hadded
        exact hlost ⟨added, by simp, hsame ▸ hotherId, hadded⟩
      · exact absurd ⟨role, by simp [hafter], hid, haction⟩ hlost
  | replace | reset => trivial
  | createRoleBinding | updateRoleBinding | deleteRoleBinding | createAction | updateAction
  | deleteAction => exact absurd ⟨role, hrole, hid, haction⟩ hlost

end

section
variable [Ipnet]

/-! The decision of one mutation. -/

theorem IamPolicyInfo.Matches.of_grants {policy other : IamPolicyInfo}
    {request : AuthorizationRequest} {binding : IamRoleBindingInfo}
    (h : policy.Matches request binding) (hgrants : other.Grants binding.roleId request.action) :
    other.Matches request binding :=
  ⟨h.principal, hgrants, h.resource, h.conditions⟩

section
variable {current policy : IamPolicyInfo} {mutation : Mutation}
  (hedits : Edits current mutation policy)
  (hcurrent : current.WellFormed) (hpolicy : policy.WellFormed)
  {request : AuthorizationRequest} {binding : IamRoleBindingInfo}
include hedits hcurrent hpolicy

theorem Edits.adds (hmem : binding ∈ policy.roleBindings)
    (hmatches : policy.Matches request binding)
    (hnew : ¬(binding ∈ current.roleBindings ∧ current.Matches request binding)) :
    mutation.Adds current request.action binding := by
  by_cases hold : binding ∈ current.roleBindings
  · apply hedits.new_grant hcurrent hpolicy hold hmem hmatches.action
    intro hgrants
    exact hnew ⟨hold, hmatches.of_grants hgrants⟩
  · exact hedits.new_binding request.action hmem hold

theorem Edits.removes (hmem : binding ∈ current.roleBindings)
    (hmatches : current.Matches request binding)
    (hlost : ¬(binding ∈ policy.roleBindings ∧ policy.Matches request binding)) :
    mutation.Removes current request.action binding := by
  by_cases hkept : binding ∈ policy.roleBindings
  · apply hedits.lost_grant hcurrent hpolicy hmem hkept hmatches.action
    intro hgrants
    exact hlost ⟨hkept, hmatches.of_grants hgrants⟩
  · exact hedits.lost_binding request.action hmem hkept

end

/-- One binding explains the decision after the mutation: it decides so and is added, or it
decided otherwise and is taken away. -/
def Mutation.Accounts (mutation : Mutation) (old new : Catalog) (request : AuthorizationRequest) :
    Prop :=
  (∃ binding ∈ new.policy.roleBindings,
    binding.effect = Effect.decided (new.compiled.authorize request).allowed ∧
    new.policy.Matches request binding ∧ mutation.Adds old.policy request.action binding) ∨
  ∃ binding ∈ old.policy.roleBindings,
    binding.effect = Effect.decided (old.compiled.authorize request).allowed ∧
    old.policy.Matches request binding ∧ mutation.Removes old.policy request.action binding

theorem Catalog.recompile (catalog : Catalog) :
    CompiledPolicy.compile catalog.policy catalog.revision = .ok catalog.compiled := by
  obtain ⟨policy, revision, h⟩ := catalog.valid
  have hpolicy : catalog.policy = { policy with revision } := (compile_eq_ok.mp h).policy_eq
  rw [Catalog.revision, hpolicy]
  exact h

theorem Catalog.wellFormed (catalog : Catalog) : catalog.policy.WellFormed :=
  (compile_eq_ok.mp catalog.recompile).wellFormed

/-- A task replaces what its handler publishes by its mutation of it. -/
theorem Task.Applies.edits {task : Task} {old new : Catalog} (h : task.Applies old new) :
    ∃ policy revision, Edits old.policy task.mutation policy ∧ policy.WellFormed ∧
      new.policy = { policy with revision } := by
  obtain ⟨policy, happly, hprepare⟩ := h
  unfold prepareReplacement at hprepare
  split at hprepare
  · rw [mapError_ok] at hprepare
    have hpolicy := Catalog.compile_policy hprepare
    have h := new.wellFormed
    rw [hpolicy] at h
    exact ⟨policy, _, Mutation.apply_edits happly, ⟨h.actionIds, h.roleIds, h.bindingIds,
      h.matcherIds, h.roleActions, h.bindingRoles, h.bindingPrincipals, h.bindingUrns,
      h.bindingConditions⟩, hpolicy⟩
  · cases hprepare

theorem Task.Applies.accounts {task : Task} {old new : Catalog} (h : task.Applies old new)
    {request : AuthorizationRequest}
    (hchanged : (new.compiled.authorize request).allowed ≠
      (old.compiled.authorize request).allowed) :
    task.mutation.Accounts old new request := by
  obtain ⟨policy, revision, hedits, hwellFormed, hnew⟩ := h.edits
  have hadds : ∀ binding ∈ new.policy.roleBindings, new.policy.Matches request binding →
      ¬(binding ∈ old.policy.roleBindings ∧ old.policy.Matches request binding) →
      task.mutation.Adds old.policy request.action binding := by
    rw [hnew]
    intro binding hmem hmatches
    exact hedits.adds old.wellFormed hwellFormed hmem (hmatches.of_grants hmatches.action)
  have hremoves : ∀ binding ∈ old.policy.roleBindings, old.policy.Matches request binding →
      ¬(binding ∈ new.policy.roleBindings ∧ new.policy.Matches request binding) →
      task.mutation.Removes old.policy request.action binding := by
    rw [hnew]
    intro binding hmem hmatches hlost
    apply hedits.removes old.wellFormed hwellFormed hmem hmatches
    rintro ⟨hkept, hmatches'⟩
    exact hlost ⟨hkept, hmatches'.of_grants hmatches'.action⟩
  have hbefore := compiled_permits old.recompile request
  have hafter := compiled_permits new.recompile request
  have hwhy : (∃ binding ∈ new.policy.roleBindings,
        (binding.effect = Effect.decided (new.compiled.authorize request).allowed ∧
          new.policy.Matches request binding) ∧
        ¬(binding ∈ old.policy.roleBindings ∧
          binding.effect = Effect.decided (new.compiled.authorize request).allowed ∧
          old.policy.Matches request binding)) ∨
      ∃ binding ∈ old.policy.roleBindings,
        (binding.effect = Effect.decided (old.compiled.authorize request).allowed ∧
          old.policy.Matches request binding) ∧
        ¬(binding ∈ new.policy.roleBindings ∧
          binding.effect = Effect.decided (old.compiled.authorize request).allowed ∧
          new.policy.Matches request binding) := by
    cases hallowed : (new.compiled.authorize request).allowed with
    | true =>
        have hdenied : (old.compiled.authorize request).allowed = false := by
          rw [hallowed] at hchanged
          exact Bool.eq_false_iff.mpr hchanged.symm
        rw [hdenied]
        exact changed_of_permits (hbefore.not.mp (by simp [hdenied])) (hafter.mp hallowed)
    | false =>
        have hpermitted : (old.compiled.authorize request).allowed = true := by
          rw [hallowed] at hchanged
          exact Bool.eq_true_of_not_eq_false hchanged.symm
        rw [hpermitted]
        exact changed_of_not_permits (hbefore.mp hpermitted)
          (hafter.not.mp (by simp [hallowed]))
  cases hwhy with
  | inl hadded =>
      obtain ⟨binding, hmem, ⟨heffect, hmatches⟩, hnew⟩ := hadded
      refine .inl ⟨binding, hmem, heffect, hmatches, ?_⟩
      exact hadds binding hmem hmatches fun hold => hnew ⟨hold.1, heffect, hold.2⟩
  | inr hlost =>
      obtain ⟨binding, hmem, ⟨heffect, hmatches⟩, hgone⟩ := hlost
      refine .inr ⟨binding, hmem, heffect, hmatches, ?_⟩
      exact hremoves binding hmem hmatches fun hkept => hgone ⟨hkept.1, heffect, hkept.2⟩

/-! Whole runs. -/

/-- What a handler publishes changes only where one of its mutations is installed. -/
theorem installed_of_change {reached next : Cluster} {event : Event} {number : Nat}
    {old new : Handler} (hstep : reached.step event = some next)
    (hold : reached.handlers[number]? = some old) (hnew : next.handlers[number]? = some new)
    (hchanged : new.published ≠ old.published) :
    ∃ index task, task.handler = number ∧
      InstallStep reached index task new.published event next := by
  cases Cluster.step_steps hstep with
  | advance index reply task handler phase published stored htask hhandler hmoves =>
      change (reached.resume index task handler phase published).handlers[number]? = _ at hnew
      rw [resume_handlers hhandler number] at hnew
      split at hnew
      · rename_i hnumber
        rw [← hnumber, hold, Option.some.injEq] at hhandler
        subst hhandler
        cases hnew
        cases hmoves with
        | install catalog hphase =>
            refine ⟨index, task, hnumber.symm, ⟨⟨reply, rfl⟩, ?_, ?_, resume_published⟩⟩
            · rw [htask, ← hphase]
            · exact (resume_tasks htask index).trans (if_pos rfl)
        | wait | acquire | hold | fail | commit => exact absurd rfl hchanged
      · rw [hold, Option.some.injEq] at hnew
        exact absurd (congrArg Handler.published hnew.symm) hchanged
  | drop index task handler orphans htask hhandler _ =>
      change (reached.resume index task handler .cancelled handler.published).handlers[number]? =
        _ at hnew
      rw [resume_handlers hhandler number] at hnew
      split at hnew
      · rename_i hnumber
        rw [← hnumber, hold, Option.some.injEq] at hhandler
        subst hhandler
        cases hnew
        exact absurd rfl hchanged
      · rw [hold, Option.some.injEq] at hnew
        exact absurd (congrArg Handler.published hnew.symm) hchanged
  | openHandler bootstrap stored catalog _ =>
      have hlt := (List.getElem?_eq_some_iff.mp hold).1
      rw [Cluster.withHandler, List.getElem?_append_left hlt, hold, Option.some.injEq] at hnew
      exact absurd (congrArg Handler.published hnew.symm) hchanged
  | request | settle | failedOpen =>
      rw [hold, Option.some.injEq] at hnew
      exact absurd (congrArg Handler.published hnew.symm) hchanged

/-- The step installs a mutation of the handler in place of the first catalog. -/
structure Installs (number : Nat) (reached : Cluster) (event : Event) (next : Cluster)
    (mutation : Mutation) (old new : Catalog) : Prop where
  replaced : reached.published[number]? = some old
  published : next.published[number]? = some new
  revision : new.revision = old.revision + 1
  step : ∃ index task, task.handler = number ∧ task.mutation = mutation ∧
    task.Applies old new ∧ InstallStep reached index task new event next

theorem installs_of_change {reached next : Cluster} {event : Event} {number : Nat}
    {old new : Handler} (locks : reached.LockInv) (hstep : reached.step event = some next)
    (hold : reached.handlers[number]? = some old) (hnew : next.handlers[number]? = some new)
    (hchanged : new.published ≠ old.published) :
    ∃ mutation, Installs number reached event next mutation old.published new.published := by
  obtain ⟨index, task, hnumber, hinstall⟩ := installed_of_change hstep hold hnew hchanged
  have hholder : reached.handlers[task.handler]? = some old := by rw [hnumber]; exact hold
  have hoverwrites := locks.overwrites hinstall.before hholder rfl
  refine ⟨task.mutation, ?_, ?_, ?_, index, task, hnumber, rfl, hoverwrites.applies, hinstall⟩
  · simp [Cluster.published, hold]
  · simp [Cluster.published, hnew]
  · rw [hoverwrites.applies.revision, hoverwrites.expected]

/-- A property of what a handler publishes that is acquired in a run is acquired where one of
its mutations is installed. -/
theorem exists_installs {cluster final : Cluster} {events : List Event} {number : Nat}
    {before after : Handler} (locks : cluster.LockInv)
    (hrun : Runs.run Cluster.step cluster events = some final)
    (hbefore : cluster.handlers[number]? = some before)
    (hafter : final.handlers[number]? = some after) {p : Catalog → Prop}
    (hnot : ¬p before.published) (hp : p after.published) :
    ∃ event reached next mutation old new,
      Passes Cluster.step cluster events event reached next ∧
      Installs number reached event next mutation old new ∧ ¬p old ∧ p new := by
  have hchange := exists_passes_of_change
    (p := fun reached : Cluster => ∃ handler : Handler,
      reached.handlers[number]? = some handler ∧ p handler.published) hrun
    (by
      rintro ⟨handler, hhandler, h⟩
      rw [hbefore, Option.some.injEq] at hhandler
      exact hnot (hhandler ▸ h)) ⟨after, hafter, hp⟩
  obtain ⟨event, reached, next, hpasses, hearlier, new, hnew, hlater⟩ := hchange
  obtain ⟨past, future, hevents, hpast, hstep, hfuture⟩ := hpasses.split hrun
  obtain ⟨old, hold, -⟩ := run_follows locks hpast hbefore
  have hnotOld : ¬p old.published := fun h => hearlier ⟨old, hold, h⟩
  obtain ⟨mutation, hinstalls⟩ := installs_of_change (locks.run hpast) hstep hold hnew
    (fun hsame => hnotOld (hsame ▸ hlater))
  exact ⟨event, reached, next, mutation, old.published, new.published, hpasses, hinstalls,
    hnotOld, hlater⟩

/-- Between two moments of any run of any handlers over one repository, a decision of a
handler that changed was changed by one installed mutation, which accounts for it. -/
theorem decision_change_accounted (stored : Content) (past later : List Event)
    (moment final : Cluster)
    (hpast : Runs.run Cluster.step (Cluster.start stored) past = some moment)
    (hlater : Runs.run Cluster.step moment later = some final)
    (number : Nat) (before after : Handler) (hbefore : moment.handlers[number]? = some before)
    (hafter : final.handlers[number]? = some after) (request : AuthorizationRequest)
    (hchanged : (before.published.compiled.authorize request).allowed ≠
      (after.published.compiled.authorize request).allowed) :
    ∃ event reached next mutation old new,
      Passes Cluster.step moment later event reached next ∧
      Installs number reached event next mutation old new ∧
      (old.compiled.authorize request).allowed ≠
        (after.published.compiled.authorize request).allowed ∧
      (new.compiled.authorize request).allowed =
        (after.published.compiled.authorize request).allowed ∧
      mutation.Accounts old new request := by
  obtain ⟨event, reached, next, mutation, old, new, hpasses, hinstalls, hold, hnew⟩ :=
    exists_installs (p := fun catalog => (catalog.compiled.authorize request).allowed =
        (after.published.compiled.authorize request).allowed)
      ((Cluster.lockInv_start stored).run hpast) hlater hbefore hafter hchanged rfl
  refine ⟨event, reached, next, mutation, old, new, hpasses, hinstalls, hold, hnew, ?_⟩
  obtain ⟨index, task, -, rfl, happlies, -⟩ := hinstalls.step
  apply happlies.accounts
  rw [hnew]
  exact fun hsame => hold hsame.symm

/-! Mutations that leave decisions or routes alone. -/

omit [Ipnet] in
theorem Edits.roleBindings_kept {current policy : IamPolicyInfo} {mutation : Mutation}
    (hedits : Edits current mutation policy) (hkeeps : mutation.KeepsGrants current) :
    policy.roleBindings = current.roleBindings := by
  cases hedits with
  | createAction | updateAction | deleteAction | createRole | updateRole | deleteRole => rfl
  | createRoleBinding | updateRoleBinding | deleteRoleBinding | replace | reset => cases hkeeps

omit [Ipnet] in
theorem flatMap_filter_of_nil {α β : Type} {f : α → List β} {p : α → Bool} {items : List α}
    (h : ∀ item ∈ items, p item = false → f item = []) :
    (items.filter p).flatMap f = items.flatMap f := by
  induction items with
  | nil => rfl
  | cons item items ih =>
      rw [List.forall_mem_cons] at h
      rw [List.filter_cons, List.flatMap_cons]
      split
      · rw [List.flatMap_cons, ih h.2]
      · rename_i hp
        rw [ih h.2, h.1 (by simpa using hp), List.nil_append]

omit [Ipnet] in
theorem Edits.ownedMatchers_kept {current policy : IamPolicyInfo} {mutation : Mutation}
    (hedits : Edits current mutation policy) (hkeeps : mutation.KeepsRoutes current) :
    policy.ownedMatchers = current.ownedMatchers := by
  cases hedits with
  | createAction action _ =>
      have hnone : action.routeMatchers = [] := hkeeps
      simp [IamPolicyInfo.ownedMatchers, hnone]
  | updateAction id action held before after hsplit hid =>
      obtain ⟨hsame, hmatchers⟩ := hkeeps
      have hheld := hmatchers held (by rw [hsplit]; simp) hid
      simp [IamPolicyInfo.ownedMatchers, hsplit, hheld, hid, hsame]
  | deleteAction id _ _ =>
      apply flatMap_filter_of_nil
      intro held hmem hdeleted
      simp [hkeeps held hmem (by simpa using hdeleted)]
  | createRoleBinding | updateRoleBinding | deleteRoleBinding | createRole | updateRole
  | deleteRole => rfl
  | replace | reset => cases hkeeps

omit [Ipnet] in
/-- What the role of an identifier grants is read off the table. -/
theorem roleTable_grants {policy : IamPolicyInfo} (unique : (policy.roles.map (·.id)).Nodup)
    {roleId : String} {role : IamRoleInfo} (hrole : roleTable policy.roles roleId = some role)
    (action : String) : action ∈ role.actionIds ↔ policy.Grants roleId action := by
  obtain ⟨hmem, hid⟩ := roleTable_mem hrole
  constructor
  · intro haction
    exact ⟨role, hmem, hid, haction⟩
  · rintro ⟨other, hother, hotherId, haction⟩
    rw [List.inj_on_of_nodup_map unique hmem hother (hid.trans hotherId.symm)]
    exact haction

omit [Ipnet] in
theorem exists_roleTable {policy : IamPolicyInfo} (unique : (policy.roles.map (·.id)).Nodup)
    {roleId : String} (hmem : roleId ∈ policy.roles.map (·.id)) :
    ∃ role, roleTable policy.roles roleId = some role := by
  obtain ⟨role, hrole, hid⟩ := List.mem_map.mp hmem
  exact ⟨role, (roleTable_eq_some unique).mpr ⟨hrole, hid⟩⟩

theorem Edits.compileRoleBinding_kept {current policy : IamPolicyInfo} {mutation : Mutation}
    (hedits : Edits current mutation policy) (hcurrent : current.WellFormed)
    (hpolicy : policy.WellFormed) (hkeeps : mutation.KeepsGrants current)
    {binding : IamRoleBindingInfo} (hmem : binding ∈ current.roleBindings) :
    compileRoleBinding (roleTable policy.roles) binding =
      compileRoleBinding (roleTable current.roles) binding := by
  have hmem' : binding ∈ policy.roleBindings := by
    rw [hedits.roleBindings_kept hkeeps]
    exact hmem
  obtain ⟨role, hrole⟩ := exists_roleTable hcurrent.roleIds.nodup
    (hcurrent.bindingRoles binding hmem)
  obtain ⟨role', hrole'⟩ := exists_roleTable hpolicy.roleIds.nodup
    (hpolicy.bindingRoles binding hmem')
  apply compileRoleBinding_congr
  rw [hrole, hrole', Option.map_some, Option.map_some, Option.some.injEq]
  ext action
  rw [List.mem_toFinset, List.mem_toFinset, roleTable_grants hcurrent.roleIds.nodup hrole,
    roleTable_grants hpolicy.roleIds.nodup hrole']
  constructor
  · intro hgrants
    by_contra hnew
    exact hkeeps.not_adds _ _ (hedits.new_grant hcurrent hpolicy hmem hmem' hgrants hnew)
  · intro hgrants
    by_contra hlost
    exact hkeeps.not_removes _ _ (hedits.lost_grant hcurrent hpolicy hmem hmem' hgrants hlost)

theorem Catalog.compiledAs (catalog : Catalog) :
    CompiledAs catalog.policy catalog.revision catalog.compiled :=
  compile_eq_ok.mp catalog.recompile

theorem Task.Applies.roleBindings_kept {task : Task} {old new : Catalog}
    (h : task.Applies old new) (hkeeps : task.mutation.KeepsGrants old.policy) :
    new.compiled.roleBindings = old.compiled.roleBindings := by
  obtain ⟨policy, revision, hedits, hwellFormed, hnew⟩ := h.edits
  have hbindings := new.compiledAs.bindings
  have hsame : collect (compileRoleBinding (roleTable policy.roles)) policy.roleBindings =
      collect (compileRoleBinding (roleTable old.policy.roles)) old.policy.roleBindings := by
    rw [hedits.roleBindings_kept hkeeps]
    exact collect_congr fun binding hmem =>
      hedits.compileRoleBinding_kept old.wellFormed hwellFormed hkeeps hmem
  rw [hnew] at hbindings
  change collect (compileRoleBinding (roleTable policy.roles)) policy.roleBindings = _ at hbindings
  rw [hsame, old.compiledAs.bindings, Except.ok.injEq] at hbindings
  exact hbindings.symm

theorem Task.Applies.routes_kept {task : Task} {old new : Catalog} (h : task.Applies old new)
    (hkeeps : task.mutation.KeepsRoutes old.policy) :
    new.compiled.routes = old.compiled.routes := by
  obtain ⟨policy, revision, hedits, -, hnew⟩ := h.edits
  have hroutes := new.compiledAs.routes
  rw [hnew] at hroutes
  change collect compileOwned policy.ownedMatchers = _ at hroutes
  rw [hedits.ownedMatchers_kept hkeeps, old.compiledAs.routes, Except.ok.injEq] at hroutes
  exact hroutes.symm

/-- Every mutation that the handler installs in the run has the property, of the catalog it
replaces. -/
def InstallsOnly (number : Nat) (moment : Cluster) (events : List Event)
    (p : IamPolicyInfo → Mutation → Prop) : Prop :=
  ∀ event reached next mutation old new, Passes Cluster.step moment events event reached next →
    Installs number reached event next mutation old new → p old.policy mutation

/-- What no such mutation changes in a catalog stays as it was in the whole run. -/
theorem kept_of_installsOnly {moment final : Cluster} {later : List Event} {number : Nat}
    {before after : Handler} (locks : moment.LockInv)
    (hlater : Runs.run Cluster.step moment later = some final)
    (hbefore : moment.handlers[number]? = some before)
    (hafter : final.handlers[number]? = some after) {p : IamPolicyInfo → Mutation → Prop}
    (honly : InstallsOnly number moment later p) {β : Type} {f : Catalog → β}
    (hkeeps : ∀ (task : Task) (old new : Catalog), task.Applies old new →
      p old.policy task.mutation → f new = f old) :
    f after.published = f before.published := by
  by_contra hchanged
  obtain ⟨event, reached, next, mutation, old, new, hpasses, hinstalls, hold, hnew⟩ :=
    exists_installs (p := fun catalog => f catalog ≠ f before.published) locks hlater
      hbefore hafter (by simp) hchanged
  obtain ⟨index, task, -, rfl, happlies, -⟩ := hinstalls.step
  rw [hkeeps task old new happlies (honly _ _ _ _ _ _ hpasses hinstalls)] at hnew
  exact hold hnew

/-- Actions and roles that come, change and go without touching a grant leave every decision
and every scope of a handler as they were, and bindings and roles leave its routes. -/
theorem unrelated_mutations_keep (stored : Content) (past later : List Event)
    (moment final : Cluster)
    (hpast : Runs.run Cluster.step (Cluster.start stored) past = some moment)
    (hlater : Runs.run Cluster.step moment later = some final)
    (number : Nat) (before after : Handler) (hbefore : moment.handlers[number]? = some before)
    (hafter : final.handlers[number]? = some after) :
    (InstallsOnly number moment later (fun current mutation => mutation.KeepsGrants current) →
      (∀ request, after.published.compiled.authorize request =
        before.published.compiled.authorize request) ∧
      ∀ principalId groups action context,
        after.published.compiled.authorizationScope principalId groups action context =
          before.published.compiled.authorizationScope principalId groups action context) ∧
    (InstallsOnly number moment later (fun current mutation => mutation.KeepsRoutes current) →
      ∀ method host path claims,
        after.published.compiled.resolveHttpRoute method host path claims =
          before.published.compiled.resolveHttpRoute method host path claims) := by
  have locks := (Cluster.lockInv_start stored).run hpast
  constructor
  · intro honly
    have hkept : after.published.compiled.roleBindings =
        before.published.compiled.roleBindings :=
      kept_of_installsOnly locks hlater hbefore hafter honly
        (f := fun catalog => catalog.compiled.roleBindings)
        fun _ _ _ happlies hkeeps => happlies.roleBindings_kept hkeeps
    simp [CompiledPolicy.authorize, CompiledPolicy.authorizationScope, hkept]
  · intro honly
    have hkept : after.published.compiled.routes = before.published.compiled.routes :=
      kept_of_installsOnly locks hlater hbefore hafter honly
        (f := fun catalog => catalog.compiled.routes)
        fun _ _ _ happlies hkeeps => happlies.routes_kept hkeeps
    simp [CompiledPolicy.resolveHttpRoute, hkept]

/-! Runs whose requests are known. -/

/-- A task runs the mutation of a request of the run. -/
theorem mutation_requested {stored : Content} {events : List Event} {reached : Cluster}
    (hrun : Runs.run Cluster.step (Cluster.start stored) events = some reached) {index : Nat}
    {task : Task} (htask : reached.tasks[index]? = some task) :
    ∃ handler revision, .request handler revision task.mutation ∈ events := by
  refine run_history_invariant (fun past moment => ∀ (index : Nat) (task : Task),
    moment.tasks[index]? = some task →
      ∃ handler revision, .request handler revision task.mutation ∈ past) ?_ hrun
    (by simp [Cluster.start]) index task htask
  intro past moment event next _ hinv hstep index task htask
  have hearlier : ∀ {earlier : Task}, moment.tasks[index]? = some earlier →
      earlier.mutation = task.mutation →
      ∃ handler revision, .request handler revision task.mutation ∈ past ++ [event] := by
    intro earlier hfound hsame
    obtain ⟨handler, revision, hmem⟩ := hinv index earlier hfound
    exact ⟨handler, revision, List.mem_append_left _ (hsame ▸ hmem)⟩
  cases Cluster.step_steps hstep with
  | request handler expectedRevision mutation _ =>
      cases getElem?_append_singleton htask with
      | inl hsame => exact hearlier hsame rfl
      | inr hnew =>
          obtain ⟨-, rfl⟩ := hnew
          exact ⟨handler, expectedRevision, by simp⟩
  | advance number reply before handler phase published stored hbefore _ _ =>
      change (moment.resume number before handler phase published).tasks[index]? = _ at htask
      rw [resume_tasks hbefore] at htask
      split at htask
      · rename_i hindex
        cases htask
        rw [← hindex] at hbefore
        exact hearlier hbefore rfl
      · exact hearlier htask rfl
  | drop number before handler orphans hbefore _ _ =>
      change (moment.resume number before handler _ handler.published).tasks[index]? = _ at htask
      rw [resume_tasks hbefore] at htask
      split at htask
      · rename_i hindex
        cases htask
        rw [← hindex] at hbefore
        exact hearlier hbefore rfl
      · exact hearlier htask rfl
  | settle | failedOpen | openHandler => exact hearlier htask rfl

theorem installsOnly_of_requests {stored : Content} {past later : List Event} {moment : Cluster}
    (hpast : Runs.run Cluster.step (Cluster.start stored) past = some moment) {number : Nat}
    {p : IamPolicyInfo → Mutation → Prop}
    (h : ∀ handler revision mutation, Event.request handler revision mutation ∈ past ++ later →
      ∀ current, p current mutation) : InstallsOnly number moment later p := by
  rintro event reached next mutation old new ⟨before, future, hevents, hrun, -⟩ hinstalls
  obtain ⟨index, task, -, rfl, -, hinstall⟩ := hinstalls.step
  have hreached : Runs.run Cluster.step (Cluster.start stored) (past ++ before) = some reached :=
    run_append_eq_some.mpr ⟨moment, hpast, hrun⟩
  obtain ⟨handler, revision, hmem⟩ := mutation_requested hreached hinstall.before
  apply h handler revision task.mutation
  rw [hevents]
  exact (List.mem_append.mp hmem).elim (List.mem_append_left _) fun hbefore =>
    List.mem_append_right _ (List.mem_append_left _ hbefore)

end

namespace Payroll

/-- One request served to its end by the first handler, at the first revision. -/
def served (mutation : Mutation) : List Event :=
  [.request 0 1 mutation, .advance 0 .ready, .advance 0 .ready, .advance 0 (.stored (.ok ())),
    .advance 0 (.stored (.ok ())), .advance 0 .ready]

/-- What the first handler decides on a payroll. -/
def decided (cluster : Cluster) (payroll : String) : Option Bool :=
  cluster.handlers[0]?.map fun handler =>
    (handler.published.compiled.authorize (request payroll)).allowed

def opening : List Event := [.openHandler none (.ok ())]

def auditor : IamRoleInfo :=
  { id := "auditor", name := "Auditor", actionIds := ["payroll.read"] }

/-- The board's payroll becomes readable when the binding that denies it is deleted. -/
theorem board_accounted :
    ∃ moment final event reached next mutation old new,
      Runs.run Cluster.step (Cluster.start policy.content) opening = some moment ∧
      Runs.run Cluster.step moment (served (.deleteRoleBinding "contractors")) = some final ∧
      decided moment "board" = some false ∧ decided final "board" = some true ∧
      Passes Cluster.step moment (served (.deleteRoleBinding "contractors")) event reached next ∧
      Installs 0 reached event next mutation old new ∧
      mutation.Accounts old new (request "board") := by
  have hmoment : ∃ moment,
      Runs.run Cluster.step (Cluster.start policy.content) opening = some moment ∧
      decided moment "board" = some false ∧
      (Runs.run Cluster.step moment (served (.deleteRoleBinding "contractors"))).any
        (fun final => decide (decided final "board" = some true)) = true :=
    exists_run_of_any (by decide +kernel)
  obtain ⟨moment, hpast, hdenied, hfinal⟩ := hmoment
  obtain ⟨final, hlater, hallowed⟩ := exists_run_of_any hfinal
  obtain ⟨before, hbefore, hfalse⟩ := Option.map_eq_some_iff.mp hdenied
  obtain ⟨after, hafter, htrue⟩ := Option.map_eq_some_iff.mp hallowed
  obtain ⟨event, reached, next, mutation, old, new, hpasses, hinstalls, -, -, haccounts⟩ :=
    decision_change_accounted policy.content opening (served (.deleteRoleBinding "contractors"))
      moment final hpast hlater 0 before after hbefore hafter (request "board")
      (by rw [hfalse, htrue]; simp)
  exact ⟨moment, final, event, reached, next, mutation, old, new, hpast, hlater, hdenied,
    hallowed, hpasses, hinstalls, haccounts⟩

/-- A role that is bound to nobody yet changes no decision, and no route. -/
theorem auditor_unnoticed :
    ∃ moment final before after,
      Runs.run Cluster.step (Cluster.start policy.content) opening = some moment ∧
      Runs.run Cluster.step moment (served (.createRole auditor)) = some final ∧
      moment.handlers[0]? = some before ∧ final.handlers[0]? = some after ∧
      after.published.revision = 2 ∧
      (∀ request, after.published.compiled.authorize request =
        before.published.compiled.authorize request) ∧
      ∀ method host path claims,
        after.published.compiled.resolveHttpRoute method host path claims =
          before.published.compiled.resolveHttpRoute method host path claims := by
  have hmoment : ∃ moment,
      Runs.run Cluster.step (Cluster.start policy.content) opening = some moment ∧
      moment.handlers.length = 1 ∧
      (Runs.run Cluster.step moment (served (.createRole auditor))).any
        (fun final => decide (final.handlers[0]?.map (·.published.revision) = some 2)) = true :=
    exists_run_of_any (by decide +kernel)
  obtain ⟨moment, hpast, hone, hfinal⟩ := hmoment
  obtain ⟨final, hlater, hrevision⟩ := exists_run_of_any hfinal
  obtain ⟨before, hbefore⟩ : ∃ before, moment.handlers[0]? = some before :=
    ⟨_, List.getElem?_eq_getElem (by omega)⟩
  obtain ⟨after, hafter, hrevision⟩ := Option.map_eq_some_iff.mp hrevision
  have hkeeps := unrelated_mutations_keep policy.content opening
    (served (.createRole auditor)) moment final hpast hlater 0 before after hbefore hafter
  have hsole : ∀ handler revision mutation,
      Event.request handler revision mutation ∈ opening ++ served (.createRole auditor) →
      mutation = .createRole auditor := by
    intro handler revision mutation hmem
    simp only [opening, served, List.cons_append, List.nil_append, List.mem_cons,
      Event.request.injEq, reduceCtorEq, List.not_mem_nil, or_false, false_or] at hmem
    exact hmem.2.2
  have hgrants := hkeeps.1 (installsOnly_of_requests hpast (by
    intro handler revision mutation hmem current
    rw [hsole handler revision mutation hmem]
    trivial))
  have hroutes := hkeeps.2 (installsOnly_of_requests hpast (by
    intro handler revision mutation hmem current
    rw [hsole handler revision mutation hmem]
    trivial))
  exact ⟨moment, final, before, after, hpast, hlater, hbefore, hafter, hrevision, hgrants.1,
    hroutes⟩

end Payroll

end Authguard
