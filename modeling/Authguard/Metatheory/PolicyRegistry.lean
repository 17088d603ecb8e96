import Authguard.Authz.PolicyReading
import Authguard.Metatheory.PolicyChanges

/-!
The catalog of a handler as what its users see: three finite maps from identifiers
to resources. The mutations installed between two moments of a run, in the order of
their revisions, turn the maps read at the first moment into those read at the
second, and the maps never refer to a resource that is not there.
-/

namespace Authguard
open Result Runs

/-! Maps by identifier. -/

/-- Actions, roles and role bindings by identifier. -/
structure Registry where
  action : String → Option IamActionInfo
  role : String → Option IamRoleInfo
  roleBinding : String → Option IamRoleBindingInfo

def byId {α : Type} (valueId : α → String) (values : List α) (id : String) : Option α :=
  values.find? (valueId · == id)

def IamPolicyInfo.registry (policy : IamPolicyInfo) : Registry where
  action := byId (·.identifier) policy.actions
  role := byId (·.id) policy.roles
  roleBinding := byId (·.id) policy.roleBindings

/-- What a mutation means to a reader. -/
def Registry.after (registry : Registry) : Mutation → Registry
  | .createRoleBinding binding | .updateRoleBinding _ binding =>
      { registry with
        roleBinding := Function.update registry.roleBinding binding.id (some binding) }
  | .deleteRoleBinding id =>
      { registry with roleBinding := Function.update registry.roleBinding id none }
  | .createAction action | .updateAction _ action =>
      { registry with action := Function.update registry.action action.identifier (some action) }
  | .deleteAction id => { registry with action := Function.update registry.action id none }
  | .createRole role | .updateRole _ role =>
      { registry with role := Function.update registry.role role.id (some role) }
  | .deleteRole id => { registry with role := Function.update registry.role id none }
  | .replace policy => policy.registry
  | .reset => ⟨fun _ => none, fun _ => none, fun _ => none⟩

section
variable {α : Type} {valueId : α → String} {values before after : List α} {value held : α}
  {id : String}

theorem byId_eq_some (unique : (values.map valueId).Nodup) :
    byId valueId values id = some value ↔ value ∈ values ∧ valueId value = id := by
  constructor
  · intro h
    exact ⟨List.mem_of_find?_eq_some h, beq_iff_eq.mp (List.find?_some (p := (valueId · == id)) h)⟩
  · rintro ⟨hmem, hid⟩
    cases hfound : byId valueId values id with
    | none =>
        have hnone := List.find?_eq_none.mp hfound value hmem
        simp [hid] at hnone
    | some other =>
        have hother := List.mem_of_find?_eq_some hfound
        have hsame := beq_iff_eq.mp (List.find?_some (p := (valueId · == id)) hfound)
        rw [List.inj_on_of_nodup_map unique hother hmem (hsame.trans hid.symm)]

theorem byId_append (h : valueId value ∉ values.map valueId) :
    byId valueId (values ++ [value]) =
      Function.update (byId valueId values) (valueId value) (some value) := by
  funext id
  rw [byId, List.find?_append]
  by_cases hid : id = valueId value
  · subst hid
    have hnone : values.find? (valueId · == valueId value) = none := by
      rw [List.find?_eq_none]
      intro other hother hsame
      exact h (List.mem_map.mpr ⟨other, hother, beq_iff_eq.mp hsame⟩)
    simp [hnone]
  · have hlast : [value].find? (valueId · == id) = none := by simp [Ne.symm hid]
    rw [Function.update_of_ne hid, hlast, Option.or_none, byId]

theorem byId_replaced (unique : ((before ++ held :: after).map valueId).Nodup)
    (hid : valueId value = valueId held) :
    byId valueId (before ++ value :: after) =
      Function.update (byId valueId (before ++ held :: after)) (valueId value) (some value) := by
  funext id
  rw [byId, List.find?_append]
  by_cases hsame : id = valueId value
  · subst hsame
    have hnone : before.find? (valueId · == valueId value) = none := by
      rw [List.find?_eq_none]
      intro other hother hsame
      rw [List.map_append, List.nodup_append] at unique
      exact unique.2.2 _ (List.mem_map_of_mem hother) _ (by simp)
        ((beq_iff_eq.mp hsame).trans hid)
    simp [hnone]
  · have hheld : ¬valueId held = id := fun h => hsame (h.symm.trans hid.symm)
    rw [Function.update_of_ne hsame, byId, List.find?_append]
    simp [Ne.symm hsame, hheld]

theorem byId_filter :
    byId valueId (values.filter (valueId · != id)) =
      Function.update (byId valueId values) id none := by
  funext other
  rw [byId, List.find?_filter]
  by_cases hsame : other = id
  · subst hsame
    rw [Function.update_self, List.find?_eq_none]
    intro value _
    simp
  · rw [Function.update_of_ne hsame, byId]
    congr 1
    funext value
    by_cases hid : valueId value = other
    · simp [hid, hsame]
    · simp [hid]

end

section
variable [Ipnet]

/-- A mutation whose checks passed does to the maps what it means. -/
theorem Edits.registry {current policy : IamPolicyInfo} {mutation : Mutation}
    (hedits : Edits current mutation policy) (hcurrent : current.WellFormed) {revision : Nat}
    (hchecked : mutation.precheck revision = .ok ()) :
    policy.registry = current.registry.after mutation := by
  have hsameId : ∀ {resource id bodyId : String}, ensureMatchingId resource id bodyId = .ok () →
      id = bodyId := by
    intro resource id bodyId h
    simpa [ensureMatchingId] using h
  cases hedits with
  | createRoleBinding binding habsent =>
      simp only [IamPolicyInfo.registry, Registry.after, byId_append habsent]
  | updateRoleBinding id binding held before after hsplit hid =>
      have unique := hcurrent.bindingIds.nodup
      rw [hsplit] at unique
      simp only [IamPolicyInfo.registry, Registry.after, hsplit,
        byId_replaced unique ((hsameId hchecked).symm.trans hid.symm)]
  | deleteRoleBinding id _ => simp only [IamPolicyInfo.registry, Registry.after, byId_filter]
  | createAction action habsent =>
      simp only [IamPolicyInfo.registry, Registry.after, byId_append habsent]
  | updateAction id action held before after hsplit hid =>
      have unique := hcurrent.actionIds.nodup
      rw [hsplit] at unique
      simp only [IamPolicyInfo.registry, Registry.after, hsplit,
        byId_replaced unique ((hsameId hchecked).symm.trans hid.symm)]
  | deleteAction id _ _ => simp only [IamPolicyInfo.registry, Registry.after, byId_filter]
  | createRole role habsent =>
      simp only [IamPolicyInfo.registry, Registry.after, byId_append habsent]
  | updateRole id role held before after hsplit hid =>
      have unique := hcurrent.roleIds.nodup
      rw [hsplit] at unique
      simp only [IamPolicyInfo.registry, Registry.after, hsplit,
        byId_replaced unique ((hsameId hchecked).symm.trans hid.symm)]
  | deleteRole id _ _ => simp only [IamPolicyInfo.registry, Registry.after, byId_filter]
  | replace => rfl
  | reset => rfl

/-! What a catalog shows. -/

/-- Every read of the catalog is a read of the maps, which are closed under reference. -/
structure Catalog.Reads (catalog : Catalog) (registry : Registry) : Prop where
  actionItem : ∀ id, catalog.actionItem id = (registry.action id).elim
    (.error (.notFound "action" id)) fun action => .ok ⟨catalog.revision, action⟩
  roleItem : ∀ id, catalog.roleItem id = (registry.role id).elim
    (.error (.notFound "role" id)) fun role => .ok ⟨catalog.revision, role⟩
  roleBindingItem : ∀ id, catalog.roleBindingItem id = (registry.roleBinding id).elim
    (.error (.notFound "role binding" id)) fun binding => .ok ⟨catalog.revision, binding⟩
  actions : ∀ action, action ∈ catalog.actions.items ↔
    registry.action action.identifier = some action
  roles : ∀ role, role ∈ catalog.roles.items ↔ registry.role role.id = some role
  roleBindings : ∀ binding, binding ∈ catalog.roleBindings.items ↔
    registry.roleBinding binding.id = some binding
  once : catalog.actions.items.Nodup ∧ catalog.roles.items.Nodup ∧
    catalog.roleBindings.items.Nodup
  granted : ∀ id role, registry.role id = some role → ∀ actionId ∈ role.actionIds,
    (registry.action actionId).isSome
  bound : ∀ id binding, registry.roleBinding id = some binding →
    (registry.role binding.roleId).isSome

omit [Ipnet] in
theorem findItem_eq {α : Type} (revision : Nat) (values : List α) (resource id : String)
    (valueId : α → String) : findItem revision values resource id valueId =
      (byId valueId values id).elim (.error (.notFound resource id))
        fun value => .ok ⟨revision, value⟩ := by
  rw [findItem, byId]
  cases values.find? (valueId · == id) <;> rfl

omit [Ipnet] in
theorem byId_isSome {α : Type} {valueId : α → String} {values : List α} {id : String}
    (h : id ∈ values.map valueId) : (byId valueId values id).isSome := by
  obtain ⟨value, hmem, hid⟩ := List.mem_map.mp h
  exact List.find?_isSome.mpr ⟨value, hmem, beq_iff_eq.mpr hid⟩

theorem Catalog.reads_registry (catalog : Catalog) : catalog.Reads catalog.policy.registry := by
  have hwellFormed := catalog.wellFormed
  have hactions := hwellFormed.actionIds.nodup
  have hroles := hwellFormed.roleIds.nodup
  have hbindings := hwellFormed.bindingIds.nodup
  refine ⟨fun id => findItem_eq _ _ _ _ _, fun id => findItem_eq _ _ _ _ _,
    fun id => findItem_eq _ _ _ _ _, ?_, ?_, ?_, ?_, ?_, ?_⟩
  · intro action
    exact ((byId_eq_some hactions).trans (and_iff_left rfl)).symm
  · intro role
    exact ((byId_eq_some hroles).trans (and_iff_left rfl)).symm
  · intro binding
    exact ((byId_eq_some hbindings).trans (and_iff_left rfl)).symm
  · exact ⟨hactions.of_map, hroles.of_map, hbindings.of_map⟩
  · intro id role hrole actionId hactionId
    obtain ⟨hmem, -⟩ := (byId_eq_some hroles).mp hrole
    exact byId_isSome (hwellFormed.roleActions role hmem actionId hactionId)
  · intro id binding hbinding
    obtain ⟨hmem, -⟩ := (byId_eq_some hbindings).mp hbinding
    exact byId_isSome (hwellFormed.bindingRoles binding hmem)

/-! Checks made before a task waits. -/

/-- The task has left the checks made on entry behind, and did not fail them. -/
def Phase.isChecked : Phase → Bool
  | .awaitingPrincipal _ | .awaitingLock | .awaitingBindingPrincipals _ | .replacing _
  | .committing _ | .committed _ => true
  | .entered | .finished _ | .cancelled => false

theorem Task.enter_checked {task : Task} (h : task.enter.isChecked = true) :
    task.mutation.precheck task.expectedRevision = .ok () := by
  unfold Task.enter at h
  split at h
  · cases h
  · assumption

theorem Task.advance_checked {task : Task} {handler : Handler} {stored stored' : Content}
    {reply : Reply} {phase : Phase} {published : Catalog}
    (h : task.advance handler stored reply = some (phase, published, stored'))
    (hchecked : phase.isChecked = true) :
    task.phase.isChecked = true ∨ task.mutation.precheck task.expectedRevision = .ok () := by
  cases hphase : task.phase with
  | entered =>
      right
      cases reply with
      | ready =>
          simp only [Task.advance, hphase, Option.some.injEq, Prod.mk.injEq] at h
          rw [← h.1] at hchecked
          exact Task.enter_checked hchecked
      | lookup result | stored result => simp [Task.advance, hphase] at h
  | finished result => simp [Task.advance, hphase] at h
  | cancelled => simp [Task.advance, hphase] at h
  | awaitingPrincipal | awaitingLock | awaitingBindingPrincipals | replacing | committing
  | committed => exact .inl rfl

theorem step_checked {cluster next : Cluster} {event : Event}
    (hinv : ∀ (index : Nat) (task : Task), cluster.tasks[index]? = some task →
      task.phase.isChecked = true → task.mutation.precheck task.expectedRevision = .ok ())
    (h : cluster.step event = some next) (index : Nat) (task : Task)
    (htask : next.tasks[index]? = some task) (hchecked : task.phase.isChecked = true) :
    task.mutation.precheck task.expectedRevision = .ok () := by
  cases event with
  | advance number reply =>
      simp only [Cluster.step, Option.bind_eq_bind, Option.bind_eq_some_iff] at h
      obtain ⟨before, hbefore, handler, -, ⟨phase, published, stored⟩, hadvance, h⟩ := h
      cases h
      change (cluster.resume number before handler phase published).tasks[index]? = _ at htask
      rw [resume_tasks hbefore] at htask
      split at htask
      · cases htask
        exact (Task.advance_checked hadvance hchecked).elim (hinv number before hbefore) id
      · exact hinv index task htask hchecked
  | request handler expectedRevision mutation =>
      cases Cluster.step_steps h with
      | request =>
          cases getElem?_append_singleton htask with
          | inl hsame => exact hinv index task hsame hchecked
          | inr hnew =>
              obtain ⟨-, rfl⟩ := hnew
              cases hchecked
  | drop number =>
      cases Cluster.step_steps h with
      | drop _ before handler orphans hbefore _ _ =>
          change (cluster.resume number before handler _ handler.published).tasks[index]? = _
            at htask
          rw [resume_tasks hbefore] at htask
          split at htask
          · cases htask
            cases hchecked
          · exact hinv index task htask hchecked
  | settle orphan applied =>
      cases Cluster.step_steps h with
      | settle => exact hinv index task htask hchecked
  | openHandler bootstrap answer =>
      cases Cluster.step_steps h with
      | failedOpen | openHandler => exact hinv index task htask hchecked

theorem run_checked {stored : Content} {events : List Event} {reached : Cluster}
    (hrun : Runs.run Cluster.step (Cluster.start stored) events = some reached) {index : Nat}
    {task : Task} (htask : reached.tasks[index]? = some task)
    (hchecked : task.phase.isChecked = true) :
    task.mutation.precheck task.expectedRevision = .ok () :=
  run_invariant_of_step (fun cluster => ∀ (index : Nat) (task : Task),
    cluster.tasks[index]? = some task → task.phase.isChecked = true →
      task.mutation.precheck task.expectedRevision = .ok ())
    (fun _ _ _ hinv hstep => step_checked hinv hstep) hrun (by simp [Cluster.start]) index task
    htask hchecked

/-! Runs. -/

/-- The mutations of a handler in a run, one for each revision it went through. -/
structure Mutated (number : Nat) (moment : Cluster) (events : List Event) (before after : Catalog)
    (mutations : List Mutation) : Prop where
  revision : after.revision = before.revision + mutations.length
  installed : ∀ (i : Nat) (mutation : Mutation), mutations[i]? = some mutation →
    ∃ event reached next old new, Passes Cluster.step moment events event reached next ∧
      Installs number reached event next mutation old new ∧ old.revision = before.revision + i
  registry : after.policy.registry = mutations.foldl Registry.after before.policy.registry

omit [Ipnet] in
theorem passes_append {σ ε : Type} {step : σ → ε → Option σ} {state before after : σ}
    {events : List ε} {event : ε} (h : Passes step state events event before after)
    (more : List ε) : Passes step state (events ++ more) event before after := by
  obtain ⟨past, future, rfl, hrun, hstep⟩ := h
  exact ⟨past, future ++ more, by simp, hrun, hstep⟩

theorem Mutated.later {number : Nat} {moment : Cluster} {events : List Event}
    {before after : Catalog} {mutations : List Mutation}
    (h : Mutated number moment events before after mutations) (event : Event) :
    Mutated number moment (events ++ [event]) before after mutations := by
  refine ⟨h.revision, ?_, h.registry⟩
  intro i mutation hi
  obtain ⟨other, reached, next, old, new, hpasses, hinstalls⟩ := h.installed i mutation hi
  exact ⟨other, reached, next, old, new, passes_append hpasses [event], hinstalls⟩

theorem Installs.registry {stored : Content} {past : List Event} {number : Nat}
    {reached next : Cluster} {event : Event} {mutation : Mutation} {old new : Catalog}
    (hpast : Runs.run Cluster.step (Cluster.start stored) past = some reached)
    (h : Installs number reached event next mutation old new) :
    new.policy.registry = old.policy.registry.after mutation := by
  obtain ⟨index, task, -, rfl, happlies, hinstall⟩ := h.step
  obtain ⟨policy, revision, hedits, -, hnew⟩ := happlies.edits
  have hchecked := run_checked hpast hinstall.before rfl
  rw [hnew]
  exact hedits.registry old.wellFormed hchecked

/-- The reads of a handler at a later moment are those at an earlier one, changed by the
mutations it installed in between, in the order of their revisions. -/
theorem reads_follow_mutations (stored : Content) (past later : List Event)
    (moment final : Cluster)
    (hpast : Runs.run Cluster.step (Cluster.start stored) past = some moment)
    (hlater : Runs.run Cluster.step moment later = some final)
    (number : Nat) (before after : Handler) (hbefore : moment.handlers[number]? = some before)
    (hafter : final.handlers[number]? = some after) :
    ∃ mutations, Mutated number moment later before.published after.published mutations ∧
      after.published.Reads (mutations.foldl Registry.after before.published.policy.registry) := by
  have hinv := run_history_invariant
    (fun events reached => ∃ handler, reached.handlers[number]? = some handler ∧
      ∃ mutations, Mutated number moment events before.published handler.published mutations)
    (by
      rintro events reached event next hrun ⟨old, hold, mutations, hmutated⟩ hstep
      have hreached : Runs.run Cluster.step (Cluster.start stored) (past ++ events) =
          some reached := run_append_eq_some.mpr ⟨moment, hpast, hrun⟩
      have locks := (Cluster.lockInv_start stored).run hreached
      obtain ⟨new, hnew, -⟩ := step_follows locks hstep hold
      refine ⟨new, hnew, ?_⟩
      by_cases hsame : new.published = old.published
      · exact ⟨mutations, hsame ▸ hmutated.later event⟩
      -- a new revision: one more mutation at the end of the list
      obtain ⟨mutation, hinstalls⟩ := installs_of_change locks hstep hold hnew hsame
      refine ⟨mutations ++ [mutation], ?_, ?_, ?_⟩
      · rw [hinstalls.revision, hmutated.revision, List.length_append, List.length_singleton,
          Nat.add_assoc]
      · intro i other hi
        cases getElem?_append_singleton hi with
        | inl hearlier => exact (hmutated.later event).installed i other hearlier
        | inr hlast =>
            obtain ⟨rfl, rfl⟩ := hlast
            exact ⟨event, reached, next, old.published, new.published,
              ⟨events, [], rfl, hrun, hstep⟩, hinstalls, hmutated.revision⟩
      · rw [hinstalls.registry hreached, hmutated.registry, List.foldl_append]
        rfl)
    hlater ⟨before, hbefore, [], ⟨rfl, by simp, rfl⟩⟩
  obtain ⟨handler, hhandler, mutations, hmutated⟩ := hinv
  rw [hafter, Option.some.injEq] at hhandler
  subst hhandler
  refine ⟨mutations, hmutated, ?_⟩
  rw [← hmutated.registry]
  exact after.published.reads_registry

end

namespace Payroll

/-- Deleting the denial of the board's payroll is one mutation, and removes one entry. -/
theorem contractors_deleted :
    ∃ moment final before after mutations,
      Runs.run Cluster.step (Cluster.start policy.content) opening = some moment ∧
      Runs.run Cluster.step moment (served (.deleteRoleBinding "contractors")) = some final ∧
      moment.handlers[0]? = some before ∧ final.handlers[0]? = some after ∧
      after.published.revision = 2 ∧
      Mutated 0 moment (served (.deleteRoleBinding "contractors")) before.published
        after.published mutations ∧
      after.published.Reads
        (mutations.foldl Registry.after before.published.policy.registry) := by
  have hmoment : ∃ moment,
      Runs.run Cluster.step (Cluster.start policy.content) opening = some moment ∧
      moment.handlers.length = 1 ∧
      (Runs.run Cluster.step moment (served (.deleteRoleBinding "contractors"))).any
        (fun final => decide (final.handlers[0]?.map (·.published.revision) = some 2)) = true :=
    exists_run_of_any (by decide +kernel)
  obtain ⟨moment, hpast, hone, hfinal⟩ := hmoment
  obtain ⟨final, hlater, hrevision⟩ := exists_run_of_any hfinal
  obtain ⟨before, hbefore⟩ : ∃ before, moment.handlers[0]? = some before :=
    ⟨_, List.getElem?_eq_getElem (by omega)⟩
  obtain ⟨after, hafter, hrevision⟩ := Option.map_eq_some_iff.mp hrevision
  obtain ⟨mutations, hmutated, hreads⟩ := reads_follow_mutations policy.content opening
    (served (.deleteRoleBinding "contractors")) moment final hpast hlater 0 before after hbefore
    hafter
  exact ⟨moment, final, before, after, mutations, hpast, hlater, hbefore, hafter, hrevision,
    hmutated, hreads⟩

end Payroll

end Authguard
