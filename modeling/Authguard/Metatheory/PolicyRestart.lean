import Authguard.Metatheory.ClusterHistory

/-!
What a restart brings back. A handler opened after the last successful mutation
publishes what that mutation left, unless it left nothing at all: an empty
repository is initialized from the bootstrap policy again.
-/

namespace Authguard
open Result Runs

section
variable [Ipnet]

/-- A handler that the event opens is given this bootstrap policy. -/
def Event.Bootstraps (bootstrap : Option IamPolicyInfo) : Event → Prop
  | .openHandler policy _ => policy = bootstrap
  | _ => True

omit [Ipnet] in
theorem Content.reopened_reopened (bootstrap : Option IamPolicyInfo) (stored : Content) :
    (stored.reopened bootstrap).reopened bootstrap = stored.reopened bootstrap := by
  cases hempty : stored.isEmpty with
  | false =>
      have hsame : stored.reopened bootstrap = stored := by
        rw [Content.reopened, hempty, if_neg (by simp)]
      rw [hsame, hsame]
  | true =>
      cases bootstrap with
      | none => simp [Content.reopened]
      | some policy =>
          have hsame : stored.reopened (some policy) = policy.content := by
            rw [Content.reopened, hempty, if_pos rfl]
            rfl
          rw [hsame]
          simp [Content.reopened]

omit [Ipnet] in
/-- Reopening restores a revoked grant exactly when nothing is stored and the bootstrap
policy has it. -/
theorem Content.mem_reopened {bootstrap : Option IamPolicyInfo} {stored : Content}
    {grant : IamRoleBindingInfo} (hrevoked : grant ∉ stored.roleBindings) :
    grant ∈ (stored.reopened bootstrap).roleBindings ↔
      stored.isEmpty = true ∧ ∃ policy, bootstrap = some policy ∧ grant ∈ policy.roleBindings := by
  cases hempty : stored.isEmpty with
  | false => simp [Content.reopened, hempty, hrevoked]
  | true =>
      cases bootstrap with
      | none => simp [Content.reopened, hempty, hrevoked]
      | some policy => simp [Content.reopened, hempty, IamPolicyInfo.content]

/-- The repository is left alone, but for the opening of handlers. -/
def LeavesStored (cluster : Cluster) (event : Event) : Prop :=
  ∀ next, cluster.step event = some next → event.opens = false → next.stored = cluster.stored

/-- No event stores anything after the last mutation that succeeds. -/
theorem leavesStored_of_last {settled final : Cluster} {events : List Event}
    (hkeeps : Along Cluster.step KeepsCommits settled events)
    (hrun : Runs.run Cluster.step settled events = some final) (hfinal : final.Settled)
    (hlast : ∀ (index : Nat) (task : Task), final.tasks[index]? = some task →
      task.phase.succeeded = true → settled.tasks[index]? = some task) :
    Along Cluster.step LeavesStored settled events := by
  apply along_of_passes hrun
  intro event before after hpasses next hnext hopens
  obtain ⟨past, future, hevents, hpast, hstep, hfuture⟩ := hpasses.split hrun
  rw [hstep, Option.some.injEq] at hnext
  subst hnext
  rw [hevents] at hkeeps
  have hkept := hkeeps.append.2 before hpast
  cases Cluster.step_steps hstep with
  | request => rfl
  | drop => rfl
  | failedOpen => rfl
  | openHandler => cases hopens
  | settle index applied content orphans =>
      have hignored : applied = false := hkept.1
      rw [hignored]
      rfl
  | advance index reply task handler phase published stored htask hhandler hmoves =>
      cases hmoves with
      | wait => rfl
      | acquire => rfl
      | hold => rfl
      | fail => rfl
      | install => rfl
      | commit catalog hphase =>
          -- it would be published before the end, but it had not succeeded at the start
          have hpublishes : Cluster.Publishes
              { before.resume index task handler (.committed catalog) handler.published with
                stored := catalog.content } index task catalog := by
            refine ⟨.committed catalog, ?_, .inl rfl⟩
            change (before.resume index task handler _ handler.published).tasks[index]? = _
            rw [resume_tasks htask, if_pos rfl]
          obtain ⟨last, hends, hlastPhase⟩ := hpublishes.run (hkept.2 _ hstep) hfuture
          cases hlastPhase with
          | inl hcommitted =>
              have hnot := hfinal _ (List.mem_of_getElem? hends)
              change last.isCommitted = false at hnot
              rw [hcommitted] at hnot
              cases hnot
          | inr hfinished =>
              subst hfinished
              have hstart := hlast index _ hends rfl
              have hended := run_invariant_of_step
                (fun reached : Cluster => reached.tasks[index]? =
                  some { task with phase := .finished (.ok catalog.policy) })
                (fun _ _ _ hinv hstep => Cluster.step_ended hstep hinv rfl) hpast hstart
              rw [htask, Option.some.injEq] at hended
              rw [hended] at hphase
              cases hphase

/-- The repository before and after a handler was opened on it. -/
def Reopened (bootstrap : Option IamPolicyInfo) (settled reached : Cluster) : Prop :=
  (reached.handlers.length = settled.handlers.length ∧ reached.stored = settled.stored) ∨
    (settled.handlers.length < reached.handlers.length ∧
      reached.stored = settled.stored.reopened bootstrap)

theorem Reopened.step {bootstrap : Option IamPolicyInfo} {settled reached next : Cluster}
    {event : Event} (h : Reopened bootstrap settled reached)
    (hbootstrap : event.Bootstraps bootstrap) (hleaves : LeavesStored reached event)
    (hstep : reached.step event = some next) : Reopened bootstrap settled next := by
  cases hopens : event.opens with
  | false =>
      rw [Reopened, Cluster.step_handlers_length hstep hopens, hleaves next hstep hopens]
      exact h
  | true =>
      cases Cluster.step_steps hstep with
      | request => cases hopens
      | advance => cases hopens
      | drop => cases hopens
      | settle => cases hopens
      | failedOpen => exact h
      | openHandler policy answer catalog hcontent =>
          have hsame : policy = bootstrap := hbootstrap
          subst hsame
          right
          simp only [Cluster.withHandler, List.length_append, List.length_singleton]
          rw [hcontent]
          cases h with
          | inl h =>
              rw [h.2]
              exact ⟨by omega, rfl⟩
          | inr h =>
              rw [h.2, Content.reopened_reopened]
              exact ⟨by omega, rfl⟩

theorem Cluster.StoreInv.stored_eq {cluster : Cluster} (inv : cluster.StoreInv)
    (hsettled : cluster.Settled) {handler : Handler}
    (hnewest : cluster.handlers.getLast? = some handler) :
    cluster.stored = handler.published.content := by
  have hnonempty : cluster.handlers ≠ [] := by
    intro h
    simp [h] at hnewest
  have hpos := List.length_pos_of_ne_nil hnonempty
  rw [List.getLast?_eq_getElem?] at hnewest
  exact inv.published hsettled _ handler hnewest (by omega)

/-- With one process at a time, restarted any number of times with the same bootstrap
policy: a grant that the last successful mutation left out is published again exactly when
the mutation left nothing and the bootstrap policy has the grant. -/
theorem revoked_grant_restored_iff (stored : Content) (bootstrap : Option IamPolicyInfo)
    (earlier later : List Event)
    (hsole : Along Cluster.step SoleWriter (Cluster.start stored) (earlier ++ later))
    (hkeeps : Along Cluster.step KeepsCommits (Cluster.start stored) (earlier ++ later))
    (hbootstrap : ∀ event ∈ later, event.Bootstraps bootstrap) (settled final : Cluster)
    (hearlier : Runs.run Cluster.step (Cluster.start stored) earlier = some settled)
    (hlater : Runs.run Cluster.step settled later = some final)
    (hsettled : settled.Settled) (hfinal : final.Settled)
    (hlast : ∀ (index : Nat) (task : Task), final.tasks[index]? = some task →
      task.phase.succeeded = true → settled.tasks[index]? = some task)
    (enforced reopened : Handler) (henforced : settled.handlers.getLast? = some enforced)
    (hreopened : final.handlers.getLast? = some reopened)
    (hrestarted : settled.handlers.length < final.handlers.length)
    (grant : IamRoleBindingInfo) (hrevoked : grant ∉ enforced.published.policy.roleBindings) :
    grant ∈ reopened.published.policy.roleBindings ↔
      enforced.published.content.isEmpty = true ∧
        ∃ policy, bootstrap = some policy ∧ grant ∈ policy.roleBindings := by
  have hinv := soleWriter_inv hsole.append.1 hkeeps.append.1 hearlier
  have hrun : Runs.run Cluster.step (Cluster.start stored) (earlier ++ later) = some final :=
    run_append_eq_some.mpr ⟨settled, hearlier, hlater⟩
  have hinv' := soleWriter_inv hsole hkeeps hrun
  have hstored := hinv.2.stored_eq hsettled henforced
  have hstored' := hinv'.2.stored_eq hfinal hreopened
  have hleaves := leavesStored_of_last (hkeeps.append.2 settled hearlier) hlater hfinal hlast
  have hreached : Reopened bootstrap settled final :=
    run_invariant (Reopened bootstrap settled)
      (fun _ _ _ hinv hcond hstep => hinv.step hcond.1 hcond.2 hstep)
      ((along_of_forall hbootstrap settled).and hleaves) hlater (.inl ⟨rfl, rfl⟩)
  have hcontent : reopened.published.content =
      enforced.published.content.reopened bootstrap := by
    cases hreached with
    | inl h => omega
    | inr h => rw [← hstored', h.2, hstored]
  change grant ∉ enforced.published.content.roleBindings at hrevoked
  change grant ∈ reopened.published.content.roleBindings ↔ _
  rw [hcontent]
  exact Content.mem_reopened hrevoked

end

namespace Payroll

def office : IamRoleBindingInfo :=
  { id := "office", principalId := "alice", roleId := "reader", effect := .allow,
    resourceUrn := "urn:iam:*:payroll:*:default:payroll/**",
    conditions := { sourceIp := some { inCidr := ["10.0.0.0/8"] } } }

/-- A process with a bootstrap policy runs one mutation at the first revision. -/
def mutated (mutation : Mutation) : List Event :=
  [.openHandler (some policy) (.ok ()), .request 0 1 mutation, .advance 0 .ready,
    .advance 0 .ready, .advance 0 (.stored (.ok ()))] ++ published 0

def restart : List Event := [.openHandler (some policy) (.ok ())]

/-- The catalog of the handler in use has the grant. -/
def officeEnforced (cluster : Cluster) : Option Bool :=
  cluster.handlers.getLast?.map fun handler =>
    decide (office ∈ handler.published.policy.roleBindings)

/-- Revoking one of the grants of the bootstrap policy. -/
theorem office_stays_revoked :
    ∃ settled final reopened,
      Runs.run Cluster.step (Cluster.start policy.content)
        (mutated (.deleteRoleBinding "office")) = some settled ∧
      Runs.run Cluster.step settled restart = some final ∧
      final.handlers.getLast? = some reopened ∧
      office ∉ reopened.published.policy.roleBindings := by
  have hsettled : ∃ settled, Runs.run Cluster.step (Cluster.start policy.content)
        (mutated (.deleteRoleBinding "office")) = some settled ∧
      settled.Settled ∧ officeEnforced settled = some false ∧
      settled.handlers.getLast?.map (·.published.content.isEmpty) = some false ∧
      settled.handlers.length = 1 ∧
      (Runs.run Cluster.step settled restart).any (fun final =>
        decide (final.Settled ∧ final.handlers.length = 2)) = true :=
    exists_run_of_any (by decide +kernel)
  obtain ⟨settled, hearlier, hsettled, hrevoked, hkept, hone, hfinal⟩ := hsettled
  obtain ⟨final, hlater, hfinal, htwo⟩ := exists_run_of_any hfinal
  obtain ⟨enforced, henforced, hnot⟩ := Option.map_eq_some_iff.mp hrevoked
  rw [henforced, Option.map_some, Option.some.injEq] at hkept
  obtain ⟨reopened, hreopened⟩ : ∃ reopened, final.handlers.getLast? = some reopened := by
    rw [List.getLast?_eq_getElem?, htwo]
    exact ⟨_, List.getElem?_eq_getElem (by omega)⟩
  obtain ⟨next, hopen, hend⟩ := run_cons_eq_some.mp hlater
  cases hend
  have hrestored := revoked_grant_restored_iff policy.content (some policy)
    (mutated (.deleteRoleBinding "office")) restart (by decide +kernel) (by decide +kernel)
    (by simp [restart, Event.Bootstraps]) settled final hearlier hlater hsettled hfinal
    (by intro index task htask _; rw [← tasks_of_open hopen]; exact htask) enforced reopened
    henforced hreopened (by omega) office (of_decide_eq_false hnot)
  refine ⟨settled, final, reopened, hearlier, hlater, hreopened, ?_⟩
  rw [hrestored, hkept]
  simp

/-- The last mutation clears the catalog, and the restart brings the grant back. -/
theorem office_restored_after_reset :
    ∃ settled final,
      Runs.run Cluster.step (Cluster.start ⟨[], [], []⟩) (mutated .reset) = some settled ∧
      settled.Idle ∧ settled.tasks.map (·.phase.succeeded) = [true] ∧
      officeEnforced settled = some false ∧
      Runs.run Cluster.step settled restart = some final ∧
      final.handlers.length = 2 ∧ officeEnforced final = some true := by
  have hsettled : ∃ settled,
      Runs.run Cluster.step (Cluster.start ⟨[], [], []⟩) (mutated .reset) = some settled ∧
      settled.Idle ∧ settled.tasks.map (·.phase.succeeded) = [true] ∧
      officeEnforced settled = some false ∧
      (Runs.run Cluster.step settled restart).any (fun final =>
        decide (final.handlers.length = 2 ∧ officeEnforced final = some true)) = true :=
    exists_run_of_any (by decide +kernel)
  obtain ⟨settled, hearlier, hidle, hsucceeded, hrevoked, hfinal⟩ := hsettled
  obtain ⟨final, hlater, htwo, hrestored⟩ := exists_run_of_any hfinal
  exact ⟨settled, final, hearlier, hidle, hsucceeded, hrevoked, hlater, htwo, hrestored⟩

end Payroll

end Authguard
