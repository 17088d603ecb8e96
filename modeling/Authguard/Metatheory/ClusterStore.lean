import Authguard.Metatheory.ClusterLocks
import Authguard.Metatheory.PolicyDecision

/-!
The catalog in the repository and the catalog being enforced. They move together
when one process writes, and no mutation disappears between its commit and its
publication: at any moment the repository holds the catalog the newest handler
publishes, or the one a committed task is about to install.
-/

namespace Authguard
open Result Runs

section
variable [Ipnet]

/-- No mutation is under way. -/
def Cluster.Idle (cluster : Cluster) : Prop :=
  ∀ task ∈ cluster.tasks, task.phase.inProgress = false

instance (cluster : Cluster) : Decidable cluster.Idle :=
  inferInstanceAs (Decidable (∀ task ∈ cluster.tasks, task.phase.inProgress = false))

/-- No mutation is between its commit and its publication. -/
def Cluster.Settled (cluster : Cluster) : Prop :=
  ∀ task ∈ cluster.tasks, task.phase.isCommitted = false

instance (cluster : Cluster) : Decidable cluster.Settled :=
  inferInstanceAs (Decidable (∀ task ∈ cluster.tasks, task.phase.isCommitted = false))

/-- One process at a time: mutations go to the handler opened last, and another one is
opened only when none is under way. -/
def SoleWriter (cluster : Cluster) : Event → Prop
  | .request handler _ _ => handler + 1 = cluster.handlers.length
  | .openHandler _ _ => cluster.Idle
  | _ => True

instance (cluster : Cluster) : (event : Event) → Decidable (SoleWriter cluster event)
  | .request handler _ _ => inferInstanceAs (Decidable (handler + 1 = cluster.handlers.length))
  | .openHandler _ _ => inferInstanceAs (Decidable cluster.Idle)
  | .advance _ _ | .drop _ | .settle _ _ => inferInstanceAs (Decidable True)

/-- No task is dropped between its commit and its publication, and no commit whose task
was dropped takes effect. -/
def KeepsCommits (cluster : Cluster) : Event → Prop
  | .drop index => ∀ task ∈ cluster.tasks[index]?, task.phase.isCommitted = false
  | .settle _ applied => applied = false
  | _ => True

instance (cluster : Cluster) : (event : Event) → Decidable (KeepsCommits cluster event)
  | .drop index => inferInstanceAs
      (Decidable (∀ task ∈ cluster.tasks[index]?, task.phase.isCommitted = false))
  | .settle _ applied => inferInstanceAs (Decidable (applied = false))
  | .request _ _ _ | .advance _ _ | .openHandler _ _ => inferInstanceAs (Decidable True)

structure Cluster.StoreInv (cluster : Cluster) : Prop where
  newest : ∀ (index : Nat) (task : Task), cluster.tasks[index]? = some task →
    task.phase.inProgress = true → task.handler + 1 = cluster.handlers.length
  committed : ∀ (index : Nat) (task : Task) (catalog : Catalog),
    cluster.tasks[index]? = some task → task.phase = .committed catalog →
    cluster.stored = catalog.content
  published : cluster.Settled → ∀ (number : Nat) (handler : Handler),
    cluster.handlers[number]? = some handler → number + 1 = cluster.handlers.length →
    cluster.stored = handler.published.content

theorem Phase.isCommitted_of_free {phase : Phase} (h : phase.holdsLock = false) :
    phase.isCommitted = false := by
  cases phase <;> first | rfl | cases h

theorem Phase.isCommitted_of_idle {phase : Phase} (h : phase.inProgress = false) :
    phase.isCommitted = false := by
  cases phase <;> first | rfl | cases h

theorem Phase.inProgress_of_holdsLock {phase : Phase} (h : phase.holdsLock = true) :
    phase.inProgress = true := by
  cases phase <;> first | rfl | cases h

theorem Moves.inProgress {task : Task} {handler : Handler} {stored stored' : Content}
    {phase : Phase} {published : Catalog}
    (h : Moves task handler stored phase published stored') : task.phase.inProgress = true := by
  cases h with
  | wait phase _ hprogress => exact hprogress
  | acquire phase hphase => rw [hphase]; rfl
  | hold phase hlocked => exact Phase.inProgress_of_holdsLock hlocked
  | fail error hlocked => exact Phase.inProgress_of_holdsLock hlocked
  | commit catalog hphase => rw [hphase]; rfl
  | install catalog hphase => rw [hphase]; rfl

section
variable {cluster : Cluster} {index : Nat} {task : Task} {handler : Handler} {phase : Phase}
  (locks : cluster.LockInv) (inv : cluster.StoreInv)
  (htask : cluster.tasks[index]? = some task)
  (hhandler : cluster.handlers[task.handler]? = some handler)
  (hprogress : task.phase.inProgress = true)

include locks inv htask in
/-- Two tasks that hold a lock hold the same one. -/
theorem Cluster.StoreInv.alone (hlocked : task.phase.holdsLock = true) {other : Nat}
    {task' : Task} (hne : other ≠ index) (htask' : cluster.tasks[other]? = some task') :
    task'.phase.holdsLock = false := by
  rw [Bool.eq_false_iff]
  intro hlocked'
  have hnewest := inv.newest index task htask (Phase.inProgress_of_holdsLock hlocked)
  have hnewest' := inv.newest other task' htask' (Phase.inProgress_of_holdsLock hlocked')
  exact hne (locks.exclusive htask' htask (by omega) hlocked' hlocked)

include inv htask hprogress in
theorem resume_newest {published : Catalog} (other : Nat) (task' : Task)
    (htask' : (cluster.resume index task handler phase published).tasks[other]? = some task')
    (hprogress' : task'.phase.inProgress = true) :
    task'.handler + 1 =
      (cluster.resume index task handler phase published).handlers.length := by
  have hlength : (cluster.resume index task handler phase published).handlers.length =
      cluster.handlers.length := List.length_set
  rw [resume_tasks htask] at htask'
  rw [hlength]
  by_cases hother : other = index
  · rw [if_pos hother, Option.some.injEq] at htask'
    rw [← htask']
    exact inv.newest index task htask hprogress
  · rw [if_neg hother] at htask'
    exact inv.newest other task' htask' hprogress'

include inv htask hhandler hprogress in
/-- A step that neither commits nor publishes. -/
theorem Cluster.StoreInv.quiet (hbefore : task.phase.isCommitted = false)
    (hafter : phase.isCommitted = false) (orphans : List Content) :
    Cluster.StoreInv
      { cluster.resume index task handler phase handler.published with orphans } where
  newest := resume_newest inv htask hprogress
  committed other task' catalog htask' hphase := by
    change (cluster.resume index task handler phase handler.published).tasks[other]? = _ at htask'
    rw [resume_tasks htask] at htask'
    by_cases hother : other = index
    · rw [if_pos hother, Option.some.injEq] at htask'
      subst htask'
      change phase = .committed catalog at hphase
      rw [hphase] at hafter
      cases hafter
    · rw [if_neg hother] at htask'
      exact inv.committed other task' catalog htask' hphase
  published hsettled number handler' hhandler' hnumber := by
    change (cluster.resume index task handler phase handler.published).handlers[number]? = _
      at hhandler'
    rw [resume_handlers hhandler] at hhandler'
    have hsettled' : cluster.Settled := by
      intro task' hmem
      obtain ⟨other, htask'⟩ := List.mem_iff_getElem?.mp hmem
      by_cases hother : other = index
      · rw [hother, htask, Option.some.injEq] at htask'
        rw [← htask']
        exact hbefore
      · apply hsettled task'
        apply List.mem_of_getElem? (i := other)
        change (cluster.resume index task handler phase handler.published).tasks[other]? = _
        rw [resume_tasks htask, if_neg hother]
        exact htask'
    have hnumber' : number + 1 = cluster.handlers.length := by
      rw [hnumber]
      exact List.length_set
    by_cases hsame : number = task.handler
    · rw [if_pos hsame, Option.some.injEq] at hhandler'
      rw [← hhandler']
      exact inv.published hsettled' task.handler handler hhandler (by omega)
    · rw [if_neg hsame] at hhandler'
      exact inv.published hsettled' number handler' hhandler' hnumber'

include locks inv htask in
theorem Cluster.StoreInv.commit {catalog : Catalog} (hphase : task.phase = .committing catalog) :
    Cluster.StoreInv
      { cluster.resume index task handler (.committed catalog) handler.published with
        stored := catalog.content } where
  newest := resume_newest inv htask (by rw [hphase]; rfl)
  committed other task' catalog' htask' hphase' := by
    change (cluster.resume index task handler _ handler.published).tasks[other]? = _ at htask'
    rw [resume_tasks htask] at htask'
    by_cases hother : other = index
    · rw [if_pos hother, Option.some.injEq] at htask'
      subst htask'
      cases hphase'
      rfl
    · rw [if_neg hother] at htask'
      have hfree := inv.alone locks htask (by rw [hphase]; rfl) hother htask'
      rw [hphase'] at hfree
      cases hfree
  published hsettled number handler' hhandler' hnumber := by
    have hcommitted := hsettled { task with phase := .committed catalog } (by
      apply List.mem_of_getElem? (i := index)
      change (cluster.resume index task handler _ handler.published).tasks[index]? = _
      rw [resume_tasks htask, if_pos rfl])
    cases hcommitted

include inv htask hhandler in
theorem Cluster.StoreInv.install {catalog : Catalog} (hphase : task.phase = .committed catalog)
    (policy : IamPolicyInfo) :
    (cluster.resume index task handler (.finished (.ok policy)) catalog).StoreInv where
  newest := resume_newest inv htask (by rw [hphase]; rfl)
  committed other task' catalog' htask' hphase' := by
    rw [resume_tasks htask] at htask'
    by_cases hother : other = index
    · rw [if_pos hother, Option.some.injEq] at htask'
      subst htask'
      cases hphase'
    · rw [if_neg hother] at htask'
      exact inv.committed other task' catalog' htask' hphase'
  published _ number handler' hhandler' hnumber := by
    rw [resume_handlers hhandler] at hhandler'
    have hnewest := inv.newest index task htask (by rw [hphase]; rfl)
    have hnumber' : number + 1 = cluster.handlers.length := by
      rw [hnumber]
      exact List.length_set
    rw [if_pos (by omega), Option.some.injEq] at hhandler'
    rw [← hhandler']
    exact inv.committed index task catalog htask hphase

end

theorem Cluster.StoreInv.request {cluster : Cluster} (inv : cluster.StoreInv) {handler : Nat}
    (hhandler : handler + 1 = cluster.handlers.length) (expectedRevision : Nat)
    (mutation : Mutation) :
    Cluster.StoreInv { cluster with
      tasks := cluster.tasks ++ [⟨handler, expectedRevision, mutation, .entered⟩] } where
  newest index task htask hprogress := by
    cases getElem?_append_singleton htask with
    | inl h => exact inv.newest index task h hprogress
    | inr h => rw [h.2]; exact hhandler
  committed index task catalog htask hphase := by
    cases getElem?_append_singleton htask with
    | inl h => exact inv.committed index task catalog h hphase
    | inr h => rw [h.2] at hphase; cases hphase
  published hsettled number holder hholder hnumber := by
    apply inv.published ?_ number holder hholder hnumber
    intro task hmem
    exact hsettled task (List.mem_append_left _ hmem)

/-- Opening stores what it publishes. -/
theorem Cluster.StoreInv.withHandler {cluster : Cluster} (hidle : cluster.Idle)
    (catalog : Catalog) : (cluster.withHandler catalog).StoreInv where
  newest index task htask hprogress := by
    have hfinished := hidle task (List.mem_of_getElem? htask)
    rw [hprogress] at hfinished
    cases hfinished
  committed index task prepared htask hphase := by
    have hfinished := hidle task (List.mem_of_getElem? htask)
    rw [hphase] at hfinished
    cases hfinished
  published _ number handler hhandler hnumber := by
    have hlength : (cluster.withHandler catalog).handlers.length =
        cluster.handlers.length + 1 := by simp [Cluster.withHandler]
    cases getElem?_append_singleton hhandler with
    | inl h =>
        have hlt := (List.getElem?_eq_some_iff.mp h).1
        omega
    | inr h => rw [h.2]; rfl

theorem Cluster.StoreInv.step {cluster next : Cluster} {event : Event} (locks : cluster.LockInv)
    (inv : cluster.StoreInv) (hsole : SoleWriter cluster event)
    (hkeeps : KeepsCommits cluster event) (h : cluster.step event = some next) :
    next.StoreInv := by
  cases Cluster.step_steps h with
  | request handler expectedRevision mutation _ =>
      exact inv.request hsole expectedRevision mutation
  | advance index reply task handler phase published stored htask hhandler hmoves =>
      have hprogress := hmoves.inProgress
      cases hmoves with
      | wait phase hfree _ hwaits =>
          exact inv.quiet htask hhandler hprogress (Phase.isCommitted_of_free hfree)
            (Phase.isCommitted_of_free hwaits) _
      | acquire phase hphase _ _ hprepares =>
          exact inv.quiet htask hhandler hprogress (by rw [hphase]; rfl)
            hprepares.notCommitted _
      | hold phase _ hbefore _ hafter =>
          exact inv.quiet htask hhandler hprogress hbefore hafter _
      | fail error _ hbefore => exact inv.quiet htask hhandler hprogress hbefore rfl _
      | commit catalog hphase => exact inv.commit locks htask hphase
      | install catalog hphase => exact inv.install htask hhandler hphase _
  | drop index task handler orphans htask hhandler hprogress =>
      exact inv.quiet htask hhandler hprogress (hkeeps task htask) rfl orphans
  | settle index applied content orphans =>
      change applied = false at hkeeps
      subst hkeeps
      exact ⟨inv.newest, inv.committed, inv.published⟩
  | failedOpen => exact inv
  | openHandler bootstrap stored catalog hcontent =>
      exact Cluster.StoreInv.withHandler hsole catalog

theorem Cluster.storeInv_start (stored : Content) : (Cluster.start stored).StoreInv := by
  refine ⟨?_, ?_, ?_⟩ <;> intros <;> simp_all [Cluster.start]

/-! A task between two states. -/

/-- How a task of the second state comes out of the first one. -/
inductive TaskStep (cluster : Cluster) (event : Event) (next : Cluster) (index : Nat) :
    Task → Prop
  | same (task : Task) : cluster.tasks[index]? = some task →
      TaskStep cluster event next index task
  | requested (task : Task) : cluster.tasks[index]? = none → task.phase = .entered →
      TaskStep cluster event next index task
  | advanced (reply : Reply) (task : Task) (handler : Handler) (phase : Phase)
      (published : Catalog) (stored : Content) : event = .advance index reply →
      cluster.tasks[index]? = some task → cluster.handlers[task.handler]? = some handler →
      Moves task handler cluster.stored phase published stored →
      next = { cluster.resume index task handler phase published with stored } →
      TaskStep cluster event next index { task with phase }
  | dropped (task : Task) : event = .drop index → cluster.tasks[index]? = some task →
      task.phase.inProgress = true →
      TaskStep cluster event next index { task with phase := .cancelled }

theorem Cluster.step_task {cluster next : Cluster} {event : Event} {index : Nat} {task : Task}
    (h : cluster.step event = some next) (htask : next.tasks[index]? = some task) :
    TaskStep cluster event next index task := by
  cases Cluster.step_steps h with
  | request handler expectedRevision mutation _ =>
      cases getElem?_append_singleton htask with
      | inl hsame => exact .same task hsame
      | inr hnew =>
          obtain ⟨hindex, htask⟩ := hnew
          apply TaskStep.requested
          · rw [hindex, List.getElem?_length]
          · rw [htask]
  | advance number reply before handler phase published stored hbefore hhandler hmoves =>
      change (cluster.resume number before handler phase published).tasks[index]? = _ at htask
      rw [resume_tasks hbefore] at htask
      by_cases hindex : index = number
      · rw [if_pos hindex, Option.some.injEq] at htask
        subst hindex htask
        exact .advanced reply before handler phase published stored rfl hbefore hhandler hmoves
          rfl
      · rw [if_neg hindex] at htask
        exact .same task htask
  | drop number before handler orphans hbefore hhandler hprogress =>
      change (cluster.resume number before handler _ handler.published).tasks[index]? = _ at htask
      rw [resume_tasks hbefore] at htask
      by_cases hindex : index = number
      · rw [if_pos hindex, Option.some.injEq] at htask
        subst hindex htask
        exact .dropped before rfl hbefore hprogress
      · rw [if_neg hindex] at htask
        exact .same task htask
  | settle => exact .same task htask
  | failedOpen => exact .same task htask
  | openHandler => exact .same task htask

theorem Cluster.step_tasks_length {cluster next : Cluster} {event : Event}
    (h : cluster.step event = some next) : cluster.tasks.length ≤ next.tasks.length := by
  cases Cluster.step_steps h with
  | request => simp
  | advance => simp [Cluster.resume]
  | drop => simp [Cluster.resume]
  | settle => exact le_refl _
  | failedOpen => exact le_refl _
  | openHandler => exact le_refl _

theorem Cluster.step_task_forward {cluster next : Cluster} {event : Event} {index : Nat}
    {task : Task} (h : cluster.step event = some next)
    (htask : cluster.tasks[index]? = some task) :
    ∃ task', next.tasks[index]? = some task' ∧ TaskStep cluster event next index task' := by
  have hlt := (List.getElem?_eq_some_iff.mp htask).1
  have hlength := Cluster.step_tasks_length h
  have htask' := List.getElem?_eq_getElem (Nat.lt_of_lt_of_le hlt hlength)
  exact ⟨_, htask', Cluster.step_task h htask'⟩

/-- A task that ended stays as it is. -/
theorem Cluster.step_ended {cluster next : Cluster} {event : Event} {index : Nat} {task : Task}
    (h : cluster.step event = some next) (htask : cluster.tasks[index]? = some task)
    (hended : task.phase.inProgress = false) : next.tasks[index]? = some task := by
  obtain ⟨task', htask', hstep⟩ := Cluster.step_task_forward h htask
  rw [htask']
  cases hstep with
  | same _ hsame => rw [← hsame, htask]
  | requested _ hnone => rw [htask] at hnone; cases hnone
  | advanced _ before _ _ _ _ _ hbefore _ hmoves =>
      rw [htask, Option.some.injEq] at hbefore
      have hprogress := hmoves.inProgress
      rw [← hbefore, hended] at hprogress
      cases hprogress
  | dropped before _ hbefore hprogress =>
      rw [htask, Option.some.injEq] at hbefore
      rw [← hbefore, hended] at hprogress
      cases hprogress

/-- The task has committed the catalog, and publishes it before it ends. -/
def Phase.Publishes (phase : Phase) (catalog : Catalog) : Prop :=
  phase = .committed catalog ∨ phase = .finished (.ok catalog.policy)

theorem Moves.publishes {task : Task} {handler : Handler} {stored stored' : Content}
    {phase : Phase} {published catalog : Catalog}
    (h : Moves task handler stored phase published stored')
    (hpublishes : task.phase.Publishes catalog) : phase.Publishes catalog := by
  cases hpublishes with
  | inr hfinished =>
      have hprogress := h.inProgress
      rw [hfinished] at hprogress
      cases hprogress
  | inl hphase =>
      cases h with
      | wait phase hfree => rw [hphase] at hfree; cases hfree
      | acquire phase hwaiting => rw [hphase] at hwaiting; cases hwaiting
      | hold phase _ hbefore => rw [hphase] at hbefore; cases hbefore
      | fail error _ hbefore => rw [hphase] at hbefore; cases hbefore
      | commit prepared hcommitting => rw [hphase] at hcommitting; cases hcommitting
      | install prepared hcommitted =>
          rw [hphase] at hcommitted
          cases hcommitted
          exact .inr rfl

def Cluster.Publishes (cluster : Cluster) (index : Nat) (task : Task) (catalog : Catalog) :
    Prop :=
  ∃ phase, cluster.tasks[index]? = some { task with phase } ∧ phase.Publishes catalog

theorem Cluster.Publishes.step {cluster next : Cluster} {event : Event} {index : Nat}
    {task : Task} {catalog : Catalog} (hpublishes : cluster.Publishes index task catalog)
    (hkeeps : KeepsCommits cluster event) (h : cluster.step event = some next) :
    next.Publishes index task catalog := by
  obtain ⟨phase, htask, hphase⟩ := hpublishes
  obtain ⟨task', htask', hstep⟩ := Cluster.step_task_forward h htask
  rw [Cluster.Publishes, htask']
  cases hstep with
  | same _ hsame =>
      rw [htask, Option.some.injEq] at hsame
      exact ⟨phase, by rw [hsame], hphase⟩
  | requested _ hnone => rw [htask] at hnone; cases hnone
  | advanced _ before _ reached _ _ _ hbefore _ hmoves =>
      rw [htask, Option.some.injEq] at hbefore
      subst hbefore
      exact ⟨reached, rfl, hmoves.publishes hphase⟩
  | dropped before hevent hbefore hprogress =>
      subst hevent
      have hnot := hkeeps before hbefore
      rw [htask, Option.some.injEq] at hbefore
      subst hbefore
      cases hphase with
      | inl hcommitted => rw [hcommitted] at hnot; cases hnot
      | inr hfinished => rw [hfinished] at hprogress; cases hprogress

/-- A mutation that committed is published before its task ends. -/
theorem Cluster.Publishes.run {cluster final : Cluster} {events : List Event} {index : Nat}
    {task : Task} {catalog : Catalog} (hpublishes : cluster.Publishes index task catalog)
    (hkeeps : Along Cluster.step KeepsCommits cluster events)
    (hrun : Runs.run Cluster.step cluster events = some final) :
    final.Publishes index task catalog :=
  run_invariant (Cluster.Publishes · index task catalog)
    (fun _ _ _ hinv hcond hstep => hinv.step hcond hstep) hkeeps hrun hpublishes

/-! One handler. -/

def Cluster.published (cluster : Cluster) : List Catalog := cluster.handlers.map (·.published)

def Event.opens : Event → Bool
  | .openHandler _ _ => true
  | _ => false

theorem Cluster.step_handlers_length {cluster next : Cluster} {event : Event}
    (h : cluster.step event = some next) (hopens : event.opens = false) :
    next.handlers.length = cluster.handlers.length := by
  cases Cluster.step_steps h with
  | request => rfl
  | advance => exact List.length_set
  | drop => exact List.length_set
  | settle => rfl
  | failedOpen => rfl
  | openHandler => cases hopens

/-- What holds of a repository with one handler on it. -/
structure Cluster.Single (cluster : Cluster) : Prop where
  locks : cluster.LockInv
  store : cluster.StoreInv
  one : cluster.handlers.length = 1

theorem Cluster.Single.step {cluster next : Cluster} {event : Event} (inv : cluster.Single)
    (hopens : event.opens = false) (hkeeps : KeepsCommits cluster event)
    (h : cluster.step event = some next) : next.Single := by
  have hsole : SoleWriter cluster event := by
    cases Cluster.step_steps h with
    | request handler _ _ hhandler =>
        have hone := inv.one
        change handler + 1 = cluster.handlers.length
        omega
    | advance => trivial
    | drop => trivial
    | settle => trivial
    | failedOpen => cases hopens
    | openHandler => cases hopens
  exact ⟨inv.locks.step h, inv.store.step inv.locks hsole hkeeps h,
    (Cluster.step_handlers_length h hopens).trans inv.one⟩

theorem Cluster.single_of_open {stored : Content} {bootstrap : Option IamPolicyInfo}
    {answer : Except String Unit} {first : Cluster} {initial : Catalog}
    (hopen : (Cluster.start stored).step (.openHandler bootstrap answer) = some first)
    (hinitial : first.published = [initial]) : first.Single where
  locks := (Cluster.lockInv_start stored).step hopen
  store := (Cluster.storeInv_start stored).step (Cluster.lockInv_start stored)
    (by intro task htask; cases htask) (by exact trivial) hopen
  one := by
    have hlength := congrArg List.length hinitial
    simpa [Cluster.published] using hlength

theorem Cluster.Single.run {cluster final : Cluster} {events : List Event}
    (inv : cluster.Single) (hsingle : ∀ event ∈ events, event.opens = false)
    (hkeeps : Along Cluster.step KeepsCommits cluster events)
    (hrun : Runs.run Cluster.step cluster events = some final) : final.Single :=
  run_invariant Cluster.Single (fun _ _ _ hinv hcond hstep => hinv.step hcond.1 hcond.2 hstep)
    ((along_of_forall hsingle cluster).and hkeeps) hrun inv

theorem Cluster.Single.exists_published {cluster : Cluster} (inv : cluster.Single) :
    ∃ handler, cluster.handlers = [handler] ∧ cluster.published = [handler.published] := by
  obtain ⟨handler, hhandler⟩ := List.length_eq_one_iff.mp inv.one
  exact ⟨handler, hhandler, by rw [Cluster.published, hhandler]; rfl⟩

theorem Cluster.Single.stored_eq {cluster : Cluster} (inv : cluster.Single)
    {current : Catalog} (hcurrent : cluster.published = [current])
    (hsettled : cluster.Settled) : cluster.stored = current.content := by
  obtain ⟨handler, hhandler, hpublished⟩ := inv.exists_published
  rw [hpublished, List.singleton_inj] at hcurrent
  rw [← hcurrent]
  apply inv.store.published hsettled 0 handler
  · rw [hhandler]; rfl
  · rw [hhandler]; rfl

/-- However mutations of one handler interleave, fail and are dropped: if none is dropped
between its commit and its publication, and no commit of a dropped one takes effect, then
what is enforced is what is stored whenever no mutation is under way. -/
theorem enforced_eq_stored_of_keepsCommits (stored : Content) (bootstrap : Option IamPolicyInfo)
    (answer : Except String Unit) (first : Cluster) (initial : Catalog)
    (hopen : (Cluster.start stored).step (.openHandler bootstrap answer) = some first)
    (hinitial : first.published = [initial]) (events : List Event)
    (hsingle : ∀ event ∈ events, event.opens = false)
    (hkeeps : Along Cluster.step KeepsCommits first events) (final : Cluster)
    (hrun : Runs.run Cluster.step first events = some final)
    (hidle : final.Idle) :
    ∃ current, final.published = [current] ∧ final.stored = current.content := by
  have inv := (Cluster.single_of_open hopen hinitial).run hsingle hkeeps hrun
  obtain ⟨handler, -, hpublished⟩ := inv.exists_published
  refine ⟨handler.published, hpublished, inv.stored_eq hpublished ?_⟩
  intro task hmem
  exact Phase.isCommitted_of_idle (hidle task hmem)

end

namespace Payroll

/-- The grant of the first task is revoked, up to the answer to its COMMIT. -/
def revocation (task : Nat) : List Event :=
  [.request 0 1 (.deleteRoleBinding "office"), .advance task .ready, .advance task .ready,
    .advance task (.stored (.ok ()))]

/-- The request is dropped and its transaction rolled back; a second attempt succeeds. -/
def retriedRevocation : List Event :=
  revocation 0 ++ [.drop 0, .settle 0 false] ++ revocation 1 ++
    [.advance 1 (.stored (.ok ())), .advance 1 .ready]

def opened : Cluster := (Cluster.start policy.content).openHandler none (.ok ())

theorem opened_published : ∃ initial, opened.published = [initial] :=
  List.length_eq_one_iff.mp (by decide +kernel)

theorem retriedRevocation_enforced :
    ∃ final current, Runs.run Cluster.step opened retriedRevocation = some final ∧
      final.published = [current] ∧ final.stored = current.content := by
  obtain ⟨initial, hinitial⟩ := opened_published
  have hends : ∃ final, Runs.run Cluster.step opened retriedRevocation = some final ∧
      final.Idle := exists_run_of_any (by decide +kernel)
  obtain ⟨final, hrun, hidle⟩ := hends
  obtain ⟨current, hcurrent⟩ := enforced_eq_stored_of_keepsCommits policy.content none (.ok ())
    opened initial rfl hinitial retriedRevocation (by decide) (by decide +kernel) final hrun hidle
  exact ⟨final, current, hrun, hcurrent⟩

/-- The request is dropped while it awaits its COMMIT, which then takes effect. -/
theorem revoked_grant_enforced :
    ∃ initial final,
      (Cluster.start policy.content).step (.openHandler none (.ok ())) = some opened ∧
      opened.published = [initial] ∧
      Runs.run Cluster.step opened (revocation 0 ++ [.drop 0, .settle 0 true]) = some final ∧
      final.Idle ∧ final.orphans = [] ∧
      ¬∃ current, final.published = [current] ∧ final.stored = current.content := by
  obtain ⟨initial, hinitial⟩ := opened_published
  have hends : ∃ final,
      Runs.run Cluster.step opened (revocation 0 ++ [.drop 0, .settle 0 true]) = some final ∧
      final.Idle ∧ final.orphans = [] ∧ final.published.map (·.content) = [policy.content] ∧
      final.stored ≠ policy.content := exists_run_of_any (by decide +kernel)
  obtain ⟨final, hrun, hidle, horphans, henforced, hstored⟩ := hends
  refine ⟨initial, final, rfl, hinitial, hrun, hidle, horphans, ?_⟩
  rintro ⟨current, hcurrent, hsame⟩
  rw [hcurrent, List.map_singleton, List.singleton_inj] at henforced
  exact hstored (hsame.trans henforced)

end Payroll

end Authguard
