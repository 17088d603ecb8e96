import Authguard.Metatheory.ClusterStore

/-!
Whole runs, as the callers of the handlers see them. A mutation that succeeds has
one step in which it commits and a later one in which it is published, both at the
revision it expected; a mutation that fails has no such step. What a handler
publishes at a revision never changes, so the revision a caller read stands for the
catalog it read.
-/

namespace Authguard
open Result Runs

section
variable [Ipnet]

/-! What handlers publish. -/

theorem resume_published {cluster : Cluster} {index : Nat} {task : Task} {handler : Handler}
    {phase : Phase} {published : Catalog} :
    (cluster.resume index task handler phase published).published =
      cluster.published.set task.handler published :=
  List.map_set

theorem published_set_self {cluster : Cluster} {number : Nat} {handler : Handler}
    (hhandler : cluster.handlers[number]? = some handler) :
    cluster.published.set number handler.published = cluster.published := by
  have hsame : cluster.published[number]? = some handler.published := by
    simp [Cluster.published, hhandler]
  apply List.ext_getElem?
  intro other
  rw [getElem?_set_of_some hsame]
  split
  · rename_i hother
    rw [hother, hsame]
  · rfl

/-- Revisions grow, and one revision stands for one catalog. -/
structure Handler.Follows (handler earlier : Handler) : Prop where
  opened : handler.opened = earlier.opened
  grows : earlier.published.revision ≤ handler.published.revision
  same : earlier.published.revision = handler.published.revision →
    handler.published = earlier.published

theorem Handler.Follows.refl (handler : Handler) : handler.Follows handler :=
  ⟨rfl, le_refl _, fun _ => rfl⟩

theorem Handler.Follows.trans {first second third : Handler} (h : third.Follows second)
    (h' : second.Follows first) : third.Follows first := by
  refine ⟨h.opened.trans h'.opened, le_trans h'.grows h.grows, ?_⟩
  intro hsame
  have hgrows := h.grows
  have hgrows' := h'.grows
  rw [h.same (by omega)]
  exact h'.same (by omega)

theorem Resumable.follows {task : Task} {handler : Handler} {phase : Phase} {published : Catalog}
    (hresume : Resumable task handler phase published) (lock : Option Nat) :
    Handler.Follows { handler with published, lock } handler := by
  refine ⟨rfl, hresume.published_ge, ?_⟩
  intro hsame
  apply hresume.keeps
  rw [Bool.eq_false_iff]
  intro hsucceeded
  obtain ⟨-, hnext, hcurrent⟩ := hresume.installs hsucceeded
  change handler.published.revision = published.revision at hsame
  omega

theorem resume_follows {cluster : Cluster} {index : Nat} {task : Task} {handler : Handler}
    {phase : Phase} {published : Catalog} {number : Nat} {earlier : Handler}
    (hhandler : cluster.handlers[task.handler]? = some handler)
    (hresume : Resumable task handler phase published)
    (hearlier : cluster.handlers[number]? = some earlier) :
    ∃ later, (cluster.resume index task handler phase published).handlers[number]? = some later ∧
      later.Follows earlier := by
  rw [resume_handlers hhandler]
  by_cases hnumber : number = task.handler
  · rw [if_pos hnumber]
    rw [hnumber, hhandler, Option.some.injEq] at hearlier
    rw [← hearlier]
    exact ⟨_, rfl, hresume.follows _⟩
  · rw [if_neg hnumber]
    exact ⟨earlier, hearlier, .refl earlier⟩

theorem step_follows {cluster next : Cluster} {event : Event} {number : Nat} {earlier : Handler}
    (locks : cluster.LockInv) (h : cluster.step event = some next)
    (hearlier : cluster.handlers[number]? = some earlier) :
    ∃ later, next.handlers[number]? = some later ∧ later.Follows earlier := by
  cases Cluster.step_steps h with
  | advance index reply task handler phase published stored htask hhandler hmoves =>
      exact resume_follows hhandler (hmoves.resumable locks htask hhandler) hearlier
  | drop index task handler orphans htask hhandler hprogress =>
      exact resume_follows hhandler (resumable_cancelled hprogress) hearlier
  | openHandler bootstrap stored catalog _ =>
      refine ⟨earlier, ?_, .refl earlier⟩
      have hlt := (List.getElem?_eq_some_iff.mp hearlier).1
      rw [Cluster.withHandler, List.getElem?_append_left hlt]
      exact hearlier
  | request => exact ⟨earlier, hearlier, .refl earlier⟩
  | settle => exact ⟨earlier, hearlier, .refl earlier⟩
  | failedOpen => exact ⟨earlier, hearlier, .refl earlier⟩

theorem run_follows {cluster final : Cluster} {events : List Event} {number : Nat}
    {earlier : Handler} (locks : cluster.LockInv)
    (hrun : Runs.run Cluster.step cluster events = some final)
    (hearlier : cluster.handlers[number]? = some earlier) :
    ∃ later, final.handlers[number]? = some later ∧ later.Follows earlier := by
  have hinv := run_invariant_of_step
    (fun reached => reached.LockInv ∧
      ∃ later, reached.handlers[number]? = some later ∧ later.Follows earlier)
    (by
      rintro state event next ⟨hlocks, later, hlater, hfollows⟩ hstep
      obtain ⟨last, hlast, hlater⟩ := step_follows hlocks hstep hlater
      exact ⟨hlocks.step hstep, last, hlast, hlater.trans hfollows⟩)
    hrun ⟨locks, earlier, hearlier, .refl earlier⟩
  exact hinv.2

/-- A handler publishes at most one catalog at a revision, in a whole run. -/
theorem published_of_revision {cluster moment moment' : Cluster} {events past past' : List Event}
    {number : Nat} {handler handler' : Handler} (locks : cluster.LockInv)
    (hpast : past <+: events) (hpast' : past' <+: events)
    (hrun : Runs.run Cluster.step cluster past = some moment)
    (hrun' : Runs.run Cluster.step cluster past' = some moment')
    (hhandler : moment.handlers[number]? = some handler)
    (hhandler' : moment'.handlers[number]? = some handler')
    (hsame : handler.published.revision = handler'.published.revision) :
    handler.published = handler'.published := by
  cases List.prefix_or_prefix_of_prefix hpast hpast' with
  | inl hbefore =>
      obtain ⟨between, rfl⟩ := hbefore
      obtain ⟨reached, hreached, hrest⟩ := run_append_eq_some.mp hrun'
      rw [hrun, Option.some.injEq] at hreached
      subst hreached
      obtain ⟨later, hlater, hfollows⟩ := run_follows (locks.run hrun) hrest hhandler
      rw [hhandler', Option.some.injEq] at hlater
      subst hlater
      exact (hfollows.same hsame).symm
  | inr hbefore =>
      obtain ⟨between, rfl⟩ := hbefore
      obtain ⟨reached, hreached, hrest⟩ := run_append_eq_some.mp hrun
      rw [hrun', Option.some.injEq] at hreached
      subst hreached
      obtain ⟨later, hlater, hfollows⟩ := run_follows (locks.run hrun') hrest hhandler'
      rw [hhandler, Option.some.injEq] at hlater
      subst hlater
      exact hfollows.same hsame.symm

/-! The steps of a mutation that succeeds. -/

/-- What a task is about to write is its mutation applied to what its handler publishes,
at the revision it expected. -/
structure Task.Overwrites (task : Task) (published catalog : Catalog) : Prop where
  expected : published.revision = task.expectedRevision
  applies : task.Applies published catalog

theorem Cluster.LockInv.overwrites {cluster : Cluster} (locks : cluster.LockInv) {index : Nat}
    {task : Task} {handler : Handler} {catalog : Catalog}
    (htask : cluster.tasks[index]? = some task)
    (hhandler : cluster.handlers[task.handler]? = some handler)
    (hcatalog : task.phase.catalog? = some catalog) : task.Overwrites handler.published catalog := by
  have hlocked : task.phase.holdsLock = true := by
    cases hphase : task.phase <;> rw [hphase] at hcatalog <;> first | rfl | cases hcatalog
  have hholds := locks.holder index task handler htask hhandler hlocked
  exact ⟨hholds.current.symm, hholds.replacement catalog hcatalog⟩

/-- The mutation of the task reached the repository. -/
def Phase.isDurable (phase : Phase) : Bool := phase.isCommitted || phase.succeeded

theorem Moves.commits {task : Task} {handler : Handler} {stored stored' : Content}
    {phase : Phase} {published : Catalog}
    (h : Moves task handler stored phase published stored')
    (hbefore : task.phase.isDurable = false) (hafter : phase.isDurable = true) :
    ∃ catalog, task.phase = .committing catalog ∧ phase = .committed catalog ∧
      stored' = catalog.content := by
  have hdurable : phase.isCommitted = true ∨ phase.succeeded = true := by
    simpa [Phase.isDurable] using hafter
  cases h with
  | wait phase _ _ hwaits hnot =>
      simp [Phase.isCommitted_of_free hwaits, hnot] at hdurable
  | acquire phase _ _ _ hprepares =>
      simp [hprepares.notCommitted, Phase.succeeded_of_holdsLock hprepares.holdsLock] at hdurable
  | hold phase _ _ hlocks hnot =>
      simp [hnot, Phase.succeeded_of_holdsLock hlocks] at hdurable
  | fail => cases hafter
  | commit catalog hphase => exact ⟨catalog, hphase, rfl, rfl⟩
  | install catalog hphase => rw [hphase] at hbefore; cases hbefore

theorem Moves.installs {task : Task} {handler : Handler} {stored stored' : Content}
    {phase : Phase} {published : Catalog}
    (h : Moves task handler stored phase published stored') (hafter : phase.succeeded = true) :
    task.phase = .committed published ∧ phase = .finished (.ok published.policy) ∧
      stored' = stored := by
  cases h with
  | wait phase _ _ _ hnot => rw [hnot] at hafter; cases hafter
  | acquire phase _ _ _ hprepares =>
      rw [Phase.succeeded_of_holdsLock hprepares.holdsLock] at hafter
      cases hafter
  | hold phase _ _ hlocks =>
      rw [Phase.succeeded_of_holdsLock hlocks] at hafter
      cases hafter
  | fail => cases hafter
  | commit => cases hafter
  | install catalog hphase => exact ⟨hphase, rfl, rfl⟩

/-- The step in which a mutation reaches the repository. -/
structure CommitStep (cluster : Cluster) (index : Nat) (task : Task) (catalog : Catalog)
    (event : Event) (next : Cluster) : Prop where
  event_eq : ∃ reply, event = .advance index reply
  before : cluster.tasks[index]? = some { task with phase := .committing catalog }
  after : next.tasks[index]? = some { task with phase := .committed catalog }
  stored : next.stored = catalog.content

/-- The step in which a mutation is published. -/
structure InstallStep (cluster : Cluster) (index : Nat) (task : Task) (catalog : Catalog)
    (event : Event) (next : Cluster) : Prop where
  event_eq : ∃ reply, event = .advance index reply
  before : cluster.tasks[index]? = some { task with phase := .committed catalog }
  after : next.tasks[index]? = some { task with phase := .finished (.ok catalog.policy) }
  published : next.published = cluster.published.set task.handler catalog

section
variable {cluster final : Cluster} {events : List Event} {index : Nat} {task : Task}
  (hempty : cluster.tasks = [])
  (hrun : Runs.run Cluster.step cluster events = some final)
  (htask : final.tasks[index]? = some task)
include hempty hrun htask

theorem exists_commitStep (hkeeps : Along Cluster.step KeepsCommits cluster events)
    {policy : IamPolicyInfo} (hok : task.phase = .finished (.ok policy)) :
    ∃ event before after catalog, Passes Cluster.step cluster events event before after ∧
      CommitStep before index task catalog event after ∧ catalog.policy = policy := by
  have hchange := exists_passes_of_change
    (p := fun reached : Cluster => ∃ found : Task,
      reached.tasks[index]? = some found ∧ found.phase.isDurable = true) hrun
    (by simp [hempty]) ⟨task, htask, by rw [hok]; rfl⟩
  obtain ⟨event, before, after, hpasses, hbefore, found, hfound, hdurable⟩ := hchange
  obtain ⟨past, future, hevents, hpast, hstep, hfuture⟩ := hpasses.split hrun
  cases Cluster.step_task hstep hfound with
  | same _ hsame => exact absurd ⟨found, hsame, hdurable⟩ hbefore
  | requested _ _ hentered => rw [hentered] at hdurable; cases hdurable
  | dropped => cases hdurable
  | advanced reply earlier handler phase published stored hevent hearlier hhandler hmoves hnext =>
      have hnot : earlier.phase.isDurable = false := by
        rw [Bool.eq_false_iff]
        intro h
        exact hbefore ⟨earlier, hearlier, h⟩
      obtain ⟨catalog, hcommitting, hcommitted, hstored⟩ := hmoves.commits hnot hdurable
      subst hcommitted
      have hkept : Along Cluster.step KeepsCommits after future := by
        rw [hevents] at hkeeps
        exact (hkeeps.append.2 before hpast).2 after hstep
      have hpublishes : after.Publishes index earlier catalog :=
        ⟨.committed catalog, hfound, .inl rfl⟩
      obtain ⟨phase, hphase, hends⟩ := hpublishes.run hkept hfuture
      rw [htask, Option.some.injEq] at hphase
      subst hphase
      refine ⟨event, before, after, catalog, hpasses, ⟨⟨reply, hevent⟩, ?_, hfound, ?_⟩, ?_⟩
      · rw [hearlier, ← hcommitting]
      · rw [hnext]
        exact hstored
      · change phase = _ at hok
        cases hends with
        | inl h => rw [h] at hok; cases hok
        | inr h => rw [h] at hok; cases hok; rfl

theorem exists_installStep {policy : IamPolicyInfo} (hok : task.phase = .finished (.ok policy)) :
    ∃ event before after catalog, Passes Cluster.step cluster events event before after ∧
      InstallStep before index task catalog event after ∧ catalog.policy = policy := by
  have hchange := exists_passes_of_change
    (p := fun reached : Cluster => ∃ found : Task,
      reached.tasks[index]? = some found ∧ found.phase.succeeded = true) hrun
    (by simp [hempty]) ⟨task, htask, by rw [hok]; rfl⟩
  obtain ⟨event, before, after, hpasses, hbefore, found, hfound, hsucceeded⟩ := hchange
  obtain ⟨past, future, hevents, hpast, hstep, hfuture⟩ := hpasses.split hrun
  cases Cluster.step_task hstep hfound with
  | same _ hsame => exact absurd ⟨found, hsame, hsucceeded⟩ hbefore
  | requested _ _ hentered => rw [hentered] at hsucceeded; cases hsucceeded
  | dropped => cases hsucceeded
  | advanced reply earlier handler phase catalog stored hevent hearlier hhandler hmoves hnext =>
      obtain ⟨hcommitted, hfinished, -⟩ := hmoves.installs hsucceeded
      subst hfinished
      have hends := run_invariant_of_step
        (fun reached : Cluster => reached.tasks[index]? =
          some { earlier with phase := .finished (.ok catalog.policy) })
        (fun _ _ _ hinv hstep => Cluster.step_ended hstep hinv rfl) hfuture hfound
      rw [htask, Option.some.injEq] at hends
      subst hends
      refine ⟨event, before, after, catalog, hpasses, ⟨⟨reply, hevent⟩, ?_, hfound, ?_⟩, ?_⟩
      · rw [hearlier, ← hcommitted]
      · rw [hnext]
        exact resume_published
      · cases hok
        rfl

end

/-- A task that ends in an error changed neither the repository nor what is published. -/
theorem unchanged_of_failed {cluster before after final : Cluster} {events : List Event}
    {index : Nat} {task : Task} {reply : Reply} {error : PolicyHandlerError}
    (hkeeps : Along Cluster.step KeepsCommits cluster events)
    (hrun : Runs.run Cluster.step cluster events = some final)
    (htask : final.tasks[index]? = some task) (herror : task.phase = .finished (.error error))
    (hpasses : Passes Cluster.step cluster events (.advance index reply) before after) :
    after.stored = before.stored ∧ after.published = before.published := by
  obtain ⟨past, future, hevents, hpast, hstep, hfuture⟩ := hpasses.split hrun
  have hkept : Along Cluster.step KeepsCommits after future := by
    rw [hevents] at hkeeps
    exact (hkeeps.append.2 before hpast).2 after hstep
  have hnever : ∀ (earlier : Task) (phase : Phase) (catalog : Catalog),
      phase.Publishes catalog → after.tasks[index]? = some { earlier with phase } → False := by
    intro earlier phase catalog hpublishes hearlier
    obtain ⟨last, hlast, hends⟩ := Cluster.Publishes.run ⟨phase, hearlier, hpublishes⟩ hkept hfuture
    rw [htask, Option.some.injEq] at hlast
    subst hlast
    change last = _ at herror
    cases hends with
    | inl h => rw [h] at herror; cases herror
    | inr h => rw [h] at herror; cases herror
  cases Cluster.step_steps hstep with
  | advance _ _ earlier handler phase published stored hearlier hhandler hmoves =>
      have hafter : (before.resume index earlier handler phase published).tasks[index]? =
          some { earlier with phase } := by
        rw [resume_tasks hearlier, if_pos rfl]
      have hquiet : (before.resume index earlier handler phase handler.published).published =
          before.published := by
        rw [resume_published, published_set_self hhandler]
      cases hmoves with
      | wait => exact ⟨rfl, hquiet⟩
      | acquire => exact ⟨rfl, hquiet⟩
      | hold => exact ⟨rfl, hquiet⟩
      | fail => exact ⟨rfl, hquiet⟩
      | commit catalog _ => exact (hnever earlier _ catalog (.inl rfl) hafter).elim
      | install catalog _ => exact (hnever earlier _ _ (.inr rfl) hafter).elim

/-! One handler that runs every mutation to its end. -/

/-- Requests arrive and go on; none is dropped. -/
def Event.mutates : Event → Bool
  | .request _ _ _ | .advance _ _ => true
  | _ => false

theorem Event.keepsCommits_of_mutates {event : Event} (h : event.mutates = true)
    (cluster : Cluster) : KeepsCommits cluster event := by
  cases event <;> trivial

omit [Ipnet] in
theorem Event.opens_of_mutates {event : Event} (h : event.mutates = true) :
    event.opens = false := by
  cases event <;> first | rfl | cases h

/-- The published catalog and the stored one, in a run from an initial catalog on. -/
structure MoveTogether (first : Cluster) (initial : Catalog) (events : List Event)
    (final : Cluster) (current : Catalog) : Prop where
  stored : final.Settled → final.stored = current.content
  revision : current.revision = initial.revision + final.tasks.countP (·.phase.succeeded)
  failed : ∀ (index : Nat) (task : Task) (error : PolicyHandlerError),
    final.tasks[index]? = some task → task.phase = .finished (.error error) →
    ∀ reply before after, Passes Cluster.step first events (.advance index reply) before after →
      after.stored = before.stored ∧ after.published = before.published
  succeeded : ∀ (index : Nat) (task : Task) (policy : IamPolicyInfo),
    final.tasks[index]? = some task → task.phase = .finished (.ok policy) →
    ∃ reply before after old new,
      Passes Cluster.step first events (.advance index reply) before after ∧
        before.published = [old] ∧ after.published = [new] ∧ new.policy = policy ∧
        old.revision = task.expectedRevision ∧ task.Applies old new
  distinct : ∀ (index other : Nat) (task task' : Task), index ≠ other →
    final.tasks[index]? = some task → final.tasks[other]? = some task' →
    task.phase.succeeded = true → task'.phase.succeeded = true →
    task.expectedRevision ≠ task'.expectedRevision
  wellFormed : current.policy.WellFormed

theorem tasks_of_open {cluster next : Cluster} {bootstrap : Option IamPolicyInfo}
    {answer : Except String Unit}
    (hopen : cluster.step (.openHandler bootstrap answer) = some next) :
    next.tasks = cluster.tasks := by
  cases Cluster.step_steps hopen with
  | failedOpen => rfl
  | openHandler => rfl

theorem Cluster.Single.handler_eq {cluster : Cluster} (inv : cluster.Single) {index : Nat}
    {task : Task} (htask : cluster.tasks[index]? = some task) : task.handler = 0 := by
  have hlt := inv.locks.handler index task htask
  have hone := inv.one
  omega

theorem Cluster.Single.revision_eq {cluster : Cluster} (inv : cluster.Single) {handler : Handler}
    (hhandler : cluster.handlers = [handler]) :
    handler.published.revision =
      handler.opened + cluster.tasks.countP (·.phase.succeeded) := by
  rw [inv.locks.revision 0 handler (by rw [hhandler]; rfl)]
  congr 1
  apply List.countP_congr
  intro task hmem
  obtain ⟨index, htask⟩ := List.mem_iff_getElem?.mp hmem
  simp [Task.succeededOn, inv.handler_eq htask]

theorem Cluster.Single.installed {cluster next : Cluster} {event : Event} {index : Nat}
    {task : Task} {catalog : Catalog} (inv : cluster.Single)
    (h : InstallStep cluster index task catalog event next) :
    ∃ old, cluster.published = [old] ∧ next.published = [catalog] ∧
      task.Overwrites old catalog := by
  obtain ⟨handler, hhandler, hpublished⟩ := inv.exists_published
  have hzero := inv.handler_eq h.before
  change task.handler = 0 at hzero
  have hholder : cluster.handlers[task.handler]? = some handler := by
    rw [hzero, hhandler]
    rfl
  have hoverwrites := inv.locks.overwrites h.before hholder rfl
  refine ⟨handler.published, hpublished, ?_, hoverwrites.expected, hoverwrites.applies⟩
  rw [h.published, hpublished, hzero]
  rfl

/-- One handler over a repository, with any mutations in any interleaving, each run to its
end and each free to fail. -/
theorem published_and_stored_move_together (stored : Content) (bootstrap : Option IamPolicyInfo)
    (answer : Except String Unit) (first : Cluster) (initial : Catalog)
    (hopen : (Cluster.start stored).step (.openHandler bootstrap answer) = some first)
    (hinitial : first.published = [initial]) (events : List Event)
    (hmutates : ∀ event ∈ events, event.mutates = true) (final : Cluster)
    (hrun : Runs.run Cluster.step first events = some final) :
    ∃ current, final.published = [current] ∧
      MoveTogether first initial events final current := by
  have hsingle := Cluster.single_of_open hopen hinitial
  have hempty : first.tasks = [] := tasks_of_open hopen
  have hopens : ∀ event ∈ events, event.opens = false :=
    fun event hmem => Event.opens_of_mutates (hmutates event hmem)
  have hkeeps : Along Cluster.step KeepsCommits first events :=
    (along_of_forall hmutates first).imp
      fun cluster event h => Event.keepsCommits_of_mutates h cluster
  have inv := hsingle.run hopens hkeeps hrun
  obtain ⟨handler, hhandler, hpublished⟩ := inv.exists_published
  refine ⟨handler.published, hpublished, ?_, ?_, ?_, ?_, ?_, ?_⟩
  · exact inv.stored_eq hpublished
  · -- the handler was opened at the initial revision, and no mutation had succeeded then
    obtain ⟨opened, hopened, hfirst⟩ := hsingle.exists_published
    rw [hinitial, List.singleton_inj] at hfirst
    have hbase := hsingle.revision_eq hopened
    rw [hempty, List.countP_nil, Nat.add_zero, ← hfirst] at hbase
    have hzero : first.handlers[0]? = some opened := by rw [hopened]; rfl
    obtain ⟨later, hlater, hfollows⟩ := run_follows hsingle.locks hrun hzero
    rw [hhandler] at hlater
    cases hlater
    change handler.published.revision = initial.revision + _
    rw [inv.revision_eq hhandler, hfollows.opened]
    exact congrArg (· + _) hbase.symm
  · intro index task error htask herror reply before after hpasses
    exact unchanged_of_failed hkeeps hrun htask herror hpasses
  · intro index task policy htask hok
    obtain ⟨event, before, after, catalog, hpasses, hinstall, hpolicy⟩ :=
      exists_installStep hempty hrun htask hok
    obtain ⟨past, future, hevents, hpast, -, -⟩ := hpasses.split hrun
    have hbefore : before.Single := by
      rw [hevents] at hopens hkeeps
      exact hsingle.run (fun event hmem => hopens event (List.mem_append_left _ hmem))
        hkeeps.append.1 hpast
    obtain ⟨reply, hevent⟩ := hinstall.event_eq
    obtain ⟨old, hold, hnew, hoverwrites⟩ := hbefore.installed hinstall
    subst hevent
    exact ⟨reply, before, after, old, catalog, hpasses, hold, hnew, hpolicy,
      hoverwrites.expected, hoverwrites.applies⟩
  · intro index other task task' hne htask htask' hsucceeded hsucceeded'
    apply inv.locks.distinct index other task task' hne htask htask' _ hsucceeded hsucceeded'
    rw [inv.handler_eq htask, inv.handler_eq htask']
  · obtain ⟨policy, revision, hcompiled⟩ := handler.published.valid
    exact (compile_eq_ok.mp hcompiled).wellFormed

end

namespace Payroll

/-- Two administrators who read revision 1: the first revokes a grant, the second comes
too late. -/
def interleaved : List Event :=
  [.request 0 1 (.deleteRoleBinding "office"), .request 0 1 (.deleteRoleBinding "contractors"),
    .advance 0 .ready, .advance 1 .ready, .advance 0 .ready, .advance 0 (.stored (.ok ())),
    .advance 0 (.stored (.ok ())), .advance 0 .ready, .advance 1 .ready]

theorem interleaved_moves_together :
    ∃ initial final current, Runs.run Cluster.step opened interleaved = some final ∧
      final.tasks.map (·.phase.succeeded) = [true, false] ∧
      final.published = [current] ∧
      MoveTogether opened initial interleaved final current := by
  obtain ⟨initial, hinitial⟩ := opened_published
  have hends : ∃ final, Runs.run Cluster.step opened interleaved = some final ∧
      final.tasks.map (·.phase.succeeded) = [true, false] := exists_run_of_any (by decide +kernel)
  obtain ⟨final, hrun, hsucceeded⟩ := hends
  obtain ⟨current, hcurrent, htogether⟩ := published_and_stored_move_together policy.content none
    (.ok ()) opened initial rfl hinitial interleaved (by decide) final hrun
  exact ⟨initial, final, current, hrun, hsucceeded, hcurrent, htogether⟩

end Payroll

section
variable [Ipnet]

/-! One process at a time. -/

/-- At some moment of the run the handler published the catalog at the revision. -/
def ReadAt (stored : Content) (events : List Event) (number revision : Nat) (read : Catalog) :
    Prop :=
  ∃ past moment handler, past <+: events ∧
    Runs.run Cluster.step (Cluster.start stored) past = some moment ∧
    moment.handlers[number]? = some handler ∧ handler.published = read ∧
    read.revision = revision

theorem soleWriter_inv {stored : Content} {events : List Event} {reached : Cluster}
    (hsole : Along Cluster.step SoleWriter (Cluster.start stored) events)
    (hkeeps : Along Cluster.step KeepsCommits (Cluster.start stored) events)
    (hrun : Runs.run Cluster.step (Cluster.start stored) events = some reached) :
    reached.LockInv ∧ reached.StoreInv :=
  run_invariant (fun cluster => cluster.LockInv ∧ cluster.StoreInv)
    (fun _ _ _ hinv hcond hstep =>
      ⟨hinv.1.step hstep, hinv.2.step hinv.1 hcond.1 hcond.2 hstep⟩)
    (hsole.and hkeeps) hrun ⟨Cluster.lockInv_start stored, Cluster.storeInv_start stored⟩

/-- A task that is about to commit finds in the repository what its handler publishes. -/
theorem Cluster.StoreInv.before_commit {cluster : Cluster} (locks : cluster.LockInv)
    (inv : cluster.StoreInv) {index : Nat} {task : Task} {handler : Handler} {catalog : Catalog}
    (htask : cluster.tasks[index]? = some task) (hphase : task.phase = .committing catalog)
    (hhandler : cluster.handlers[task.handler]? = some handler) :
    cluster.stored = handler.published.content := by
  apply inv.published _ task.handler handler hhandler
  · exact inv.newest index task htask (by rw [hphase]; rfl)
  · intro task' hmem
    obtain ⟨other, htask'⟩ := List.mem_iff_getElem?.mp hmem
    by_cases hother : other = index
    · rw [hother, htask, Option.some.injEq] at htask'
      rw [← htask', hphase]
      rfl
    · apply Phase.isCommitted_of_free
      exact inv.alone locks htask (by rw [hphase]; rfl) hother htask'

/-- In any run in which one process at a time writes, restarts included, a mutation that
succeeds overwrites the catalog its handler published with the expected revision, at every
moment it did so, and writes the mutation applied to that catalog. -/
theorem overwrites_what_was_read (stored : Content) (events : List Event)
    (hsole : Along Cluster.step SoleWriter (Cluster.start stored) events)
    (hkeeps : Along Cluster.step KeepsCommits (Cluster.start stored) events) (final : Cluster)
    (hrun : Runs.run Cluster.step (Cluster.start stored) events = some final) (index : Nat)
    (task : Task) (policy : IamPolicyInfo) (htask : final.tasks[index]? = some task)
    (hok : task.phase = .finished (.ok policy)) :
    ∃ event before after read written,
      Passes Cluster.step (Cluster.start stored) events event before after ∧
      CommitStep before index task written event after ∧ written.policy = policy ∧
      ReadAt stored events task.handler task.expectedRevision read ∧
      (∀ other, ReadAt stored events task.handler task.expectedRevision other → other = read) ∧
      before.stored = read.content ∧ task.Applies read written := by
  obtain ⟨event, before, after, written, hpasses, hcommit, hpolicy⟩ :=
    exists_commitStep rfl hrun htask hkeeps hok
  obtain ⟨past, future, hevents, hpast, -, -⟩ := hpasses.split hrun
  have hearlier : past <+: events := ⟨event :: future, hevents.symm⟩
  have hinv : before.LockInv ∧ before.StoreInv := by
    rw [hevents] at hsole hkeeps
    exact soleWriter_inv hsole.append.1 hkeeps.append.1 hpast
  obtain ⟨handler, hhandler⟩ := hinv.1.exists_handler hcommit.before
  have hoverwrites := hinv.1.overwrites hcommit.before hhandler rfl
  refine ⟨event, before, after, handler.published, written, hpasses, hcommit, hpolicy,
    ⟨past, before, handler, hearlier, hpast, hhandler, rfl, hoverwrites.expected⟩, ?_,
    hinv.2.before_commit hinv.1 hcommit.before rfl hhandler, hoverwrites.applies⟩
  rintro other ⟨past', moment, holder, hpast', hrun', hholder, hread, hrevision⟩
  rw [← hread]
  apply published_of_revision (Cluster.lockInv_start stored) hpast' hearlier hrun' hpast hholder
    hhandler
  rw [hread, hrevision]
  exact hoverwrites.expected.symm

end

namespace Payroll

def published (task : Nat) : List Event := [.advance task (.stored (.ok ())), .advance task .ready]

/-- The process is restarted between two mutations. -/
def restarted : List Event :=
  [.openHandler none (.ok ())] ++ revocation 0 ++ published 0 ++
    [.openHandler none (.ok ()), .request 1 1 (.deleteRoleBinding "contractors"),
      .advance 1 .ready, .advance 1 .ready, .advance 1 (.stored (.ok ()))] ++ published 1

theorem restarted_overwrites_what_was_read :
    ∃ event before after read,
      Passes Cluster.step (Cluster.start policy.content) restarted event before after ∧
      ReadAt policy.content restarted 1 1 read ∧ before.stored = read.content := by
  have hends : ∃ final,
      Runs.run Cluster.step (Cluster.start policy.content) restarted = some final ∧
      final.tasks.map (fun task => (task.handler, task.expectedRevision, task.phase.succeeded)) =
        [(0, 1, true), (1, 1, true)] := exists_run_of_any (by decide +kernel)
  obtain ⟨final, hrun, htasks⟩ := hends
  have hsecond := congrArg (·[1]?) htasks
  rw [List.getElem?_map] at hsecond
  obtain ⟨task, htask, hsame⟩ := Option.map_eq_some_iff.mp hsecond
  simp only [Prod.mk.injEq] at hsame
  obtain ⟨hhandler, hrevision, hsucceeded⟩ := hsame
  obtain ⟨policy, hok⟩ := Phase.exists_of_succeeded hsucceeded
  obtain ⟨event, before, after, read, written, hpasses, -, -, hread, -, hstored, -⟩ :=
    overwrites_what_was_read _ restarted (by decide +kernel) (by decide +kernel) final hrun 1 task
      policy htask hok
  rw [hhandler, hrevision] at hread
  exact ⟨event, before, after, read, hpasses, hread, hstored⟩

/-- Two processes opened on the same repository. The second one has not seen that a grant
was revoked, and its own mutation restores the grant. -/
def replicated : List Event :=
  [.openHandler none (.ok ()), .openHandler none (.ok ())] ++ revocation 0 ++ published 0 ++
    [.request 1 1 (.deleteRoleBinding "contractors"), .advance 1 .ready, .advance 1 .ready,
      .advance 1 (.stored (.ok ()))]

theorem replicated_overwrites_unread :
    ∃ read before after final,
      ReadAt policy.content (replicated ++ published 1) 1 1 read ∧
      Passes Cluster.step (Cluster.start policy.content) (replicated ++ published 1)
        (.advance 1 (.stored (.ok ()))) before after ∧
      before.tasks.map (·.phase.isCommitted) = [false, false] ∧
      after.tasks.map (·.phase.isCommitted) = [false, true] ∧
      Runs.run Cluster.step (Cluster.start policy.content) (replicated ++ published 1) =
        some final ∧
      final.tasks.map (fun task => (task.handler, task.expectedRevision, task.phase.succeeded)) =
        [(0, 1, true), (1, 1, true)] ∧
      before.stored ≠ read.content ∧
      (before.stored.roleBindings.map (·.id), final.stored.roleBindings.map (·.id)) =
        (["contractors"], ["office"]) := by
  have hbefore : ∃ before,
      Runs.run Cluster.step (Cluster.start policy.content) replicated = some before ∧
      before.handlers[1]?.map (fun handler =>
        (handler.published.content, handler.published.revision)) = some (policy.content, 1) ∧
      before.tasks.map (·.phase.isCommitted) = [false, false] ∧
      before.stored ≠ policy.content ∧
      before.stored.roleBindings.map (·.id) = ["contractors"] :=
    exists_run_of_any (by decide +kernel)
  have hafter : ∃ after, Runs.run Cluster.step (Cluster.start policy.content)
        (replicated ++ [.advance 1 (.stored (.ok ()))]) = some after ∧
      after.tasks.map (·.phase.isCommitted) = [false, true] :=
    exists_run_of_any (by decide +kernel)
  have hfinal : ∃ final, Runs.run Cluster.step (Cluster.start policy.content)
        (replicated ++ published 1) = some final ∧
      final.tasks.map (fun task =>
        (task.handler, task.expectedRevision, task.phase.succeeded)) =
          [(0, 1, true), (1, 1, true)] ∧
      final.stored.roleBindings.map (·.id) = ["office"] := exists_run_of_any (by decide +kernel)
  obtain ⟨before, hbefore, hread, hwaiting, hstored, hrevoked⟩ := hbefore
  obtain ⟨after, hafter, hcommitted⟩ := hafter
  obtain ⟨final, hfinal, hsucceeded, hrestored⟩ := hfinal
  obtain ⟨handler, hhandler, hcontent⟩ := Option.map_eq_some_iff.mp hread
  simp only [Prod.mk.injEq] at hcontent
  obtain ⟨reached, hreached, hstep⟩ := run_append_eq_some.mp hafter
  rw [hbefore, Option.some.injEq] at hreached
  obtain ⟨next, hnext, hlast⟩ := run_cons_eq_some.mp hstep
  rw [← hreached] at hnext
  cases hlast
  refine ⟨handler.published, before, after, final,
    ⟨replicated, before, handler, List.prefix_append _ _, hbefore, hhandler, rfl, hcontent.2⟩,
    ⟨replicated, [.advance 1 .ready], rfl, hbefore, hnext⟩, hwaiting, hcommitted, hfinal,
    hsucceeded, ?_, ?_⟩
  · rw [hcontent.1]
    exact hstored
  · rw [hrevoked, hrestored]

end Payroll

end Authguard
