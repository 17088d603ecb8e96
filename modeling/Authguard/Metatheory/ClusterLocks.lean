import Authguard.Authz.PolicyCluster
import Authguard.Metatheory.PolicyCompile

/-!
The write lock and the revision of each handler, over every run of the machine:
whatever the schedule, whatever fails and whatever is dropped, a task in a locked
phase is the only one on its handler, carries the handler's current revision, and
has compiled its replacement at the next one. So the revision of a handler counts
the mutations that succeeded on it, and no two of those carried the same revision.
-/

namespace Authguard
open Result Runs

section
variable [Ipnet]

def Phase.succeeded : Phase → Bool
  | .finished (.ok _) => true
  | _ => false

theorem Phase.exists_of_succeeded {phase : Phase} (h : phase.succeeded = true) :
    ∃ policy, phase = .finished (.ok policy) := by
  unfold Phase.succeeded at h
  split at h
  · exact ⟨_, rfl⟩
  · cases h

/-- The replacement a task is about to publish. -/
def Phase.catalog? : Phase → Option Catalog
  | .replacing catalog | .committing catalog | .committed catalog => some catalog
  | _ => none

def Phase.isCommitted : Phase → Bool
  | .committed _ => true
  | _ => false

/-! What one resumed task can do. -/

theorem Catalog.compile_ok {policy : IamPolicyInfo} {revision : Nat} {catalog : Catalog}
    (h : Catalog.compile policy revision = .ok catalog) :
    CompiledPolicy.compile policy revision = .ok catalog.compiled := by
  unfold Catalog.compile at h
  split at h
  · cases h
  · rename_i compiled hcompiled
    cases h
    exact hcompiled

theorem Catalog.compile_policy {policy : IamPolicyInfo} {revision : Nat} {catalog : Catalog}
    (h : Catalog.compile policy revision = .ok catalog) :
    catalog.policy = { policy with revision } :=
  (compile_eq_ok.mp (Catalog.compile_ok h)).policy_eq

theorem prepareReplacement_revision {expectedRevision : Nat} {policy : IamPolicyInfo}
    {catalog : Catalog} (h : prepareReplacement expectedRevision policy = .ok catalog) :
    catalog.revision = expectedRevision + 1 := by
  unfold prepareReplacement at h
  split at h
  · rw [mapError_ok] at h
    rw [Catalog.revision, Catalog.compile_policy h]
  · cases h

/-- The replacement is the mutation applied to the published policy, compiled at the
revision after the expected one. -/
def Task.Applies (task : Task) (published catalog : Catalog) : Prop :=
  ∃ policy, task.mutation.apply published.policy = .ok policy ∧
    prepareReplacement task.expectedRevision policy = .ok catalog

theorem Task.Applies.revision {task : Task} {published catalog : Catalog}
    (h : task.Applies published catalog) : catalog.revision = task.expectedRevision + 1 := by
  obtain ⟨policy, -, hprepare⟩ := h
  exact prepareReplacement_revision hprepare

/-- A phase reached under the lock, before the commit, prepares what the task asks for. -/
structure Phase.Prepares (phase : Phase) (task : Task) (published : Catalog) : Prop where
  holdsLock : phase.holdsLock = true
  notCommitted : phase.isCommitted = false
  replacement : ∀ catalog, phase.catalog? = some catalog → task.Applies published catalog

theorem Task.persistApplied_cases (task : Task) (published : Catalog) :
    (∃ error, persistApplied task.expectedRevision (task.mutation.apply published.policy) =
        .ofError error) ∨
      (persistApplied task.expectedRevision (task.mutation.apply published.policy)).Prepares
        task published := by
  cases happly : task.mutation.apply published.policy with
  | error error => exact .inl ⟨error, rfl⟩
  | ok policy =>
      simp only [persistApplied, persistAndPublish]
      split
      · rename_i error _
        exact .inl ⟨error, rfl⟩
      · rename_i catalog hprepare
        refine .inr ⟨rfl, rfl, ?_⟩
        intro prepared hprepared
        cases hprepared
        exact ⟨policy, happly, hprepare⟩

/-- How a task moves on: it waits outside the lock, takes the lock or keeps it, fails,
commits, or installs. -/
inductive Moves (task : Task) (handler : Handler) (stored : Content) :
    Phase → Catalog → Content → Prop
  | wait (phase : Phase) : task.phase.holdsLock = false → task.phase.inProgress = true →
      phase.holdsLock = false → phase.succeeded = false →
      Moves task handler stored phase handler.published stored
  | acquire (phase : Phase) : task.phase = .awaitingLock → handler.lock = none →
      task.expectedRevision = handler.published.revision →
      phase.Prepares task handler.published →
      Moves task handler stored phase handler.published stored
  | hold (phase : Phase) : task.phase.holdsLock = true → task.phase.isCommitted = false →
      phase.holdsLock = true → phase.isCommitted = false →
      (∀ catalog, phase.catalog? = some catalog →
        task.phase.catalog? = some catalog ∨ task.Applies handler.published catalog) →
      Moves task handler stored phase handler.published stored
  | fail (error : PolicyHandlerError) : task.phase.holdsLock = true →
      task.phase.isCommitted = false →
      Moves task handler stored (.ofError error) handler.published stored
  | commit (catalog : Catalog) : task.phase = .committing catalog →
      Moves task handler stored (.committed catalog) handler.published catalog.content
  | install (catalog : Catalog) : task.phase = .committed catalog →
      Moves task handler stored (.finished (.ok catalog.policy)) catalog stored

theorem Task.enter_cases (task : Task) :
    task.enter.holdsLock = false ∧ task.enter.succeeded = false := by
  unfold Task.enter
  split
  · exact ⟨rfl, rfl⟩
  · split
    · exact ⟨rfl, rfl⟩
    · exact ⟨rfl, rfl⟩

theorem Task.locked_cases (task : Task) (published : Catalog) :
    (∃ error, task.locked published = .ofError error) ∨
      (task.expectedRevision = published.revision ∧
        (task.locked published).Prepares task published) := by
  unfold Task.locked requireRevision
  by_cases hrevision : published.revision = task.expectedRevision
  · rw [if_pos hrevision]
    dsimp only
    split
    · exact .inr ⟨hrevision.symm, rfl, rfl, fun _ h => by cases h⟩
    · exact (task.persistApplied_cases published).imp_right fun h => ⟨hrevision.symm, h⟩
  · rw [if_neg hrevision]
    exact .inl ⟨_, rfl⟩

theorem Task.lookedUp_cases (task : Task) (published : Catalog) (id : String)
    (rest : List String) (result : Except String (Option PrincipalStatus)) :
    (∃ error, task.lookedUp published id rest result = .ofError error) ∨
      (task.lookedUp published id rest result).Prepares task published := by
  unfold Task.lookedUp
  split
  · exact .inl ⟨_, rfl⟩
  · split
    · exact task.persistApplied_cases published
    · exact .inr ⟨rfl, rfl, fun _ h => by cases h⟩

theorem Task.advance_moves {task : Task} {handler : Handler} {stored stored' : Content}
    {reply : Reply} {phase : Phase} {published : Catalog}
    (h : task.advance handler stored reply = some (phase, published, stored')) :
    Moves task handler stored phase published stored' := by
  unfold Task.advance at h
  split at h
  · rename_i hphase
    cases h
    exact .wait _ (by rw [hphase]; rfl) (by rw [hphase]; rfl) task.enter_cases.1
      task.enter_cases.2
  · rename_i hphase
    split at h
    · cases h
      exact .wait _ (by rw [hphase]; rfl) (by rw [hphase]; rfl) rfl rfl
    · cases h
      exact .wait _ (by rw [hphase]; rfl) (by rw [hphase]; rfl) rfl rfl
  · rename_i hphase
    split at h
    · rename_i hlock
      cases h
      cases task.locked_cases handler.published with
      | inl hfails =>
          obtain ⟨error, herror⟩ := hfails
          rw [herror]
          exact .wait _ (by rw [hphase]; rfl) (by rw [hphase]; rfl) rfl rfl
      | inr hlocked =>
          exact .acquire _ hphase (Option.isNone_iff_eq_none.mp hlock) hlocked.1 hlocked.2
    · cases h
  · rename_i id rest result hphase
    cases h
    cases task.lookedUp_cases handler.published id rest result with
    | inl hfails =>
        obtain ⟨error, herror⟩ := hfails
        rw [herror]
        exact .fail error (by rw [hphase]; rfl) (by rw [hphase]; rfl)
    | inr hprepares =>
        exact .hold _ (by rw [hphase]; rfl) (by rw [hphase]; rfl) hprepares.holdsLock
          hprepares.notCommitted fun catalog hcatalog =>
            .inr (hprepares.replacement catalog hcatalog)
  · rename_i hphase
    cases h
    exact .fail _ (by rw [hphase]; rfl) (by rw [hphase]; rfl)
  · rename_i hphase
    cases h
    exact .fail _ (by rw [hphase]; rfl) (by rw [hphase]; rfl)
  · rename_i hphase
    cases h
    exact .hold _ (by rw [hphase]; rfl) (by rw [hphase]; rfl) rfl rfl fun catalog hcatalog =>
      .inl (by rw [hphase]; exact hcatalog)
  · rename_i hphase
    cases h
    exact .commit _ hphase
  · rename_i hphase
    cases h
    exact .install _ hphase
  · cases h

/-! What one event can do to a cluster. -/

/-- The content a handler opened on the repository publishes. -/
def Content.reopened (bootstrap : Option IamPolicyInfo) (stored : Content) : Content :=
  if stored.isEmpty then (bootstrap.map (·.content)).getD stored else stored

def Cluster.withHandler (cluster : Cluster) (catalog : Catalog) : Cluster :=
  { cluster with
    stored := catalog.content
    handlers := cluster.handlers ++ [⟨catalog, none, catalog.revision⟩] }

theorem openHandler_ok {stored : Content} {bootstrap : Option IamPolicyInfo} {catalog : Catalog}
    {bootstrapped : Bool}
    (h : openHandler stored bootstrap = .ok (catalog, bootstrapped)) :
    catalog.content = stored.reopened bootstrap ∧
      (bootstrapped = false → catalog.content = stored) := by
  simp only [openHandler, bind_ok_iff, mapError_ok] at h
  obtain ⟨compiled, hcompiled, h⟩ := h
  cases h
  have hpolicy := Catalog.compile_policy hcompiled
  rw [Catalog.content, hpolicy]
  cases hempty : stored.isEmpty with
  | false => simp [Content.reopened, hempty, IamPolicyInfo.content, Content.load]
  | true =>
      cases bootstrap with
      | none => simp [Content.reopened, hempty, IamPolicyInfo.content, Content.load]
      | some policy => simp [Content.reopened, hempty, IamPolicyInfo.content]

theorem Cluster.openHandler_cases (cluster : Cluster) (bootstrap : Option IamPolicyInfo)
    (stored : Except String Unit) :
    cluster.openHandler bootstrap stored = cluster ∨
      ∃ catalog, catalog.content = cluster.stored.reopened bootstrap ∧
        cluster.openHandler bootstrap stored = cluster.withHandler catalog := by
  unfold Cluster.openHandler
  split
  · exact .inl rfl
  · rename_i catalog bootstrapped hopen
    obtain ⟨hcontent, hkept⟩ := openHandler_ok hopen
    cases bootstrapped with
    | false =>
        right
        refine ⟨catalog, hcontent, ?_⟩
        simp [Cluster.withHandler, hkept rfl]
    | true =>
        cases stored with
        | error message => exact .inl rfl
        | ok _ => exact .inr ⟨catalog, hcontent, rfl⟩

/-- Everything an event can do. -/
inductive Steps (cluster : Cluster) : Event → Cluster → Prop
  | request (handler expectedRevision : Nat) (mutation : Mutation) :
      handler < cluster.handlers.length →
      Steps cluster (.request handler expectedRevision mutation)
        { cluster with
          tasks := cluster.tasks ++ [⟨handler, expectedRevision, mutation, .entered⟩] }
  | advance (index : Nat) (reply : Reply) (task : Task) (handler : Handler) (phase : Phase)
      (published : Catalog) (stored : Content) :
      cluster.tasks[index]? = some task → cluster.handlers[task.handler]? = some handler →
      Moves task handler cluster.stored phase published stored →
      Steps cluster (.advance index reply)
        { cluster.resume index task handler phase published with stored }
  | drop (index : Nat) (task : Task) (handler : Handler) (orphans : List Content) :
      cluster.tasks[index]? = some task → cluster.handlers[task.handler]? = some handler →
      task.phase.inProgress = true →
      Steps cluster (.drop index)
        { cluster.resume index task handler .cancelled handler.published with orphans }
  | settle (index : Nat) (applied : Bool) (content : Content) (orphans : List Content) :
      Steps cluster (.settle index applied)
        { cluster with orphans, stored := if applied then content else cluster.stored }
  | failedOpen (bootstrap : Option IamPolicyInfo) (stored : Except String Unit) :
      Steps cluster (.openHandler bootstrap stored) cluster
  | openHandler (bootstrap : Option IamPolicyInfo) (stored : Except String Unit)
      (catalog : Catalog) : catalog.content = cluster.stored.reopened bootstrap →
      Steps cluster (.openHandler bootstrap stored) (cluster.withHandler catalog)

theorem Cluster.step_steps {cluster next : Cluster} {event : Event}
    (h : cluster.step event = some next) : Steps cluster event next := by
  cases event with
  | request handler expectedRevision mutation =>
      simp only [Cluster.step] at h
      split at h
      · rename_i hhandler
        cases h
        exact .request handler expectedRevision mutation hhandler
      · cases h
  | advance index reply =>
      simp only [Cluster.step, Option.bind_eq_bind, Option.bind_eq_some_iff] at h
      obtain ⟨task, htask, handler, hhandler, ⟨phase, published, stored⟩, hadvance, h⟩ := h
      cases h
      exact .advance index reply task handler phase published stored htask hhandler
        (Task.advance_moves hadvance)
  | drop index =>
      simp only [Cluster.step, Option.bind_eq_bind, Option.bind_eq_some_iff] at h
      obtain ⟨task, htask, handler, hhandler, h⟩ := h
      split at h
      · rename_i hprogress
        split at h
        · cases h
          exact .drop index task handler _ htask hhandler hprogress
        · cases h
          exact .drop index task handler _ htask hhandler hprogress
      · cases h
  | settle index applied =>
      simp only [Cluster.step, Option.bind_eq_bind, Option.bind_eq_some_iff] at h
      obtain ⟨content, hcontent, h⟩ := h
      cases h
      exact .settle index applied content _
  | openHandler bootstrap stored =>
      cases h
      cases cluster.openHandler_cases bootstrap stored with
      | inl hsame =>
          rw [hsame]
          exact .failedOpen bootstrap stored
      | inr hopened =>
          obtain ⟨catalog, hcontent, hopened⟩ := hopened
          rw [hopened]
          exact .openHandler bootstrap stored catalog hcontent

/-! The lock invariant. -/

/-- A task in a locked phase has the lock of its handler to itself. -/
structure Task.Holds (task : Task) (index : Nat) (handler : Handler) : Prop where
  lock : handler.lock = some index
  current : task.expectedRevision = handler.published.revision
  replacement : ∀ catalog, task.phase.catalog? = some catalog →
    task.Applies handler.published catalog

def Task.succeededOn (handler : Nat) (task : Task) : Bool :=
  task.handler == handler && task.phase.succeeded

structure Cluster.LockInv (cluster : Cluster) : Prop where
  handler : ∀ (index : Nat) (task : Task), cluster.tasks[index]? = some task →
    task.handler < cluster.handlers.length
  holder : ∀ (index : Nat) (task : Task) (handler : Handler),
    cluster.tasks[index]? = some task → cluster.handlers[task.handler]? = some handler →
    task.phase.holdsLock = true → task.Holds index handler
  held : ∀ (number : Nat) (handler : Handler) (index : Nat),
    cluster.handlers[number]? = some handler → handler.lock = some index →
    ∃ task : Task, cluster.tasks[index]? = some task ∧ task.handler = number ∧
      task.phase.holdsLock = true
  revision : ∀ (number : Nat) (handler : Handler), cluster.handlers[number]? = some handler →
    handler.published.revision =
      handler.opened + cluster.tasks.countP (Task.succeededOn number)
  succeeded : ∀ (index : Nat) (task : Task) (handler : Handler),
    cluster.tasks[index]? = some task → cluster.handlers[task.handler]? = some handler →
    task.phase.succeeded = true → task.expectedRevision < handler.published.revision
  distinct : ∀ (index other : Nat) (task task' : Task), index ≠ other →
    cluster.tasks[index]? = some task → cluster.tasks[other]? = some task' →
    task.handler = task'.handler → task.phase.succeeded = true → task'.phase.succeeded = true →
    task.expectedRevision ≠ task'.expectedRevision

omit [Ipnet] in
theorem getElem?_set_of_some {α : Type} {items : List α} {index : Nat} {old : α}
    (h : items[index]? = some old) (new : α) (other : Nat) :
    (items.set index new)[other]? = if other = index then some new else items[other]? := by
  have hlt : index < items.length := (List.getElem?_eq_some_iff.mp h).1
  by_cases hsame : other = index
  · simp [hsame, hlt]
  · simp [hsame, Ne.symm hsame]

omit [Ipnet] in
theorem getElem?_append_singleton {α : Type} {items : List α} {item found : α} {index : Nat}
    (h : (items ++ [item])[index]? = some found) :
    items[index]? = some found ∨ (index = items.length ∧ found = item) := by
  by_cases hlt : index < items.length
  · rw [List.getElem?_append_left hlt] at h
    exact .inl h
  · rw [List.getElem?_append_right (by omega), List.getElem?_singleton] at h
    split at h
    · exact .inr ⟨by omega, (Option.some.inj h).symm⟩
    · cases h

omit [Ipnet] in
theorem countP_set_of_some {α : Type} {p : α → Bool} {items : List α} {index : Nat} {old : α}
    (h : items[index]? = some old) (new : α) :
    (items.set index new).countP p + (if p old then 1 else 0) =
      items.countP p + if p new then 1 else 0 := by
  induction items generalizing index with
  | nil => simp at h
  | cons item items ih =>
      cases index with
      | zero =>
          simp only [List.getElem?_cons_zero, Option.some.injEq] at h
          rw [List.set_cons_zero, List.countP_cons, List.countP_cons, h]
          omega
      | succ index =>
          simp only [List.getElem?_cons_succ] at h
          have hrest := ih h
          rw [List.set_cons_succ, List.countP_cons, List.countP_cons]
          omega

/-- The conditions under which a task may be resumed into a phase. -/
structure Resumable (task : Task) (handler : Handler) (phase : Phase) (published : Catalog) :
    Prop where
  running : task.phase.succeeded = false
  locks : phase.holdsLock = true →
    (task.phase.holdsLock = true ∨ handler.lock = none) ∧
      task.expectedRevision = handler.published.revision ∧
      ∀ catalog, phase.catalog? = some catalog → task.Applies handler.published catalog
  installs : phase.succeeded = true → task.phase.holdsLock = true ∧
    published.revision = task.expectedRevision + 1 ∧
    task.expectedRevision = handler.published.revision
  keeps : phase.succeeded = false → published = handler.published

theorem Phase.succeeded_of_inProgress {phase : Phase} (h : phase.inProgress = true) :
    phase.succeeded = false := by
  cases phase <;> first | rfl | cases h

theorem Phase.succeeded_of_holdsLock {phase : Phase} (h : phase.holdsLock = true) :
    phase.succeeded = false := by
  cases phase <;> first | rfl | cases h

theorem Cluster.LockInv.exists_handler {cluster : Cluster} (inv : cluster.LockInv)
    {index : Nat} {task : Task} (htask : cluster.tasks[index]? = some task) :
    ∃ handler, cluster.handlers[task.handler]? = some handler :=
  ⟨_, List.getElem?_eq_getElem (inv.handler index task htask)⟩

theorem Cluster.LockInv.exclusive {cluster : Cluster} (inv : cluster.LockInv)
    {index other : Nat} {task task' : Task} (htask : cluster.tasks[index]? = some task)
    (htask' : cluster.tasks[other]? = some task') (hsame : task.handler = task'.handler)
    (hlocked : task.phase.holdsLock = true) (hlocked' : task'.phase.holdsLock = true) :
    index = other := by
  obtain ⟨handler, hhandler⟩ := inv.exists_handler htask
  have hlock := (inv.holder index task handler htask hhandler hlocked).lock
  have hlock' := (inv.holder other task' handler htask' (hsame ▸ hhandler) hlocked').lock
  rw [hlock, Option.some.injEq] at hlock'
  exact hlock'

section
variable {cluster : Cluster} {index : Nat} {task : Task} {handler : Handler} {phase : Phase}
  {published : Catalog}

theorem Resumable.published_ge (hresume : Resumable task handler phase published) :
    handler.published.revision ≤ published.revision := by
  cases hsucceeded : phase.succeeded with
  | true =>
      obtain ⟨-, hnext, hcurrent⟩ := hresume.installs hsucceeded
      omega
  | false => rw [hresume.keeps hsucceeded]

/-- Another task under the same lock keeps this one outside. -/
theorem Resumable.outside (inv : cluster.LockInv)
    (hresume : Resumable task handler phase published)
    (htask : cluster.tasks[index]? = some task)
    (hhandler : cluster.handlers[task.handler]? = some handler) {other : Nat} {task' : Task}
    (hne : other ≠ index) (htask' : cluster.tasks[other]? = some task')
    (hsame : task'.handler = task.handler) (hlocked : task'.phase.holdsLock = true) :
    phase.holdsLock = false ∧ published = handler.published := by
  have hlock := (inv.holder other task' handler htask' (hsame ▸ hhandler) hlocked).lock
  have hfree : task.phase.holdsLock = false := by
    rw [Bool.eq_false_iff]
    intro h
    exact hne (inv.exclusive htask' htask hsame hlocked h)
  constructor
  · rw [Bool.eq_false_iff]
    intro h
    cases (hresume.locks h).1 with
    | inl hholds => simp [hfree] at hholds
    | inr hnone => simp [hnone] at hlock
  · apply hresume.keeps
    rw [Bool.eq_false_iff]
    intro h
    have hholds := (hresume.installs h).1
    simp [hfree] at hholds

theorem resume_tasks (htask : cluster.tasks[index]? = some task) (other : Nat) :
    (cluster.resume index task handler phase published).tasks[other]? =
      if other = index then some { task with phase } else cluster.tasks[other]? :=
  getElem?_set_of_some htask _ other

theorem resume_handlers (hhandler : cluster.handlers[task.handler]? = some handler)
    (number : Nat) :
    (cluster.resume index task handler phase published).handlers[number]? =
      if number = task.handler then
        some { handler with published, lock := relock index phase handler.lock }
      else cluster.handlers[number]? :=
  getElem?_set_of_some hhandler _ number

variable (inv : cluster.LockInv) (htask : cluster.tasks[index]? = some task)
  (hhandler : cluster.handlers[task.handler]? = some handler)
  (hresume : Resumable task handler phase published)
include inv htask hhandler hresume

theorem resume_holder (other : Nat) (task' : Task) (handler' : Handler)
    (htask' : (cluster.resume index task handler phase published).tasks[other]? = some task')
    (hhandler' : (cluster.resume index task handler phase published).handlers[task'.handler]? =
      some handler')
    (hlocked : task'.phase.holdsLock = true) : task'.Holds other handler' := by
  rw [resume_tasks htask] at htask'
  rw [resume_handlers hhandler] at hhandler'
  by_cases hother : other = index
  · rw [if_pos hother, Option.some.injEq] at htask'
    subst htask'
    rw [if_pos rfl, Option.some.injEq] at hhandler'
    subst hhandler'
    obtain ⟨-, hcurrent, hreplacement⟩ := hresume.locks hlocked
    have hsame := hresume.keeps (Phase.succeeded_of_holdsLock hlocked)
    subst hsame
    refine ⟨?_, hcurrent, hreplacement⟩
    change phase.holdsLock = true at hlocked
    simp [relock, hlocked, hother]
  · rw [if_neg hother] at htask'
    by_cases hsame : task'.handler = task.handler
    · rw [if_pos hsame, Option.some.injEq] at hhandler'
      obtain ⟨hfree, hpublished⟩ := hresume.outside inv htask hhandler hother htask' hsame hlocked
      have hholds := inv.holder other task' handler htask' (hsame ▸ hhandler) hlocked
      subst hhandler' hpublished
      refine ⟨?_, hholds.current, hholds.replacement⟩
      simp [relock, hfree, hholds.lock, hother]
    · rw [if_neg hsame] at hhandler'
      exact inv.holder other task' handler' htask' hhandler' hlocked

omit hresume in
theorem resume_held (number : Nat) (handler' : Handler) (holder : Nat)
    (hhandler' : (cluster.resume index task handler phase published).handlers[number]? =
      some handler') (hlock : handler'.lock = some holder) :
    ∃ task' : Task,
      (cluster.resume index task handler phase published).tasks[holder]? = some task' ∧
        task'.handler = number ∧ task'.phase.holdsLock = true := by
  rw [resume_handlers hhandler] at hhandler'
  rw [resume_tasks htask]
  by_cases hnumber : number = task.handler
  · rw [if_pos hnumber, Option.some.injEq] at hhandler'
    subst hhandler'
    simp only [relock] at hlock
    split at hlock
    · rename_i hlocked
      cases hlock
      exact ⟨{ task with phase }, if_pos rfl, hnumber.symm, hlocked⟩
    · split at hlock
      · cases hlock
      · rename_i hothers
        have hne : holder ≠ index := by
          intro hsame
          exact hothers (hsame ▸ hlock)
        rw [if_neg hne, hnumber]
        exact inv.held task.handler handler holder hhandler hlock
  · rw [if_neg hnumber] at hhandler'
    obtain ⟨task', htask', hnumber', hlocked⟩ := inv.held number handler' holder hhandler' hlock
    have hne : holder ≠ index := by
      intro hsame
      rw [hsame, htask, Option.some.injEq] at htask'
      exact hnumber (by rw [← hnumber', htask'])
    rw [if_neg hne]
    exact ⟨task', htask', hnumber', hlocked⟩

theorem resume_revision (number : Nat) (handler' : Handler)
    (hhandler' : (cluster.resume index task handler phase published).handlers[number]? =
      some handler') :
    handler'.published.revision = handler'.opened +
      (cluster.resume index task handler phase published).tasks.countP
        (Task.succeededOn number) := by
  rw [resume_handlers hhandler] at hhandler'
  have hcount := countP_set_of_some (p := Task.succeededOn number) htask { task with phase }
  have hbefore : Task.succeededOn number task = false := by
    simp [Task.succeededOn, hresume.running]
  rw [if_neg (by simp [hbefore])] at hcount
  change handler'.published.revision = handler'.opened +
    (cluster.tasks.set index { task with phase }).countP (Task.succeededOn number)
  by_cases hnumber : number = task.handler
  · rw [if_pos hnumber, Option.some.injEq] at hhandler'
    subst hhandler'
    have hrevision := inv.revision task.handler handler hhandler
    rw [← hnumber] at hrevision
    have hafter : Task.succeededOn number { task with phase } = phase.succeeded := by
      simp [Task.succeededOn, hnumber]
    rw [hafter] at hcount
    cases hsucceeded : phase.succeeded with
    | true =>
        obtain ⟨-, hnext, hcurrent⟩ := hresume.installs hsucceeded
        rw [hsucceeded, if_pos rfl] at hcount
        dsimp only
        omega
    | false =>
        rw [hsucceeded, if_neg (by simp)] at hcount
        rw [hresume.keeps hsucceeded]
        dsimp only
        omega
  · rw [if_neg hnumber] at hhandler'
    have hafter : Task.succeededOn number { task with phase } = false := by
      simp [Task.succeededOn, Ne.symm hnumber]
    rw [if_neg (by simp [hafter])] at hcount
    rw [inv.revision number handler' hhandler']
    omega

theorem resume_succeeded (other : Nat) (task' : Task) (handler' : Handler)
    (htask' : (cluster.resume index task handler phase published).tasks[other]? = some task')
    (hhandler' : (cluster.resume index task handler phase published).handlers[task'.handler]? =
      some handler') (hsucceeded : task'.phase.succeeded = true) :
    task'.expectedRevision < handler'.published.revision := by
  rw [resume_tasks htask] at htask'
  rw [resume_handlers hhandler] at hhandler'
  by_cases hother : other = index
  · rw [if_pos hother, Option.some.injEq] at htask'
    subst htask'
    rw [if_pos rfl, Option.some.injEq] at hhandler'
    subst hhandler'
    obtain ⟨-, hnext, -⟩ := hresume.installs hsucceeded
    dsimp only
    omega
  · rw [if_neg hother] at htask'
    by_cases hsame : task'.handler = task.handler
    · rw [if_pos hsame, Option.some.injEq] at hhandler'
      have hbelow := inv.succeeded other task' handler htask' (hsame ▸ hhandler) hsucceeded
      have hge := hresume.published_ge
      subst hhandler'
      dsimp only
      omega
    · rw [if_neg hsame] at hhandler'
      exact inv.succeeded other task' handler' htask' hhandler' hsucceeded

omit htask in
/-- A task that succeeds now carried the current revision, above all earlier ones. -/
theorem resume_fresh (other : Nat) (task' : Task) (htask' : cluster.tasks[other]? = some task')
    (hsame : task'.handler = task.handler) (hsucceeded : task'.phase.succeeded = true)
    (hphase : phase.succeeded = true) : task'.expectedRevision < task.expectedRevision := by
  obtain ⟨-, -, hcurrent⟩ := hresume.installs hphase
  rw [hcurrent]
  exact inv.succeeded other task' handler htask' (hsame ▸ hhandler) hsucceeded

theorem Cluster.LockInv.resume :
    (cluster.resume index task handler phase published).LockInv where
  handler other task' htask' := by
    rw [resume_tasks htask] at htask'
    have hlength : (cluster.resume index task handler phase published).handlers.length =
        cluster.handlers.length := List.length_set
    rw [hlength]
    by_cases hother : other = index
    · rw [if_pos hother, Option.some.injEq] at htask'
      subst htask'
      exact inv.handler index task htask
    · rw [if_neg hother] at htask'
      exact inv.handler other task' htask'
  holder := resume_holder inv htask hhandler hresume
  held := resume_held inv htask hhandler
  revision := resume_revision inv htask hhandler hresume
  succeeded := resume_succeeded inv htask hhandler hresume
  distinct first second task₁ task₂ hne htask₁ htask₂ hsame hsucceeded₁ hsucceeded₂ := by
    rw [resume_tasks htask] at htask₁ htask₂
    by_cases hfirst : first = index
    · rw [if_pos hfirst, Option.some.injEq] at htask₁
      rw [if_neg (by rw [← hfirst]; exact hne.symm)] at htask₂
      subst htask₁
      have hfresh := resume_fresh inv hhandler hresume second task₂ htask₂ hsame.symm
        hsucceeded₂ hsucceeded₁
      dsimp only
      omega
    · rw [if_neg hfirst] at htask₁
      by_cases hsecond : second = index
      · rw [if_pos hsecond, Option.some.injEq] at htask₂
        subst htask₂
        have hfresh := resume_fresh inv hhandler hresume first task₁ htask₁ hsame
          hsucceeded₁ hsucceeded₂
        dsimp only
        omega
      · rw [if_neg hsecond] at htask₂
        exact inv.distinct first second task₁ task₂ hne htask₁ htask₂ hsame hsucceeded₁
          hsucceeded₂

end

theorem Moves.resumable {cluster : Cluster} {index : Nat} {task : Task} {handler : Handler}
    {phase : Phase} {published : Catalog} {stored stored' : Content} (inv : cluster.LockInv)
    (htask : cluster.tasks[index]? = some task)
    (hhandler : cluster.handlers[task.handler]? = some handler)
    (h : Moves task handler stored phase published stored') :
    Resumable task handler phase published := by
  have hholds := inv.holder index task handler htask hhandler
  cases h with
  | wait phase hfree hprogress hwaits hnot =>
      refine ⟨Phase.succeeded_of_inProgress hprogress, ?_, ?_, fun _ => rfl⟩
      · intro hlocks
        simp [hwaits] at hlocks
      · intro hsucceeds
        simp [hnot] at hsucceeds
  | acquire phase hphase hlock hcurrent hprepares =>
      refine ⟨by rw [hphase]; rfl, fun _ => ⟨.inr hlock, hcurrent, hprepares.replacement⟩, ?_,
        fun _ => rfl⟩
      intro hsucceeds
      simp [Phase.succeeded_of_holdsLock hprepares.holdsLock] at hsucceeds
  | hold phase hlocked hnot hlocks hbefore hcatalog =>
      refine ⟨Phase.succeeded_of_holdsLock hlocked, ?_, ?_, fun _ => rfl⟩
      · intro _
        refine ⟨.inl hlocked, (hholds hlocked).current, ?_⟩
        intro catalog hprepared
        cases hcatalog catalog hprepared with
        | inl hsame => exact (hholds hlocked).replacement catalog hsame
        | inr hnext => exact hnext
      · intro hsucceeds
        simp [Phase.succeeded_of_holdsLock hlocks] at hsucceeds
  | fail error hlocked hnot =>
      refine ⟨Phase.succeeded_of_holdsLock hlocked, ?_, ?_, fun _ => rfl⟩
      · intro hlocks
        cases hlocks
      · intro hsucceeds
        cases hsucceeds
  | commit catalog hphase =>
      have hlocked : task.phase.holdsLock = true := by rw [hphase]; rfl
      refine ⟨Phase.succeeded_of_holdsLock hlocked, ?_, ?_, fun _ => rfl⟩
      · intro _
        refine ⟨.inl hlocked, (hholds hlocked).current, ?_⟩
        intro prepared hprepared
        exact (hholds hlocked).replacement prepared (by rw [hphase]; exact hprepared)
      · intro hsucceeds
        cases hsucceeds
  | install catalog hphase =>
      have hlocked : task.phase.holdsLock = true := by rw [hphase]; rfl
      refine ⟨Phase.succeeded_of_holdsLock hlocked, ?_, ?_, ?_⟩
      · intro hlocks
        cases hlocks
      · intro _
        exact ⟨hlocked, ((hholds hlocked).replacement _ (by rw [hphase]; rfl)).revision,
          (hholds hlocked).current⟩
      · intro hnot
        cases hnot

theorem resumable_cancelled {task : Task} {handler : Handler}
    (hprogress : task.phase.inProgress = true) :
    Resumable task handler .cancelled handler.published where
  running := Phase.succeeded_of_inProgress hprogress
  locks h := by cases h
  installs h := by cases h
  keeps _ := rfl

theorem Cluster.LockInv.request {cluster : Cluster} (inv : cluster.LockInv)
    {handler : Nat} (hhandler : handler < cluster.handlers.length) (expectedRevision : Nat)
    (mutation : Mutation) :
    Cluster.LockInv { cluster with
      tasks := cluster.tasks ++ [⟨handler, expectedRevision, mutation, .entered⟩] } := by
  refine ⟨?_, ?_, ?_, ?_, ?_, ?_⟩
  · intro index task htask
    cases getElem?_append_singleton htask with
    | inl h => exact inv.handler index task h
    | inr h => rw [h.2]; exact hhandler
  · intro index task holder htask hholder hlocked
    cases getElem?_append_singleton htask with
    | inl h => exact inv.holder index task holder h hholder hlocked
    | inr h => rw [h.2] at hlocked; cases hlocked
  · intro number holder index hholder hlock
    obtain ⟨task, htask, hnumber, hlocked⟩ := inv.held number holder index hholder hlock
    have hlt := (List.getElem?_eq_some_iff.mp htask).1
    exact ⟨task, by rw [List.getElem?_append_left hlt]; exact htask, hnumber, hlocked⟩
  · intro number holder hholder
    rw [inv.revision number holder hholder, List.countP_append]
    simp [Task.succeededOn, Phase.succeeded]
  · intro index task holder htask hholder hsucceeded
    cases getElem?_append_singleton htask with
    | inl h => exact inv.succeeded index task holder h hholder hsucceeded
    | inr h => rw [h.2] at hsucceeded; cases hsucceeded
  · intro index other task task' hne htask htask' hsame hsucceeded hsucceeded'
    cases getElem?_append_singleton htask with
    | inr h => rw [h.2] at hsucceeded; cases hsucceeded
    | inl h =>
        cases getElem?_append_singleton htask' with
        | inr h' => rw [h'.2] at hsucceeded'; cases hsucceeded'
        | inl h' =>
            exact inv.distinct index other task task' hne h h' hsame hsucceeded hsucceeded'

/-- A handler that is opened starts unlocked, and no request has reached it yet. -/
theorem Cluster.LockInv.withHandler {cluster : Cluster} (inv : cluster.LockInv)
    (catalog : Catalog) : (cluster.withHandler catalog).LockInv := by
  have htasks : ∀ (index : Nat) (task : Task) (handler : Handler),
      cluster.tasks[index]? = some task →
      (cluster.withHandler catalog).handlers[task.handler]? = some handler →
      cluster.handlers[task.handler]? = some handler := by
    intro index task handler htask hhandler
    cases getElem?_append_singleton hhandler with
    | inl h => exact h
    | inr h =>
        have hlt := inv.handler index task htask
        omega
  refine ⟨?_, ?_, ?_, ?_, ?_, inv.distinct⟩
  · intro index task htask
    have hlt := inv.handler index task htask
    simp only [Cluster.withHandler, List.length_append, List.length_singleton]
    omega
  · intro index task handler htask hhandler
    exact inv.holder index task handler htask (htasks index task handler htask hhandler)
  · intro number handler index hhandler hlock
    cases getElem?_append_singleton hhandler with
    | inl h => exact inv.held number handler index h hlock
    | inr h => rw [h.2] at hlock; cases hlock
  · intro number handler hhandler
    cases getElem?_append_singleton hhandler with
    | inl h => exact inv.revision number handler h
    | inr h =>
        have hnone : cluster.tasks.countP (Task.succeededOn number) = 0 := by
          rw [List.countP_eq_zero]
          intro task hmem
          obtain ⟨index, htask⟩ := List.mem_iff_getElem?.mp hmem
          have hlt := inv.handler index task htask
          have hne : task.handler ≠ number := by omega
          simp [Task.succeededOn, hne]
        change _ = _ + cluster.tasks.countP (Task.succeededOn number)
        rw [hnone, h.2]
        rfl
  · intro index task handler htask hhandler
    exact inv.succeeded index task handler htask (htasks index task handler htask hhandler)

/-- Stored content and pending commits play no part in the locks. -/
theorem Cluster.LockInv.restore {cluster : Cluster} (inv : cluster.LockInv) (stored : Content)
    (orphans : List Content) : Cluster.LockInv { cluster with stored, orphans } :=
  ⟨inv.handler, inv.holder, inv.held, inv.revision, inv.succeeded, inv.distinct⟩

theorem Cluster.LockInv.step {cluster next : Cluster} {event : Event} (inv : cluster.LockInv)
    (h : cluster.step event = some next) : next.LockInv := by
  cases Cluster.step_steps h with
  | request handler expectedRevision mutation hhandler =>
      exact inv.request hhandler expectedRevision mutation
  | advance index reply task handler phase published stored htask hhandler hmoves =>
      exact (Cluster.LockInv.resume inv htask hhandler
        (hmoves.resumable inv htask hhandler)).restore stored _
  | drop index task handler orphans htask hhandler hprogress =>
      exact (Cluster.LockInv.resume inv htask hhandler
        (resumable_cancelled hprogress)).restore _ orphans
  | settle index applied content orphans => exact inv.restore _ orphans
  | failedOpen => exact inv
  | openHandler bootstrap stored catalog hcontent => exact inv.withHandler catalog

theorem Cluster.lockInv_start (stored : Content) : (Cluster.start stored).LockInv := by
  refine ⟨?_, ?_, ?_, ?_, ?_, ?_⟩ <;> intros <;> simp_all [Cluster.start]

/-- In every state of every run. -/
theorem Cluster.LockInv.run {cluster final : Cluster} {events : List Event}
    (inv : cluster.LockInv) (h : Runs.run Cluster.step cluster events = some final) :
    final.LockInv :=
  run_invariant_of_step Cluster.LockInv (fun _ _ _ hinv hstep => hinv.step hstep) h inv

end

end Authguard
