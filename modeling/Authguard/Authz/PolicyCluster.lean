import Authguard.Library.Runs
import Authguard.Authz.PolicyHandler

/-!
Policy handlers over one shared repository, as a machine. A request is a task that
moves from one await point to the next; between two await points it runs alone.
The environment answers what a task awaits, drops tasks (the router wraps every
handler in a timeout), lets a commit that was issued before its task was dropped
complete or fail, and opens further handlers on the same repository.

The write lock of a handler is held exactly while its guard is in scope, so the
phase a task moves to decides whether the lock is kept. Replacing the stored
catalog is atomic: a commit applies all of it, or reports an error and nothing
happened.
-/

namespace Authguard
open Result

variable [Ipnet]

/-- Where a task waits. -/
inductive Phase
  | entered
  | awaitingPrincipal (id : String)
  | awaitingLock
  /-- `replace` looks up the principals of its bindings. -/
  | awaitingBindingPrincipals (pending : List String)
  /-- Inside the transaction of `repository.replace`. -/
  | replacing (catalog : Catalog)
  /-- COMMIT was issued. -/
  | committing (catalog : Catalog)
  /-- The commit took effect, and the catalog is not yet installed. -/
  | committed (catalog : Catalog)
  | finished (result : Except PolicyHandlerError IamPolicyInfo)
  | cancelled

def Phase.holdsLock : Phase → Bool
  | .awaitingBindingPrincipals _ | .replacing _ | .committing _ | .committed _ => true
  | _ => false

def Phase.inProgress : Phase → Bool
  | .finished _ | .cancelled => false
  | _ => true

/-- What the environment answers to the task it resumes. -/
inductive Reply
  | ready
  | lookup (result : Except String (Option PrincipalStatus))
  | stored (result : Except String Unit)

structure Task where
  handler : Nat
  expectedRevision : Nat
  mutation : Mutation
  phase : Phase

/-- One `PolicyHandler`: its runtime catalog and the holder of its write lock. -/
structure Handler where
  published : Catalog
  lock : Option Nat
  /-- The revision it was opened with. -/
  opened : Nat

structure Cluster where
  stored : Content
  handlers : List Handler
  tasks : List Task
  /-- Commits issued by tasks that were dropped while awaiting them. -/
  orphans : List Content

def Phase.ofError (error : PolicyHandlerError) : Phase := .finished (.error error)

/-- The transaction starts once the replacement is compiled. -/
def persistAndPublish (expectedRevision : Nat) (policy : IamPolicyInfo) : Phase :=
  match prepareReplacement expectedRevision policy with
  | .error error => .ofError error
  | .ok catalog => .replacing catalog

/-- The mutation was applied to a copy of the published policy. -/
def persistApplied (expectedRevision : Nat) :
    Except PolicyHandlerError IamPolicyInfo → Phase
  | .error error => .ofError error
  | .ok policy => persistAndPublish expectedRevision policy

def Task.enter (task : Task) : Phase :=
  match task.mutation.precheck task.expectedRevision with
  | .error error => .ofError error
  | .ok () =>
      match task.mutation.principalId with
      | some id => .awaitingPrincipal id
      | none => .awaitingLock

/-- The write lock was just taken. -/
def Task.locked (task : Task) (published : Catalog) : Phase :=
  match requireRevision published task.expectedRevision with
  | .error error => .ofError error
  | .ok current =>
      match task.mutation.bindingPrincipals with
      | id :: rest => .awaitingBindingPrincipals (id :: rest)
      | [] => persistApplied task.expectedRevision (task.mutation.apply current)

/-- `require_active_binding_principals` goes on with the next principal. -/
def Task.lookedUp (task : Task) (published : Catalog) (id : String) (rest : List String)
    (result : Except String (Option PrincipalStatus)) : Phase :=
  match requireActivePrincipal id result with
  | .error error => .ofError error
  | .ok () =>
      if rest = [] then
        persistApplied task.expectedRevision (task.mutation.apply published.policy)
      else
        .awaitingBindingPrincipals rest

/-- From one await point to the next: the phase reached, the catalog the handler publishes
afterwards, and the content of the repository. -/
def Task.advance (task : Task) (handler : Handler) (stored : Content) (reply : Reply) :
    Option (Phase × Catalog × Content) :=
  match task.phase, reply with
  | .entered, .ready => some (task.enter, handler.published, stored)
  | .awaitingPrincipal id, .lookup result =>
      match requireActivePrincipal id result with
      | .error error => some (.ofError error, handler.published, stored)
      | .ok () => some (.awaitingLock, handler.published, stored)
  | .awaitingLock, .ready =>
      if handler.lock.isNone then
        some (task.locked handler.published, handler.published, stored)
      else
        none
  | .awaitingBindingPrincipals (id :: rest), .lookup result =>
      some (task.lookedUp handler.published id rest result, handler.published, stored)
  | .replacing _, .stored (.error message) | .committing _, .stored (.error message) =>
      some (.ofError (.storage message), handler.published, stored)
  | .replacing catalog, .stored (.ok ()) =>
      some (.committing catalog, handler.published, stored)
  | .committing catalog, .stored (.ok ()) =>
      some (.committed catalog, handler.published, catalog.content)
  | .committed catalog, .ready => some (.finished (.ok catalog.policy), catalog, stored)
  | _, _ => none

/-- The guard of task `self` is alive exactly in the phases that hold the lock. -/
def relock (self : Nat) (phase : Phase) (lock : Option Nat) : Option Nat :=
  if phase.holdsLock then some self
  else if lock = some self then none
  else lock

inductive Event
  | request (handler expectedRevision : Nat) (mutation : Mutation)
  | advance (task : Nat) (reply : Reply)
  | drop (task : Nat)
  /-- The fate of a commit whose task was dropped. -/
  | settle (orphan : Nat) (applied : Bool)
  /-- A new handler; `stored` answers the storing of a bootstrap policy. -/
  | openHandler (bootstrap : Option IamPolicyInfo) (stored : Except String Unit)

def Cluster.resume (cluster : Cluster) (index : Nat) (task : Task) (handler : Handler)
    (phase : Phase) (published : Catalog) : Cluster :=
  { cluster with
    tasks := cluster.tasks.set index { task with phase }
    handlers := cluster.handlers.set task.handler
      { handler with published, lock := relock index phase handler.lock } }

/-- A failed `open` leaves no handler behind. -/
def Cluster.openHandler (cluster : Cluster) (bootstrap : Option IamPolicyInfo)
    (stored : Except String Unit) : Cluster :=
  match Authguard.openHandler cluster.stored bootstrap with
  | .error _ => cluster
  | .ok (catalog, bootstrapped) =>
      let handlers := cluster.handlers ++ [⟨catalog, none, catalog.revision⟩]
      if bootstrapped then
        match stored with
        | .error _ => cluster
        | .ok () => { cluster with stored := catalog.content, handlers }
      else
        { cluster with handlers }

def Cluster.step (cluster : Cluster) : Event → Option Cluster
  | .request handler expectedRevision mutation =>
      if handler < cluster.handlers.length then
        some { cluster with
          tasks := cluster.tasks ++ [⟨handler, expectedRevision, mutation, .entered⟩] }
      else
        none
  | .advance index reply => do
      let task ← cluster.tasks[index]?
      let handler ← cluster.handlers[task.handler]?
      let (phase, published, stored) ← task.advance handler cluster.stored reply
      some { cluster.resume index task handler phase published with stored }
  | .drop index => do
      let task ← cluster.tasks[index]?
      let handler ← cluster.handlers[task.handler]?
      if task.phase.inProgress then
        let dropped := cluster.resume index task handler .cancelled handler.published
        match task.phase with
        | .committing catalog =>
            some { dropped with orphans := dropped.orphans ++ [catalog.content] }
        | _ => some dropped
      else
        none
  | .settle index applied => do
      let content ← cluster.orphans[index]?
      some { cluster with
        orphans := cluster.orphans.eraseIdx index
        stored := if applied then content else cluster.stored }
  | .openHandler bootstrap stored => some (cluster.openHandler bootstrap stored)

/-- A repository before any handler is opened on it. -/
def Cluster.start (stored : Content) : Cluster := ⟨stored, [], [], []⟩

end Authguard
