import Authguard.Authz.ScimProvisioning

/-!
SCIM deletions among concurrent provisioning requests. A deletion marks the
principal; the upsert of a create, PUT or PATCH writes the whole row, mark
included. As long as no such upsert meets a marked row, no request undoes a
deletion, in any interleaving.
-/

namespace Authguard
open Program

/-- Disabled, and marked as deleted. -/
def Deprovisioned (db : IamDatabase) (principalId : String) : Prop :=
  ∃ row, db.principals.find principalId = some row ∧ row.status = .disabled ∧ row.scimDeleted

/-- The call does not overwrite the row of the principal while it is marked. -/
def SparesDeleted (target : String) : PrincipalCall → IamDatabase → Prop
  | .upsertWithIdentity principal _, db =>
      principal.id = target → ∀ row, db.principals.find target = some row →
        row.scimDeleted = false
  | _, _ => True

instance (target : String) : ∀ call db, Decidable (SparesDeleted target call db)
  | .upsertWithIdentity principal _, db =>
      inferInstanceAs (Decidable (principal.id = target → ∀ row, db.principals.find target =
        some row → row.scimDeleted = false))
  | .get _, _ | .findByIdentity _, _ | .getIdentity _ _, _ | .upsert _, _ => isTrue trivial

/-- The principal is not lost, and not provisioned again. -/
structure KeepsDeleted (target : String) (db after : IamDatabase) : Prop where
  stored : (db.principals.find target).isSome → (after.principals.find target).isSome
  deleted : Deprovisioned db target → Deprovisioned after target

instance (target : String) : Std.Refl (KeepsDeleted target) := ⟨fun _ => ⟨id, id⟩⟩

instance (target : String) : IsTrans IamDatabase (KeepsDeleted target) :=
  ⟨fun _ _ _ h h' => ⟨fun hstored => h'.stored (h.stored hstored),
    fun hdeleted => h'.deleted (h.deleted hdeleted)⟩⟩

variable {target : String}

/-! The calls. -/

section
variable {db after : IamDatabase}

/-- A written row is stored; it must not provision the deleted principal again. -/
theorem keepsDeleted_upsert {row : PrincipalRow}
    (hafter : after.principals = db.principals.upsert row)
    (h : row.id = target → Deprovisioned db target → row.status = .disabled ∧ row.scimDeleted) :
    KeepsDeleted target db after := by
  have hfind : after.principals.find target =
      if target = row.id then some row else db.principals.find target := by
    rw [hafter]
    exact Table.find_upsert db.principals row target
  by_cases hrow : target = row.id
  · rw [if_pos hrow] at hfind
    constructor
    · intro _
      rw [hfind]
      rfl
    · intro hdeleted
      exact ⟨row, hfind, h hrow.symm hdeleted⟩
  · rw [if_neg hrow] at hfind
    constructor
    · intro hstored
      rw [hfind]
      exact hstored
    · rintro ⟨stored, hstored, hrest⟩
      exact ⟨stored, hfind.trans hstored, hrest⟩

end

/-- The program keeps the principal deleted. -/
abbrev MeetsDeleted (target : String) {β : Type} (post : β → IamDatabase → Prop)
    (program : ScimProgram β) (db : IamDatabase) : Prop :=
  Program.Meets (Pool.Answers PrincipalCall.exec (SparesDeleted target)) (KeepsDeleted target)
    post program db

/-- The program keeps the principal deleted, wherever it starts. -/
def Harmless (target : String) {β : Type} (program : ScimProgram β) : Prop :=
  ∀ db, MeetsDeleted target (fun _ _ => True) program db

section
variable {β γ : Type}

theorem harmless_ok (result : β) : Harmless target (.ok result) :=
  fun _ => meets_ok fun _ _ => trivial

theorem harmless_fail (error : PrincipalHandlerError) :
    Harmless target (.fail error : ScimProgram β) :=
  fun db => meets_fail error db

theorem Harmless.bind {program : ScimProgram β} {next : β → ScimProgram γ}
    (h : Harmless target program) (hnext : ∀ result, Harmless target (next result)) :
    Harmless target (program >>= next) :=
  fun db => (h db).bind fun result store _ => hnext result store

theorem harmless_discover (found : Except PrincipalDiscoveryError β) :
    Harmless target (ScimProgram.discover found) := by
  cases found with
  | ok value => exact harmless_ok value
  | error error => exact harmless_fail _

theorem harmless_stored (answer : Except String β) :
    Harmless target (PrincipalHandler.stored answer) := by
  cases answer with
  | ok value => exact harmless_ok value
  | error message => exact harmless_fail _

/-- A program that keeps the principal stored and deleted may say so where it ends. -/
theorem Harmless.stored {program : ScimProgram β} (h : Harmless target program)
    {db : IamDatabase} (hstored : (db.principals.find target).isSome) :
    MeetsDeleted target (fun _ last => (last.principals.find target).isSome) program db :=
  (h db).preserves (fun _ _ hkeeps => hkeeps.stored) hstored

theorem Harmless.deleted {program : ScimProgram β} (h : Harmless target program)
    {db : IamDatabase} (hdeleted : Deprovisioned db target) :
    MeetsDeleted target (fun _ last => Deprovisioned last target) program db :=
  (h db).preserves (fun _ _ hkeeps => hkeeps.deleted) hdeleted

end

namespace PrincipalHandler

theorem meets_get {id : String} {post : Option PrincipalRow → IamDatabase → Prop}
    {db : IamDatabase} (h : ∀ later last, KeepsDeleted target db later →
      KeepsDeleted target later last → post (later.principals.find id) last) :
    MeetsDeleted target post (get id) db := by
  intro later hlater answer after hanswers
  obtain ⟨-, outcome, hexec⟩ := hanswers
  obtain ⟨rfl, rfl | ⟨error, rfl⟩⟩ := readCall_cases (Option.some.inj hexec)
  · exact ⟨refl_of (KeepsDeleted target) after, meets_ok fun last => h after last hlater⟩
  · exact ⟨refl_of (KeepsDeleted target) after, meets_fail _ after⟩

theorem harmless_get (id : String) : Harmless target (get id) :=
  fun _ => meets_get fun _ _ _ _ => trivial

theorem harmless_findByIdentity (key : ExternalIdentityKey) :
    Harmless target (findByIdentity key) := by
  intro db later hlater answer after hanswers
  obtain ⟨-, outcome, hexec⟩ := hanswers
  obtain ⟨rfl, -⟩ := readCall_cases (Option.some.inj hexec)
  exact ⟨refl_of (KeepsDeleted target) after, harmless_stored answer after⟩

theorem harmless_getIdentity (principalId provider : String) :
    Harmless target (getIdentity principalId provider) := by
  intro db later hlater answer after hanswers
  obtain ⟨-, outcome, hexec⟩ := hanswers
  have hsame : after = later := by
    cases outcome with
    | answered row =>
        obtain ⟨found, -, hfound⟩ := Option.map_eq_some_iff.mp hexec
        cases hfound
        rfl
    | failed message | lost message =>
        cases hexec
        rfl
  subst hsame
  exact ⟨refl_of (KeepsDeleted target) after, harmless_stored answer after⟩

theorem harmless_validatePrincipal (principal : PrincipalRow) :
    Harmless target (validatePrincipal principal) := by
  rw [validatePrincipal]
  split
  · exact harmless_fail _
  · exact harmless_ok ()

variable (handler : PrincipalHandler)

theorem harmless_readBack (principal : PrincipalRow) :
    Harmless target (handler.readBack principal) := by
  rw [readBack]
  split
  · exact harmless_ok principal
  · refine (harmless_get principal.id).bind ?_
    intro found
    cases found with
    | none => exact harmless_fail _
    | some row => exact harmless_ok row

/-- The upsert of a create, PUT or PATCH: it does not overwrite the marked row. -/
theorem harmless_upsertExternal (principalId : String) (projection : PrincipalProjection) :
    Harmless target (handler.upsertExternal principalId projection) := by
  rw [upsertExternal]
  refine (harmless_validatePrincipal _).bind fun _ => Harmless.bind ?_ fun _ =>
    handler.harmless_readBack _
  intro db later hlater answer after hanswers
  obtain ⟨hspares, outcome, hexec⟩ := hanswers
  have hkeeps : KeepsDeleted target later after := by
    obtain ⟨rfl, -⟩ | ⟨_, hwritten, -⟩ := writeCall_cases (Option.some.inj hexec)
    · exact refl_of (KeepsDeleted target) after
    · refine keepsDeleted_upsert (IamDatabase.upsertWithIdentity_eq_ok hwritten).1 ?_
      rintro htarget ⟨row, hrow, -, hmark⟩
      rw [hspares htarget row hrow] at hmark
      cases hmark
  refine ⟨hkeeps, ?_⟩
  rcases answer with (_ | message) | _
  · exact meets_fail _ after
  · exact meets_fail _ after
  · exact harmless_ok () after

/-- The upsert of a deletion: its principal is deprovisioned from then on. -/
theorem meets_upsert {principal : PrincipalRow} (hstatus : principal.status = .disabled)
    (hmark : principal.scimDeleted) (db : IamDatabase) :
    MeetsDeleted target (fun _ last => principal.id = target → Deprovisioned last target)
      (handler.upsert principal) db := by
  rw [upsert]
  refine (harmless_validatePrincipal principal db).bind fun _ valid _ => ?_
  have hwrite : MeetsDeleted target
      (fun _ last => principal.id = target → Deprovisioned last target)
      (.call (.upsert principal) handler.upserted) valid := by
    intro later hlater answer after hanswers
    obtain ⟨-, outcome, hexec⟩ := hanswers
    obtain ⟨rfl, error, rfl⟩ | ⟨_, hwritten, -⟩ := writeCall_cases (Option.some.inj hexec)
    · exact ⟨refl_of (KeepsDeleted target) after, meets_fail _ after⟩
    · have hafter := IamDatabase.upsert_principals hwritten
      refine ⟨keepsDeleted_upsert hafter fun _ _ => ⟨hstatus, hmark⟩, ?_⟩
      cases answer with
      | error message => exact meets_fail _ after
      | ok done =>
          refine meets_ok fun last hlast htarget => hlast.deleted ⟨principal, ?_, hstatus, hmark⟩
          rw [hafter, Table.find_upsert]
          exact if_pos htarget.symm
  refine hwrite.bind fun _ store hstore => ?_
  exact (handler.harmless_readBack principal store).preserves
    (fun _ _ hkeeps hdeleted htarget => hkeeps.deleted (hdeleted htarget)) hstore

theorem harmless_scimDiscovery : Harmless target handler.scimDiscovery := by
  rw [scimDiscovery]
  split
  · exact harmless_fail _
  · exact harmless_ok _

theorem harmless_adopt (discovery : ScimPrincipalDiscovery) (request : ScimProvisioningRequest) :
    Harmless target (adopt discovery request) := by
  rw [adopt]
  refine (harmless_discover _).bind fun identity =>
    (harmless_findByIdentity identity).bind fun found => ?_
  cases found with
  | none => exact harmless_ok request
  | some principal =>
      refine (harmless_getIdentity _ _).bind fun binding => ?_
      split
      · exact harmless_fail _
      · exact harmless_ok _

/-- A resource that was read belongs to a stored principal. -/
theorem meets_getScim (principalId : String) (kind : PrincipalKind) (db : IamDatabase) :
    MeetsDeleted target
      (fun _ last => principalId = target → (last.principals.find target).isSome)
      (handler.getScim principalId kind) db := by
  rw [getScim]
  refine (handler.harmless_scimDiscovery db).bind fun discovery store _ => ?_
  have hget : MeetsDeleted target
      (fun found last => found.isSome → principalId = target →
        (last.principals.find target).isSome) (get principalId) store := by
    refine meets_get fun later last _ hlast hfound htarget => hlast.stored ?_
    rwa [← htarget]
  refine hget.bind fun found last hfound => ?_
  cases found with
  | none => exact meets_fail _ last
  | some principal =>
      have hkeeps : ∀ store later, KeepsDeleted target store later →
          (principalId = target → (store.principals.find target).isSome) →
          principalId = target → (later.principals.find target).isSome :=
        fun _ _ hkeeps hstored htarget => hkeeps.stored (hstored htarget)
      dsimp only
      split
      · exact meets_fail _ last
      · have hread := (harmless_getIdentity principalId discovery.discoveryId last).preserves hkeeps
          (hfound rfl)
        refine hread.bind fun identity read hread => ?_
        cases identity with
        | none => exact meets_fail _ read
        | some identity => exact (harmless_discover _ read).preserves hkeeps hread

theorem harmless_getScim (principalId : String) (kind : PrincipalKind) :
    Harmless target (handler.getScim principalId kind) :=
  fun db => (handler.meets_getScim principalId kind db).preserves (fun _ _ _ h => h) trivial

/-- A deletion writes the row it read, disabled and marked. -/
theorem meets_delete {db : IamDatabase} (hstored : (db.principals.find target).isSome) :
    MeetsDeleted target (fun _ last => Deprovisioned last target)
      (handler.applyScimProjection (.delete target)) db := by
  rw [applyScimProjection]
  have hget : MeetsDeleted target (fun found _ => ∃ row, found = some row ∧ row.id = target)
      (get target) db := by
    refine meets_get fun later _ hlater _ => ?_
    obtain ⟨row, hrow⟩ := Option.isSome_iff_exists.mp (hlater.stored hstored)
    exact ⟨row, hrow, (Table.find_eq_some.mp hrow).2⟩
  refine hget.bind ?_
  rintro _ store ⟨row, rfl, htarget⟩
  refine (handler.meets_upsert rfl ?_ store).bind fun _ last hlast => meets_ok ?_
  · simp [PrincipalRow.scimDeleted, SortedMap.get_insert]
  · exact fun later hlater => hlater.deleted (hlast htarget)

theorem harmless_applyScimProjection (event : ScimProjectionEvent) :
    Harmless target (handler.applyScimProjection event) := by
  cases event with
  | upsert principalId projection =>
      exact (handler.harmless_upsertExternal principalId projection).bind fun _ => harmless_ok _
  | delete principalId =>
      rw [applyScimProjection]
      refine (harmless_get principalId).bind fun found => ?_
      cases found with
      | none => exact harmless_ok none
      | some row =>
          intro db
          refine (handler.meets_upsert rfl ?_ db).bind fun _ last _ => harmless_ok _ last
          simp [PrincipalRow.scimDeleted, SortedMap.get_insert]

theorem harmless_provisionScim (random : List UInt8) (request : ScimProvisioningRequest) :
    Harmless target (handler.provisionScim random request) := by
  rw [provisionScim]
  refine handler.harmless_scimDiscovery.bind fun discovery => ?_
  have hproject : ∀ request, Harmless target
      (ScimProgram.discover (discovery.discover random request) >>= handler.applyScimProjection) :=
    fun request => (harmless_discover _).bind handler.harmless_applyScimProjection
  dsimp only
  split
  · exact (harmless_adopt discovery request).bind hproject
  · exact (harmless_ok request).bind hproject

theorem harmless_upsertScim (principalId : String) (resource : ScimResource) (replace : Bool)
    (random : List UInt8) :
    Harmless target (handler.upsertScim principalId resource replace random) := by
  have hrest : Harmless target (handler.upsertScim principalId resource false random) := by
    rw [upsertScim, if_neg Bool.false_ne_true]
    refine (handler.harmless_provisionScim random _).bind fun projected => ?_
    cases projected with
    | none => exact harmless_fail _
    | some principal => exact handler.harmless_getScim principal.id resource.kind
  cases replace with
  | false => exact hrest
  | true => exact (handler.harmless_getScim principalId resource.kind).bind fun _ => hrest

theorem harmless_patchScim (principalId : String) (kind : PrincipalKind)
    (patch : ScimPatchRequest) (random : List UInt8) :
    Harmless target (handler.patchScim principalId kind patch random) :=
  (handler.harmless_getScim principalId kind).bind fun _ =>
    (harmless_discover _).bind fun _ => (handler.harmless_provisionScim random _).bind fun _ =>
      handler.harmless_getScim principalId kind

theorem harmless_deleteScim (principalId : String) (kind : PrincipalKind) :
    Harmless target (handler.deleteScim principalId kind) :=
  (handler.harmless_getScim principalId kind).bind fun _ =>
    (handler.harmless_provisionScim [] _).bind fun _ => harmless_ok ()

theorem meets_deleteScim (kind : PrincipalKind) (db : IamDatabase) :
    MeetsDeleted target (fun _ last => Deprovisioned last target)
      (handler.deleteScim target kind) db := by
  rw [deleteScim]
  refine (handler.meets_getScim target kind db).bind fun _ store hstored => ?_
  have hprovision : MeetsDeleted target (fun _ last => Deprovisioned last target)
      (handler.provisionScim [] (.delete target)) store := by
    rw [provisionScim]
    refine (handler.harmless_scimDiscovery.stored (hstored rfl)).bind
      fun discovery found hfound => ?_
    show MeetsDeleted target _ (ScimProgram.discover (discovery.discover [] (.delete target)) >>=
      handler.applyScimProjection) found
    rw [ScimPrincipalDiscovery.discover]
    cases requireIdentifier "canonical Principal ID" target with
    | error error => exact meets_fail _ found
    | ok valid => exact handler.meets_delete hfound
  exact hprovision.bind fun _ last hlast => (harmless_ok ()).deleted hlast

end PrincipalHandler

/-! Runs. -/

section
variable (handler : PrincipalHandler)

/-- What a request that returned leaves behind: a deletion, its principal deprovisioned. -/
def Leaves (target : String) (request : ScimRequest) (_ : ScimReply) (db : IamDatabase) : Prop :=
  ∀ kind, request = .delete target kind → Deprovisioned db target

theorem serve_meets (target : String) (request : ScimRequest) (db : IamDatabase) :
    MeetsDeleted target (Leaves target request) (handler.serve request) db := by
  cases request with
  | create resource random =>
      refine (handler.harmless_upsertScim "" resource false random db).bind fun _ _ _ =>
        meets_ok fun _ _ _ heq => ?_
      cases heq
  | put principalId resource random =>
      refine (handler.harmless_upsertScim principalId resource true random db).bind fun _ _ _ =>
        meets_ok fun _ _ _ heq => ?_
      cases heq
  | patch principalId kind patch random =>
      refine (handler.harmless_patchScim principalId kind patch random db).bind fun _ _ _ =>
        meets_ok fun _ _ _ heq => ?_
      cases heq
  | delete principalId kind =>
      by_cases htarget : principalId = target
      · subst htarget
        refine (handler.meets_deleteScim kind db).bind fun _ last hlast =>
          meets_ok fun later hlater _ _ => hlater.deleted hlast
      · refine (handler.harmless_deleteScim principalId kind db).bind fun _ _ _ =>
          meets_ok fun _ _ _ heq => ?_
        cases heq
        exact absurd rfl htarget

/-- Every upsert of a create, PUT or PATCH comes while the principal is not marked. -/
def SparesInRun (target : String) (db : IamDatabase) (events : List ScimEvent) : Prop :=
  Runs.Along handler.scimStep (fun pool event => pool.Allows (SparesDeleted target) event)
    (Pool.idle db) events

/-- The deletion of the principal returned in the past and nothing but deletions started
since. -/
structure DeletedSince (target : String) (db : IamDatabase) (past future : List ScimEvent) :
    Prop where
  returned : ∃ reached kind, Runs.run handler.scimStep (Pool.idle db) past = some reached ∧
    (.delete target kind, .ok .noContent) ∈ reached.tasks
  started : ∀ request, .start request ∈ future → ∃ id kind, request = .delete id kind

theorem deletion_lasts {db : IamDatabase} {past future : List ScimEvent} {final : ScimPool}
    (hdeleted : DeletedSince handler target db past future)
    (hspares : SparesInRun handler target db (past ++ future))
    (hrun : Runs.run handler.scimStep (Pool.idle db) (past ++ future) = some final) :
    Deprovisioned final.store target := by
  obtain ⟨reached, kind, hpast, hmem⟩ := hdeleted.returned
  obtain ⟨task, htask⟩ := List.mem_iff_getElem?.mp hmem
  obtain ⟨hbefore, hsince⟩ := hspares.append
  have hmeets := (Pool.run_meets (fun request _ _ => serve_meets handler target request)
    (Pool.meets_idle db) hbefore hpast).2
  obtain ⟨next, hnext, hfuture⟩ := Runs.run_append_eq_some.mp hrun
  rw [hpast, Option.some.injEq] at hnext
  subst hnext
  have hkeeps := (Pool.run_meets (fun request _ _ => serve_meets handler target request) hmeets
    (hsince reached hpast) hfuture).1
  exact hkeeps.deleted (Pool.returned_meets hmeets htask kind rfl)

end

/-! The account of a leaver. -/

namespace Leaver

def handler : PrincipalHandler := ⟨.sqlite, some ⟨"hr", "hr.example"⟩⟩

def account : ScimUserResource where
  schemas := [userSchema]
  id := none
  externalId := some "7"
  userName := "ada"
  displayName := none
  active := none
  emails := []
  metadata := none
  attributes := .empty

def database : IamDatabase where
  principals :=
    ⟨[{ id := "P_1", kind := .user, status := .active, displayName := "ada",
        authorizationState := .empty }], by decide⟩
  identities :=
    ⟨[{ principalId := "P_1", provider := "hr", issuer := "hr.example", subject := "7",
        claims := .object account.toObject.entries }], by decide⟩
  principals_checked := by decide
  identities_checked := by decide
  identities_principal := by decide

/-- A PUT of the account, and its deletion. -/
def started : List ScimEvent :=
  [.start (.put "P_1" (.user account) []), .start (.delete "P_1" .user)]

def resumed (task calls : Nat) : List ScimEvent :=
  List.replicate calls (.resume task (.answered 0))

def returned : ScimRequest × ScimProgram ScimReply → Bool
  | (.delete "P_1" .user, .ok .noContent) => true
  | _ => false

theorem of_returned {task : ScimRequest × ScimProgram ScimReply} (h : returned task = true) :
    task = (.delete "P_1" .user, .ok .noContent) := by
  rw [returned.eq_def] at h
  split at h
  · rfl
  · cases h

theorem deletedSince {past : List ScimEvent} {task calls : Nat}
    (h : (Runs.run handler.scimStep (Pool.idle database) past).any
      (fun pool => pool.tasks.any returned) = true) :
    DeletedSince handler "P_1" database past (resumed task calls) where
  returned := by
    obtain ⟨reached, hrun, hany⟩ := (Option.any_eq_true _ _).mp h
    obtain ⟨found, hfound, hreturned⟩ := List.any_eq_true.mp hany
    exact ⟨reached, .user, hrun, of_returned hreturned ▸ hfound⟩
  started := by
    intro request hrequest
    cases List.eq_of_mem_replicate hrequest

/-- The PUT reads the account, the deletion runs to its end, and the PUT goes on. -/
theorem replaced_after_deletion :
    DeletedSince handler "P_1" database (started ++ resumed 0 2 ++ resumed 1 5) (resumed 0 4) ∧
      ∃ final, Runs.run handler.scimStep (Pool.idle database)
        (started ++ resumed 0 2 ++ resumed 1 5 ++ resumed 0 4) = some final ∧
        (∀ task ∈ final.tasks, task.2.isDone) ∧ ¬Deprovisioned final.store "P_1" := by
  refine ⟨deletedSince (by decide +kernel), ?_⟩
  have hrun : (Runs.run handler.scimStep (Pool.idle database)
      (started ++ resumed 0 2 ++ resumed 1 5 ++ resumed 0 4)).any (fun pool =>
        pool.tasks.all (·.2.isDone) &&
          (pool.store.principals.find "P_1").any (·.status = .active)) = true := by
    decide +kernel
  obtain ⟨final, hfinal, hactive⟩ := (Option.any_eq_true _ _).mp hrun
  obtain ⟨hdone, hstatus⟩ := Bool.and_eq_true_iff.mp hactive
  refine ⟨final, hfinal, List.all_eq_true.mp hdone, ?_⟩
  rintro ⟨row, hrow, hdisabled, -⟩
  rw [hrow] at hstatus
  simp [hdisabled] at hstatus

/-- The PUT writes the account before the deletion does. -/
theorem deleted_after_replacement :
    ∃ final, Runs.run handler.scimStep (Pool.idle database)
      (started ++ resumed 0 3 ++ resumed 1 5 ++ resumed 0 2) = some final ∧
      Deprovisioned final.store "P_1" := by
  have hrun : (Runs.run handler.scimStep (Pool.idle database)
      (started ++ resumed 0 3 ++ resumed 1 5 ++ resumed 0 2)).isSome = true := by
    decide +kernel
  obtain ⟨final, hfinal⟩ := Option.isSome_iff_exists.mp hrun
  have hspares : SparesInRun handler "P_1" database
      (started ++ resumed 0 3 ++ resumed 1 5 ++ resumed 0 2) := by
    rw [SparesInRun]
    decide +kernel
  exact ⟨final, hfinal, deletion_lasts handler (deletedSince (by decide +kernel)) hspares hfinal⟩

end Leaver

end Authguard
