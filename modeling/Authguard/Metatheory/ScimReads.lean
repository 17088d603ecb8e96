import Authguard.Metatheory.ScimWrites

/-!
SCIM reads after writes on one resource. A write with a subject of its own leaves
the binding of the subject before it, and a read picks any binding of the principal
at the provider; while the subject stays the same there is one to pick.
-/

namespace Authguard
open Program

/-- What a request submits: a PATCH, what it makes of the resource it reads. -/
inductive Submits (handler : PrincipalHandler) (db : IamDatabase) :
    ScimRequest → ScimResource → Prop
  | create (resource : ScimResource) (random : List UInt8) :
      Submits handler db (.create resource random) resource
  | put (principalId : String) (resource : ScimResource) (random : List UInt8) :
      Submits handler db (.put principalId resource random) resource
  | patch {principalId : String} {kind : PrincipalKind} {patch : ScimPatchRequest}
      {current patched : ScimResource} (random : List UInt8)
      (read : ScimExecutes (handler.getScim principalId kind) db (.ok current) db)
      (applied : ScimPrincipalDiscovery.patch current patch = .ok patched) :
      Submits handler db (.patch principalId kind patch random) patched

/-- A write on the principal that succeeds; its body was parsed. -/
structure Update (handler : PrincipalHandler) (target : String) (db : IamDatabase)
    (request : ScimRequest) (resource : ScimResource) (after : IamDatabase) : Prop where
  submits : Submits handler db request resource
  parsed : resource.Parsed
  executed : ∃ reply, ScimExecutes (handler.serve request) db (.ok (.resource reply)) after ∧
    reply.id = some target

/-- Writes on one principal, one after the other. -/
inductive Updates (handler : PrincipalHandler) (target : String) (db : IamDatabase) :
    List ScimResource → IamDatabase → Prop
  | nil : Updates handler target db [] db
  | snoc {resources : List ScimResource} {middle after : IamDatabase} {request : ScimRequest}
      {resource : ScimResource} (before : Updates handler target db resources middle)
      (last : Update handler target middle request resource after) :
      Updates handler target db (resources ++ [resource]) after

/-- A call the database answers; where several rows match, it picks one. -/
def PrincipalCall.answered (call : PrincipalCall) (row : Nat) (db : IamDatabase) :
    Option (call.Answer × IamDatabase) :=
  call.exec (.answered row) db

/-- Every binding of the principal at the provider has the subject. -/
def Bound (discovery : ScimPrincipalDiscovery) (target subject : String) (db : IamDatabase) :
    Prop :=
  ∀ row ∈ db.identitiesOf target discovery.discoveryId,
    row.key = ⟨discovery.discoveryId, discovery.issuer, subject⟩

section
variable {handler : PrincipalHandler} {discovery : ScimPrincipalDiscovery} {target subject : String}
  {db after : IamDatabase}

theorem mem_identitiesOf {provider : String} {row : IamPrincipalIdentityInfo} :
    row ∈ db.identitiesOf target provider ↔
      db.identities.find row.key = some row ∧ row.principalId = target ∧ row.provider = provider := by
  rw [IamDatabase.identitiesOf, List.mem_filter, decide_eq_true_eq, Table.find_eq_some]
  simp

theorem Bound.unique (h : Bound discovery target subject db)
    {row other : IamPrincipalIdentityInfo}
    (hrow : row ∈ db.identitiesOf target discovery.discoveryId)
    (hother : other ∈ db.identitiesOf target discovery.discoveryId) : row = other := by
  have hfound := (mem_identitiesOf.mp hrow).1
  rw [h row hrow, ← h other hother, (mem_identitiesOf.mp hother).1] at hfound
  exact (Option.some.inj hfound).symm

/-- Over one binding, a read has one answer. -/
theorem Bound.getScim_unique (h : Bound discovery target subject db)
    (hscim : handler.scim = some discovery) {kind : PrincipalKind} {resource other : ScimResource}
    (hread : ScimExecutes (handler.getScim target kind) db (.ok resource) db)
    (hother : ScimExecutes (handler.getScim target kind) db (.ok other) db) : resource = other := by
  obtain ⟨-, found, principal, row, hfound, hprincipal, -, -, hrow, hrestored⟩ :=
    executes_getScim.mp hread
  obtain ⟨-, found', principal', row', hfound', hprincipal', -, -, hrow', hrestored'⟩ :=
    executes_getScim.mp hother
  obtain rfl : discovery = found := Option.some.inj (hscim.symm.trans hfound)
  obtain rfl : discovery = found' := Option.some.inj (hscim.symm.trans hfound')
  obtain rfl : principal = principal' := Option.some.inj (hprincipal.symm.trans hprincipal')
  obtain rfl := h.unique hrow hrow'
  exact Except.ok.inj (hrestored.symm.trans hrestored')

/-- A create or PUT provisions what it submits, and reads it again. -/
theorem executes_upsertScim {principalId : String} {resource reply : ScimResource}
    {replace : Bool} {random : List UInt8}
    (h : ScimExecutes (handler.upsertScim principalId resource replace random) db (.ok reply)
      after) :
    ∃ principal : PrincipalRow,
      ScimExecutes (handler.provisionScim random (resource.intoUpsert principalId)) db
        (.ok (some principal)) after ∧ reply.id = some principal.id := by
  rw [PrincipalHandler.upsertScim] at h
  split at h
  · obtain ⟨current, start, hread, hwrite⟩ := executes_bind.mp h
    obtain ⟨-, rfl⟩ := getScim_id hread
    obtain ⟨written, middle, hprovision, hserve⟩ := executes_bind.mp hwrite
    split at hserve
    · cases hserve
    · rename_i principal
      obtain ⟨hid, rfl⟩ := getScim_id hserve
      exact ⟨principal, hprovision, hid⟩
  · obtain ⟨written, middle, hprovision, hserve⟩ := executes_bind.mp h
    split at hserve
    · cases hserve
    · rename_i principal
      obtain ⟨hid, rfl⟩ := getScim_id hserve
      exact ⟨principal, hprovision, hid⟩

/-- What an update stores. -/
structure Stored (discovery : ScimPrincipalDiscovery) (target : String) (db : IamDatabase)
    (resource : ScimResource) (after : IamDatabase) (projection : PrincipalProjection) : Prop where
  projects : Projects discovery resource projection
  written : db.upsertWithIdentity (projection.row target) (projection.identity target) =
    .ok ((), after)

theorem stored_upsertScim (hscim : handler.scim = some discovery) {principalId : String}
    {resource reply : ScimResource} {replace : Bool} {random : List UInt8}
    (h : ScimExecutes (handler.upsertScim principalId resource replace random) db (.ok reply)
      after) (hid : reply.id = some target) :
    ∃ projection, Stored discovery target db resource after projection := by
  obtain ⟨principal, hprovision, hprincipal⟩ := executes_upsertScim h
  obtain ⟨found, projection, written, hfound, hreply, -, hprojects, hwritten⟩ :=
    executes_provisionScim hprovision
  obtain rfl : discovery = found := Option.some.inj (hscim.symm.trans hfound)
  obtain rfl : principal = written := Option.some.inj hreply
  obtain rfl : principal.id = target := Option.some.inj (hprincipal.symm.trans hid)
  exact ⟨projection, hprojects, hwritten⟩

theorem Update.stored {request : ScimRequest} {resource : ScimResource}
    (h : Update handler target db request resource after)
    (hscim : handler.scim = some discovery) (hbound : Bound discovery target subject db) :
    ∃ projection, Stored discovery target db resource after projection := by
  obtain ⟨hsubmits, -, reply, hexecuted, hid⟩ := h
  cases hsubmits with
  | create resource random =>
      obtain ⟨served, middle, hupsert, hreply⟩ := executes_bind.mp hexecuted
      cases hreply
      exact stored_upsertScim hscim hupsert hid
  | put principalId resource random =>
      obtain ⟨served, middle, hupsert, hreply⟩ := executes_bind.mp hexecuted
      cases hreply
      exact stored_upsertScim hscim hupsert hid
  | patch random hread happlied =>
      rename_i principalId kind patch current
      obtain ⟨served, middle, hpatch, hreply⟩ := executes_bind.mp hexecuted
      cases hreply
      obtain ⟨current', patched, found, projection, hread', happlied', hfound, hprojects, hwritten,
        hserved⟩ := executes_patchScim hpatch
      obtain rfl : discovery = found := Option.some.inj (hscim.symm.trans hfound)
      obtain rfl : principalId = target := Option.some.inj (hserved.symm.trans hid)
      obtain rfl := hbound.getScim_unique hscim hread hread'
      obtain rfl : resource = patched := Except.ok.inj (happlied.symm.trans happlied')
      exact ⟨projection, hprojects, hwritten⟩

section
variable {resource : ScimResource} {projection : PrincipalProjection}

theorem Stored.mem_identitiesOf (h : Stored discovery target db resource after projection)
    {row : IamPrincipalIdentityInfo}
    (hrow : row ∈ after.identitiesOf target discovery.discoveryId) :
    row = projection.identity target ∨ row ∈ db.identitiesOf target discovery.discoveryId := by
  obtain ⟨hfound, hprincipal, hprovider⟩ := Authguard.mem_identitiesOf.mp hrow
  rw [(IamDatabase.upsertWithIdentity_eq_ok h.written).2] at hfound
  split at hfound
  · exact .inl (Option.some.inj hfound).symm
  · exact .inr (Authguard.mem_identitiesOf.mpr ⟨hfound, hprincipal, hprovider⟩)

theorem Stored.key (h : Stored discovery target db resource after projection)
    (hsubject : resource.subject = some subject) :
    (projection.identity target).key = ⟨discovery.discoveryId, discovery.issuer, subject⟩ := by
  have hsame : projection.externalId = subject :=
    Option.some.inj (h.projects.subject.symm.trans hsubject)
  rw [IamPrincipalIdentityInfo.key, PrincipalProjection.identity, h.projects.provider,
    h.projects.issuer, hsame]

theorem Stored.bound (h : Stored discovery target db resource after projection)
    (hsubject : resource.subject = some subject) (hbound : Bound discovery target subject db) :
    Bound discovery target subject after := by
  intro row hrow
  obtain rfl | hstored := h.mem_identitiesOf hrow
  · exact h.key hsubject
  · exact hbound row hstored

/-- The resource that was stored is restored from the binding it was stored with. -/
theorem Stored.restored (h : Stored discovery target db resource after projection)
    (hseparate : resource.Separate) :
    ScimPrincipalDiscovery.restoreResource (projection.row target)
      (projection.identity target).claims = .ok (resource.served target) := by
  rw [PrincipalProjection.identity, h.projects.attributes]
  refine restoreResource_submitted hseparate h.projects.kind ?_
  rw [PrincipalProjection.row, h.projects.enabled]

end

/-- While the subject stays the same, it is the only one the principal is bound to. -/
theorem Updates.bound {resources : List ScimResource}
    (h : Updates handler target db resources after) (hscim : handler.scim = some discovery)
    (hbound : Bound discovery target subject db)
    (hsubject : ∀ resource ∈ resources, resource.subject = some subject) :
    Bound discovery target subject after := by
  induction h with
  | nil => exact hbound
  | snoc before last ih =>
      rw [List.forall_mem_append, List.forall_mem_singleton] at hsubject
      have hmiddle := ih hsubject.1
      obtain ⟨projection, hstored⟩ := last.stored hscim hmiddle
      exact hstored.bound hsubject.2 hmiddle

end

/-! An account that is created, and replaced. -/

namespace Renumbered

def handler : PrincipalHandler := ⟨.sqlite, some ⟨"hr", "hr.example"⟩⟩

def account (number title : String) : ScimUserResource where
  schemas := [userSchema]
  id := none
  externalId := some number
  userName := "ada"
  displayName := none
  active := none
  emails := []
  metadata := none
  attributes := .ofList [("title", .string title)]

theorem account_parsed (number title : String) :
    (ScimResource.user (account number title)).Parsed := by
  have hfree : "title" ∉ ScimUserResource.fieldNames := by decide
  refine ⟨(account number title).toObject, ScimUserResource.fromObject_toObject ?_⟩
  intro name hname
  refine SortedMap.get_ofList_of_not_mem ?_
  intro entry hentry
  rw [List.mem_singleton.mp hentry]
  rintro rfl
  exact hfree hname

def served (db : IamDatabase) (request : ScimRequest) :
    Option (Except PrincipalHandlerError ScimReply × IamDatabase) :=
  (handler.serve request).evaluate PrincipalCall.exec (.answered 0) db

def after (db : IamDatabase) (request : ScimRequest) : IamDatabase :=
  (served db request).elim db Prod.snd

def answersWith (id : String) : Except PrincipalHandlerError ScimReply × IamDatabase → Bool
  | (.ok (.resource reply), _) => reply.id = some id
  | _ => false

theorem update {db : IamDatabase} {request : ScimRequest} {resource : ScimResource} {id : String}
    (hsubmits : Submits handler db request resource) (hparsed : resource.Parsed)
    (h : (served db request).any (answersWith id) = true) :
    Update handler id db request resource (after db request) := by
  obtain ⟨⟨result, last⟩, hserved, hanswer⟩ := (Option.any_eq_true _ _).mp h
  have hlast : after db request = last := by
    rw [after, hserved]
    rfl
  rw [answersWith.eq_def] at hanswer
  split at hanswer
  · rename_i reply _ heq
    cases heq
    refine ⟨hsubmits, hparsed, reply, ?_, of_decide_eq_true hanswer⟩
    rw [hlast]
    exact executes_of_evaluate hserved
  · cases hanswer

def create : ScimRequest := .create (.user (account "7" "clerk")) []

def created : IamDatabase := after .empty create

def replace (number : String) : ScimRequest := .put "P_" (.user (account number "manager")) []

def replaced (number : String) : IamDatabase := after created (replace number)

end Renumbered

end Authguard
