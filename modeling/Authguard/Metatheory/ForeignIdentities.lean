import Authguard.Library.Simulation
import Authguard.Metatheory.IdentityBinding
import Authguard.Metatheory.PrincipalWrites
import Authguard.Metatheory.ScimPages
import Authguard.Metatheory.ScimReads

/-!
Identities of the SCIM provider that logins and links have written. SCIM reads them as
resources without looking who wrote them: a listing fails over claims that are none, and
a resource is read from any identity of its principal. While the claims are resources and
no principal has identities of both services, the collection is listed, and the resources
of SCIM are served as they would be without the others.
-/

namespace Authguard
open Program

namespace IamDatabase

theorem ext_tables {db other : IamDatabase} (hprincipals : db.principals = other.principals)
    (hidentities : db.identities = other.identities) : db = other := by
  cases db
  cases other
  cases hprincipals
  cases hidentities
  rfl

variable {db : IamDatabase}

/-- The database without the identities that are left out. -/
def keepIdentities (db : IamDatabase) (p : ExternalIdentityKey → Bool) : IamDatabase where
  principals := db.principals
  identities := db.identities.filter (p ∘ IamPrincipalIdentityInfo.key)
  principals_checked := db.principals_checked
  identities_checked := fun row hrow => db.identities_checked row (List.mem_filter.mp hrow).1
  identities_principal := fun row hrow => db.identities_principal row (List.mem_filter.mp hrow).1

theorem keepIdentities_principals (p : ExternalIdentityKey → Bool) :
    (db.keepIdentities p).principals = db.principals := rfl

theorem keepIdentities_identities (p : ExternalIdentityKey → Bool) :
    (db.keepIdentities p).identities = db.identities.filter (p ∘ IamPrincipalIdentityInfo.key) := rfl

end IamDatabase

/-! Transactions that end alike. -/

section
variable {ε γ : Type} (R : IamDatabase → IamDatabase → Prop)

/-- Both fail with one error, or both return one value and leave related databases. -/
def TransactionsAlike (transaction other : Except ε (γ × IamDatabase)) : Prop :=
  (∃ error, transaction = .error error ∧ other = .error error) ∨
    ∃ value after after', transaction = .ok (value, after) ∧ other = .ok (value, after') ∧
      R after after'

variable {R} {transaction transaction' : Except ε (γ × IamDatabase)}

theorem writeCall_alike {db other : IamDatabase} (lift : String → ε)
    (h : TransactionsAlike R transaction transaction') (hR : R db other) (outcome : StoreOutcome) :
    ∃ answer after after', writeCall db lift transaction outcome = (answer, after) ∧
      writeCall other lift transaction' outcome = (answer, after') ∧ R after after' := by
  obtain ⟨error, rfl, rfl⟩ | ⟨value, after, after', rfl, rfl, hafter⟩ := h
  · cases outcome with
    | answered row | lost message => exact ⟨.error error, db, other, rfl, rfl, hR⟩
    | failed message => exact ⟨.error (lift message), db, other, rfl, rfl, hR⟩
  · cases outcome with
    | answered row => exact ⟨.ok value, after, after', rfl, rfl, hafter⟩
    | failed message => exact ⟨.error (lift message), db, other, rfl, rfl, hR⟩
    | lost message => exact ⟨.error (lift message), after, after', rfl, rfl, hafter⟩

end

/-! Databases that differ in identities a program does not use. -/

/-- The other database lacks identities, none of them of the principal at the provider. -/
structure Lacks (p : ExternalIdentityKey → Bool) (target provider : String)
    (db other : IamDatabase) : Prop where
  other_eq : other = db.keepIdentities p
  own : ∀ row ∈ db.identitiesOf target provider, p row.key = true

section
variable {p : ExternalIdentityKey → Bool} {target provider : String} {db other : IamDatabase}

theorem Lacks.identitiesOf (h : Lacks p target provider db other) :
    other.identitiesOf target provider = db.identitiesOf target provider := by
  rw [h.other_eq]
  refine (List.filter_filter).trans (List.filter_congr fun row hrow => ?_)
  rw [Bool.and_eq_left_iff_imp]
  exact fun hown => h.own row (List.mem_filter.mpr ⟨hrow, hown⟩)

/-- The program does not tell the database from the one without the identities. -/
abbrev AlikeWithout (p : ExternalIdentityKey → Bool) (target provider : String) {β : Type}
    (program : ScimProgram β) (db other : IamDatabase) : Prop :=
  Alike PrincipalCall.exec (Lacks p target provider) program db other

variable (h : Lacks p target provider db other)
include h

theorem alike_ok {β : Type} (value : β) :
    AlikeWithout p target provider (.ok value : ScimProgram β) db other := h

theorem alike_fail {β : Type} (error : PrincipalHandlerError) :
    AlikeWithout p target provider (.fail error : ScimProgram β) db other := h

theorem alike_stored {β : Type} (answer : Except String β) :
    AlikeWithout p target provider (PrincipalHandler.stored answer) db other := by
  cases answer with
  | ok value | error message => exact h

theorem alike_discover {β : Type} (found : Except PrincipalDiscoveryError β) :
    AlikeWithout p target provider (ScimProgram.discover found) db other := by
  cases found with
  | ok value | error error => exact h

theorem alike_scimDiscovery (handler : PrincipalHandler) :
    AlikeWithout p target provider handler.scimDiscovery db other := by
  rw [PrincipalHandler.scimDiscovery]
  cases handler.scim with
  | none | some discovery => exact h

theorem alike_get (id : String) :
    AlikeWithout p target provider (PrincipalHandler.get id) db other := by
  have hprincipals : other.principals = db.principals := by rw [h.other_eq]; rfl
  intro outcome
  refine .inr ⟨(readCall db (fun message => message) (db.principals.find id) outcome).1, db, other, ?_, ?_,
    alike_stored h _⟩
  · cases outcome <;> rfl
  · rw [PrincipalCall.exec, hprincipals]
    cases outcome <;> rfl

theorem alike_getIdentity :
    AlikeWithout p target provider (PrincipalHandler.getIdentity target provider) db other := by
  intro outcome
  have hpick : ∀ row, other.pickIdentity target provider row = db.pickIdentity target provider row :=
    fun row => by rw [IamDatabase.pickIdentity, IamDatabase.pickIdentity, h.identitiesOf]
  cases outcome with
  | answered row =>
      simp only [PrincipalCall.exec, hpick]
      cases db.pickIdentity target provider row with
      | none => exact .inl ⟨rfl, rfl⟩
      | some found => exact .inr ⟨.ok found, db, other, rfl, rfl, h⟩
  | failed message | lost message =>
      exact .inr ⟨.error message, db, other, rfl, rfl, h⟩

theorem Lacks.principals : other.principals = db.principals := by
  rw [h.other_eq]
  rfl

theorem Lacks.boundElsewhere {row : IamPrincipalIdentityInfo} (hkey : p row.key = true) :
    other.BoundElsewhere row ↔ db.BoundElsewhere row := by
  have hfind : other.identities.find row.key = db.identities.find row.key := by
    rw [h.other_eq, IamDatabase.keepIdentities_identities, Table.find_filter]
    cases hstored : db.identities.find row.key with
    | none => rfl
    | some stored =>
        rw [Option.filter_some, Function.comp_apply, (Table.find_eq_some.mp hstored).2, if_pos hkey]
  rw [IamDatabase.BoundElsewhere, IamDatabase.BoundElsewhere, hfind]

theorem alike_upsertCall (principal : PrincipalRow) :
    TransactionsAlike (Lacks p target provider) (db.upsert principal) (other.upsert principal) := by
  cases hchecked : principal.checked with
  | false =>
      refine .inl ⟨"", ?_, ?_⟩ <;>
        rw [IamDatabase.upsert, IamDatabase.upsertPrincipal_unchecked hchecked]
  | true =>
      obtain ⟨after, hafter, hprincipals, hidentities⟩ :=
        IamDatabase.upsertPrincipal_checked db hchecked
      obtain ⟨after', hafter', hprincipals', hidentities'⟩ :=
        IamDatabase.upsertPrincipal_checked other hchecked
      refine .inr ⟨(), after, after', by rw [IamDatabase.upsert, hafter],
        by rw [IamDatabase.upsert, hafter'], ?_, ?_⟩
      · refine IamDatabase.ext_tables ?_ ?_
        · rw [hprincipals', h.principals, IamDatabase.keepIdentities_principals, hprincipals]
        · rw [hidentities', h.other_eq, IamDatabase.keepIdentities_identities,
            IamDatabase.keepIdentities_identities, hidentities]
      · intro row hrow
        rw [IamDatabase.identitiesOf, hidentities] at hrow
        exact h.own row hrow

theorem alike_upsertWithIdentity (principal : PrincipalRow) {identity : IamPrincipalIdentityInfo}
    (hid : identity.principalId = principal.id) (hkey : p identity.key = true) :
    TransactionsAlike (Lacks p target provider) (db.upsertWithIdentity principal identity)
      (other.upsertWithIdentity principal identity) := by
  by_cases hchecked : principal.checked = true ∧ identity.checked = true
  · by_cases hbound : db.BoundElsewhere identity
    · exact .inl ⟨.conflict, IamDatabase.upsertWithIdentity_elsewhere hchecked hbound,
        IamDatabase.upsertWithIdentity_elsewhere hchecked ((h.boundElsewhere hkey).mpr hbound)⟩
    · obtain ⟨after, hafter, hprincipals, hidentities⟩ :=
        IamDatabase.upsertWithIdentity_own hchecked hid hbound
      obtain ⟨after', hafter', hprincipals', hidentities'⟩ :=
        IamDatabase.upsertWithIdentity_own hchecked hid (mt (h.boundElsewhere hkey).mp hbound)
      refine .inr ⟨(), after, after', hafter, hafter', ?_, ?_⟩
      · refine IamDatabase.ext_tables ?_ ?_
        · rw [hprincipals', h.principals, IamDatabase.keepIdentities_principals, hprincipals]
        · rw [hidentities', h.other_eq, IamDatabase.keepIdentities_identities,
            IamDatabase.keepIdentities_identities, hidentities, Table.filter_upsert hkey]
      · intro row hrow
        obtain ⟨hmem, hown⟩ := List.mem_filter.mp hrow
        rw [hidentities] at hmem
        obtain rfl | hmem := Table.mem_upsert hmem
        · exact hkey
        · exact h.own row (List.mem_filter.mpr ⟨hmem, hown⟩)
  · exact .inl ⟨.backend "", IamDatabase.upsertWithIdentity_unchecked hchecked,
      IamDatabase.upsertWithIdentity_unchecked hchecked⟩

end

/-! Requests on one resource. -/

section
variable {p : ExternalIdentityKey → Bool} {target : String} {discovery : ScimPrincipalDiscovery}
  {handler : PrincipalHandler} {db other : IamDatabase} {provider : String}

theorem alike_readBack (h : Lacks p target provider db other) (principal : PrincipalRow) :
    AlikeWithout p target provider (handler.readBack principal) db other := by
  rw [PrincipalHandler.readBack]
  cases handler.backend with
  | postgres => exact alike_ok h principal
  | sqlite =>
      refine (alike_get h principal.id).bind fun found _ _ _ hlater => ?_
      cases found with
      | none => exact alike_fail hlater _
      | some found => exact alike_ok hlater found

theorem alike_validatePrincipal (h : Lacks p target provider db other) (principal : PrincipalRow) :
    AlikeWithout p target provider (PrincipalHandler.validatePrincipal principal) db other := by
  rw [PrincipalHandler.validatePrincipal]
  split
  · exact alike_fail h _
  · exact alike_ok h ()

theorem alike_upsert (h : Lacks p target provider db other) (principal : PrincipalRow) :
    AlikeWithout p target provider (handler.upsert principal) db other := by
  refine (alike_validatePrincipal h principal).bind fun _ later later' _ hlater => ?_
  refine Alike.bind (fun outcome => ?_) fun _ _ _ _ hlast => alike_readBack hlast principal
  obtain ⟨answer, after, after', hanswer, hanswer', hafter⟩ :=
    writeCall_alike (fun message => message) (alike_upsertCall hlater principal) hlater outcome
  refine .inr ⟨answer, after, after', congrArg some hanswer, congrArg some hanswer', ?_⟩
  cases answer with
  | ok value => exact alike_ok hafter ()
  | error error => exact alike_fail hafter _

theorem alike_upsertExternal (h : Lacks p target provider db other)
    {projection : PrincipalProjection} {principalId : String}
    (hkey : p (projection.identity principalId).key = true) :
    AlikeWithout p target provider (handler.upsertExternal principalId projection) db other := by
  refine (alike_validatePrincipal h _).bind fun _ later later' _ hlater => ?_
  refine Alike.bind (fun outcome => ?_) fun _ _ _ _ hlast => alike_readBack hlast _
  obtain ⟨answer, after, after', hanswer, hanswer', hafter⟩ :=
    writeCall_alike UpsertError.backend
      (alike_upsertWithIdentity hlater (projection.row principalId) rfl hkey) hlater outcome
  refine .inr ⟨answer, after, after', congrArg some hanswer, congrArg some hanswer', ?_⟩
  cases answer with
  | ok value => exact alike_ok hafter ()
  | error error =>
      cases error with
      | conflict | backend message => exact alike_fail hafter _

theorem alike_getScim (hscim : handler.scim = some discovery)
    (h : Lacks p target discovery.discoveryId db other) (kind : PrincipalKind) :
    AlikeWithout p target discovery.discoveryId (handler.getScim target kind) db other := by
  refine (alike_scimDiscovery h handler).bind fun found later later' hfound hlater => ?_
  obtain ⟨hsome, -⟩ := executes_scimDiscovery.mp hfound
  obtain rfl : discovery = found := Option.some.inj (hscim.symm.trans hsome)
  refine (alike_get hlater target).bind fun principal _ _ _ hread => ?_
  cases principal with
  | none => exact alike_fail hread _
  | some principal =>
      simp only
      split
      · exact alike_fail hread _
      · refine (alike_getIdentity hread).bind fun identity _ _ _ hlast => ?_
        cases identity with
        | none => exact alike_fail hlast _
        | some identity => exact alike_discover hlast _

/-- A resource of the principal is provisioned alike when its identity is not left out. -/
theorem alike_provisionScim (hscim : handler.scim = some discovery)
    (h : Lacks p target discovery.discoveryId db other) (htarget : target ≠ "")
    {resource : ScimResource} {random : List UInt8}
    (hkey : ∀ subject, resource.subject = some subject →
      p ⟨discovery.discoveryId, discovery.issuer, subject⟩ = true) :
    AlikeWithout p target discovery.discoveryId
      (handler.provisionScim random (resource.intoUpsert target)) db other := by
  refine (alike_scimDiscovery h handler).bind fun found later later' hfound hlater => ?_
  obtain ⟨hsome, -⟩ := executes_scimDiscovery.mp hfound
  obtain rfl : discovery = found := Option.some.inj (hscim.symm.trans hsome)
  have hmissing : (resource.intoUpsert target).principalIdMissing = false := by
    cases resource <;> exact decide_eq_false htarget
  rw [hmissing]
  refine (alike_discover hlater _).bind fun event _ _ hevent hread => ?_
  obtain ⟨hdiscovered, -⟩ := executes_discover.mp hevent
  obtain ⟨id, projection, rfl, hid, hprojects⟩ := discover_intoUpsert hdiscovered
  obtain rfl := hid htarget
  refine (alike_upsertExternal hread ?_).bind fun principal _ _ _ hlast => alike_ok hlast _
  rw [PrincipalProjection.identity, IamPrincipalIdentityInfo.key, hprojects.provider,
    hprojects.issuer]
  exact hkey _ hprojects.subject

theorem alike_provisionDelete (h : Lacks p target provider db other) :
    AlikeWithout p target provider (handler.provisionScim [] (.delete target)) db other := by
  refine (alike_scimDiscovery h handler).bind fun found _ _ _ hlater => ?_
  refine (alike_discover hlater _).bind fun event _ _ hevent hread => ?_
  obtain ⟨hdiscovered, -⟩ := executes_discover.mp hevent
  obtain ⟨-, -, hdelete⟩ := Result.bind_ok_iff.mp hdiscovered
  cases hdelete
  refine (alike_get hread target).bind fun principal _ _ _ hlast => ?_
  cases principal with
  | none => exact alike_ok hlast none
  | some principal =>
      exact (alike_upsert hlast _).bind fun deleted _ _ _ hend => alike_ok hend _

/-- The requests on the resource of a principal. -/
inductive OnResource (target : String) : ScimRequest → Prop
  | put (resource : ScimResource) (random : List UInt8) :
      OnResource target (.put target resource random)
  | patch (kind : PrincipalKind) (patch : ScimPatchRequest) (random : List UInt8) :
      OnResource target (.patch target kind patch random)
  | delete (kind : PrincipalKind) : OnResource target (.delete target kind)

/-- What the request submits is stored under a key that is kept. -/
def SubmitsKept (handler : PrincipalHandler) (discovery : ScimPrincipalDiscovery)
    (p : ExternalIdentityKey → Bool) (db : IamDatabase) (request : ScimRequest) : Prop :=
  ∀ resource, Submits handler db request resource → ∀ subject, resource.subject = some subject →
    p ⟨discovery.discoveryId, discovery.issuer, subject⟩ = true

theorem alike_serve (hscim : handler.scim = some discovery)
    (h : Lacks p target discovery.discoveryId db other) {request : ScimRequest}
    (hrequest : OnResource target request) (hkept : SubmitsKept handler discovery p db request) :
    AlikeWithout p target discovery.discoveryId (handler.serve request) db other := by
  have hfound : ∀ {kind resource later},
      ScimExecutes (handler.getScim target kind) db (.ok resource) later →
        later = db ∧ target ≠ "" := by
    intro kind resource later hread
    obtain ⟨rfl, -, principal, -, -, hprincipal, -⟩ := executes_getScim.mp hread
    exact ⟨rfl, id_ne_empty hprincipal⟩
  cases hrequest with
  | put resource random =>
      refine Alike.bind ?_ fun reply _ _ _ hlast => alike_ok hlast _
      rw [PrincipalHandler.upsertScim, if_pos rfl]
      refine (alike_getScim hscim h _).bind fun current _ _ hread hlater => ?_
      obtain ⟨-, htarget⟩ := hfound hread
      refine (alike_provisionScim hscim hlater htarget fun subject hsubject =>
        hkept resource (.put target resource random) subject hsubject).bind
          fun principal _ _ hprovisioned hend => ?_
      cases principal with
      | none => exact alike_fail hend _
      | some principal =>
          obtain ⟨-, -, written, -, hsome, hid, -⟩ := executes_provisionScim hprovisioned
          obtain rfl : principal = written := Option.some.inj hsome
          simp only [hid htarget]
          exact alike_getScim hscim hend _
  | patch kind patch random =>
      refine Alike.bind ?_ fun reply _ _ _ hlast => alike_ok hlast _
      refine (alike_getScim hscim h kind).bind fun current later _ hread hlater => ?_
      obtain ⟨rfl, htarget⟩ := hfound hread
      refine (alike_discover hlater _).bind fun patched _ _ happlied hpatched => ?_
      refine (alike_provisionScim hscim hpatched htarget fun subject hsubject =>
        hkept patched (.patch random hread (executes_discover.mp happlied).1) subject
          hsubject).bind fun _ _ _ _ hend => ?_
      exact alike_getScim hscim hend kind
  | delete kind =>
      refine Alike.bind ?_ fun reply _ _ _ hlast => alike_ok hlast _
      refine (alike_getScim hscim h kind).bind fun current _ _ _ hlater => ?_
      exact (alike_provisionDelete hlater).bind fun deleted _ _ _ hend => alike_ok hend ()

end

/-! SCIM and logins over one database. -/

inductive SharedCall
  | scim (call : PrincipalCall)
  | login (call : IdentityCall)

def SharedCall.Answer : SharedCall → Type
  | .scim name => name.Answer
  | .login name => name.Answer

/-- The database, and the keys of the identities SCIM has written. -/
structure SharedStore where
  db : IamDatabase
  pushed : List ExternalIdentityKey

/-- The identity that is written by the call. -/
def PrincipalCall.pushes (call : PrincipalCall) (outcome : StoreOutcome) (db : IamDatabase) :
    List ExternalIdentityKey :=
  match call, outcome with
  | .upsertWithIdentity _ _, .failed _ => []
  | .upsertWithIdentity principal identity, _ =>
      if (db.upsertWithIdentity principal identity).isOk then [identity.key] else []
  | _, _ => []

def SharedCall.exec (call : SharedCall) (outcome : StoreOutcome) (store : SharedStore) :
    Option (call.Answer × SharedStore) :=
  match call with
  | .scim name =>
      (name.exec outcome store.db).map fun (answer, db) =>
        (answer, { db, pushed := name.pushes outcome store.db ++ store.pushed })
  | .login name =>
      (name.exec outcome store.db).map fun (answer, db) => (answer, { store with db })

inductive SharedRequest
  | scim (request : ScimRequest)
  | login (request : LinkRequest)

abbrev SharedProgram :=
  Program SharedCall SharedCall.Answer (PrincipalHandlerError ⊕ AccountLinkingError)
    (ScimReply ⊕ AuthenticatedPrincipalContext)

def serveShared (handler : PrincipalHandler) (service : AccountLinkingService) :
    SharedRequest → SharedProgram
  | .scim request =>
      (handler.serve request >>= fun reply => .ok (.inl reply)).lift .scim (fun _ answer => answer)
        .inl
  | .login request =>
      (service.serve request >>= fun context => .ok (.inr context)).lift .login
        (fun _ answer => answer) .inr

abbrev SharedPool :=
  Pool SharedCall SharedCall.Answer (PrincipalHandlerError ⊕ AccountLinkingError)
    (ScimReply ⊕ AuthenticatedPrincipalContext) SharedRequest SharedStore

abbrev SharedEvent := PoolEvent SharedRequest StoreOutcome

def sharedStep (handler : PrincipalHandler) (service : AccountLinkingService) :
    SharedPool → SharedEvent → Option SharedPool :=
  Pool.step (serveShared handler service) fun _ => SharedCall.exec

/-! What keeps the collection readable. -/

/-- The claims are a resource of the kind; a workload is no resource, and not read as one. -/
def readsAsKind (claims : Json) : PrincipalKind → Bool
  | .user => ((objectOf claims).bind ScimUserResource.fromObject).isSome
  | .group => ((objectOf claims).bind ScimGroupResource.fromObject).isSome
  | .workload => true

theorem restored_of_readsAsKind {principal : PrincipalRow} {claims : Json}
    (h : readsAsKind claims principal.kind = true) (hkind : principal.kind ≠ .workload) :
    ∃ resource, ScimPrincipalDiscovery.restoreResource principal claims = .ok resource := by
  rw [ScimPrincipalDiscovery.restoreResource]
  cases hprincipal : principal.kind with
  | user | group =>
      rw [hprincipal] at h
      obtain ⟨resource, hresource⟩ := Option.isSome_iff_exists.mp h
      simp only [hresource]
      exact ⟨_, rfl⟩
  | workload => exact absurd hprincipal hkind

theorem readsAsKind_of_restored {principal : PrincipalRow} {claims : Json} {resource : ScimResource}
    (h : ScimPrincipalDiscovery.restoreResource principal claims = .ok resource) :
    readsAsKind claims principal.kind = true := by
  rw [ScimPrincipalDiscovery.restoreResource] at h
  cases hkind : principal.kind with
  | user | group =>
      rw [hkind] at h
      simp only at h
      split at h
      · cases h
      · rename_i read hread
        rw [readsAsKind, hread]
        rfl
  | workload => rfl

/-- A call that mixes no identities at the provider: a login brings claims that are a resource
of the kind of its principal, and links none to a principal of SCIM; a write of SCIM is on a
principal whose other identities are of SCIM and resources of the kind that is written. -/
def Spares (discovery : ScimPrincipalDiscovery) : SharedCall → SharedStore → Prop
  | .scim (.upsertWithIdentity principal identity), store =>
      ∀ row ∈ store.db.identitiesOf principal.id discovery.discoveryId, row.key ≠ identity.key →
        row.key ∈ store.pushed ∧ readsAsKind row.claims principal.kind = true
  | .login (.createPrincipalAndBind principal identity), _ =>
      identity.provider = discovery.discoveryId →
        readsAsKind (.object identity.claims.entries) principal.kind = true
  | .login (.bindIdentity principalId identity), store =>
      identity.provider = discovery.discoveryId →
        (∀ row ∈ store.db.identitiesOf principalId discovery.discoveryId, row.key ∉ store.pushed) ∧
          ∀ principal ∈ store.db.principals.rows, principal.id = principalId →
            readsAsKind (.object identity.claims.entries) principal.kind = true
  | _, _ => True

instance Spares.decidable (discovery : ScimPrincipalDiscovery) (name : SharedCall)
    (store : SharedStore) : Decidable (Spares discovery name store) :=
  match name with
  | .scim (.upsertWithIdentity principal identity) =>
      inferInstanceAs (Decidable (∀ row ∈ store.db.identitiesOf principal.id discovery.discoveryId,
        row.key ≠ identity.key → _ ∧ _))
  | .login (.createPrincipalAndBind _ identity) =>
      inferInstanceAs (Decidable (identity.provider = discovery.discoveryId → _))
  | .login (.bindIdentity principalId identity) =>
      inferInstanceAs (Decidable (identity.provider = discovery.discoveryId →
        (∀ row ∈ store.db.identitiesOf principalId discovery.discoveryId, row.key ∉ store.pushed) ∧
          ∀ principal ∈ store.db.principals.rows, principal.id = principalId →
            readsAsKind (.object identity.claims.entries) principal.kind = true))
  | .scim (.get _) | .scim (.findByIdentity _) | .scim (.getIdentity _ _) | .scim (.upsert _)
  | .login (.findPrincipalByIdentity _) | .login (.principalHasProvider _ _) => isTrue trivial

/-- No principal has identities of both services at the provider, and all are resources. -/
structure Unmixed (discovery : ScimPrincipalDiscovery) (store : SharedStore) : Prop where
  reads : ∀ principal ∈ store.db.principals.rows, principal.scimDeleted = false →
    ∀ row ∈ store.db.identitiesOf principal.id discovery.discoveryId,
      readsAsKind row.claims principal.kind = true
  apart : ∀ principalId, ∀ row ∈ store.db.identitiesOf principalId discovery.discoveryId,
    ∀ other ∈ store.db.identitiesOf principalId discovery.discoveryId,
      row.key ∈ store.pushed → other.key ∈ store.pushed
  stored : ∀ key ∈ store.pushed, (store.db.identities.find key).isSome

theorem unmixed_empty (discovery : ScimPrincipalDiscovery) :
    Unmixed discovery ⟨.empty, []⟩ where
  reads := fun _ h => absurd h List.not_mem_nil
  apart := fun _ _ h => absurd h List.not_mem_nil
  stored := fun _ h => absurd h List.not_mem_nil

/-- What the calls of SCIM write: resources of the kind of their principal, and deletions. -/
def WritesResource (discovery : ScimPrincipalDiscovery) : PrincipalCall → Prop
  | .upsert principal => principal.scimDeleted = true
  | .upsertWithIdentity principal identity =>
      identity.principalId = principal.id ∧ identity.provider = discovery.discoveryId ∧
        readsAsKind identity.claims principal.kind = true
  | _ => True

section
variable {discovery : ScimPrincipalDiscovery} {store : SharedStore} {after : IamDatabase}

/-- A write of SCIM that fails pushes nothing; one that succeeds pushes its identity. -/
theorem exec_upsertWithIdentity {principal : PrincipalRow} {identity : IamPrincipalIdentityInfo}
    {db : IamDatabase} {outcome : StoreOutcome}
    {answer : (PrincipalCall.upsertWithIdentity principal identity).Answer}
    (h : (PrincipalCall.upsertWithIdentity principal identity).exec outcome db =
      some (answer, after)) :
    (after = db ∧ (PrincipalCall.upsertWithIdentity principal identity).pushes outcome db = []) ∨
      db.upsertWithIdentity principal identity = .ok ((), after) ∧
        (PrincipalCall.upsertWithIdentity principal identity).pushes outcome db =
          [identity.key] := by
  have hwrite := Option.some.inj h
  cases htransaction : db.upsertWithIdentity principal identity with
  | error error =>
      rw [htransaction] at hwrite
      cases outcome with
      | answered row | failed message | lost message =>
          cases hwrite
          refine .inl ⟨rfl, ?_⟩
          simp [PrincipalCall.pushes, htransaction, Except.isOk, Except.toBool]
  | ok written =>
      rw [htransaction] at hwrite
      cases outcome with
      | failed message =>
          cases hwrite
          exact .inl ⟨rfl, rfl⟩
      | answered row | lost message =>
          cases hwrite
          refine .inr ⟨rfl, ?_⟩
          simp [PrincipalCall.pushes, htransaction, Except.isOk, Except.toBool]

/-- An upsert of a principal alone is a deletion. -/
theorem Unmixed.upsert {principal : PrincipalRow} (h : Unmixed discovery store)
    (hdeleted : principal.scimDeleted = true)
    (hwritten : store.db.upsert principal = .ok ((), after)) :
    Unmixed discovery ⟨after, store.pushed⟩ := by
  obtain ⟨hprincipals, hidentities⟩ := IamDatabase.upsert_eq_ok hwritten
  have hrows : ∀ principalId, after.identitiesOf principalId discovery.discoveryId =
      store.db.identitiesOf principalId discovery.discoveryId := fun principalId => by
    rw [IamDatabase.identitiesOf, IamDatabase.identitiesOf, hidentities]
  refine ⟨?_, ?_, ?_⟩
  · intro other hother hlive row hrow
    rw [hprincipals] at hother
    obtain rfl | ⟨hother, -⟩ := Table.mem_upsert_iff.mp hother
    · rw [hdeleted] at hlive
      cases hlive
    · exact h.reads other hother hlive row (hrows other.id ▸ hrow)
  · intro principalId row hrow other hother
    rw [hrows] at hrow hother
    exact h.apart principalId row hrow other hother
  · intro key hkey
    rw [hidentities]
    exact h.stored key hkey

theorem Unmixed.upsertWithIdentity {principal : PrincipalRow} {identity : IamPrincipalIdentityInfo}
    (h : Unmixed discovery store)
    (hwrites : WritesResource discovery (.upsertWithIdentity principal identity))
    (hspares : Spares discovery (.scim (.upsertWithIdentity principal identity)) store)
    (hwritten : store.db.upsertWithIdentity principal identity = .ok ((), after)) :
    Unmixed discovery ⟨after, identity.key :: store.pushed⟩ := by
  obtain ⟨hprincipals, hidentities⟩ := IamDatabase.upsertWithIdentity_eq_ok hwritten
  obtain ⟨hid, hprovider, hreads⟩ := hwrites
  have hrows : ∀ {principalId : String} {row : IamPrincipalIdentityInfo},
      row ∈ after.identitiesOf principalId discovery.discoveryId →
        row = identity ∨ row.key ≠ identity.key ∧
          row ∈ store.db.identitiesOf principalId discovery.discoveryId := by
    intro principalId row hrow
    obtain ⟨hfound, howner, hsame⟩ := mem_identitiesOf.mp hrow
    rw [hidentities] at hfound
    split at hfound
    · exact .inl (Option.some.inj hfound).symm
    · rename_i hkey
      exact .inr ⟨hkey, mem_identitiesOf.mpr ⟨hfound, howner, hsame⟩⟩
  refine ⟨?_, ?_, ?_⟩
  · intro other hother hlive row hrow
    rw [hprincipals] at hother
    obtain rfl | ⟨hother, hne⟩ := Table.mem_upsert_iff.mp hother
    · obtain rfl | ⟨hkey, hrow⟩ := hrows hrow
      · exact hreads
      · exact (hspares row hrow hkey).2
    · obtain rfl | ⟨-, hrow⟩ := hrows hrow
      · exact absurd ((mem_identitiesOf.mp hrow).2.1.symm.trans hid) hne
      · exact h.reads other hother hlive row hrow
  · intro principalId row hrow other hother hpushed
    obtain rfl | ⟨hkey, hother⟩ := hrows hother
    · exact List.mem_cons_self
    · refine List.mem_cons_of_mem _ ?_
      by_cases hsame : principalId = principal.id
      · exact (hspares other (hsame ▸ hother) hkey).1
      · obtain rfl | ⟨hne, hrow⟩ := hrows hrow
        · exact absurd ((mem_identitiesOf.mp hrow).2.1.symm.trans hid) hsame
        · exact h.apart principalId row hrow other hother
            ((List.mem_cons.mp hpushed).resolve_left hne)
  · intro key hkey
    rw [hidentities]
    split
    · rfl
    · rename_i hne
      exact h.stored key ((List.mem_cons.mp hkey).resolve_left hne)

/-- A binding that is new leaves the others. -/
theorem mem_identitiesOf_insert {row other : IamPrincipalIdentityInfo} {principalId : String}
    (h : store.db.identities.insert row = some after.identities)
    (hother : other ∈ after.identitiesOf principalId discovery.discoveryId) :
    (other = row ∧ row.principalId = principalId ∧ row.provider = discovery.discoveryId) ∨
      other ∈ store.db.identitiesOf principalId discovery.discoveryId := by
  obtain ⟨hmem, howner⟩ := List.mem_filter.mp hother
  obtain hmem | rfl := (Table.mem_insert h).mp hmem
  · exact .inr (List.mem_filter.mpr ⟨hmem, howner⟩)
  · exact .inl ⟨rfl, of_decide_eq_true howner⟩

/-- A login or a link writes an identity that SCIM has not written. -/
theorem Unmixed.not_pushed (h : Unmixed discovery store) {row : IamPrincipalIdentityInfo}
    (hinsert : store.db.identities.insert row = some after.identities) :
    row.key ∉ store.pushed := by
  intro hpushed
  have hfree := Table.insert_isSome.mp (Option.isSome_iff_exists.mpr ⟨_, hinsert⟩)
  have hstored := h.stored row.key hpushed
  rw [hfree] at hstored
  cases hstored

theorem Unmixed.stored_insert (h : Unmixed discovery store) {row : IamPrincipalIdentityInfo}
    (hinsert : store.db.identities.insert row = some after.identities) :
    ∀ key ∈ store.pushed, (after.identities.find key).isSome := by
  intro key hkey
  obtain ⟨found, hfound⟩ := Option.isSome_iff_exists.mp (h.stored key hkey)
  rw [Table.find_of_insert hinsert hfound]
  rfl

theorem Unmixed.createPrincipalAndBind {principal answer : PrincipalRow}
    {identity : ExternalIdentity} (h : Unmixed discovery store)
    (hspares : Spares discovery (.login (.createPrincipalAndBind principal identity)) store)
    (hwritten : store.db.createPrincipalAndBind principal identity = .ok (answer, after)) :
    Unmixed discovery ⟨after, store.pushed⟩ := by
  obtain ⟨-, hprincipal, hidentity⟩ := createPrincipalAndBind_eq_ok hwritten
  have hfresh : store.db.principals.find principal.id = none :=
    Table.insert_isSome.mp (Option.isSome_iff_exists.mpr ⟨_, hprincipal⟩)
  have hnone : ∀ row, row ∉ store.db.identitiesOf principal.id discovery.discoveryId := by
    intro row hrow
    obtain ⟨hmem, howner⟩ := List.mem_filter.mp hrow
    have hfound := store.db.identities_principal row hmem
    rw [(of_decide_eq_true howner).1, hfresh] at hfound
    cases hfound
  refine ⟨?_, ?_, h.stored_insert hidentity⟩
  · intro other hother hlive row hrow
    obtain ⟨rfl, howner, hprovider⟩ | hrow := mem_identitiesOf_insert hidentity hrow
    · obtain hother | rfl := (Table.mem_insert hprincipal).mp hother
      · have hfound := find_of_mem hother
        rw [show other.id = principal.id from howner.symm, hfresh] at hfound
        cases hfound
      · exact hspares hprovider
    · obtain hother | rfl := (Table.mem_insert hprincipal).mp hother
      · exact h.reads other hother hlive row hrow
      · exact absurd hrow (hnone row)
  · intro principalId row hrow other hother hpushed
    obtain ⟨rfl, -⟩ | hrow := mem_identitiesOf_insert hidentity hrow
    · exact absurd hpushed (h.not_pushed hidentity)
    · obtain ⟨rfl, howner, -⟩ | hother := mem_identitiesOf_insert hidentity hother
      · have hsame : principal.id = principalId := howner
        exact absurd (hsame ▸ hrow) (hnone row)
      · exact h.apart principalId row hrow other hother hpushed

theorem Unmixed.bindIdentity {principalId : String} {answer : PrincipalRow}
    {identity : ExternalIdentity} (h : Unmixed discovery store)
    (hspares : Spares discovery (.login (.bindIdentity principalId identity)) store)
    (hwritten : store.db.bindIdentity principalId identity = .ok (answer, after)) :
    Unmixed discovery ⟨after, store.pushed⟩ := by
  obtain ⟨-, hprincipals, hidentity⟩ := bindIdentity_eq_ok hwritten
  refine ⟨?_, ?_, h.stored_insert hidentity⟩
  · intro other hother hlive row hrow
    rw [hprincipals] at hother
    obtain ⟨rfl, howner, hprovider⟩ | hrow := mem_identitiesOf_insert hidentity hrow
    · exact (hspares hprovider).2 other hother howner.symm
    · exact h.reads other hother hlive row hrow
  · intro otherId row hrow other hother hpushed
    obtain ⟨rfl, -⟩ | hrow := mem_identitiesOf_insert hidentity hrow
    · exact absurd hpushed (h.not_pushed hidentity)
    · obtain ⟨rfl, rfl, hprovider⟩ | hother := mem_identitiesOf_insert hidentity hother
      · exact absurd hpushed ((hspares hprovider).1 row hrow)
      · exact h.apart otherId row hrow other hother hpushed

/-- Every sparing call of the two services keeps the identities apart. -/
theorem Unmixed.exec {name : SharedCall} {outcome : StoreOutcome} {answer : name.Answer}
    {next : SharedStore} (h : Unmixed discovery store)
    (hwrites : ∀ inner, name = .scim inner → WritesResource discovery inner)
    (hspares : Spares discovery name store)
    (hexec : name.exec outcome store = some (answer, next)) : Unmixed discovery next := by
  cases name with
  | scim inner =>
      have hinner := hwrites inner rfl
      obtain ⟨⟨reply, db⟩, hcall, hnext⟩ := Option.map_eq_some_iff.mp hexec
      cases hnext
      cases inner with
      | get id | findByIdentity key =>
          obtain ⟨rfl, -⟩ := readCall_cases (Option.some.inj hcall)
          exact h
      | getIdentity principalId provider =>
          have hsame : db = store.db := by
            cases outcome with
            | answered row =>
                obtain ⟨found, -, hfound⟩ := Option.map_eq_some_iff.mp hcall
                cases hfound
                rfl
            | failed message | lost message =>
                cases hcall
                rfl
          rw [hsame]
          exact h
      | upsert principal =>
          obtain ⟨rfl, -⟩ | ⟨_, hwritten, -⟩ := writeCall_cases (Option.some.inj hcall)
          · exact h
          · exact h.upsert hinner hwritten
      | upsertWithIdentity principal identity =>
          obtain ⟨rfl, hpushes⟩ | ⟨hwritten, hpushes⟩ := exec_upsertWithIdentity hcall
          · rw [hpushes]
            exact h
          · rw [hpushes]
            exact h.upsertWithIdentity hinner hspares hwritten
  | login inner =>
      obtain ⟨⟨reply, db⟩, hcall, hnext⟩ := Option.map_eq_some_iff.mp hexec
      cases hnext
      cases inner with
      | findPrincipalByIdentity key | principalHasProvider principalId provider =>
          obtain ⟨rfl, -⟩ := readCall_cases (Option.some.inj hcall)
          exact h
      | createPrincipalAndBind principal identity =>
          obtain ⟨rfl, -⟩ | ⟨_, hwritten, -⟩ := writeCall_cases (Option.some.inj hcall)
          · exact h
          · exact h.createPrincipalAndBind hspares hwritten
      | bindIdentity principalId identity =>
          obtain ⟨rfl, -⟩ | ⟨_, hwritten, -⟩ := writeCall_cases (Option.some.inj hcall)
          · exact h
          · exact h.bindIdentity hspares hwritten

end

/-! What SCIM writes. -/

section
variable {handler : PrincipalHandler} {discovery : ScimPrincipalDiscovery}

/-- The program writes resources and deletions only. -/
abbrev WritesResources (discovery : ScimPrincipalDiscovery) {β : Type} (q : β → Prop)
    (program : ScimProgram β) : Prop :=
  program.Within (WritesResource discovery) q

theorem writes_stored {β : Type} (answer : Except String β) :
    WritesResources discovery (fun _ => True) (PrincipalHandler.stored answer) := by
  cases answer with
  | ok value | error message => trivial

theorem writes_discover {β : Type} (found : Except PrincipalDiscoveryError β) :
    WritesResources discovery (fun value => found = .ok value) (ScimProgram.discover found) := by
  cases found with
  | ok value => rfl
  | error error => trivial

theorem writes_scimDiscovery :
    WritesResources discovery (fun found => handler.scim = some found) handler.scimDiscovery := by
  rw [PrincipalHandler.scimDiscovery]
  cases handler.scim with
  | none => trivial
  | some found => rfl

theorem writes_get (id : String) :
    WritesResources discovery (fun _ => True) (PrincipalHandler.get id) :=
  ⟨trivial, writes_stored⟩

theorem writes_readBack (principal : PrincipalRow) :
    WritesResources discovery (fun _ => True) (handler.readBack principal) := by
  rw [PrincipalHandler.readBack]
  cases handler.backend with
  | postgres => trivial
  | sqlite =>
      refine (writes_get principal.id).bind fun found _ => ?_
      cases found with
      | none | some found => trivial

theorem writes_validatePrincipal (principal : PrincipalRow) :
    WritesResources discovery (fun _ => True) (PrincipalHandler.validatePrincipal principal) := by
  rw [PrincipalHandler.validatePrincipal]
  split <;> trivial

theorem writes_upserted (answer : Except String Unit) :
    WritesResources discovery (fun _ => True) (handler.upserted answer) := by
  cases answer with
  | ok value | error message => trivial

theorem writes_mapStorageError (answer : Except UpsertError Unit) :
    WritesResources discovery (fun _ => True) (PrincipalHandler.mapStorageError answer) := by
  cases answer with
  | ok value => trivial
  | error error =>
      cases error with
      | conflict | backend message => trivial

theorem writes_upsert {principal : PrincipalRow} (hdeleted : principal.scimDeleted = true) :
    WritesResources discovery (fun _ => True) (handler.upsert principal) := by
  refine (writes_validatePrincipal principal).bind fun _ _ => ?_
  exact Within.bind ⟨hdeleted, writes_upserted⟩ fun _ _ => writes_readBack principal

theorem writes_upsertExternal {projection : PrincipalProjection} (principalId : String)
    (hprovider : projection.providerId = discovery.discoveryId)
    (hreads : readsAsKind (.object projection.attributes.entries) projection.kind = true) :
    WritesResources discovery (fun _ => True) (handler.upsertExternal principalId projection) := by
  refine (writes_validatePrincipal _).bind fun _ _ => ?_
  exact Within.bind ⟨⟨rfl, hprovider, hreads⟩, writes_mapStorageError⟩ fun _ _ =>
    writes_readBack _

theorem writes_getScim (principalId : String) (kind : PrincipalKind) :
    WritesResources discovery (fun _ => True) (handler.getScim principalId kind) := by
  refine writes_scimDiscovery.bind fun found _ => ?_
  refine (writes_get principalId).bind fun principal _ => ?_
  cases principal with
  | none => trivial
  | some principal =>
      simp only
      split
      · trivial
      · refine Within.bind ⟨trivial, writes_stored⟩ fun identity _ => ?_
        cases identity with
        | none => trivial
        | some identity => exact (writes_discover _).imp fun _ _ => trivial

/-- A resource of a request body is written as what it is read as. -/
theorem Projects.readsAsKind {resource : ScimResource} {projection : PrincipalProjection}
    (h : Projects discovery resource projection) (hparsed : resource.Parsed) :
    readsAsKind (.object projection.attributes.entries) projection.kind = true := by
  have hkind : (projection.row "").kind = resource.kind := h.kind
  have hstatus : (projection.row "").status = if resource.enabled then .active else .disabled := by
    rw [← h.enabled]
    rfl
  have hrestored := restoreResource_submitted hparsed.separate hkind hstatus
  rw [← h.attributes] at hrestored
  exact readsAsKind_of_restored hrestored

theorem writes_adopt {found : ScimPrincipalDiscovery} (resource : ScimResource) :
    WritesResources discovery (fun request => ∃ id, request = resource.intoUpsert id)
      (PrincipalHandler.adopt found (resource.intoUpsert "")) := by
  refine (writes_discover _).bind fun key _ => ?_
  refine Within.bind ⟨trivial, writes_stored⟩ fun principal _ => ?_
  cases principal with
  | none => exact ⟨"", rfl⟩
  | some principal =>
      refine Within.bind ⟨trivial, writes_stored⟩ fun binding _ => ?_
      split
      · trivial
      · refine ⟨principal.id, ?_⟩
        cases resource <;> rfl

theorem writes_project (resource : ScimResource) (hparsed : resource.Parsed) (random : List UInt8)
    (principalId : String) :
    WritesResources discovery (fun _ => True)
      (ScimProgram.discover (discovery.discover random (resource.intoUpsert principalId)) >>=
        handler.applyScimProjection) := by
  refine (writes_discover _).bind fun event hevent => ?_
  obtain ⟨id, projection, rfl, -, hprojects⟩ := discover_intoUpsert hevent
  exact (writes_upsertExternal id hprojects.provider (hprojects.readsAsKind hparsed)).bind
    fun _ _ => trivial

theorem writes_provisionScim (hscim : handler.scim = some discovery) {resource : ScimResource}
    (hparsed : resource.Parsed) (principalId : String) (random : List UInt8) :
    WritesResources discovery (fun _ => True)
      (handler.provisionScim random (resource.intoUpsert principalId)) := by
  refine writes_scimDiscovery.bind fun found hfound => ?_
  obtain rfl : discovery = found := Option.some.inj (hscim.symm.trans hfound)
  split
  · rename_i hmissing
    obtain rfl : principalId = "" := by
      cases resource <;> exact of_decide_eq_true hmissing
    refine (writes_adopt resource).bind fun request hrequest => ?_
    obtain ⟨id, rfl⟩ := hrequest
    exact writes_project resource hparsed random id
  · exact writes_project resource hparsed random principalId

theorem scimDeleted_insert (principal : PrincipalRow) :
    PrincipalRow.scimDeleted { principal with
      status := .disabled
      authorizationState := principal.authorizationState.insert "scimDeleted" (.bool true) } =
        true := by
  rw [PrincipalRow.scimDeleted]
  simp only [SortedMap.get_insert, if_true]

theorem writes_provisionDelete (principalId : String) :
    WritesResources discovery (fun _ => True)
      (handler.provisionScim [] (.delete principalId)) := by
  refine writes_scimDiscovery.bind fun found _ => ?_
  refine (writes_discover _).bind fun event hevent => ?_
  obtain ⟨-, -, hdelete⟩ := Result.bind_ok_iff.mp hevent
  cases hdelete
  refine (writes_get principalId).bind fun principal _ => ?_
  cases principal with
  | none => trivial
  | some principal => exact (writes_upsert (scimDeleted_insert principal)).bind fun _ _ => trivial

theorem writes_upsertScim (hscim : handler.scim = some discovery) {resource : ScimResource}
    (hparsed : resource.Parsed) (principalId : String) (replace : Bool) (random : List UInt8) :
    WritesResources discovery (fun _ => True)
      (handler.upsertScim principalId resource replace random) := by
  have hrest : WritesResources discovery (fun _ => True)
      (handler.upsertScim principalId resource false random) := by
    rw [PrincipalHandler.upsertScim, if_neg Bool.false_ne_true]
    refine (writes_provisionScim hscim hparsed principalId random).bind fun principal _ => ?_
    cases principal with
    | none => trivial
    | some principal => exact writes_getScim principal.id resource.kind
  cases replace with
  | false => exact hrest
  | true => exact (writes_getScim principalId resource.kind).bind fun _ _ => hrest

/-- Every request of SCIM writes resources and deletions only. -/
theorem writes_serve (hscim : handler.scim = some discovery) {request : ScimRequest}
    (hparsed : request.Parsed) :
    WritesResources discovery (fun _ => True) (handler.serve request) := by
  cases request with
  | create resource random | put principalId resource random =>
      exact (writes_upsertScim hscim hparsed _ _ random).bind fun _ _ => trivial
  | patch principalId kind patch random =>
      refine Within.bind (q := fun _ => True) ?_ fun _ _ => trivial
      refine (writes_getScim principalId kind).bind fun current _ => ?_
      refine (writes_discover _).bind fun patched hpatched => ?_
      have hresource := (ScimPrincipalDiscovery.patch_eq_ok hpatched).1
      exact (writes_provisionScim hscim hresource principalId random).bind fun _ _ =>
        writes_getScim principalId kind
  | delete principalId kind =>
      refine Within.bind (q := fun _ => True) ?_ fun _ _ => trivial
      refine (writes_getScim principalId kind).bind fun _ _ => ?_
      exact (writes_provisionDelete principalId).bind fun _ _ => trivial

end

/-! Every run. -/

/-- The key of an identity that SCIM has not written. -/
def SharedStore.foreign (store : SharedStore) (key : ExternalIdentityKey) : Bool :=
  (store.db.identities.find key).isSome && decide (key ∉ store.pushed)

/-- The database without the identities that SCIM has not written. -/
def SharedStore.withoutForeign (store : SharedStore) : IamDatabase :=
  store.db.keepIdentities fun key => !store.foreign key

/-- SCIM has written an identity of the principal. -/
def Manages (discovery : ScimPrincipalDiscovery) (store : SharedStore) (target : String) : Prop :=
  ∃ row ∈ store.db.identitiesOf target discovery.discoveryId, row.key ∈ store.pushed

/-- Both collections are listed, and a resource that SCIM manages is served as without the
other identities; what a PUT or PATCH stores is not to take the key of one of them. -/
structure Unharmed {κ : Type} [LinearOrder κ] (rank : String → κ) (handler : PrincipalHandler)
    (discovery : ScimPrincipalDiscovery) (store : SharedStore) : Prop where
  lists : ∀ kind, kind ≠ .workload → ∀ row, Chooses store.db discovery.discoveryId row →
    ∀ query : ScimListQuery, FilterAccepted query.filter → ∃ response enough, ∀ fuel ≥ enough,
      handler.listScim rank store.db row kind fuel query = some (.ok response)
  gets : ∀ target, Manages discovery store target → ∀ kind result,
    (∃ last, ScimExecutes (handler.getScim target kind) store.db result last) ↔
      ∃ last, ScimExecutes (handler.getScim target kind) store.withoutForeign result last
  serves : ∀ target, Manages discovery store target → ∀ request, OnResource target request →
    SubmitsKept handler discovery (fun key => !store.foreign key) store.db request → ∀ result,
      (∃ last, ScimExecutes (handler.serve request) store.db result last) ↔
        ∃ last, ScimExecutes (handler.serve request) store.withoutForeign result last

section
variable {handler : PrincipalHandler} {service : AccountLinkingService}
  {discovery : ScimPrincipalDiscovery} {store : SharedStore}

theorem Unmixed.parses (h : Unmixed discovery store) {kind : PrincipalKind}
    (hkind : kind ≠ .workload) : KindParses store.db discovery kind := by
  intro principal hprincipal hlive hsame identity hidentity
  exact restored_of_readsAsKind (h.reads principal hprincipal hlive identity hidentity)
    (hsame ▸ hkind)

theorem Unmixed.lacks (h : Unmixed discovery store) {target : String}
    (hmanages : Manages discovery store target) :
    Lacks (fun key => !store.foreign key) target discovery.discoveryId store.db
      store.withoutForeign := by
  refine ⟨rfl, fun row hrow => ?_⟩
  obtain ⟨own, hown, hpushed⟩ := hmanages
  have hrowPushed := h.apart target own hown row hrow hpushed
  simp [SharedStore.foreign, hrowPushed]

theorem listScim_ok {κ : Type} [LinearOrder κ] {rank : String → κ} (hrank : Collates rank)
    (hscim : handler.scim = some discovery) {db : IamDatabase} {row : String → Nat}
    (hrow : Chooses db discovery.discoveryId row) {kind : PrincipalKind}
    (hparse : KindParses db discovery kind) {query : ScimListQuery}
    (hfilter : FilterAccepted query.filter) :
    ∃ response enough, ∀ fuel ≥ enough,
      handler.listScim rank db row kind fuel query = some (.ok response) := by
  obtain ⟨items, hkept, -⟩ := retainFiltered_ok hfilter (db.collection rank discovery row kind)
  obtain ⟨response, hpage⟩ : ∃ response, ScimPrincipalDiscovery.listPage
      (db.collection rank discovery row kind) query = .ok response := by
    rw [ScimPrincipalDiscovery.listPage, hkept]
    exact ⟨_, rfl⟩
  refine ⟨response, (db.found rank "").length + 1, fun fuel hfuel => ?_⟩
  have hcollected := collectScim_collection hrank hscim hrow hparse hfuel
  simp only [PrincipalHandler.listScim, hscim, hcollected, Option.map_some]
  rw [Except.bind, hpage]
  rfl

theorem Unmixed.unharmed {κ : Type} [LinearOrder κ] {rank : String → κ} (hrank : Collates rank)
    (hscim : handler.scim = some discovery) (h : Unmixed discovery store) :
    Unharmed rank handler discovery store where
  lists := fun _ hkind _ hrow _ hfilter =>
    listScim_ok hrank hscim hrow (h.parses hkind) hfilter
  gets := fun _ hmanages kind _ => (alike_getScim hscim (h.lacks hmanages) kind).result_iff
  serves := fun _ hmanages _ hrequest hkept _ =>
    (alike_serve hscim (h.lacks hmanages) hrequest hkept).result_iff

/-- What is unmixed stays so. -/
def KeepsUnmixed (discovery : ScimPrincipalDiscovery) (store later : SharedStore) : Prop :=
  Unmixed discovery store → Unmixed discovery later

instance : Std.Refl (KeepsUnmixed discovery) := ⟨fun _ h => h⟩

instance : IsTrans SharedStore (KeepsUnmixed discovery) := ⟨fun _ _ _ h h' hunmixed => h' (h hunmixed)⟩

theorem serveShared_meets (hscim : handler.scim = some discovery) {request : SharedRequest}
    (hparsed : ∀ inner, request = .scim inner → inner.Parsed) (store : SharedStore) :
    Program.Meets (Pool.Answers SharedCall.exec (Spares discovery)) (KeepsUnmixed discovery)
      (fun _ _ => True) (serveShared handler service request) store := by
  have hwithin : (serveShared handler service request).Within
      (fun name => ∀ inner, name = .scim inner → WritesResource discovery inner) fun _ => True := by
    cases request with
    | scim inner =>
        refine Within.lift (p := WritesResource discovery) ?_ fun name hname other hother => ?_
        · exact (writes_serve hscim (hparsed inner rfl)).bind fun _ _ => trivial
        · cases hother
          exact hname
    | login inner =>
        refine Within.lift (p := fun _ => True) ?_ fun _ _ _ hother => nomatch hother
        exact (within_true _).imp fun _ _ => trivial
  refine hwithin.meets ?_ store
  rintro name store answer after hname ⟨hspares, outcome, hexec⟩ hunmixed
  exact hunmixed.exec hname hspares hexec

/-- In every run of SCIM requests, logins and links whose calls mix no identities at the
provider, both collections are listed, and the resources of SCIM are served as they would be
without the identities SCIM has not written. -/
theorem collection_unharmed {κ : Type} [LinearOrder κ] {rank : String → κ} (hrank : Collates rank)
    (hscim : handler.scim = some discovery) {events : List SharedEvent} {final : SharedPool}
    (hparsed : ∀ request, .start (.scim request) ∈ events → request.Parsed)
    (hspares : Runs.Along (sharedStep handler service)
      (fun pool event => pool.Allows (Spares discovery) event) (Pool.idle ⟨.empty, []⟩) events)
    (hrun : Runs.run (sharedStep handler service) (Pool.idle ⟨.empty, []⟩) events = some final) :
    Unharmed rank handler discovery final.store := by
  have hidle : Pool.Meets (fun _ => SharedCall.exec) (Spares discovery) (KeepsUnmixed discovery)
      (fun _ _ _ _ => True) (Pool.idle ⟨.empty, []⟩ : SharedPool) := Pool.meets_idle _
  have hserved : ∀ request, .start request ∈ events → ∀ (_ : Nat) store,
      Program.Meets (Pool.Answers SharedCall.exec (Spares discovery)) (KeepsUnmixed discovery)
        (fun _ _ => True) (serveShared handler service request) store :=
    fun request hstart _ store =>
      serveShared_meets hscim (fun inner hinner => hparsed inner (hinner ▸ hstart)) store
  obtain ⟨hkeeps, -⟩ := Pool.run_meets hserved hidle hspares hrun
  exact (hkeeps (unmixed_empty discovery)).unharmed hrank hscim

end

/-! An account of SCIM, and a login under the same provider. -/

namespace Intranet

def handler : PrincipalHandler := ⟨.sqlite, some ⟨"hr", "hr.example"⟩⟩

def service : AccountLinkingService := ⟨⟨.firstLogin, [], .empty⟩⟩

def account : ScimUserResource where
  schemas := [userSchema]
  id := none
  externalId := some "7"
  userName := "ada"
  displayName := none
  active := none
  emails := []
  metadata := none
  attributes := .empty

theorem account_parsed : (ScimResource.user account).Parsed := ⟨account.toObject, rfl⟩

def login (claims : JsonMap) : SharedRequest :=
  .login (.resolveLogin ⟨⟨"hr", "hr.example", "9", claims⟩, ["pwd"], none, 0⟩ .user [2])

/-- SCIM creates the account, then another identity of the provider logs in. -/
def events (claims : JsonMap) : List SharedEvent :=
  [.start (.scim (.create (.user account) [1]))] ++
    List.replicate 5 (.resume 0 (.answered 0)) ++ [.start (login claims)] ++
    List.replicate 2 (.resume 1 (.answered 0))

theorem events_parsed {claims : JsonMap} {request : ScimRequest}
    (h : .start (.scim request) ∈ events claims) : request.Parsed := by
  simp only [events, login, List.mem_append, List.mem_cons, List.not_mem_nil, or_false,
    List.mem_replicate, PoolEvent.start.injEq, SharedRequest.scim.injEq, reduceCtorEq, and_false,
    or_self] at h
  rw [h]
  exact account_parsed

/-- A login whose claims have a user name harms nothing. -/
theorem named_login_unharmed : ∃ final,
    Runs.run (sharedStep handler service) (Pool.idle ⟨.empty, []⟩)
      (events (.ofList [("userName", .string "bob")])) = some final ∧
    final.store.db.principals.rows.length = 2 ∧
    Unharmed String.toList handler ⟨"hr", "hr.example"⟩ final.store := by
  have hrun : (Runs.run (sharedStep handler service) (Pool.idle ⟨.empty, []⟩)
      (events (.ofList [("userName", .string "bob")]))).any (fun final =>
        final.store.db.principals.rows.length = 2) = true := by
    decide +kernel
  obtain ⟨final, hfinal, hlength⟩ := (Option.any_eq_true _ _).mp hrun
  refine ⟨final, hfinal, of_decide_eq_true hlength, ?_⟩
  exact collection_unharmed Roster.collates rfl (fun _ => events_parsed) (by decide +kernel) hfinal

/-- The first page of the listing has an entry that is no resource. -/
def firstPageFails (db : IamDatabase) : Bool :=
  !(db.list String.toList "" none 100).isEmpty &&
    ((handler.readPage db (fun _ => 0) .user (db.list String.toList "" none 100)).any fun read =>
      !read.isOk)

theorem listing_fails {db : IamDatabase} (h : firstPageFails db = true) (fuel : Nat)
    (query : ScimListQuery) :
    ∃ error, handler.listScim String.toList db (fun _ => 0) .user (fuel + 1) query =
      some (.error error) := by
  obtain ⟨hpage, hread⟩ := Bool.and_eq_true_iff.mp h
  obtain ⟨read, hread, herror⟩ := (Option.any_eq_true _ _).mp hread
  cases read with
  | ok resources => cases herror
  | error error =>
      refine ⟨error, ?_⟩
      have hscim : handler.scim = some ⟨"hr", "hr.example"⟩ := rfl
      simp only [PrincipalHandler.listScim, hscim, PrincipalHandler.collectScim]
      cases hlast : (db.list String.toList "" none 100).getLast? with
      | none =>
          rw [List.getLast?_eq_none_iff.mp hlast] at hpage
          cases hpage
      | some last =>
          simp only [hread]
          rfl

/-- A login without a user name takes the collection down. -/
theorem nameless_login_harms : ∃ final,
    Runs.run (sharedStep handler service) (Pool.idle ⟨.empty, []⟩) (events .empty) = some final ∧
    ¬Unharmed String.toList handler ⟨"hr", "hr.example"⟩ final.store := by
  have hrun : (Runs.run (sharedStep handler service) (Pool.idle ⟨.empty, []⟩)
      (events .empty)).any (fun final => firstPageFails final.store.db) = true := by
    decide +kernel
  obtain ⟨final, hfinal, hfails⟩ := (Option.any_eq_true _ _).mp hrun
  refine ⟨final, hfinal, fun hunharmed => ?_⟩
  obtain ⟨response, enough, hlists⟩ := hunharmed.lists .user nofun (fun _ => 0)
    (fun _ hne => List.length_pos_iff.mpr hne) ⟨1, 10, none⟩ nofun
  obtain ⟨error, hlisted⟩ := listing_fails hfails enough ⟨1, 10, none⟩
  rw [hlists (enough + 1) (Nat.le_succ enough)] at hlisted
  cases hlisted

end Intranet

end Authguard
