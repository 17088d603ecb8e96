import Authguard.Authn.AccountLinking

/-!
Bindings of external identities under any number of concurrent logins and links.
A binding is made once and never changed, a principal is created together with
the binding it is created for, and every answer names the principal the identity
is bound to.
-/

namespace Authguard
open Program

def ExternalIdentity.bindingKey (identity : ExternalIdentity) : ExternalIdentityKey :=
  ⟨identity.provider, identity.issuer, identity.subject⟩

def LinkRequest.identity : LinkRequest → ExternalIdentity
  | .resolveLogin authentication _ _ => authentication.externalIdentity
  | .linkIdentity _ authentication => authentication.externalIdentity

def BoundTo (db : IamDatabase) (key : ExternalIdentityKey) (principalId : String) : Prop :=
  ∃ row, db.identities.find key = some row ∧ row.principalId = principalId

theorem BoundTo.unique {db : IamDatabase} {key : ExternalIdentityKey} {id id' : String}
    (h : BoundTo db key id) (h' : BoundTo db key id') : id = id' := by
  obtain ⟨row, hrow, rfl⟩ := h
  obtain ⟨row', hrow', rfl⟩ := h'
  rw [hrow, Option.some.injEq] at hrow'
  rw [hrow']

/-- The login that created the principal: it was one of those started, its provider may
create principals, and its identity is bound to the principal. -/
structure CreatedFor (policy : AccountLinkingProperties) (Started : LinkRequest → Prop)
    (db : IamDatabase) (principal : PrincipalRow) (authentication : AuthenticationResult)
    (kind : PrincipalKind) (random : List UInt8) : Prop where
  started : Started (.resolveLogin authentication kind random)
  principal_eq : principal = newPrincipal authentication.externalIdentity kind random
  creates : policy.creates authentication.externalIdentity.provider
  bound : BoundTo db authentication.externalIdentity.bindingKey principal.id

/-- Bindings stay as they are, and every new principal was created for a login. -/
structure KeepsBindings (policy : AccountLinkingProperties) (Started : LinkRequest → Prop)
    (db after : IamDatabase) : Prop where
  bound : ∀ key row, db.identities.find key = some row → after.identities.find key = some row
  created : ∀ principal ∈ after.principals.rows, principal ∈ db.principals.rows ∨
    ∃ authentication kind random,
      CreatedFor policy Started after principal authentication kind random

section
variable {policy : AccountLinkingProperties} {Started : LinkRequest → Prop}

theorem KeepsBindings.boundTo {db after : IamDatabase} (h : KeepsBindings policy Started db after)
    {key : ExternalIdentityKey} {id : String} (hbound : BoundTo db key id) :
    BoundTo after key id := by
  obtain ⟨row, hrow, hid⟩ := hbound
  exact ⟨row, h.bound key row hrow, hid⟩

instance : Std.Refl (KeepsBindings policy Started) :=
  ⟨fun _ => ⟨fun _ _ h => h, fun _ h => .inl h⟩⟩

instance : IsTrans IamDatabase (KeepsBindings policy Started) where
  trans first second third h h' := by
    refine ⟨fun key row hrow => h'.bound key row (h.bound key row hrow), ?_⟩
    intro principal hprincipal
    obtain hsecond | hcreated := h'.created principal hprincipal
    · obtain hfirst | ⟨authentication, kind, random, hfor⟩ := h.created principal hsecond
      · exact .inl hfirst
      · exact .inr ⟨authentication, kind, random,
          { hfor with bound := h'.boundTo hfor.bound }⟩
    · exact .inr hcreated

end

/-! Transactions. -/

theorem createPrincipalAndBind_eq_ok {db after : IamDatabase} {principal answer : PrincipalRow}
    {identity : ExternalIdentity}
    (h : db.createPrincipalAndBind principal identity = .ok (answer, after)) :
    answer = principal ∧ db.principals.insert principal = some after.principals ∧
      db.identities.insert (identity.boundTo principal.id) = some after.identities := by
  rw [IamDatabase.createPrincipalAndBind, Result.bind_ok_iff] at h
  obtain ⟨created, hcreated, h⟩ := h
  obtain ⟨bound, hbound, h⟩ := Result.bind_ok_iff.mp h
  cases h
  obtain ⟨hprincipals, hidentities⟩ :=
    IamDatabase.insertPrincipal_eq_ok (Result.mapError_ok.mp hcreated)
  obtain ⟨hinsert, hsame⟩ := IamDatabase.insertIdentity_eq_ok (Result.mapError_ok.mp hbound)
  rw [hidentities] at hinsert
  rw [hsame]
  exact ⟨rfl, hprincipals, hinsert⟩

theorem bindIdentity_eq_ok {db after : IamDatabase} {principalId : String}
    {answer : PrincipalRow} {identity : ExternalIdentity}
    (h : db.bindIdentity principalId identity = .ok (answer, after)) :
    answer.id = principalId ∧ after.principals = db.principals ∧
      db.identities.insert (identity.boundTo principalId) = some after.identities := by
  rw [IamDatabase.bindIdentity.eq_def] at h
  split at h
  · cases h
  · rename_i principal hprincipal
    obtain ⟨bound, hbound, h⟩ := Result.bind_ok_iff.mp h
    cases h
    obtain ⟨hinsert, hsame⟩ := IamDatabase.insertIdentity_eq_ok (Result.mapError_ok.mp hbound)
    exact ⟨(Table.find_eq_some.mp hprincipal).2, hsame, hinsert⟩

theorem boundTo_of_insert {db after : IamDatabase} {principalId : String}
    {identity : ExternalIdentity}
    (h : db.identities.insert (identity.boundTo principalId) = some after.identities) :
    BoundTo after identity.bindingKey principalId :=
  ⟨identity.boundTo principalId, (Table.find_insert h identity.bindingKey).trans (if_pos rfl), rfl⟩

/-! Stores that hold the tables. -/

/-- The writes the request can make. -/
inductive LinkRequest.Writes (policy : AccountLinkingProperties) :
    LinkRequest → IdentityCall → Prop
  | createPrincipalAndBind {authentication : AuthenticationResult} (kind : PrincipalKind)
      (random : List UInt8) (creates : policy.creates authentication.externalIdentity.provider) :
      Writes policy (.resolveLogin authentication kind random)
        (.createPrincipalAndBind (newPrincipal authentication.externalIdentity kind random)
          authentication.externalIdentity)
  | bindIdentity (principalId : String) (authentication : AuthenticationResult) :
      Writes policy (.linkIdentity principalId authentication)
        (.bindIdentity principalId authentication.externalIdentity)

/-- The principal that a write of the request binds its identity to. -/
def LinkRequest.target : LinkRequest → String
  | .resolveLogin authentication kind random =>
      (newPrincipal authentication.externalIdentity kind random).id
  | .linkIdentity principalId _ => principalId

/-- A write binds the identity of the request, for a login to the principal it creates, or
it changes nothing. -/
theorem LinkRequest.Writes.exec {policy : AccountLinkingProperties} {request : LinkRequest}
    {call : IdentityCall} {outcome : StoreOutcome} {db after : IamDatabase} {answer : call.Answer}
    (h : request.Writes policy call) (hexec : call.exec outcome db = some (answer, after)) :
    after = db ∨
      (db.identities.insert (request.identity.boundTo request.target) = some after.identities ∧
        (after.principals = db.principals ∨ ∃ authentication kind random,
          request = .resolveLogin authentication kind random ∧
          policy.creates authentication.externalIdentity.provider ∧
          db.principals.insert (newPrincipal authentication.externalIdentity kind random) =
            some after.principals)) := by
  cases h with
  | createPrincipalAndBind kind random hcreates =>
      obtain ⟨rfl, -⟩ | ⟨value, hwritten, -⟩ := writeCall_cases (Option.some.inj hexec)
      · exact .inl rfl
      · obtain ⟨rfl, hprincipals, hidentities⟩ := createPrincipalAndBind_eq_ok hwritten
        exact .inr ⟨hidentities, .inr ⟨_, kind, random, rfl, hcreates, hprincipals⟩⟩
  | bindIdentity principalId authentication =>
      obtain ⟨rfl, -⟩ | ⟨value, hwritten, -⟩ := writeCall_cases (Option.some.inj hexec)
      · exact .inl rfl
      · obtain ⟨-, hprincipals, hidentities⟩ := bindIdentity_eq_ok hwritten
        exact .inr ⟨hidentities, .inl hprincipals⟩

/-- A request is served over a store that holds the tables: they answer its calls, no
binding is lost, and its writes keep the relation. -/
structure HoldsTables {σ : Type} (db : σ → IamDatabase)
    (Step : (call : IdentityCall) → σ → call.Answer → σ → Prop) (Keeps : σ → σ → Prop)
    (policy : AccountLinkingProperties) (request : LinkRequest) : Prop where
  answers : ∀ call store answer after, Step call store answer after →
    ∃ outcome, call.exec outcome (db store) = some (answer, db after)
  bound : ∀ store later, Keeps store later → ∀ key row,
    (db store).identities.find key = some row → (db later).identities.find key = some row
  unchanged : ∀ call store answer after, Step call store answer after → db after = db store →
    Keeps store after
  written : ∀ call store answer after, request.Writes policy call →
    Step call store answer after → Keeps store after

/-- The context names the principal the identity is bound to; a link binds it to no other
than the one it is for. -/
structure LinkRequest.Answered (request : LinkRequest) (db : IamDatabase)
    (context : AuthenticatedPrincipalContext) : Prop where
  bound : BoundTo db request.identity.bindingKey context.principalId
  linked : ∀ principalId authentication, request = .linkIdentity principalId authentication →
    context.principalId = principalId

section
variable {σ : Type} {tables : σ → IamDatabase}
  {Step : (call : IdentityCall) → σ → call.Answer → σ → Prop} {Keeps : σ → σ → Prop}
  {policy : AccountLinkingProperties} {request : LinkRequest}

theorem HoldsTables.boundTo (h : HoldsTables tables Step Keeps policy request) {store later : σ}
    (hlater : Keeps store later) {key : ExternalIdentityKey} {principalId : String}
    (hbound : BoundTo (tables store) key principalId) : BoundTo (tables later) key principalId := by
  obtain ⟨row, hrow, hid⟩ := hbound
  exact ⟨row, h.bound store later hlater key row hrow, hid⟩

theorem meets_validKey (identity : ExternalIdentity) (store : σ) :
    Meets Step Keeps (fun key _ => key = identity.bindingKey) identity.validKey store := by
  rw [ExternalIdentity.validKey, ExternalIdentity.key, ExternalIdentityKey.new]
  split
  · rename_i key hkey
    refine meets_ok fun _ _ => ?_
    split at hkey
    · cases hkey
    · split at hkey
      · cases hkey
      · split at hkey
        · cases hkey
        · cases hkey
          rfl
  · exact meets_fail _ store

variable (h : HoldsTables tables Step Keeps policy request)
include h

theorem meets_findPrincipalByIdentity (key : ExternalIdentityKey) (store : σ) :
    Meets Step Keeps
      (fun found last => ∀ principal, found = some principal →
        BoundTo (tables last) key principal.id)
      (LinkProgram.findPrincipalByIdentity key) store := by
  intro later hlater answer after hstep
  obtain ⟨outcome, hexec⟩ := h.answers _ later answer after hstep
  obtain ⟨hsame, rfl | ⟨error, rfl⟩⟩ := readCall_cases (Option.some.inj hexec)
  · refine ⟨h.unchanged _ later _ after hstep hsame, meets_ok fun last hlast => ?_⟩
    intro principal hfound
    obtain ⟨row, hrow, hprincipal⟩ := Option.bind_eq_some_iff.mp hfound
    refine h.boundTo hlast ?_
    rw [hsame]
    exact ⟨row, hrow, ((Table.find_eq_some.mp hprincipal).2).symm⟩
  · exact ⟨h.unchanged _ later _ after hstep hsame, meets_fail _ after⟩

theorem meets_createPrincipalAndBind {principal : PrincipalRow} {identity : ExternalIdentity}
    (hwrites : request.Writes policy (.createPrincipalAndBind principal identity)) (store : σ) :
    Meets Step Keeps
      (fun created last => BoundTo (tables last) identity.bindingKey created.id)
      (LinkProgram.createPrincipalAndBind principal identity) store := by
  intro later hlater answer after hstep
  refine ⟨h.written _ later answer after hwrites hstep, ?_⟩
  obtain ⟨outcome, hexec⟩ := h.answers _ later answer after hstep
  obtain ⟨-, error, rfl⟩ | ⟨value, hwritten, hanswer⟩ := writeCall_cases (Option.some.inj hexec)
  · exact meets_fail _ after
  · obtain ⟨rfl, -, hidentities⟩ := createPrincipalAndBind_eq_ok hwritten
    obtain rfl | ⟨error, rfl⟩ := hanswer
    · exact meets_ok fun last hlast => h.boundTo hlast (boundTo_of_insert hidentities)
    · exact meets_fail _ after

theorem meets_bindIdentity {principalId : String} {identity : ExternalIdentity}
    (hwrites : request.Writes policy (.bindIdentity principalId identity)) (store : σ) :
    Meets Step Keeps
      (fun bound last => bound.id = principalId ∧
        BoundTo (tables last) identity.bindingKey bound.id)
      (LinkProgram.bindIdentity principalId identity) store := by
  intro later hlater answer after hstep
  refine ⟨h.written _ later answer after hwrites hstep, ?_⟩
  obtain ⟨outcome, hexec⟩ := h.answers _ later answer after hstep
  obtain ⟨-, error, rfl⟩ | ⟨value, hwritten, hanswer⟩ := writeCall_cases (Option.some.inj hexec)
  · exact meets_fail _ after
  · obtain ⟨hid, -, hidentities⟩ := bindIdentity_eq_ok hwritten
    obtain rfl | ⟨error, rfl⟩ := hanswer
    · refine meets_ok fun last hlast => ⟨hid, ?_⟩
      exact h.boundTo hlast (hid ▸ boundTo_of_insert hidentities)
    · exact meets_fail _ after

theorem meets_principalHasProvider (principalId provider : String) (store : σ) :
    Meets Step Keeps (fun _ _ => True) (LinkProgram.principalHasProvider principalId provider)
      store := by
  intro later hlater answer after hstep
  obtain ⟨outcome, hexec⟩ := h.answers _ later answer after hstep
  obtain ⟨hsame, rfl | ⟨error, rfl⟩⟩ := readCall_cases (Option.some.inj hexec)
  · exact ⟨h.unchanged _ later _ after hstep hsame, meets_ok fun _ _ => trivial⟩
  · exact ⟨h.unchanged _ later _ after hstep hsame, meets_fail _ after⟩

/-- The context names the principal, whose binding lasts. -/
theorem meets_loginContext {principal : PrincipalRow} {key : ExternalIdentityKey} {store : σ}
    (hbound : BoundTo (tables store) key principal.id) (authentication : AuthenticationResult) :
    Meets Step Keeps
      (fun context last => context.principalId = principal.id ∧
        BoundTo (tables last) key context.principalId)
      (loginContext principal authentication) store := by
  rw [loginContext]
  split
  · exact meets_fail _ store
  · exact meets_ok fun last hlast => ⟨rfl, h.boundTo hlast hbound⟩

/-- The loop makes reads only. -/
theorem meets_permitted [Std.Refl Keeps] (principalId provider : String)
    (entries : List (String × List String)) (store : σ) :
    Meets Step Keeps (fun _ _ => True)
      (AccountLinkingService.permitted principalId provider entries) store := by
  induction entries generalizing store with
  | nil => exact meets_ok fun _ _ => trivial
  | cons entry entries ih =>
      rw [AccountLinkingService.permitted]
      split
      · refine (meets_principalHasProvider h principalId entry.1 store).bind fun found last _ => ?_
        cases found with
        | true => exact meets_ok fun _ _ => trivial
        | false => exact ih last
      · exact ih store

/-- What a login or a link answers, whatever else the store keeps. -/
theorem serve_meetsBindings [Std.Refl Keeps] (service : AccountLinkingService)
    (hpolicy : service.policy = policy) (store : σ) :
    Meets Step Keeps (fun context last => request.Answered (tables last) context)
      (service.serve request) store := by
  subst hpolicy
  cases request with
  | resolveLogin authentication kind random =>
      have hanswered : ∀ (principal : PrincipalRow) (last : σ),
          BoundTo (tables last) authentication.externalIdentity.bindingKey principal.id →
          Meets Step Keeps (fun context last =>
            (LinkRequest.resolveLogin authentication kind random).Answered (tables last) context)
            (loginContext principal authentication) last :=
        fun principal last hbound => (meets_loginContext h hbound authentication).imp
          fun context last hcontext => ⟨hcontext.2, nofun⟩
      refine (meets_validKey authentication.externalIdentity store).bind ?_
      rintro _ store rfl
      refine (meets_findPrincipalByIdentity h _ store).bind fun found last hfound => ?_
      cases found with
      | some principal => exact hanswered principal last (hfound principal rfl)
      | none =>
          dsimp only
          split
          · rename_i hcreates
            exact (meets_createPrincipalAndBind h (.createPrincipalAndBind kind random hcreates)
              last).bind hanswered
          · exact meets_fail _ last
  | linkIdentity principalId authentication =>
      refine (meets_validKey authentication.externalIdentity store).bind fun _ store _ => ?_
      refine (meets_permitted h principalId _ _ store).bind fun permitted last _ => ?_
      cases permitted with
      | false => exact meets_fail _ last
      | true =>
          refine (meets_bindIdentity h (.bindIdentity principalId authentication) last).bind ?_
          rintro principal bound ⟨hid, hbound⟩
          refine (meets_loginContext h hbound authentication).imp fun context last hcontext => ?_
          refine ⟨hcontext.2, ?_⟩
          rintro _ _ ⟨⟩
          rw [hcontext.1, hid]

end

/-! Runs. -/

/-- The tables themselves. -/
theorem holdsTables_keepsBindings {policy : AccountLinkingProperties}
    {Started : LinkRequest → Prop} {request : LinkRequest} (hstarted : Started request) :
    HoldsTables id (Pool.Answers IdentityCall.exec fun _ _ => True)
      (KeepsBindings policy Started) policy request where
  answers call db answer after hstep := hstep.2
  bound db later hlater := hlater.bound
  unchanged call db answer after _ hsame := by
    rw [show after = db from hsame]
    exact refl_of (KeepsBindings policy Started) db
  written call db answer after hwrites hstep := by
    obtain ⟨-, outcome, hexec⟩ := hstep
    obtain rfl | ⟨hidentities, hprincipals⟩ := hwrites.exec hexec
    · exact refl_of (KeepsBindings policy Started) after
    · refine ⟨fun key row hrow => Table.find_of_insert hidentities hrow, ?_⟩
      intro principal hprincipal
      obtain hsame | ⟨authentication, kind, random, rfl, hcreates, hinsert⟩ := hprincipals
      · rw [hsame] at hprincipal
        exact .inl hprincipal
      · obtain hbefore | rfl := (Table.mem_insert hinsert).mp hprincipal
        · exact .inl hbefore
        · exact .inr ⟨authentication, kind, random, hstarted, rfl, hcreates,
            boundTo_of_insert hidentities⟩

/-- What holds of the bindings where a run of logins and links ends. -/
structure BoundForGood (service : AccountLinkingService) (db : IamDatabase)
    (events : List LinkEvent) (final : LinkPool) : Prop where
  once : ∀ row ∈ final.store.identities.rows, ∀ other ∈ final.store.identities.rows,
    row.key = other.key → row.principalId = other.principalId
  kept : ∀ past future reached, events = past ++ future →
    Runs.run service.linkStep (Pool.idle db) past = some reached →
    ∀ key principalId, BoundTo reached.store key principalId →
      BoundTo final.store key principalId
  /-- A principal that was not there at the start has the identity of the login that
  created it, from an authoritative provider unless any provider may create one. -/
  created : ∀ principal ∈ final.store.principals.rows, principal ∉ db.principals.rows →
    ∃ authentication kind random, .start (.resolveLogin authentication kind random) ∈ events ∧
      principal = newPrincipal authentication.externalIdentity kind random ∧
      BoundTo final.store authentication.externalIdentity.bindingKey principal.id ∧
      (service.policy.strategy = .explicit →
        authentication.externalIdentity.provider ∈ service.policy.authoritativeProviders)
  /-- Logins that returned for one identity returned one principal. -/
  agree : ∀ authentication kind random context authentication' kind' random' context',
    (.resolveLogin authentication kind random, .ok context) ∈ final.tasks →
    (.resolveLogin authentication' kind' random', .ok context') ∈ final.tasks →
    authentication.externalIdentity.bindingKey = authentication'.externalIdentity.bindingKey →
    context.principalId = context'.principalId

theorem bound_for_good (service : AccountLinkingService) {db : IamDatabase}
    {events : List LinkEvent} {final : LinkPool}
    (hrun : Runs.run service.linkStep (Pool.idle db) events = some final) :
    BoundForGood service db events final := by
  have hserve : ∀ request, .start request ∈ events → ∀ (_ : Nat) (store : IamDatabase),
      Meets (Pool.Answers IdentityCall.exec fun _ _ => True)
        (KeepsBindings service.policy fun request => .start request ∈ events)
        (fun context last => request.Answered last context) (service.serve request) store :=
    fun request hstarted _ store =>
      serve_meetsBindings (holdsTables_keepsBindings hstarted) service rfl store
  obtain ⟨hkeeps, hmeets⟩ := Pool.run_meets_of_allowed (fun _ _ => trivial) hserve
    (Pool.meets_idle db) hrun
  constructor
  · intro row hrow other hother hkey
    have hbound : BoundTo final.store row.key row.principalId :=
      ⟨row, Table.find_eq_some.mpr ⟨hrow, rfl⟩, rfl⟩
    exact hbound.unique ⟨other, Table.find_eq_some.mpr ⟨hother, hkey.symm⟩, rfl⟩
  · rintro past future reached rfl hpast key principalId hbound
    have hreached := (Pool.run_meets_of_allowed (fun _ _ => trivial)
      (fun request hstarted => hserve request (List.mem_append_left future hstarted))
      (Pool.meets_idle db) hpast).2
    obtain ⟨next, hnext, hfuture⟩ := Runs.run_append_eq_some.mp hrun
    rw [hpast, Option.some.injEq] at hnext
    subst hnext
    exact (Pool.run_meets_of_allowed (fun _ _ => trivial)
      (fun request hstarted => hserve request (List.mem_append_right past hstarted))
      hreached hfuture).1.boundTo hbound
  · intro principal hprincipal hnew
    obtain hold | ⟨authentication, kind, random, hfor⟩ := hkeeps.created principal hprincipal
    · exact absurd hold hnew
    · refine ⟨authentication, kind, random, hfor.started, hfor.principal_eq, hfor.bound, ?_⟩
      intro hexplicit
      simpa [AccountLinkingProperties.creates, hexplicit] using hfor.creates
  · intro authentication kind random context authentication' kind' random' context' htask htask'
      hkey
    obtain ⟨task, htask⟩ := List.mem_iff_getElem?.mp htask
    obtain ⟨task', htask'⟩ := List.mem_iff_getElem?.mp htask'
    have hbound := (Pool.returned_meets hmeets htask).bound
    have hbound' := (Pool.returned_meets hmeets htask').bound
    rw [LinkRequest.identity, ← hkey] at hbound'
    exact hbound.unique hbound'

/-! Two first logins of one identity, and a link of the same. -/

namespace FirstLogins

def service : AccountLinkingService :=
  ⟨⟨.explicit, ["corp"], .ofList [("corp", ["corp"])]⟩⟩

def authentication : AuthenticationResult :=
  ⟨⟨"corp", "idp", "7", .empty⟩, ["pwd"], none, 0⟩

/-- Both logins find nothing; the second creation loses the race. -/
def events : List LinkEvent :=
  [.start (.resolveLogin authentication .user [1]), .start (.resolveLogin authentication .user [2]),
    .resume 0 (.answered 0), .resume 1 (.answered 0), .resume 0 (.answered 0),
    .resume 1 (.answered 0), .start (.linkIdentity "P_AQ" authentication),
    .resume 2 (.answered 0), .resume 2 (.answered 0)]

theorem events_bound : ∃ final, Runs.run service.linkStep (Pool.idle .empty) events = some final ∧
    final.tasks.all (·.2.isDone) ∧ final.store.principals.rows.length = 1 ∧
    BoundForGood service .empty events final := by
  have hrun : (Runs.run service.linkStep (Pool.idle .empty) events).any (fun final =>
      final.tasks.all (·.2.isDone) && final.store.principals.rows.length = 1) = true := by
    decide +kernel
  obtain ⟨final, hfinal, hdone⟩ := (Option.any_eq_true _ _).mp hrun
  obtain ⟨hdone, hlength⟩ := Bool.and_eq_true_iff.mp hdone
  exact ⟨final, hfinal, hdone, of_decide_eq_true hlength, bound_for_good service hfinal⟩

end FirstLogins

end Authguard
