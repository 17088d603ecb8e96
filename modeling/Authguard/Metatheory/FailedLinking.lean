import Authguard.Authn.Registration
import Authguard.Metatheory.IdentityBinding
import Authguard.Metatheory.TotpReplay

/-!
What a login, a link and a registration leave behind when they fail. Each writes
at one place at most and reads before it; only a registration undoes its write,
and only where the credential is what fails.
-/

namespace Authguard
open Program Text

/-- The same principals, bindings and credentials. -/
structure StandaloneStore.SameAccounts (store last : StandaloneStore) : Prop where
  principals : ∀ id, last.iam.principals.find id = store.iam.principals.find id
  identities : ∀ key, last.iam.identities.find key = store.iam.identities.find key
  credentials : ∀ id, last.credentials.find id = store.credentials.find id

theorem StandaloneStore.SameAccounts.refl (store : StandaloneStore) : store.SameAccounts store :=
  ⟨fun _ => rfl, fun _ => rfl, fun _ => rfl⟩

/-! How a call ends. -/

def StoreOutcome.Answered : StoreOutcome → Prop
  | .answered _ => True
  | .failed _ | .lost _ => False

/-- A transaction gets to its end. -/
def StoreOutcome.Reached : StoreOutcome → Prop
  | .answered _ | .lost _ => True
  | .failed _ => False

section
variable {ε α : Type} {db : IamDatabase} {lift : String → ε} {outcome : StoreOutcome}

theorem readCall_answered (value : α) (h : outcome.Answered) :
    readCall db lift value outcome = (.ok value, db) := by
  cases outcome with
  | answered row => rfl
  | failed message | lost message => cases h

theorem readCall_unanswered (value : α) (h : ¬outcome.Answered) :
    ∃ error, readCall db lift value outcome = (.error error, db) := by
  cases outcome with
  | answered row => exact absurd trivial h
  | failed message | lost message => exact ⟨lift message, rfl⟩

variable {transaction : Except ε (α × IamDatabase)}

theorem writeCall_answered {value : α} {after : IamDatabase}
    (htransaction : transaction = .ok (value, after)) (h : outcome.Answered) :
    writeCall db lift transaction outcome = (.ok value, after) := by
  subst htransaction
  cases outcome with
  | answered row => rfl
  | failed message | lost message => cases h

theorem writeCall_lost {value : α} {after : IamDatabase}
    (htransaction : transaction = .ok (value, after)) (hreached : outcome.Reached)
    (h : ¬outcome.Answered) :
    ∃ error, writeCall db lift transaction outcome = (.error error, after) := by
  subst htransaction
  cases outcome with
  | answered row => exact absurd trivial h
  | failed message => cases hreached
  | lost message => exact ⟨lift message, rfl⟩

/-- A write that does not take effect fails. -/
theorem writeCall_stopped
    (h : ∀ value after, transaction = .ok (value, after) → ¬outcome.Reached) :
    ∃ error, writeCall db lift transaction outcome = (.error error, db) := by
  cases outcome with
  | failed message => exact ⟨lift message, rfl⟩
  | answered row | lost message =>
      cases transaction with
      | error error => exact ⟨error, rfl⟩
      | ok written => exact absurd trivial (h written.1 written.2 rfl)

end

/-! The resolution of an identity. -/

/-- The context of an active principal. -/
def PrincipalRow.context (principal : PrincipalRow) (authentication : AuthenticationResult) :
    AuthenticatedPrincipalContext :=
  { principalId := principal.id
    kind := principal.kind
    stableGroupIds := []
    trustedClaims := .empty
    acr := authentication.acr
    amr := authentication.amr }

theorem loginContext_active {principal : PrincipalRow} (h : principal.status = .active)
    (authentication : AuthenticationResult) :
    loginContext principal authentication = .ok (principal.context authentication) := by
  rw [loginContext, if_neg (not_not_intro h)]
  rfl

theorem loginContext_disabled {principal : PrincipalRow} (h : principal.status ≠ .active)
    (authentication : AuthenticationResult) :
    loginContext principal authentication = .fail (.principalDisabled principal.id) := by
  rw [loginContext, if_pos h]

/-- A transaction that took effect, and how its call ended. -/
structure BindingWrite where
  principal : PrincipalRow
  outcome : StoreOutcome
  after : IamDatabase

/-- Nothing fails between the write and the context. -/
def BindingWrite.Confirmed (write : BindingWrite) : Prop :=
  write.outcome.Answered ∧ write.principal.status = .active

/-- The calls of a resolution, ended as `outcomes` has it. -/
def IdentityCall.execAt (call : IdentityCall) (outcomes : IdentityCall → StoreOutcome)
    (db : IamDatabase) : Option (call.Answer × IamDatabase) :=
  call.exec (outcomes call) db

section
variable (service : AccountLinkingService) (outcomes : IdentityCall → StoreOutcome)
  (db : IamDatabase) (authentication : AuthenticationResult)

/-- The login creates the principal of a new identity. -/
structure LoginWrites (kind : PrincipalKind) (random : List UInt8) (write : BindingWrite) :
    Prop where
  key : authentication.externalIdentity.key = .ok authentication.externalIdentity.bindingKey
  looked :
    (outcomes (.findPrincipalByIdentity authentication.externalIdentity.bindingKey)).Answered
  unbound : db.findPrincipalByIdentity authentication.externalIdentity.bindingKey = none
  creates : service.policy.creates authentication.externalIdentity.provider = true
  principal_eq : write.principal = newPrincipal authentication.externalIdentity kind random
  outcome_eq : write.outcome =
    outcomes (.createPrincipalAndBind write.principal authentication.externalIdentity)
  reached : write.outcome.Reached
  committed : db.createPrincipalAndBind write.principal authentication.externalIdentity =
    .ok (write.principal, write.after)

/-- The login finds the active principal of the identity. -/
structure LoginKnown (principal : PrincipalRow) : Prop where
  key : authentication.externalIdentity.key = .ok authentication.externalIdentity.bindingKey
  looked :
    (outcomes (.findPrincipalByIdentity authentication.externalIdentity.bindingKey)).Answered
  bound : db.findPrincipalByIdentity authentication.externalIdentity.bindingKey = some principal
  active : principal.status = .active

/-- The loop over `allow_link` permits the link. -/
def LinkPermitted (principalId provider : String) : List (String × List String) → Prop
  | [] => False
  | (authoritative, secondary) :: rest =>
      if secondary.contains provider then
        (outcomes (.principalHasProvider principalId authoritative)).Answered ∧
          (db.principalHasProvider principalId authoritative = true ∨
            LinkPermitted principalId provider rest)
      else
        LinkPermitted principalId provider rest

/-- The link binds the identity. -/
structure LinkWrites (principalId : String) (write : BindingWrite) : Prop where
  key : authentication.externalIdentity.key = .ok authentication.externalIdentity.bindingKey
  permitted : LinkPermitted outcomes db principalId authentication.externalIdentity.provider
    service.policy.allowLink.entries
  outcome_eq : write.outcome =
    outcomes (.bindIdentity principalId authentication.externalIdentity)
  reached : write.outcome.Reached
  committed : db.bindIdentity principalId authentication.externalIdentity =
    .ok (write.principal, write.after)

/-- How a resolution ends: behind its write, with the principal it found, or refused. -/
inductive ResolutionEnds (Writes : BindingWrite → Prop) (Known : PrincipalRow → Prop) :
    Except AccountLinkingError AuthenticatedPrincipalContext → IamDatabase → Prop
  | confirmed (write : BindingWrite) (writes : Writes write) (confirmed : write.Confirmed) :
      ResolutionEnds Writes Known (.ok (write.principal.context authentication)) write.after
  | broken (write : BindingWrite) (writes : Writes write) (unconfirmed : ¬write.Confirmed)
      (error : AccountLinkingError) : ResolutionEnds Writes Known (.error error) write.after
  | known (principal : PrincipalRow) (known : Known principal)
      (unwritten : ∀ write, ¬Writes write) :
      ResolutionEnds Writes Known (.ok (principal.context authentication)) db
  | refused (error : AccountLinkingError) (unwritten : ∀ write, ¬Writes write)
      (unknown : ∀ principal, ¬Known principal) : ResolutionEnds Writes Known (.error error) db

end

section
variable {service : AccountLinkingService} {outcomes : IdentityCall → StoreOutcome}
  {db : IamDatabase} {authentication : AuthenticationResult}

theorem LoginWrites.unique {kind : PrincipalKind} {random : List UInt8} {write other : BindingWrite}
    (h : LoginWrites service outcomes db authentication kind random write)
    (hother : LoginWrites service outcomes db authentication kind random other) :
    other = write := by
  obtain ⟨principal, outcome, after⟩ := write
  obtain ⟨principal', outcome', after'⟩ := other
  obtain rfl : principal' = principal := hother.principal_eq.trans h.principal_eq.symm
  obtain rfl : outcome' = outcome := hother.outcome_eq.trans h.outcome_eq.symm
  cases hother.committed.symm.trans h.committed
  rfl

theorem LinkWrites.unique {principalId : String} {write other : BindingWrite}
    (h : LinkWrites service outcomes db authentication principalId write)
    (hother : LinkWrites service outcomes db authentication principalId other) :
    other = write := by
  obtain ⟨principal, outcome, after⟩ := write
  obtain ⟨principal', outcome', after'⟩ := other
  obtain rfl : outcome' = outcome := hother.outcome_eq.trans h.outcome_eq.symm
  cases hother.committed.symm.trans h.committed
  rfl

theorem LoginKnown.not_writes {kind : PrincipalKind} {random : List UInt8}
    {principal : PrincipalRow} (h : LoginKnown outcomes db authentication principal) (write : BindingWrite) :
    ¬LoginWrites service outcomes db authentication kind random write := by
  intro hwrites
  have hnone := hwrites.unbound
  rw [h.bound] at hnone
  cases hnone

theorem ExternalIdentity.key_ok {identity : ExternalIdentity} {key : ExternalIdentityKey}
    (h : identity.key = .ok key) : key = identity.bindingKey := by
  rw [ExternalIdentity.key, ExternalIdentityKey.new] at h
  split at h
  · cases h
  · split at h
    · cases h
    · split at h
      · cases h
      · cases h
        rfl

/-! The four calls. -/

theorem evaluate_answered {α : Type} (answer : Except IdentityRepositoryError α) :
    (LinkProgram.answered answer).evaluate IdentityCall.execAt outcomes db =
      some (answer.mapError .ofRepository, db) := by
  cases answer with
  | ok value => rfl
  | error error => rfl

theorem evaluate_findPrincipalByIdentity (key : ExternalIdentityKey) :
    (LinkProgram.findPrincipalByIdentity key).evaluate IdentityCall.execAt outcomes db =
      (fun ended => some (ended.1.mapError .ofRepository, ended.2))
        (readCall db .backend (db.findPrincipalByIdentity key)
          (outcomes (.findPrincipalByIdentity key))) :=
  evaluate_answered _

theorem evaluate_principalHasProvider (principalId provider : String) :
    (LinkProgram.principalHasProvider principalId provider).evaluate IdentityCall.execAt outcomes
        db =
      (fun ended => some (ended.1.mapError .ofRepository, ended.2))
        (readCall db .backend (db.principalHasProvider principalId provider)
          (outcomes (.principalHasProvider principalId provider))) :=
  evaluate_answered _

theorem evaluate_createPrincipalAndBind (principal : PrincipalRow) (identity : ExternalIdentity) :
    (LinkProgram.createPrincipalAndBind principal identity).evaluate IdentityCall.execAt outcomes
        db =
      (fun ended => some (ended.1.mapError .ofRepository, ended.2))
        (writeCall db .backend (db.createPrincipalAndBind principal identity)
          (outcomes (.createPrincipalAndBind principal identity))) :=
  evaluate_answered _

theorem evaluate_bindIdentity (principalId : String) (identity : ExternalIdentity) :
    (LinkProgram.bindIdentity principalId identity).evaluate IdentityCall.execAt outcomes db =
      (fun ended => some (ended.1.mapError .ofRepository, ended.2))
        (writeCall db .backend (db.bindIdentity principalId identity)
          (outcomes (.bindIdentity principalId identity))) :=
  evaluate_answered _

/-! The two resolutions. -/

/-- The write of a resolution and the status check behind it. -/
theorem written_ends {Writes : BindingWrite → Prop} {Known : PrincipalRow → Prop}
    {write : BindingWrite} (hwrites : Writes write)
    {transaction : Except IdentityRepositoryError (PrincipalRow × IamDatabase)}
    (htransaction : transaction = .ok (write.principal, write.after))
    (hreached : write.outcome.Reached) {program : LinkProgram PrincipalRow}
    (hprogram : program.evaluate IdentityCall.execAt outcomes db =
      (fun ended => some (ended.1.mapError .ofRepository, ended.2))
        (writeCall db .backend transaction write.outcome)) :
    ∃ result after, (program >>= fun principal => loginContext principal authentication).evaluate
        IdentityCall.execAt outcomes db = some (result, after) ∧
      ResolutionEnds db authentication Writes Known result after := by
  rw [evaluate_bind, hprogram]
  by_cases hanswered : write.outcome.Answered
  · rw [writeCall_answered htransaction hanswered]
    by_cases hactive : write.principal.status = .active
    · refine ⟨.ok (write.principal.context authentication), write.after, ?_,
        .confirmed write hwrites ⟨hanswered, hactive⟩⟩
      exact congrArg (Program.evaluate IdentityCall.execAt outcomes · write.after)
        (loginContext_active hactive authentication)
    · refine ⟨.error (.principalDisabled write.principal.id), write.after, ?_,
        .broken write hwrites (fun h => hactive h.2) _⟩
      exact congrArg (Program.evaluate IdentityCall.execAt outcomes · write.after)
        (loginContext_disabled hactive authentication)
  · obtain ⟨error, herror⟩ : ∃ error, writeCall db IdentityRepositoryError.backend transaction
        write.outcome = (.error error, write.after) :=
      writeCall_lost htransaction hreached hanswered
    rw [herror]
    exact ⟨.error (.ofRepository error), write.after, rfl,
      .broken write hwrites (fun h => hanswered h.1) _⟩

/-- A write that did not take effect. -/
theorem unwritten_ends {Writes : BindingWrite → Prop} {Known : PrincipalRow → Prop}
    (hunwritten : ∀ write, ¬Writes write) (hunknown : ∀ principal, ¬Known principal)
    {transaction : Except IdentityRepositoryError (PrincipalRow × IamDatabase)}
    {outcome : StoreOutcome}
    (hstopped : ∀ value after, transaction = .ok (value, after) → ¬outcome.Reached)
    {program : LinkProgram PrincipalRow}
    (hprogram : program.evaluate IdentityCall.execAt outcomes db =
      (fun ended => some (ended.1.mapError .ofRepository, ended.2))
        (writeCall db .backend transaction outcome)) :
    ∃ result after, (program >>= fun principal => loginContext principal authentication).evaluate
        IdentityCall.execAt outcomes db = some (result, after) ∧
      ResolutionEnds db authentication Writes Known result after := by
  obtain ⟨error, herror⟩ : ∃ error,
      writeCall db IdentityRepositoryError.backend transaction outcome = (.error error, db) :=
    writeCall_stopped hstopped
  rw [evaluate_bind, hprogram, herror]
  exact ⟨.error (.ofRepository error), db, rfl, .refused _ hunwritten hunknown⟩

theorem resolveLogin_ends (service : AccountLinkingService)
    (outcomes : IdentityCall → StoreOutcome) (db : IamDatabase)
    (authentication : AuthenticationResult) (kind : PrincipalKind) (random : List UInt8) :
    ∃ result after, (service.resolveLogin authentication kind random).evaluate IdentityCall.execAt
        outcomes db = some (result, after) ∧
      ResolutionEnds db authentication
        (LoginWrites service outcomes db authentication kind random)
        (LoginKnown outcomes db authentication) result after := by
  rw [AccountLinkingService.resolveLogin, ExternalIdentity.validKey]
  cases hkey : authentication.externalIdentity.key with
  | error error =>
      refine ⟨.error (.invalidIdentity error), db, rfl, .refused _ ?_ ?_⟩
      · intro write h
        cases hkey.symm.trans h.key
      · intro principal h
        cases hkey.symm.trans h.key
  | ok key =>
      obtain rfl := ExternalIdentity.key_ok hkey
      rw [ok_bind, evaluate_bind, evaluate_findPrincipalByIdentity]
      by_cases hlooked : (outcomes
          (.findPrincipalByIdentity authentication.externalIdentity.bindingKey)).Answered
      · rw [readCall_answered _ hlooked]
        cases hfound : db.findPrincipalByIdentity authentication.externalIdentity.bindingKey with
        | some principal =>
            by_cases hactive : principal.status = .active
            · have hknown : LoginKnown outcomes db authentication principal :=
                ⟨hkey, hlooked, hfound, hactive⟩
              refine ⟨.ok (principal.context authentication), db, ?_,
                .known principal hknown hknown.not_writes⟩
              exact congrArg (Program.evaluate IdentityCall.execAt outcomes · db)
                (loginContext_active hactive authentication)
            · refine ⟨.error (.principalDisabled principal.id), db, ?_, .refused _ ?_ ?_⟩
              · exact congrArg (Program.evaluate IdentityCall.execAt outcomes · db)
                  (loginContext_disabled hactive authentication)
              · intro write h
                cases hfound.symm.trans h.unbound
              · intro other h
                cases hfound.symm.trans h.bound
                exact hactive h.active
        | none =>
            have hunknown : ∀ principal, ¬LoginKnown outcomes db authentication principal := by
              intro principal h
              cases hfound.symm.trans h.bound
            by_cases hcreates :
                service.policy.creates authentication.externalIdentity.provider = true
            · simp only [Option.bind_some, continueWith, Except.mapError, hcreates, if_true]
              by_cases hcommits : ∃ write,
                  LoginWrites service outcomes db authentication kind random write
              · obtain ⟨write, hwrites⟩ := hcommits
                rw [← hwrites.principal_eq]
                exact written_ends hwrites hwrites.committed hwrites.reached
                  (hwrites.outcome_eq ▸ evaluate_createPrincipalAndBind _ _)
              · refine unwritten_ends (not_exists.mp hcommits) hunknown ?_
                  (evaluate_createPrincipalAndBind _ _)
                intro principal after htransaction hreached
                obtain ⟨rfl, -, -⟩ := createPrincipalAndBind_eq_ok htransaction
                exact hcommits ⟨⟨_, _, after⟩, hkey, hlooked, hfound, hcreates, rfl, rfl, hreached,
                  htransaction⟩
            · refine ⟨.error (.authoritativeLoginRequired authentication.externalIdentity.provider),
                db, ?_, .refused _ (fun write h => hcreates h.creates) hunknown⟩
              simp only [Option.bind_some, continueWith, Except.mapError, if_neg hcreates]
              rfl
      · obtain ⟨error, herror⟩ : ∃ error, readCall db IdentityRepositoryError.backend
            (db.findPrincipalByIdentity authentication.externalIdentity.bindingKey)
            (outcomes (.findPrincipalByIdentity authentication.externalIdentity.bindingKey)) =
              (.error error, db) :=
          readCall_unanswered _ hlooked
        rw [herror]
        refine ⟨.error (.ofRepository error), db, rfl, .refused _ ?_ ?_⟩
        · exact fun write h => hlooked h.looked
        · exact fun principal h => hlooked h.looked

/-- The loop only reads. -/
theorem evaluate_permitted (principalId provider : String) (entries : List (String × List String)) :
    ∃ result, (AccountLinkingService.permitted principalId provider entries).evaluate
        IdentityCall.execAt outcomes db = some (result, db) ∧
      (result = .ok true ↔ LinkPermitted outcomes db principalId provider entries) := by
  induction entries with
  | nil => exact ⟨.ok false, rfl, by simp [LinkPermitted]⟩
  | cons entry entries ih =>
      obtain ⟨authoritative, secondary⟩ := entry
      rw [AccountLinkingService.permitted, LinkPermitted]
      by_cases hsecondary : secondary.contains provider = true
      · rw [if_pos hsecondary, if_pos hsecondary, evaluate_bind, evaluate_principalHasProvider]
        by_cases hanswered : (outcomes (.principalHasProvider principalId authoritative)).Answered
        · rw [readCall_answered _ hanswered, and_iff_right hanswered]
          cases hprovider : db.principalHasProvider principalId authoritative with
          | true => exact ⟨.ok true, rfl, by simp⟩
          | false =>
              obtain ⟨result, hresult, hiff⟩ := ih
              exact ⟨result, hresult, by simpa using hiff⟩
        · obtain ⟨error, herror⟩ : ∃ error, readCall db IdentityRepositoryError.backend
              (db.principalHasProvider principalId authoritative)
              (outcomes (.principalHasProvider principalId authoritative)) = (.error error, db) :=
            readCall_unanswered _ hanswered
          rw [herror]
          exact ⟨.error (.ofRepository error), rfl, by simp [hanswered]⟩
      · rw [if_neg hsecondary, if_neg hsecondary]
        exact ih

/-- A link that is permitted is one to a principal with a binding. -/
theorem LinkPermitted.has_identity {principalId provider : String}
    {entries : List (String × List String)}
    (h : LinkPermitted outcomes db principalId provider entries) :
    ∃ row ∈ db.identities.rows, row.principalId = principalId := by
  induction entries with
  | nil => exact h.elim
  | cons entry entries ih =>
      obtain ⟨authoritative, secondary⟩ := entry
      rw [LinkPermitted] at h
      split at h
      · obtain ⟨-, hprovider | hrest⟩ := h
        · obtain ⟨row, hrow, hmatches⟩ := List.any_eq_true.mp hprovider
          exact ⟨row, hrow, (of_decide_eq_true hmatches).1⟩
        · exact ih hrest
      · exact ih h

theorem linkIdentity_ends (service : AccountLinkingService)
    (outcomes : IdentityCall → StoreOutcome) (db : IamDatabase)
    (authentication : AuthenticationResult) (principalId : String) :
    ∃ result after, (service.linkIdentity principalId authentication).evaluate IdentityCall.execAt
        outcomes db = some (result, after) ∧
      ResolutionEnds db authentication (LinkWrites service outcomes db authentication principalId)
        (fun _ => False) result after := by
  rw [AccountLinkingService.linkIdentity, ExternalIdentity.validKey]
  cases hkey : authentication.externalIdentity.key with
  | error error =>
      refine ⟨.error (.invalidIdentity error), db, rfl, .refused _ ?_ fun _ => id⟩
      intro write h
      cases hkey.symm.trans h.key
  | ok key =>
      obtain rfl := ExternalIdentity.key_ok hkey
      have hloop : ∃ result, (AccountLinkingService.permitted principalId
            authentication.externalIdentity.provider service.policy.allowLink.entries).evaluate
              IdentityCall.execAt outcomes db = some (result, db) ∧ _ :=
        evaluate_permitted principalId authentication.externalIdentity.provider
          service.policy.allowLink.entries
      obtain ⟨result, hresult, hpermitted⟩ := hloop
      rw [ok_bind, evaluate_bind, hresult, Option.bind_some]
      rcases result with error | _ | _
      · refine ⟨.error error, db, rfl, .refused _ ?_ fun _ => id⟩
        exact fun write h => by cases hpermitted.mpr h.permitted
      · refine ⟨.error (.linkNotAllowed authentication.externalIdentity.provider), db, rfl,
          .refused _ ?_ fun _ => id⟩
        exact fun write h => by cases hpermitted.mpr h.permitted
      · rw [continueWith, if_pos rfl]
        by_cases hcommits : ∃ write,
            LinkWrites service outcomes db authentication principalId write
        · obtain ⟨write, hwrites⟩ := hcommits
          exact written_ends hwrites hwrites.committed hwrites.reached
            (hwrites.outcome_eq ▸ evaluate_bindIdentity _ _)
        · refine unwritten_ends (not_exists.mp hcommits) (fun _ => id) ?_
            (evaluate_bindIdentity _ _)
          exact fun principal after htransaction hreached => hcommits
            ⟨⟨principal, _, after⟩, hkey, hpermitted.mp rfl, rfl, hreached, htransaction⟩

end

/-! The end of a request that resolves an identity. -/

/-- A call of the identity repository inside a request. -/
def RequestOutcomes.ofIdentity (outcomes : RequestOutcomes) (call : IdentityCall) : StoreOutcome :=
  match outcomes.repository (.standalone (.pipeline (.identity call))) with
  | .answered _ => .answered (outcomes.clock (.standalone (.pipeline (.identity call))))
  | other => other

def RequestOutcomes.issuedAt (outcomes : RequestOutcomes) : Nat :=
  outcomes.clock (.standalone (.pipeline .now))

theorem ofCall_identity (outcomes : RequestOutcomes) (call : IdentityCall) :
    (outcomes.ofCall (.pipeline (.identity call))).toStore = some (outcomes.ofIdentity call) := by
  simp only [RequestOutcomes.ofCall, RequestOutcomes.ofIdentity]
  cases outcomes.repository (.standalone (.pipeline (.identity call))) with
  | answered row | failed message | lost message => rfl

section
variable [SqlJson] (backend : Backend) (outcomes : RequestOutcomes)

def PipelineCall.execAt (backend : Backend) (call : PipelineCall) (outcomes : RequestOutcomes)
    (store : StandaloneStore) : Option (call.Answer × StandaloneStore) :=
  StandaloneCall.execAt backend (.pipeline call) outcomes store

theorem evaluate_registering {β : Type} (program : StandaloneProgram β) (store : StandaloneStore) :
    program.registering.evaluate (RegistrationCall.exec backend) outcomes store =
      program.evaluate (StandaloneCall.execAt backend) outcomes store := by
  refine (evaluate_lift program .standalone (fun _ answer => answer) id
    (StandaloneCall.execAt backend) outcomes (RegistrationCall.exec backend) outcomes id
    (fun _ store => store) (fun _ _ => rfl) (fun _ _ _ => rfl) (fun _ => rfl) (fun _ _ => rfl)
    store).trans ?_
  rw [id_eq]
  cases program.evaluate (StandaloneCall.execAt backend) outcomes store with
  | none => rfl
  | some ended =>
      obtain ⟨result, last⟩ := ended
      cases result with
      | ok value | error error => rfl

theorem evaluate_converge {β : Type} (program : PipelineProgram β) (store : StandaloneStore) :
    program.converge.evaluate (StandaloneCall.execAt backend) outcomes store =
      (program.evaluate (PipelineCall.execAt backend) outcomes store).map
        (Prod.map (Except.mapError .pipeline) id) := by
  refine (evaluate_lift program .pipeline (fun _ answer => answer) ApiError.pipeline
    (PipelineCall.execAt backend) outcomes (StandaloneCall.execAt backend) outcomes id
    (fun _ store => store) (fun _ _ => rfl) (fun _ _ _ => rfl) (fun _ => rfl) ?_ store).trans rfl
  exact fun _ _ => rfl

theorem evaluate_inPipeline {β : Type} (program : LinkProgram β) (store : StandaloneStore) :
    program.inPipeline.evaluate (PipelineCall.execAt backend) outcomes store =
      (program.evaluate IdentityCall.execAt outcomes.ofIdentity store.iam).map
        (Prod.map (Except.mapError .linking) fun iam => { store with iam }) := by
  refine evaluate_lift program .identity (fun _ answer => answer)
    AuthenticationPipelineError.linking IdentityCall.execAt outcomes.ofIdentity
    (PipelineCall.execAt backend) outcomes StandaloneStore.iam
    (fun whole iam => { whole with iam }) (fun _ _ => rfl) (fun _ _ _ => rfl) (fun _ => rfl) ?_
    store
  intro call whole
  rw [PipelineCall.execAt, StandaloneCall.execAt, StandaloneCall.exec, ofCall_identity,
    Option.bind_some, IdentityCall.execAt]
  cases call.exec (outcomes.ofIdentity call) whole.iam with
  | none | some answered => rfl

end

section
variable [Wire] [Keys] (pipeline : AuthenticationPipeline) (outcomes : RequestOutcomes)
  (authentication : AuthenticationResult)

/-- The token of the principal can be issued. -/
def Issues (principal : PrincipalRow) : Prop :=
  ∃ token, pipeline.tokens.issue outcomes.issuedAt
    (projectAuthorizationContext (principal.context authentication) authentication)
    authentication = .ok token

/-- What the pipeline makes of a resolution. -/
def AuthenticationPipeline.conclude :
    Except AccountLinkingError AuthenticatedPrincipalContext →
      Except ApiError IssuedAuthentication
  | .error error => .error (.pipeline (.linking error))
  | .ok principal =>
      let principal := projectAuthorizationContext principal authentication
      match pipeline.tokens.issue outcomes.issuedAt principal authentication with
      | .error error => .error (.pipeline (.token error))
      | .ok accessToken =>
          .ok { accessToken, expiresIn := pipeline.tokens.config.ttl.asSecs, principal }

theorem evaluate_issue [SqlJson] (backend : Backend) (principal : AuthenticatedPrincipalContext)
    (store : StandaloneStore) :
    ((pipeline.issue authentication principal).evaluate (PipelineCall.execAt backend) outcomes
        store).map (Prod.map (Except.mapError .pipeline) id) =
      some (pipeline.conclude outcomes authentication (.ok principal), store) := by
  have hnow : (pipeline.issue authentication principal).evaluate (PipelineCall.execAt backend)
      outcomes store = (pipeline.issueAt authentication
        (projectAuthorizationContext principal authentication) outcomes.issuedAt).evaluate
          (PipelineCall.execAt backend) outcomes store := rfl
  rw [hnow, AuthenticationPipeline.issueAt, AuthenticationPipeline.conclude]
  cases pipeline.tokens.issue outcomes.issuedAt
      (projectAuthorizationContext principal authentication) authentication with
  | error error | ok token => rfl

/-- A resolution followed by the token. -/
theorem evaluate_issued [SqlJson] (backend : Backend)
    (program : LinkProgram AuthenticatedPrincipalContext) (store : StandaloneStore) :
    (program.inPipeline >>= fun principal =>
        pipeline.issue authentication principal).converge.evaluate
          (StandaloneCall.execAt backend) outcomes store =
      (program.evaluate IdentityCall.execAt outcomes.ofIdentity store.iam).map
        (Prod.map (pipeline.conclude outcomes authentication) fun iam => { store with iam }) := by
  rw [evaluate_converge, evaluate_bind, evaluate_inPipeline]
  cases program.evaluate IdentityCall.execAt outcomes.ofIdentity store.iam with
  | none => rfl
  | some ended =>
      obtain ⟨error | principal, iam⟩ := ended
      · rfl
      · exact evaluate_issue pipeline outcomes authentication backend principal { store with iam }

/-- Nothing fails behind the write. -/
def BindingWrite.Finishes (write : BindingWrite) : Prop :=
  write.Confirmed ∧ Issues pipeline outcomes authentication write.principal

variable {pipeline outcomes authentication}

theorem conclude_issues {principal : PrincipalRow}
    (h : Issues pipeline outcomes authentication principal) :
    ∃ issued, pipeline.conclude outcomes authentication (.ok (principal.context authentication)) =
        .ok issued ∧ issued.principal.principalId = principal.id := by
  obtain ⟨token, htoken⟩ := h
  rw [AuthenticationPipeline.conclude, htoken]
  exact ⟨_, rfl, rfl⟩

theorem conclude_not_issues {principal : PrincipalRow}
    (h : ¬Issues pipeline outcomes authentication principal) :
    ∃ error, pipeline.conclude outcomes authentication (.ok (principal.context authentication)) =
      .error error := by
  rw [AuthenticationPipeline.conclude]
  split
  · exact ⟨_, rfl⟩
  · rename_i token htoken
    exact absurd ⟨token, htoken⟩ h

/-- How a request that resolves an identity ends. -/
inductive BindingEnds (pipeline : AuthenticationPipeline) (outcomes : RequestOutcomes)
    (db : IamDatabase) (authentication : AuthenticationResult) (Writes : BindingWrite → Prop)
    (Known : PrincipalRow → Prop) : Except ApiError IssuedAuthentication → IamDatabase → Prop
  | bound (write : BindingWrite) (writes : Writes write)
      (finishes : write.Finishes pipeline outcomes authentication) (issued : IssuedAuthentication)
      (id_eq : issued.principal.principalId = write.principal.id) :
      BindingEnds pipeline outcomes db authentication Writes Known (.ok issued) write.after
  | broken (write : BindingWrite) (writes : Writes write)
      (unfinished : ¬write.Finishes pipeline outcomes authentication) (error : ApiError) :
      BindingEnds pipeline outcomes db authentication Writes Known (.error error) write.after
  | known (principal : PrincipalRow) (known : Known principal)
      (issues : Issues pipeline outcomes authentication principal)
      (unwritten : ∀ write, ¬Writes write) (issued : IssuedAuthentication)
      (id_eq : issued.principal.principalId = principal.id) :
      BindingEnds pipeline outcomes db authentication Writes Known (.ok issued) db
  | refused (error : ApiError) (unwritten : ∀ write, ¬Writes write)
      (unknown : ∀ principal, Known principal →
        ¬Issues pipeline outcomes authentication principal) :
      BindingEnds pipeline outcomes db authentication Writes Known (.error error) db

section
variable {db : IamDatabase} {Writes : BindingWrite → Prop} {Known : PrincipalRow → Prop}

theorem ResolutionEnds.concluded
    (hknown : ∀ principal other, Known principal → Known other → other = principal)
    {result : Except AccountLinkingError AuthenticatedPrincipalContext} {after : IamDatabase}
    (h : ResolutionEnds db authentication Writes Known result after) :
    BindingEnds pipeline outcomes db authentication Writes Known
      (pipeline.conclude outcomes authentication result) after := by
  cases h with
  | confirmed write writes confirmed =>
      by_cases hissues : Issues pipeline outcomes authentication write.principal
      · obtain ⟨issued, hissued, hid⟩ := conclude_issues hissues
        rw [hissued]
        exact .bound write writes ⟨confirmed, hissues⟩ issued hid
      · obtain ⟨error, herror⟩ := conclude_not_issues hissues
        rw [herror]
        exact .broken write writes (fun h => hissues h.2) error
  | broken write writes unconfirmed error =>
      exact .broken write writes (fun h => unconfirmed h.1) _
  | known principal known unwritten =>
      by_cases hissues : Issues pipeline outcomes authentication principal
      · obtain ⟨issued, hissued, hid⟩ := conclude_issues hissues
        rw [hissued]
        exact .known principal known hissues unwritten issued hid
      · obtain ⟨error, herror⟩ := conclude_not_issues hissues
        rw [herror]
        refine .refused error unwritten fun other hother => ?_
        obtain rfl := hknown principal other known hother
        exact hissues
  | refused error unwritten unknown =>
      exact .refused _ unwritten fun principal hprincipal => absurd hprincipal (unknown principal)

end

end

/-! The binding a write leaves, and its rollback. -/

/-- The binding of a write to its principal, with the principal or to one that has others. -/
structure BindsIdentity (db : IamDatabase) (identity : ExternalIdentity) (principalId : String)
    (after : IamDatabase) : Prop where
  identities : db.identities.insert (identity.boundTo principalId) = some after.identities
  principals :
    (∃ principal, principal.id = principalId ∧
      db.principals.insert principal = some after.principals) ∨
    (after.principals = db.principals ∧ ∃ row ∈ db.identities.rows, row.principalId = principalId)

section
variable {db after : IamDatabase} {identity : ExternalIdentity} {principalId : String}

theorem BindsIdentity.unbound (h : BindsIdentity db identity principalId after) :
    db.identities.find identity.bindingKey = none :=
  Table.insert_isSome.mp (Option.isSome_iff_exists.mpr ⟨_, h.identities⟩)

theorem BindsIdentity.find (h : BindsIdentity db identity principalId after)
    (key : ExternalIdentityKey) :
    after.identities.find key =
      if key = identity.bindingKey then some (identity.boundTo principalId)
      else db.identities.find key :=
  Table.find_insert h.identities key

/-- The binding is gone, every other is still there. -/
theorem BindsIdentity.find_deleted (h : BindsIdentity db identity principalId after)
    (key : ExternalIdentityKey) :
    (after.deleteIdentity principalId identity.bindingKey).identities.find key =
      db.identities.find key := by
  rw [IamDatabase.deleteIdentity, Table.find_filter, h.find]
  split
  · rename_i hkey
    rw [hkey, h.unbound, Option.filter_some]
    exact if_neg (by simp [ExternalIdentity.boundTo, IamPrincipalIdentityInfo.key,
      ExternalIdentity.bindingKey])
  · rename_i hkey
    cases hfound : db.identities.find key with
    | none => rfl
    | some row =>
        have hrow : row.key = key := (Table.find_eq_some.mp hfound).2
        rw [Option.filter_some, if_pos]
        simp [hrow, hkey]

theorem mem_of_find_eq {table other : Table IamPrincipalIdentityInfo ExternalIdentityKey
      IamPrincipalIdentityInfo.key} (h : ∀ key, table.find key = other.find key)
    {row : IamPrincipalIdentityInfo} : row ∈ table.rows ↔ row ∈ other.rows := by
  have hfind := h row.key
  constructor
  · intro hrow
    rw [Table.find_eq_some.mpr ⟨hrow, rfl⟩] at hfind
    exact (Table.find_eq_some.mp hfind.symm).1
  · intro hrow
    rw [Table.find_eq_some.mpr ⟨hrow, rfl⟩] at hfind
    exact (Table.find_eq_some.mp hfind).1

/-- The principal goes exactly where it came with the binding. -/
theorem BindsIdentity.find_unbound (h : BindsIdentity db identity principalId after) (id : String) :
    ((after.deleteIdentity principalId identity.bindingKey).deleteUnbound
        principalId).principals.find id = db.principals.find id := by
  rw [IamDatabase.deleteUnbound]
  split
  · rename_i hbound
    obtain ⟨row, hrow, hprincipal⟩ := hbound
    rw [mem_of_find_eq h.find_deleted] at hrow
    obtain ⟨principal, hid, hinsert⟩ | ⟨hsame, -⟩ := h.principals
    · have hfresh : db.principals.find principal.id = none :=
        Table.insert_isSome.mp (Option.isSome_iff_exists.mpr ⟨_, hinsert⟩)
      have hthere := db.identities_principal row hrow
      rw [hprincipal, ← hid, hfresh] at hthere
      cases hthere
    · exact congrArg (·.find id) hsame
  · rename_i hunbound
    obtain ⟨principal, rfl, hinsert⟩ | ⟨-, row, hrow, hprincipal⟩ := h.principals
    · change (after.principals.filter _).find id = _
      rw [Table.find_filter, Table.find_insert hinsert]
      split
      · rename_i hid
        rw [Option.filter_some, if_neg (by simp), hid]
        exact (Table.insert_isSome.mp (Option.isSome_iff_exists.mpr ⟨_, hinsert⟩)).symm
      · rename_i hid
        cases hfound : db.principals.find id with
        | none => rfl
        | some row =>
            have hrow : row.id = id := (Table.find_eq_some.mp hfound).2
            rw [Option.filter_some, if_pos]
            simpa [hrow, PrincipalRow.key] using hid
    · exact absurd ⟨row, (mem_of_find_eq h.find_deleted).mpr hrow, hprincipal⟩ hunbound

theorem deleteUnbound_identities (db : IamDatabase) (principalId : String) :
    (db.deleteUnbound principalId).identities = db.identities := by
  rw [IamDatabase.deleteUnbound]
  split
  · rfl
  · rfl

variable {store written : StandaloneStore}

theorem not_sameAccounts_of_binds (h : BindsIdentity store.iam identity principalId written.iam) :
    ¬store.SameAccounts written := by
  intro hsame
  have hfind := hsame.identities identity.bindingKey
  rw [h.find, if_pos rfl, h.unbound] at hfind
  cases hfind

/-- What was written behind the binding: credentials of its identity. -/
def WritesCredentials (store written : StandaloneStore) (key : ExternalIdentityKey) : Prop :=
  ∀ id, written.credentials.find id = store.credentials.find id ∨
    store.credentials.find id = none ∧
      ∃ row, written.credentials.find id = some row ∧ row.identity = key

theorem rollback_sameAccounts (hreferences : store.References)
    (h : BindsIdentity store.iam identity principalId written.iam)
    (hcredentials : WritesCredentials store written identity.bindingKey) :
    store.SameAccounts (written.rollbackIdentityBinding principalId identity.bindingKey) where
  principals := h.find_unbound
  identities key := by
    rw [StandaloneStore.rollbackIdentityBinding, deleteUnbound_identities, h.find_deleted]
  credentials id := by
    have hdeleted : (written.iam.identities.find identity.bindingKey).any
        (·.principalId = principalId) = true := by
      rw [h.find, if_pos rfl]
      exact decide_eq_true rfl
    rw [StandaloneStore.rollbackIdentityBinding]
    dsimp only
    rw [if_pos hdeleted, Table.find_filter]
    obtain hsame | ⟨hnone, row, hrow, hidentity⟩ := hcredentials id
    · rw [hsame]
      cases hfound : store.credentials.find id with
      | none => rfl
      | some row =>
          have hother : row.identity ≠ identity.bindingKey := by
            intro heq
            have hthere := hreferences row (Table.find_eq_some.mp hfound).1
            rw [heq, h.unbound] at hthere
            cases hthere
          rw [Option.filter_some, if_pos (decide_eq_true hother)]
    · rw [hnone, hrow, Option.filter_some, if_neg (by simp [hidentity])]

end

section
variable {service : AccountLinkingService} {outcomes : IdentityCall → StoreOutcome}
  {db : IamDatabase} {authentication : AuthenticationResult} {write : BindingWrite}

theorem LoginWrites.binds {kind : PrincipalKind} {random : List UInt8}
    (h : LoginWrites service outcomes db authentication kind random write) :
    BindsIdentity db authentication.externalIdentity write.principal.id write.after := by
  obtain ⟨-, hprincipals, hidentities⟩ := createPrincipalAndBind_eq_ok h.committed
  exact ⟨hidentities, .inl ⟨write.principal, rfl, hprincipals⟩⟩

theorem LinkWrites.binds {principalId : String}
    (h : LinkWrites service outcomes db authentication principalId write) :
    BindsIdentity db authentication.externalIdentity write.principal.id write.after := by
  obtain ⟨hid, hprincipals, hidentities⟩ := bindIdentity_eq_ok h.committed
  rw [hid]
  exact ⟨hidentities, .inr ⟨hprincipals, h.permitted.has_identity⟩⟩

theorem LoginKnown.unique {principal other : PrincipalRow}
    (h : LoginKnown outcomes db authentication principal)
    (hother : LoginKnown outcomes db authentication other) : other = principal :=
  Option.some.inj (hother.bound.symm.trans h.bound)

/-- Undoing a login that wrote nothing deletes the binding that was there. -/
theorem LoginKnown.rollback_not_sameAccounts {store written : StandaloneStore}
    {principal : PrincipalRow} (h : LoginKnown outcomes store.iam authentication principal)
    (hiam : written.iam = store.iam) :
    ¬store.SameAccounts (written.rollbackIdentityBinding principal.id
      authentication.externalIdentity.bindingKey) := by
  intro hsame
  obtain ⟨row, hrow, hprincipal⟩ := Option.bind_eq_some_iff.mp h.bound
  have hfind := hsame.identities authentication.externalIdentity.bindingKey
  rw [StandaloneStore.rollbackIdentityBinding, deleteUnbound_identities, hiam,
    IamDatabase.deleteIdentity, Table.find_filter, hrow, Option.filter_some, if_neg] at hfind
  · cases hfind
  · have hkey : row.key = authentication.externalIdentity.bindingKey :=
      (Table.find_eq_some.mp hrow).2
    have hid : principal.id = row.principalId := (Table.find_eq_some.mp hprincipal).2
    simp [hkey, hid]

end

/-! The steps of a registration. -/

section
variable (outcomes : RequestOutcomes) (store : StandaloneStore)

def RequestOutcomes.createdAt (outcomes : RequestOutcomes) (credential : IamStandaloneCredential) :
    Nat :=
  outcomes.clock (.standalone (.createCredential credential))

/-- The credential is created and the registration learns of it. -/
def CredentialKept (credential : IamStandaloneCredential) : Prop :=
  (∃ created, store.createCredential (outcomes.createdAt credential) credential = .ok created) ∧
    (outcomes.repository (.standalone (.createCredential credential))).Answered

variable {store}

theorem createCredential_iam {now : Nat} {credential : IamStandaloneCredential}
    {created : StandaloneStore} (h : store.createCredential now credential = .ok created) :
    created.iam = store.iam := by
  obtain ⟨credentials, -, rfl⟩ := Result.map_ok_iff.mp h
  rfl

theorem writesCredentials_refl (store : StandaloneStore) (key : ExternalIdentityKey) :
    WritesCredentials store store key := fun _ => .inl rfl

theorem writesCredentials_created {now : Nat} {credential : IamStandaloneCredential}
    {created : StandaloneStore} (h : store.createCredential now credential = .ok created) :
    WritesCredentials store created credential.identity := by
  have hinsert := (createCredential_eq_ok h).1
  intro id
  rw [Table.find_insert hinsert]
  split
  · rename_i hid
    refine .inr ⟨?_, _, rfl, rfl⟩
    rw [hid]
    exact Table.insert_isSome.mp (Option.isSome_iff_exists.mpr ⟨_, hinsert⟩)
  · exact .inl rfl

variable {outcomes}

theorem exec_createCredential [SqlJson] (outcomes : RequestOutcomes) (store : StandaloneStore)
    (backend : Backend) (credential : IamStandaloneCredential) :
    ∃ (answer : Except CredentialRepositoryError Unit) (written : StandaloneStore),
      StandaloneCall.execAt backend (.createCredential credential) outcomes store =
          some (answer, written) ∧
        written.iam = store.iam ∧ WritesCredentials store written credential.identity ∧
        ((CredentialKept outcomes store credential ∧ answer = .ok ()) ∨
          (¬CredentialKept outcomes store credential ∧ ∃ error, answer = .error error)) := by
  rw [StandaloneCall.execAt]
  cases hrepository : outcomes.repository (.standalone (.createCredential credential)) with
  | answered row =>
      have hcall : outcomes.ofCall (.createCredential credential) =
          .answered (outcomes.createdAt credential) := by
        simp [RequestOutcomes.ofCall, hrepository, RequestOutcomes.createdAt]
      rw [hcall]
      cases hcreated : store.createCredential (outcomes.createdAt credential) credential with
      | ok created =>
          refine ⟨.ok (), created, ?_, createCredential_iam hcreated,
            writesCredentials_created hcreated, .inl ⟨⟨⟨created, hcreated⟩, ?_⟩, rfl⟩⟩
          · simp only [StandaloneCall.exec, hcreated]
            rfl
          · rw [hrepository]
            trivial
      | error error =>
          refine ⟨.error error, store, ?_, rfl, writesCredentials_refl store _,
            .inr ⟨?_, error, rfl⟩⟩
          · simp only [StandaloneCall.exec, hcreated]
            rfl
          · rintro ⟨⟨created, hother⟩, -⟩
            cases hcreated.symm.trans hother
  | failed message =>
      have hcall : outcomes.ofCall (.createCredential credential) = .failed message := by
        simp [RequestOutcomes.ofCall, hrepository]
      rw [hcall]
      refine ⟨.error (.backend message), store, rfl, rfl, writesCredentials_refl store _,
        .inr ⟨fun h => ?_, _, rfl⟩⟩
      have hanswered := h.2
      rwa [hrepository] at hanswered
  | lost message =>
      have hcall : outcomes.ofCall (.createCredential credential) =
          .lost message (outcomes.createdAt credential) := by
        simp [RequestOutcomes.ofCall, hrepository, RequestOutcomes.createdAt]
      have hlost : ¬CredentialKept outcomes store credential := by
        intro h
        have hanswered := h.2
        rwa [hrepository] at hanswered
      rw [hcall]
      cases hcreated : store.createCredential (outcomes.createdAt credential) credential with
      | ok created =>
          refine ⟨.error (.backend message), created, ?_, createCredential_iam hcreated,
            writesCredentials_created hcreated, .inr ⟨hlost, _, rfl⟩⟩
          simp only [StandaloneCall.exec, hcreated]
          rfl
      | error error =>
          refine ⟨.error error, store, ?_, rfl, writesCredentials_refl store _,
            .inr ⟨hlost, error, rfl⟩⟩
          simp only [StandaloneCall.exec, hcreated]
          rfl

/-- The last step of a registration: the credential, or the rollback. -/
theorem keepCredential_ends [SqlJson] (store : StandaloneStore) (backend : Backend)
    (hrollback : ∀ principalId identity,
      (outcomes.repository (.rollbackIdentityBinding principalId identity)).Answered)
    (principalId : String) (credential : IamStandaloneCredential) :
    ∃ result last, (RegistrationHandler.keepCredential principalId credential).evaluate
        (RegistrationCall.exec backend) outcomes store = some (result, last) ∧
      ((CredentialKept outcomes store credential ∧ result = .ok ()) ∨
        (¬CredentialKept outcomes store credential ∧ (∃ error, result = .error error) ∧
          ∃ written : StandaloneStore, written.iam = store.iam ∧
            WritesCredentials store written credential.identity ∧
            last = written.rollbackIdentityBinding principalId credential.identity)) := by
  obtain ⟨answer, written, hexec, hiam, hwrites, hends⟩ :=
    exec_createCredential outcomes store backend credential
  have heval : (RegistrationHandler.keepCredential principalId credential).evaluate
      (RegistrationCall.exec backend) outcomes store =
        (StandaloneCall.execAt backend (.createCredential credential) outcomes store).bind _ := rfl
  rw [hexec] at heval
  obtain ⟨hkept, rfl⟩ | ⟨hlost, error, rfl⟩ := hends
  · exact ⟨.ok (), written, heval, .inl ⟨hkept, rfl⟩⟩
  · refine ⟨.error (.credential error),
      written.rollbackIdentityBinding principalId credential.identity, heval.trans ?_,
      .inr ⟨hlost, ⟨_, rfl⟩, written, hiam, hwrites, rfl⟩⟩
    have hundone : RegistrationCall.exec backend
        (.rollbackIdentityBinding principalId credential.identity) outcomes written =
          some ((.ok () : Except IdentityRepositoryError Unit),
            written.rollbackIdentityBinding principalId credential.identity) := by
      have hanswered := hrollback principalId credential.identity
      revert hanswered
      rw [RegistrationCall.exec]
      cases outcomes.repository (.rollbackIdentityBinding principalId credential.identity) with
      | answered row => exact fun _ => rfl
      | failed message | lost message => exact fun h => h.elim
    exact congrArg (Option.bind · _) hundone

theorem evaluate_findByKey [SqlJson] (outcomes : RequestOutcomes) (store : StandaloneStore)
    (backend : Backend) (issuer : String)
    (kind : StandaloneCredentialKind) (credentialKey : String) :
    ∃ answer : Except CredentialRepositoryError (Option StandaloneCredentialIdentity),
      (StandaloneProgram.findByKey issuer kind credentialKey).evaluate
          (StandaloneCall.execAt backend) outcomes store =
        some (answer.mapError .credential, store) ∧
      ∀ found, answer = .ok found ↔
        (outcomes.repository (.standalone (.findByKey issuer kind credentialKey))).Answered ∧
          store.findByKey issuer kind credentialKey = .ok found := by
  have hread : ∀ answer : Except CredentialRepositoryError (Option StandaloneCredentialIdentity),
      StandaloneCall.execAt backend (.findByKey issuer kind credentialKey) outcomes store =
        some (answer, store) →
      (StandaloneProgram.findByKey issuer kind credentialKey).evaluate
          (StandaloneCall.execAt backend) outcomes store =
        some (answer.mapError .credential, store) := by
    intro answer hexec
    refine (congrArg (Option.bind · _) hexec).trans ?_
    cases answer with
    | ok found | error error => rfl
  cases hrepository : outcomes.repository (.standalone (.findByKey issuer kind credentialKey)) with
  | answered row =>
      refine ⟨store.findByKey issuer kind credentialKey, hread _ ?_, fun found =>
        ⟨fun h => ⟨trivial, h⟩, fun h => h.2⟩⟩
      rw [StandaloneCall.execAt]
      simp only [RequestOutcomes.ofCall, hrepository]
      rfl
  | failed message | lost message =>
      refine ⟨.error (.backend message), hread _ ?_, fun found =>
        ⟨fun h => (nomatch h), fun h => h.1.elim⟩⟩
      rw [StandaloneCall.execAt]
      simp only [RequestOutcomes.ofCall, hrepository]
      rfl

end

section
variable [StandaloneCrypto] [PasswordHashing] (handler : RegistrationHandler)
  (outcomes : RequestOutcomes) (store : StandaloneStore) (request : RegistrationRequest)
  (subject salt : List UInt8)

/-- The registration gets to the binding, with what it binds and keeps. -/
structure Admits (login passwordHash : String) (authentication : AuthenticationResult)
    (key : ExternalIdentityKey) : Prop where
  normalized : normalizeLogin request.login = .ok login
  acceptable : handler.validateNew request.password = true
  named : ¬(isBlank request.displayName ∨ 256 < request.displayName.utf8ByteSize)
  looked : (outcomes.repository
    (.standalone (.findByKey handler.issuer .password login))).Answered
  free : store.findByKey handler.issuer .password login = .ok none
  hash : PasswordHashing.hash request.password salt = some passwordHash
  authentication_eq : authentication = .new (handler.identity request.displayName subject) ["pwd"]
    none (outcomes.clock (.standalone .clock))
  key : (handler.identity request.displayName subject).key = .ok key

variable {handler outcomes store request subject salt}

theorem evaluate_beforeBinding [SqlJson] (backend : Backend) :
    ∃ result, (handler.beforeBinding request subject salt).evaluate (StandaloneCall.execAt backend)
        outcomes store = some (result, store) ∧
      ∀ login passwordHash authentication key,
        result = .ok (login, passwordHash, authentication, key) ↔
          Admits handler outcomes store request subject salt login passwordHash authentication
            key := by
  rw [RegistrationHandler.beforeBinding]
  cases hlogin : normalizeLogin request.login with
  | call name next =>
      rw [normalizeLogin] at hlogin
      split at hlogin
      · cases hlogin
      · cases hlogin
  | fail error =>
      refine ⟨.error error, rfl, fun _ _ _ _ => ⟨fun h => (by cases h), fun h => ?_⟩⟩
      cases hlogin.symm.trans h.normalized
  | ok login =>
      rw [ok_bind]
      by_cases hpassword : handler.validateNew request.password = true
      · by_cases hname : isBlank request.displayName ∨ 256 < request.displayName.utf8ByteSize
        · refine ⟨.error (.badRequest "displayName is required"), ?_,
            fun _ _ _ _ => ⟨fun h => (by cases h), fun h => absurd hname h.named⟩⟩
          rw [if_neg (by simp [hpassword]), if_pos hname]
          rfl
        · rw [if_neg (by simp [hpassword]), if_neg hname, evaluate_bind]
          obtain ⟨answer, heval, hanswer⟩ :=
            evaluate_findByKey outcomes store backend handler.issuer .password login
          have hfree : ∀ login' passwordHash authentication key,
              Admits handler outcomes store request subject salt login' passwordHash authentication
                key → answer = .ok none := by
            intro login' passwordHash authentication key h
            cases hlogin.symm.trans h.normalized
            exact (hanswer none).mpr ⟨h.looked, h.free⟩
          rw [heval]
          rcases answer with error | _ | found
          · exact ⟨.error (.credential error), rfl, fun _ _ _ _ =>
              ⟨fun h => (by cases h), fun h => (by cases hfree _ _ _ _ h)⟩⟩
          · obtain ⟨hlooked, hnone⟩ := (hanswer none).mp rfl
            cases hhash : PasswordHashing.hash request.password salt with
            | none =>
                refine ⟨.error (.internal "password credential could not be created"), ?_,
                  fun _ _ _ _ => ⟨fun h => (by cases h), fun h => ?_⟩⟩
                · rfl
                · cases hhash.symm.trans h.hash
            | some passwordHash =>
                cases hkey : (handler.identity request.displayName subject).key with
                | error error =>
                    refine ⟨.error (.internal "standalone identity is invalid"), ?_,
                      fun _ _ _ _ => ⟨fun h => (by cases h), fun h => ?_⟩⟩
                    · simp only [hkey]
                      rfl
                    · cases hkey.symm.trans h.key
                | ok key =>
                    refine ⟨.ok (login, passwordHash, .new
                      (handler.identity request.displayName subject) ["pwd"] none
                      (outcomes.clock (.standalone .clock)), key), ?_, fun _ _ _ _ =>
                      ⟨?_, ?_⟩⟩
                    · simp only [hkey]
                      rfl
                    · rintro h
                      cases h
                      exact ⟨hlogin, hpassword, hname, hlooked, hnone, hhash, rfl, hkey⟩
                    · rintro ⟨hlogin', -, -, -, -, hhash', rfl, hkey'⟩
                      cases hlogin.symm.trans hlogin'
                      cases hhash.symm.trans hhash'
                      cases hkey.symm.trans hkey'
                      rfl
          · exact ⟨.error (.conflict "credential identifier is already registered"), rfl,
              fun _ _ _ _ => ⟨fun h => (by cases h), fun h => (by cases hfree _ _ _ _ h)⟩⟩
      · refine ⟨.error (.badRequest "password does not meet the configured policy"), ?_,
          fun _ _ _ _ => ⟨fun h => (by cases h), fun h => absurd h.acceptable hpassword⟩⟩
        rw [if_pos (by simpa using hpassword)]
        rfl

end

/-! Requests. -/

section
variable [StandaloneCrypto] [PasswordHashing] [Wire] [Keys] (handler : RegistrationHandler)
  (outcomes : RequestOutcomes) (store : StandaloneStore)

/-- The write of a registration: a login's, or a link's where there is a caller. -/
def RegistrationWrites (caller : Option (Except TokenError String))
    (authentication : AuthenticationResult) (random : List UInt8) (write : BindingWrite) : Prop :=
  match caller with
  | none => LoginWrites handler.pipeline.linking outcomes.ofIdentity store.iam authentication .user
      random write
  | some (.error _) => False
  | some (.ok principalId) =>
      LinkWrites handler.pipeline.linking outcomes.ofIdentity store.iam authentication principalId
        write

/-- The principal a registration without a caller finds its new identity bound to. -/
def RegistrationKnown (caller : Option (Except TokenError String))
    (authentication : AuthenticationResult) (principal : PrincipalRow) : Prop :=
  match caller with
  | none => LoginKnown outcomes.ofIdentity store.iam authentication principal
  | some _ => False

/-- Nothing fails behind a write; a registration without one keeps its credential. -/
def AccountRequest.Finishes : AccountRequest → Prop
  | .login authentication kind random => ∀ write,
      LoginWrites handler.pipeline.linking outcomes.ofIdentity store.iam authentication kind random
        write → write.Finishes handler.pipeline outcomes authentication
  | .link principalId authentication => ∀ write,
      LinkWrites handler.pipeline.linking outcomes.ofIdentity store.iam authentication principalId
        write → write.Finishes handler.pipeline outcomes authentication
  | .register request caller subject salt principal credential =>
      ∀ login passwordHash authentication key,
        Admits handler outcomes store request subject salt login passwordHash authentication key →
          (∀ write, RegistrationWrites handler outcomes store caller authentication principal
            write → write.Finishes handler.pipeline outcomes authentication) ∧
          ∀ known, RegistrationKnown outcomes store caller authentication known →
            Issues handler.pipeline outcomes authentication known →
            CredentialKept outcomes store
              (RegistrationHandler.passwordCredential login passwordHash key credential)

/-- The request ends, and if it fails the store has the accounts it had. -/
def LeavesNoTrace {β : Type} (ended : Option (Except ApiError β × StandaloneStore)) : Prop :=
  ∃ result last, ended = some (result, last) ∧
    ∀ error, result = .error error → store.SameAccounts last

end

section
variable [Wire] [Keys] {handler : RegistrationHandler} {outcomes : RequestOutcomes}
  {store : StandaloneStore}

/-- A login or a link on its own. -/
theorem BindingEnds.leavesNoTrace_iff {authentication : AuthenticationResult}
    {Writes : BindingWrite → Prop} {Known : PrincipalRow → Prop}
    (hunique : ∀ write other, Writes write → Writes other → other = write)
    (hbinds : ∀ write, Writes write → BindsIdentity store.iam authentication.externalIdentity
      write.principal.id write.after)
    {result : Except ApiError IssuedAuthentication} {after : IamDatabase}
    (h : BindingEnds handler.pipeline outcomes store.iam authentication Writes Known result after) :
    LeavesNoTrace store (some (result, { store with iam := after })) ↔
      ∀ write, Writes write → write.Finishes handler.pipeline outcomes authentication := by
  cases h with
  | bound write writes finishes issued id_eq =>
      refine iff_of_true ⟨_, _, rfl, fun error herror => (nomatch herror)⟩ fun other hother => ?_
      rw [hunique write other writes hother]
      exact finishes
  | broken write writes unfinished error =>
      refine iff_of_false ?_ fun hfinishes => unfinished (hfinishes write writes)
      rintro ⟨result, last, hended, hsame⟩
      cases hended
      have hbinds : BindsIdentity store.iam authentication.externalIdentity write.principal.id
          ({ store with iam := write.after } : StandaloneStore).iam := hbinds write writes
      exact not_sameAccounts_of_binds hbinds (hsame error rfl)
  | known principal known issues unwritten issued id_eq =>
      exact iff_of_true ⟨_, _, rfl, fun error herror => (nomatch herror)⟩
        fun write hwrite => absurd hwrite (unwritten write)
  | refused error unwritten unknown =>
      exact iff_of_true ⟨_, _, rfl, fun _ _ => .refl store⟩
        fun write hwrite => absurd hwrite (unwritten write)

variable [SqlJson]

theorem login_ends (handler : RegistrationHandler) (outcomes : RequestOutcomes)
    (store : StandaloneStore) (authentication : AuthenticationResult) (kind : PrincipalKind)
    (random : List UInt8) :
    ∃ result after, (handler.pipeline.login authentication kind random).converge.evaluate
        (StandaloneCall.execAt handler.backend) outcomes store =
          some (result, { store with iam := after }) ∧
      BindingEnds handler.pipeline outcomes store.iam authentication
        (LoginWrites handler.pipeline.linking outcomes.ofIdentity store.iam authentication kind
          random)
        (LoginKnown outcomes.ofIdentity store.iam authentication) result after := by
  obtain ⟨result, after, heval, hends⟩ := resolveLogin_ends handler.pipeline.linking
    outcomes.ofIdentity store.iam authentication kind random
  refine ⟨_, after, ?_, hends.concluded fun _ _ => LoginKnown.unique⟩
  rw [AuthenticationPipeline.login, evaluate_issued, heval]
  rfl

theorem link_ends (handler : RegistrationHandler) (outcomes : RequestOutcomes)
    (store : StandaloneStore) (principalId : String) (authentication : AuthenticationResult) :
    ∃ result after, (handler.pipeline.link principalId authentication).converge.evaluate
        (StandaloneCall.execAt handler.backend) outcomes store =
          some (result, { store with iam := after }) ∧
      BindingEnds handler.pipeline outcomes store.iam authentication
        (LinkWrites handler.pipeline.linking outcomes.ofIdentity store.iam authentication
          principalId)
        (fun _ => False) result after := by
  obtain ⟨result, after, heval, hends⟩ := linkIdentity_ends handler.pipeline.linking
    outcomes.ofIdentity store.iam authentication principalId
  refine ⟨_, after, ?_, hends.concluded fun _ _ h => h.elim⟩
  rw [AuthenticationPipeline.link, evaluate_issued, heval]
  rfl

end

section
variable {handler : RegistrationHandler} {outcomes : RequestOutcomes} {store : StandaloneStore}
  {caller : Option (Except TokenError String)} {authentication : AuthenticationResult}
  {random : List UInt8}

theorem RegistrationWrites.unique {write other : BindingWrite}
    (h : RegistrationWrites handler outcomes store caller authentication random write)
    (hother : RegistrationWrites handler outcomes store caller authentication random other) :
    other = write := by
  rcases caller with _ | error | principalId
  · exact LoginWrites.unique h hother
  · exact h.elim
  · exact LinkWrites.unique h hother

theorem RegistrationWrites.binds {write : BindingWrite}
    (h : RegistrationWrites handler outcomes store caller authentication random write) :
    BindsIdentity store.iam authentication.externalIdentity write.principal.id write.after := by
  rcases caller with _ | error | principalId
  · exact LoginWrites.binds h
  · exact h.elim
  · exact LinkWrites.binds h

theorem RegistrationKnown.login {principal : PrincipalRow}
    (h : RegistrationKnown outcomes store caller authentication principal) :
    caller = none ∧ LoginKnown outcomes.ofIdentity store.iam authentication principal := by
  cases caller with
  | none => exact ⟨rfl, h⟩
  | some caller => exact h.elim

variable [Wire] [Keys] [SqlJson]

theorem bind_ends (handler : RegistrationHandler) (outcomes : RequestOutcomes)
    (store : StandaloneStore) (caller : Option (Except TokenError String))
    (authentication : AuthenticationResult) (random : List UInt8) :
    ∃ result after, (handler.bind caller authentication random).evaluate
        (StandaloneCall.execAt handler.backend) outcomes store =
          some (result, { store with iam := after }) ∧
      BindingEnds handler.pipeline outcomes store.iam authentication
        (RegistrationWrites handler outcomes store caller authentication random)
        (RegistrationKnown outcomes store caller authentication) result after := by
  rcases caller with _ | error | principalId
  · exact login_ends handler outcomes store authentication .user random
  · exact ⟨.error (.token error), store.iam, rfl, .refused _ (fun _ => id) fun _ h => h.elim⟩
  · exact link_ends handler outcomes store principalId authentication

end

section
variable {handler : RegistrationHandler} {outcomes : RequestOutcomes} {store : StandaloneStore}

theorem leavesNoTrace_error {β : Type} {error : ApiError} {last : StandaloneStore} :
    LeavesNoTrace store (some ((.error error : Except ApiError β), last)) ↔
      store.SameAccounts last := by
  constructor
  · rintro ⟨result, final, hended, hsame⟩
    cases hended
    exact hsame error rfl
  · exact fun h => ⟨_, _, rfl, fun _ _ => h⟩

theorem leavesNoTrace_bind_ok {β γ : Type} [SqlJson] {backend : Backend} (f : β → γ)
    (program : RegistrationProgram β) (start : StandaloneStore) :
    LeavesNoTrace store ((program >>= fun result => .ok (f result)).evaluate
        (RegistrationCall.exec backend) outcomes start) ↔
      LeavesNoTrace store (program.evaluate (RegistrationCall.exec backend) outcomes start) := by
  rw [evaluate_bind]
  rcases program.evaluate (RegistrationCall.exec backend) outcomes start with
    _ | ⟨error | value, last⟩
  · exact iff_of_false (fun ⟨_, _, h, _⟩ => nomatch h) (fun ⟨_, _, h, _⟩ => nomatch h)
  · exact leavesNoTrace_error.trans leavesNoTrace_error.symm
  · exact iff_of_true ⟨_, _, rfl, fun _ h => (nomatch h)⟩ ⟨_, _, rfl, fun _ h => (nomatch h)⟩

theorem leavesNoTrace_continue_ok {β γ δ : Type} [SqlJson] {backend : Backend} (f : β → γ → δ)
    (program : β → RegistrationProgram γ) (ended : Except ApiError β × StandaloneStore) :
    LeavesNoTrace store (continueWith (RegistrationCall.exec backend) outcomes
        (fun value => program value >>= fun result => .ok (f value result)) ended) ↔
      LeavesNoTrace store (continueWith (RegistrationCall.exec backend) outcomes program
        ended) := by
  obtain ⟨error | value, last⟩ := ended
  · exact leavesNoTrace_error.trans leavesNoTrace_error.symm
  · exact leavesNoTrace_bind_ok (f value) (program value) last

variable [Wire] [Keys] [SqlJson]

/-- The credential of a registration behind its binding. -/
theorem BindingEnds.kept_leavesNoTrace_iff
    (hrollback : ∀ principalId identity,
      (outcomes.repository (.rollbackIdentityBinding principalId identity)).Answered)
    (hreferences : store.References) {authentication : AuthenticationResult}
    {credential : IamStandaloneCredential}
    (hidentity : credential.identity = authentication.externalIdentity.bindingKey)
    {Writes : BindingWrite → Prop} {Known : PrincipalRow → Prop}
    (hunique : ∀ write other, Writes write → Writes other → other = write)
    (hbinds : ∀ write, Writes write → BindsIdentity store.iam authentication.externalIdentity
      write.principal.id write.after)
    (hknown : ∀ principal, Known principal →
      LoginKnown outcomes.ofIdentity store.iam authentication principal)
    {result : Except ApiError IssuedAuthentication} {after : IamDatabase}
    (h : BindingEnds handler.pipeline outcomes store.iam authentication Writes Known result
      after) :
    LeavesNoTrace store (continueWith (RegistrationCall.exec handler.backend) outcomes
        (fun issued : IssuedAuthentication =>
          RegistrationHandler.keepCredential issued.principal.principalId credential)
        (result, { store with iam := after })) ↔
      (∀ write, Writes write → write.Finishes handler.pipeline outcomes authentication) ∧
        ∀ known, Known known → Issues handler.pipeline outcomes authentication known →
          CredentialKept outcomes store credential := by
  cases h with
  | bound write writes finishes issued id_eq =>
      have hbound := hbinds write writes
      refine iff_of_true ?_ ⟨fun other hother => ?_, fun known hother _ => ?_⟩
      · obtain ⟨result, last, heval, ⟨-, rfl⟩ | ⟨-, -, written, hiam, hwrites, rfl⟩⟩ :=
          keepCredential_ends { store with iam := write.after } handler.backend hrollback
            issued.principal.principalId credential
        · exact ⟨_, _, heval, fun _ herror => (nomatch herror)⟩
        · refine ⟨_, _, heval, fun _ _ => ?_⟩
          rw [id_eq, hidentity]
          exact rollback_sameAccounts hreferences (hiam ▸ hbound) (hidentity ▸ hwrites)
      · rw [hunique write other writes hother]
        exact finishes
      · obtain ⟨row, hrow, -⟩ := Option.bind_eq_some_iff.mp (hknown known hother).bound
        cases hrow.symm.trans hbound.unbound
  | broken write writes unfinished error =>
      refine iff_of_false ?_ fun hfinishes => unfinished (hfinishes.1 write writes)
      rintro ⟨result, last, hended, hsame⟩
      cases hended
      have hbound : BindsIdentity store.iam authentication.externalIdentity write.principal.id
          ({ store with iam := write.after } : StandaloneStore).iam := hbinds write writes
      exact not_sameAccounts_of_binds hbound (hsame error rfl)
  | known principal known issues unwritten issued id_eq =>
      obtain ⟨result, last, heval, hends⟩ := keepCredential_ends store handler.backend
        hrollback issued.principal.principalId credential
      have hlogin := hknown principal known
      have hkept : (∀ other, Known other → Issues handler.pipeline outcomes authentication other →
          CredentialKept outcomes store credential) ↔ CredentialKept outcomes store credential :=
        ⟨fun h => h principal known issues, fun h _ _ _ => h⟩
      rw [hkept, and_iff_right fun write hwrite => absurd hwrite (unwritten write)]
      obtain ⟨hkept, rfl⟩ | ⟨hlost, ⟨error, rfl⟩, written, hiam, -, rfl⟩ := hends
      · exact iff_of_true ⟨_, _, heval, fun _ herror => (nomatch herror)⟩ hkept
      · refine iff_of_false ?_ hlost
        rintro ⟨result, last, hended, hsame⟩
        cases heval.symm.trans hended
        have hundone := hsame error rfl
        rw [id_eq, hidentity] at hundone
        exact hlogin.rollback_not_sameAccounts hiam hundone
  | refused error unwritten unknown =>
      refine iff_of_true ⟨_, _, rfl, fun _ _ => .refl store⟩
        ⟨fun write hwrite => absurd hwrite (unwritten write), fun known hknown hissues => ?_⟩
      exact absurd hissues (unknown known hknown)

variable [StandaloneCrypto] [PasswordHashing]

theorem register_leavesNoTrace_iff
    (hrollback : ∀ principalId identity,
      (outcomes.repository (.rollbackIdentityBinding principalId identity)).Answered)
    (hreferences : store.References) (request : RegistrationRequest)
    (caller : Option (Except TokenError String)) (subject salt principal credential : List UInt8) :
    LeavesNoTrace store (handler.runAccount outcomes
        (.register request caller subject salt principal credential) store) ↔
      AccountRequest.Finishes handler outcomes store
        (.register request caller subject salt principal credential) := by
  rw [RegistrationHandler.runAccount, RegistrationHandler.serveAccount,
    leavesNoTrace_bind_ok, RegistrationHandler.register, evaluate_bind, evaluate_registering,
    AccountRequest.Finishes]
  obtain ⟨admitted, hadmitted, hadmits⟩ := evaluate_beforeBinding handler.backend
  rw [hadmitted, Option.bind_some]
  rcases admitted with error | ⟨login, passwordHash, authentication, key⟩
  · refine iff_of_true ⟨.error error, store, rfl, fun _ _ => .refl store⟩ ?_
    intro login passwordHash authentication key h
    cases (hadmits login passwordHash authentication key).mpr h
  · have hthis := (hadmits login passwordHash authentication key).mp rfl
    have honly : ∀ {p : String → String → AuthenticationResult → ExternalIdentityKey → Prop},
        (∀ login passwordHash authentication key, Admits handler outcomes store request subject salt
          login passwordHash authentication key → p login passwordHash authentication key) ↔
        p login passwordHash authentication key := by
      refine fun {p} => ⟨fun h => h _ _ _ _ hthis,
        fun h login' hash' authentication' key' hother => ?_⟩
      cases (hadmits login' hash' authentication' key').mpr hother
      exact h
    have hkey : key = authentication.externalIdentity.bindingKey := by
      rw [hthis.authentication_eq]
      exact ExternalIdentity.key_ok hthis.key
    obtain ⟨result, after, heval, hends⟩ :=
      bind_ends handler outcomes store caller authentication principal
    rw [continueWith]
    dsimp only
    rw [evaluate_bind, evaluate_registering, heval, Option.bind_some, honly,
      leavesNoTrace_continue_ok fun issued _ => ({ issued, returnUri := "" } : LoginResponse)]
    exact hends.kept_leavesNoTrace_iff hrollback hreferences hkey
      (fun _ _ => RegistrationWrites.unique) (fun _ => RegistrationWrites.binds)
      fun _ hknown => hknown.login.2

/-- A request that makes an account leaves no trace when it fails exactly if nothing fails
behind the write of its binding. -/
theorem account_request_undone_iff (handler : RegistrationHandler) (outcomes : RequestOutcomes)
    (hrollback : ∀ principalId identity,
      (outcomes.repository (.rollbackIdentityBinding principalId identity)).Answered)
    (store : StandaloneStore) (hreferences : store.References) (request : AccountRequest) :
    LeavesNoTrace store (handler.runAccount outcomes request store) ↔
      request.Finishes handler outcomes store := by
  cases request with
  | login authentication kind random =>
      obtain ⟨result, after, heval, hends⟩ := login_ends handler outcomes store
        authentication kind random
      rw [RegistrationHandler.runAccount, RegistrationHandler.serveAccount, evaluate_registering,
        heval]
      exact hends.leavesNoTrace_iff (fun _ _ => LoginWrites.unique) fun _ => LoginWrites.binds
  | link principalId authentication =>
      obtain ⟨result, after, heval, hends⟩ := link_ends handler outcomes store
        principalId authentication
      rw [RegistrationHandler.runAccount, RegistrationHandler.serveAccount, evaluate_registering,
        heval]
      exact hends.leavesNoTrace_iff (fun _ _ => LinkWrites.unique) fun _ => LinkWrites.binds
  | register request caller subject salt principal credential =>
      exact register_leavesNoTrace_iff hrollback hreferences request caller subject salt principal
        credential

end

/-! Links to a principal that was disabled behind its token. -/

namespace DisabledLink

@[reducible]
def hashing : PasswordHashing where
  hash _ _ := some TwoLogins.passwordHash

def start : StandaloneStore where
  iam :=
    { principals := ⟨[⟨⟨"P_1", .user, .disabled⟩, "Alice", .empty⟩], by decide⟩
      identities := TwoLogins.iam.identities
      principals_checked := by decide
      identities_checked := TwoLogins.iam.identities_checked
      identities_principal := by decide }
  credentials := .empty
  challenges := []
  enrolled := []
  accepted := []

theorem start_references : start.References := fun _ hrow => absurd hrow List.not_mem_nil

def handler : RegistrationHandler where
  toStandaloneHandler :=
    { TwoLogins.handler with
      pipeline :=
        { TwoLogins.handler.pipeline with
          linking :=
            ⟨⟨.explicit, ["standalone"], .ofList [("standalone", ["github"])]⟩⟩ } }
  minimumLength := 12

/-- Every call is answered. -/
def answered : RequestOutcomes := ⟨fun _ => .answered 0, fun _ => 59⟩

def link (provider : String) : AccountRequest :=
  .link "P_1" (.new ⟨provider, "https://" ++ provider ++ ".example", "alice", .empty⟩ ["fed"] none
    59)

def github : ExternalIdentityKey := ⟨"github", "https://github.example", "alice"⟩

def run (provider : String) : Option (Except ApiError IssuedAuthentication × StandaloneStore) :=
  @RegistrationHandler.runAccount TwoLogins.crypto hashing (Documents.wire []) Archive.unsigned
    TwoLogins.sqlJson handler answered (link provider) start

/-- The link fails and its binding stays. -/
theorem link_leaves_binding : ∃ error last, run "github" = some (.error error, last) ∧
    start.iam.identities.find github = none ∧ (last.iam.identities.find github).isSome ∧
    ¬start.SameAccounts last := by
  have hrun : (run "github").any (fun ended =>
      ended.1.toOption.isNone && (ended.2.iam.identities.find github).isSome) = true := by
    decide +kernel
  have hnone : start.iam.identities.find github = none := by
    decide
  obtain ⟨⟨result, last⟩, hended, hboth⟩ := (Option.any_eq_true _ _).mp hrun
  obtain ⟨herror, hbound⟩ := Bool.and_eq_true_iff.mp hboth
  cases result with
  | ok issued => cases herror
  | error error =>
      refine ⟨error, last, hended, hnone, hbound, fun hsame => ?_⟩
      rw [hsame.identities github, hnone] at hbound
      cases hbound

/-- A link the policy refuses leaves nothing, one it permits its binding. -/
theorem links_traced :
    LeavesNoTrace start (run "gitlab") ∧ ¬LeavesNoTrace start (run "github") := by
  have hrollback : ∀ principalId identity,
      (answered.repository (.rollbackIdentityBinding principalId identity)).Answered :=
    fun _ _ => trivial
  have hentries : handler.pipeline.linking.policy.allowLink.entries =
      [("standalone", ["github"])] := by
    decide
  have hwritten : (start.iam.bindIdentity "P_1" ⟨"github", "https://github.example", "alice",
      .empty⟩).toOption.any (fun written => written.1.status = .disabled) = true := by
    decide +kernel
  constructor
  · refine (@account_request_undone_iff (Documents.wire []) Archive.unsigned TwoLogins.sqlJson
      TwoLogins.crypto hashing handler answered hrollback start start_references
      (link "gitlab")).mpr fun write hwrite => ?_
    have hpermitted := hwrite.permitted
    rw [hentries, LinkPermitted, if_neg (by decide)] at hpermitted
    exact hpermitted.elim
  · intro htraceless
    have hfinishes := (@account_request_undone_iff (Documents.wire []) Archive.unsigned
      TwoLogins.sqlJson TwoLogins.crypto hashing handler answered hrollback start start_references
      (link "github")).mp htraceless
    rcases hcommitted : start.iam.bindIdentity "P_1" ⟨"github", "https://github.example", "alice",
        .empty⟩ with error | written
    · rw [hcommitted] at hwritten
      cases hwritten
    · rw [hcommitted] at hwritten
      have hactive := (hfinishes ⟨written.1, .answered 59, written.2⟩
        { key := rfl
          permitted := by
            rw [hentries, LinkPermitted, if_pos (by decide)]
            exact ⟨trivial, .inl (by decide)⟩
          outcome_eq := rfl
          reached := trivial
          committed := hcommitted }).1.2
      cases (of_decide_eq_true hwritten).symm.trans hactive

end DisabledLink

end Authguard
