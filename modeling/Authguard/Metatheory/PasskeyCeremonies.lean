import Authguard.Metatheory.PasskeyCalls
import Authguard.Metatheory.ReturnTargets

/-!
Passkey ceremonies under any interleaving with each other and with the logins of the
standalone handler. A login takes a challenge that was opened for its identity and has its
assertion verified against it; a passkey is registered by the caller who opened the
registration; and no update of a passkey is lost.
-/

namespace Authguard
open Program WebauthnServer Text

section
variable [WebauthnServer] [StandaloneCrypto] [SqlJsonEquality] [SqlJson]
  {handler : WebauthnHandler} {requests : Nat → Option WebauthnRequest} {start : WebauthnStore}
  {task : Nat}

/-! The pipeline. -/

/-- How the calls of the pipeline are answered. -/
abbrev CeremonyPipelineStep (backend : Backend) (task : Nat) (call : PipelineCall)
    (store : WebauthnStore) (answer : call.Answer) (after : WebauthnStore) : Prop :=
  ∃ answered, answered = answer ∧ CeremonyStep backend task (.pipeline call) store answered after

theorem ceremony_pipelineTables (policy : AccountLinkingProperties) (request : LinkRequest) :
    PipelineTables WebauthnStore.iam (CeremonyPipelineStep handler.standalone.backend task)
      (KeepsPasskeys handler requests start) policy request := by
  refine .of_keeps ?_ (fun store later h => h.retains.bound) ?_ ?_ policy request
  · rintro call store _ after ⟨_, rfl, _, rfl, -, outcome, hexec⟩
    obtain ⟨hcall, -⟩ := exec_inCeremony (.pipeline (.identity call)) hexec
    obtain ⟨stored, -, hcall⟩ := Option.bind_eq_some_iff.mp hcall
    obtain ⟨⟨_, iam⟩, hiam, heq⟩ := Option.map_eq_some_iff.mp hcall
    obtain ⟨rfl, hafter⟩ := Prod.mk.inj heq
    refine ⟨stored, ?_⟩
    rw [WebauthnStore.iam, WebauthnStore.iam, ← hafter]
    exact hiam
  · rintro call store _ after ⟨_, rfl, _, rfl, -, outcome, hexec⟩
    exact keeps_inCeremony (.pipeline (.identity call)) trivial hexec
  · rintro store _ after ⟨now, rfl, _, rfl, -, outcome, hexec⟩
    obtain ⟨hcall, hafter⟩ := exec_inCeremony (.pipeline .now) hexec
    have hsame : after.standalone = store.standalone := by
      cases outcome with
      | answered now => exact (Prod.mk.inj (Option.some.inj hcall)).2.symm
      | expired | failed message | lost message now => cases hcall
    rw [hafter, hsame]

theorem meets_converged {β : Type} {post : β → WebauthnStore → Prop} {program : PipelineProgram β}
    {store : WebauthnStore}
    (h : Program.Meets (CeremonyPipelineStep handler.standalone.backend task)
      (KeepsPasskeys handler requests start) post program store) :
    MeetsPasskeys handler requests start task post program.converge.inCeremony store :=
  Meets.lift (Meets.lift h)

omit [WebauthnServer] [StandaloneCrypto] [SqlJsonEquality] [SqlJson] in
theorem bindingKey_of_key {identity : ExternalIdentity} {key : ExternalIdentityKey}
    (h : identity.key.toOption = some key) : key = identity.bindingKey := by
  cases hkey : identity.key with
  | error error =>
      rw [hkey] at h
      cases h
  | ok found =>
      rw [hkey] at h
      cases h
      exact bindingKey_of_new hkey

/-! Openings. -/

/-- What the caller of a registration has proved when it is opened. -/
structure SteppedUp (handler : WebauthnHandler) (store : WebauthnStore)
    (login password principalId : String) (identity : ExternalIdentityKey) : Prop where
  authenticated : AuthenticatedBy handler store login password identity
  bound : BoundTo store.iam identity principalId

omit [SqlJson] in
theorem SteppedUp.later {store after : WebauthnStore}
    (h : KeepsPasskeys handler requests start store after)
    {login password principalId : String} {identity : ExternalIdentityKey}
    (hstepped : SteppedUp handler store login password principalId identity) :
    SteppedUp handler after login password principalId identity := by
  obtain ⟨secret, hpassword, hverified⟩ := hstepped.authenticated
  exact ⟨⟨secret, h.retains.hasPassword hpassword, hverified⟩, h.retains.boundTo hstepped.bound⟩

theorem meets_steppedUp (request : LoginRequest) (principalId : String) (random : List UInt8)
    {authentication : AuthenticationResult} {store : WebauthnStore}
    (hauthenticated : AuthenticatedBy handler store request.login request.password
      authentication.externalIdentity.bindingKey) :
    MeetsPasskeys handler requests start task
      (fun _ last => SteppedUp handler last request.login request.password principalId
        authentication.externalIdentity.bindingKey)
      (handler.standalone.pipeline.verifyStepUp principalId authentication .user
        random).converge.inCeremony store := by
  have hverify : MeetsPasskeys handler requests start task
      (fun _ last => BoundTo last.iam authentication.externalIdentity.bindingKey principalId)
      (handler.standalone.pipeline.verifyStepUp principalId authentication .user
        random).converge.inCeremony store :=
    meets_converged ((ceremony_pipelineTables _ _).meets_verifyStepUp principalId store)
  refine (hverify.frame (p := fun last => AuthenticatedBy handler last
    request.login request.password authentication.externalIdentity.bindingKey) ?_
    hauthenticated).imp fun _ _ hlast => ⟨hlast.2, hlast.1⟩
  rintro store later hlater ⟨secret, hpassword, hverified⟩
  exact ⟨secret, hlater.retains.hasPassword hpassword, hverified⟩

theorem meets_registrationChallenge {caller : Except TokenError String}
    {request : RegistrationChallengeRequest} {random drawn challenge : List UInt8}
    (hrequest : requests task =
      some (.registrationChallenge caller request random drawn challenge))
    (store : WebauthnStore) :
    MeetsPasskeys handler requests start task (fun _ _ => True)
      (handler.webauthnRegistrationChallenge caller request random drawn challenge) store := by
  rw [WebauthnHandler.webauthnRegistrationChallenge]
  refine meets_enabled (meets_ceremonyExcept fun principalId hcaller => ?_)
  obtain rfl := Result.mapError_ok.mp hcaller
  refine (meets_authenticated _ store).bind fun authentication store hauthenticated => ?_
  refine (meets_steppedUp _ principalId random hauthenticated).bind fun _ store hstepped => ?_
  refine meets_ceremonyOption fun identity hidentity => ?_
  obtain rfl := bindingKey_of_key hidentity
  refine ((meets_listPasskeys _ store).frame (p := fun last => SteppedUp handler last
    request.login request.password principalId authentication.externalIdentity.bindingKey)
    (fun _ _ hlater hstepped => hstepped.later hlater) hstepped).bind ?_
  rintro existing store ⟨-, hstepped⟩
  refine meets_provided ?_
  rintro ⟨options, registration⟩ hstarted
  refine meets_ceremonyStore ?_
  obtain ⟨secret, hpassword, hverified⟩ := hstepped.authenticated
  have hopens : handler.OpensRegistration requests store task (Base64Url.encode challenge)
      ⟨principalId, authentication.externalIdentity, authentication.amr, registration⟩ :=
    ⟨⟨request, random, drawn, challenge, secret, existing, options, hrequest, rfl, hpassword,
      hverified, hstarted⟩, hstepped.bound⟩
  exact (meets_putRegistration hopens).bind fun _ _ _ => meets_ok fun _ _ => trivial

theorem meets_authenticationChallenge {login : String} {drawn challenge : List UInt8}
    (hrequest : requests task = some (.authenticationChallenge login drawn challenge))
    (store : WebauthnStore) :
    MeetsPasskeys handler requests start task (fun _ _ => True)
      (handler.webauthnAuthenticationChallenge login drawn challenge) store := by
  rw [WebauthnHandler.webauthnAuthenticationChallenge]
  refine meets_enabled ((meets_inCeremony (within_normalizeLogin login) store).bind ?_)
  rintro _ store rfl
  refine (meets_findPassword _ store).bind fun found store hfound => ?_
  refine meets_ceremonyOption fun found hsome => ?_
  obtain ⟨hidentity, hpassword⟩ := hfound found hsome
  rw [hidentity]
  refine ((meets_listPasskeys _ store).frame (p := fun last => last.HasPassword
    handler.standalone.issuer (StandaloneCrypto.toLowercase (trim login))
    found.externalIdentity.bindingKey found.credential.secretData)
    (fun _ _ hlater hpassword => hlater.retains.hasPassword hpassword) hpassword).bind ?_
  rintro listed store ⟨hlists, hpassword⟩
  refine meets_provided ?_
  rintro ⟨options, authentication⟩ hstarted
  refine meets_ceremonyStore ?_
  have hopens : handler.OpensAuthentication requests store task (Base64Url.encode challenge)
      ⟨found.externalIdentity, authentication⟩ :=
    ⟨login, drawn, challenge, _, listed, options, hrequest, rfl, hpassword, hlists.versions,
      hstarted⟩
  exact (meets_putAuthentication hopens).bind fun _ _ _ => meets_ok fun _ _ => trivial

/-! Completions. -/

/-- What a registration that returned has done: the token is for the caller, whose identity
has the passkey. -/
def RegistrationReply (caller : Except TokenError String) (credential : List UInt8)
    (response : LoginResponse) (store : WebauthnStore) : Prop :=
  caller = .ok response.issued.principal.principalId ∧ ∃ identity,
    BoundTo store.iam identity response.issued.principal.principalId ∧
    store.HasPasskey identity ("webauthn_" ++ Base64Url.encode credential)

variable [UrlParts] [Wire] [Keys]

theorem meets_registrationVerify {host : Option String} {caller : Except TokenError String}
    {request : RegistrationVerifyRequest} {random credential : List UInt8}
    (hrequest : requests task = some (.registrationVerify host caller request random credential))
    (store : WebauthnStore) :
    MeetsPasskeys handler requests start task
      (fun reply last => ∃ response, reply = .issued response ∧
        RegistrationReply caller credential response last)
      (handler.webauthnRegistrationVerify host caller request random credential) store := by
  rw [WebauthnHandler.webauthnRegistrationVerify]
  refine meets_ceremonyExcept fun returnUri _ => meets_enabled ?_
  refine meets_ceremonyExcept fun principalId hcaller => meets_ceremonyStore ?_
  obtain rfl := Result.mapError_ok.mp hcaller
  refine (meets_consumeRegistration request.challengeId store).bind fun found store hfound => ?_
  refine meets_ceremonyOption fun challenge hsome => ?_
  obtain ⟨origin, htaken⟩ := hfound challenge hsome
  split
  · exact meets_fail _ store
  · rename_i hsame
    obtain rfl := not_ne_iff.mp hsame
    refine meets_provided ?_
    rintro ⟨key, data⟩ hfinished
    refine meets_ceremonyOption fun identity hidentity => ?_
    obtain rfl := bindingKey_of_key hidentity
    refine ((meets_ceremonyClock store).preserves
      (p := fun last => .taken task origin request.challengeId challenge ∈
        last.registrations.journal)
      (fun _ _ hlater hmem => hlater.retains.registrations.subset hmem) htaken).bind ?_
    intro now store htaken
    have hstepped : MeetsPasskeys handler requests start task
        (fun issued last => issued.principal.principalId = challenge.principalId ∧
          BoundTo last.iam challenge.externalIdentity.bindingKey challenge.principalId)
        (handler.standalone.pipeline.completeStepUp challenge.principalId
          (AuthenticationResult.new challenge.externalIdentity (challenge.amr ++ ["webauthn"])
            (some passkeyAcr) now) .user random).converge.inCeremony store :=
      meets_converged ((ceremony_pipelineTables _ (.resolveLogin (.new
        challenge.externalIdentity (challenge.amr ++ ["webauthn"]) (some passkeyAcr) now) .user
        random)).meets_completeStepUp _ store)
    refine (hstepped.frame (p := fun last => .taken task origin request.challengeId challenge ∈
        last.registrations.journal)
      (fun _ _ hlater hmem => hlater.retains.registrations.subset hmem) htaken).bind ?_
    rintro issued store ⟨⟨hissued, hbound⟩, htaken⟩
    have hregistered : RegisteredBy requests store (WebauthnHandler.passkeyCredential credential
        challenge.externalIdentity.bindingKey key data) :=
      ⟨task, origin, host, request, random, credential, challenge, key, data, hrequest, htaken,
        hfinished, rfl, hbound⟩
    refine ((meets_createPasskey hregistered rfl).frame
      (p := fun last => BoundTo last.iam challenge.externalIdentity.bindingKey
        challenge.principalId)
      (fun _ _ hlater hbound => hlater.retains.boundTo hbound) hbound).bind ?_
    rintro _ store ⟨hpasskey, hbound⟩
    refine meets_ok fun last hlast => ⟨⟨issued, returnUri⟩, rfl, by rw [hissued], ?_⟩
    refine ⟨challenge.externalIdentity.bindingKey, ?_, hlast.retains.hasPasskey hpasskey⟩
    rw [hissued]
    exact hlast.retains.boundTo hbound

/-- The task took a challenge, its assertion verifies against it, and it is of a passkey of
the identity of the challenge. -/
structure Verifies (requests : Nat → Option WebauthnRequest) (store : WebauthnStore) (task : Nat)
    (challenge : AuthenticationChallenge) (verified : Verified) (credentialId : String) :
    Prop where
  asserted : Asserted requests store task challenge verified
  passkey : store.HasPasskey challenge.externalIdentity.bindingKey credentialId
  applied : Applied store task challenge.externalIdentity.bindingKey credentialId verified

omit [SqlJson] [UrlParts] [Wire] [Keys] in
theorem Verifies.later {store after : WebauthnStore}
    (h : KeepsPasskeys handler requests start store after) {challenge : AuthenticationChallenge}
    {verified : Verified} {credentialId : String}
    (hverifies : Verifies requests store task challenge verified credentialId) :
    Verifies requests after task challenge verified credentialId :=
  ⟨hverifies.asserted.later h.retains, h.retains.hasPasskey hverifies.passkey,
    hverifies.applied.later h⟩

/-- What a login with a passkey rests on. -/
def PasskeyLogin (requests : Nat → Option WebauthnRequest) (task : Nat) (response : LoginResponse)
    (store : WebauthnStore) : Prop :=
  ∃ challenge verified credentialId, Verifies requests store task challenge verified credentialId ∧
    BoundTo store.iam challenge.externalIdentity.bindingKey response.issued.principal.principalId ∧
    response.issued.principal.amr = ["webauthn"]

theorem meets_authenticationVerify {host : Option String} {request : AuthenticationVerifyRequest}
    {random : List UInt8}
    (hrequest : requests task = some (.authenticationVerify host request random))
    (store : WebauthnStore) :
    MeetsPasskeys handler requests start task
      (fun reply last => ∃ response, reply = .issued response ∧
        PasskeyLogin requests task response last)
      (handler.webauthnAuthenticationVerify host request random) store := by
  rw [WebauthnHandler.webauthnAuthenticationVerify]
  refine meets_ceremonyExcept fun returnUri _ => meets_enabled (meets_ceremonyStore ?_)
  refine (meets_consumeAuthentication request.challengeId store).bind fun found store hfound => ?_
  refine meets_ceremonyOption fun challenge hsome => ?_
  obtain ⟨origin, htaken⟩ := hfound challenge hsome
  refine meets_ceremonyOption fun identity hidentity => ?_
  obtain rfl := bindingKey_of_key hidentity
  refine ((meets_listPasskeys _ store).frame
    (p := fun last => .taken task origin request.challengeId challenge ∈
      last.authentications.journal)
    (fun _ _ hlater hmem => hlater.retains.authentications.subset hmem) htaken).bind ?_
  rintro listed store ⟨hlists, htaken⟩
  refine meets_provided ?_
  rintro ⟨credentialId, data⟩ hfinished
  obtain ⟨verified, hverified, huser, hmatching⟩ := finishAuthentication_eq_ok hfinished
  have hasserted : Asserted requests store task challenge verified :=
    ⟨host, request, random, origin, hrequest, htaken, hverified, huser⟩
  obtain ⟨credential, hcredential, hid, -⟩ := updateMatching_eq_ok hmatching
  have hpasskey := hid ▸ (hlists.versions credential hcredential).hasPasskey
  refine ((meets_storeUpdate hasserted hlists hmatching).frame
    (p := fun last => Asserted requests last task challenge verified ∧
      last.HasPasskey challenge.externalIdentity.bindingKey credentialId)
    (fun _ _ hlater h => ⟨h.1.later hlater.retains, hlater.retains.hasPasskey h.2⟩)
    ⟨hasserted, hpasskey⟩).bind ?_
  rintro _ store ⟨happlied, hasserted, hpasskey⟩
  refine ((meets_ceremonyClock store).preserves
    (p := fun last => Verifies requests last task challenge verified credentialId)
    (fun _ _ hlater h => h.later hlater) ⟨hasserted, hpasskey, happlied⟩).bind ?_
  intro now store hverifies
  have hlogin : MeetsPasskeys handler requests start task
      (fun issued last => BoundTo last.iam challenge.externalIdentity.bindingKey
        issued.principal.principalId)
      (handler.standalone.pipeline.login
        (AuthenticationResult.new challenge.externalIdentity ["webauthn"] (some passkeyAcr) now)
        .user random).converge.inCeremony store :=
    meets_converged ((ceremony_pipelineTables _ (.resolveLogin
      (.new challenge.externalIdentity ["webauthn"] (some passkeyAcr) now) .user
      random)).meets_login store)
  have hmethods : (handler.standalone.pipeline.login
      (AuthenticationResult.new challenge.externalIdentity ["webauthn"] (some passkeyAcr) now)
      .user random).converge.inCeremony.Within (fun _ => True)
      fun issued => issued.principal.amr = ["webauthn"] :=
    (within_converge (within_login _
      (.new challenge.externalIdentity ["webauthn"] (some passkeyAcr) now) .user random)).lift
      fun _ _ => trivial
  refine ((hlogin.within hmethods).frame
    (p := fun last => Verifies requests last task challenge verified credentialId)
    (fun _ _ hlater h => h.later hlater) hverifies).bind ?_
  rintro issued store ⟨⟨hbound, hmethods⟩, hverifies⟩
  exact meets_ok fun last hlast => ⟨⟨issued, returnUri⟩, rfl, challenge, verified, credentialId,
    hverifies.later hlast, hlast.retains.boundTo hbound, hmethods⟩

/-- What the reply to a request rests on. -/
def CeremonyReply (requests : Nat → Option WebauthnRequest) (task : Nat) :
    WebauthnRequest → WebauthnReply → WebauthnStore → Prop
  | .registrationVerify _ caller _ _ credential, reply, store =>
      ∃ response, reply = .issued response ∧ RegistrationReply caller credential response store
  | .authenticationVerify _ _ _, reply, store =>
      ∃ response, reply = .issued response ∧ PasskeyLogin requests task response store
  | .standalone _, _, _ | .registrationChallenge _ _ _ _ _, _, _
  | .authenticationChallenge _ _ _, _, _ => True

theorem serve_meetsPasskeys {request : WebauthnRequest} (hrequest : requests task = some request)
    (store : WebauthnStore) :
    MeetsPasskeys handler requests start task (CeremonyReply requests task request)
      (handler.serve request) store := by
  cases request with
  | standalone request =>
      exact (meets_inCeremony (within_serve handler.standalone request) store).bind
        fun _ _ _ => meets_ok fun _ _ => trivial
  | registrationChallenge caller request random drawn challenge =>
      exact meets_registrationChallenge hrequest store
  | registrationVerify host caller request random credential =>
      exact meets_registrationVerify hrequest store
  | authenticationChallenge login drawn challenge =>
      exact meets_authenticationChallenge hrequest store
  | authenticationVerify host request random => exact meets_authenticationVerify hrequest store

/-! Runs. -/

/-- Before any ceremony. -/
def WebauthnStore.begin (standalone : StandaloneStore) : WebauthnStore :=
  ⟨standalone, .empty, .empty, []⟩

omit [SqlJson] [UrlParts] [Wire] [Keys] in
theorem begin_sound (handler : WebauthnHandler) (requests : Nat → Option WebauthnRequest)
    (standalone : StandaloneStore) :
    (WebauthnStore.begin standalone).Sound handler requests (.begin standalone) where
  registrations := SingleUse.Store.sound_empty
  authentications := SingleUse.Store.sound_empty
  passkeys row hrow _ := ⟨row, .rfl, .inl hrow, rfl⟩
  swaps _ hswap := absurd hswap List.not_mem_nil

/-- What a run of ceremonies and logins leaves behind. -/
theorem run_passkeys {standalone : StandaloneStore} {events : List WebauthnEvent}
    {final : WebauthnPool}
    (hrun : Runs.run handler.webauthnStep (Pool.idle (.begin standalone)) events = some final) :
    final.store.Sound handler final.requestOf (.begin standalone) ∧
      ∀ task request reply, final.tasks[task]? = some (request, .ok reply) →
        CeremonyReply final.requestOf task request reply final.store := by
  have hserve : ∀ task request, final.requestOf task = some request → ∀ store,
      MeetsPasskeys handler final.requestOf (.begin standalone) task
        (CeremonyReply final.requestOf task request) (handler.serve request) store :=
    fun _ _ hrequest store => serve_meetsPasskeys hrequest store
  obtain ⟨hkeeps, hmeets⟩ := Pool.run_meets_of_requests (fun _ _ => trivial) hserve
    (Pool.meets_idle (WebauthnStore.begin standalone)) hrun
  exact ⟨hkeeps.sound (begin_sound handler final.requestOf standalone),
    fun task request reply htask => Pool.returned_meets hmeets htask⟩

/-- Logins with passkeys, where a run ends. -/
structure PasskeyLogins (handler : WebauthnHandler) (final : WebauthnPool) : Prop where
  logins : ∀ (task : Nat) (host : Option String) (request : AuthenticationVerifyRequest)
    (random : List UInt8) (reply : WebauthnReply),
    final.tasks[task]? = some (.authenticationVerify host request random, .ok reply) →
    ∃ response, reply = .issued response ∧
      PasskeyLogin final.requestOf task response final.store
  /-- A challenge that was taken was opened before it, over passkeys of its identity. -/
  opened : ∀ (j task origin : Nat) (challengeId : String) (challenge : AuthenticationChallenge),
    final.store.authentications.journal[j]? =
      some (SingleUse.Record.taken task origin challengeId challenge) →
    origin < j ∧ ∃ creator,
      final.store.authentications.journal[origin]? =
        some (SingleUse.Record.put creator challengeId challenge) ∧
      handler.OpensAuthentication final.requestOf final.store creator challengeId challenge
  once : ∀ (j j' task task' origin : Nat) (challengeId challengeId' : String)
    (challenge challenge' : AuthenticationChallenge),
    final.store.authentications.journal[j]? =
      some (SingleUse.Record.taken task origin challengeId challenge) →
    final.store.authentications.journal[j']? =
      some (SingleUse.Record.taken task' origin challengeId' challenge') → j = j'

theorem passkey_logins (handler : WebauthnHandler) {standalone : StandaloneStore}
    {events : List WebauthnEvent} {final : WebauthnPool}
    (hrun : Runs.run handler.webauthnStep (Pool.idle (.begin standalone)) events = some final) :
    PasskeyLogins handler final := by
  obtain ⟨hsound, hreplies⟩ := run_passkeys hrun
  constructor
  · exact fun task host request random reply htask => hreplies task _ reply htask
  · intro j task origin challengeId challenge hj
    obtain ⟨hlt, creator, hput⟩ :=
      hsound.authentications.taken j task origin challengeId challenge hj
    exact ⟨hlt, creator, hput,
      hsound.authentications.put creator challengeId challenge (List.mem_of_getElem? hput)⟩
  · exact hsound.authentications.once

/-- Passkeys that are registered, where a run ends. -/
structure PasskeyRegistrations (handler : WebauthnHandler) (standalone : StandaloneStore)
    (final : WebauthnPool) : Prop where
  registered : ∀ row ∈ final.store.credentials.rows, row.kind = .webauthn →
    (∃ first ∈ standalone.credentials.rows, first.Remains row) ∨
      ∃ credential data, RegisteredBy final.requestOf final.store credential ∧
        row.toIamStandaloneCredential = { credential with credentialData := data }
  replied : ∀ (task : Nat) (host : Option String) (caller : Except TokenError String)
    (request : RegistrationVerifyRequest) (random credential : List UInt8)
    (reply : WebauthnReply),
    final.tasks[task]? =
      some (.registrationVerify host caller request random credential, .ok reply) →
    ∃ response, reply = .issued response ∧
      RegistrationReply caller credential response final.store
  opened : ∀ (j task origin : Nat) (challengeId : String) (challenge : RegistrationChallenge),
    final.store.registrations.journal[j]? =
      some (SingleUse.Record.taken task origin challengeId challenge) →
    origin < j ∧ ∃ creator,
      final.store.registrations.journal[origin]? =
        some (SingleUse.Record.put creator challengeId challenge) ∧
      handler.OpensRegistration final.requestOf final.store creator challengeId challenge
  once : ∀ (j j' task task' origin : Nat) (challengeId challengeId' : String)
    (challenge challenge' : RegistrationChallenge),
    final.store.registrations.journal[j]? =
      some (SingleUse.Record.taken task origin challengeId challenge) →
    final.store.registrations.journal[j']? =
      some (SingleUse.Record.taken task' origin challengeId' challenge') → j = j'

theorem passkey_registrations (handler : WebauthnHandler) {standalone : StandaloneStore}
    {events : List WebauthnEvent} {final : WebauthnPool}
    (hrun : Runs.run handler.webauthnStep (Pool.idle (.begin standalone)) events = some final) :
    PasskeyRegistrations handler standalone final := by
  obtain ⟨hsound, hreplies⟩ := run_passkeys hrun
  constructor
  · intro row hrow hkind
    obtain ⟨first, hremains, hstart | hregistered, -⟩ := hsound.passkeys row hrow hkind
    · exact .inl ⟨first, hstart, hremains⟩
    · obtain ⟨data, rfl⟩ := hremains
      exact .inr ⟨_, data, hregistered, rfl⟩
  · exact fun task host caller request random credential reply htask =>
      hreplies task _ reply htask
  · intro j task origin challengeId challenge hj
    obtain ⟨hlt, creator, hput⟩ :=
      hsound.registrations.taken j task origin challengeId challenge hj
    exact ⟨hlt, creator, hput,
      hsound.registrations.put creator challengeId challenge (List.mem_of_getElem? hput)⟩
  · exact hsound.registrations.once

/-! Versions. -/

omit [StandaloneCrypto] [SqlJson] [UrlParts] [Wire] [Keys] in
/-- What changes of passkeys never undo, where data that a database takes for the same is read
as one passkey, and a passkey as it was written. -/
structure Grows (backend : Backend) (Before : Passkey → Passkey → Prop) : Prop where
  trans : ∀ passkey middle later, Before passkey middle → Before middle later →
    Before passkey later
  updated : ∀ passkey verified updated, updateCredential passkey verified = some (true, updated) →
    Before passkey updated
  same : ∀ stored current, SqlJsonEquality.same backend stored current = true →
    fromValue stored = fromValue current
  written : ∀ passkey data, toValue passkey = some data → fromValue data = some passkey

omit [StandaloneCrypto] [SqlJson] [UrlParts] [Wire] [Keys] in
/-- Along a chain of updates every version comes after the ones before it. -/
theorem Chained.after {backend : Backend} {Before : Passkey → Passkey → Prop}
    (hgrows : Grows backend Before) {swaps : List Swap} {first last : Option Json}
    (hupdated : ∀ swap ∈ swaps, SqlJsonEquality.same backend swap.stored swap.current = true ∧
      ∃ verified, Amends verified swap)
    (h : Chained first swaps last) {passkey : Passkey} (hread : first.bind fromValue = some passkey) :
    ∀ swap ∈ swaps, ∃ updated, fromValue swap.written = some updated ∧ Before passkey updated := by
  induction swaps generalizing first passkey with
  | nil => exact fun _ hswap => absurd hswap List.not_mem_nil
  | cons swap rest ih =>
      obtain ⟨rfl, hrest⟩ := h
      obtain ⟨hsame, verified, current, updated, hcurrent, hupdate, hwritten⟩ :=
        hupdated swap List.mem_cons_self
      rw [← hgrows.same _ _ hsame] at hcurrent
      obtain rfl : passkey = current := Option.some.inj (hread.symm.trans hcurrent)
      have hlater := hgrows.updated passkey verified updated hupdate
      have hnext := hgrows.written updated swap.written hwritten
      intro other hother
      obtain rfl | hother := List.mem_cons.mp hother
      · exact ⟨updated, hnext, hlater⟩
      · obtain ⟨final, hfinal, hafter⟩ := ih
          (fun swap hswap => hupdated swap (List.mem_cons_of_mem _ hswap)) hrest hnext other hother
        exact ⟨final, hfinal, hgrows.trans passkey updated final hlater hafter⟩

omit [StandaloneCrypto] [SqlJson] [UrlParts] [Wire] [Keys] in
theorem Chained.pairwise {backend : Backend} {Before : Passkey → Passkey → Prop}
    (hgrows : Grows backend Before) {swaps : List Swap} {first last : Option Json}
    (hupdated : ∀ swap ∈ swaps, SqlJsonEquality.same backend swap.stored swap.current = true ∧
      ∃ verified, Amends verified swap)
    (h : Chained first swaps last) :
    swaps.Pairwise fun earlier later => ∃ before after, fromValue earlier.written = some before ∧
      fromValue later.written = some after ∧ Before before after := by
  induction swaps generalizing first with
  | nil => exact .nil
  | cons swap rest ih =>
      obtain ⟨-, verified, current, updated, -, -, hwritten⟩ := hupdated swap List.mem_cons_self
      have hnext := hgrows.written updated swap.written hwritten
      have hrest := fun swap hswap => hupdated swap (List.mem_cons_of_mem _ hswap)
      refine List.pairwise_cons.mpr ⟨fun later hlater => ?_, ih hrest h.2⟩
      obtain ⟨final, hfinal, hafter⟩ := h.2.after hgrows hrest hnext later hlater
      exact ⟨updated, final, hnext, hfinal, hafter⟩

/-- The versions of every passkey, where a run ends. -/
structure PasskeyVersions (handler : WebauthnHandler) (standalone : StandaloneStore)
    (final : WebauthnPool) : Prop where
  versioned : ∀ row ∈ final.store.credentials.rows, row.kind = .webauthn →
    Versioned final.requestOf final.store (.begin standalone) row
  updated : ∀ swap ∈ final.store.swaps,
    UpdatedBy final.requestOf final.store handler.standalone.backend swap
  /-- Of the updates of one passkey, the later wrote what comes after the earlier. -/
  grows : ∀ Before, Grows handler.standalone.backend Before → ∀ credentialId,
    (final.store.swapsOf credentialId).Pairwise fun earlier later => ∃ before after,
      fromValue earlier.written = some before ∧ fromValue later.written = some after ∧
      Before before after

theorem passkey_versions (handler : WebauthnHandler) {standalone : StandaloneStore}
    {events : List WebauthnEvent} {final : WebauthnPool}
    (hrun : Runs.run handler.webauthnStep (Pool.idle (.begin standalone)) events = some final) :
    PasskeyVersions handler standalone final := by
  obtain ⟨hsound, -⟩ := run_passkeys hrun
  refine ⟨hsound.passkeys, hsound.swaps, fun Before hgrows credentialId => ?_⟩
  have hupdated : ∀ swap ∈ final.store.swapsOf credentialId,
      SqlJsonEquality.same handler.standalone.backend swap.stored swap.current = true ∧
        ∃ verified, Amends verified swap := by
    intro swap hswap
    have hupdated := hsound.swaps swap (List.mem_filter.mp hswap).1
    obtain ⟨challenge, verified, -, -, hamends⟩ := hupdated.asserted
    exact ⟨hupdated.compared, verified, hamends⟩
  cases hswaps : final.store.swapsOf credentialId with
  | nil => exact .nil
  | cons swap rest =>
      obtain ⟨hswap, hid⟩ := List.mem_filter.mp
        (show swap ∈ final.store.swapsOf credentialId from hswaps ▸ List.mem_cons_self)
      obtain ⟨challenge, verified, -, ⟨row, hrow, hrowId, -, hkind⟩, -⟩ :=
        (hsound.swaps swap hswap).asserted
      obtain ⟨first, -, -, hchained⟩ := hsound.passkeys row hrow hkind
      rw [hrowId, of_decide_eq_true hid, hswaps] at hchained
      exact hchained.pairwise hgrows (hswaps ▸ hupdated)

end

/-! One passkey: it is registered, two logins present the same counter, and a third a later
one. -/

namespace OnePasskey

def counterIn (data : Json) : Option Nat :=
  (data.asObject.bind (·.lookup "counter")).bind Json.toU64

/-- A passkey is its signature counter, and an assertion the counter it signs. -/
@[reducible]
local instance server : WebauthnServer where
  Passkey := Nat
  PasskeyRegistration := List UInt8
  PasskeyAuthentication := List Nat
  RegisterPublicKeyCredential := Unit
  PublicKeyCredential := Nat
  Verified := Nat
  fromValue := counterIn
  toValue counter := if counter < 2 ^ 64 then some (.object [("counter", .ofNat counter)]) else none
  credId _ := [1]
  userId account := account
  startPasskeyRegistration _ _ _ _ drawn := some (.null, drawn)
  finishPasskeyRegistration _ _ := some 0
  startPasskeyAuthentication passkeys _ := some (.null, passkeys)
  finishPasskeyAuthentication asserted passkeys :=
    if passkeys.all (· < asserted) then some asserted else none
  userVerified _ := true
  needsUpdate asserted := 0 < asserted
  updateCredential counter asserted :=
    if counter < asserted then some (true, asserted) else some (false, counter)

@[reducible]
local instance equality : SqlJsonEquality where
  same _ stored current := counterIn stored = counterIn current

theorem onePassword : ([TwoLogins.password].map CredentialRow.key).Nodup := List.nodup_singleton _

def standalone : StandaloneStore :=
  ⟨TwoLogins.iam, ⟨[TwoLogins.password], onePassword⟩, [], [], []⟩

def handler : WebauthnHandler :=
  ⟨{ TwoLogins.handler with webauthn := true }, .empty⟩

/-- The first two logins list the passkey before either writes its update. -/
def events : List WebauthnEvent := List.flatten
  [[.start (.registrationChallenge (.ok "P_1") ⟨"alice", "password", none, none⟩ [] [1] [7])],
    List.replicate 6 (.resume 0 (.answered 10)),
    [.start (.registrationVerify none (.ok "P_1") ⟨"Bw", (), ""⟩ [] [9])],
    List.replicate 5 (.resume 1 (.answered 20)),
    [.start (.authenticationChallenge "alice" [2] [8]),
      .start (.authenticationChallenge "alice" [3] [9])],
    List.replicate 3 (.resume 2 (.answered 30)), List.replicate 3 (.resume 3 (.answered 30)),
    [.start (.authenticationVerify none ⟨"CA", (5 : Nat), ""⟩ []),
      .start (.authenticationVerify none ⟨"CQ", (5 : Nat), ""⟩ [])],
    List.replicate 2 (.resume 4 (.answered 40)), List.replicate 2 (.resume 5 (.answered 40)),
    List.replicate 4 (.resume 4 (.answered 50)), [.resume 5 (.answered 60)],
    [.start (.authenticationChallenge "alice" [4] [10])],
    List.replicate 3 (.resume 6 (.answered 70)),
    [.start (.authenticationVerify none ⟨"Cg", (6 : Nat), ""⟩ [])],
    List.replicate 6 (.resume 7 (.answered 80))]

abbrev run : Option WebauthnPool :=
  Runs.run (@WebauthnHandler.webauthnStep server ReturnLink.parts (Documents.wire [])
    Archive.unsigned TwoLogins.crypto TwoLogins.sqlJson equality handler)
    (Pool.idle (WebauthnStore.begin standalone)) events

theorem ran : run.any (fun final => final.tasks.all (·.2.isDone) &&
    final.store.swaps.length = 2) = true := by
  decide +kernel

theorem logins_completed : ∃ final, run = some final ∧ final.tasks.all (·.2.isDone) ∧
    @PasskeyLogins server TwoLogins.crypto handler final := by
  obtain ⟨final, hfinal, hended⟩ := (Option.any_eq_true _ _).mp ran
  exact ⟨final, hfinal, (Bool.and_eq_true_iff.mp hended).1,
    @passkey_logins server TwoLogins.crypto equality TwoLogins.sqlJson ReturnLink.parts
      (Documents.wire []) Archive.unsigned handler standalone events final hfinal⟩

theorem registration_completed : ∃ final, run = some final ∧ final.tasks.all (·.2.isDone) ∧
    @PasskeyRegistrations server TwoLogins.crypto handler standalone final := by
  obtain ⟨final, hfinal, hended⟩ := (Option.any_eq_true _ _).mp ran
  exact ⟨final, hfinal, (Bool.and_eq_true_iff.mp hended).1,
    @passkey_registrations server TwoLogins.crypto equality TwoLogins.sqlJson ReturnLink.parts
      (Documents.wire []) Archive.unsigned handler standalone events final hfinal⟩

/-- Counters only go up. -/
theorem counters_grow : @Grows server equality handler.standalone.backend
    fun (passkey later : Nat) => passkey < later where
  trans _ _ _ h h' := Nat.lt_trans h h'
  updated passkey asserted updated h := by
    simp only [updateCredential] at h
    split at h
    · rename_i hlt
      obtain ⟨-, rfl⟩ := Prod.mk.inj (Option.some.inj h)
      exact hlt
    · cases (Prod.mk.inj (Option.some.inj h)).1
  same stored current h := by
    have hcounter : counterIn stored = counterIn current := of_decide_eq_true h
    exact hcounter
  written counter data h := by
    simp only [toValue] at h
    split at h
    · rename_i hlt
      cases h
      have hread : counterIn (.object [("counter", .ofNat counter)]) = some counter := by
        simp only [counterIn, Json.asObject, Option.bind_some, List.lookup_cons, beq_self_eq_true]
        rfl
      exact hread
    · cases h

/-- The second of the first two updates is not written, the third login's is, over a smaller
counter. -/
theorem two_versions : ∃ final, run = some final ∧ final.store.swaps.length = 2 ∧
    PasskeyVersions handler standalone final ∧ ∀ credentialId,
      (final.store.swapsOf credentialId).Pairwise fun earlier later => ∃ before after : Nat,
        counterIn earlier.written = some before ∧ counterIn later.written = some after ∧
        before < after := by
  obtain ⟨final, hfinal, hended⟩ := (Option.any_eq_true _ _).mp ran
  have hversions := @passkey_versions server TwoLogins.crypto equality TwoLogins.sqlJson
    ReturnLink.parts (Documents.wire []) Archive.unsigned handler standalone events final hfinal
  exact ⟨final, hfinal, of_decide_eq_true (Bool.and_eq_true_iff.mp hended).2, hversions,
    hversions.grows _ counters_grow⟩

end OnePasskey

end Authguard
