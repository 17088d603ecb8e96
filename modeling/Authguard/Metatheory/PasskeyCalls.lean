import Authguard.Metatheory.PasskeyStore

/-!
The calls of the passkey ceremonies as programs make them: what each leaves behind, and
what its answer says of the store.
-/

namespace Authguard
open Program WebauthnServer Text

/-! Reads of the credentials. -/

/-- What a read of the credentials answers is read from the store as it is. -/
theorem read_answer {α : Type} {store after : StandaloneStore}
    {answer answered : Except CredentialRepositoryError α} {outcome : CallOutcome} {value : α}
    (h : store.read answer outcome = some (answered, after)) (hvalue : answered = .ok value) :
    answer = .ok value := by
  subst hvalue
  cases outcome <;> cases h
  rfl

theorem bindingKey_of_new {provider issuer subject : String} {key : ExternalIdentityKey}
    (h : ExternalIdentityKey.new provider issuer subject = .ok key) :
    key = ⟨provider, issuer, subject⟩ := by
  rw [ExternalIdentityKey.new] at h
  split at h
  · cases h
  · split at h
    · cases h
    · split at h
      · cases h
      · cases h
        rfl

theorem decodeCredential_eq_ok {row : CredentialRow} {credential : IamStandaloneCredential}
    (h : decodeCredential row = .ok credential) : credential = row.toIamStandaloneCredential := by
  rw [decodeCredential] at h
  split at h
  · cases h
  · rename_i key hkey
    cases h
    obtain rfl := bindingKey_of_new hkey
    rfl

section
variable [WebauthnServer]

/-- The row the key finds, and the identity it belongs to. -/
theorem findByKey_eq_ok {store : WebauthnStore} {issuer name : String}
    {found : StandaloneCredentialIdentity}
    (h : store.standalone.findByKey issuer .password name = .ok (some found)) :
    found.credential.identity = found.externalIdentity.bindingKey ∧
      store.HasPassword issuer name found.externalIdentity.bindingKey
        found.credential.secretData := by
  rw [StandaloneStore.findByKey] at h
  split at h
  · cases h
  · rename_i row hrow
    have hselected := List.find?_some hrow
    simp only [decide_eq_true_eq, Bool.decide_and, Bool.and_eq_true] at hselected
    obtain ⟨-, hissuer, hkind, hname, -⟩ := hselected
    simp only [decodeIdentityCredential] at h
    split at h
    · cases h
    · rename_i identity hidentity
      split at h
      · cases h
      · rename_i claims hclaims
        split at h
        · cases h
        · rename_i key hkey
          cases h
          obtain rfl := bindingKey_of_new hkey
          have hkey : identity.key = row.identity := (Table.find_eq_some.mp hidentity).2
          refine ⟨rfl, row, List.mem_of_find?_eq_some hrow, hkind, hname, hkey.symm, ?_, rfl⟩
          rw [← hissuer, ← hkey]
          rfl

theorem listByIdentity_eq_ok {store : WebauthnStore} {identity : ExternalIdentityKey}
    {listed : List IamStandaloneCredential}
    (h : store.standalone.listByIdentity identity .webauthn = .ok listed)
    {credential : IamStandaloneCredential} (hlisted : credential ∈ listed) :
    ∃ row ∈ store.credentials.rows, row.toIamStandaloneCredential = credential ∧
      row.identity = identity ∧ row.kind = .webauthn := by
  obtain ⟨row, hrow, hdecoded⟩ := Result.collect_ok_mem h hlisted
  obtain ⟨hrow, hselected⟩ := List.mem_filter.mp ((List.mem_insertionSort _).mp hrow)
  simp only [decide_eq_true_eq, Bool.decide_and, Bool.and_eq_true] at hselected
  exact ⟨row, hrow, (decodeCredential_eq_ok hdecoded).symm, hselected.1, hselected.2.1⟩

end

/-! The standalone handler registers no passkeys. -/

section
variable [StandaloneCrypto]

theorem within_normalizeLogin (login : String) :
    (normalizeLogin login).Within EnrollsTotp
      (· = StandaloneCrypto.toLowercase (trim login)) := by
  rw [normalizeLogin]
  split
  · trivial
  · rfl

theorem within_verifyCredentials (subject code : String)
    (credentials : List IamStandaloneCredential) :
    (StandaloneHandler.verifyCredentials subject code credentials).Within EnrollsTotp
      fun _ => True := by
  induction credentials with
  | nil => trivial
  | cons credential credentials ih =>
      rw [StandaloneHandler.verifyCredentials]
      split
      · exact ih
      · refine (within_ofOption _ _).bind fun secret _ => within_clock.bind fun now _ => ?_
        refine (within_ofOption _ _).bind fun counter _ => ?_
        cases counter with
        | none => exact ih
        | some counter => exact ⟨trivial, within_repository⟩

theorem within_secondFactor (handler : StandaloneHandler)
    (found : StandaloneCredentialIdentity) (totpCredentials : List IamStandaloneCredential)
    (totp : Option String) :
    (handler.secondFactor found totpCredentials totp).Within EnrollsTotp fun _ => True := by
  rw [StandaloneHandler.secondFactor]
  split
  · trivial
  · refine (within_ofOption _ _).bind fun code _ => ?_
    have hverify : (handler.verifyTotp found totpCredentials code).Within EnrollsTotp
        fun _ => True := by
      rw [StandaloneHandler.verifyTotp]
      split
      · exact within_verifyCredentials _ code totpCredentials
      · trivial
    refine hverify.bind fun verified _ => ?_
    cases verified with
    | false | true => trivial

theorem within_authenticateCredentials (handler : StandaloneHandler) (request : LoginRequest) :
    (handler.authenticateCredentials request).Within EnrollsTotp fun _ => True := by
  rw [StandaloneHandler.authenticateCredentials]
  refine (within_normalizeLogin _).bind fun login _ => ?_
  refine (within_findByKey _ _ _).bind fun found _ => ?_
  dsimp only
  split
  · refine (within_ofOption _ _).bind fun found _ => ?_
    refine (within_listByIdentity _ _).bind fun listed _ => ?_
    refine (within_secondFactor handler _ _ _).bind fun amr _ => ?_
    exact within_clock.bind fun now _ => trivial
  · trivial

theorem within_totpEnrollmentChallenge (handler : StandaloneHandler) (request : LoginRequest)
    (credential secret nonce challenge : List UInt8) :
    (handler.totpEnrollmentChallenge request credential secret nonce challenge).Within
      EnrollsTotp fun _ => True := by
  rw [StandaloneHandler.totpEnrollmentChallenge]
  refine (within_authenticateCredentials handler request).bind fun authentication _ => ?_
  split
  · refine (within_ofOption _ _).bind fun generated _ => ?_
    refine (within_ofOption _ _).bind fun encrypted _ => ?_
    refine (within_challengeStore handler).bind fun _ _ => ?_
    exact (within_putChallenge _ _).bind fun _ _ => trivial
  · trivial

theorem within_serve [Wire] [Keys] (handler : StandaloneHandler) (request : StandaloneRequest) :
    (handler.serve request).Within EnrollsTotp fun _ => True := by
  cases request with
  | login request random =>
      refine (within_authenticateCredentials handler request).bind fun authentication _ => ?_
      exact (within_converge (within_login _ _ _ random)).bind fun _ _ => trivial
  | stepUp principalId request random =>
      rw [StandaloneHandler.serve, StandaloneHandler.stepUp]
      split
      · refine (within_authenticateCredentials handler request).bind fun authentication _ => ?_
        exact (within_converge (within_verifyStepUp _ _ _ _ random)).bind fun _ _ => trivial
      · trivial
  | enrollmentChallenge request credential secret nonce challenge =>
      exact within_totpEnrollmentChallenge handler request credential secret nonce challenge
  | enrollmentVerify challengeId code random =>
      exact within_totpEnrollmentVerify handler challengeId code random

end

/-! Programs. -/

section
variable [WebauthnServer] [StandaloneCrypto] [SqlJsonEquality] [SqlJson]
  {handler : WebauthnHandler} {requests : Nat → Option WebauthnRequest} {start : WebauthnStore}
  {task : Nat}

variable (handler requests start) in
/-- The program keeps the passkeys, as the one the task runs. -/
abbrev MeetsPasskeys (task : Nat) {β : Type} (post : β → WebauthnStore → Prop)
    (program : WebauthnProgram β) (store : WebauthnStore) : Prop :=
  Program.Meets (Pool.Answers (WebauthnCall.exec handler.standalone.backend task)
    fun _ _ => True) (KeepsPasskeys handler requests start) post program store

theorem meets_ceremonyExcept {α β : Type} {value : Except ApiError α}
    {next : α → WebauthnProgram β} {post : β → WebauthnStore → Prop} {store : WebauthnStore}
    (h : ∀ result, value = .ok result →
      MeetsPasskeys handler requests start task post (next result) store) :
    MeetsPasskeys handler requests start task post (WebauthnProgram.ofExcept value >>= next)
      store := by
  cases value with
  | ok value => exact h value rfl
  | error error => exact meets_fail error store

theorem meets_ceremonyOption {α β : Type} {error : ApiError} {value : Option α}
    {next : α → WebauthnProgram β} {post : β → WebauthnStore → Prop} {store : WebauthnStore}
    (h : ∀ result, value = some result →
      MeetsPasskeys handler requests start task post (next result) store) :
    MeetsPasskeys handler requests start task post
      (WebauthnProgram.ofOption error value >>= next) store := by
  cases value with
  | some value => exact h value rfl
  | none => exact meets_fail error store

theorem meets_provided {α β : Type} {value : Except WebauthnProviderError α}
    {next : α → WebauthnProgram β} {post : β → WebauthnStore → Prop} {store : WebauthnStore}
    (h : ∀ result, value = .ok result →
      MeetsPasskeys handler requests start task post (next result) store) :
    MeetsPasskeys handler requests start task post (WebauthnProgram.provided value >>= next)
      store :=
  meets_ceremonyExcept fun result hresult => h result (Result.mapError_ok.mp hresult)

/-- What a call answers with, where it does not fail. -/
theorem meets_answer {α ε : Type} {answer : Except ε α} {lift : ε → ApiError}
    {post : α → WebauthnStore → Prop} {store : WebauthnStore}
    (h : ∀ result, answer = .ok result → ∀ later,
      KeepsPasskeys handler requests start store later → post result later) :
    MeetsPasskeys handler requests start task post
      (WebauthnProgram.ofExcept (answer.mapError lift)) store := by
  cases answer with
  | ok result => exact meets_ok (h result rfl)
  | error error => exact meets_fail _ store

theorem meets_enabled {β : Type} {next : Unit → WebauthnProgram β}
    {post : β → WebauthnStore → Prop} {store : WebauthnStore}
    (h : MeetsPasskeys handler requests start task post (next ()) store) :
    MeetsPasskeys handler requests start task post (handler.enabled >>= next) store := by
  rw [WebauthnHandler.enabled]
  split
  · exact h
  · exact meets_fail _ store

theorem meets_ceremonyStore {β : Type} {next : Unit → WebauthnProgram β}
    {post : β → WebauthnStore → Prop} {store : WebauthnStore}
    (h : MeetsPasskeys handler requests start task post (next ()) store) :
    MeetsPasskeys handler requests start task post (handler.challengeStore >>= next) store := by
  rw [WebauthnHandler.challengeStore]
  split
  · exact h
  · exact meets_fail _ store

omit [StandaloneCrypto] in
theorem exec_inCeremony (call : StandaloneCall) {outcome : CallOutcome}
    {store after : WebauthnStore} {answer : call.Answer}
    (h : WebauthnCall.exec handler.standalone.backend task (.standalone call) outcome store =
      some (answer, after)) :
    StandaloneCall.exec handler.standalone.backend task call outcome store.standalone =
        some (answer, after.standalone) ∧
      after = { store with standalone := after.standalone } := by
  obtain ⟨⟨answered, standalone⟩, hexec, h⟩ := Option.map_eq_some_iff.mp h
  cases h
  exact ⟨hexec, rfl⟩

theorem keeps_inCeremony (call : StandaloneCall) (hcall : EnrollsTotp call)
    {outcome : CallOutcome} {store after : WebauthnStore} {answer : call.Answer}
    (h : WebauthnCall.exec handler.standalone.backend task (.standalone call) outcome store =
      some (answer, after)) : KeepsPasskeys handler requests start store after := by
  obtain ⟨hexec, hafter⟩ := exec_inCeremony call h
  rw [hafter]
  exact keepsPasskeys_standalone hcall hexec

/-- A program of the standalone handler, which registers no passkeys. -/
theorem meets_inCeremony {β : Type} {q : β → Prop} {program : StandaloneProgram β}
    (h : program.Within EnrollsTotp q) (store : WebauthnStore) :
    MeetsPasskeys handler requests start task (fun result _ => q result) program.inCeremony
      store := by
  refine Meets.lift (h.meets ?_ store)
  rintro call later _ after hcall ⟨answer, rfl, -, outcome, hexec⟩
  exact keeps_inCeremony call hcall hexec

theorem meets_ceremonyClock (store : WebauthnStore) :
    MeetsPasskeys handler requests start task (fun _ _ => True) WebauthnProgram.clock store := by
  rintro later - answer after ⟨-, outcome, hexec⟩
  exact ⟨keeps_inCeremony .clock trivial hexec, meets_ok fun _ _ => trivial⟩


/-! Credentials that were read. -/

theorem meets_findPassword (name : String) (store : WebauthnStore) :
    MeetsPasskeys handler requests start task
      (fun found last => ∀ identity, found = some identity →
        identity.credential.identity = identity.externalIdentity.bindingKey ∧
          last.HasPassword handler.standalone.issuer name
            identity.externalIdentity.bindingKey identity.credential.secretData)
      (WebauthnProgram.findByKey handler.standalone.issuer .password name) store := by
  rintro later - answer after ⟨-, outcome, hexec⟩
  refine ⟨keeps_inCeremony (.findByKey _ _ _) trivial hexec, ?_⟩
  refine meets_answer fun found hanswer last hlast identity hfound => ?_
  subst hfound
  obtain ⟨hread, hafter⟩ := exec_inCeremony (.findByKey _ _ _) hexec
  obtain ⟨hidentity, hpassword⟩ := findByKey_eq_ok (read_answer hread hanswer)
  refine ⟨hidentity, hlast.retains.hasPassword ?_⟩
  rw [hafter, read_store hread]
  exact hpassword

/-- What is listed is the passkeys of the identity in versions of their data, no two under one
identifier. -/
structure ListsPasskeys (store : WebauthnStore) (identity : ExternalIdentityKey)
    (listed : List IamStandaloneCredential) : Prop where
  versions : ∀ credential ∈ listed,
    store.HasVersion identity credential.id credential.credentialData
  unique : ∀ credential ∈ listed, ∀ other ∈ listed, credential.id = other.id → credential = other

theorem meets_listPasskeys (identity : ExternalIdentityKey) (store : WebauthnStore) :
    MeetsPasskeys handler requests start task
      (fun listed last => ListsPasskeys last identity listed)
      (WebauthnProgram.listByIdentity identity .webauthn) store := by
  rintro later - answer after ⟨-, outcome, hexec⟩
  refine ⟨keeps_inCeremony (.listByIdentity _ _) trivial hexec, ?_⟩
  refine meets_answer fun listed hanswer last hlast => ?_
  obtain ⟨hread, hafter⟩ := exec_inCeremony (.listByIdentity _ _) hexec
  have hlisted := read_answer hread hanswer
  constructor
  · intro credential hcredential
    obtain ⟨row, hrow, rfl, hidentity, hkind⟩ := listByIdentity_eq_ok hlisted hcredential
    refine hlast.retains.versions _ _ _ ⟨row, ?_, rfl, hidentity, hkind, .inl rfl⟩
    rw [hafter, read_store hread]
    exact hrow
  · intro credential hcredential other hother hid
    obtain ⟨row, hrow, rfl, -⟩ := listByIdentity_eq_ok hlisted hcredential
    obtain ⟨row', hrow', rfl, -⟩ := listByIdentity_eq_ok hlisted hother
    have hfind := Table.find_eq_some.mpr ⟨hrow, rfl⟩
    rw [show row.key = row'.key from hid, Table.find_eq_some.mpr ⟨hrow', rfl⟩] at hfind
    rw [Option.some.inj hfind]

/-! Passwords. -/

variable (handler) in
/-- The password is the one of an identity the login names. -/
def AuthenticatedBy (store : WebauthnStore) (login password : String)
    (identity : ExternalIdentityKey) : Prop :=
  ∃ secret, store.HasPassword handler.standalone.issuer
      (StandaloneCrypto.toLowercase (trim login)) identity secret ∧
    StandaloneCrypto.verifyPassword password (secret.getD handler.standalone.dummyHash) = true

/-- How the calls of the standalone handler are answered. -/
abbrev CeremonyStep (backend : Backend) (task : Nat) (call : StandaloneCall)
    (store : WebauthnStore) (answer : call.Answer) (after : WebauthnStore) : Prop :=
  ∃ answered, answered = answer ∧ Pool.Answers (WebauthnCall.exec backend task)
    (fun _ _ => True) (.standalone call) store answered after

theorem meets_ceremonyStep {β : Type} {q : β → Prop} {program : StandaloneProgram β}
    (h : program.Within EnrollsTotp q) (store : WebauthnStore) :
    Program.Meets (CeremonyStep handler.standalone.backend task)
      (KeepsPasskeys handler requests start) (fun result _ => q result) program store := by
  refine h.meets ?_ store
  rintro call later _ after hcall ⟨answer, rfl, -, outcome, hexec⟩
  exact keeps_inCeremony call hcall hexec

/-- A login that is authenticated gave the password of its identity. -/
theorem meets_authenticated (request : LoginRequest) (store : WebauthnStore) :
    MeetsPasskeys handler requests start task
      (fun authentication last => AuthenticatedBy handler last request.login request.password
        authentication.externalIdentity.bindingKey)
      (handler.standalone.authenticateCredentials request).inCeremony store := by
  refine Meets.lift ?_
  rw [StandaloneHandler.authenticateCredentials]
  refine (meets_ceremonyStep (within_normalizeLogin request.login) store).bind ?_
  rintro _ store rfl
  have hfind : Program.Meets (CeremonyStep handler.standalone.backend task)
      (KeepsPasskeys handler requests start)
      (fun found last => ∀ identity, found = some identity →
        last.HasPassword handler.standalone.issuer
          (StandaloneCrypto.toLowercase (trim request.login))
          identity.externalIdentity.bindingKey identity.credential.secretData)
      (StandaloneProgram.findByKey handler.standalone.issuer .password
        (StandaloneCrypto.toLowercase (trim request.login))) store := by
    rintro later - _ after ⟨answer, rfl, -, outcome, hexec⟩
    refine ⟨keeps_inCeremony (.findByKey _ _ _) trivial hexec, ?_⟩
    obtain ⟨hread, hafter⟩ := exec_inCeremony (.findByKey _ _ _) hexec
    cases hanswer : answer with
    | error error => exact meets_fail _ after
    | ok found =>
        refine meets_ok fun last hlast identity hfound => hlast.retains.hasPassword ?_
        subst hfound
        rw [hafter, read_store hread]
        exact (findByKey_eq_ok (read_answer hread hanswer)).2
  refine hfind.bind fun found store hfound => ?_
  dsimp only
  split
  · rename_i hverified
    cases found with
    | none => exact meets_fail _ store
    | some identity =>
        have hpassword : AuthenticatedBy handler store request.login request.password
            identity.externalIdentity.bindingKey :=
          ⟨_, hfound identity rfl, hverified⟩
        have hrest : ((do
            let listed ← StandaloneProgram.listByIdentity identity.credential.identity .totp
            let amr ← handler.standalone.secondFactor identity listed request.totp
            let now ← StandaloneProgram.clock
            .ok (.new identity.externalIdentity amr none now)) :
              StandaloneProgram AuthenticationResult).Within EnrollsTotp
            fun authentication => authentication.externalIdentity = identity.externalIdentity := by
          refine (within_listByIdentity _ _).bind fun listed _ => ?_
          refine (within_secondFactor _ _ _ _).bind fun amr _ => ?_
          exact within_clock.bind fun now _ => rfl
        refine ((meets_ceremonyStep hrest store).frame (p := fun last => AuthenticatedBy handler
          last request.login request.password identity.externalIdentity.bindingKey)
          ?_ hpassword).imp ?_
        · rintro store later hlater ⟨secret, hhas, hverified⟩
          exact ⟨secret, hlater.retains.hasPassword hhas, hverified⟩
        · rintro authentication last ⟨heq, hauthenticated⟩
          rw [heq]
          exact hauthenticated
  · exact meets_fail _ store

/-! Challenges. -/

theorem meets_putRegistration {challengeId : String} {challenge : RegistrationChallenge}
    {store : WebauthnStore}
    (hopens : handler.OpensRegistration requests store task challengeId challenge) :
    MeetsPasskeys handler requests start task (fun _ _ => True)
      (WebauthnProgram.putRegistration challengeId challenge) store := by
  rintro later hlater answer after ⟨-, outcome, hexec⟩
  cases hexec
  refine ⟨?_, meets_answer fun _ _ _ _ => trivial⟩
  have hretains : later.Retains { later with
      registrations := (later.registrations.putJson task challengeId challenge outcome).2 } :=
    { WebauthnStore.Retains.refl later with
      registrations := later.registrations.journal_putJson task challengeId challenge outcome }
  exact keepsPasskeys_of_eq hretains
    (SingleUse.Store.keeps_putJson (hopens.later (hlater.retains.trans hretains)) outcome) .rfl
    (fun _ hrow _ => hrow) rfl

theorem meets_putAuthentication {challengeId : String} {challenge : AuthenticationChallenge}
    {store : WebauthnStore}
    (hopens : handler.OpensAuthentication requests store task challengeId challenge) :
    MeetsPasskeys handler requests start task (fun _ _ => True)
      (WebauthnProgram.putAuthentication challengeId challenge) store := by
  rintro later hlater answer after ⟨-, outcome, hexec⟩
  cases hexec
  refine ⟨?_, meets_answer fun _ _ _ _ => trivial⟩
  have hretains : later.Retains { later with
      authentications :=
        (later.authentications.putJson task challengeId challenge outcome).2 } :=
    { WebauthnStore.Retains.refl later with
      authentications :=
        later.authentications.journal_putJson task challengeId challenge outcome }
  exact keepsPasskeys_of_eq hretains .rfl
    (SingleUse.Store.keeps_putJson
      (WebauthnHandler.OpensAuthentication.later (hlater.retains.trans hretains) hopens) outcome)
    (fun _ hrow _ => hrow) rfl

theorem meets_consumeRegistration (challengeId : String) (store : WebauthnStore) :
    MeetsPasskeys handler requests start task
      (fun found last => ∀ challenge, found = some challenge →
        ∃ origin, .taken task origin challengeId challenge ∈ last.registrations.journal)
      (WebauthnProgram.consumeRegistration challengeId) store := by
  rintro later - answer after ⟨-, outcome, hexec⟩
  cases hexec
  have hretains : later.Retains { later with
      registrations := (later.registrations.consumeJson task challengeId outcome).2 } :=
    { WebauthnStore.Retains.refl later with
      registrations := later.registrations.journal_consumeJson task challengeId outcome }
  refine ⟨keepsPasskeys_of_eq hretains (SingleUse.Store.keeps_consumeJson task challengeId outcome)
    .rfl (fun _ hrow _ => hrow) rfl, ?_⟩
  refine meets_answer fun found hanswer last hlast challenge hfound => ?_
  subst hfound
  obtain ⟨origin, htaken⟩ := SingleUse.Store.taken_consumeJson hanswer
  exact ⟨origin, hlast.retains.registrations.subset htaken⟩

theorem meets_consumeAuthentication (challengeId : String) (store : WebauthnStore) :
    MeetsPasskeys handler requests start task
      (fun found last => ∀ challenge, found = some challenge →
        ∃ origin, .taken task origin challengeId challenge ∈ last.authentications.journal)
      (WebauthnProgram.consumeAuthentication challengeId) store := by
  rintro later - answer after ⟨-, outcome, hexec⟩
  cases hexec
  have hretains : later.Retains { later with
      authentications := (later.authentications.consumeJson task challengeId outcome).2 } :=
    { WebauthnStore.Retains.refl later with
      authentications := later.authentications.journal_consumeJson task challengeId outcome }
  refine ⟨keepsPasskeys_of_eq hretains .rfl
    (SingleUse.Store.keeps_consumeJson task challengeId outcome) (fun _ hrow _ => hrow) rfl, ?_⟩
  refine meets_answer fun found hanswer last hlast challenge hfound => ?_
  subst hfound
  obtain ⟨origin, htaken⟩ := SingleUse.Store.taken_consumeJson hanswer
  exact ⟨origin, hlast.retains.authentications.subset htaken⟩

/-! Updates of passkeys and new passkeys. -/

omit [WebauthnServer] [StandaloneCrypto] [SqlJsonEquality] [SqlJson] in
theorem bind_ofOption_eq_ok {α β : Type} {error : WebauthnProviderError} {value : Option α}
    {next : α → Except WebauthnProviderError β} {result : β} :
    (WebauthnProvider.ofOption error value >>= next) = .ok result ↔
      ∃ found, value = some found ∧ next found = .ok result := by
  cases value with
  | none => exact ⟨nofun, nofun⟩
  | some found => exact ⟨fun h => ⟨found, rfl, h⟩, fun ⟨_, heq, h⟩ => Option.some.inj heq ▸ h⟩

omit [StandaloneCrypto] [SqlJsonEquality] [SqlJson] in
/-- The assertion is of a passkey on the list, and if it changes nothing it calls for no
update. -/
theorem updateMatching_eq_ok {verified : Verified} {credentials : List IamStandaloneCredential}
    {credentialId : String} {data : Option Json}
    (h : WebauthnProvider.updateMatching verified credentials = .ok (credentialId, data)) :
    ∃ credential ∈ credentials, credential.id = credentialId ∧
      ∃ passkey changed updated, credential.credentialData.bind fromValue = some passkey ∧
        updateCredential passkey verified = some (changed, updated) ∧
        ((changed = false ∧ needsUpdate verified = false ∧ data = none) ∨
          (changed = true ∧ ∃ written, toValue updated = some written ∧ data = some written)) := by
  induction credentials with
  | nil => cases h
  | cons credential credentials ih =>
      obtain ⟨passkey, hpasskey, h⟩ := Result.bind_ok_iff.mp h
      have hparsed : credential.credentialData.bind fromValue = some passkey := by
        rw [WebauthnProvider.parsePasskey] at hpasskey
        cases hread : credential.credentialData.bind fromValue with
        | none =>
            rw [hread] at hpasskey
            cases hpasskey
        | some found =>
            rw [hread] at hpasskey
            cases hpasskey
            rfl
      split at h
      · obtain ⟨other, hother, hrest⟩ := ih h
        exact ⟨other, List.mem_cons_of_mem credential hother, hrest⟩
      · rename_i changed updated hupdate
        refine ⟨credential, List.mem_cons_self, ?_⟩
        split at h
        · cases h
        · rename_i hneeds
          split at h
          · rename_i hchanged
            obtain ⟨written, hwritten, h⟩ := bind_ofOption_eq_ok.mp h
            cases h
            exact ⟨rfl, passkey, changed, updated, hparsed, hupdate,
              .inr ⟨hchanged, written, hwritten, rfl⟩⟩
          · rename_i hchanged
            cases h
            obtain rfl : changed = false := by simpa using hchanged
            refine ⟨rfl, passkey, false, updated, hparsed, hupdate, .inl ⟨rfl, ?_, rfl⟩⟩
            simpa using hneeds

omit [StandaloneCrypto] [SqlJsonEquality] [SqlJson] in
theorem finishAuthentication_eq_ok {credential : PublicKeyCredential}
    {state : PasskeyAuthentication} {credentials : List IamStandaloneCredential}
    {result : String × Option Json}
    (h : WebauthnProvider.finishAuthentication credential state credentials = .ok result) :
    ∃ verified, finishPasskeyAuthentication credential state = some verified ∧
      userVerified verified = true ∧
      WebauthnProvider.updateMatching verified credentials = .ok result := by
  obtain ⟨verified, hverified, h⟩ := bind_ofOption_eq_ok.mp h
  split at h
  · rename_i huser
    exact ⟨verified, hverified, huser, h⟩
  · cases h

/-- What a login found its assertion to do to the passkey of the identity, in a version of its
data: it calls for no update and changes nothing, or the task wrote its update over that
version. -/
def Applied (store : WebauthnStore) (task : Nat) (identity : ExternalIdentityKey)
    (credentialId : String) (verified : Verified) : Prop :=
  ∃ data passkey, store.HasVersion identity credentialId (some data) ∧
    fromValue data = some passkey ∧
    ((needsUpdate verified = false ∧
        ∃ updated, updateCredential passkey verified = some (false, updated)) ∨
      ∃ swap ∈ store.swaps, swap.task = task ∧ swap.credentialId = credentialId ∧
        swap.current = data ∧ Amends verified swap)

theorem meets_compareAndSwap {credentialId : String} {current written : Json}
    {challenge : AuthenticationChallenge} {verified : Verified} {store : WebauthnStore}
    (hasserted : Asserted requests store task challenge verified)
    (hversion : store.HasVersion challenge.externalIdentity.bindingKey credentialId
      (some current))
    (hamends : ∀ stored, Amends verified ⟨task, credentialId, stored, current, written⟩) :
    MeetsPasskeys handler requests start task
      (fun swapped last => swapped = true →
        Applied last task challenge.externalIdentity.bindingKey credentialId verified)
      (WebauthnProgram.compareAndSwapCredentialData credentialId current written) store := by
  rintro later hlater answer after ⟨-, outcome, hexec⟩
  have hcases := compareAndSwap_cases handler.standalone.backend later task credentialId current
    written
  have hswapped : KeepsPasskeys handler requests start later
      (later.compareAndSwapCredentialData handler.standalone.backend task credentialId current
        written).2 := by
    obtain heq | ⟨row, stored, hrow, hdata, hsame, heq⟩ := hcases
    · rw [heq]
      exact refl_of (KeepsPasskeys handler requests start) later
    · rw [heq]
      exact keepsPasskeys_swap hrow hdata ⟨hsame, challenge, verified,
        hasserted.later hlater.retains, hlater.retains.hasPasskey hversion.hasPasskey,
        hamends stored⟩
  cases outcome with
  | answered now =>
      cases hexec
      refine ⟨hswapped, meets_answer fun swapped hanswer last hlast htrue => ?_⟩
      obtain heq | ⟨row, stored, hrow, hdata, hsame, heq⟩ := hcases
      · rw [heq] at hanswer
        cases hanswer
        cases htrue
      · obtain ⟨passkey, updated, hpasskey, -⟩ := (hamends stored).updated
        refine ⟨current, passkey, hlast.retains.versions _ _ _
          (hswapped.retains.versions _ _ _ (hlater.retains.versions _ _ _ hversion)), hpasskey,
          .inr ⟨⟨task, credentialId, stored, current, written⟩, ?_, rfl, rfl, rfl, hamends stored⟩⟩
        refine hlast.retains.swaps.subset ?_
        rw [heq]
        exact List.mem_append_right _ List.mem_cons_self
  | expired => cases hexec
  | failed message =>
      cases hexec
      exact ⟨refl_of (KeepsPasskeys handler requests start) later,
        meets_answer fun _ h => by cases h⟩
  | lost message now =>
      cases hexec
      exact ⟨hswapped, meets_answer fun _ h => by cases h⟩

omit [SqlJson] in
theorem Applied.later {store after : WebauthnStore}
    (h : KeepsPasskeys handler requests start store after) {identity : ExternalIdentityKey}
    {credentialId : String} {verified : Verified}
    (happlied : Applied store task identity credentialId verified) :
    Applied after task identity credentialId verified := by
  obtain ⟨data, passkey, hversion, hpasskey, hnone | ⟨swap, hswap, hrest⟩⟩ := happlied
  · exact ⟨data, passkey, h.retains.versions _ _ _ hversion, hpasskey, .inl hnone⟩
  · exact ⟨data, passkey, h.retains.versions _ _ _ hversion, hpasskey,
      .inr ⟨swap, h.retains.swaps.subset hswap, hrest⟩⟩

/-- The update is compared with the data the assertion was checked against. -/
theorem meets_storeUpdate {listed : List IamStandaloneCredential} {credentialId : String}
    {data : Option Json} {challenge : AuthenticationChallenge} {verified : Verified}
    {store : WebauthnStore} (hasserted : Asserted requests store task challenge verified)
    (hlists : ListsPasskeys store challenge.externalIdentity.bindingKey listed)
    (h : WebauthnProvider.updateMatching verified listed = .ok (credentialId, data)) :
    MeetsPasskeys handler requests start task
      (fun _ last =>
        Applied last task challenge.externalIdentity.bindingKey credentialId verified)
      (WebauthnHandler.storeUpdate listed credentialId data) store := by
  obtain ⟨credential, hcredential, rfl, passkey, changed, updated, hpasskey, hupdate, hdata⟩ :=
    updateMatching_eq_ok h
  obtain ⟨current, hcurrent, hread⟩ := Option.bind_eq_some_iff.mp hpasskey
  have hversion := hlists.versions credential hcredential
  rw [hcurrent] at hversion
  obtain ⟨rfl, hneeds, rfl⟩ | ⟨rfl, written, hwritten, rfl⟩ := hdata
  · exact meets_ok fun last hlast => ⟨current, passkey, hlast.retains.versions _ _ _ hversion,
      hread, .inl ⟨hneeds, updated, hupdate⟩⟩
  · refine meets_ceremonyOption fun data hlisted => ?_
    obtain ⟨found, hfound, hdata⟩ := Option.bind_eq_some_iff.mp hlisted
    obtain rfl := hlists.unique found (List.mem_of_find?_eq_some hfound) credential hcredential
      (by simpa using List.find?_some hfound)
    obtain rfl := Option.some.inj (hdata.symm.trans hcurrent)
    refine (meets_compareAndSwap hasserted hversion
      fun stored => ⟨passkey, updated, hread, hupdate, hwritten⟩).bind fun swapped last hlast => ?_
    cases swapped with
    | true => exact meets_ok fun later hlater => (hlast rfl).later hlater
    | false => exact meets_fail _ last

theorem meets_createPasskey {credential : IamStandaloneCredential} {store : WebauthnStore}
    (hregistered : RegisteredBy requests store credential) (hkind : credential.kind = .webauthn) :
    MeetsPasskeys handler requests start task
      (fun _ last => last.HasPasskey credential.identity credential.id)
      (WebauthnProgram.createCredential credential) store := by
  rintro later hlater answer after ⟨-, outcome, hexec⟩
  obtain ⟨hcreated, hafter⟩ := exec_inCeremony (.createCredential credential) hexec
  have hsame : after.standalone = later.standalone →
      KeepsPasskeys handler requests start later after := by
    intro heq
    rw [hafter, heq]
    exact refl_of (KeepsPasskeys handler requests start) later
  have hcreates : ∀ now, later.standalone.createCredential now credential = .ok after.standalone →
      KeepsPasskeys handler requests start later after := by
    intro now hok
    rw [hafter]
    exact keepsPasskeys_create (hregistered.later hlater.retains) hok
  cases outcome with
  | answered now =>
      simp only [StandaloneCall.exec] at hcreated
      split at hcreated
      · obtain ⟨rfl, heq⟩ := Prod.mk.inj (Option.some.inj hcreated)
        exact ⟨hsame heq.symm, meets_answer fun _ h => by cases h⟩
      · rename_i created hok
        obtain ⟨-, rfl⟩ := Prod.mk.inj (Option.some.inj hcreated)
        refine ⟨hcreates now hok, meets_answer fun _ _ last hlast => hlast.retains.hasPasskey ?_⟩
        exact ⟨_, (Table.mem_insert (createCredential_eq_ok hok).1).mpr (.inr rfl), rfl, rfl, hkind⟩
  | expired => cases hcreated
  | failed message =>
      obtain ⟨rfl, heq⟩ := Prod.mk.inj (Option.some.inj hcreated)
      exact ⟨hsame heq.symm, meets_answer fun _ h => by cases h⟩
  | lost message now =>
      simp only [StandaloneCall.exec] at hcreated
      split at hcreated
      · obtain ⟨rfl, heq⟩ := Prod.mk.inj (Option.some.inj hcreated)
        exact ⟨hsame heq.symm, meets_answer fun _ h => by cases h⟩
      · rename_i created hok
        obtain ⟨rfl, rfl⟩ := Prod.mk.inj (Option.some.inj hcreated)
        exact ⟨hcreates now hok, meets_answer fun _ h => by cases h⟩

end

end Authguard
