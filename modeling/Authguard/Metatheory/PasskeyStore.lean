import Authguard.Authn.WebauthnCeremony
import Authguard.Metatheory.PipelineBinding

/-!
What the calls of the passkey ceremonies keep. Passwords and passkeys are never lost, only
the data of a passkey changes, and it changes through conditional updates alone: its
versions form a chain, each link one update that replaced the version before it.
-/

namespace Authguard
open Program WebauthnServer Text

/-! Versions of the data. -/

/-- Each update replaced what the one before it wrote. -/
def Chained : Option Json → List Swap → Option Json → Prop
  | first, [], last => last = first
  | first, swap :: swaps, last => first = some swap.stored ∧ Chained (some swap.written) swaps last

theorem Chained.concat {first : Option Json} {swaps : List Swap} {swap : Swap}
    (h : Chained first swaps (some swap.stored)) :
    Chained first (swaps ++ [swap]) (some swap.written) := by
  induction swaps generalizing first with
  | nil => exact ⟨h.symm, rfl⟩
  | cons earlier rest ih => exact ⟨h.1, ih h.2⟩

/-- Everything but the data is as it was. -/
def CredentialRow.Remains (row later : CredentialRow) : Prop :=
  ∃ data, later = { row with credentialData := data }

theorem CredentialRow.Remains.rfl {row : CredentialRow} : row.Remains row :=
  ⟨row.credentialData, Eq.refl row⟩

theorem CredentialRow.Remains.trans {row later last : CredentialRow} (h : row.Remains later)
    (h' : later.Remains last) : row.Remains last := by
  obtain ⟨data, rfl⟩ := h
  obtain ⟨data', rfl⟩ := h'
  exact ⟨data', Eq.refl _⟩

theorem mem_insert_remains {table after : CredentialTable} {row : CredentialRow}
    (h : table.insert row = some after) (other : CredentialRow) (hother : other ∈ table.rows) :
    ∃ later ∈ after.rows, other.Remains later :=
  ⟨other, (Table.mem_insert h).mpr (.inl hother), .rfl⟩

theorem mem_upsert_remains {table : CredentialTable} {row : CredentialRow} {data : Option Json}
    {credentialId : String} (h : table.find credentialId = some row) (other : CredentialRow)
    (hother : other ∈ table.rows) :
    ∃ later ∈ (table.upsert { row with credentialData := data }).rows, other.Remains later := by
  obtain ⟨hrow, rfl⟩ := Table.find_eq_some.mp h
  by_cases hkey : other.key = row.key
  · obtain rfl : other = row :=
      Option.some.inj ((Table.find_eq_some.mpr ⟨hother, hkey⟩).symm.trans h)
    exact ⟨_, Table.mem_upsert_iff.mpr (.inl rfl), data, rfl⟩
  · exact ⟨other, Table.mem_upsert_iff.mpr (.inr ⟨hother, hkey⟩), .rfl⟩

namespace WebauthnStore

variable [WebauthnServer] (store : WebauthnStore)

abbrev iam : IamDatabase := store.standalone.iam

abbrev credentials : CredentialTable := store.standalone.credentials

def swapsOf (credentialId : String) : List Swap :=
  store.swaps.filter (·.credentialId = credentialId)

theorem swapsOf_concat {store after : WebauthnStore} {swap : Swap}
    (h : after.swaps = store.swaps ++ [swap]) (credentialId : String) :
    after.swapsOf credentialId =
      store.swapsOf credentialId ++ if swap.credentialId = credentialId then [swap] else [] := by
  rw [swapsOf, h, List.filter_append, List.filter_cons, List.filter_nil, swapsOf]
  simp only [decide_eq_true_eq]

/-- The identity has the passkey. -/
def HasPasskey (identity : ExternalIdentityKey) (credentialId : String) : Prop :=
  ∃ row ∈ store.credentials.rows,
    row.id = credentialId ∧ row.identity = identity ∧ row.kind = .webauthn

/-- The identity has the passkey, and the data is what it holds or what an update of it
replaced. -/
def HasVersion (identity : ExternalIdentityKey) (credentialId : String) (data : Option Json) :
    Prop :=
  ∃ row ∈ store.credentials.rows,
    row.id = credentialId ∧ row.identity = identity ∧ row.kind = .webauthn ∧
    (row.credentialData = data ∨ ∃ swap ∈ store.swapsOf credentialId, data = some swap.stored)

/-- The identity has the password that the issuer knows under the name. -/
def HasPassword (issuer name : String) (identity : ExternalIdentityKey)
    (secret : Option String) : Prop :=
  ∃ row ∈ store.credentials.rows, row.kind = .password ∧ row.credentialKey = some name ∧
    row.identity = identity ∧ identity.issuer = issuer ∧ row.secretData = secret

/-- What is never lost. -/
structure Retains (store after : WebauthnStore) : Prop where
  bound : ∀ key row, store.iam.identities.find key = some row →
    after.iam.identities.find key = some row
  credentials : ∀ row ∈ store.credentials.rows, ∃ later ∈ after.credentials.rows,
    row.Remains later
  versions : ∀ identity credentialId data, store.HasVersion identity credentialId data →
    after.HasVersion identity credentialId data
  registrations : store.registrations.journal <+: after.registrations.journal
  authentications : store.authentications.journal <+: after.authentications.journal
  swaps : store.swaps <+: after.swaps

variable {store}

theorem Retains.refl (store : WebauthnStore) : store.Retains store where
  bound _ _ h := h
  credentials row hrow := ⟨row, hrow, .rfl⟩
  versions _ _ _ h := h
  registrations := List.prefix_refl _
  authentications := List.prefix_refl _
  swaps := List.prefix_refl _

theorem Retains.trans {after last : WebauthnStore} (h : store.Retains after)
    (h' : after.Retains last) : store.Retains last where
  bound key row hrow := h'.bound key row (h.bound key row hrow)
  credentials row hrow := by
    obtain ⟨later, hlater, hremains⟩ := h.credentials row hrow
    obtain ⟨final, hfinal, hremains'⟩ := h'.credentials later hlater
    exact ⟨final, hfinal, hremains.trans hremains'⟩
  versions identity credentialId data hversion :=
    h'.versions identity credentialId data (h.versions identity credentialId data hversion)
  registrations := h.registrations.trans h'.registrations
  authentications := h.authentications.trans h'.authentications
  swaps := h.swaps.trans h'.swaps

variable {after : WebauthnStore}

theorem HasVersion.hasPasskey {identity : ExternalIdentityKey} {credentialId : String}
    {data : Option Json} (h : store.HasVersion identity credentialId data) :
    store.HasPasskey identity credentialId := by
  obtain ⟨row, hrow, hid, hidentity, hkind, -⟩ := h
  exact ⟨row, hrow, hid, hidentity, hkind⟩

/-- Where the passkeys are left as they are. -/
theorem versions_kept (hswaps : after.swaps = store.swaps)
    (hpasskeys : ∀ row ∈ store.credentials.rows, row.kind = .webauthn →
      row ∈ after.credentials.rows) (identity : ExternalIdentityKey) (credentialId : String)
    (data : Option Json) (h : store.HasVersion identity credentialId data) :
    after.HasVersion identity credentialId data := by
  obtain ⟨row, hrow, hid, hidentity, hkind, hdata⟩ := h
  refine ⟨row, hpasskeys row hrow hkind, hid, hidentity, hkind, ?_⟩
  rw [swapsOf, hswaps]
  exact hdata

theorem Retains.boundTo (h : store.Retains after) {key : ExternalIdentityKey}
    {principalId : String} (hbound : BoundTo store.iam key principalId) :
    BoundTo after.iam key principalId := by
  obtain ⟨row, hrow, hid⟩ := hbound
  exact ⟨row, h.bound key row hrow, hid⟩

theorem Retains.hasPasskey (h : store.Retains after) {identity : ExternalIdentityKey}
    {credentialId : String} (hhas : store.HasPasskey identity credentialId) :
    after.HasPasskey identity credentialId := by
  obtain ⟨row, hrow, hid, hidentity, hkind⟩ := hhas
  obtain ⟨_, hlater, data, rfl⟩ := h.credentials row hrow
  exact ⟨_, hlater, hid, hidentity, hkind⟩

theorem Retains.hasPassword (h : store.Retains after) {issuer name : String}
    {identity : ExternalIdentityKey} {secret : Option String}
    (hhas : store.HasPassword issuer name identity secret) :
    after.HasPassword issuer name identity secret := by
  obtain ⟨row, hrow, hkind, hname, hidentity, hissuer, hsecret⟩ := hhas
  obtain ⟨_, hlater, data, rfl⟩ := h.credentials row hrow
  exact ⟨_, hlater, hkind, hname, hidentity, hissuer, hsecret⟩

end WebauthnStore

/-! What the challenges and the updates rest on. -/

section
variable [WebauthnServer] [StandaloneCrypto] (handler : WebauthnHandler)
  (requests : Nat → Option WebauthnRequest) (store : WebauthnStore)

/-- A registration is opened by a caller who gave the password of an identity of its own. -/
structure WebauthnHandler.OpensRegistration (task : Nat) (challengeId : String)
    (challenge : RegistrationChallenge) : Prop where
  opened : ∃ request random drawn bytes secret existing options,
    requests task = some
      (.registrationChallenge (.ok challenge.principalId) request random drawn bytes) ∧
    challengeId = Base64Url.encode bytes ∧
    store.HasPassword handler.standalone.issuer
      (StandaloneCrypto.toLowercase (trim request.login))
      challenge.externalIdentity.bindingKey secret ∧
    StandaloneCrypto.verifyPassword request.password
      (secret.getD handler.standalone.dummyHash) = true ∧
    WebauthnProvider.startRegistration challenge.externalIdentity.bindingKey
      (WebauthnHandler.displayName request.displayName challenge.externalIdentity) existing
      drawn = .ok (options, challenge.state)
  bound : BoundTo store.iam challenge.externalIdentity.bindingKey challenge.principalId

/-- A login is opened over passkeys of the identity that has the password under the name, each
in a version that it holds or held. -/
def WebauthnHandler.OpensAuthentication (task : Nat) (challengeId : String)
    (challenge : AuthenticationChallenge) : Prop :=
  ∃ login drawn bytes secret listed options,
    requests task = some (.authenticationChallenge login drawn bytes) ∧
    challengeId = Base64Url.encode bytes ∧
    store.HasPassword handler.standalone.issuer (StandaloneCrypto.toLowercase (trim login))
      challenge.externalIdentity.bindingKey secret ∧
    (∀ credential ∈ listed, store.HasVersion challenge.externalIdentity.bindingKey credential.id
      credential.credentialData) ∧
    WebauthnProvider.startAuthentication listed drawn = .ok (options, challenge.state)

omit [StandaloneCrypto] in
/-- The task took the challenge, and the assertion it was sent verifies against it. -/
def Asserted (task : Nat) (challenge : AuthenticationChallenge) (verified : Verified) : Prop :=
  ∃ host request random origin,
    requests task = some (.authenticationVerify host request random) ∧
    .taken task origin request.challengeId challenge ∈ store.authentications.journal ∧
    finishPasskeyAuthentication request.credential challenge.state = some verified ∧
    userVerified verified = true

omit [StandaloneCrypto] in
/-- The update is what the assertion makes of the passkey it was compared with. -/
structure Amends (verified : Verified) (swap : Swap) : Prop where
  updated : ∃ passkey updated, fromValue swap.current = some passkey ∧
    updateCredential passkey verified = some (true, updated) ∧
    toValue updated = some swap.written

omit [StandaloneCrypto] in
structure UpdatedBy [SqlJsonEquality] (backend : Backend) (swap : Swap) : Prop where
  compared : SqlJsonEquality.same backend swap.stored swap.current = true
  asserted : ∃ challenge verified, Asserted requests store swap.task challenge verified ∧
    store.HasPasskey challenge.externalIdentity.bindingKey swap.credentialId ∧
    Amends verified swap

omit [StandaloneCrypto] in
/-- The credential ends a registration by the caller who opened it, of an identity that is
bound to it. -/
def RegisteredBy (credential : IamStandaloneCredential) : Prop :=
  ∃ task origin host request random bytes challenge key data,
    requests task = some
      (.registrationVerify host (.ok challenge.principalId) request random bytes) ∧
    .taken task origin request.challengeId challenge ∈ store.registrations.journal ∧
    WebauthnProvider.finishRegistration request.credential challenge.state = .ok (key, data) ∧
    credential = WebauthnHandler.passkeyCredential bytes challenge.externalIdentity.bindingKey
      key data ∧
    BoundTo store.iam challenge.externalIdentity.bindingKey challenge.principalId

omit [StandaloneCrypto] in
/-- The passkey was there at the start or was registered, and its data is what the updates
made of it since. -/
def Versioned (start : WebauthnStore) (row : CredentialRow) : Prop :=
  ∃ first : CredentialRow, first.Remains row ∧
    (first ∈ start.credentials.rows ∨
      RegisteredBy requests store first.toIamStandaloneCredential) ∧
    Chained first.credentialData (store.swapsOf row.id) row.credentialData

end

section
variable [WebauthnServer] [StandaloneCrypto] {handler : WebauthnHandler}
  {requests : Nat → Option WebauthnRequest} {store after : WebauthnStore}
  (h : store.Retains after)
include h

theorem WebauthnHandler.OpensRegistration.later {task : Nat} {challengeId : String}
    {challenge : RegistrationChallenge}
    (hopens : handler.OpensRegistration requests store task challengeId challenge) :
    handler.OpensRegistration requests after task challengeId challenge := by
  obtain ⟨request, random, drawn, bytes, secret, existing, options, hrequest, hid, hpassword,
    hrest⟩ := hopens.opened
  exact ⟨⟨request, random, drawn, bytes, secret, existing, options, hrequest, hid,
    h.hasPassword hpassword, hrest⟩, h.boundTo hopens.bound⟩

theorem WebauthnHandler.OpensAuthentication.later {task : Nat} {challengeId : String}
    {challenge : AuthenticationChallenge}
    (hopens : handler.OpensAuthentication requests store task challengeId challenge) :
    handler.OpensAuthentication requests after task challengeId challenge := by
  obtain ⟨login, drawn, bytes, secret, listed, options, hrequest, hid, hpassword, hlisted,
    hstate⟩ := hopens
  exact ⟨login, drawn, bytes, secret, listed, options, hrequest, hid, h.hasPassword hpassword,
    fun credential hcredential => h.versions _ _ _ (hlisted credential hcredential), hstate⟩

omit [StandaloneCrypto]

theorem Asserted.later {task : Nat} {challenge : AuthenticationChallenge} {verified : Verified}
    (hasserted : Asserted requests store task challenge verified) :
    Asserted requests after task challenge verified := by
  obtain ⟨host, request, random, origin, hrequest, htaken, hverified⟩ := hasserted
  exact ⟨host, request, random, origin, hrequest, h.authentications.subset htaken, hverified⟩

theorem UpdatedBy.later [SqlJsonEquality] {backend : Backend} {swap : Swap}
    (hupdated : UpdatedBy requests store backend swap) :
    UpdatedBy requests after backend swap := by
  obtain ⟨challenge, verified, hasserted, hpasskey, hamends⟩ := hupdated.asserted
  exact ⟨hupdated.compared, challenge, verified, hasserted.later h, h.hasPasskey hpasskey,
    hamends⟩

theorem RegisteredBy.later {credential : IamStandaloneCredential}
    (hregistered : RegisteredBy requests store credential) :
    RegisteredBy requests after credential := by
  obtain ⟨task, origin, host, request, random, bytes, challenge, key, data, hrequest, htaken,
    hfinish, hcredential, hbound⟩ := hregistered
  exact ⟨task, origin, host, request, random, bytes, challenge, key, data, hrequest,
    h.registrations.subset htaken, hfinish, hcredential, h.boundTo hbound⟩

theorem Versioned.later {start : WebauthnStore} {row : CredentialRow}
    (hversioned : Versioned requests store start row)
    (hswaps : after.swapsOf row.id = store.swapsOf row.id) :
    Versioned requests after start row := by
  obtain ⟨first, hremains, horigin, hchained⟩ := hversioned
  exact ⟨first, hremains, horigin.imp_right (RegisteredBy.later h), hswaps ▸ hchained⟩

end

/-! The invariant. -/

section
variable [WebauthnServer] [StandaloneCrypto] [SqlJsonEquality] (handler : WebauthnHandler)
  (requests : Nat → Option WebauthnRequest)

structure WebauthnStore.Sound (store start : WebauthnStore) : Prop where
  registrations : store.registrations.Sound (handler.OpensRegistration requests store)
  authentications : store.authentications.Sound (handler.OpensAuthentication requests store)
  passkeys : ∀ row ∈ store.credentials.rows, row.kind = .webauthn →
    Versioned requests store start row
  swaps : ∀ swap ∈ store.swaps, UpdatedBy requests store handler.standalone.backend swap

variable (start : WebauthnStore)

/-- What a call may do. -/
structure KeepsPasskeys (store after : WebauthnStore) : Prop where
  retains : store.Retains after
  sound : store.Sound handler requests start → after.Sound handler requests start

instance : Std.Refl (KeepsPasskeys handler requests start) := ⟨fun store => ⟨.refl store, id⟩⟩

instance : IsTrans WebauthnStore (KeepsPasskeys handler requests start) :=
  ⟨fun _ _ _ h h' => ⟨h.retains.trans h'.retains, h'.sound ∘ h.sound⟩⟩

variable {handler requests start} {store after : WebauthnStore}

/-- Where the updates and the passkeys are left as they are. -/
theorem keepsPasskeys_of_eq (h : store.Retains after)
    (hregistrations : SingleUse.Store.Keeps (handler.OpensRegistration requests after)
      store.registrations after.registrations)
    (hauthentications : SingleUse.Store.Keeps (handler.OpensAuthentication requests after)
      store.authentications after.authentications)
    (hpasskeys : ∀ row ∈ after.credentials.rows, row.kind = .webauthn →
      row ∈ store.credentials.rows)
    (hswaps : after.swaps = store.swaps) : KeepsPasskeys handler requests start store after where
  retains := h
  sound hsound := by
    constructor
    · exact hregistrations.sound (hsound.registrations.imp fun _ _ _ hopens =>
        WebauthnHandler.OpensRegistration.later h hopens)
    · exact hauthentications.sound (hsound.authentications.imp fun _ _ _ hopens =>
        WebauthnHandler.OpensAuthentication.later h hopens)
    · intro row hrow hkind
      refine (hsound.passkeys row (hpasskeys row hrow hkind) hkind).later h ?_
      rw [WebauthnStore.swapsOf, WebauthnStore.swapsOf, hswaps]
    · intro swap hswap
      rw [hswaps] at hswap
      exact (hsound.swaps swap hswap).later h

/-! Calls of the standalone handler. -/

/-- The tables of the principals change, the credentials do not. -/
theorem keepsPasskeys_iam {iam : IamDatabase}
    (hbound : ∀ key row, store.iam.identities.find key = some row →
      iam.identities.find key = some row) :
    KeepsPasskeys handler requests start store
      { store with standalone := { store.standalone with iam } } :=
  keepsPasskeys_of_eq
    { WebauthnStore.Retains.refl store with bound := hbound } .rfl .rfl
    (fun _ hrow _ => hrow) rfl

/-- The credentials gain rows or change the data of some, none of them a passkey. -/
theorem keepsPasskeys_credentials {standalone : StandaloneStore}
    (hiam : standalone.iam = store.iam)
    (hcredentials : ∀ row ∈ store.credentials.rows, ∃ later ∈ standalone.credentials.rows,
      row.Remains later)
    (hpasskeys : ∀ row ∈ standalone.credentials.rows, row.kind = .webauthn →
      row ∈ store.credentials.rows) :
    KeepsPasskeys handler requests start store { store with standalone } := by
  have hkept : ∀ row ∈ store.credentials.rows, row.kind = .webauthn →
      row ∈ standalone.credentials.rows := by
    intro row hrow hkind
    obtain ⟨_, hlater, data, rfl⟩ := hcredentials row hrow
    have hold := hpasskeys _ hlater hkind
    have hsame := (Table.find_eq_some.mpr ⟨hold, rfl⟩).symm.trans
      (Table.find_eq_some.mpr ⟨hrow, rfl⟩)
    exact Option.some.inj hsame ▸ hlater
  exact keepsPasskeys_of_eq
    { WebauthnStore.Retains.refl store with
      bound := fun key row hrow => by
        rw [← hiam] at hrow
        exact hrow
      credentials := hcredentials
      versions := WebauthnStore.versions_kept rfl hkept } .rfl .rfl hpasskeys rfl

theorem keepsPasskeys_createCredential {now : Nat} {credential : IamStandaloneCredential}
    {created : StandaloneStore} (hkind : credential.kind ≠ .webauthn)
    (h : store.standalone.createCredential now credential = .ok created) :
    KeepsPasskeys handler requests start store { store with standalone := created } := by
  have hiam : created.iam = store.iam := by
    obtain ⟨table, -, rfl⟩ := Result.map_ok_iff.mp h
    rfl
  have hinsert := (createCredential_eq_ok h).1
  refine keepsPasskeys_credentials hiam (mem_insert_remains hinsert) fun row hrow hpasskey => ?_
  obtain hold | rfl := (Table.mem_insert hinsert).mp hrow
  · exact hold
  · exact absurd hpasskey hkind

variable [SqlJson] {task : Nat}

/-- Only TOTP credentials have a counter. -/
theorem keepsPasskeys_advance {credentialId : String} {counter : Nat} {advanced : Bool}
    {credentials : CredentialTable}
    (h : store.credentials.advanceTotpCounter handler.standalone.backend credentialId counter =
      .ok (advanced, credentials)) (accepted : List Acceptance) :
    KeepsPasskeys handler requests start store
      { store with standalone := { store.standalone with credentials, accepted } } := by
  obtain ⟨-, rfl⟩ | ⟨row, last, data, -, -, hrow, hkind, -, -, -, rfl⟩ :=
    advanceTotpCounter_eq_ok h
  · exact keepsPasskeys_credentials rfl (fun row hrow => ⟨row, hrow, .rfl⟩) fun _ hrow _ => hrow
  · refine keepsPasskeys_credentials rfl (mem_upsert_remains hrow) fun other hother hpasskey => ?_
    obtain rfl | ⟨hold, -⟩ := Table.mem_upsert_iff.mp hother
    · exact absurd (hkind.symm.trans hpasskey) (by decide)
    · exact hold

theorem keepsPasskeys_standalone {call : StandaloneCall} {outcome : CallOutcome}
    {answer : call.Answer} {standalone : StandaloneStore} (hcall : EnrollsTotp call)
    (h : StandaloneCall.exec handler.standalone.backend task call outcome store.standalone =
      some (answer, standalone)) :
    KeepsPasskeys handler requests start store { store with standalone } := by
  have hsame : KeepsPasskeys handler requests start store
      { store with standalone := store.standalone } :=
    refl_of (KeepsPasskeys handler requests start) store
  have hchallenges : ∀ challenges, KeepsPasskeys handler requests start store
      { store with standalone := { store.standalone with challenges } } :=
    fun challenges => keepsPasskeys_credentials rfl (fun row hrow => ⟨row, hrow, .rfl⟩)
      fun _ hrow _ => hrow
  cases call with
  | pipeline call =>
      cases call with
      | identity call =>
          obtain ⟨stored, -, h⟩ := Option.bind_eq_some_iff.mp h
          obtain ⟨⟨_, iam⟩, hexec, h⟩ := Option.map_eq_some_iff.mp h
          cases h
          exact keepsPasskeys_iam fun key row hrow => find_identity_exec hexec hrow
      | now =>
          cases outcome <;> cases h
          exact hsame
  | clock =>
      cases outcome <;> cases h
      exact hsame
  | findByKey issuer kind credentialKey =>
      rw [read_store h]
      exact hsame
  | listByIdentity identity kind =>
      rw [read_store h]
      exact hsame
  | createCredential credential =>
      have hkind : credential.kind ≠ .webauthn := by
        rw [hcall.1]
        decide
      cases outcome with
      | answered now | lost message now =>
          simp only [StandaloneCall.exec] at h
          split at h
          · cases h
            exact hsame
          · rename_i created hcreated
            cases h
            exact keepsPasskeys_createCredential hkind hcreated
      | expired => cases h
      | failed message =>
          cases h
          exact hsame
  | advanceTotpCounter credentialId counter =>
      cases outcome with
      | answered now =>
          simp only [StandaloneCall.exec] at h
          split at h
          · cases h
            exact hsame
          · cases h
            exact hsame
          · rename_i credentials hadvance
            cases h
            exact keepsPasskeys_advance hadvance _
      | expired => cases h
      | failed message =>
          cases h
          exact hsame
      | lost message now =>
          simp only [StandaloneCall.exec] at h
          split at h
          · cases h
            exact hsame
          · rename_i advanced credentials hadvance
            cases h
            exact keepsPasskeys_advance hadvance _
  | putChallenge challengeId challenge =>
      cases outcome with
      | answered now =>
          simp only [StandaloneCall.exec] at h
          split at h
          · cases h
            exact hsame
          · cases h
            exact hchallenges _
      | expired => cases h
      | failed message | lost message now =>
          cases h
          exact hchallenges _
  | consumeChallenge challengeId =>
      cases outcome <;> cases h <;> exact hchallenges _

/-! Updates and registrations. -/

omit [WebauthnServer] [StandaloneCrypto] [SqlJson] in
theorem compareAndSwap_eq_some {table after : CredentialTable} {backend : Backend}
    {credentialId : String} {current written : Json}
    (h : table.compareAndSwapCredentialData backend credentialId current written = some after) :
    ∃ row stored, table.find credentialId = some row ∧ row.credentialData = some stored ∧
      SqlJsonEquality.same backend stored current = true ∧
      after = table.upsert { row with credentialData := some written } := by
  rw [CredentialTable.compareAndSwapCredentialData] at h
  split at h
  · cases h
  · rename_i row hrow
    split at h
    · cases h
    · split at h
      · cases h
      · rename_i stored hdata
        split at h
        · rename_i hsame
          cases h
          exact ⟨row, stored, hrow, hdata, hsame, rfl⟩
        · cases h

omit [StandaloneCrypto] [SqlJson] in
theorem compareAndSwap_cases (backend : Backend) (store : WebauthnStore) (task : Nat)
    (credentialId : String) (current written : Json) :
    store.compareAndSwapCredentialData backend task credentialId current written =
      (false, store) ∨
    ∃ row stored, store.credentials.find credentialId = some row ∧
      row.credentialData = some stored ∧ SqlJsonEquality.same backend stored current = true ∧
      store.compareAndSwapCredentialData backend task credentialId current written = (true,
        { store with
          standalone := { store.standalone with
            credentials := store.credentials.upsert { row with credentialData := some written } }
          swaps := store.swaps ++ [⟨task, credentialId, stored, current, written⟩] }) := by
  cases hswapped : store.credentials.compareAndSwapCredentialData backend credentialId current
      written with
  | none => exact .inl (by rw [WebauthnStore.compareAndSwapCredentialData, hswapped])
  | some credentials =>
      obtain ⟨row, stored, hrow, hdata, hsame, rfl⟩ := compareAndSwap_eq_some hswapped
      refine .inr ⟨row, stored, hrow, hdata, hsame, ?_⟩
      rw [WebauthnStore.compareAndSwapCredentialData, hswapped]
      dsimp only
      rw [hrow, Option.bind_some, hdata]
      rfl

omit [StandaloneCrypto] [SqlJsonEquality] [SqlJson] in
/-- The data that an update replaces stays a version of its passkey. -/
theorem WebauthnStore.HasVersion.swapped {identity : ExternalIdentityKey}
    {versionId credentialId : String} {data : Option Json} {row : CredentialRow}
    {stored current written : Json} (hrow : store.credentials.find credentialId = some row)
    (hdata : row.credentialData = some stored)
    (h : store.HasVersion identity versionId data) :
    ({ store with
      standalone := { store.standalone with
        credentials := store.credentials.upsert { row with credentialData := some written } }
      swaps := store.swaps ++ [⟨task, credentialId, stored, current, written⟩] } :
        WebauthnStore).HasVersion identity versionId data := by
  obtain ⟨other, hother, rfl, hidentity, hkind, hversion⟩ := h
  obtain ⟨hmem, rfl⟩ := Table.find_eq_some.mp hrow
  by_cases hkey : other.key = row.key
  · obtain rfl : other = row :=
      Option.some.inj ((Table.find_eq_some.mpr ⟨hother, hkey⟩).symm.trans hrow)
    refine ⟨_, Table.mem_upsert_iff.mpr (.inl rfl), rfl, hidentity, hkind, .inr ?_⟩
    obtain rfl | ⟨swap, hswap, rfl⟩ := hversion
    · refine ⟨⟨task, other.key, stored, current, written⟩, List.mem_filter.mpr ⟨?_, ?_⟩, hdata⟩
      · exact List.mem_append_right _ List.mem_cons_self
      · exact decide_eq_true rfl
    · obtain ⟨hswap, hid⟩ := List.mem_filter.mp hswap
      exact ⟨swap, List.mem_filter.mpr ⟨List.mem_append_left _ hswap, hid⟩, rfl⟩
  · refine ⟨other, Table.mem_upsert_iff.mpr (.inr ⟨hother, hkey⟩), rfl, hidentity, hkind,
      hversion.imp_right ?_⟩
    rintro ⟨swap, hswap, rfl⟩
    obtain ⟨hswap, hid⟩ := List.mem_filter.mp hswap
    exact ⟨swap, List.mem_filter.mpr ⟨List.mem_append_left _ hswap, hid⟩, rfl⟩

omit [SqlJson] in
/-- The update of one passkey extends its chain and leaves the other chains as they are. -/
theorem keepsPasskeys_swap {credentialId : String} {row : CredentialRow}
    {stored current written : Json} (hrow : store.credentials.find credentialId = some row)
    (hdata : row.credentialData = some stored)
    (hupdated : UpdatedBy requests store handler.standalone.backend
      ⟨task, credentialId, stored, current, written⟩) :
    KeepsPasskeys handler requests start store
      { store with
        standalone := { store.standalone with
          credentials := store.credentials.upsert { row with credentialData := some written } }
        swaps := store.swaps ++ [⟨task, credentialId, stored, current, written⟩] } := by
  have hretains : store.Retains { store with
      standalone := { store.standalone with
        credentials := store.credentials.upsert { row with credentialData := some written } }
      swaps := store.swaps ++ [⟨task, credentialId, stored, current, written⟩] } :=
    { WebauthnStore.Retains.refl store with
      credentials := mem_upsert_remains hrow
      versions := fun _ _ _ hversion => hversion.swapped hrow hdata
      swaps := List.prefix_append _ _ }
  refine ⟨hretains, fun hsound => ⟨?_, ?_, ?_, ?_⟩⟩
  · exact hsound.registrations.imp fun _ _ _ hopens =>
      WebauthnHandler.OpensRegistration.later hretains hopens
  · exact hsound.authentications.imp fun _ _ _ hopens =>
      WebauthnHandler.OpensAuthentication.later hretains hopens
  · intro other hother hkind
    obtain ⟨hmem, hid⟩ := Table.find_eq_some.mp hrow
    obtain rfl | ⟨hold, hne⟩ := Table.mem_upsert_iff.mp hother
    · obtain ⟨first, ⟨data, rfl⟩, horigin, hchained⟩ := hsound.passkeys row hmem hkind
      refine ⟨first, ⟨some written, rfl⟩, horigin.imp_right (RegisteredBy.later hretains), ?_⟩
      dsimp only at hdata
      subst hdata
      have hsame : credentialId = first.id := hid.symm
      rw [WebauthnStore.swapsOf_concat rfl, if_pos hsame]
      exact hchained.concat
    · refine (hsound.passkeys other hold hkind).later hretains ?_
      have hother : credentialId ≠ other.id := fun heq => hne (heq.symm.trans hid.symm)
      rw [WebauthnStore.swapsOf_concat rfl, if_neg hother, List.append_nil]
  · intro swap hswap
    obtain hold | hnew := List.mem_append.mp hswap
    · exact (hsound.swaps swap hold).later hretains
    · obtain rfl := List.mem_singleton.mp hnew
      exact hupdated.later hretains

omit [SqlJson] in
/-- A new passkey that a registration ends with: no update was of it before. -/
theorem keepsPasskeys_create {now : Nat} {credential : IamStandaloneCredential}
    {created : StandaloneStore} (hregistered : RegisteredBy requests store credential)
    (h : store.standalone.createCredential now credential = .ok created) :
    KeepsPasskeys handler requests start store { store with standalone := created } := by
  have hinsert := (createCredential_eq_ok h).1
  have hiam : created.iam = store.iam := by
    obtain ⟨table, -, rfl⟩ := Result.map_ok_iff.mp h
    rfl
  have hretains : store.Retains { store with standalone := created } :=
    { WebauthnStore.Retains.refl store with
      bound := fun key row hrow => by
        rw [← hiam] at hrow
        exact hrow
      credentials := mem_insert_remains hinsert
      versions := WebauthnStore.versions_kept rfl fun row hrow _ =>
        (Table.mem_insert hinsert).mpr (.inl hrow) }
  refine ⟨hretains, fun hsound => ⟨?_, ?_, ?_, ?_⟩⟩
  · exact hsound.registrations.imp fun _ _ _ hopens =>
      WebauthnHandler.OpensRegistration.later hretains hopens
  · exact hsound.authentications.imp fun _ _ _ hopens =>
      WebauthnHandler.OpensAuthentication.later hretains hopens
  · intro row hrow hkind
    obtain hold | rfl := (Table.mem_insert hinsert).mp hrow
    · exact (hsound.passkeys row hold hkind).later hretains rfl
    · refine ⟨_, .rfl, .inr (RegisteredBy.later hretains hregistered), ?_⟩
      have hfree : store.swapsOf credential.id = [] := by
        rw [WebauthnStore.swapsOf, List.filter_eq_nil_iff]
        intro swap hswap hid
        obtain ⟨challenge, verified, -, ⟨row, hrow, hrowId, -⟩, -⟩ :=
          (hsound.swaps swap hswap).asserted
        have hfresh : store.credentials.find credential.id = none :=
          Table.insert_isSome.mp (Option.isSome_iff_exists.mpr ⟨_, hinsert⟩)
        rw [Table.find_eq_none] at hfresh
        exact hfresh (List.mem_map.mpr ⟨row, hrow, hrowId.trans (of_decide_eq_true hid)⟩)
      change Chained credential.credentialData (store.swapsOf credential.id)
        credential.credentialData
      rw [hfree]
      rfl
  · exact fun swap hswap => (hsound.swaps swap hswap).later hretains

end

end Authguard
