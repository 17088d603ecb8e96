import Authguard.Authn.WalletFlow
import Authguard.Metatheory.PipelineBinding
import Authguard.Metatheory.ReturnTargets
import Authguard.Metatheory.WalletSubjects

/-!
Wallet logins and links under any interleaving. A proof that is accepted is of the message
of a challenge that an earlier request prepared for the account; it is used once, and
identities are bound to principals by nothing else.
-/

namespace Authguard
open Program Text

/-! Proofs. -/

theorem canonical_parse {accountId : String} {account : CaipAccount}
    (h : CaipAccount.parse accountId = .ok account) : account.canonical = accountId := by
  rw [CaipAccount.parse] at h
  split at h
  · rename_i caipNamespace reference address hpieces
    split at h
    · cases h
    · cases h
      have hjoin := intercalate_splitChar ':' accountId
      rw [hpieces] at hjoin
      rw [CaipAccount.canonical, ← hjoin]
      simp [String.intercalate_cons_cons, String.append_assoc]
  · cases h

/-- The verifier a proof was accepted by, the method that was asked for, and the one that is
answered. -/
inductive VerifiedBy : SiwxVerifier → WalletVerificationMethod → String → Prop
  | eoa {requested} (h : requested = .auto ∨ requested = .eoa) :
      VerifiedBy (.evm false) requested "eoa"
  | erc1271 {requested} (h : requested = .auto ∨ requested = .erc1271) :
      VerifiedBy (.evm true) requested "erc1271"
  | erc6492 {requested} (h : requested = .auto ∨ requested = .erc6492) :
      VerifiedBy (.evm true) requested "erc6492"
  | solana : VerifiedBy .solana .auto "solana"
  | bitcoin (network : BitcoinNetwork) : VerifiedBy (.bitcoin network) .auto "bitcoin"

section
variable {Message : Type} (siwx : SiwxLibrary Message) (provider : WalletProvider)

/-- What the libraries are asked of a proof. -/
def WalletProvider.opts (challenge : WalletChallenge) (challengeId : String) : AuthOpts where
  domain := provider.domain
  nonce := challenge.nonce
  uri := provider.uri
  chainId := challenge.reference
  requestId := challengeId
  maxIssuedAge := Duration.fromSecs provider.challengeTtl.asSecs

/-- The libraries accepted the signature of the request as one of the message of the challenge. -/
def WalletProvider.Proved (challenge : WalletChallenge) (request : WalletVerifyRequest)
    (authentication : AuthenticationResult) : Prop :=
  ∃ signature verifier method,
    decodeSignature siwx challenge.caipNamespace request.signature = .ok signature ∧
    VerifiedBy verifier request.verificationMethod method ∧
    siwx.authenticate verifier challenge.rawMessage signature
      (provider.opts challenge request.challengeId) = .ok () ∧
    authentication.externalIdentity = ⟨"wallet", "caip-122", challenge.accountId, .empty⟩ ∧
    authentication.amr = ["wallet", "siwx", method]

end

section
variable {Message : Type} {siwx : SiwxLibrary Message} {provider : WalletProvider}
  {rawMessage method : String} {signature : List UInt8} {opts : AuthOpts}
  {requested : WalletVerificationMethod}

theorem verifyContract_ok {contracts : Bool} {asked : String}
    (h : WalletProvider.verifyContract siwx contracts rawMessage signature opts asked = .ok method) :
    siwx.authenticate (.evm true) rawMessage signature opts = .ok () ∧ method = asked := by
  rw [WalletProvider.verifyContract] at h
  split at h
  · obtain ⟨⟨⟩, haccepted, h⟩ := Result.bind_ok_iff.mp h
    cases h
    exact ⟨Result.mapError_ok.mp haccepted, rfl⟩
  · cases h

theorem verifyEvm_ok {contracts : Bool}
    (h : WalletProvider.verifyEvm siwx contracts rawMessage signature opts requested =
      .ok method) :
    ∃ verifier, VerifiedBy verifier requested method ∧
      siwx.authenticate verifier rawMessage signature opts = .ok () := by
  rw [WalletProvider.verifyEvm] at h
  split at h
  · split at h
    · rename_i hasked
      obtain ⟨haccepted, rfl⟩ := verifyContract_ok h
      exact ⟨_, .erc6492 hasked, haccepted⟩
    · cases h
  · split at h
    · cases h
    · rename_i hcontract
      split at h
      · rename_i haccepted
        split at h
        · rename_i hasked
          cases h
          refine ⟨_, .eoa ?_, haccepted⟩
          cases requested with
          | auto => exact .inl rfl
          | eoa => exact .inr rfl
          | erc1271 => exact absurd rfl hasked
          | erc6492 => exact absurd rfl hcontract
        · cases h
      · split at h
        · cases h
        · rename_i heoa
          split at h
          · obtain ⟨⟨⟩, haccepted, h⟩ := Result.bind_ok_iff.mp h
            cases h
            refine ⟨_, .erc1271 ?_, Result.mapError_ok.mp haccepted⟩
            cases requested with
            | auto => exact .inl rfl
            | eoa => exact absurd rfl heoa
            | erc1271 => exact .inr rfl
            | erc6492 => exact absurd rfl hcontract
          · split at h
            · cases h
            · cases h

theorem verifyProof_ok {challenge : WalletChallenge}
    (h : provider.verifyProof siwx challenge signature opts requested = .ok method) :
    ∃ verifier, VerifiedBy verifier requested method ∧
      siwx.authenticate verifier challenge.rawMessage signature opts = .ok () := by
  rw [WalletProvider.verifyProof] at h
  split at h
  · exact verifyEvm_ok h
  · split at h
    · split at h
      · cases h
      · rename_i hauto
        obtain rfl := not_ne_iff.mp hauto
        obtain ⟨⟨⟩, haccepted, h⟩ := Result.bind_ok_iff.mp h
        cases h
        exact ⟨_, .solana, Result.mapError_ok.mp haccepted⟩
    · split at h
      · split at h
        · cases h
        · rename_i hauto
          obtain rfl := not_ne_iff.mp hauto
          split at h
          · cases h
          · rename_i network hnetwork
            obtain ⟨⟨⟩, haccepted, h⟩ := Result.bind_ok_iff.mp h
            cases h
            exact ⟨_, .bitcoin network, Result.mapError_ok.mp haccepted⟩
      · cases h

theorem verify_proved {now : Int} {challenge : WalletChallenge} {request : WalletVerifyRequest}
    {authentication : AuthenticationResult}
    (h : provider.verify siwx now challenge request.challengeId request.signature
      request.verificationMethod = .ok authentication) :
    provider.Proved siwx challenge request authentication := by
  obtain ⟨signature, hsignature, h⟩ := Result.bind_ok_iff.mp h
  obtain ⟨method, hmethod, h⟩ := Result.bind_ok_iff.mp h
  cases h
  obtain ⟨verifier, hverifier, haccepted⟩ := verifyProof_ok hmethod
  exact ⟨signature, verifier, method, hsignature, hverifier, haccepted, rfl, rfl⟩

end

/-! Requests. -/

/-- The requests that send a proof, and what each asks of the pipeline once it is accepted. -/
inductive WalletRequest.Sends {Message : Type} : WalletRequest Message → SiwxLibrary Message →
    WalletVerifyRequest → (AuthenticationResult → LinkRequest) → Prop
  | verify (siwx : SiwxLibrary Message) (host : Option String) (request : WalletVerifyRequest)
      (random : List UInt8) :
      Sends (.verify siwx host request random) siwx request
        fun authentication => .resolveLogin authentication .user random
  | link (siwx : SiwxLibrary Message) (principalId : String) (request : WalletVerifyRequest) :
      Sends (.link siwx (.ok principalId) request) siwx request
        fun authentication => .linkIdentity principalId authentication

section
variable {Message : Type} (handler : WalletHandler) (requests : Nat → Option (WalletRequest Message))

/-- The task prepared the challenge for the account of its request. -/
def WalletHandler.Opens (task : Nat) (challengeId : String) (challenge : WalletChallenge) : Prop :=
  ∃ siwx nonce bytes now prepared,
    requests task = some (.challenge siwx challenge.accountId nonce bytes) ∧
    challengeId = Base64Url.encode bytes ∧
    handler.provider.prepareChallenge siwx nonce now challenge.accountId challengeId =
      .ok prepared ∧
    challenge = prepared.state

/-- The task took the challenge and its proof was accepted. -/
structure WalletHandler.Completes (store : WalletStore) (task : Nat) (siwx : SiwxLibrary Message)
    (request : WalletVerifyRequest) (challenge : WalletChallenge)
    (authentication : AuthenticationResult) : Prop where
  taken : ∃ origin, .taken task origin request.challengeId challenge ∈ store.challenges.journal
  proved : handler.provider.Proved siwx challenge request authentication

/-- The binding was made by a task whose proof was accepted: of its account, to the principal of
the caller or the one the login creates. -/
def WalletHandler.Bound (store : WalletStore) (row : IamPrincipalIdentityInfo) : Prop :=
  ∃ task sent siwx request ask challenge authentication,
    requests task = some sent ∧ sent.Sends siwx request ask ∧
    handler.Completes store task siwx request challenge authentication ∧
    row.key = authentication.externalIdentity.bindingKey ∧
    row.principalId = (ask authentication).target

/-- The challenges stay sound, no binding is lost, and every new one was made by a task whose
proof was accepted. -/
structure KeepsWallets (store after : WalletStore) : Prop where
  challenges : SingleUse.Store.Keeps (handler.Opens requests) store.challenges after.challenges
  kept : ∀ key row, store.iam.identities.find key = some row →
    after.iam.identities.find key = some row
  bound : ∀ row ∈ after.iam.identities.rows, row ∈ store.iam.identities.rows ∨
    handler.Bound requests after row

end

section
variable {Message : Type} {handler : WalletHandler}
  {requests : Nat → Option (WalletRequest Message)} {task : Nat}

theorem WalletHandler.Completes.later {store after : WalletStore} {siwx : SiwxLibrary Message}
    {request : WalletVerifyRequest} {challenge : WalletChallenge}
    {authentication : AuthenticationResult}
    (h : handler.Completes store task siwx request challenge authentication)
    (hlater : store.challenges.journal <+: after.challenges.journal) :
    handler.Completes after task siwx request challenge authentication := by
  obtain ⟨origin, htaken⟩ := h.taken
  exact ⟨⟨origin, hlater.subset htaken⟩, h.proved⟩

theorem WalletHandler.Bound.later {store after : WalletStore} {row : IamPrincipalIdentityInfo}
    (h : handler.Bound requests store row)
    (hlater : store.challenges.journal <+: after.challenges.journal) :
    handler.Bound requests after row := by
  obtain ⟨task, sent, siwx, request, ask, challenge, authentication, hsent, hsends, hcompletes,
    hrow⟩ := h
  exact ⟨task, sent, siwx, request, ask, challenge, authentication, hsent, hsends,
    hcompletes.later hlater, hrow⟩

instance : Std.Refl (KeepsWallets handler requests) :=
  ⟨fun _ => ⟨.rfl, fun _ _ h => h, fun _ h => .inl h⟩⟩

instance : IsTrans WalletStore (KeepsWallets handler requests) where
  trans first second third h h' := by
    refine ⟨⟨h.challenges.journal.trans h'.challenges.journal,
      h'.challenges.sound ∘ h.challenges.sound⟩,
      fun key row hrow => h'.kept key row (h.kept key row hrow), ?_⟩
    intro row hrow
    obtain hrow | hbound := h'.bound row hrow
    · exact (h.bound row hrow).imp_right fun hbound => hbound.later h'.challenges.journal
    · exact .inr hbound

/-- Where the tables are left as they are. -/
theorem keepsWallets_of_challenges {store : WalletStore}
    {challenges : SingleUse.Store String WalletChallenge}
    (h : SingleUse.Store.Keeps (handler.Opens requests) store.challenges challenges) :
    KeepsWallets handler requests store { store with challenges } :=
  ⟨h, fun _ _ hrow => hrow, fun _ hrow => .inl hrow⟩

variable (handler requests) in
/-- The program keeps the challenges and the bindings, as the one the task runs. -/
abbrev MeetsWallets (task : Nat) {β : Type} (post : β → WalletStore → Prop)
    (program : WalletProgram β) (store : WalletStore) : Prop :=
  Program.Meets (Pool.Answers (WalletCall.exec task) fun _ _ => True)
    (KeepsWallets handler requests) post program store

theorem meets_walletExcept {α β : Type} {value : Except WalletApiError α}
    {next : α → WalletProgram β} {post : β → WalletStore → Prop} {store : WalletStore}
    (h : ∀ result, value = .ok result →
      MeetsWallets handler requests task post (next result) store) :
    MeetsWallets handler requests task post (WalletProgram.ofExcept value >>= next) store := by
  cases value with
  | ok value => exact h value rfl
  | error error => exact meets_fail error store

theorem meets_challengeAnswer {α : Type} {answer : Except ChallengeError α}
    {post : α → WalletStore → Prop} {store : WalletStore}
    (h : ∀ result, answer = .ok result → ∀ later,
      KeepsWallets handler requests store later → post result later) :
    MeetsWallets handler requests task post
      (WalletProgram.checked (answer.mapError .challenge)) store := by
  cases answer with
  | ok result => exact meets_ok (h result rfl)
  | error error => exact meets_fail _ store

theorem meets_walletClock (store : WalletStore) :
    MeetsWallets handler requests task (fun _ _ => True) WalletProgram.clock store := by
  rintro later - answer after ⟨-, outcome, hexec⟩
  cases outcome with
  | answered now =>
      cases hexec
      exact ⟨refl_of (KeepsWallets handler requests) later, meets_ok fun _ _ => trivial⟩
  | expired | failed message | lost message now => cases hexec

theorem meets_putWallet {challengeId : String} {challenge : WalletChallenge}
    (hopens : handler.Opens requests task challengeId challenge) (store : WalletStore) :
    MeetsWallets handler requests task (fun _ _ => True)
      (WalletProgram.putChallenge challengeId challenge) store := by
  rintro later - answer after ⟨-, outcome, hexec⟩
  cases hexec
  refine ⟨keepsWallets_of_challenges (SingleUse.Store.keeps_putJson hopens outcome), ?_⟩
  exact meets_challengeAnswer fun _ _ _ _ => trivial

theorem meets_consumeWallet (challengeId : String) (store : WalletStore) :
    MeetsWallets handler requests task
      (fun found last => ∀ challenge, found = some challenge →
        ∃ origin, .taken task origin challengeId challenge ∈ last.challenges.journal)
      (WalletProgram.consumeChallenge challengeId) store := by
  rintro later - answer after ⟨-, outcome, hexec⟩
  cases hexec
  refine ⟨keepsWallets_of_challenges
    (SingleUse.Store.keeps_consumeJson task challengeId outcome), ?_⟩
  refine meets_challengeAnswer fun found hanswer last hlast challenge hfound => ?_
  subst hfound
  obtain ⟨origin, htaken⟩ := SingleUse.Store.taken_consumeJson hanswer
  exact ⟨origin, hlast.challenges.journal.subset htaken⟩

/-! The pipeline of a proof that was accepted. -/

section
variable {sent : WalletRequest Message} {siwx : SiwxLibrary Message}
  {request : WalletVerifyRequest} {ask : AuthenticationResult → LinkRequest}
  {challenge : WalletChallenge} {authentication : AuthenticationResult}

theorem WalletRequest.Sends.identity (hsends : sent.Sends siwx request ask)
    (authentication : AuthenticationResult) :
    (ask authentication).identity = authentication.externalIdentity := by
  cases hsends with
  | verify siwx host request random | link siwx principalId request => rfl

/-- How the calls of the pipeline are answered to a task that completed its challenge. -/
abbrev WalletPipelineStep (handler : WalletHandler) (task : Nat) (siwx : SiwxLibrary Message)
    (request : WalletVerifyRequest) (challenge : WalletChallenge)
    (authentication : AuthenticationResult) (call : PipelineCall) (store : WalletStore)
    (answer : call.Answer) (after : WalletStore) : Prop :=
  handler.Completes store task siwx request challenge authentication ∧
    ∃ answered, answered = answer ∧ Pool.Answers (WalletCall.exec task) (fun _ _ => True)
      (.pipeline call) store answered after

theorem exec_inWallet {call : IdentityCall} {outcome : CallOutcome} {store after : WalletStore}
    {answer : call.Answer}
    (h : WalletCall.exec task (.pipeline (.identity call)) outcome store = some (answer, after)) :
    (∃ outcome, call.exec outcome store.iam = some (answer, after.iam)) ∧
      after = { store with iam := after.iam } := by
  obtain ⟨stored, -, h⟩ := Option.bind_eq_some_iff.mp h
  obtain ⟨⟨answered, iam⟩, hcall, h⟩ := Option.map_eq_some_iff.mp h
  cases h
  exact ⟨⟨stored, hcall⟩, rfl⟩

/-- The pipeline binds nothing else than the accepted proof asks for. -/
theorem wallet_pipelineTables (hsent : requests task = some sent)
    (hsends : sent.Sends siwx request ask) (policy : AccountLinkingProperties) :
    PipelineTables WalletStore.iam
      (WalletPipelineStep handler task siwx request challenge authentication)
      (KeepsWallets handler requests) policy (ask authentication) where
  now := by
    rintro store now after ⟨-, _, rfl, -, outcome, hexec⟩
    cases outcome with
    | answered now =>
        cases hexec
        rfl
    | expired | failed message | lost message now => cases hexec
  holds :=
    { answers := by
        rintro call store answer after ⟨_, rfl, -, _, rfl, -, outcome, hexec⟩
        exact (exec_inWallet hexec).1
      bound := fun _ _ hlater => hlater.kept
      unchanged := by
        rintro call store answer after ⟨_, rfl, -, _, rfl, -, outcome, hexec⟩ hsame
        have hafter := (exec_inWallet hexec).2
        rw [hsame] at hafter
        rw [hafter]
        exact refl_of (KeepsWallets handler requests) store
      written := by
        rintro call store answer after hwrites ⟨_, rfl, hcompletes, _, rfl, -, outcome, hexec⟩
        obtain ⟨⟨stored, hcall⟩, hafter⟩ := exec_inWallet hexec
        obtain hsame | ⟨hidentities, -⟩ := hwrites.exec hcall
        · rw [hsame] at hafter
          rw [hafter]
          exact refl_of (KeepsWallets handler requests) store
        · have hchallenges : after.challenges = store.challenges := by rw [hafter]
          refine ⟨hchallenges ▸ .rfl,
            fun key row hrow => Table.find_of_insert hidentities hrow, ?_⟩
          intro row hrow
          obtain hold | rfl := (Table.mem_insert hidentities).mp hrow
          · exact .inl hold
          · refine .inr ⟨task, sent, siwx, request, ask, challenge, authentication, hsent, hsends,
              hcompletes.later (by rw [hchallenges]), ?_, rfl⟩
            rw [hsends.identity]
            rfl }

/-! Endpoints. -/

theorem meets_verifyChallenge (request : WalletVerifyRequest) (store : WalletStore) :
    MeetsWallets handler requests task
      (fun authentication last => ∃ challenge,
        handler.Completes last task siwx request challenge authentication)
      (handler.verifyChallenge siwx request) store := by
  refine (meets_consumeWallet request.challengeId store).bind fun found store hfound => ?_
  cases found with
  | none => exact meets_fail _ store
  | some challenge =>
      obtain ⟨origin, htaken⟩ := hfound challenge rfl
      refine ((meets_walletClock store).preserves
        (p := fun last => .taken task origin request.challengeId challenge ∈
          last.challenges.journal)
        (fun _ _ hlater hmem => hlater.challenges.journal.subset hmem) htaken).bind ?_
      intro now store htaken
      cases hverified : handler.provider.verify siwx now challenge request.challengeId
          request.signature request.verificationMethod with
      | error error => exact meets_fail _ store
      | ok authentication =>
          refine meets_ok fun last hlast => ⟨challenge, ⟨origin, ?_⟩, verify_proved hverified⟩
          exact hlast.challenges.journal.subset htaken

theorem meets_challenge {accountId nonce : String} {bytes : List UInt8}
    (hrequest : requests task = some (.challenge siwx accountId nonce bytes))
    (store : WalletStore) :
    MeetsWallets handler requests task (fun _ _ => True)
      (handler.challenge siwx accountId nonce bytes) store := by
  refine (meets_walletClock store).bind fun now store _ => ?_
  refine meets_walletExcept fun prepared hprepared => ?_
  have hprepared := Result.mapError_ok.mp hprepared
  obtain ⟨account, hparse, -⟩ := Result.bind_ok_iff.mp hprepared
  have haccount : prepared.state.accountId = accountId := by
    rw [(prepareChallenge_ok hparse hprepared).2.2, canonical_parse hparse]
  have hopens : handler.Opens requests task (Base64Url.encode bytes) prepared.state := by
    refine ⟨siwx, nonce, bytes, now, prepared, ?_, rfl, ?_, rfl⟩
    · rw [haccount, hrequest]
    · rw [haccount, hprepared]
  exact (meets_putWallet hopens store).bind fun _ _ _ => meets_ok fun _ _ => trivial

variable [Wire] [Keys]

/-- What a token that was issued for a proof rests on: it is for the principal the account is
bound to, and names how the proof was verified. -/
def WalletHandler.Concludes (handler : WalletHandler) (store : WalletStore) (task : Nat)
    (siwx : SiwxLibrary Message) (request : WalletVerifyRequest) (issued : IssuedAuthentication) :
    Prop :=
  ∃ challenge authentication, handler.Completes store task siwx request challenge authentication ∧
    BoundTo store.iam ⟨"wallet", "caip-122", challenge.accountId⟩ issued.principal.principalId ∧
    issued.principal.amr = authentication.amr

omit [Wire] [Keys] in
theorem WalletHandler.Completes.concludes {store last : WalletStore}
    (hcompletes : handler.Completes store task siwx request challenge authentication)
    {issued : IssuedAuthentication}
    (hbound : BoundTo store.iam authentication.externalIdentity.bindingKey
      issued.principal.principalId)
    (hmethods : issued.principal.amr = authentication.amr)
    (hlast : KeepsWallets handler requests store last) :
    handler.Concludes last task siwx request issued := by
  refine ⟨challenge, authentication, hcompletes.later hlast.challenges.journal, ?_, hmethods⟩
  obtain ⟨row, hrow, hid⟩ := hbound
  obtain ⟨_, _, _, -, -, -, hidentity, -⟩ := hcompletes.proved
  rw [ExternalIdentity.bindingKey, hidentity] at hrow
  exact ⟨row, hlast.kept _ row hrow, hid⟩

theorem within_link (pipeline : AuthenticationPipeline) (principalId : String)
    (authentication : AuthenticationResult) :
    (pipeline.link principalId authentication).Within (fun _ => True)
      fun issued => issued.principal.amr = authentication.amr := by
  have hlinked : (pipeline.linking.linkIdentity principalId authentication).Within
      (fun _ => True) fun context => context.amr = authentication.amr := by
    refine (within_true _).bind fun key _ => (within_true _).bind fun allowed _ => ?_
    split
    · exact (within_true _).bind fun principal _ => within_loginContext principal authentication
    · trivial
  refine (hlinked.lift fun _ h => h).bind fun context hcontext => ⟨trivial, fun now => ?_⟩
  have hproject : (projectAuthorizationContext context authentication).amr =
      authentication.amr := hcontext
  exact within_issueAt pipeline hproject now

theorem meets_link {caller : Except TokenError String}
    (hrequest : requests task = some (.link siwx caller request)) (store : WalletStore) :
    MeetsWallets handler requests task
      (fun reply last => ∃ response, reply = .issued response ∧
        handler.Concludes last task siwx request response.issued ∧
        caller = .ok response.issued.principal.principalId)
      (handler.link siwx caller request) store := by
  refine meets_walletExcept fun principalId hcaller => ?_
  obtain rfl := Result.mapError_ok.mp (Result.mapError_ok.mp hcaller)
  refine (meets_verifyChallenge request store).bind ?_
  rintro authentication store ⟨challenge, hcompletes⟩
  have hlinked : MeetsWallets handler requests task
      (fun issued last => issued.principal.principalId = principalId ∧
        BoundTo last.iam authentication.externalIdentity.bindingKey principalId)
      (handler.pipeline.link principalId authentication).inWallet store :=
    Meets.lift (Meets.assuming ((wallet_pipelineTables hrequest
      (.link siwx principalId request) _).meets_link store)
      (fun _ _ hlater h => h.later hlater.challenges.journal) hcompletes)
  have hwithin : (handler.pipeline.link principalId authentication).inWallet.Within
      (fun _ => True) fun issued => issued.principal.amr = authentication.amr :=
    (within_link handler.pipeline principalId authentication).lift fun _ _ => trivial
  refine ((hlinked.within hwithin).frame
    (p := fun last => handler.Completes last task siwx request challenge authentication)
    (fun _ _ hlater h => h.later hlater.challenges.journal) hcompletes).bind ?_
  rintro issued store ⟨⟨⟨rfl, hbound⟩, hmethods⟩, hcompletes⟩
  exact meets_ok fun last hlast =>
    ⟨⟨issued, ""⟩, rfl, hcompletes.concludes hbound hmethods hlast, rfl⟩

variable [UrlParts]

theorem meets_verify {host : Option String} {random : List UInt8}
    (hrequest : requests task = some (.verify siwx host request random)) (store : WalletStore) :
    MeetsWallets handler requests task
      (fun reply last => ∃ response, reply = .issued response ∧
        handler.Concludes last task siwx request response.issued)
      (handler.verify siwx host request random) store := by
  refine meets_walletExcept fun returnTo _ => ?_
  refine (meets_verifyChallenge request store).bind ?_
  rintro authentication store ⟨challenge, hcompletes⟩
  have hlogin : MeetsWallets handler requests task
      (fun issued last => BoundTo last.iam authentication.externalIdentity.bindingKey
        issued.principal.principalId)
      (handler.pipeline.login authentication .user random).inWallet store :=
    Meets.lift (Meets.assuming ((wallet_pipelineTables hrequest
      (.verify siwx host request random) _).meets_login store)
      (fun _ _ hlater h => h.later hlater.challenges.journal) hcompletes)
  have hwithin : (handler.pipeline.login authentication .user random).inWallet.Within
      (fun _ => True) fun issued => issued.principal.amr = authentication.amr :=
    (within_login handler.pipeline authentication .user random).lift fun _ _ => trivial
  refine ((hlogin.within hwithin).frame
    (p := fun last => handler.Completes last task siwx request challenge authentication)
    (fun _ _ hlater h => h.later hlater.challenges.journal) hcompletes).bind ?_
  rintro issued store ⟨⟨hbound, hmethods⟩, hcompletes⟩
  exact meets_ok fun last hlast =>
    ⟨⟨issued, returnTo⟩, rfl, hcompletes.concludes hbound hmethods hlast⟩

/-- What the reply to a request rests on. -/
def WalletHandler.Answers (handler : WalletHandler) (task : Nat) :
    WalletRequest Message → WalletReply → WalletStore → Prop
  | .challenge _ _ _ _, _, _ => True
  | .verify siwx _ request _, reply, store =>
      ∃ response, reply = .issued response ∧
        handler.Concludes store task siwx request response.issued
  | .link siwx caller request, reply, store =>
      ∃ response, reply = .issued response ∧
        handler.Concludes store task siwx request response.issued ∧
        caller = .ok response.issued.principal.principalId

theorem serve_meetsWallets (hrequest : requests task = some sent) (store : WalletStore) :
    MeetsWallets handler requests task (handler.Answers task sent) (handler.serve sent) store := by
  cases sent with
  | challenge siwx accountId nonce bytes => exact meets_challenge hrequest store
  | verify siwx host request random => exact meets_verify hrequest store
  | link siwx caller request => exact meets_link hrequest store

end

end

/-! Runs. -/

/-- Before any challenge. -/
def WalletStore.begin (iam : IamDatabase) : WalletStore := ⟨iam, .empty⟩

/-- What holds of wallets where a run ends. -/
structure WalletLogins {Message : Type} (handler : WalletHandler) (iam : IamDatabase)
    (final : WalletPool Message) : Prop where
  answered : ∀ (task : Nat) (sent : WalletRequest Message) (reply : WalletReply),
    final.tasks[task]? = some (sent, .ok reply) → handler.Answers task sent reply final.store
  /-- A challenge that was taken was prepared before it, for its account. -/
  opened : ∀ (j task origin : Nat) (challengeId : String) (challenge : WalletChallenge),
    final.store.challenges.journal[j]? =
      some (SingleUse.Record.taken task origin challengeId challenge) →
    origin < j ∧ ∃ creator,
      final.store.challenges.journal[origin]? =
        some (SingleUse.Record.put creator challengeId challenge) ∧
      handler.Opens final.requestOf creator challengeId challenge
  once : ∀ (j j' task task' origin : Nat) (challengeId challengeId' : String)
    (challenge challenge' : WalletChallenge),
    final.store.challenges.journal[j]? =
      some (SingleUse.Record.taken task origin challengeId challenge) →
    final.store.challenges.journal[j']? =
      some (SingleUse.Record.taken task' origin challengeId' challenge') → j = j'
  bound : ∀ row ∈ final.store.iam.identities.rows, row ∉ iam.identities.rows →
    handler.Bound final.requestOf final.store row

theorem wallet_logins [UrlParts] [Wire] [Keys] {Message : Type} (handler : WalletHandler)
    {iam : IamDatabase} {events : List (WalletEvent Message)} {final : WalletPool Message}
    (hrun : Runs.run handler.walletStep (Pool.idle (.begin iam)) events = some final) :
    WalletLogins handler iam final := by
  have hserve : ∀ task sent, final.requestOf task = some sent → ∀ store,
      MeetsWallets handler final.requestOf task (handler.Answers task sent) (handler.serve sent)
        store :=
    fun _ _ hsent store => serve_meetsWallets hsent store
  obtain ⟨hkeeps, hmeets⟩ := Pool.run_meets_of_requests (fun _ _ => trivial) hserve
    (Pool.meets_idle (WalletStore.begin iam)) hrun
  have hsound := hkeeps.challenges.sound SingleUse.Store.sound_empty
  constructor
  · exact fun task sent reply htask => Pool.returned_meets hmeets htask
  · intro j task origin challengeId challenge hj
    obtain ⟨hlt, creator, hput⟩ := hsound.taken j task origin challengeId challenge hj
    exact ⟨hlt, creator, hput,
      hsound.put creator challengeId challenge (List.mem_of_getElem? hput)⟩
  · exact hsound.once
  · intro row hrow hnew
    exact (hkeeps.bound row hrow).resolve_left hnew

/-! One wallet: two requests with the same proof, of which one is a login. -/

namespace Wallet

def handler : WalletHandler where
  provider
  applications := .empty
  pipeline :=
    ⟨⟨⟨.firstLogin, [], .empty⟩⟩,
      ⟨⟨"https://authguard.example", "workloads", Duration.fromSecs 300⟩, some ⟨"login"⟩⟩⟩

def proof : WalletVerifyRequest := ⟨"AQ", "proof", .auto, ""⟩

def events : List (WalletEvent String) := List.flatten
  [[.start (.challenge siwx (accountId small) "nonce" [1])],
    List.replicate 2 (.resume 0 (.answered 10)),
    [.start (.verify siwx none proof [2]), .start (.verify siwx none proof [3]),
      .resume 1 (.answered 20), .resume 2 (.answered 20)],
    List.replicate 4 (.resume 1 (.answered 20))]

abbrev run : Option (WalletPool String) :=
  Runs.run (@WalletHandler.walletStep ReturnLink.parts (Documents.wire []) Archive.unsigned handler
    String) (Pool.idle (.begin .empty)) events

theorem logged_in : ∃ final, run = some final ∧ final.tasks.all (·.2.isDone) ∧
    WalletLogins handler .empty final := by
  have hrun : run.any (fun final => final.tasks.all (·.2.isDone)) = true := by decide +kernel
  obtain ⟨final, hfinal, hdone⟩ := (Option.any_eq_true _ _).mp hrun
  exact ⟨final, hfinal, hdone, @wallet_logins ReturnLink.parts (Documents.wire [])
    Archive.unsigned String handler .empty events final hfinal⟩

end Wallet

end Authguard
