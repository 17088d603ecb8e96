import Authguard.Library.History
import Authguard.Metatheory.SecondFactor

/-!
When a password alone is enough although a second factor is enrolled. A login or
an enrollment decides by the TOTP credentials it lists, and a challenge keeps that
decision until it is redeemed. Where no credential is stored between the listing
and the use, a code was accepted for a credential that was already there.
-/

namespace Authguard
open Program

abbrev StandaloneMoment :=
  Moment StandaloneCall StandaloneCall.Answer ApiError StandaloneReply StandaloneStore

/-! What a request has heard when it makes a call. -/

section
variable {heard later : StandaloneTrace} {identity : ExternalIdentity}

/-- The password was verified, and a code where TOTP credentials were listed. -/
def PasswordPassed (heard : StandaloneTrace) (identity : ExternalIdentity) : Prop :=
  ∃ issuer login found listed, ⟨.findByKey issuer .password login, .ok (some found)⟩ ∈ heard ∧
    found.externalIdentity = identity ∧
    ⟨.listByIdentity found.credential.identity .totp, .ok listed⟩ ∈ heard ∧
    (listed ≠ [] → ∃ credential ∈ listed, ∃ counter,
      ⟨.advanceTotpCounter credential.id counter, .ok true⟩ ∈ heard)

def ChallengeTaken (heard : StandaloneTrace) (identity : ExternalIdentity) : Prop :=
  ∃ challengeId challenge, ⟨.consumeChallenge challengeId, .ok (some challenge)⟩ ∈ heard ∧
    challenge.externalIdentity = identity

theorem PasswordPassed.mono (h : PasswordPassed heard identity) (hlater : heard ⊆ later) :
    PasswordPassed later identity := by
  obtain ⟨issuer, login, found, listed, hfound, hidentity, hlisted, hcode⟩ := h
  refine ⟨issuer, login, found, listed, hlater hfound, hidentity, hlater hlisted, ?_⟩
  intro hne
  obtain ⟨credential, hcredential, counter, haccepted⟩ := hcode hne
  exact ⟨credential, hcredential, counter, hlater haccepted⟩

theorem ChallengeTaken.mono (h : ChallengeTaken heard identity) (hlater : heard ⊆ later) :
    ChallengeTaken later identity := by
  obtain ⟨challengeId, challenge, htaken, hidentity⟩ := h
  exact ⟨challengeId, challenge, hlater htaken, hidentity⟩

/-- What a call of the endpoints relies on. -/
def Needs (heard : StandaloneTrace) : StandaloneCall → Prop
  | .createCredential credential => ∃ identity, ChallengeTaken heard identity ∧
      identity.key = .ok credential.identity
  | .putChallenge _ challenge => PasswordPassed heard challenge.externalIdentity
  | .pipeline (.identity (.findPrincipalByIdentity key)) => ∃ identity : ExternalIdentity,
      identity.key = .ok key ∧ (PasswordPassed heard identity ∨ ChallengeTaken heard identity)
  | _ => True

/-- The program makes no call without what it relies on; nothing heard is forgotten. -/
abbrev Hears {β : Type} (heard : StandaloneTrace) (program : StandaloneProgram β)
    (post : StandaloneTrace → β → Prop) : Prop :=
  program.Tracks Needs (fun later result => heard ⊆ later ∧ post later result) heard

theorem Hears.bind {β γ : Type} {program : StandaloneProgram β} {next : β → StandaloneProgram γ}
    {post : StandaloneTrace → β → Prop} {post' : StandaloneTrace → γ → Prop}
    (h : Hears heard program post)
    (hnext : ∀ later result, heard ⊆ later → post later result →
      Hears later (next result) post') : Hears heard (program >>= next) post' := by
  refine Tracks.bind h ?_
  rintro later result ⟨hlater, hpost⟩
  refine (hnext later result hlater hpost).imp ?_
  rintro last value ⟨hlast, hpost'⟩
  exact ⟨List.Subset.trans hlater hlast, hpost'⟩

theorem hears_ok {β : Type} {result : β} {post : StandaloneTrace → β → Prop}
    (h : post heard result) : Hears heard (.ok result) post :=
  ⟨List.Subset.refl heard, h⟩

theorem hears_call {α : Type} (call : StandaloneCall) (hcall : Needs heard call)
    {post : StandaloneTrace → α → Prop} {read : call.Answer → StandaloneProgram α}
    (hread : ∀ answer later, heard ⊆ later → ⟨call, answer⟩ ∈ later →
      Hears later (read answer) post) : Hears heard (.call call read) post := by
  refine ⟨hcall, fun answer => ?_⟩
  have hlater : heard ⊆ heard ++ [⟨call, answer⟩] := List.subset_append_left _ _
  refine (hread answer _ hlater (by simp)).imp ?_
  rintro last result ⟨hlast, hpost⟩
  exact ⟨List.Subset.trans hlater hlast, hpost⟩

theorem hears_within {β : Type} {c : StandaloneCall → Prop} {d : β → Prop}
    {program : StandaloneProgram β} (h : program.Within c d)
    (hcalls : ∀ later call, heard ⊆ later → c call → Needs later call) :
    Hears heard program fun _ result => d result := by
  refine (Within.tracks (fun later => heard ⊆ later) h hcalls ?_
    (List.Subset.refl heard))
  intro later entry hlater
  exact List.Subset.trans hlater (List.subset_append_left _ _)

theorem hears_ofOption {α : Type} (error : ApiError) (value : Option α) :
    Hears heard (StandaloneProgram.ofOption error value) fun _ result => value = some result := by
  cases value with
  | none => trivial
  | some value => exact hears_ok rfl

theorem hears_clock : Hears heard StandaloneProgram.clock fun _ _ => True :=
  hears_call .clock trivial fun _ _ _ _ => hears_ok trivial

theorem hears_findByKey (issuer : String) (kind : StandaloneCredentialKind)
    (credentialKey : String) :
    Hears heard (StandaloneProgram.findByKey issuer kind credentialKey) fun later found =>
      ⟨.findByKey issuer kind credentialKey, .ok found⟩ ∈ later := by
  refine hears_call (.findByKey issuer kind credentialKey) trivial
    fun answer later _ hmem => ?_
  cases answer with
  | error error => trivial
  | ok found => exact hears_ok hmem

theorem hears_listByIdentity (key : ExternalIdentityKey) (kind : StandaloneCredentialKind) :
    Hears heard (StandaloneProgram.listByIdentity key kind) fun later listed =>
      ⟨.listByIdentity key kind, .ok listed⟩ ∈ later := by
  refine hears_call (.listByIdentity key kind) trivial
    fun answer later _ hmem => ?_
  cases answer with
  | error error => trivial
  | ok listed => exact hears_ok hmem

theorem hears_advanceTotpCounter (credentialId : String) (counter : Nat) :
    Hears heard (StandaloneProgram.advanceTotpCounter credentialId counter) fun later advanced =>
      ⟨.advanceTotpCounter credentialId counter, .ok advanced⟩ ∈ later := by
  refine hears_call (.advanceTotpCounter credentialId counter) trivial
    fun answer later _ hmem => ?_
  cases answer with
  | error error => trivial
  | ok advanced => exact hears_ok hmem

theorem hears_consumeChallenge (challengeId : String) :
    Hears heard (StandaloneProgram.consumeChallenge challengeId) fun later challenge =>
      ⟨.consumeChallenge challengeId, .ok challenge⟩ ∈ later := by
  refine hears_call (.consumeChallenge challengeId) trivial
    fun answer later _ hmem => ?_
  cases answer with
  | error error => trivial
  | ok challenge => exact hears_ok hmem

theorem hears_putChallenge {challengeId : String} {challenge : TotpEnrollmentChallenge}
    (h : PasswordPassed heard challenge.externalIdentity) :
    Hears heard (StandaloneProgram.putChallenge challengeId challenge) fun _ _ => True := by
  refine hears_call (.putChallenge challengeId challenge) h fun answer later _ _ => ?_
  cases answer with
  | error error => trivial
  | ok value => exact hears_ok trivial

theorem hears_createCredential {credential : IamStandaloneCredential}
    (h : Needs heard (.createCredential credential)) :
    Hears heard (StandaloneProgram.createCredential credential) fun _ _ => True := by
  refine hears_call (.createCredential credential) h fun answer later _ _ => ?_
  cases answer with
  | error error => trivial
  | ok value => exact hears_ok trivial

theorem hears_challengeStore (handler : StandaloneHandler) :
    Hears heard handler.challengeStore fun _ _ => True := by
  rw [StandaloneHandler.challengeStore]
  split
  · exact hears_ok trivial
  · trivial

section
variable [StandaloneCrypto]

theorem hears_verifyCredentials (subject code : String)
    (credentials : List IamStandaloneCredential) :
    Hears heard (StandaloneHandler.verifyCredentials subject code credentials)
      fun later verified => verified = true → ∃ credential ∈ credentials, ∃ counter,
        ⟨.advanceTotpCounter credential.id counter, .ok true⟩ ∈ later := by
  induction credentials generalizing heard with
  | nil => exact hears_ok fun h => nomatch h
  | cons credential credentials ih =>
      have hrest : ∀ heard, Hears heard
          (StandaloneHandler.verifyCredentials subject code credentials)
          fun later verified => verified = true → ∃ known ∈ credential :: credentials,
            ∃ counter, ⟨.advanceTotpCounter known.id counter, .ok true⟩ ∈ later := by
        intro heard
        refine (@ih heard).imp ?_
        rintro later verified ⟨hlater, hverified⟩
        refine ⟨hlater, fun htrue => ?_⟩
        obtain ⟨known, hknown, haccepted⟩ := hverified htrue
        exact ⟨known, List.mem_cons_of_mem _ hknown, haccepted⟩
      rw [StandaloneHandler.verifyCredentials]
      split
      · exact hrest heard
      · refine (hears_ofOption _ _).bind fun later secret _ _ => ?_
        refine hears_clock.bind fun later now _ _ => ?_
        refine (hears_ofOption _ _).bind fun later counter _ _ => ?_
        cases counter with
        | none => exact hrest later
        | some counter =>
            refine (hears_advanceTotpCounter credential.id counter).imp ?_
            rintro last advanced ⟨hlast, hmem⟩
            refine ⟨hlast, ?_⟩
            rintro rfl
            exact ⟨credential, List.mem_cons_self, counter, hmem⟩

variable (handler : StandaloneHandler)

theorem hears_secondFactor (found : StandaloneCredentialIdentity)
    (listed : List IamStandaloneCredential) (totp : Option String) :
    Hears heard (handler.secondFactor found listed totp) fun later _ =>
      listed ≠ [] → ∃ credential ∈ listed, ∃ counter,
        ⟨.advanceTotpCounter credential.id counter, .ok true⟩ ∈ later := by
  rw [StandaloneHandler.secondFactor]
  split
  · rename_i hempty
    exact hears_ok fun hne => absurd (List.isEmpty_iff.mp hempty) hne
  · refine (hears_ofOption _ _).bind fun later code _ _ => ?_
    have hverify : Hears later (handler.verifyTotp found listed code)
        fun last verified => verified = true → ∃ credential ∈ listed, ∃ counter,
          ⟨.advanceTotpCounter credential.id counter, .ok true⟩ ∈ last := by
      rw [StandaloneHandler.verifyTotp]
      split
      · exact hears_verifyCredentials _ code listed
      · trivial
    refine hverify.bind fun last verified _ hverified => ?_
    cases verified with
    | false => trivial
    | true => exact hears_ok fun _ => hverified rfl

theorem hears_authenticateCredentials (request : LoginRequest) :
    Hears heard (handler.authenticateCredentials request) fun later authentication =>
      PasswordPassed later authentication.externalIdentity := by
  have hlogin : Hears heard (normalizeLogin request.login) fun _ _ => True := by
    rw [normalizeLogin]
    split
    · trivial
    · exact hears_ok trivial
  rw [StandaloneHandler.authenticateCredentials]
  refine hlogin.bind fun named login _ _ => ?_
  refine (hears_findByKey _ _ _).bind fun looked found hlooked hfound => ?_
  dsimp only
  split
  · refine (hears_ofOption _ _).bind fun given known hgiven hknown => ?_
    subst hknown
    refine (hears_listByIdentity _ _).bind fun counted listed hcounted hlisted => ?_
    refine (hears_secondFactor handler known listed request.totp).bind
      fun verified amr hverified hcode => ?_
    refine hears_clock.bind fun last now hlast _ => hears_ok ?_
    refine ⟨handler.issuer, login, known, listed, ?_, rfl, ?_, ?_⟩
    · exact hlast (hverified (hcounted (hgiven hfound)))
    · exact hlast (hverified hlisted)
    · intro hne
      obtain ⟨credential, hcredential, counter, haccepted⟩ := hcode hne
      exact ⟨credential, hcredential, counter, hlast haccepted⟩
  · trivial

end

theorem hears_verifyEnrollment [StandaloneCrypto] (handler : StandaloneHandler)
    (challengeId code : String) :
    Hears heard (handler.verifyEnrollment challengeId code) fun later verified =>
      ChallengeTaken later verified.1.externalIdentity := by
  rw [StandaloneHandler.verifyEnrollment]
  refine (hears_challengeStore handler).bind fun later _ _ _ => ?_
  refine (hears_consumeChallenge challengeId).bind fun taken challenge htaken hmem => ?_
  refine (hears_ofOption _ _).bind fun known challenge hknown hsome => ?_
  subst hsome
  have hchallenge : ChallengeTaken known challenge.externalIdentity :=
    ⟨challengeId, challenge, hknown hmem, rfl⟩
  refine (hears_ofOption _ _).bind fun opened secret hopened _ => ?_
  refine hears_clock.bind fun timed now htimed _ => ?_
  refine (hears_ofOption _ _).bind fun checked counter hchecked _ => ?_
  refine (hears_ofOption _ _).bind fun last counter hlast _ => hears_ok ?_
  exact (((hchallenge.mono hopened).mono htimed).mono hchecked).mono hlast

/-! The pipeline. -/

/-- Principals are looked up by the key of the identity. -/
def LooksUp (identity : ExternalIdentity) : IdentityCall → Prop
  | .findPrincipalByIdentity key => identity.key = .ok key
  | _ => True

theorem within_resolveLogin_looksUp (service : AccountLinkingService)
    (authentication : AuthenticationResult) (kind : PrincipalKind) (random : List UInt8) :
    (service.resolveLogin authentication kind random).Within
      (LooksUp authentication.externalIdentity) fun _ => True := by
  have hcontext : ∀ principal, (loginContext principal authentication).Within
      (LooksUp authentication.externalIdentity) fun _ => True := by
    intro principal
    rw [loginContext]
    split
    · trivial
    · trivial
  have hanswered : ∀ {α : Type} (answer : Except IdentityRepositoryError α),
      (LinkProgram.answered answer).Within (LooksUp authentication.externalIdentity)
        fun _ => True := by
    intro α answer
    cases answer with
    | error error => trivial
    | ok value => trivial
  have hkey : authentication.externalIdentity.validKey.Within
      (LooksUp authentication.externalIdentity)
      fun key => authentication.externalIdentity.key = .ok key := by
    rw [ExternalIdentity.validKey]
    split
    · assumption
    · trivial
  rw [AccountLinkingService.resolveLogin]
  refine hkey.bind fun key hkey => Within.bind ⟨hkey, hanswered⟩ fun found _ => ?_
  cases found with
  | some principal => exact hcontext principal
  | none =>
      dsimp only
      split
      · exact Within.bind ⟨trivial, hanswered⟩ fun principal _ => hcontext principal
      · trivial

/-- In the words of the pipeline, and of the endpoints. -/
def PipelineLooksUp (identity : ExternalIdentity) : PipelineCall → Prop
  | .identity inner => LooksUp identity inner
  | .now => True

def StandaloneLooksUp (identity : ExternalIdentity) : StandaloneCall → Prop
  | .pipeline inner => PipelineLooksUp identity inner
  | _ => False

theorem needs_looksUp
    (hpassed : PasswordPassed heard identity ∨ ChallengeTaken heard identity)
    (later : StandaloneTrace) (call : StandaloneCall) (hlater : heard ⊆ later)
    (hcall : StandaloneLooksUp identity call) : Needs later call := by
  have hpassed' : PasswordPassed later identity ∨ ChallengeTaken later identity :=
    hpassed.imp (fun h => h.mono hlater) fun h => h.mono hlater
  cases call with
  | pipeline call =>
      cases call with
      | now => trivial
      | identity call =>
          cases call with
          | findPrincipalByIdentity key => exact ⟨identity, hcall, hpassed'⟩
          | createPrincipalAndBind principal identity => trivial
          | bindIdentity principalId identity => trivial
          | principalHasProvider principalId provider => trivial
  | findByKey issuer kind credentialKey => trivial
  | listByIdentity identity kind => trivial
  | createCredential credential => cases hcall
  | advanceTotpCounter credentialId counter => trivial
  | putChallenge challengeId challenge => cases hcall
  | consumeChallenge challengeId => trivial
  | clock => trivial

theorem within_inPipeline (pipeline : AuthenticationPipeline)
    (authentication : AuthenticationResult) (kind : PrincipalKind) (random : List UInt8) :
    (pipeline.linking.resolveLogin authentication kind random).inPipeline.Within
      (PipelineLooksUp authentication.externalIdentity) fun _ => True :=
  (within_resolveLogin_looksUp pipeline.linking authentication kind random).lift fun _ h => h

theorem hears_pipelineLogin [Wire] [Keys] (pipeline : AuthenticationPipeline)
    (authentication : AuthenticationResult) (kind : PrincipalKind) (random : List UInt8)
    (hpassed : PasswordPassed heard authentication.externalIdentity ∨
      ChallengeTaken heard authentication.externalIdentity) :
    Hears heard (pipeline.login authentication kind random).converge fun _ _ => True := by
  have hissued : ∀ principal now, (pipeline.issueAt authentication principal now).Within
      (PipelineLooksUp authentication.externalIdentity) fun _ => True := by
    intro principal now
    rw [AuthenticationPipeline.issueAt]
    split
    · trivial
    · trivial
  have hlogin : (pipeline.login authentication kind random).Within
      (PipelineLooksUp authentication.externalIdentity) fun _ => True :=
    (within_inPipeline pipeline authentication kind random).bind
      fun principal _ => ⟨trivial, hissued _⟩
  have hconverged : (pipeline.login authentication kind random).converge.Within
      (StandaloneLooksUp authentication.externalIdentity) fun _ => True :=
    hlogin.lift fun _ h => h
  exact hears_within hconverged (needs_looksUp hpassed)

theorem hears_verifyStepUp (pipeline : AuthenticationPipeline) (principalId : String)
    (authentication : AuthenticationResult) (kind : PrincipalKind) (random : List UInt8)
    (hpassed : PasswordPassed heard authentication.externalIdentity ∨
      ChallengeTaken heard authentication.externalIdentity) :
    Hears heard (pipeline.verifyStepUp principalId authentication kind random).converge
      fun _ _ => True := by
  have hverified : (pipeline.verifyStepUp principalId authentication kind random).Within
      (PipelineLooksUp authentication.externalIdentity) fun _ => True := by
    refine (within_inPipeline pipeline authentication kind random).bind fun principal _ => ?_
    split
    · trivial
    · trivial
  have hconverged : (pipeline.verifyStepUp principalId authentication kind random).converge.Within
      (StandaloneLooksUp authentication.externalIdentity) fun _ => True :=
    hverified.lift fun _ h => h
  exact hears_within hconverged (needs_looksUp hpassed)

/-! The endpoints. -/

theorem toOption_ok {ε α : Type} {result : Except ε α} {value : α}
    (h : result.toOption = some value) : result = .ok value := by
  cases result with
  | error error => cases h
  | ok found =>
      cases h
      rfl

variable [StandaloneCrypto] [Wire] [Keys]

theorem hears_serve (handler : StandaloneHandler) (request : StandaloneRequest) :
    Hears heard (handler.serve request) fun _ _ => True := by
  cases request with
  | login request random =>
      refine (hears_authenticateCredentials handler request).bind
        fun later authentication _ hpassed => ?_
      refine (hears_pipelineLogin handler.pipeline authentication .user random (.inl hpassed)).bind
        fun _ _ _ _ => hears_ok trivial
  | stepUp principalId request random =>
      rw [StandaloneHandler.serve, StandaloneHandler.stepUp]
      split
      · refine (hears_authenticateCredentials handler request).bind
          fun later authentication _ hpassed => ?_
        exact (hears_verifyStepUp handler.pipeline principalId authentication .user random
          (.inl hpassed)).bind fun _ _ _ _ => hears_ok trivial
      · trivial
  | enrollmentChallenge request credential secret nonce challenge =>
      rw [StandaloneHandler.serve, StandaloneHandler.totpEnrollmentChallenge]
      refine (hears_authenticateCredentials handler request).bind
        fun later authentication _ hpassed => ?_
      split
      · refine (hears_ofOption _ _).bind fun later generated hgenerated _ => ?_
        refine (hears_ofOption _ _).bind fun later encrypted hencrypted _ => ?_
        refine (hears_challengeStore handler).bind fun later _ hstore _ => ?_
        have hput := ((hpassed.mono hgenerated).mono hencrypted).mono hstore
        exact (hears_putChallenge hput).bind fun _ _ _ _ => hears_ok trivial
      · trivial
  | enrollmentVerify challengeId code random =>
      rw [StandaloneHandler.serve, StandaloneHandler.totpEnrollmentVerify]
      split
      · refine (hears_verifyEnrollment handler challengeId code).bind
          fun later verified _ htaken => ?_
        refine (hears_ofOption _ _).bind fun named key hnamed hkey => ?_
        have hneeds : Needs named (.createCredential
            (StandaloneHandler.totpCredential verified.1 key verified.2)) :=
          ⟨_, htaken.mono hnamed, toOption_ok hkey⟩
        refine (hears_createCredential hneeds).bind fun created _ hcreated _ => ?_
        refine hears_clock.bind fun last now hlast _ => ?_
        refine (hears_pipelineLogin handler.pipeline _ .user random (.inr ?_)).bind
          fun _ _ _ _ => hears_ok trivial
        exact ((htaken.mono hnamed).mono hcreated).mono hlast
      · trivial

end

/-! Stores and moments. -/

/-- The identity has a TOTP credential. -/
def HasTotp (store : StandaloneStore) (identity : ExternalIdentityKey) : Prop :=
  ∃ row ∈ store.credentials.rows, row.kind = .totp ∧ row.identity = identity ∧ row.revoked = false

/-- The call stored a TOTP credential of the identity, whatever it answered. -/
def StoresTotp (moment : StandaloneMoment) (identity : ExternalIdentityKey) : Prop :=
  ∃ credential, moment.name = .createCredential credential ∧ credential.kind = .totp ∧
    credential.identity = identity ∧ moment.after.enrolled ≠ moment.before.enrolled

/-- The call ends a request with an access token of the principal the identity is bound to. -/
def IssuesToken (past : List StandaloneMoment) (moment : StandaloneMoment)
    (identity : ExternalIdentityKey) : Prop :=
  (∃ response, moment.rest = .ok (.issued response)) ∧
    ∃ lookup ∈ past, lookup.task = moment.task ∧
      lookup.name = .pipeline (.identity (.findPrincipalByIdentity identity))

/-- The request whose verification of credentials the task acts on: its own, or the one that
issued the challenge it consumed. -/
def Authorizes (past : List StandaloneMoment) (task checker : Nat) : Prop :=
  checker = task ∨ ∃ put ∈ past, ∃ taken ∈ past, ∃ challengeId challenge,
    put.task = checker ∧ put.name = .putChallenge challengeId challenge ∧
    taken.task = task ∧ taken.entry = ⟨.consumeChallenge challengeId, .ok (some challenge)⟩

/-- The request had a code accepted for a TOTP credential of the identity that was stored when
it listed the credentials, before it checked the code. -/
def AcceptedCode (past : List StandaloneMoment) (checker : Nat) (identity : ExternalIdentityKey) :
    Prop :=
  ∃ listing ∈ past, ∃ accepted ∈ past, ∃ row counter,
    listing.task = checker ∧ listing.name = .listByIdentity identity .totp ∧
    row ∈ listing.before.credentials.rows ∧ row.kind = .totp ∧ row.identity = identity ∧
    row.revoked = false ∧ accepted.task = checker ∧
    accepted.entry = ⟨.advanceTotpCounter row.id counter, .ok true⟩

/-- Once the identity has a TOTP credential, its tokens and further TOTP credentials are
authorised by an accepted code. -/
def Guarded (past : List StandaloneMoment) (moment : StandaloneMoment) : Prop :=
  ∀ identity, HasTotp moment.before identity →
    StoresTotp moment identity ∨ IssuesToken past moment identity →
    ∃ checker, Authorizes past moment.task checker ∧ AcceptedCode past checker identity

/-- What the step acts on was decided when the identity had a TOTP credential already. -/
def Fresh (past : List StandaloneMoment) (moment : StandaloneMoment) : Prop :=
  ∀ identity, HasTotp moment.before identity →
    StoresTotp moment identity ∨ IssuesToken past moment identity →
    ∀ checker, Authorizes past moment.task checker → ∀ listing ∈ past,
      listing.task = checker → listing.name = .listByIdentity identity .totp →
        HasTotp listing.before identity

/-! The answers of the store. -/

section
variable {outcome : CallOutcome} {store after : StandaloneStore}

theorem read_ok {α : Type} {answer : Except CredentialRepositoryError α} {value : α}
    (h : store.read answer outcome = some (.ok value, after)) : answer = .ok value := by
  cases outcome with
  | answered now =>
      cases h
      rfl
  | expired => cases h
  | failed message => cases h
  | lost message now => cases h

theorem decodeCredential_id {row : CredentialRow} {credential : IamStandaloneCredential}
    (h : decodeCredential row = .ok credential) : credential.id = row.id := by
  simp only [decodeCredential] at h
  split at h
  · cases h
  · cases h
    rfl

theorem mem_listByIdentity {table : CredentialTable} {identity : ExternalIdentityKey}
    {kind : StandaloneCredentialKind} {row : CredentialRow} :
    row ∈ table.listByIdentity identity kind ↔
      row ∈ table.rows ∧ row.identity = identity ∧ row.kind = kind ∧ row.revoked = false := by
  simp [CredentialTable.listByIdentity, List.mem_insertionSort]

theorem mem_putChallenge {challengeId : String} {challenge : TotpEnrollmentChallenge}
    {entry : String × TotpEnrollmentChallenge}
    (h : entry ∈ (challengeId, challenge) :: store.challenges) :
    entry ∈ store.challenges ∨
      StandaloneCall.putChallenge challengeId challenge = .putChallenge entry.1 entry.2 := by
  obtain rfl | hold := List.mem_cons.mp h
  · exact .inr rfl
  · exact .inl hold

variable [SqlJson] {backend : Backend} {task : Nat}

/-- A credential is found with the key of its identity. -/
theorem exec_findByKey {issuer login : String} {kind : StandaloneCredentialKind}
    {found : StandaloneCredentialIdentity}
    (h : StandaloneCall.exec backend task (.findByKey issuer kind login) outcome store =
      some (.ok (some found), after)) :
    found.externalIdentity.key = .ok found.credential.identity := by
  have hfound : store.findByKey issuer kind login = .ok (some found) := read_ok h
  simp only [StandaloneStore.findByKey] at hfound
  split at hfound
  · cases hfound
  · simp only [decodeIdentityCredential] at hfound
    split at hfound
    · cases hfound
    · split at hfound
      · cases hfound
      · split at hfound
        · cases hfound
        · rename_i key hkey
          cases hfound
          exact hkey

/-- The credentials listed are those of the rows. -/
theorem exec_listByIdentity {identity : ExternalIdentityKey} {kind : StandaloneCredentialKind}
    {listed : List IamStandaloneCredential}
    (h : StandaloneCall.exec backend task (.listByIdentity identity kind) outcome store =
      some (.ok listed, after)) :
    Result.collect decodeCredential (store.credentials.listByIdentity identity kind) = .ok listed :=
  read_ok h

theorem exec_consumeChallenge {challengeId : String} {challenge : TotpEnrollmentChallenge}
    (h : StandaloneCall.exec backend task (.consumeChallenge challengeId) outcome store =
      some (.ok (some challenge), after)) : (challengeId, challenge) ∈ store.challenges := by
  cases outcome with
  | answered now =>
      have hanswer := congrArg Prod.fst (Option.some.inj h)
      have hlookup : store.challenges.lookup challengeId = some challenge := Except.ok.inj hanswer
      obtain ⟨before, rest, hrows, -⟩ := List.lookup_eq_some_iff.mp hlookup
      rw [hrows]
      simp
  | expired => cases h
  | failed message => cases h
  | lost message now => cases h

/-- Challenges come from `putChallenge` alone. -/
theorem exec_challenges {call : StandaloneCall} {answer : call.Answer}
    (h : call.exec backend task outcome store = some (answer, after)) :
    ∀ entry ∈ after.challenges,
      entry ∈ store.challenges ∨ call = .putChallenge entry.1 entry.2 := by
  intro entry hentry
  cases call with
  | pipeline call =>
      cases call with
      | identity call =>
          obtain ⟨stored, -, h⟩ := Option.bind_eq_some_iff.mp h
          obtain ⟨⟨_, iam⟩, -, h⟩ := Option.map_eq_some_iff.mp h
          cases h
          exact .inl hentry
      | now =>
          cases outcome <;> cases h
          exact .inl hentry
  | clock =>
      cases outcome <;> cases h
      exact .inl hentry
  | findByKey issuer kind credentialKey =>
      rw [read_store h] at hentry
      exact .inl hentry
  | listByIdentity identity kind =>
      rw [read_store h] at hentry
      exact .inl hentry
  | createCredential credential =>
      have hcreated : ∀ now created, store.createCredential now credential = .ok created →
          created.challenges = store.challenges := by
        intro now created hcreated
        rw [StandaloneStore.createCredential] at hcreated
        cases hrow : store.credentials.createCredential store.iam now credential with
        | error error =>
            rw [hrow] at hcreated
            cases hcreated
        | ok credentials =>
            rw [hrow] at hcreated
            cases hcreated
            rfl
      cases outcome with
      | answered now | lost message now =>
          simp only [StandaloneCall.exec] at h
          split at h
          · cases h
            exact .inl hentry
          · rename_i created hcreate
            cases h
            exact .inl (hcreated now _ hcreate ▸ hentry)
      | expired => cases h
      | failed message =>
          cases h
          exact .inl hentry
  | advanceTotpCounter credentialId counter =>
      cases outcome with
      | answered now | lost message now =>
          simp only [StandaloneCall.exec] at h
          split at h <;> cases h <;> exact .inl hentry
      | expired => cases h
      | failed message =>
          cases h
          exact .inl hentry
  | putChallenge challengeId challenge =>
      cases outcome with
      | answered now =>
          simp only [StandaloneCall.exec] at h
          split at h
          · cases h
            exact .inl hentry
          · cases h
            exact mem_putChallenge hentry
      | expired => cases h
      | failed message =>
          cases h
          exact .inl hentry
      | lost message now =>
          cases h
          exact mem_putChallenge hentry
  | consumeChallenge challengeId =>
      cases outcome with
      | answered now =>
          cases h
          exact .inl (List.mem_of_mem_filter hentry)
      | expired =>
          cases h
          exact .inl (List.mem_of_mem_filter hentry)
      | failed message =>
          cases h
          exact .inl hentry
      | lost message now =>
          cases h
          exact .inl (List.mem_of_mem_filter hentry)

end

/-! Runs. -/

/-- Every challenge that waits was put by a request. -/
def ChallengesPut (past : List StandaloneMoment) (store : StandaloneStore) : Prop :=
  ∀ entry ∈ store.challenges, ∃ put ∈ past, put.name = .putChallenge entry.1 entry.2

section
variable [StandaloneCrypto] [Wire] [Keys] [SqlJson] (handler : StandaloneHandler)

/-- The calls of a run. -/
abbrev StandaloneHandler.calls (start : StandaloneStore) (events : List StandaloneEvent) :
    List StandaloneMoment :=
  Pool.history handler.serve (StandaloneCall.exec handler.backend) (Pool.idle start) events

variable {handler} {start : StandaloneStore} {events : List StandaloneEvent}
  {final : StandalonePool}

theorem calls_called
    (hrun : Runs.run handler.standaloneStep (Pool.idle start) events = some final) :
    Each (Pool.Called (StandaloneCall.exec handler.backend) Needs) (handler.calls start events) := by
  refine (Pool.run_tracked (q := fun _ _ _ => True) ?_ hrun).called
  intro request
  exact (hears_serve handler request).imp fun _ _ _ => trivial

theorem calls_challengesPut (hstart : start.challenges = [])
    (hrun : Runs.run handler.standaloneStep (Pool.idle start) events = some final) :
    Each (fun past moment => ChallengesPut past moment.before) (handler.calls start events) := by
  refine (Pool.history_invariant (fun history pool => ChallengesPut history pool.store ∧
    Each (fun past moment => ChallengesPut past moment.before) history) ?_ ?_ ?_ hrun).2
  · refine ⟨?_, each_nil _⟩
    intro entry hentry
    rw [Pool.idle, hstart] at hentry
    cases hentry
  · rintro history pool next request ⟨hput, heach⟩ hstore -
    rw [hstore]
    exact ⟨hput, heach⟩
  · rintro history pool next moment request outcome continuation ⟨hput, heach⟩ - hexec hbefore - -
      -
    refine ⟨?_, heach.concat (hbefore ▸ hput)⟩
    intro entry hentry
    obtain hold | hnew := exec_challenges hexec entry hentry
    · obtain ⟨put, hmem, hname⟩ := hput entry hold
      exact ⟨put, List.mem_append_left _ hmem, hname⟩
    · exact ⟨moment, List.mem_append_right _ List.mem_cons_self, hnew⟩

end

section
variable [SqlJson] {backend : Backend} {past : List StandaloneMoment}
  {identity : ExternalIdentity} {key : ExternalIdentityKey}
  (hcalled : Each (Pool.Called (StandaloneCall.exec backend) Needs) past)
include hcalled

/-- Listed when there was a credential, the credentials ask for a code. -/
theorem acceptedCode_of_passed {checker : Nat} (h : PasswordPassed (heardBy checker past) identity)
    (hkey : identity.key = .ok key)
    (hfresh : ∀ listing ∈ past, listing.task = checker →
      listing.name = .listByIdentity key .totp → HasTotp listing.before key) :
    AcceptedCode past checker key := by
  obtain ⟨issuer, login, found, listed, hfound, rfl, hlisted, hcode⟩ := h
  obtain ⟨finding, hfinding, -, hentry⟩ := mem_heardBy.mp hfound
  obtain ⟨_, -, hfindCalled⟩ := hcalled.mem hfinding
  obtain ⟨_, hfind⟩ := hfindCalled.of_entry hentry
  have hsame : found.credential.identity = key := by
    have heq := (exec_findByKey hfind).symm.trans hkey
    exact Except.ok.inj heq
  rw [hsame] at hlisted
  obtain ⟨listing, hlisting, htask, hlistEntry⟩ := mem_heardBy.mp hlisted
  obtain ⟨_, -, hlistCalled⟩ := hcalled.mem hlisting
  obtain ⟨_, hlist⟩ := hlistCalled.of_entry hlistEntry
  have hname : listing.name = .listByIdentity key .totp := congrArg Sigma.fst hlistEntry
  have hrows := exec_listByIdentity hlist
  have hne : listed ≠ [] := by
    rintro rfl
    obtain ⟨row, hrow, hkind, hidentity, hrevoked⟩ := hfresh listing hlisting htask hname
    have hmem := mem_listByIdentity.mpr ⟨hrow, hidentity, hkind, hrevoked⟩
    obtain ⟨_, hnone, -⟩ := Result.collect_mem_ok hrows hmem
    cases hnone
  obtain ⟨credential, hcredential, counter, haccepted⟩ := hcode hne
  obtain ⟨accepting, haccepting, hby, hacceptEntry⟩ := mem_heardBy.mp haccepted
  obtain ⟨row, hrow, hdecoded⟩ := Result.collect_ok_mem hrows hcredential
  obtain ⟨hstored, hidentity, hkind, hrevoked⟩ := mem_listByIdentity.mp hrow
  refine ⟨listing, hlisting, accepting, haccepting, row, counter, htask, hname, hstored, hkind,
    hidentity, hrevoked, hby, ?_⟩
  rw [hacceptEntry, decodeCredential_id hdecoded]

/-- A challenge that was taken was put by a request that had passed. -/
theorem challengeTaken_authorized
    (hput : Each (fun past moment => ChallengesPut past moment.before) past) {task : Nat}
    (h : ChallengeTaken (heardBy task past) identity) :
    ∃ checker, Authorizes past task checker ∧ PasswordPassed (heardBy checker past) identity := by
  obtain ⟨challengeId, challenge, htaken, rfl⟩ := h
  obtain ⟨taking, htaking, htask, hentry⟩ := mem_heardBy.mp htaken
  obtain ⟨_, -, htakeCalled⟩ := hcalled.mem htaking
  obtain ⟨_, htake⟩ := htakeCalled.of_entry hentry
  obtain ⟨before, hbefore, hputBefore⟩ := hput.mem htaking
  obtain ⟨putting, hputting, hname⟩ := hputBefore _ (exec_consumeChallenge htake)
  obtain ⟨earlier, hearlier, hputCalled⟩ := hcalled.mem (hbefore putting hputting)
  have hneeds := hputCalled.heard
  rw [hname] at hneeds
  refine ⟨putting.task, .inr ⟨putting, hbefore putting hputting, taking, htaking, challengeId,
    challenge, rfl, hname, htask, hentry⟩, ?_⟩
  exact PasswordPassed.mono hneeds (heardBy_mono hearlier)

end

/-- In a run whose steps act on what was decided when the identity had a TOTP credential
already, every token and every further credential is authorised by an accepted code. -/
theorem second_factor_guarded [StandaloneCrypto] [Wire] [Keys] [SqlJson]
    (handler : StandaloneHandler) {start : StandaloneStore} (hstart : start.challenges = [])
    {events : List StandaloneEvent} {final : StandalonePool}
    (hrun : Runs.run handler.standaloneStep (Pool.idle start) events = some final)
    (hfresh : Each Fresh (handler.calls start events)) :
    Each Guarded (handler.calls start events) := by
  intro i moment hmoment key hhas hacts
  have hcalled := calls_called hrun
  have hpast := hcalled.take i
  have hput := (calls_challengesPut hstart hrun).take i
  have hneeds := (hcalled i moment hmoment).heard
  have hlistings := hfresh i moment hmoment key hhas hacts
  have hpassed : ∃ (identity : ExternalIdentity) (checker : Nat), identity.key = .ok key ∧
      Authorizes ((handler.calls start events).take i) moment.task checker ∧
      PasswordPassed (heardBy checker ((handler.calls start events).take i)) identity := by
    obtain ⟨credential, hname, -, rfl, -⟩ | ⟨-, lookup, hlookup, htask, hname⟩ := hacts
    · rw [hname] at hneeds
      obtain ⟨identity, htaken, hkey⟩ := hneeds
      obtain ⟨checker, hauthorizes, hpassed⟩ := challengeTaken_authorized hpast hput htaken
      exact ⟨identity, checker, hkey, hauthorizes, hpassed⟩
    · obtain ⟨earlier, hearlier, hlookedUp⟩ := hpast.mem hlookup
      have hlookupNeeds := hlookedUp.heard
      rw [hname, htask] at hlookupNeeds
      obtain ⟨identity, hkey, hpassed | htaken⟩ := hlookupNeeds
      · exact ⟨identity, moment.task, hkey, .inl rfl, hpassed.mono (heardBy_mono hearlier)⟩
      · obtain ⟨checker, hauthorizes, hpassed⟩ := challengeTaken_authorized hpast hput
          (htaken.mono (heardBy_mono hearlier))
        exact ⟨identity, checker, hkey, hauthorizes, hpassed⟩
  obtain ⟨identity, checker, hkey, hauthorizes, hpassed⟩ := hpassed
  exact ⟨checker, hauthorizes,
    acceptedCode_of_passed hpast hpassed hkey (hlistings checker hauthorizes)⟩

/-- An identity that has its credential all along. -/
theorem fresh_of_stored {history : List StandaloneMoment} {key : ExternalIdentityKey}
    (hhas : ∀ moment ∈ history, HasTotp moment.before key)
    (honly : ∀ moment ∈ history, ∀ row ∈ moment.before.credentials.rows, row.kind = .totp →
      row.identity = key) : Each Fresh history := by
  rintro i moment hmoment identity ⟨row, hrow, hkind, rfl, -⟩ - checker - listing hlisting - -
  rw [honly moment (List.mem_of_getElem? hmoment) row hrow hkind]
  exact hhas listing (List.mem_of_mem_take hlisting)

namespace TwoLogins

/-- Both logins of the run above list the credential and present the code. -/
theorem events_guarded :
    start.challenges = [] ∧
    Each Fresh (@StandaloneHandler.calls crypto (Documents.wire []) Archive.unsigned sqlJson handler
      start events) ∧
    Each Guarded (@StandaloneHandler.calls crypto (Documents.wire []) Archive.unsigned sqlJson
      handler start events) := by
  have hrun : (Runs.run (@StandaloneHandler.standaloneStep crypto (Documents.wire [])
      Archive.unsigned sqlJson handler) (Pool.idle start) events).isSome = true := by
    decide +kernel
  obtain ⟨final, hfinal⟩ := Option.isSome_iff_exists.mp hrun
  have hrows : (@StandaloneHandler.calls crypto (Documents.wire []) Archive.unsigned sqlJson handler
      start events).all (fun moment => moment.before.credentials.rows.any (fun row =>
        row.kind = .totp ∧ row.identity = identity ∧ row.revoked = false) &&
      moment.before.credentials.rows.all fun row => row.kind = .totp → row.identity = identity) =
        true := by
    decide +kernel
  have hfresh : Each Fresh (@StandaloneHandler.calls crypto (Documents.wire []) Archive.unsigned
      sqlJson handler start events) := by
    simp only [List.all_eq_true, List.any_eq_true, Bool.and_eq_true, decide_eq_true_eq] at hrows
    exact fresh_of_stored (fun moment hmoment => (hrows moment hmoment).1)
      fun moment hmoment => (hrows moment hmoment).2
  exact ⟨rfl, hfresh, @second_factor_guarded crypto (Documents.wire []) Archive.unsigned sqlJson
    handler start rfl events final hfinal hfresh⟩

end TwoLogins

/-! Two enrollments begun with the password alone; the second is redeemed after the first has
stored its credential. -/

namespace StaleChallenge

/-- An enrollment: its credential, its secret, the code of the secret at the moment of the run
and the encrypted secret. -/
structure Enrollment where
  credentialId : String
  secret : String
  code : String
  encrypted : String

def first : Enrollment where
  credentialId := "totp_AQEBAQEBAQEBAQEBAQEBAQEBAQEBAQEBAQEBAQEBAQE"
  secret := "GEZDGNBVGY3TQOJQGEZDGNBVGY3TQOJQ"
  code := "287082"
  encrypted :=
    "v1:AQEBAQEBAQEBAQEBMaTT89fxrliWje91IXg6YO--TrBf2XlFH2hwNjf7fOpaINqB9k_JvT5S1V6JnDcg"

def second : Enrollment where
  credentialId := "totp_AgICAgICAgICAgICAgICAgICAgICAgICAgICAgICAgI"
  secret := "MFRGGZDFMZTWQ2LKNNWG23TPOBYXE43U"
  code := "241063"
  encrypted :=
    "v1:AgICAgICAgICAgICV_K7QByx8WFXCtLgs7CAMYRdP71ChX7kiUiqEV-liCaOAkQhHmcq9QAMhoy7uJvE"

/-- The answers on the two enrollments. -/
@[reducible]
def crypto : StandaloneCrypto where
  toLowercase login := login
  verifyPassword password hash := password = "password" ∧ hash = TwoLogins.passwordHash
  generate _ random :=
    let enrollment := if random = List.replicate 20 1 then first else second
    some (enrollment.secret, "otpauth://totp/AuthGuard:alice?secret=" ++ enrollment.secret ++
      "&issuer=AuthGuard")
  encrypt secret credentialId _ :=
    [first, second].findSome? fun enrollment =>
      if enrollment.secret = secret ∧ enrollment.credentialId = credentialId then
        some enrollment.encrypted
      else none
  decrypt encoded credentialId :=
    [first, second].findSome? fun enrollment =>
      if enrollment.encrypted = encoded ∧ enrollment.credentialId = credentialId then
        some enrollment.secret
      else none
  check secret _ code now :=
    some (if now / 30 = 1 ∧ [first, second].any (fun enrollment =>
      enrollment.secret = secret ∧ enrollment.code = code) then some 1 else none)

def start : StandaloneStore := ⟨TwoLogins.iam, ⟨[TwoLogins.password], by decide⟩, [], [], []⟩

def enroll (byte : UInt8) : StandaloneRequest :=
  .enrollmentChallenge ⟨"alice", "password", none, ""⟩ (List.replicate 32 byte)
    (List.replicate 20 byte) (List.replicate 12 byte) (List.replicate 32 (byte + 10))

def redeem (byte : UInt8) (enrollment : Enrollment) : StandaloneRequest :=
  .enrollmentVerify (Base64Url.encode (List.replicate 32 (byte + 10))) enrollment.code [byte]

def events : List StandaloneEvent :=
  [.start (enroll 1), .start (enroll 2), .start (redeem 1 first), .start (redeem 2 second)] ++
    ([0, 0, 0, 0, 1, 1, 1, 1, 2, 2, 2, 2, 2, 2, 3, 3, 3, 3, 3, 3] : List Nat).map
      (.resume · (.answered 59))

def advances : StandaloneCall → Bool
  | .advanceTotpCounter _ _ => true
  | _ => false

/-- The call stores a TOTP credential of the account beside another one. -/
def storesSecond (moment : StandaloneMoment) : Bool :=
  match moment.name with
  | .createCredential credential =>
      credential.kind = .totp && credential.identity = TwoLogins.identity &&
        moment.after.enrolled.length ≠ moment.before.enrolled.length &&
        moment.before.credentials.rows.any fun row =>
          row.kind = .totp ∧ row.identity = TwoLogins.identity ∧ row.revoked = false
  | _ => false

theorem storesSecond_stores {moment : StandaloneMoment} (h : storesSecond moment = true) :
    HasTotp moment.before TwoLogins.identity ∧ StoresTotp moment TwoLogins.identity := by
  simp only [storesSecond] at h
  split at h
  · rename_i credential hname
    simp only [Bool.and_eq_true, decide_eq_true_eq, List.any_eq_true] at h
    obtain ⟨⟨⟨hkind, hidentity⟩, hlength⟩, hrow⟩ := h
    exact ⟨hrow, credential, hname, hkind, hidentity, fun heq => hlength (congrArg _ heq)⟩
  · cases h

/-- The second credential is stored and a token issued without any accepted code. -/
theorem second_unguarded : start.challenges = [] ∧
    (∃ final, Runs.run (@StandaloneHandler.standaloneStep crypto (Documents.wire [])
      Archive.unsigned TwoLogins.sqlJson TwoLogins.handler) (Pool.idle start) events = some final) ∧
    ¬Each Guarded (@StandaloneHandler.calls crypto (Documents.wire []) Archive.unsigned
      TwoLogins.sqlJson TwoLogins.handler start events) := by
  have hrun : (Runs.run (@StandaloneHandler.standaloneStep crypto (Documents.wire [])
      Archive.unsigned TwoLogins.sqlJson TwoLogins.handler) (Pool.idle start) events).isSome =
        true := by
    decide +kernel
  have hnone : (@StandaloneHandler.calls crypto (Documents.wire []) Archive.unsigned
      TwoLogins.sqlJson TwoLogins.handler start events).all (fun moment =>
        !advances moment.name) = true := by
    decide +kernel
  have hstores : (@StandaloneHandler.calls crypto (Documents.wire []) Archive.unsigned
      TwoLogins.sqlJson TwoLogins.handler start events)[16]?.any (fun moment =>
        storesSecond moment) = true := by
    decide +kernel
  refine ⟨rfl, Option.isSome_iff_exists.mp hrun, ?_⟩
  intro hguarded
  obtain ⟨moment, hmoment, hstore⟩ := (Option.any_eq_true _ _).mp hstores
  obtain ⟨hhas, hsecond⟩ := storesSecond_stores hstore
  obtain ⟨checker, -, listing, -, accepted, haccepted, row, counter, -, -, -, -, -, -, -, hentry⟩ :=
    hguarded 16 moment hmoment TwoLogins.identity hhas (.inl hsecond)
  have hadvance := List.all_eq_true.mp hnone accepted (List.mem_of_mem_take haccepted)
  have hname : accepted.name = .advanceTotpCounter row.id counter := congrArg Sigma.fst hentry
  rw [hname] at hadvance
  cases hadvance

end StaleChallenge

end Authguard
