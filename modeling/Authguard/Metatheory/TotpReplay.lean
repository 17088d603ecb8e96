import Authguard.Metatheory.TokenResigning
import Authguard.Metatheory.TotpCounters

/-!
TOTP codes are accepted once: in any interleaving of logins, step-ups and
enrollments the accepted counters of a credential grow, beyond the counter it
was enrolled with, and a login that used a code had one accepted.
-/

namespace Authguard
open Program

/-! Parts that create no credential. -/

theorem within_ofOption {α : Type} (error : ApiError) (value : Option α) :
    (StandaloneProgram.ofOption error value).Within EnrollsTotp fun _ => True := by
  cases value with
  | none => trivial
  | some value => trivial

theorem within_repository {α : Type} (answer : Except CredentialRepositoryError α) :
    (StandaloneProgram.repository answer).Within EnrollsTotp fun _ => True := by
  cases answer with
  | error error => trivial
  | ok value => trivial

theorem within_challenged {α : Type} (answer : Except ChallengeError α) :
    (StandaloneProgram.challenged answer).Within EnrollsTotp fun _ => True := by
  cases answer with
  | error error => trivial
  | ok value => trivial

theorem within_findByKey (issuer : String) (kind : StandaloneCredentialKind)
    (credentialKey : String) :
    (StandaloneProgram.findByKey issuer kind credentialKey).Within EnrollsTotp fun _ => True :=
  ⟨trivial, within_repository⟩

theorem within_listByIdentity (identity : ExternalIdentityKey) (kind : StandaloneCredentialKind) :
    (StandaloneProgram.listByIdentity identity kind).Within EnrollsTotp fun _ => True :=
  ⟨trivial, within_repository⟩

theorem within_putChallenge (challengeId : String) (challenge : TotpEnrollmentChallenge) :
    (StandaloneProgram.putChallenge challengeId challenge).Within EnrollsTotp fun _ => True :=
  ⟨trivial, within_challenged⟩

theorem within_consumeChallenge (challengeId : String) :
    (StandaloneProgram.consumeChallenge challengeId).Within EnrollsTotp fun _ => True :=
  ⟨trivial, within_challenged⟩

theorem within_clock : StandaloneProgram.clock.Within EnrollsTotp fun _ => True :=
  ⟨trivial, fun _ => trivial⟩

/-- Only the methods given are listed. -/
theorem mem_of_mem_amr {identity : ExternalIdentity} {methods : List String}
    {acr : Option String} {authenticatedAt : Int} {method : String}
    (h : method ∈ (AuthenticationResult.new identity methods acr authenticatedAt).amr) :
    method ∈ methods := by
  have hfold : ∀ methods amr : List String, method ∈ methods.foldl (fun amr method =>
      if amr.contains method then amr else amr ++ [method]) amr →
      method ∈ amr ∨ method ∈ methods := by
    intro methods
    induction methods with
    | nil => exact fun amr h => .inl h
    | cons first rest ih =>
        intro amr h
        obtain h | h := ih _ h
        · dsimp only at h
          split at h
          · exact .inl h
          · obtain h | h := List.mem_append.mp h
            · exact .inl h
            · exact .inr (List.mem_singleton.mp h ▸ List.mem_cons_self)
        · exact .inr (List.mem_cons_of_mem first h)
  obtain h | h := hfold methods [] h
  · cases h
  · exact h

theorem within_challengeStore [StandaloneCrypto] (handler : StandaloneHandler) :
    handler.challengeStore.Within EnrollsTotp fun _ => True := by
  rw [StandaloneHandler.challengeStore]
  split
  · trivial
  · trivial

/-! The pipeline. -/

theorem within_loginContext (principal : PrincipalRow) (authentication : AuthenticationResult) :
    (loginContext principal authentication).Within (fun _ => True)
      fun context => context.amr = authentication.amr := by
  rw [loginContext]
  split
  · trivial
  · rfl

theorem within_answered {α : Type} (answer : Except IdentityRepositoryError α) :
    (LinkProgram.answered answer).Within (fun _ => True) fun _ => True := by
  cases answer with
  | error error => trivial
  | ok value => trivial

/-- The methods of the login are those of the context. -/
theorem within_resolveLogin (service : AccountLinkingService)
    (authentication : AuthenticationResult) (kind : PrincipalKind) (random : List UInt8) :
    (service.resolveLogin authentication kind random).Within (fun _ => True)
      fun context => context.amr = authentication.amr := by
  have hkey : authentication.externalIdentity.validKey.Within (fun _ => True) fun _ => True := by
    rw [ExternalIdentity.validKey]
    split
    · trivial
    · trivial
  rw [AccountLinkingService.resolveLogin]
  refine hkey.bind fun key _ => Within.bind ⟨trivial, within_answered⟩ fun found _ => ?_
  cases found with
  | some principal => exact within_loginContext principal authentication
  | none =>
      dsimp only
      split
      · exact Within.bind ⟨trivial, within_answered⟩ fun principal _ =>
          within_loginContext principal authentication
      · trivial

theorem within_converge {β : Type} {q : β → Prop} {program : PipelineProgram β}
    (h : program.Within (fun _ => True) q) : program.converge.Within EnrollsTotp q :=
  h.lift fun _ _ => trivial

theorem within_verifyStepUp (pipeline : AuthenticationPipeline) (principalId : String)
    (authentication : AuthenticationResult) (kind : PrincipalKind) (random : List UInt8) :
    (pipeline.verifyStepUp principalId authentication kind random).Within (fun _ => True)
      fun _ => True := by
  refine ((within_resolveLogin _ authentication kind random).lift fun _ h => h).bind
    fun context _ => ?_
  split
  · trivial
  · trivial

theorem within_issueAt [Wire] [Keys] (pipeline : AuthenticationPipeline)
    {authentication : AuthenticationResult} {principal : AuthenticatedPrincipalContext}
    (hamr : principal.amr = authentication.amr) (now : Nat) :
    (pipeline.issueAt authentication principal now).Within (fun _ => True)
      fun issued => issued.principal.amr = authentication.amr := by
  rw [AuthenticationPipeline.issueAt]
  split
  · trivial
  · exact hamr

theorem within_login [Wire] [Keys] (pipeline : AuthenticationPipeline)
    (authentication : AuthenticationResult) (kind : PrincipalKind) (random : List UInt8) :
    (pipeline.login authentication kind random).Within (fun _ => True)
      fun issued => issued.principal.amr = authentication.amr := by
  refine ((within_resolveLogin _ authentication kind random).lift fun _ h => h).bind
    fun context hcontext => ⟨trivial, fun now => ?_⟩
  have hproject : (projectAuthorizationContext context authentication).amr =
      authentication.amr := hcontext
  exact within_issueAt pipeline hproject now

/-! Enrollment. -/

section
variable [StandaloneCrypto] (handler : StandaloneHandler)

theorem within_verifyEnrollment (challengeId code : String) :
    (handler.verifyEnrollment challengeId code).Within EnrollsTotp fun _ => True := by
  rw [StandaloneHandler.verifyEnrollment]
  refine (within_challengeStore handler).bind fun _ _ => ?_
  refine (within_consumeChallenge challengeId).bind fun challenge _ => ?_
  refine (within_ofOption _ _).bind fun challenge _ => ?_
  refine (within_ofOption _ _).bind fun secret _ => within_clock.bind fun now _ => ?_
  refine (within_ofOption _ _).bind fun counter _ => ?_
  exact (within_ofOption _ _).bind fun counter _ => trivial

/-- The credential is created with the counter its first code matched. -/
theorem within_totpEnrollmentVerify [Wire] [Keys] (challengeId code : String)
    (random : List UInt8) :
    (handler.totpEnrollmentVerify challengeId code random).Within EnrollsTotp fun _ => True := by
  rw [StandaloneHandler.totpEnrollmentVerify]
  split
  · refine (within_verifyEnrollment handler challengeId code).bind fun verified _ => ?_
    refine (within_ofOption _ _).bind fun identity _ => ?_
    have hcreate : (StandaloneProgram.createCredential
        (StandaloneHandler.totpCredential verified.1 identity verified.2)).Within EnrollsTotp
        fun _ => True :=
      ⟨⟨rfl, rfl⟩, within_repository⟩
    refine hcreate.bind fun _ _ => within_clock.bind fun now _ => ?_
    exact (within_converge (within_login _ _ _ random)).bind fun _ _ => trivial
  · trivial

end

/-! Accepted codes. -/

/-- The task had a code accepted. -/
def StandaloneStore.Accounted (store : StandaloneStore) (task : Nat) : Prop :=
  ∃ acceptance ∈ store.accepted, acceptance.task = task

theorem KeepsTotp.accounted {start store after : StandaloneStore} {task : Nat}
    (h : KeepsTotp start store after) (hbefore : store.Accounted task) :
    after.Accounted task := by
  obtain ⟨acceptance, hacceptance, htask⟩ := hbefore
  exact ⟨acceptance, h.accepted.subset hacceptance, htask⟩

section
variable [SqlJson] {backend : Backend} {start : StandaloneStore} {task : Nat}

/-- The program of a task keeps the invariant. -/
abbrev MeetsTotp (backend : Backend) (start : StandaloneStore) (task : Nat) {β : Type}
    (post : β → StandaloneStore → Prop) (program : StandaloneProgram β)
    (store : StandaloneStore) : Prop :=
  Program.Meets (Pool.Answers (StandaloneCall.exec backend task) fun _ _ => True)
    (KeepsTotp start) post program store

theorem meetsTotp_within {β : Type} {q : β → Prop} {program : StandaloneProgram β}
    (h : program.Within EnrollsTotp q) (store : StandaloneStore) :
    MeetsTotp backend start task (fun result _ => q result) program store := by
  refine h.meets ?_ store
  rintro call store answer after hcall ⟨-, outcome, hexec⟩
  exact keepsTotp_exec hcall hexec

/-- What follows an acceptance does not lose it. -/
theorem meetsTotp_accounted {β : Type} {q : β → Prop} {program : StandaloneProgram β}
    (h : program.Within EnrollsTotp q) {p : Prop} {store : StandaloneStore}
    (hp : p → store.Accounted task) :
    MeetsTotp backend start task (fun result last => q result ∧ (p → last.Accounted task))
      program store :=
  (meetsTotp_within h store).frame
    (fun _ _ hkeeps haccounted htrue => hkeeps.accounted (haccounted htrue)) hp

/-- An advance that answers `true` is an acceptance of the task. -/
theorem meets_advanceTotpCounter (credentialId : String) (counter : Nat)
    (store : StandaloneStore) :
    MeetsTotp backend start task (fun advanced last => advanced = true → last.Accounted task)
      (StandaloneProgram.advanceTotpCounter credentialId counter) store := by
  rintro later - answer after ⟨-, outcome, hexec⟩
  have hcall : EnrollsTotp (.advanceTotpCounter credentialId counter) := trivial
  refine ⟨keepsTotp_exec hcall hexec, ?_⟩
  cases answer with
  | error error => exact meets_fail _ after
  | ok advanced =>
      refine meets_ok fun last hlast hadvanced => hlast.accounted ?_
      subst hadvanced
      cases outcome with
      | answered now =>
          simp only [StandaloneCall.exec] at hexec
          split at hexec
          · cases hexec
          · cases hexec
          · cases hexec
            exact ⟨⟨task, credentialId, counter⟩, List.mem_append_right _ List.mem_cons_self, rfl⟩
      | expired => cases hexec
      | failed message => cases hexec
      | lost message now =>
          simp only [StandaloneCall.exec] at hexec
          split at hexec
          · cases hexec
          · cases hexec

section
variable [StandaloneCrypto]

theorem meets_verifyCredentials (subject code : String)
    (credentials : List IamStandaloneCredential) (store : StandaloneStore) :
    MeetsTotp backend start task (fun verified last => verified = true → last.Accounted task)
      (StandaloneHandler.verifyCredentials subject code credentials) store := by
  induction credentials generalizing store with
  | nil =>
      refine meets_ok fun _ _ hverified => ?_
      cases hverified
  | cons credential credentials ih =>
      rw [StandaloneHandler.verifyCredentials]
      split
      · exact ih store
      · refine (meetsTotp_within (within_ofOption _ _) store).bind fun secret store _ => ?_
        refine (meetsTotp_within within_clock store).bind fun now store _ => ?_
        refine (meetsTotp_within (within_ofOption _ _) store).bind fun counter store _ => ?_
        cases counter with
        | none => exact ih store
        | some counter => exact meets_advanceTotpCounter credential.id counter store

variable (handler : StandaloneHandler)

theorem meets_secondFactor (found : StandaloneCredentialIdentity)
    (totpCredentials : List IamStandaloneCredential) (totp : Option String)
    (store : StandaloneStore) :
    MeetsTotp backend start task (fun amr last => "otp" ∈ amr → last.Accounted task)
      (handler.secondFactor found totpCredentials totp) store := by
  rw [StandaloneHandler.secondFactor]
  split
  · refine meets_ok fun _ _ hotp => ?_
    simp at hotp
  · refine (meetsTotp_within (within_ofOption _ _) store).bind fun code store _ => ?_
    have hverify : MeetsTotp backend start task
        (fun verified last => verified = true → last.Accounted task)
        (handler.verifyTotp found totpCredentials code) store := by
      rw [StandaloneHandler.verifyTotp]
      split
      · exact meets_verifyCredentials _ code totpCredentials store
      · exact meets_fail _ store
    refine hverify.bind fun verified last hverified => ?_
    cases verified with
    | false => exact meets_fail _ last
    | true => exact meets_ok fun later hlater _ => hlater.accounted (hverified rfl)

/-- A login that used a code had it accepted. -/
theorem meets_authenticateCredentials (request : LoginRequest) (store : StandaloneStore) :
    MeetsTotp backend start task
      (fun authentication last => "otp" ∈ authentication.amr → last.Accounted task)
      (handler.authenticateCredentials request) store := by
  have hlogin : (normalizeLogin request.login).Within EnrollsTotp fun _ => True := by
    rw [normalizeLogin]
    split
    · trivial
    · trivial
  rw [StandaloneHandler.authenticateCredentials]
  refine (meetsTotp_within hlogin store).bind fun login store _ => ?_
  refine (meetsTotp_within (within_findByKey _ _ _) store).bind fun found store _ => ?_
  dsimp only
  split
  · refine (meetsTotp_within (within_ofOption _ _) store).bind fun found store _ => ?_
    refine (meetsTotp_within (within_listByIdentity _ _) store).bind fun listed store _ => ?_
    refine (meets_secondFactor handler found listed request.totp store).bind
      fun amr store hamr => ?_
    refine (meetsTotp_accounted within_clock hamr).bind fun now last hlast =>
      meets_ok fun later hlater hotp => ?_
    exact hlater.accounted (hlast.2 (mem_of_mem_amr hotp))
  · exact meets_fail _ store

/-- What a request that returned accounts for: a login or a step-up that used a code had
it accepted. -/
def Accounts (task : Nat) : StandaloneRequest → StandaloneReply → StandaloneStore → Prop
  | .login _ _, .issued response, store =>
      "otp" ∈ response.issued.principal.amr → store.Accounted task
  | .stepUp _ _ _, .stepUp authentication, store =>
      "otp" ∈ authentication.amr → store.Accounted task
  | _, _, _ => True

theorem meets_totpEnrollmentChallenge (request : LoginRequest)
    (credential secret nonce challenge : List UInt8) (store : StandaloneStore) :
    MeetsTotp backend start task (fun _ _ => True)
      (handler.totpEnrollmentChallenge request credential secret nonce challenge) store := by
  rw [StandaloneHandler.totpEnrollmentChallenge]
  refine (meets_authenticateCredentials handler request store).bind
    fun authentication store _ => meetsTotp_within ?_ store
  split
  · refine (within_ofOption _ _).bind fun generated _ => ?_
    refine (within_ofOption _ _).bind fun encrypted _ => ?_
    refine (within_challengeStore handler).bind fun _ _ => ?_
    exact (within_putChallenge _ _).bind fun _ _ => trivial
  · trivial

variable [Wire] [Keys]

theorem serve_meetsTotp (start : StandaloneStore) (request : StandaloneRequest)
    (store : StandaloneStore) :
    MeetsTotp backend start task (Accounts task request) (handler.serve request) store := by
  cases request with
  | login request random =>
      refine (meets_authenticateCredentials handler request store).bind
        fun authentication store hotp => ?_
      refine (meetsTotp_accounted
        (within_converge (within_login handler.pipeline authentication .user random)) hotp).bind
        fun issued last hlast => meets_ok fun later hlater hissued => ?_
      exact hlater.accounted (hlast.2 (hlast.1 ▸ hissued))
  | stepUp principalId request random =>
      rw [StandaloneHandler.serve, StandaloneHandler.stepUp]
      split
      · refine (meets_authenticateCredentials handler request store).bind
          fun authentication store hotp => ?_
        refine (meetsTotp_accounted (within_converge
          (within_verifyStepUp handler.pipeline principalId authentication .user random))
          hotp).bind fun _ last hlast => meets_ok fun later hlater hused => ?_
        exact hlater.accounted (hlast.2 hused)
      · exact meets_fail _ store
  | enrollmentChallenge request credential secret nonce challenge =>
      exact (meets_totpEnrollmentChallenge handler request credential secret nonce challenge
        store).imp fun reply _ _ => by cases reply <;> trivial
  | enrollmentVerify challengeId code random =>
      exact (meetsTotp_within (within_totpEnrollmentVerify handler challengeId code random)
        store).imp fun reply _ _ => by cases reply <;> trivial

end

end

/-! Runs. -/

/-- The store before a run: the counters are those of earlier enrollments and logins, and
nothing was recorded yet. -/
structure TotpStart (store : StandaloneStore) : Prop where
  recorded : ∀ row ∈ store.credentials.rows, row.kind = .totp → row.recorded.isSome
  enrolled : store.enrolled = []
  accepted : store.accepted = []

theorem TotpStart.invariant {store : StandaloneStore} (h : TotpStart store) :
    TotpInvariant store store where
  recorded := h.recorded
  reached := by
    rw [h.accepted]
    exact fun _ hacceptance => absurd hacceptance List.not_mem_nil
  increasing := by
    rw [h.accepted]
    exact List.Pairwise.nil
  enrolled := by
    rw [h.enrolled]
    exact fun _ hcredential => absurd hcredential List.not_mem_nil
  started := by
    intro id counter hcounter
    refine ⟨⟨counter, hcounter, le_rfl⟩, ?_⟩
    rw [h.accepted]
    exact fun _ hacceptance => absurd hacceptance List.not_mem_nil

/-- What holds of the accepted codes where a run ends. -/
structure AcceptedOnce (start : StandaloneStore) (final : StandalonePool) : Prop where
  increasing : final.store.accepted.Pairwise fun earlier later =>
    earlier.credentialId = later.credentialId → earlier.counter < later.counter
  once : (final.store.accepted.map fun acceptance =>
    (acceptance.credentialId, acceptance.counter)).Nodup
  /-- Beyond the counter of the enrollment, in this run or before it. -/
  beyond_enrollment : ∀ credential ∈ final.store.enrolled, ∀ counter,
    credential.recorded = some counter → ∀ acceptance ∈ final.store.accepted,
      acceptance.credentialId = credential.id → counter < acceptance.counter
  beyond_start : ∀ credentialId counter, start.counterOf credentialId = some counter →
    ∀ acceptance ∈ final.store.accepted, acceptance.credentialId = credentialId →
      counter < acceptance.counter
  /-- A login or a step-up that used a code has an acceptance of its own. -/
  accounted : ∀ task request reply, final.tasks[task]? = some (request, .ok reply) →
    Accounts task request reply final.store

theorem totp_accepted_once [SqlJson] [StandaloneCrypto] [Wire] [Keys]
    (handler : StandaloneHandler) {start : StandaloneStore} (hstart : TotpStart start)
    {events : List StandaloneEvent} {final : StandalonePool}
    (hrun : Runs.run handler.standaloneStep (Pool.idle start) events = some final) :
    AcceptedOnce start final := by
  obtain ⟨hkeeps, hmeets⟩ := Pool.run_meets_of_allowed (fun _ _ => trivial)
    (fun request _ task store => serve_meetsTotp handler start request store)
    (Pool.meets_idle start) hrun
  have hinv := hkeeps.invariant hstart.invariant
  constructor
  · exact hinv.increasing
  · refine List.pairwise_map.mpr (hinv.increasing.imp ?_)
    intro earlier later hlt heq
    obtain ⟨hid, hcounter⟩ := Prod.mk.injEq .. ▸ heq
    exact absurd hcounter (hlt hid).ne
  · intro credential hcredential counter hcounter
    exact (hinv.enrolled credential hcredential counter hcounter).accepted
  · intro id counter hcounter
    exact (hinv.started id counter hcounter).accepted
  · intro task request reply htask
    exact Pool.returned_meets hmeets htask

/-! Two logins that present the same code. -/

namespace TwoLogins

def secret : String := "GEZDGNBVGY3TQOJQGEZDGNBVGY3TQOJQ"

def encryptedSecret : String :=
  "v1:AAECAwQFBgcICQoLX8SzNFpHmx8w69bIsxcmq6Z57MpfLDVnUZdQ7t-YJ1QR03Lrjz-uxLvzKw8IRdtv"

def passwordHash : String :=
  "$argon2id$v=19$m=65536,t=2,p=1$c29tZXNhbHQ$CTFhFdXPJO1aFaMaO6Mm5c8y7cJHAph8ArZWb2GRPPc"

/-- The answers on one account: its password, its secret and the code of the second step. -/
@[reducible]
def crypto : StandaloneCrypto where
  toLowercase login := login
  verifyPassword password hash := password = "password" ∧ hash = passwordHash
  generate _ _ := none
  encrypt _ _ _ := none
  decrypt encoded credentialId :=
    if encoded = encryptedSecret ∧ credentialId = "cred-1" then some secret else none
  check given _ code now :=
    if given = secret ∧ code = "287082" ∧ now / 30 ≤ 2 then some (some 1) else some none

@[reducible]
def sqlJson : SqlJson where
  castCounter _ _ := none

def identity : ExternalIdentityKey := ⟨"standalone", "https://login.example", "alice"⟩

def principal : PrincipalRow := ⟨⟨"P_1", .user, .active⟩, "Alice", .empty⟩

def iam : IamDatabase where
  principals := ⟨[principal], by decide⟩
  identities :=
    ⟨[⟨"P_1", "standalone", "https://login.example", "alice", .object []⟩], by decide⟩
  principals_checked := by decide
  identities_checked := by decide
  identities_principal := by decide

def password : CredentialRow :=
  ⟨⟨"cred-0", identity, .password, some "alice", some passwordHash, none⟩, 0, false⟩

def totp : CredentialRow :=
  ⟨⟨"cred-1", identity, .totp, none, some encryptedSecret,
    some (.object [("lastCounter", .ofNat 0)])⟩, 0, false⟩

def start : StandaloneStore := ⟨iam, ⟨[password, totp], by decide⟩, [], [], []⟩

theorem start_totp : TotpStart start := by
  refine ⟨?_, rfl, rfl⟩
  intro row hrow hkind
  obtain rfl | rfl := List.mem_pair.mp hrow
  · cases hkind
  · rfl

def handler : StandaloneHandler where
  issuer := "https://login.example"
  challenges := true
  totp := true
  webauthn := false
  dummyHash := passwordHash
  pipeline :=
    ⟨⟨⟨.explicit, ["standalone"], .empty⟩⟩,
      ⟨⟨"https://authguard.example", "workloads", Duration.fromSecs 300⟩, some ⟨"login"⟩⟩⟩
  backend := .sqlite

def request : StandaloneRequest := .login ⟨"alice", "password", some "287082", "/"⟩ [1]

/-- Both logins read the credentials and match the code before either advances the counter;
the first then finishes. -/
def events : List StandaloneEvent :=
  [.start request, .start request] ++
    [0, 1, 0, 1, 0, 1, 0, 1].map (.resume · (.answered 59)) ++
    [0, 0, 0].map (.resume · (.answered 59))

theorem events_accepted_once : ∃ final,
    Runs.run (@StandaloneHandler.standaloneStep crypto (Documents.wire []) Archive.unsigned sqlJson
      handler) (Pool.idle start) events = some final ∧
    final.store.accepted.length = 1 ∧ final.tasks.all (·.2.isDone) ∧
    AcceptedOnce start final := by
  have hrun : (Runs.run (@StandaloneHandler.standaloneStep crypto (Documents.wire [])
      Archive.unsigned sqlJson handler) (Pool.idle start) events).any (fun final =>
        final.store.accepted.length = 1 && final.tasks.all (·.2.isDone)) = true := by
    decide +kernel
  obtain ⟨final, hfinal, hended⟩ := (Option.any_eq_true _ _).mp hrun
  obtain ⟨haccepted, hdone⟩ := Bool.and_eq_true_iff.mp hended
  exact ⟨final, hfinal, of_decide_eq_true haccepted, hdone,
    @totp_accepted_once sqlJson crypto (Documents.wire []) Archive.unsigned handler start
      start_totp events final hfinal⟩

end TwoLogins

end Authguard
