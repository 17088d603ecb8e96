import Authguard.Library.Simulation
import Authguard.Metatheory.IdentityBinding
import Authguard.Metatheory.TotpReplay

/-!
What refused logins tell about accounts. A login fails alike whether its account has a
password that is not the one tried or no password at all: in any interleaving of logins,
step-ups and enrollments, a store without the accounts whose password nobody knew answers
every request as the store that has them.
-/

namespace Authguard
open Program Text

section
variable [StandaloneCrypto]

/-- The login a request looks up, with the password it tries. -/
def StandaloneRequest.attempt : StandaloneRequest → Option (String × String)
  | .login request _ | .stepUp _ request _ | .enrollmentChallenge request _ _ _ _ =>
      some (StandaloneCrypto.toLowercase (trim request.login), request.password)
  | .enrollmentVerify _ _ _ => none

def attemptOf : StandaloneEvent → Option (String × String)
  | .start request => request.attempt
  | .resume _ _ => none

/-- What the requests of a run try. -/
def attempts (events : List StandaloneEvent) : List (String × String) := events.filterMap attemptOf

end

/-! Stores that differ in the accounts that are concealed. -/

namespace StandaloneHandler

variable (handler : StandaloneHandler) (hidden : List String)

/-- A password that is found under one of the logins. -/
def conceals (row : CredentialRow) : Bool :=
  row.identity.provider = "standalone" ∧ row.identity.issuer = handler.issuer ∧
    row.kind = .password ∧ !row.revoked ∧ row.credentialKey.any hidden.contains

def shown (store : StandaloneStore) : StandaloneStore :=
  { store with credentials := store.credentials.filter fun row => !handler.conceals hidden row }

/-- The identifiers of passwords and of TOTP credentials, as registrations and enrollments
draw them. -/
def PasswordId (id : String) : Prop := "pwd_".toList <+: id.toList

def TotpId (id : String) : Prop := "totp_".toList <+: id.toList

/-- Nothing that is tried is the password of a concealed account. -/
structure Refuses [StandaloneCrypto] (tried : List (String × String)) (store : StandaloneStore) :
    Prop where
  refused : ∀ row ∈ store.credentials.rows, handler.conceals hidden row = true →
    ∀ attempt ∈ tried, row.credentialKey = some attempt.1 →
      StandaloneCrypto.verifyPassword attempt.2 (row.secretData.getD handler.dummyHash) = false
  canonical : ∀ row ∈ store.credentials.rows, handler.conceals hidden row = true →
    ExternalIdentityKey.new row.identity.provider row.identity.issuer row.identity.subject =
      .ok row.identity
  password_id : ∀ row ∈ store.credentials.rows, handler.conceals hidden row = true →
    PasswordId row.id
  claims : ∀ identity ∈ store.iam.identities.rows, identity.claims.asObject.isSome
  challenges : ∀ entry ∈ store.challenges, TotpId entry.2.credentialId

/-- The stores are the same but for concealed accounts, which refuse what is tried. -/
structure Indistinct [StandaloneCrypto] (tried : List (String × String))
    (store other : StandaloneStore) : Prop where
  shown : handler.shown hidden other = handler.shown hidden store
  store : handler.Refuses hidden tried store
  other : handler.Refuses hidden tried other

theorem not_passwordId {id : String} (h : TotpId id) : ¬PasswordId id := by
  intro hpassword
  obtain ⟨rest, hrest⟩ := h
  obtain ⟨rest', hrest'⟩ := hpassword
  rw [← hrest] at hrest'
  simp at hrest'

end StandaloneHandler

open StandaloneHandler

/-! What the calls read of the shown part. -/

section
variable {handler : StandaloneHandler} {hidden : List String}

theorem conceals_kind {row : CredentialRow} (h : handler.conceals hidden row = true) :
    row.kind = .password := by
  simp only [conceals, decide_eq_true_eq] at h
  exact h.2.2.1

theorem shown_of_kind {row : CredentialRow} (h : row.kind ≠ .password) :
    (!handler.conceals hidden row) = true := by
  rw [Bool.not_eq_true', Bool.eq_false_iff]
  exact fun hconceals => h (conceals_kind hconceals)

variable {table : CredentialTable}

theorem byKey_shown {issuer credentialKey : String} {kind : StandaloneCredentialKind}
    (h : kind = .password → issuer = handler.issuer → credentialKey ∉ hidden) :
    CredentialTable.byKey (table.filter fun row => !handler.conceals hidden row) issuer kind
      credentialKey = table.byKey issuer kind credentialKey := by
  refine List.find?_filter.trans (congrArg (List.find? · table.rows) (funext fun row => ?_))
  rw [decide_eq_decide, decide_eq_true_eq, and_iff_right_iff_imp]
  intro hrow
  rw [Bool.not_eq_true', Bool.eq_false_iff]
  intro hconceals
  simp only [conceals, decide_eq_true_eq] at hrow hconceals
  obtain ⟨-, hissuer, hkind, hkey, -⟩ := hrow
  obtain ⟨-, hissuer', hkind', -, hhidden⟩ := hconceals
  rw [hkey] at hhidden
  exact h (hkind ▸ hkind') (hissuer ▸ hissuer') (by simpa using hhidden)

theorem listByIdentity_shown {identity : ExternalIdentityKey} {kind : StandaloneCredentialKind}
    (h : kind ≠ .password) :
    CredentialTable.listByIdentity (table.filter fun row => !handler.conceals hidden row) identity
      kind = table.listByIdentity identity kind := by
  refine congrArg (List.insertionSort _) ?_
  refine List.filter_filter.trans (List.filter_congr fun row _ => ?_)
  rw [Bool.and_eq_left_iff_imp]
  intro hrow
  simp only [decide_eq_true_eq] at hrow
  exact shown_of_kind fun hkind => h (hrow.2.1 ▸ hkind)

theorem keyTaken_shown {credential : IamStandaloneCredential} (h : credential.kind ≠ .password) :
    keyTaken (table.filter fun row => !handler.conceals hidden row) credential =
      keyTaken table credential := by
  rw [keyTaken, keyTaken]
  refine congrArg _ ?_
  rw [Table.filter, List.any_filter]
  refine congrArg (List.any table.rows) (funext fun row => ?_)
  rw [Bool.and_eq_right_iff_imp]
  intro hrow
  simp only [decide_eq_true_eq] at hrow
  exact shown_of_kind fun hkind => h (hrow.1 ▸ hkind)

theorem createCredential_shown {credential : IamStandaloneCredential} {now : Nat} {iam : IamDatabase}
    (hkind : credential.kind ≠ .password) (hid : TotpId credential.id)
    (hpassword : ∀ row ∈ table.rows, handler.conceals hidden row = true → PasswordId row.id) :
    CredentialTable.createCredential (table.filter fun row => !handler.conceals hidden row) iam now
        credential =
      (table.createCredential iam now credential).map
        (Table.filter · fun row => !handler.conceals hidden row) := by
  have hinsert : (table.filter fun row => !handler.conceals hidden row).insert
        { credential with createdAt := now, revoked := false } =
      (table.insert { credential with createdAt := now, revoked := false }).map
        (Table.filter · fun row => !handler.conceals hidden row) := by
    refine Table.insert_filter (shown_of_kind hkind) fun stored hstored => ?_
    obtain ⟨hmem, hkey⟩ := Table.find_eq_some.mp hstored
    have hkey : stored.id = credential.id := hkey
    rw [Bool.not_eq_true', Bool.eq_false_iff]
    exact fun hconceals => not_passwordId hid (hkey ▸ hpassword stored hmem hconceals)
  simp only [CredentialTable.createCredential, keyTaken_shown hkind, hinsert]
  split
  · split
    · rfl
    · cases table.insert { credential with createdAt := now, revoked := false } with
      | none => rfl
      | some created =>
          simp only [Option.map_some]
          split
          · rfl
          · rfl
  · rfl

theorem advance_shown [SqlJson] (backend : Backend) (credentialId : String) (counter : Nat) :
    CredentialTable.advanceTotpCounter (table.filter fun row => !handler.conceals hidden row)
        backend credentialId counter =
      (table.advanceTotpCounter backend credentialId counter).map
        (Prod.map id (Table.filter · fun row => !handler.conceals hidden row)) := by
  have hrows : ∀ row, table.find credentialId = some row → row.kind = .totp → ∀ data,
      (table.upsert { row with credentialData := some data }).filter
          (fun row => !handler.conceals hidden row) =
        (table.filter fun row => !handler.conceals hidden row).upsert
          { row with credentialData := some data } := by
    intro row hrow hkind data
    have hpassword : row.kind ≠ .password := by rw [hkind]; decide
    refine Table.filter_upsert_of_kept (shown_of_kind hpassword) fun stored hstored => ?_
    have hkey : row.key = credentialId := (Table.find_eq_some.mp hrow).2
    rw [← hkey] at hrow
    cases hrow.symm.trans hstored
    exact shown_of_kind hpassword
  simp only [CredentialTable.advanceTotpCounter, Table.find_filter]
  split
  · rfl
  cases hfind : table.find credentialId with
  | none => rfl
  | some row =>
      by_cases hkind : row.kind = .totp
      · have hpassword : row.kind ≠ .password := by rw [hkind]; decide
        rw [Option.filter_some, if_pos (shown_of_kind hpassword)]
        dsimp only
        split
        · rfl
        · cases lastCounter backend row.credentialData with
          | none => rfl
          | some last =>
              dsimp only
              split
              · cases setCounter backend counter row.credentialData with
                | none => rfl
                | some data =>
                    exact congrArg (fun table => Except.ok (true, table))
                      (hrows row hfind hkind data).symm
              · rfl
      · rw [Option.filter_some]
        by_cases hshown : (!handler.conceals hidden row) = true
        · simp only [hshown, if_true, hkind, ne_eq, not_false_eq_true, true_or]
          rfl
        · simp only [hshown, hkind, ne_eq, not_false_eq_true, true_or, if_true]
          rfl

end

/-! The calls that do not look behind the shown part. -/

def Unseen (handler : StandaloneHandler) (hidden : List String) : StandaloneCall → Prop
  | .findByKey issuer kind credentialKey =>
      kind = .password → issuer = handler.issuer → credentialKey ∉ hidden
  | .listByIdentity _ kind => kind ≠ .password
  | .createCredential credential => credential.kind ≠ .password ∧ TotpId credential.id
  | .putChallenge _ challenge => TotpId challenge.credentialId
  | .pipeline _ | .advanceTotpCounter _ _ | .consumeChallenge _ | .clock => True

/-- The challenges that wait are of TOTP credentials. -/
def Told : (call : StandaloneCall) → call.Answer → Prop
  | .consumeChallenge _, answer =>
      ∀ challenge, answer = .ok (some challenge) → TotpId challenge.credentialId
  | .findByKey _ _ _, _ | .listByIdentity _ _, _ | .createCredential _, _ | .putChallenge _ _, _
  | .pipeline _, _ | .advanceTotpCounter _ _, _ | .clock, _ => True

/-- The claims of the rows the repository writes are objects. -/
theorem claims_exec {call : IdentityCall} {outcome : StoreOutcome} {db after : IamDatabase}
    {answer : call.Answer} (h : call.exec outcome db = some (answer, after))
    (hclaims : ∀ identity ∈ db.identities.rows, identity.claims.asObject.isSome) :
    ∀ identity ∈ after.identities.rows, identity.claims.asObject.isSome := by
  have hinsert : ∀ (identity : ExternalIdentity) (principalId : String),
      db.identities.insert (identity.boundTo principalId) = some after.identities →
      ∀ identity ∈ after.identities.rows, identity.claims.asObject.isSome := by
    intro identity principalId hinserted row hrow
    obtain hrow | rfl := (Table.mem_insert hinserted).mp hrow
    · exact hclaims row hrow
    · rfl
  cases call with
  | findPrincipalByIdentity key =>
      rw [(readCall_cases (Option.some.inj h)).1]
      exact hclaims
  | principalHasProvider principalId provider =>
      rw [(readCall_cases (Option.some.inj h)).1]
      exact hclaims
  | createPrincipalAndBind principal identity =>
      obtain ⟨rfl, -⟩ | ⟨value, hwritten, -⟩ := writeCall_cases (Option.some.inj h)
      · exact hclaims
      · exact hinsert identity principal.id (createPrincipalAndBind_eq_ok hwritten).2.2
  | bindIdentity principalId identity =>
      obtain ⟨rfl, -⟩ | ⟨value, hwritten, -⟩ := writeCall_cases (Option.some.inj h)
      · exact hclaims
      · exact hinsert identity principalId (bindIdentity_eq_ok hwritten).2.2

section
variable [StandaloneCrypto] [SqlJson] {handler : StandaloneHandler} {hidden : List String}
  {tried : List (String × String)} {store other after : StandaloneStore} {backend : Backend}
  {task : Nat}

theorem exec_shown {call : StandaloneCall} (hcall : Unseen handler hidden call)
    (h : handler.Refuses hidden tried store) (outcome : CallOutcome) :
    StandaloneCall.exec backend task call outcome (handler.shown hidden store) =
      (StandaloneCall.exec backend task call outcome store).map
        (Prod.map id (handler.shown hidden)) := by
  cases call with
  | pipeline call =>
      cases call with
      | identity call =>
          cases outcome with
          | expired => rfl
          | answered now | failed message | lost message now =>
              simp only [StandaloneCall.exec, CallOutcome.toStore, Option.bind_some,
                Option.map_map]
              rfl
      | now => cases outcome <;> rfl
  | clock => cases outcome <;> rfl
  | findByKey issuer kind credentialKey =>
      have hfound : (handler.shown hidden store).findByKey issuer kind credentialKey =
          store.findByKey issuer kind credentialKey := by
        simp only [StandaloneStore.findByKey, shown, byKey_shown hcall]
      simp only [StandaloneCall.exec, hfound]
      cases outcome <;> rfl
  | listByIdentity identity kind =>
      have hlisted : (handler.shown hidden store).listByIdentity identity kind =
          store.listByIdentity identity kind := by
        simp only [StandaloneStore.listByIdentity, shown, listByIdentity_shown hcall]
      simp only [StandaloneCall.exec, hlisted]
      cases outcome <;> rfl
  | createCredential credential =>
      have hcreated : ∀ now, (handler.shown hidden store).createCredential now credential =
          (store.createCredential now credential).map (handler.shown hidden) := by
        intro now
        simp only [StandaloneStore.createCredential, shown,
          createCredential_shown hcall.1 hcall.2 h.password_id]
        cases CredentialTable.createCredential store.credentials store.iam now credential <;> rfl
      cases outcome with
      | answered now | lost message now =>
          simp only [StandaloneCall.exec, hcreated]
          cases store.createCredential now credential <;> rfl
      | expired | failed message => rfl
  | advanceTotpCounter credentialId counter =>
      cases outcome with
      | answered now | lost message now =>
          simp only [StandaloneCall.exec, shown, advance_shown]
          cases store.credentials.advanceTotpCounter backend credentialId counter with
          | error error => rfl
          | ok advanced =>
              obtain ⟨advanced, credentials⟩ := advanced
              cases advanced <;> rfl
      | expired | failed message => rfl
  | putChallenge challengeId challenge =>
      cases outcome with
      | answered now =>
          simp only [StandaloneCall.exec, shown]
          cases store.challenges.lookup challengeId <;> rfl
      | expired | failed message | lost message now => rfl
  | consumeChallenge challengeId => cases outcome <;> rfl

omit [SqlJson] in
/-- A store with other credentials that are no passwords. -/
theorem StandaloneHandler.Refuses.of_rows (h : handler.Refuses hidden tried store)
    (hiam : after.iam = store.iam)
    (hrows : ∀ row ∈ after.credentials.rows, row.kind = .password → row ∈ store.credentials.rows)
    (hchallenges : ∀ entry ∈ after.challenges, TotpId entry.2.credentialId) :
    handler.Refuses hidden tried after where
  refused row hrow hconceals := h.refused row (hrows row hrow (conceals_kind hconceals)) hconceals
  canonical row hrow hconceals :=
    h.canonical row (hrows row hrow (conceals_kind hconceals)) hconceals
  password_id row hrow hconceals :=
    h.password_id row (hrows row hrow (conceals_kind hconceals)) hconceals
  claims := hiam ▸ h.claims
  challenges := hchallenges

theorem refuses_exec {call : StandaloneCall} (hcall : Unseen handler hidden call)
    (h : handler.Refuses hidden tried store) {outcome : CallOutcome} {answer : call.Answer}
    (hexec : StandaloneCall.exec backend task call outcome store = some (answer, after)) :
    handler.Refuses hidden tried after ∧ Told call answer := by
  cases call with
  | pipeline call =>
      cases call with
      | identity call =>
          obtain ⟨stored, -, hexec⟩ := Option.bind_eq_some_iff.mp hexec
          obtain ⟨⟨_, iam⟩, hiam, hexec⟩ := Option.map_eq_some_iff.mp hexec
          cases hexec
          exact ⟨{ h with claims := claims_exec hiam h.claims }, trivial⟩
      | now =>
          cases outcome <;> cases hexec
          exact ⟨h, trivial⟩
  | clock =>
      cases outcome <;> cases hexec
      exact ⟨h, trivial⟩
  | findByKey issuer kind credentialKey =>
      rw [read_store hexec]
      exact ⟨h, trivial⟩
  | listByIdentity identity kind =>
      rw [read_store hexec]
      exact ⟨h, trivial⟩
  | createCredential credential =>
      have hcreated : ∀ now created, store.createCredential now credential = .ok created →
          handler.Refuses hidden tried created := by
        intro now created hcreate
        have hinsert := (createCredential_eq_ok hcreate).1
        obtain ⟨credentials, -, rfl⟩ := Result.map_ok_iff.mp hcreate
        refine h.of_rows rfl (fun row hrow hkind => ?_) h.challenges
        obtain hrow | rfl := (Table.mem_insert hinsert).mp hrow
        · exact hrow
        · exact absurd hkind hcall.1
      cases outcome with
      | answered now | lost message now =>
          simp only [StandaloneCall.exec] at hexec
          split at hexec
          · cases hexec
            exact ⟨h, trivial⟩
          · rename_i created hcreate
            cases hexec
            exact ⟨hcreated now _ hcreate, trivial⟩
      | expired => cases hexec
      | failed message =>
          cases hexec
          exact ⟨h, trivial⟩
  | advanceTotpCounter credentialId counter =>
      have hadvanced : ∀ advanced credentials accepted,
          store.credentials.advanceTotpCounter backend credentialId counter =
            .ok (advanced, credentials) →
          handler.Refuses hidden tried { store with credentials, accepted } := by
        intro advanced credentials accepted hadvance
        refine h.of_rows rfl (fun row hrow hkind => ?_) h.challenges
        obtain ⟨-, rfl⟩ | ⟨stored, last, data, -, -, -, htotp, -, -, -, rfl⟩ :=
          advanceTotpCounter_eq_ok hadvance
        · exact hrow
        · obtain rfl | hrow := Table.mem_upsert hrow
          · rw [show stored.kind = .password from hkind] at htotp
            cases htotp
          · exact hrow
      cases outcome with
      | answered now =>
          simp only [StandaloneCall.exec] at hexec
          split at hexec
          · cases hexec
            exact ⟨h, trivial⟩
          · cases hexec
            exact ⟨h, trivial⟩
          · rename_i credentials hadvance
            cases hexec
            exact ⟨hadvanced true credentials _ hadvance, trivial⟩
      | expired => cases hexec
      | failed message =>
          cases hexec
          exact ⟨h, trivial⟩
      | lost message now =>
          simp only [StandaloneCall.exec] at hexec
          split at hexec
          · cases hexec
            exact ⟨h, trivial⟩
          · rename_i advanced credentials hadvance
            cases hexec
            exact ⟨hadvanced advanced credentials _ hadvance, trivial⟩
  | putChallenge challengeId challenge =>
      have hput : handler.Refuses hidden tried
          { store with challenges := (challengeId, challenge) :: store.challenges } :=
        h.of_rows rfl (fun _ hrow _ => hrow)
          (List.forall_mem_cons.mpr ⟨hcall, h.challenges⟩)
      cases outcome with
      | answered now =>
          simp only [StandaloneCall.exec] at hexec
          split at hexec
          · cases hexec
            exact ⟨h, trivial⟩
          · cases hexec
            exact ⟨hput, trivial⟩
      | expired => cases hexec
      | failed message =>
          cases hexec
          exact ⟨h, trivial⟩
      | lost message now =>
          cases hexec
          exact ⟨hput, trivial⟩
  | consumeChallenge challengeId =>
      have htaken : handler.Refuses hidden tried
          { store with
            challenges := store.challenges.filter fun entry => entry.1 ≠ challengeId } :=
        h.of_rows rfl (fun _ hrow _ => hrow) fun entry hentry =>
          h.challenges entry (List.mem_of_mem_filter hentry)
      cases outcome with
      | answered now =>
          cases hexec
          refine ⟨htaken, fun challenge hanswer => ?_⟩
          obtain ⟨before, rest, hwaiting, -⟩ := List.lookup_eq_some_iff.mp (Except.ok.inj hanswer)
          exact h.challenges (challengeId, challenge)
            (hwaiting ▸ List.mem_append_right _ List.mem_cons_self)
      | expired =>
          cases hexec
          exact ⟨htaken, fun challenge hanswer => by cases hanswer⟩
      | failed message =>
          cases hexec
          exact ⟨h, fun challenge hanswer => by cases hanswer⟩
      | lost message now =>
          cases hexec
          exact ⟨htaken, fun challenge hanswer => by cases hanswer⟩

theorem equally_exec {call : StandaloneCall} (hcall : Unseen handler hidden call) :
    Equally (StandaloneCall.exec backend task) (handler.Indistinct hidden tried) call
      (Told call) := by
  intro outcome store other h
  have hshown : (StandaloneCall.exec backend task call outcome other).map
        (Prod.map id (handler.shown hidden)) =
      (StandaloneCall.exec backend task call outcome store).map
        (Prod.map id (handler.shown hidden)) := by
    rw [← exec_shown hcall h.other, h.shown, exec_shown hcall h.store]
  cases hstore : StandaloneCall.exec backend task call outcome store with
  | none =>
      rw [hstore, Option.map_none, Option.map_eq_none_iff] at hshown
      exact .inl ⟨rfl, hshown⟩
  | some answered =>
      obtain ⟨answer, after⟩ := answered
      rw [hstore, Option.map_some] at hshown
      obtain ⟨⟨answer', after'⟩, hother, hsame⟩ := Option.map_eq_some_iff.mp hshown
      rw [Prod.map_apply, Prod.map_apply, Prod.mk.injEq] at hsame
      obtain ⟨rfl, hafter⟩ := hsame
      obtain ⟨hrefuses, htold⟩ := refuses_exec hcall h.store hstore
      exact .inr ⟨_, after, after', rfl, hother,
        ⟨hafter, hrefuses, (refuses_exec hcall h.other hother).1⟩, htold⟩

end

/-! The requests. -/

/-- The program goes on alike over stores that differ in concealed accounts only. -/
abbrev StandaloneProgram.Discreet [StandaloneCrypto] [SqlJson] {β : Type}
    (program : StandaloneProgram β) (handler : StandaloneHandler) (hidden : List String)
    (tried : List (String × String)) (task : Nat) (q : β → Prop) : Prop :=
  program.Blind (StandaloneCall.exec handler.backend task) (handler.Indistinct hidden tried) q

section
variable [StandaloneCrypto] [SqlJson] {handler : StandaloneHandler} {hidden : List String}
  {tried : List (String × String)} {task : Nat}

theorem discreet_call {β : Type} {q : β → Prop} {call : StandaloneCall}
    {next : call.Answer → StandaloneProgram β} (hcall : Unseen handler hidden call)
    (hnext : ∀ answer, Told call answer →
      (next answer).Discreet handler hidden tried task q) :
    StandaloneProgram.Discreet (.call call next) handler hidden tried task q :=
  (equally_exec hcall).blind hnext

theorem discreet_ofOption {α : Type} (error : ApiError) (found : Option α) :
    (StandaloneProgram.ofOption error found).Discreet handler hidden tried task
      fun value => found = some value := by
  cases found with
  | none => trivial
  | some value => rfl

theorem discreet_repository {α : Type} (answer : Except CredentialRepositoryError α) :
    (StandaloneProgram.repository answer).Discreet handler hidden tried task fun _ => True := by
  cases answer with
  | error error => trivial
  | ok value => trivial

theorem discreet_challenged {α : Type} (answer : Except ChallengeError α) :
    (StandaloneProgram.challenged answer).Discreet handler hidden tried task
      fun value => answer = .ok value := by
  cases answer with
  | error error => trivial
  | ok value => rfl

theorem discreet_challengeStore :
    handler.challengeStore.Discreet handler hidden tried task fun _ => True := by
  rw [StandaloneHandler.challengeStore]
  split
  · trivial
  · trivial

theorem discreet_clock :
    StandaloneProgram.clock.Discreet handler hidden tried task fun _ => True :=
  discreet_call trivial fun _ _ => trivial

theorem discreet_converge {β : Type} (program : PipelineProgram β) :
    program.converge.Discreet handler hidden tried task fun _ => True := by
  induction program with
  | ok result | fail error => trivial
  | call name next ih => exact discreet_call trivial fun answer _ => ih answer

theorem discreet_verifyCredentials (subject code : String)
    (credentials : List IamStandaloneCredential) :
    (verifyCredentials subject code credentials).Discreet handler hidden tried task
      fun _ => True := by
  induction credentials with
  | nil => trivial
  | cons credential credentials ih =>
      rw [verifyCredentials]
      cases credential.secretData with
      | none => exact ih
      | some encrypted =>
          refine (discreet_ofOption _ _).bind fun secret _ => discreet_clock.bind fun now _ => ?_
          refine (discreet_ofOption _ _).bind fun counter _ => ?_
          cases counter with
          | none => exact ih
          | some counter => exact discreet_call trivial fun answer _ => discreet_repository answer

theorem discreet_secondFactor (found : StandaloneCredentialIdentity)
    (credentials : List IamStandaloneCredential) (totp : Option String) :
    (handler.secondFactor found credentials totp).Discreet handler hidden tried task
      fun _ => True := by
  rw [secondFactor]
  split
  · trivial
  · refine (discreet_ofOption _ _).bind fun code _ => ?_
    refine Blind.bind (q := fun _ => True) ?_ fun verified _ => ?_
    · rw [verifyTotp]
      split
      · exact discreet_verifyCredentials _ code credentials
      · trivial
    · cases verified <;> trivial

/-- What a login does once its password is looked up. -/
def afterLookup (handler : StandaloneHandler) (request : LoginRequest)
    (found : Option StandaloneCredentialIdentity) : StandaloneProgram AuthenticationResult :=
  let hash := (found.bind (·.credential.secretData)).getD handler.dummyHash
  if StandaloneCrypto.verifyPassword request.password hash then do
    let found ← StandaloneProgram.ofOption (.unauthorized "invalid credentials") found
    let totpCredentials ← StandaloneProgram.listByIdentity found.credential.identity .totp
    let amr ← handler.secondFactor found totpCredentials request.totp
    let now ← StandaloneProgram.clock
    .ok (.new found.externalIdentity amr none now)
  else
    .fail (.unauthorized "invalid credentials")

omit [SqlJson] in
theorem afterLookup_none (request : LoginRequest) :
    afterLookup handler request none = .fail (.unauthorized "invalid credentials") := by
  rw [afterLookup]
  split
  · rfl
  · rfl

omit [SqlJson] in
/-- The account is not found, or the password is not its own. -/
theorem findByKey_refused {store : StandaloneStore} {login password : String}
    (h : handler.Refuses hidden tried store) (hlogin : login ∈ hidden)
    (htried : (login, password) ∈ tried) :
    store.findByKey handler.issuer .password login = .ok none ∨
      ∃ found, store.findByKey handler.issuer .password login = .ok (some found) ∧
        StandaloneCrypto.verifyPassword password
          (found.credential.secretData.getD handler.dummyHash) = false := by
  rw [StandaloneStore.findByKey]
  cases hrow : store.credentials.byKey handler.issuer .password login with
  | none => exact .inl rfl
  | some row =>
      have hmem := List.mem_of_find?_eq_some hrow
      have hselected := List.find?_some hrow
      simp only [decide_eq_true_eq] at hselected
      obtain ⟨hprovider, hissuer, hkind, hkey, hrevoked⟩ := hselected
      have hconceals : handler.conceals hidden row = true := by
        simp only [conceals, decide_eq_true_eq]
        refine ⟨hprovider, hissuer, hkind, hrevoked, ?_⟩
        rw [hkey, Option.any_some]
        exact List.contains_iff_mem.mpr hlogin
      dsimp only
      rw [decodeIdentityCredential]
      cases hidentity : store.iam.identities.find row.identity with
      | none => exact .inl rfl
      | some identity =>
          obtain ⟨hstored, hsame⟩ := Table.find_eq_some.mp hidentity
          obtain ⟨claims, hclaims⟩ := Option.isSome_iff_exists.mp (h.claims identity hstored)
          have hnew : ExternalIdentityKey.new identity.provider identity.issuer
              identity.subject = .ok row.identity := by
            rw [← h.canonical row hmem hconceals, ← hsame]
            rfl
          simp only [hclaims, hnew]
          exact .inr ⟨_, rfl, h.refused row hmem hconceals (login, password) htried hkey⟩

/-- A login of a concealed account ends alike whether the account is there. -/
theorem discreet_refused {request : LoginRequest} {login : String} (hlogin : login ∈ hidden)
    (htried : (login, request.password) ∈ tried) :
    StandaloneProgram.Discreet
      (StandaloneProgram.findByKey handler.issuer .password login >>= afterLookup handler request)
      handler hidden tried task fun _ => True := by
  have hfails : ∀ store : StandaloneStore, handler.Refuses hidden tried store →
      (StandaloneProgram.repository (store.findByKey handler.issuer .password login) >>=
        afterLookup handler request) = .fail (.unauthorized "invalid credentials") := by
    intro store h
    obtain hnone | ⟨found, hfound, hpassword⟩ := findByKey_refused h hlogin htried
    · rw [hnone]
      exact afterLookup_none request
    · rw [hfound]
      change afterLookup handler request (some found) = _
      rw [afterLookup]
      exact if_neg (by rw [Option.bind_some, hpassword]; decide)
  intro outcome store other h
  cases outcome with
  | answered now =>
      refine .inr ⟨_, _, store, other, rfl, rfl, h, ?_, ?_⟩
      · exact (hfails other h.other).trans (hfails store h.store).symm
      · exact (congrArg (Blind _ _ _) (hfails store h.store)).mpr trivial
  | expired => exact .inl ⟨rfl, rfl⟩
  | failed message | lost message now =>
      exact .inr ⟨.error (.backend message), .error (.backend message), store, other, rfl, rfl, h,
        rfl, trivial⟩

theorem discreet_authenticateCredentials {request : LoginRequest}
    (htried : (StandaloneCrypto.toLowercase (trim request.login), request.password) ∈ tried) :
    (handler.authenticateCredentials request).Discreet handler hidden tried task
      fun _ => True := by
  have hrest : ∀ found, (afterLookup handler request found).Discreet handler hidden tried task
      fun _ => True := by
    intro found
    rw [afterLookup]
    split
    · refine (discreet_ofOption _ _).bind fun found _ => ?_
      refine Blind.bind (discreet_call (by decide : StandaloneCredentialKind.totp ≠ .password)
        fun answer _ => discreet_repository answer) fun credentials _ => ?_
      refine (discreet_secondFactor found credentials request.totp).bind fun amr _ => ?_
      exact discreet_clock.bind fun now _ => trivial
    · trivial
  have hlookup : ∀ login, (login, request.password) ∈ tried → StandaloneProgram.Discreet
      (StandaloneProgram.findByKey handler.issuer .password login >>= afterLookup handler request)
      handler hidden tried task fun _ => True := by
    intro login htried
    by_cases hlogin : login ∈ hidden
    · exact discreet_refused hlogin htried
    · refine Blind.bind (discreet_call (fun _ _ => hlogin) fun answer _ =>
        discreet_repository answer) fun found _ => hrest found
  rw [authenticateCredentials, normalizeLogin]
  split
  · trivial
  · exact hlookup _ htried

/-! Enrollments. -/

omit [StandaloneCrypto] [SqlJson] in
theorem totpId_drawn (random : List UInt8) : TotpId ("totp_" ++ Base64Url.encode random) := by
  rw [TotpId, String.toList_append]
  exact List.prefix_append _ _

theorem discreet_totpEnrollmentChallenge {request : LoginRequest}
    (htried : (StandaloneCrypto.toLowercase (trim request.login), request.password) ∈ tried)
    (credential secret nonce challenge : List UInt8) :
    (handler.totpEnrollmentChallenge request credential secret nonce challenge).Discreet handler
      hidden tried task fun _ => True := by
  rw [totpEnrollmentChallenge]
  refine (discreet_authenticateCredentials htried).bind fun authentication _ => ?_
  split
  · refine (discreet_ofOption _ _).bind fun generated _ => ?_
    refine (discreet_ofOption _ _).bind fun encryptedSecret _ => ?_
    refine discreet_challengeStore.bind fun _ _ => ?_
    exact discreet_call (totpId_drawn credential) fun answer _ =>
      (discreet_challenged answer).bind fun _ _ => trivial
  · trivial

theorem discreet_verifyEnrollment (challengeId code : String) :
    (handler.verifyEnrollment challengeId code).Discreet handler hidden tried task
      fun verified => TotpId verified.1.credentialId := by
  rw [verifyEnrollment]
  refine discreet_challengeStore.bind fun _ _ => ?_
  have hconsume : (StandaloneProgram.consumeChallenge challengeId).Discreet handler hidden tried
      task fun found => ∀ challenge, found = some challenge → TotpId challenge.credentialId := by
    refine discreet_call trivial fun answer htold => ?_
    cases answer with
    | error error => trivial
    | ok found => exact fun challenge hfound => htold challenge (congrArg Except.ok hfound)
  refine hconsume.bind fun found hfound => ?_
  refine (discreet_ofOption _ found).bind fun challenge hchallenge => ?_
  refine (discreet_ofOption _ _).bind fun secret _ => discreet_clock.bind fun now _ => ?_
  refine (discreet_ofOption _ _).bind fun counter _ => ?_
  exact (discreet_ofOption _ counter).bind fun counter _ => hfound challenge hchallenge

variable [Wire] [Keys]

theorem discreet_totpEnrollmentVerify (challengeId code : String) (random : List UInt8) :
    (handler.totpEnrollmentVerify challengeId code random).Discreet handler hidden tried task
      fun _ => True := by
  rw [totpEnrollmentVerify]
  split
  · refine (discreet_verifyEnrollment challengeId code).bind fun verified hverified => ?_
    refine (discreet_ofOption _ _).bind fun identity _ => ?_
    have hkind : (totpCredential verified.1 identity verified.2).kind ≠ .password :=
      show StandaloneCredentialKind.totp ≠ .password by decide
    refine Blind.bind (q := fun _ => True) ?_ fun _ _ => discreet_clock.bind fun now _ => ?_
    · exact discreet_call ⟨hkind, hverified⟩ fun answer _ => discreet_repository answer
    · exact (discreet_converge _).bind fun _ _ => trivial
  · trivial

/-- A request of the run goes on alike over both stores. -/
theorem discreet_serve {request : StandaloneRequest}
    (htried : ∀ attempt, request.attempt = some attempt → attempt ∈ tried) :
    (handler.serve request).Discreet handler hidden tried task fun _ => True := by
  cases request with
  | login request random =>
      refine (discreet_authenticateCredentials (htried _ rfl)).bind fun authentication _ => ?_
      exact (discreet_converge _).bind fun _ _ => trivial
  | stepUp principalId request random =>
      rw [serve, stepUp]
      split
      · refine (discreet_authenticateCredentials (htried _ rfl)).bind fun authentication _ => ?_
        exact (discreet_converge _).bind fun _ _ => trivial
      · trivial
  | enrollmentChallenge request credential secret nonce challenge =>
      exact discreet_totpEnrollmentChallenge (htried _ rfl) credential secret nonce challenge
  | enrollmentVerify challengeId code random =>
      exact discreet_totpEnrollmentVerify challengeId code random

/-- Over the other store the same events make a run in which every request has made the
same calls and has the same reply or what is left to do, and the stores still differ in the
concealed accounts only. -/
theorem concealed_accounts {events : List StandaloneEvent} {store other : StandaloneStore}
    (h : handler.Indistinct hidden (attempts events) store other) {final : StandalonePool}
    (hrun : Runs.run handler.standaloneStep (Pool.idle store) events = some final) :
    ∃ final', Runs.run handler.standaloneStep (Pool.idle other) events = some final' ∧
      final'.tasks = final.tasks ∧
      handler.Indistinct hidden (attempts events) final.store final'.store := by
  have hserve : ∀ request, .start request ∈ events → ∀ task,
      (handler.serve request).Discreet handler hidden (attempts events) task fun _ => True := by
    intro request hstart task
    refine discreet_serve fun attempt hattempt => ?_
    exact List.mem_filterMap.mpr ⟨.start request, hstart, hattempt⟩
  obtain ⟨final', hfinal, hparallel⟩ :=
    Pool.run_parallel hserve (Pool.parallel_idle h) hrun
  exact ⟨final', hfinal, hparallel.tasks, hparallel.stores⟩

end

/-! An account and a stranger, beside one who logs in. -/

namespace TwoLogins

def bob : ExternalIdentityKey := ⟨"standalone", "https://login.example", "bob"⟩

def neighbours : IamDatabase where
  principals := ⟨[principal, ⟨⟨"P_2", .user, .active⟩, "Bob", .empty⟩], by decide⟩
  identities :=
    ⟨[⟨"P_1", "standalone", "https://login.example", "alice", .object []⟩,
      ⟨"P_2", "standalone", "https://login.example", "bob", .object []⟩], by decide⟩
  principals_checked := by decide
  identities_checked := by decide
  identities_principal := by decide

def alicePassword : CredentialRow :=
  ⟨⟨"pwd_a", identity, .password, some "alice", some passwordHash, none⟩, 0, false⟩

def bobPassword : CredentialRow :=
  ⟨⟨"pwd_b", bob, .password, some "bob", some passwordHash, none⟩, 1, false⟩

def registered : StandaloneStore :=
  ⟨neighbours, ⟨[alicePassword, bobPassword], by decide⟩, [], [], []⟩

def stranger : StandaloneStore := ⟨neighbours, ⟨[bobPassword], by decide⟩, [], [], []⟩

def guesses : List StandaloneEvent :=
  [.start (.login ⟨"alice", "guess", none, "/"⟩ [1]),
    .start (.login ⟨"bob", "password", none, "/"⟩ [2])] ++
    [1, 0, 1, 1, 1, 1].map (.resume · (.answered 59))

theorem attempts_guesses :
    @attempts crypto guesses = [("alice", "guess"), ("bob", "password")] := by
  decide +kernel

theorem registered_indistinct :
    @Indistinct handler ["alice"] crypto (@attempts crypto guesses) registered stranger := by
  have hbob : handler.conceals ["alice"] bobPassword = false := by decide +kernel
  have hclaims : ∀ row ∈ neighbours.identities.rows, row.claims.asObject.isSome := by
    intro row hrow
    obtain rfl | rfl := List.mem_pair.mp hrow <;> rfl
  have hrows : ∀ row ∈ registered.credentials.rows, handler.conceals ["alice"] row = true →
      row = alicePassword := by
    intro row hrow hconceals
    obtain rfl | rfl := List.mem_pair.mp hrow
    · rfl
    · rw [hbob] at hconceals
      cases hconceals
  have hregistered : @Refuses handler ["alice"] crypto (@attempts crypto guesses) registered := by
    refine @Refuses.mk handler ["alice"] crypto _ _ (fun row hrow hconceals => ?_)
      (fun row hrow hconceals => ?_) (fun row hrow hconceals => ?_) hclaims
      fun entry hentry => absurd hentry List.not_mem_nil
    · obtain rfl := hrows row hrow hconceals
      rw [attempts_guesses]
      decide +kernel
    · obtain rfl := hrows row hrow hconceals
      rfl
    · obtain rfl := hrows row hrow hconceals
      exact ⟨['a'], rfl⟩
  have hstranger : ∀ row ∈ stranger.credentials.rows, handler.conceals ["alice"] row ≠ true := by
    intro row hrow
    rw [List.mem_singleton.mp hrow, hbob]
    decide
  have hother : @Refuses handler ["alice"] crypto (@attempts crypto guesses) stranger :=
    @Refuses.mk handler ["alice"] crypto _ _
      (fun row hrow hconceals => absurd hconceals (hstranger row hrow))
      (fun row hrow hconceals => absurd hconceals (hstranger row hrow))
      (fun row hrow hconceals => absurd hconceals (hstranger row hrow)) hclaims
      fun entry hentry => absurd hentry List.not_mem_nil
  exact @Indistinct.mk handler ["alice"] crypto _ _ _ rfl hregistered hother

/-- The guess at a password fails alike where nobody has the login; the other login ends. -/
theorem guesses_alike : ∃ final final',
    Runs.run (@StandaloneHandler.standaloneStep crypto (Documents.wire []) Archive.unsigned sqlJson
      handler) (Pool.idle registered) guesses = some final ∧
    Runs.run (@StandaloneHandler.standaloneStep crypto (Documents.wire []) Archive.unsigned sqlJson
      handler) (Pool.idle stranger) guesses = some final' ∧
    final.tasks.all (·.2.isDone) ∧ final'.tasks = final.tasks := by
  obtain ⟨final, hfinal, hdone⟩ := Runs.exists_run_of_any
    (p := fun final : StandalonePool => final.tasks.all (·.2.isDone) = true)
    (show (Runs.run (@StandaloneHandler.standaloneStep crypto (Documents.wire []) Archive.unsigned
      sqlJson handler) (Pool.idle registered) guesses).any _ = true by decide +kernel)
  obtain ⟨final', hfinal', hsame, -⟩ :=
    @concealed_accounts crypto sqlJson handler ["alice"] (Documents.wire []) Archive.unsigned
      guesses registered stranger registered_indistinct final hfinal
  exact ⟨final, final', hfinal, hfinal', hdone, hsame⟩

end TwoLogins

end Authguard
