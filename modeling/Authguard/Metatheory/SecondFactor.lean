import Authguard.Authn.StandaloneLogin
import Authguard.Metatheory.PolicyDecision
import Authguard.Metatheory.TokenIssuing
import Authguard.Metatheory.TotpReplay

/-!
What the policy engine learns of a second factor. A login that verified a code
lists the methods `pwd` and `otp`; the reader of the token looks for `mfa` among
them, so the condition `subject.mfa` never sees the code.
-/

namespace Authguard
open Program

/-- What is relied on of `serde_json`: an object it wrote is read back with its fields. -/
def Wire.KeepsWritten [Wire] : Prop :=
  ∀ fields payload, (fields.map Prod.fst).Nodup → Wire.toVec (.object fields) = .ok payload →
    Wire.KeepsObject fields

/-! The claim a token is read with. -/

theorem fromClaims_mfa {object : List (String × Json)} {principalIdClaim kindClaim groupsClaim : String}
    {context : AuthenticatedPrincipalContext}
    (h : AuthenticatedPrincipalContext.fromClaims object principalIdClaim kindClaim groupsClaim =
      .ok context) :
    readStringArray (object.lookup "amr") = .ok context.amr ∧
      context.trustedClaims.get "mfa" = some (toString (context.amr.contains "mfa")) := by
  rw [AuthenticatedPrincipalContext.fromClaims] at h
  split at h
  · cases h
  · split at h
    · cases h
    · split at h
      · cases h
      · obtain ⟨groups, -, h⟩ := Result.bind_ok_iff.mp h
        dsimp only at h
        split at h
        · cases h
        · obtain ⟨amr, hamr, h⟩ := Result.bind_ok_iff.mp h
          cases h
          exact ⟨hamr, by rw [SortedMap.get_insert, if_pos rfl]⟩

section
variable [Wire] [Keys]

/-- The methods of the login are those the token is read with. -/
theorem issued_mfa (hwire : Wire.Standard) (hjson : Wire.KeepsWritten) {issuer : TokenIssuer}
    {now : Nat} {principal : AuthenticatedPrincipalContext} {authentication : AuthenticationResult}
    {token : String}
    (hissued : issuer.issue now (projectAuthorizationContext principal authentication)
      authentication = .ok token) {principalIdClaim kindClaim groupsClaim : String}
    {context : AuthenticatedPrincipalContext}
    (hread : AuthenticatedPrincipalContext.fromVerifiedJwtWithClaims token principalIdClaim
      kindClaim groupsClaim = .ok context) :
    context.trustedClaims.get "mfa" = some (toString (authentication.amr.contains "mfa")) := by
  rw [TokenIssuer.issue] at hissued
  split at hissued
  · cases hissued
  · split at hissued
    · cases hissued
    · dsimp only at hissued
      split at hissued
      · cases hissued
      · rename_i payload hpayload
        cases hissued
        have hnodup := nodup_issuedClaims principal authentication issuer now
        obtain ⟨written, read, hwritten, hne, hslice, hperm⟩ := hjson _ payload hnodup hpayload
        rw [hpayload, Except.ok.injEq] at hwritten
        subst hwritten
        rw [fromVerifiedJwtWithClaims_signJwt hwire hne hslice] at hread
        obtain ⟨hamr, hmfa⟩ := fromClaims_mfa hread
        rw [SortedMap.lookup_perm hperm ((hperm.map Prod.fst).nodup_iff.mpr hnodup),
          lookup_issuedClaims] at hamr
        have hsame : context.amr = authentication.amr := by
          simpa [readStringArray_strings] using hamr.symm
        rw [hmfa, hsame]

end

/-! One login, whatever its calls answer. -/

abbrev StandaloneTrace := List (Σ call : StandaloneCall, call.Answer)

/-- The repository lists no TOTP credential for the identity. -/
def NoSecondFactor (trace : StandaloneTrace) : Prop :=
  ∃ identity, ⟨.listByIdentity identity .totp, .ok []⟩ ∈ trace

/-- A code was accepted for a TOTP credential. -/
def CodeVerified (trace : StandaloneTrace) : Prop :=
  ∃ credentialId counter, ⟨.advanceTotpCounter credentialId counter, .ok true⟩ ∈ trace

def listsNone : (Σ call : StandaloneCall, call.Answer) → Bool
  | ⟨.listByIdentity _ .totp, .ok []⟩ => true
  | _ => false

def acceptsCode : (Σ call : StandaloneCall, call.Answer) → Bool
  | ⟨.advanceTotpCounter _ _, .ok true⟩ => true
  | _ => false

theorem any_listsNone {trace : StandaloneTrace} :
    trace.any listsNone = true ↔ NoSecondFactor trace := by
  rw [List.any_eq_true]
  constructor
  · rintro ⟨entry, hmem, hlists⟩
    rw [listsNone.eq_def] at hlists
    split at hlists
    · exact ⟨_, hmem⟩
    · cases hlists
  · rintro ⟨identity, hmem⟩
    exact ⟨_, hmem, rfl⟩

theorem any_acceptsCode {trace : StandaloneTrace} :
    trace.any acceptsCode = true ↔ CodeVerified trace := by
  rw [List.any_eq_true]
  constructor
  · rintro ⟨entry, hmem, haccepts⟩
    rw [acceptsCode.eq_def] at haccepts
    split at haccepts
    · exact ⟨_, _, hmem⟩
    · cases haccepts
  · rintro ⟨credentialId, counter, hmem⟩
    exact ⟨_, hmem, rfl⟩

instance (trace : StandaloneTrace) : Decidable (NoSecondFactor trace) :=
  decidable_of_iff _ any_listsNone

instance (trace : StandaloneTrace) : Decidable (CodeVerified trace) :=
  decidable_of_iff _ any_acceptsCode

section
variable {trace : StandaloneTrace}

theorem traced_repository {α : Type} {answer : Except CredentialRepositoryError α} {value : α}
    (h : Traced (StandaloneProgram.repository answer) trace (.ok value)) :
    trace = [] ∧ answer = .ok value := by
  cases answer with
  | error error => cases h
  | ok found =>
      cases h
      exact ⟨rfl, rfl⟩

theorem traced_ofOption {α : Type} {error : ApiError} {found : Option α} {value : α}
    (h : Traced (StandaloneProgram.ofOption error found) trace (.ok value)) :
    trace = [] ∧ found = some value := by
  cases found with
  | none => cases h
  | some found =>
      cases h
      exact ⟨rfl, rfl⟩

theorem traced_clock {now : Nat} (h : Traced StandaloneProgram.clock trace (.ok now)) :
    trace = [⟨.clock, now⟩] := by
  cases h with
  | call hrest =>
      cases hrest
      rfl

/-- The calls of the second factor. -/
def ChecksCode : StandaloneCall → Prop
  | .clock | .advanceTotpCounter _ _ => True
  | _ => False

section
variable [StandaloneCrypto]

theorem traced_verifyCredentials {subject code : String}
    {credentials : List IamStandaloneCredential} {verified : Bool}
    (h : Traced (StandaloneHandler.verifyCredentials subject code credentials) trace
      (.ok verified)) :
    (∀ entry ∈ trace, ChecksCode entry.1) ∧ (verified = true → CodeVerified trace) := by
  induction credentials generalizing trace with
  | nil =>
      cases h
      exact ⟨fun _ hentry => absurd hentry List.not_mem_nil, fun h => nomatch h⟩
  | cons credential credentials ih =>
      rw [StandaloneHandler.verifyCredentials] at h
      split at h
      · exact ih h
      · obtain ⟨secret, first, rest, rfl, hsecret, hread⟩ := h.of_bind
        obtain ⟨rfl, -⟩ := traced_ofOption hsecret
        obtain ⟨now, clock, rest, rfl, hclock, hchecked⟩ := hread.of_bind
        obtain rfl := traced_clock hclock
        obtain ⟨counter, none, rest, rfl, hcounter, hmatched⟩ := hchecked.of_bind
        obtain ⟨rfl, -⟩ := traced_ofOption hcounter
        simp only [List.nil_append, List.singleton_append, List.forall_mem_cons]
        cases counter with
        | none =>
            obtain ⟨hcalls, hverified⟩ := ih hmatched
            refine ⟨⟨trivial, hcalls⟩, fun htrue => ?_⟩
            obtain ⟨id, counter, hmem⟩ := hverified htrue
            exact ⟨id, counter, List.mem_cons_of_mem _ hmem⟩
        | some counter =>
            cases hmatched with
            | call hrest =>
                obtain ⟨rfl, rfl⟩ := traced_repository hrest
                refine ⟨⟨trivial, List.forall_mem_singleton.mpr trivial⟩, ?_⟩
                rintro rfl
                exact ⟨credential.id, counter, by simp⟩

variable {handler : StandaloneHandler}

theorem traced_secondFactor {found : StandaloneCredentialIdentity}
    {totpCredentials : List IamStandaloneCredential} {totp : Option String} {amr : List String}
    (h : Traced (handler.secondFactor found totpCredentials totp) trace (.ok amr)) :
    (∀ entry ∈ trace, ChecksCode entry.1) ∧
      ((totpCredentials = [] ∧ amr = ["pwd"] ∧ trace = []) ∨
        (totpCredentials ≠ [] ∧ amr = ["pwd", "otp"] ∧ CodeVerified trace)) := by
  rw [StandaloneHandler.secondFactor] at h
  split at h
  · rename_i hempty
    cases h
    exact ⟨fun _ hentry => absurd hentry List.not_mem_nil,
      .inl ⟨List.isEmpty_iff.mp hempty, rfl, rfl⟩⟩
  · rename_i hlisted
    obtain ⟨code, none, rest, rfl, hcode, hgiven⟩ := h.of_bind
    obtain ⟨rfl, -⟩ := traced_ofOption hcode
    obtain ⟨verified, checks, rest, rfl, hchecks, hdecided⟩ := hgiven.of_bind
    rw [StandaloneHandler.verifyTotp] at hchecks
    split at hchecks
    · obtain ⟨hcalls, hverified⟩ := traced_verifyCredentials hchecks
      cases verified with
      | false => cases hdecided
      | true =>
          cases hdecided
          refine ⟨by simpa using hcalls, .inr ⟨by simpa using hlisted, rfl, ?_⟩⟩
          simpa using hverified rfl
    · cases hchecks

/-- What a login that verified its credentials went through. -/
theorem traced_authenticateCredentials {request : LoginRequest}
    {authentication : AuthenticationResult}
    (h : Traced (handler.authenticateCredentials request) trace (.ok authentication)) :
    (authentication.amr = ["pwd"] ∧ NoSecondFactor trace ∧ ¬CodeVerified trace) ∨
      (authentication.amr = ["pwd", "otp"] ∧ ¬NoSecondFactor trace ∧ CodeVerified trace) := by
  rw [StandaloneHandler.authenticateCredentials] at h
  obtain ⟨login, none, rest, rfl, hlogin, hnamed⟩ := h.of_bind
  have hnone : none = [] := by
    rw [normalizeLogin] at hlogin
    split at hlogin
    · cases hlogin
    · cases hlogin
      rfl
  subst hnone
  obtain ⟨found, find, rest, rfl, hfind, hfound⟩ := hnamed.of_bind
  cases hfind with
  | call hanswer =>
      obtain ⟨rfl, rfl⟩ := traced_repository hanswer
      dsimp only at hfound
      split at hfound
      · obtain ⟨known, none, rest, rfl, hknown, hpassed⟩ := hfound.of_bind
        obtain ⟨rfl, -⟩ := traced_ofOption hknown
        obtain ⟨listed, list, rest, rfl, hlist, hlisted⟩ := hpassed.of_bind
        cases hlist with
        | call hanswer =>
            obtain ⟨rfl, rfl⟩ := traced_repository hanswer
            obtain ⟨amr, checks, rest, rfl, hchecks, hchecked⟩ := hlisted.of_bind
            obtain ⟨now, clock, rest, rfl, hclock, hdone⟩ := hchecked.of_bind
            obtain rfl := traced_clock hclock
            cases hdone
            obtain ⟨hcalls, ⟨rfl, rfl, rfl⟩ | ⟨hne, rfl, id, counter, hmem⟩⟩ :=
              traced_secondFactor hchecks
            · refine .inl ⟨rfl, ⟨known.credential.identity, by simp⟩, ?_⟩
              rintro ⟨id, counter, hmem⟩
              simp only [List.nil_append, List.append_nil, List.singleton_append, List.mem_cons,
                List.not_mem_nil, or_false] at hmem
              rcases hmem with hmem | hmem | hmem
              · cases hmem
              · cases hmem
              · cases hmem
            · refine .inr ⟨rfl, ?_, id, counter, by simp [hmem]⟩
              rintro ⟨identity, hother⟩
              simp only [List.nil_append, List.append_nil, List.singleton_append, List.mem_cons,
                List.mem_append, List.not_mem_nil, or_false] at hother
              rcases hother with hother | hother | hother | hother
              · cases hother
              · cases hother
                exact hne rfl
              · exact hcalls _ hother
              · cases hother
      · cases hfound

end

/-! The token of a login. -/

variable [Wire] [Keys]

/-- The calls of the pipeline. -/
def PipelineOnly : StandaloneCall → Prop
  | .pipeline _ => True
  | _ => False

theorem within_issuedBy (pipeline : AuthenticationPipeline) (authentication : AuthenticationResult)
    (kind : PrincipalKind) (random : List UInt8) :
    (pipeline.login authentication kind random).Within (fun _ => True) fun issued =>
      ∃ now principal, pipeline.tokens.issue now
        (projectAuthorizationContext principal authentication) authentication =
          .ok issued.accessToken := by
  have hany : ∀ {β : Type} (program : PipelineProgram β),
      program.Within (fun _ => True) fun _ => True := by
    intro β program
    induction program with
    | ok result => trivial
    | fail error => trivial
    | call name next ih => exact ⟨trivial, ih⟩
  have hissue : ∀ (principal : AuthenticatedPrincipalContext) (now : Nat),
      (pipeline.issueAt authentication (projectAuthorizationContext principal authentication)
        now).Within (fun _ => True) fun issued => ∃ now principal, pipeline.tokens.issue now
          (projectAuthorizationContext principal authentication) authentication =
            .ok issued.accessToken := by
    intro principal now
    rw [AuthenticationPipeline.issueAt]
    split
    · trivial
    · rename_i token htoken
      exact ⟨now, principal, htoken⟩
  exact (hany _).bind fun principal _ => ⟨trivial, hissue principal⟩

/-- The context the token is read with satisfies `subject.mfa = true`. -/
def MfaSatisfied (properties : IdentityProperties) (request : WorkloadRequest) (token : String) :
    Prop :=
  ∃ context, AuthenticatedPrincipalContext.fromVerifiedJwtWithClaims token
      properties.principalIdClaim properties.principalKindClaim properties.groupsClaim =
        .ok context ∧
    ({ mfa := some true } : SubjectConditionSpec).matches (evaluationContext request context) = true

/-- The condition is met exactly by logins that verified a code. -/
structure EvidenceReaches (properties : IdentityProperties) (request : WorkloadRequest)
    (trace : StandaloneTrace) (token : String) : Prop where
  verified : CodeVerified trace → MfaSatisfied properties request token
  passwordOnly : ¬CodeVerified trace → ¬MfaSatisfied properties request token

theorem mfa_not_satisfied (hwire : Wire.Standard) (hjson : Wire.KeepsWritten)
    {issuer : TokenIssuer} {now : Nat} {principal : AuthenticatedPrincipalContext}
    {authentication : AuthenticationResult} {token : String}
    (hissued : issuer.issue now (projectAuthorizationContext principal authentication)
      authentication = .ok token) (hamr : "mfa" ∉ authentication.amr)
    (properties : IdentityProperties) (request : WorkloadRequest) :
    ¬MfaSatisfied properties request token := by
  rintro ⟨context, hread, hmatches⟩
  have hclaim := issued_mfa hwire hjson hissued hread
  obtain ⟨value, hvalue, hparse⟩ := (SubjectConditionSpec.matches_iff _ _).mp hmatches |>.1 true rfl
  rw [show (evaluationContext request context).claims = context.trustedClaims from rfl, hclaim,
    Option.some.injEq, List.contains_eq_mem, decide_eq_false hamr] at hvalue
  rw [← hvalue] at hparse
  exact absurd hparse (by decide)

variable [StandaloneCrypto]

section
variable (handler : StandaloneHandler) (request : LoginRequest) (random : List UInt8)
  {response : LoginResponse}

/-- What a login that issued a token went through, and that its token never satisfies the
condition. -/
structure LoginOutcome (trace : StandaloneTrace) (token : String) : Prop where
  listed : NoSecondFactor trace ↔ ¬CodeVerified trace
  unsatisfied : ∀ properties workload, ¬MfaSatisfied properties workload token

variable {handler request random}

theorem traced_login (hwire : Wire.Standard) (hjson : Wire.KeepsWritten)
    (hlogin : Traced (handler.login request random) trace (.ok (.issued response))) :
    LoginOutcome trace response.issued.accessToken := by
  rw [StandaloneHandler.login] at hlogin
  obtain ⟨authentication, first, rest, rfl, hfirst, hrest⟩ := hlogin.of_bind
  obtain ⟨issued, calls, last, rfl, hcalls, hlast⟩ := hrest.of_bind
  cases hlast
  have hwithin : (handler.pipeline.login authentication .user random).converge.Within
      PipelineOnly _ :=
    (within_issuedBy handler.pipeline authentication .user random).lift fun _ _ => trivial
  obtain ⟨honly, now, principal, hissued⟩ := hcalls.within hwithin
  have hverified : CodeVerified (first ++ (calls ++ [])) ↔ CodeVerified first := by
    constructor
    · rintro ⟨id, counter, hmem⟩
      obtain hmem | hmem := List.mem_append.mp hmem
      · exact ⟨id, counter, hmem⟩
      · exact (honly _ (List.append_nil calls ▸ hmem) : False).elim
    · rintro ⟨id, counter, hmem⟩
      exact ⟨id, counter, List.mem_append_left _ hmem⟩
  have hlisted : NoSecondFactor (first ++ (calls ++ [])) ↔ NoSecondFactor first := by
    constructor
    · rintro ⟨identity, hmem⟩
      obtain hmem | hmem := List.mem_append.mp hmem
      · exact ⟨identity, hmem⟩
      · exact (honly _ (List.append_nil calls ▸ hmem) : False).elim
    · rintro ⟨identity, hmem⟩
      exact ⟨identity, List.mem_append_left _ hmem⟩
  obtain ⟨hamr, hnone, hunverified⟩ | ⟨hamr, hsome, hcode⟩ := traced_authenticateCredentials hfirst
  · exact ⟨iff_of_true (hlisted.mpr hnone) fun hcode => hunverified (hverified.mp hcode),
      mfa_not_satisfied hwire hjson hissued (by rw [hamr]; decide)⟩
  · exact ⟨iff_of_false (fun hnone => hsome (hlisted.mp hnone))
        (not_not_intro (hverified.mpr hcode)),
      mfa_not_satisfied hwire hjson hissued (by rw [hamr]; decide)⟩

end

/-- The evidence of a login reaches the condition exactly when there was no second factor to
give evidence of. -/
theorem evidence_reaches_iff (hwire : Wire.Standard) (hjson : Wire.KeepsWritten)
    (handler : StandaloneHandler) (request : LoginRequest) (random : List UInt8)
    {response : LoginResponse}
    (hlogin : Traced (handler.login request random) trace (.ok (.issued response)))
    (properties : IdentityProperties) (workload : WorkloadRequest) :
    EvidenceReaches properties workload trace response.issued.accessToken ↔
      NoSecondFactor trace := by
  obtain ⟨hlisted, hunsatisfied⟩ := traced_login hwire hjson hlogin
  have hmfa := hunsatisfied properties workload
  rw [hlisted]
  constructor
  · exact fun hreaches hcode => hmfa (hreaches.verified hcode)
  · exact fun hnone => ⟨fun hcode => absurd hcode hnone, fun _ => hmfa⟩

end

/-! The crates on the token of one login. -/

namespace Documents

/-- Equal texts, numbers and lists of texts. -/
def sameValue : Json → Json → Bool
  | .string value, .string other => value = other
  | .number value, .number other => value = other
  | .array items, .array others =>
      items.all (·.toStr.isSome) && items.map Json.toStr = others.map Json.toStr
  | _, _ => false

def sameFields : List (String × Json) → List (String × Json) → Bool
  | [], [] => true
  | field :: fields, other :: others =>
      field.1 = other.1 && sameValue field.2 other.2 && sameFields fields others
  | _, _ => false

theorem toStr_eq_some {item : Json} {text : String} (h : item.toStr = some text) :
    item = .string text := by
  cases item <;> simp_all [Json.toStr]

theorem items_eq {items others : List Json} (htexts : ∀ item ∈ items, item.toStr.isSome = true)
    (hsame : items.map Json.toStr = others.map Json.toStr) : items = others := by
  induction items generalizing others with
  | nil => simpa [eq_comm] using hsame
  | cons item items ih =>
      cases others with
      | nil => simp at hsame
      | cons other others =>
          obtain ⟨hitem, hrest⟩ := List.cons.inj hsame
          obtain ⟨text, htext⟩ := Option.isSome_iff_exists.mp (htexts item List.mem_cons_self)
          have hother : other = .string text := toStr_eq_some (hitem ▸ htext)
          rw [toStr_eq_some htext, hother,
            ih (fun other hother => htexts other (List.mem_cons_of_mem _ hother)) hrest]

theorem sameValue_eq {value other : Json} (h : sameValue value other = true) : value = other := by
  unfold sameValue at h
  split at h
  · rw [of_decide_eq_true h]
  · rw [of_decide_eq_true h]
  · obtain ⟨htexts, hsame⟩ := Bool.and_eq_true_iff.mp h
    rw [items_eq (List.all_eq_true.mp htexts) (of_decide_eq_true hsame)]
  · cases h

theorem sameFields_eq {fields others : List (String × Json)}
    (h : sameFields fields others = true) : fields = others := by
  induction fields generalizing others with
  | nil =>
      cases others with
      | nil => rfl
      | cons other others => cases h
  | cons field fields ih =>
      cases others with
      | nil => cases h
      | cons other others =>
          simp only [sameFields, Bool.and_eq_true, decide_eq_true_eq] at h
          rw [ih h.2, Prod.ext h.1.1 (sameValue_eq h.1.2)]

/-- `serde_json` answers on one document only. -/
@[reducible]
def writer (document : List (String × Json)) : Wire :=
  { wire [document] with
    toVec := fun json => match json with
      | .object fields =>
          if sameFields fields document then .ok (ascii (print document)) else .error ""
      | _ => .error "" }

theorem writer_standard (document : List (String × Json)) : @Wire.Standard (writer document) :=
  @Wire.Standard.mk (writer document) (fun _ => rfl) (fun _ => rfl) (fun _ => rfl) (fun _ => rfl)
    fun _ => rfl

theorem writer_keepsWritten (document : List (String × Json)) :
    @Wire.KeepsWritten (writer document) := by
  intro fields payload _ hwritten
  change (if sameFields fields document then _ else _) = _ at hwritten
  split at hwritten
  · rename_i hsame
    obtain rfl := sameFields_eq hsame
    refine ⟨ascii (print fields), fields, ?_, ascii_print_ne_nil fields, ?_, .refl fields⟩
    · change (if sameFields fields fields then _ else _) = _
      rw [if_pos hsame]
    · exact wire_fromSlice_first fields []
  · cases hwritten

end Documents

namespace TwoLogins
open Documents

def external : ExternalIdentity :=
  ⟨"standalone", "https://login.example", "alice", .ofList [("mfa", .string "true")]⟩

/-- The repositories answer with one account; the claims stored with it boast a second
factor. -/
def answers (listed : List IamStandaloneCredential) : ∀ call : StandaloneCall, call.Answer
  | .pipeline (.identity (.findPrincipalByIdentity _)) =>
      (.ok (some principal) : Except IdentityRepositoryError (Option PrincipalRow))
  | .pipeline (.identity (.createPrincipalAndBind _ _)) =>
      (.error (.backend "") : Except IdentityRepositoryError PrincipalRow)
  | .pipeline (.identity (.bindIdentity _ _)) =>
      (.error (.backend "") : Except IdentityRepositoryError PrincipalRow)
  | .pipeline (.identity (.principalHasProvider _ _)) =>
      (.error (.backend "") : Except IdentityRepositoryError Bool)
  | .pipeline .now | .clock => (59 : Nat)
  | .findByKey _ _ _ =>
      (.ok (some ⟨external, password.toIamStandaloneCredential⟩) :
        Except CredentialRepositoryError (Option StandaloneCredentialIdentity))
  | .listByIdentity _ _ =>
      (.ok listed : Except CredentialRepositoryError (List IamStandaloneCredential))
  | .createCredential _ => (.error (.backend "") : Except CredentialRepositoryError Unit)
  | .advanceTotpCounter _ _ => (.ok true : Except CredentialRepositoryError Bool)
  | .putChallenge _ _ => (.error .backend : Except ChallengeError Unit)
  | .consumeChallenge _ => (.error .backend : Except ChallengeError (Option TotpEnrollmentChallenge))

/-- The claims of the token, for the methods of the login. -/
def tokenFields (amr : List String) : List (String × Json) :=
  let authentication := AuthenticationResult.new external amr none 59
  handler.pipeline.tokens.claims 59 59
    (projectAuthorizationContext ⟨"P_1", .user, [], .empty, none, amr⟩ authentication)
    authentication

def loginRequest (totp : Option String) : LoginRequest := ⟨"alice", "password", totp, "/"⟩

def issuedTo : StandaloneTrace × Except ApiError StandaloneReply → Option LoginResponse
  | (_, .ok (.issued response)) => some response
  | _ => none

theorem of_issuedTo {run : StandaloneTrace × Except ApiError StandaloneReply}
    {response : LoginResponse} (h : issuedTo run = some response) :
    run.2 = .ok (.issued response) := by
  rw [issuedTo.eq_def] at h
  split at h
  · rw [Option.some.inj h]
  · cases h

def properties : IdentityProperties :=
  ⟨"authorization", "principal_id", "principal_kind", "authguard_group_ids"⟩

def workload : WorkloadRequest where
  method := "GET"
  host := "payroll.internal"
  path := "/payrolls/january"
  headers := []
  sourceIp := none
  secureTransport := true

/-- The account without a second factor. -/
def passwordLogin : StandaloneTrace × Except ApiError StandaloneReply :=
  (@StandaloneHandler.login crypto handler (writer (tokenFields ["pwd"])) Archive.unsigned
    (loginRequest none) [1]).follow (answers [])

theorem passwordLogin_reaches :
    ∃ response, passwordLogin.2 = .ok (.issued response) ∧
      @EvidenceReaches (writer (tokenFields ["pwd"])) properties workload passwordLogin.1
        response.issued.accessToken := by
  have hissued : (issuedTo passwordLogin).isSome = true := by
    decide +kernel
  have hlisted : NoSecondFactor passwordLogin.1 := by
    decide +kernel
  obtain ⟨response, hresponse⟩ := Option.isSome_iff_exists.mp hissued
  have hlogin := of_issuedTo hresponse
  have htraced := hlogin ▸ traced_follow (answers []) (@StandaloneHandler.login crypto handler
    (writer (tokenFields ["pwd"])) Archive.unsigned (loginRequest none) [1])
  exact ⟨response, hlogin, (@evidence_reaches_iff passwordLogin.1 (writer (tokenFields ["pwd"]))
    Archive.unsigned crypto (writer_standard _) (writer_keepsWritten _) handler (loginRequest none)
    [1] response htraced properties workload).mpr hlisted⟩

/-- The account with its second factor. -/
def codeLogin : StandaloneTrace × Except ApiError StandaloneReply :=
  (@StandaloneHandler.login crypto handler (writer (tokenFields ["pwd", "otp"])) Archive.unsigned
    (loginRequest (some "287082")) [1]).follow (answers [totp.toIamStandaloneCredential])

/-- Password and code were verified, and the token does not show it. -/
theorem codeLogin_unsatisfied :
    ∃ response, codeLogin.2 = .ok (.issued response) ∧ CodeVerified codeLogin.1 ∧
      ¬@MfaSatisfied (writer (tokenFields ["pwd", "otp"])) properties workload
        response.issued.accessToken := by
  have hissued : (issuedTo codeLogin).isSome = true := by
    decide +kernel
  have hverified : CodeVerified codeLogin.1 := by
    decide +kernel
  obtain ⟨response, hresponse⟩ := Option.isSome_iff_exists.mp hissued
  have hlogin := of_issuedTo hresponse
  have htraced := hlogin ▸ traced_follow (answers [totp.toIamStandaloneCredential])
    (@StandaloneHandler.login crypto handler (writer (tokenFields ["pwd", "otp"])) Archive.unsigned
      (loginRequest (some "287082")) [1])
  obtain ⟨-, hunsatisfied⟩ := @traced_login codeLogin.1 (writer (tokenFields ["pwd", "otp"]))
    Archive.unsigned crypto handler (loginRequest (some "287082")) [1] response
    (writer_standard _) (writer_keepsWritten _) htraced
  exact ⟨response, hlogin, hverified, hunsatisfied properties workload⟩

end TwoLogins

end Authguard
