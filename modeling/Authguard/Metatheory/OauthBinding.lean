import Authguard.Authn.OauthFlow
import Authguard.Metatheory.IdentityBinding
import Authguard.Metatheory.ReturnTargets
import Authguard.Metatheory.TokenIssuing

/-!
Flows of external providers under any interleaving. A callback that succeeds uses up a
flow that an earlier request opened under its state value; the provider, the nonce and
the verifier are those of that flow, and so is the principal a link is for. Who sends
the callback is not looked at: the state value is all that ties it to the flow.
-/

namespace Authguard
open Program

/-! Flows. -/

/-- The requests that open flows: whom they are to link, and the bytes they draw. -/
inductive OAuthRequest.Starts (provider : String) :
    OAuthRequest → Option String → List UInt8 → List UInt8 → Prop
  | authorize (query : AuthorizeQuery) (host : Option String) (state drawn : List UInt8) :
      Starts provider (.authorize provider query host state drawn) none state drawn
  | linkAuthorize (principalId : String) (query : AuthorizeQuery) (host : Option String)
      (state drawn : List UInt8) :
      Starts provider (.linkAuthorize (.ok principalId) provider query host state drawn)
        (some principalId) state drawn

/-- The request draws the state value, and the nonce and the verifier of the flow are those
its adapter makes for it. -/
def OAuth2Handler.Creates (handler : OAuth2Handler) (request : OAuthRequest) (state : String)
    (challenge : OAuthChallenge) : Prop :=
  ∃ bytes drawn runtime authorization,
    request.Starts challenge.provider challenge.linkPrincipalId bytes drawn ∧
    state = Base64Url.encode bytes ∧
    handler.providers.get challenge.provider = some runtime ∧
    runtime.authorize runtime.clientId runtime.callbackUrl state drawn = some authorization ∧
    challenge.nonce = authorization.nonce ∧ challenge.pkceVerifier = authorization.pkceVerifier

/-- What a callback rests on: it took the flow under its state value, which is for its
provider, and the provider answered its code, with the nonce and the verifier of the flow. -/
structure OAuth2Handler.Completes (handler : OAuth2Handler) (journal : List FlowRecord)
    (task : Nat) (provider : String) (query : CallbackQuery) (challenge : OAuthChallenge)
    (authentication : AuthenticationResult) : Prop where
  used : ∃ opened, .used task opened query.state challenge ∈ journal
  provider_eq : challenge.provider = provider
  answered : ∃ runtime identity now, handler.providers.get provider = some runtime ∧
    .authenticated task provider (runtime.callback query.code challenge) identity ∈ journal ∧
    authentication = providerAuthentication identity runtime.protocol now

/-- What a completed flow asks of the pipeline. -/
def OAuthChallenge.request (challenge : OAuthChallenge) (authentication : AuthenticationResult)
    (random : List UInt8) : LinkRequest :=
  match challenge.linkPrincipalId with
  | some principalId => .linkIdentity principalId authentication
  | none => .resolveLogin authentication .user random

/-- The binding was made by a callback: of the identity the provider answered, to the principal
the flow is to link or the one the login creates. -/
def OAuth2Handler.Bound (handler : OAuth2Handler) (requests : Nat → Option SentRequest)
    (journal : List FlowRecord) (row : IamPrincipalIdentityInfo) : Prop :=
  ∃ task sent provider query random challenge authentication,
    requests task = some sent ∧ sent.request = .callback provider query random ∧
    handler.Completes journal task provider query challenge authentication ∧
    row.key = authentication.externalIdentity.bindingKey ∧
    row.principalId = (challenge.request authentication random).target

section
variable {handler : OAuth2Handler} {requests : Nat → Option SentRequest}
  {journal longer : List FlowRecord}

theorem OAuth2Handler.Completes.later {task : Nat} {provider : String} {query : CallbackQuery}
    {challenge : OAuthChallenge} {authentication : AuthenticationResult}
    (h : handler.Completes journal task provider query challenge authentication)
    (hlonger : journal <+: longer) :
    handler.Completes longer task provider query challenge authentication := by
  obtain ⟨opened, hused⟩ := h.used
  obtain ⟨runtime, identity, now, hruntime, hanswered, heq⟩ := h.answered
  exact ⟨⟨opened, hlonger.subset hused⟩, h.provider_eq,
    runtime, identity, now, hruntime, hlonger.subset hanswered, heq⟩

theorem OAuth2Handler.Bound.later {row : IamPrincipalIdentityInfo}
    (h : handler.Bound requests journal row) (hlonger : journal <+: longer) :
    handler.Bound requests longer row := by
  obtain ⟨task, sent, provider, query, random, challenge, authentication, hsent, hrequest,
    hcompletes, hrow⟩ := h
  exact ⟨task, sent, provider, query, random, challenge, authentication, hsent, hrequest,
    hcompletes.later hlonger, hrow⟩

end

/-! The journal. -/

/-- Every flow was opened by a request that creates it, waits until it is used, and is used
once. -/
structure OAuthStore.Sound (handler : OAuth2Handler) (requests : Nat → Option SentRequest)
    (store : OAuthStore) : Prop where
  opened : ∀ task state challenge, .opened task state challenge ∈ store.journal →
    ∃ sent, requests task = some sent ∧ handler.Creates sent.request state challenge
  waiting : ∀ flow ∈ store.flows,
    (∃ task, store.journal[flow.opened]? = some (FlowRecord.opened task flow.state flow.challenge)) ∧
      ∀ task state challenge, .used task flow.opened state challenge ∉ store.journal
  used : ∀ (j task opened : Nat) (state : String) (challenge : OAuthChallenge),
    store.journal[j]? = some (FlowRecord.used task opened state challenge) →
    opened < j ∧ ∃ creator, store.journal[opened]? = some (FlowRecord.opened creator state challenge)
  once : ∀ (j j' task task' opened : Nat) (state state' : String)
    (challenge challenge' : OAuthChallenge),
    store.journal[j]? = some (FlowRecord.used task opened state challenge) →
    store.journal[j']? = some (FlowRecord.used task' opened state' challenge') → j = j'

namespace OAuthStore

section
variable {handler : OAuth2Handler} {requests : Nat → Option SentRequest} {store : OAuthStore}

theorem Sound.remove (h : store.Sound handler requests) (state : String) :
    (store.remove state).Sound handler requests :=
  { h with waiting := fun flow hflow => h.waiting flow (List.mem_filter.mp hflow).1 }

/-- An entry that is no use leaves the uses as they are. -/
theorem Sound.concat {entry : FlowRecord} {flows : List WaitingFlow}
    (h : store.Sound handler requests)
    (hentry : ∀ task opened state challenge, entry ≠ .used task opened state challenge)
    (hopened : ∀ task state challenge, entry = .opened task state challenge →
      ∃ sent, requests task = some sent ∧ handler.Creates sent.request state challenge)
    (hflows : ∀ flow ∈ flows, flow ∈ store.flows ∨ (flow.opened = store.journal.length ∧
      ∃ task, entry = .opened task flow.state flow.challenge)) :
    ({ store with flows, journal := store.journal ++ [entry] } : OAuthStore).Sound handler
      requests where
  opened task state challenge hmem := by
    obtain hmem | hmem := List.mem_append.mp hmem
    · exact h.opened task state challenge hmem
    · exact hopened task state challenge (List.mem_singleton.mp hmem).symm
  waiting flow hflow := by
    obtain hold | ⟨hindex, task, heq⟩ := hflows flow hflow
    · obtain ⟨⟨task, hopened⟩, hunused⟩ := h.waiting flow hold
      refine ⟨⟨task, ?_⟩, fun other state challenge hmem => ?_⟩
      · rw [List.getElem?_append_left (List.getElem?_eq_some_iff.mp hopened).1]
        exact hopened
      · obtain hmem | hmem := List.mem_append.mp hmem
        · exact hunused other state challenge hmem
        · exact hentry other _ state challenge (List.mem_singleton.mp hmem).symm
    · refine ⟨⟨task, by rw [hindex, List.getElem?_concat_length, heq]⟩, ?_⟩
      intro other state challenge hmem
      obtain hmem | hmem := List.mem_append.mp hmem
      · -- an earlier use would name an earlier entry
        obtain ⟨j, hj⟩ := List.mem_iff_getElem?.mp hmem
        have hlt := (h.used j other flow.opened state challenge hj).1
        have hlength := (List.getElem?_eq_some_iff.mp hj).1
        omega
      · exact hentry other _ state challenge (List.mem_singleton.mp hmem).symm
  used j task opened state challenge hj := by
    obtain ⟨-, hold, -⟩ | ⟨-, heq, -⟩ := Runs.getElem?_concat_cases hj
    · obtain ⟨hlt, creator, hopened⟩ := h.used j task opened state challenge hold
      refine ⟨hlt, creator, ?_⟩
      rw [List.getElem?_append_left (List.getElem?_eq_some_iff.mp hopened).1]
      exact hopened
    · exact absurd heq.symm (hentry task opened state challenge)
  once j j' task task' opened state state' challenge challenge' hj hj' := by
    obtain ⟨-, hold, -⟩ | ⟨-, heq, -⟩ := Runs.getElem?_concat_cases hj
    · obtain ⟨-, hold', -⟩ | ⟨-, heq, -⟩ := Runs.getElem?_concat_cases hj'
      · exact h.once j j' task task' opened state state' challenge challenge' hold hold'
      · exact absurd heq.symm (hentry task' opened state' challenge')
    · exact absurd heq.symm (hentry task opened state challenge)

theorem Sound.openFlow (h : store.Sound handler requests) {task : Nat} {sent : SentRequest}
    {state : String} {challenge : OAuthChallenge} (hsent : requests task = some sent)
    (hcreates : handler.Creates sent.request state challenge) :
    (store.openFlow task state challenge).Sound handler requests := by
  refine h.concat (by rintro _ _ _ _ ⟨⟩) ?_ ?_
  · rintro _ _ _ ⟨⟩
    exact ⟨sent, hsent, hcreates⟩
  · intro flow hflow
    obtain rfl | hflow := List.mem_cons.mp hflow
    · exact .inr ⟨rfl, task, rfl⟩
    · exact .inl (List.mem_filter.mp hflow).1

theorem Sound.authenticated (h : store.Sound handler requests) (task : Nat) (provider : String)
    (callback : OAuthLikeCallback) (identity : ExternalIdentity) :
    (store.record (.authenticated task provider callback identity)).Sound handler requests :=
  h.concat (by rintro _ _ _ _ ⟨⟩) (by rintro _ _ _ ⟨⟩) fun _ hflow => .inl hflow

/-- The flow that is taken was not used, and no other waits that the use would be of. -/
theorem Sound.take (h : store.Sound handler requests) {state : String} {flow : WaitingFlow}
    (hwaiting : store.waiting state = some flow) (task : Nat) :
    ((store.remove state).record (.used task flow.opened state flow.challenge)).Sound handler
      requests := by
  have hflow : flow ∈ store.flows := List.mem_of_find?_eq_some hwaiting
  have hstate : flow.state = state := by simpa using List.find?_some hwaiting
  obtain ⟨⟨creator, hopened⟩, hunused⟩ := h.waiting flow hflow
  have hlength := (List.getElem?_eq_some_iff.mp hopened).1
  have hkept : ∀ (i : Nat) (entry : FlowRecord), store.journal[i]? = some entry →
      (store.journal ++ [.used task flow.opened state flow.challenge])[i]? = some entry := by
    intro i entry hentry
    rw [List.getElem?_append_left (List.getElem?_eq_some_iff.mp hentry).1]
    exact hentry
  constructor
  · intro other state' challenge hmem
    obtain hmem | hmem := List.mem_append.mp hmem
    · exact h.opened other state' challenge hmem
    · cases List.mem_singleton.mp hmem
  · intro other hother
    obtain ⟨hother, hne⟩ := List.mem_filter.mp hother
    obtain ⟨⟨opener, hopener⟩, hfree⟩ := h.waiting other hother
    refine ⟨⟨opener, hkept _ _ hopener⟩, fun user state' challenge hmem => ?_⟩
    obtain hmem | hmem := List.mem_append.mp hmem
    · exact hfree user state' challenge hmem
    · rw [List.mem_singleton, FlowRecord.used.injEq] at hmem
      rw [hmem.2.1, hopened, Option.some.injEq, FlowRecord.opened.injEq] at hopener
      exact of_decide_eq_true hne (hopener.2.1.symm.trans hstate)
  · intro j user opened state' challenge hj
    obtain ⟨-, hold, -⟩ | ⟨rfl, heq, -⟩ := Runs.getElem?_concat_cases hj
    · obtain ⟨hlt, opener, hopener⟩ := h.used j user opened state' challenge hold
      exact ⟨hlt, opener, hkept _ _ hopener⟩
    · cases heq
      exact ⟨hlength, creator, hkept _ _ (hstate ▸ hopened)⟩
  · intro j j' user user' opened state' state'' challenge challenge' hj hj'
    obtain ⟨-, hold, -⟩ | ⟨rfl, heq, -⟩ := Runs.getElem?_concat_cases hj
    · obtain ⟨-, hold', -⟩ | ⟨-, heq, -⟩ := Runs.getElem?_concat_cases hj'
      · exact h.once j j' user user' opened state' state'' challenge challenge' hold hold'
      · cases heq
        exact absurd (List.mem_of_getElem? hold) (hunused user state' challenge)
    · obtain ⟨-, hold', -⟩ | ⟨rfl, -, -⟩ := Runs.getElem?_concat_cases hj'
      · cases heq
        exact absurd (List.mem_of_getElem? hold') (hunused user' state'' challenge')
      · rfl

end

end OAuthStore

/-! Programs. -/

/-- The journal grows and stays sound, no binding is lost, and every new one was made by a
callback. -/
structure KeepsFlows (handler : OAuth2Handler) (requests : Nat → Option SentRequest)
    (store after : OAuthStore) : Prop where
  journal : store.journal <+: after.journal
  sound : store.Sound handler requests → after.Sound handler requests
  kept : ∀ key row, store.iam.identities.find key = some row →
    after.iam.identities.find key = some row
  bound : ∀ row ∈ after.iam.identities.rows, row ∈ store.iam.identities.rows ∨
    handler.Bound requests after.journal row

section
variable {handler : OAuth2Handler} {requests : Nat → Option SentRequest}

instance : Std.Refl (KeepsFlows handler requests) :=
  ⟨fun store => ⟨List.prefix_refl store.journal, id, fun _ _ h => h, fun _ h => .inl h⟩⟩

instance : IsTrans OAuthStore (KeepsFlows handler requests) where
  trans first second third h h' := by
    refine ⟨h.journal.trans h'.journal, h'.sound ∘ h.sound,
      fun key row hrow => h'.kept key row (h.kept key row hrow), ?_⟩
    intro row hrow
    obtain hrow | hbound := h'.bound row hrow
    · exact (h.bound row hrow).imp_right fun hbound => hbound.later h'.journal
    · exact .inr hbound

/-- Where the tables are left as they are. -/
theorem keepsFlows_of_iam {store after : OAuthStore} (hiam : after.iam = store.iam)
    (hjournal : store.journal <+: after.journal)
    (hsound : store.Sound handler requests → after.Sound handler requests) :
    KeepsFlows handler requests store after where
  journal := hjournal
  sound := hsound
  kept key row hrow := by rw [hiam]; exact hrow
  bound row hrow := by rw [hiam] at hrow; exact .inl hrow

theorem keepsFlows_remove (store : OAuthStore) (state : String) :
    KeepsFlows handler requests store (store.remove state) :=
  keepsFlows_of_iam rfl (List.prefix_refl store.journal) fun h => h.remove state

variable (handler requests) in
/-- The program keeps the flows, as the one the task runs. -/
abbrev MeetsFlows (task : Nat) {β : Type} (post : β → OAuthStore → Prop)
    (program : OAuthProgram β) (store : OAuthStore) : Prop :=
  Program.Meets (Pool.Answers (OAuthCall.exec task) fun _ _ => True)
    (KeepsFlows handler requests) post program store

variable {task : Nat}

theorem meets_ofExcept {α β : Type} {value : Except ApiError α} {next : α → OAuthProgram β}
    {post : β → OAuthStore → Prop} {store : OAuthStore}
    (h : ∀ result, value = .ok result → MeetsFlows handler requests task post (next result) store) :
    MeetsFlows handler requests task post (OAuthProgram.ofExcept value >>= next) store := by
  cases value with
  | ok value => exact h value rfl
  | error error => exact meets_fail error store

theorem meets_ofOption {α β : Type} {error : ApiError} {value : Option α}
    {next : α → OAuthProgram β} {post : β → OAuthStore → Prop} {store : OAuthStore}
    (h : ∀ result, value = some result →
      MeetsFlows handler requests task post (next result) store) :
    MeetsFlows handler requests task post (OAuthProgram.ofOption error value >>= next) store := by
  cases value with
  | some value => exact h value rfl
  | none => exact meets_fail error store

theorem meets_putChallenge {sent : SentRequest} {state : String} {challenge : OAuthChallenge}
    (hsent : requests task = some sent) (hcreates : handler.Creates sent.request state challenge)
    (store : OAuthStore) :
    MeetsFlows handler requests task (fun _ _ => True)
      (OAuthProgram.putChallenge state challenge) store := by
  intro later hlater answer after hanswers
  obtain ⟨-, outcome, hexec⟩ := hanswers
  have hdone : MeetsFlows handler requests task (fun _ _ => True)
      (OAuthProgram.ofExcept (answer.mapError .challenge)) after := by
    cases answer with
    | ok done => exact meets_ok fun _ _ => trivial
    | error error => exact meets_fail _ after
  refine ⟨?_, hdone⟩
  have hopened : KeepsFlows handler requests later (later.openFlow task state challenge) :=
    keepsFlows_of_iam rfl (List.prefix_append _ _) fun h => h.openFlow hsent hcreates
  obtain ⟨outcome, -, hexec⟩ := Option.map_eq_some_iff.mp hexec
  cases outcome with
  | answered now | lost message now =>
      simp only [OAuthStore.putChallenge] at hexec
      split at hexec
      · cases hexec
        exact refl_of (KeepsFlows handler requests) later
      · cases hexec
        exact hopened
  | expired =>
      cases hexec
      exact hopened
  | failed message =>
      cases hexec
      exact refl_of (KeepsFlows handler requests) later

theorem meets_consumeChallenge (state : String) (store : OAuthStore) :
    MeetsFlows handler requests task
      (fun found last => ∀ challenge, found = some challenge →
        ∃ opened, .used task opened state challenge ∈ last.journal)
      (OAuthProgram.consumeChallenge state) store := by
  intro later hlater answer after hanswers
  obtain ⟨-, outcome, hexec⟩ := hanswers
  obtain ⟨outcome, -, hexec⟩ := Option.map_eq_some_iff.mp hexec
  cases outcome with
  | answered now =>
      simp only [OAuthStore.consumeChallenge] at hexec
      split at hexec
      · cases hexec
        exact ⟨refl_of (KeepsFlows handler requests) later, meets_ok fun _ _ => nofun⟩
      · rename_i flow hwaiting
        cases hexec
        refine ⟨keepsFlows_of_iam rfl (List.prefix_append _ _) fun h => h.take hwaiting task, ?_⟩
        refine meets_ok fun last hlast challenge hfound => ?_
        cases hfound
        exact ⟨flow.opened, hlast.journal.subset (List.mem_append_right _ List.mem_cons_self)⟩
  | expired =>
      cases hexec
      exact ⟨keepsFlows_remove later state, meets_ok fun _ _ => nofun⟩
  | failed message =>
      cases hexec
      exact ⟨refl_of (KeepsFlows handler requests) later, meets_fail _ later⟩
  | lost message now =>
      cases hexec
      exact ⟨keepsFlows_remove later state, meets_fail _ (later.remove state)⟩

theorem meets_authenticate (provider : String) (callback : OAuthLikeCallback)
    (store : OAuthStore) :
    MeetsFlows handler requests task
      (fun identity last => .authenticated task provider callback identity ∈ last.journal)
      (OAuthProgram.authenticate provider callback) store := by
  intro later hlater answer after hanswers
  obtain ⟨-, outcome, hexec⟩ := hanswers
  cases outcome with
  | ended outcome => cases hexec
  | authenticated answered =>
      cases answered with
      | none =>
          cases hexec
          exact ⟨refl_of (KeepsFlows handler requests) later, meets_fail _ later⟩
      | some identity =>
          cases hexec
          refine ⟨keepsFlows_of_iam rfl (List.prefix_append _ _)
            fun h => h.authenticated task provider callback identity, ?_⟩
          refine meets_ok fun last hlast => hlast.journal.subset ?_
          exact List.mem_append_right _ List.mem_cons_self

theorem meets_clock (store : OAuthStore) :
    MeetsFlows handler requests task (fun _ _ => True) OAuthProgram.clock store := by
  intro later hlater answer after hanswers
  obtain ⟨-, outcome, hexec⟩ := hanswers
  simp only [OAuthCall.exec] at hexec
  split at hexec
  · cases hexec
    exact ⟨refl_of (KeepsFlows handler requests) later, meets_ok fun _ _ => trivial⟩
  · cases hexec

/-! The pipeline of a callback. -/

theorem KeepsFlows.mem {store later : OAuthStore} (h : KeepsFlows handler requests store later)
    {entry : FlowRecord} (hentry : entry ∈ store.journal) : entry ∈ later.journal :=
  h.journal.subset hentry

theorem exec_identity {call : IdentityCall} {outcome : OAuthOutcome} {store after : OAuthStore}
    {answer : call.Answer}
    (h : OAuthCall.exec task (.pipeline (.identity call)) outcome store = some (answer, after)) :
    (∃ outcome, call.exec outcome store.iam = some (answer, after.iam)) ∧
      after = { store with iam := after.iam } := by
  obtain ⟨outcome, -, h⟩ := Option.bind_eq_some_iff.mp h
  obtain ⟨⟨answered, iam⟩, hcall, h⟩ := Option.map_eq_some_iff.mp h
  cases h
  exact ⟨⟨outcome, hcall⟩, rfl⟩

section
variable {provider : String} {query : CallbackQuery} {random : List UInt8}
  {challenge : OAuthChallenge} {authentication : AuthenticationResult} {sent : SentRequest}

theorem request_identity (challenge : OAuthChallenge) (authentication : AuthenticationResult)
    (random : List UInt8) :
    (challenge.request authentication random).identity = authentication.externalIdentity := by
  rw [OAuthChallenge.request]
  cases challenge.linkPrincipalId with
  | none | some principalId => rfl

/-- A callback that completes a flow binds nothing else than the flow asks for. -/
theorem holdsTables_keepsFlows (hsent : requests task = some sent)
    (hrequest : sent.request = .callback provider query random)
    {Step : (call : IdentityCall) → OAuthStore → call.Answer → OAuthStore → Prop}
    (hstep : ∀ call store answer after, Step call store answer after →
      handler.Completes store.journal task provider query challenge authentication ∧
        ∃ outcome, OAuthCall.exec task (.pipeline (.identity call)) outcome store =
          some (answer, after))
    (policy : AccountLinkingProperties) :
    HoldsTables OAuthStore.iam Step (KeepsFlows handler requests) policy
      (challenge.request authentication random) where
  answers call store answer after h := by
    obtain ⟨-, outcome, hexec⟩ := hstep call store answer after h
    exact (exec_identity hexec).1
  bound store later hlater := hlater.kept
  unchanged call store answer after h hsame := by
    obtain ⟨-, outcome, hexec⟩ := hstep call store answer after h
    have hafter := (exec_identity hexec).2
    rw [hsame] at hafter
    rw [hafter]
    exact refl_of (KeepsFlows handler requests) store
  written call store answer after hwrites h := by
    obtain ⟨hcompletes, outcome, hexec⟩ := hstep call store answer after h
    obtain ⟨⟨outcome, hcall⟩, hafter⟩ := exec_identity hexec
    obtain hsame | ⟨hidentities, -⟩ := hwrites.exec hcall
    · rw [hsame] at hafter
      rw [hafter]
      exact refl_of (KeepsFlows handler requests) store
    · have hjournal : after.journal = store.journal := by rw [hafter]
      constructor
      · rw [hjournal]
      · intro hsound
        rw [hafter]
        exact { hsound with }
      · exact fun key row hrow => Table.find_of_insert hidentities hrow
      · intro row hrow
        obtain hold | rfl := (Table.mem_insert hidentities).mp hrow
        · exact .inl hold
        · refine .inr ⟨task, sent, provider, query, random, challenge, authentication, hsent,
            hrequest, hjournal ▸ hcompletes, ?_, rfl⟩
          rw [request_identity]
          rfl

/-- What a completed flow answers: a session of the principal the identity is bound to, and
in a flow that links a principal, of no other. -/
def Concludes (challenge : OAuthChallenge) (authentication : AuthenticationResult)
    (issued : IssuedAuthentication) (iam : IamDatabase) : Prop :=
  BoundTo iam authentication.externalIdentity.bindingKey issued.principal.principalId ∧
    ∀ principalId, challenge.linkPrincipalId = some principalId →
      issued.principal.principalId = principalId

theorem Concludes.later {store later : OAuthStore} {issued : IssuedAuthentication}
    (h : Concludes challenge authentication issued store.iam)
    (hlater : KeepsFlows handler requests store later) :
    Concludes challenge authentication issued later.iam := by
  obtain ⟨⟨row, hrow, hid⟩, hlinked⟩ := h
  exact ⟨⟨row, hlater.kept _ row hrow, hid⟩, hlinked⟩

/-- How the store of the flows answers what the pipeline calls. -/
abbrev PipelineStep (task : Nat) (call : PipelineCall) (store : OAuthStore)
    (answer : call.Answer) (after : OAuthStore) : Prop :=
  ∃ answered, answered = answer ∧ Pool.Answers (OAuthCall.exec task) (fun _ _ => True)
    (.pipeline call) store answered after

theorem meets_resolved (hsent : requests task = some sent)
    (hrequest : sent.request = .callback provider query random) {store : OAuthStore}
    (hcompletes : handler.Completes store.journal task provider query challenge authentication)
    (service : AccountLinkingService) :
    Meets (PipelineStep task) (KeepsFlows handler requests)
      (fun context last =>
        (challenge.request authentication random).Answered last.iam context)
      (service.serve (challenge.request authentication random)).inPipeline store := by
  refine Meets.lift (Meets.assuming ?_ (fun store later hlater h =>
    OAuth2Handler.Completes.later h hlater.journal) hcompletes)
  refine serve_meetsBindings (holdsTables_keepsFlows hsent hrequest ?_ _) service rfl store
  rintro call store answer after ⟨hlast, _, rfl, _, rfl, -, hexec⟩
  exact ⟨hlast, hexec⟩

variable [Wire] [Keys]

theorem complete_eq (challenge : OAuthChallenge) (authentication : AuthenticationResult)
    (random : List UInt8) :
    handler.complete challenge authentication random =
      (handler.pipeline.linking.serve (challenge.request authentication random)).inPipeline >>=
        handler.pipeline.issue authentication := by
  rw [OAuth2Handler.complete, OAuthChallenge.request]
  cases challenge.linkPrincipalId with
  | none | some principalId => rfl

/-- The token is for the principal it is asked for. -/
theorem meets_issue {Step : (call : PipelineCall) → OAuthStore → call.Answer → OAuthStore → Prop}
    (hstep : ∀ store now after, Step .now store now after → after = store)
    (pipeline : AuthenticationPipeline) (authentication : AuthenticationResult)
    (principal : AuthenticatedPrincipalContext) (store : OAuthStore) :
    Meets Step (KeepsFlows handler requests)
      (fun issued _ => issued.principal.principalId = principal.principalId)
      (pipeline.issue authentication principal) store := by
  intro later hlater now after hnow
  obtain rfl := hstep later now after hnow
  refine ⟨refl_of (KeepsFlows handler requests) after, ?_⟩
  simp only [AuthenticationPipeline.issueAt]
  split
  · exact meets_fail _ after
  · exact meets_ok fun _ _ => rfl

theorem meets_complete (hsent : requests task = some sent)
    (hrequest : sent.request = .callback provider query random) {store : OAuthStore}
    (hcompletes : handler.Completes store.journal task provider query challenge authentication) :
    MeetsFlows handler requests task
      (fun issued last => Concludes challenge authentication issued last.iam)
      (handler.complete challenge authentication random).finishFlow store := by
  rw [complete_eq]
  refine Meets.lift ((meets_resolved hsent hrequest hcompletes _).bind ?_)
  intro context last hanswered
  refine ((meets_issue ?_ handler.pipeline authentication context last).frame
    (p := fun last => (challenge.request authentication random).Answered last.iam context)
    (fun store later hlater h => ?_) hanswered).imp ?_
  · rintro store now after ⟨_, rfl, -, outcome, hexec⟩
    simp only [OAuthCall.exec] at hexec
    split at hexec
    · cases hexec
      rfl
    · cases hexec
  · obtain ⟨row, hrow, hid⟩ := h.bound
    exact ⟨⟨row, hlater.kept _ row hrow, hid⟩, h.linked⟩
  · rintro issued final ⟨hprincipal, hbound, hlinked⟩
    rw [request_identity] at hbound
    rw [Concludes, hprincipal]
    refine ⟨hbound, fun principalId hlink => hlinked principalId authentication ?_⟩
    rw [OAuthChallenge.request, hlink]

/-- What the reply to a callback rests on. -/
def Replies (handler : OAuth2Handler) (task : Nat) (sent : SentRequest) (reply : OAuthReply)
    (store : OAuthStore) : Prop :=
  ∀ provider query random, sent.request = .callback provider query random →
    ∃ response challenge authentication, reply.response = some response ∧
      handler.Completes store.journal task provider query challenge authentication ∧
      Concludes challenge authentication response.issued store.iam

omit [Wire] [Keys] in
theorem runtime_eq_ok {provider : String} {runtime : ProviderRuntime} :
    handler.runtime provider = .ok runtime ↔ handler.providers.get provider = some runtime := by
  rw [OAuth2Handler.runtime]
  cases handler.providers.get provider with
  | none => exact ⟨nofun, nofun⟩
  | some found =>
      rw [Except.ok.injEq, Option.some.injEq]

theorem meets_callback (hsent : requests task = some sent)
    (hrequest : sent.request = .callback provider query random) (store : OAuthStore) :
    MeetsFlows handler requests task (Replies handler task sent)
      (handler.callback provider query random) store := by
  refine (meets_consumeChallenge query.state store).bind fun found store hfound => ?_
  refine meets_ofOption fun flow hflow => ?_
  obtain ⟨rfl, hprovider⟩ := Option.filter_eq_some_iff.mp hflow
  obtain ⟨opened, hused⟩ := hfound flow rfl
  refine meets_ofExcept fun runtime hruntime => ?_
  refine ((meets_authenticate provider _ store).frame
    (fun store later hlater h => hlater.mem h) hused).bind ?_
  rintro identity store ⟨hanswered, hused⟩
  have hcompletes : ∀ now : Nat, handler.Completes store.journal task provider query flow
      (providerAuthentication identity runtime.protocol now) :=
    fun now => ⟨⟨opened, hused⟩, of_decide_eq_true hprovider, runtime, identity, now,
      runtime_eq_ok.mp hruntime, hanswered, rfl⟩
  refine ((meets_clock store).preserves (p := fun store => ∀ now : Nat,
    handler.Completes store.journal task provider query flow
      (providerAuthentication identity runtime.protocol now))
    (fun store later hlater h now => (h now).later hlater.journal) hcompletes).bind ?_
  intro now store hcompletes
  refine ((meets_complete hsent hrequest (hcompletes now)).frame (fun store later hlater h =>
    OAuth2Handler.Completes.later h hlater.journal) (hcompletes now)).bind ?_
  rintro issued store ⟨hconcludes, hcompletes⟩
  refine meets_ok fun last hlast other asked bytes hother => ?_
  rw [hrequest, OAuthRequest.callback.injEq] at hother
  obtain ⟨rfl, rfl, rfl⟩ := hother
  refine ⟨⟨issued, flow.returnUri⟩, flow, _, ?_, hcompletes.later hlast.journal,
    hconcludes.later hlast⟩
  split
  · rw [LoginResponse.intoRedirect]
    split <;> rfl
  · rfl

end

/-! The requests that open flows. -/

section
variable [UrlParts] [Wire] {sent : SentRequest} {provider : String} {link : Option String}
  {state drawn : List UInt8}

theorem creates_of_prepared (hstarts : sent.request.Starts provider link state drawn)
    {host : Option String} {returnUri url : String} {redirectAfterLogin : Bool}
    {challenge : OAuthChallenge}
    (h : handler.prepared provider host returnUri redirectAfterLogin link
      (Base64Url.encode state) drawn = .ok (url, challenge)) :
    handler.Creates sent.request (Base64Url.encode state) challenge := by
  rw [OAuth2Handler.prepared, Result.bind_ok_iff] at h
  obtain ⟨destination, -, h⟩ := h
  obtain ⟨runtime, hruntime, h⟩ := Result.bind_ok_iff.mp h
  split at h
  · cases h
  · rename_i authorization hauthorization
    cases h
    exact ⟨state, drawn, runtime, authorization, hstarts, rfl, runtime_eq_ok.mp hruntime,
      hauthorization, rfl, rfl⟩

theorem meets_prepareAuthorization (hsent : requests task = some sent)
    (hstarts : sent.request.Starts provider link state drawn) (host : Option String)
    (query : AuthorizeQuery) (store : OAuthStore) :
    MeetsFlows handler requests task (fun _ _ => True)
      (handler.prepareAuthorization provider host query link state drawn) store := by
  refine meets_ofExcept fun destination _ => ?_
  refine meets_ofExcept fun prepared hprepared => ?_
  refine (meets_putChallenge hsent (creates_of_prepared hstarts hprepared) store).bind
    fun _ last _ => ?_
  exact meets_ok fun _ _ => trivial

theorem serve_meetsFlows [Keys] (hsent : requests task = some sent) (store : OAuthStore) :
    MeetsFlows handler requests task (Replies handler task sent) (handler.serve sent) store := by
  rw [OAuth2Handler.serve]
  cases hrequest : sent.request with
  | authorize provider query host state drawn =>
      refine (meets_prepareAuthorization hsent (hrequest ▸ .authorize query host state drawn) host
        query store).imp fun _ _ _ other asked random hother => ?_
      rw [hrequest] at hother
      cases hother
  | linkAuthorize caller provider query host state drawn =>
      refine meets_ofExcept fun principalId hcaller => ?_
      rw [Result.mapError_ok] at hcaller
      subst hcaller
      refine (meets_prepareAuthorization hsent
        (hrequest ▸ .linkAuthorize principalId query host state drawn) host query store).imp
        fun _ _ _ other asked random hother => ?_
      rw [hrequest] at hother
      cases hother
  | callback provider query random => exact meets_callback hsent hrequest store

end

end

/-! Runs. -/

/-- What holds of the flows where a run ends. -/
structure FlowsCompleted (handler : OAuth2Handler) (db : IamDatabase) (final : OAuthPool) :
    Prop where
  completed : ∀ task sent reply, final.tasks[task]? = some (sent, .ok reply) →
    Replies handler task sent reply final.store
  /-- A flow that was used was opened before, by a request that creates it. -/
  created : ∀ (j task opened : Nat) (state : String) (challenge : OAuthChallenge),
    final.store.journal[j]? = some (FlowRecord.used task opened state challenge) →
    opened < j ∧ ∃ creator sent,
      final.store.journal[opened]? = some (FlowRecord.opened creator state challenge) ∧
      final.requestOf creator = some sent ∧ handler.Creates sent.request state challenge
  once : ∀ (j j' task task' opened : Nat) (state state' : String)
    (challenge challenge' : OAuthChallenge),
    final.store.journal[j]? = some (FlowRecord.used task opened state challenge) →
    final.store.journal[j']? = some (FlowRecord.used task' opened state' challenge') → j = j'
  bound : ∀ row ∈ final.store.iam.identities.rows, row ∉ db.identities.rows →
    handler.Bound final.requestOf final.store.journal row

/-- The store before any request. -/
def OAuthStore.start (db : IamDatabase) : OAuthStore := ⟨db, [], []⟩

theorem OAuthStore.start_sound (handler : OAuth2Handler) (requests : Nat → Option SentRequest)
    (db : IamDatabase) : (OAuthStore.start db).Sound handler requests where
  opened _ _ _ h := absurd h List.not_mem_nil
  waiting _ h := absurd h List.not_mem_nil
  used _ _ _ _ _ h := by simp [start] at h
  once _ _ _ _ _ _ _ _ _ h := by simp [start] at h

theorem flows_completed [UrlParts] [Wire] [Keys] (handler : OAuth2Handler) {db : IamDatabase}
    {events : List OAuthEvent} {final : OAuthPool}
    (hrun : Runs.run handler.oauthStep (Pool.idle (.start db)) events = some final) :
    FlowsCompleted handler db final := by
  have hserve : ∀ task sent, final.requestOf task = some sent → ∀ store,
      MeetsFlows handler final.requestOf task (Replies handler task sent) (handler.serve sent)
        store :=
    fun task sent hsent store => serve_meetsFlows hsent store
  obtain ⟨hkeeps, hmeets⟩ := Pool.run_meets_of_requests (fun _ _ => trivial) hserve
    (Pool.meets_idle (OAuthStore.start db)) hrun
  have hsound := hkeeps.sound (OAuthStore.start_sound handler final.requestOf db)
  constructor
  · intro task sent reply htask
    exact Pool.returned_meets hmeets htask
  · intro j task opened state challenge hused
    obtain ⟨hlt, creator, hopened⟩ := hsound.used j task opened state challenge hused
    obtain ⟨sent, hsent, hcreates⟩ :=
      hsound.opened creator state challenge (List.mem_of_getElem? hopened)
    exact ⟨hlt, creator, sent, hopened, hsent, hcreates⟩
  · exact hsound.once
  · intro row hrow hnew
    exact (hkeeps.bound row hrow).resolve_left hnew

/-- Whoever completes a flow has started it: what the code does not check. -/
def SameBrowser (handler : OAuth2Handler) (final : OAuthPool) : Prop :=
  ∀ (task browser : Nat) (provider : String) (query : CallbackQuery) (random : List UInt8)
    (reply : OAuthReply),
    final.tasks[task]? = some (⟨browser, .callback provider query random⟩, .ok reply) →
    ∃ creator request challenge, final.requestOf creator = some ⟨browser, request⟩ ∧
      handler.Creates request query.state challenge

/-! A flow that one browser starts and another completes. -/

namespace ForwardedCallback

def hub : ProviderRuntime where
  authorize client callback state _ :=
    some ⟨"https://idp.example/authorize?client_id=" ++ client ++ "&redirect_uri=" ++ callback ++
      "&state=" ++ state, none, none⟩
  clientId := "authguard"
  clientSecret := "secret"
  callbackUrl := "https://login.example/callback"
  protocol := .oauth2

def handler : OAuth2Handler where
  providers := .ofList [("hub", hub)]
  applications := .empty
  pipeline :=
    ⟨⟨⟨.firstLogin, [], .empty⟩⟩,
      ⟨⟨"https://authguard.example", "workloads", Duration.fromSecs 300⟩, some ⟨"login"⟩⟩⟩

def identity : ExternalIdentity := ⟨"hub", "https://idp.example", "mallory", .empty⟩

/-- The first browser gets the state value, logs in and passes the callback address on. -/
def events : List OAuthEvent :=
  [.start ⟨1, .authorize "hub" ⟨"", ""⟩ none [1] []⟩, .resume 0 (.ended (.answered 10)),
    .start ⟨2, .callback "hub" ⟨"code", "AQ"⟩ [2]⟩, .resume 1 (.ended (.answered 20)),
    .resume 1 (.authenticated (some identity))] ++
    List.replicate 4 (.resume 1 (.ended (.answered 20)))

abbrev run : Option OAuthPool :=
  Runs.run (@OAuth2Handler.oauthStep ReturnLink.parts (Documents.wire []) Archive.unsigned handler)
    (Pool.idle (.start .empty)) events

theorem events_completed : ∃ final, run = some final ∧ final.tasks.all (·.2.isDone) ∧
    FlowsCompleted handler .empty final := by
  have hrun : run.any (fun final => final.tasks.all (·.2.isDone)) = true := by decide +kernel
  obtain ⟨final, hfinal, hdone⟩ := (Option.any_eq_true _ _).mp hrun
  exact ⟨final, hfinal, hdone, @flows_completed ReturnLink.parts (Documents.wire [])
    Archive.unsigned handler .empty events final hfinal⟩

theorem started_by {final : OAuthPool} (hrun : run = some final) {task : Nat}
    {sent : SentRequest} (hsent : final.requestOf task = some sent) (hbrowser : sent.browser = 2) :
    sent.request = .callback "hub" ⟨"code", "AQ"⟩ [2] := by
  have hstart := Pool.requestOf_started hrun hsent
  simp only [events, List.replicate, List.cons_append, List.nil_append, List.mem_cons,
    PoolEvent.start.injEq, reduceCtorEq, List.not_mem_nil, or_false, false_or] at hstart
  obtain rfl | rfl := hstart
  · cases hbrowser
  · rfl

/-- The second browser gets the session of the first one's identity. -/
theorem other_browser_completes : ∃ final, run = some final ∧ ¬SameBrowser handler final := by
  have hrun : run.any (fun final => (final.tasks[1]?).any fun task =>
      task.1.browser = 2 && match task.2 with
      | .ok _ => true
      | .fail _ | .call _ _ => false) = true := by
    decide +kernel
  obtain ⟨final, hfinal, hended⟩ := (Option.any_eq_true _ _).mp hrun
  obtain ⟨⟨⟨browser, request⟩, rest⟩, htask, hended⟩ := (Option.any_eq_true _ _).mp hended
  obtain ⟨hbrowser, hok⟩ := Bool.and_eq_true_iff.mp hended
  obtain rfl : browser = 2 := of_decide_eq_true hbrowser
  obtain rfl := started_by hfinal (by rw [Pool.requestOf, htask]; rfl) rfl
  refine ⟨final, hfinal, fun hsame => ?_⟩
  cases rest with
  | ok reply =>
      obtain ⟨creator, request, challenge, hcreator, bytes, drawn, _, _, hstarts, -⟩ :=
        hsame 1 2 _ _ _ reply htask
      obtain rfl := started_by hfinal hcreator rfl
      cases hstarts
  | fail error | call name next => cases hok

end ForwardedCallback

end Authguard
