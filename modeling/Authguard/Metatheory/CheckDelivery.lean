import Authguard.Metatheory.CheckSafety

/-!
Where the headers of an OK answer come from: whatever else happens while a check
is under way, they were prepared from one evaluation, made for the identity that
the request carries.
-/

namespace Authguard
open Result Runs

/-- What `prepare_delivery` returns once the token, if there is one, is stored. -/
def Delivery.delivery : Delivery → AccessDelivery
  | .direct encoded => .direct encoded
  | .store token _ => .token token

section
variable [Ipnet] [Wire] [Keys] (handler : DefaultAuthorizationHandler) (request : CheckRequest)

/-- The delivery and the re-signed token were prepared from the evaluation of a request. -/
structure Prepares (input : WorkloadRequest) (evaluation : RequestEvaluation)
    (prepared : Delivery) (resignToken : Option String) : Prop where
  identifies : Identifies handler request input evaluation.identity
  allowed : ∃ now resignNow random,
    handler.allowed now resignNow random evaluation = .ok (prepared, resignToken)

def Stage.Traced : Stage → Prop
  | .received asked => asked = request
  | .identified input identity _ => Identifies handler request input identity
  | .resolved input identity _ _ => Identifies handler request input identity
  | .pinned input identity _ _ _ => Identifies handler request input identity
  | .decided evaluation => ∃ input, Identifies handler request input evaluation.identity
  | .storing token encoded resignToken => ∃ input evaluation,
      Prepares handler request input evaluation (.store token encoded) resignToken
  | .responded response => response.code = .ok →
      ∃ input evaluation prepared resignToken,
        Prepares handler request input evaluation prepared resignToken ∧
          response = handler.permitted prepared.delivery resignToken

variable {handler request}

theorem Stage.failed_traced (failure : CheckFailure) :
    (Stage.failed failure).Traced handler request :=
  fun hok => absurd hok (denied_code failure)

theorem receive_traced : (handler.receive request).Traced handler request := by
  unfold DefaultAuthorizationHandler.receive
  split
  · exact Stage.failed_traced _
  · rename_i input hinput
    split
    · exact Stage.failed_traced _
    · rename_i identity expiry hidentify
      exact identify_ok hinput hidentify

omit [Keys] [Wire] in
theorem evaluateOn_identity {catalog : CompiledPolicy} {input : WorkloadRequest}
    {identity : AuthenticatedPrincipalContext} {expiry : Option Nat}
    {resolved : ResolvedRequestPrincipal} {evaluation : RequestEvaluation}
    (h : evaluateOn catalog input identity expiry resolved = .ok evaluation) :
    evaluation.identity = identity := by
  unfold evaluateOn at h
  split at h
  · cases h
  · cases h
    rfl

theorem evaluate_traced {catalog : Catalog} {input : WorkloadRequest}
    {identity : AuthenticatedPrincipalContext} {expiry : Option Nat}
    {resolved : ResolvedRequestPrincipal} (h : Identifies handler request input identity) :
    (Stage.evaluate catalog input identity expiry resolved).Traced handler request := by
  unfold Stage.evaluate
  split
  · exact Stage.failed_traced _
  · rename_i evaluation hevaluation
    split
    · exact ⟨input, evaluateOn_identity hevaluation ▸ h⟩
    · exact Stage.failed_traced _

theorem deliver_traced {evaluation : RequestEvaluation} {now resignNow : Nat}
    {random : List UInt8} {input : WorkloadRequest}
    (h : Identifies handler request input evaluation.identity) :
    (handler.deliver now resignNow random evaluation).Traced handler request := by
  unfold DefaultAuthorizationHandler.deliver
  split
  · exact Stage.failed_traced _
  · rename_i encoded resignToken hallowed
    exact fun _ => ⟨input, evaluation, .direct encoded, resignToken,
      ⟨h, now, resignNow, random, hallowed⟩, rfl⟩
  · rename_i token encoded resignToken hallowed
    exact ⟨input, evaluation, h, now, resignNow, random, hallowed⟩

theorem step_traced {reached next : CheckState} {event : CheckEvent}
    (h : reached.stage.Traced handler request)
    (hstep : handler.step reached event = some next) : next.stage.Traced handler request := by
  cases event with
  | install catalog => cases hstep; exact h
  | update principals => cases hstep; exact h
  | proceed =>
      simp only [DefaultAuthorizationHandler.step] at hstep
      split at hstep
      · rename_i asked hstage
        cases hstep
        rw [hstage] at h
        have hasked : asked = request := h
        rw [hasked]
        exact receive_traced
      · rename_i input identity expiry principal hstage
        cases hstep
        rw [hstage] at h
        exact h
      · rename_i input identity expiry principal catalog hstage
        cases hstep
        rw [hstage] at h
        exact evaluate_traced h
      · cases hstep
  | lookup answer =>
      simp only [DefaultAuthorizationHandler.step] at hstep
      split at hstep
      · rename_i input identity expiry hstage
        rw [hstage] at h
        split at hstep
        · cases hstep
          exact Stage.failed_traced _
        · cases hstep
          exact h
      · cases hstep
  | deliver now resignNow random =>
      simp only [DefaultAuthorizationHandler.step] at hstep
      split at hstep
      · rename_i evaluation hstage
        cases hstep
        rw [hstage] at h
        obtain ⟨input, hidentifies⟩ := h
        exact deliver_traced hidentifies
      · cases hstep
  | cached answer =>
      simp only [DefaultAuthorizationHandler.step] at hstep
      split at hstep
      · cases hstep
        exact Stage.failed_traced _
      · rename_i token encoded resignToken hstage
        cases hstep
        rw [hstage] at h
        obtain ⟨input, evaluation, hprepares⟩ := h
        exact fun _ => ⟨input, evaluation, .store token encoded, resignToken, hprepares, rfl⟩
      · cases hstep

/-- The OK answer of a check, in any run. -/
theorem responded_prepared {initial final : CheckState} {events : List CheckEvent}
    {response : CheckResponse} (hreceived : initial.stage = .received request)
    (hrun : Runs.run handler.step initial events = some final)
    (hresponse : final.stage = .responded response) (hok : response.code = .ok) :
    ∃ input evaluation prepared resignToken,
      Prepares handler request input evaluation prepared resignToken ∧
        response = handler.permitted prepared.delivery resignToken := by
  have htraced := run_invariant_of_step (fun state => state.stage.Traced handler request)
    (fun _ _ _ h hstep => step_traced h hstep) hrun (by rw [hreceived]; exact rfl)
  rw [hresponse] at htraced
  exact htraced hok

omit [Ipnet] in
/-- A token is re-signed exactly when the handler is set to, and it is Authguard's own. -/
theorem Prepares.resigned {input : WorkloadRequest} {evaluation : RequestEvaluation}
    {prepared : Delivery} {resignToken : Option String}
    (h : Prepares handler request input evaluation prepared resignToken) :
    (resignToken = none ∧ handler.resign = none) ∨
      ∃ resign payload, handler.resign = some resign ∧
        resignToken = some (signJwt resign.key payload) := by
  obtain ⟨now, resignNow, random, hallowed⟩ := h.allowed
  unfold DefaultAuthorizationHandler.allowed at hallowed
  split at hallowed
  · cases hallowed
  · simp only [bind_ok_iff] at hallowed
    obtain ⟨token, htoken, _, _, h⟩ := hallowed
    cases h
    unfold DefaultAuthorizationHandler.resignToken at htoken
    split at htoken
    · rename_i hresign
      cases htoken
      exact .inl ⟨rfl, hresign⟩
    · rename_i resign hresign
      split at htoken
      · cases htoken
      · split at htoken
        · cases htoken
        · dsimp only at htoken
          split at htoken
          · cases htoken
          · rename_i payload _
            cases htoken
            exact .inr ⟨resign, payload, hresign, rfl⟩

end

end Authguard
