import Authguard.Metatheory.IdentityBinding
import Authguard.Metatheory.TotpReplay

/-!
Logins, links and step-ups of the pipeline over any store that holds the tables of the
principals: the token is for the principal the identity is bound to, and no call of the
pipeline loses a binding.
-/

namespace Authguard
open Program

/-- No call of the repository changes a binding. -/
theorem find_identity_exec {call : IdentityCall} {outcome : StoreOutcome} {db after : IamDatabase}
    {answer : call.Answer} (h : call.exec outcome db = some (answer, after))
    {key : ExternalIdentityKey} {row : IamPrincipalIdentityInfo}
    (hrow : db.identities.find key = some row) : after.identities.find key = some row := by
  cases call with
  | findPrincipalByIdentity other =>
      rw [(readCall_cases (Option.some.inj h)).1]
      exact hrow
  | principalHasProvider principalId provider =>
      rw [(readCall_cases (Option.some.inj h)).1]
      exact hrow
  | createPrincipalAndBind principal identity =>
      obtain ⟨rfl, -⟩ | ⟨value, hwritten, -⟩ := writeCall_cases (Option.some.inj h)
      · exact hrow
      · exact Table.find_of_insert (createPrincipalAndBind_eq_ok hwritten).2.2 hrow
  | bindIdentity principalId identity =>
      obtain ⟨rfl, -⟩ | ⟨value, hwritten, -⟩ := writeCall_cases (Option.some.inj h)
      · exact hrow
      · exact Table.find_of_insert (bindIdentity_eq_ok hwritten).2.2 hrow

section
variable {σ : Type} (tables : σ → IamDatabase)
  (Step : (call : PipelineCall) → σ → call.Answer → σ → Prop) (Keeps : σ → σ → Prop)

/-- The pipeline serves a request over a store that holds the tables, where the clock
changes nothing. -/
structure PipelineTables (policy : AccountLinkingProperties) (request : LinkRequest) : Prop where
  holds : HoldsTables tables (fun call store answer after =>
    ∃ answered, answered = answer ∧ Step (.identity call) store answered after) Keeps policy request
  now : ∀ store now after, Step .now store now after → after = store

end

section
variable {σ : Type} {tables : σ → IamDatabase}
  {Step : (call : PipelineCall) → σ → call.Answer → σ → Prop} {Keeps : σ → σ → Prop}

/-- Where every call of the repository is kept. -/
theorem PipelineTables.of_keeps
    (answers : ∀ call store answer after, Step (.identity call) store answer after →
      ∃ outcome, call.exec outcome (tables store) = some (answer, tables after))
    (bound : ∀ store later, Keeps store later → ∀ key row,
      (tables store).identities.find key = some row →
        (tables later).identities.find key = some row)
    (keeps : ∀ call store answer after, Step (.identity call) store answer after →
      Keeps store after)
    (now : ∀ store now after, Step .now store now after → after = store)
    (policy : AccountLinkingProperties) (request : LinkRequest) :
    PipelineTables tables Step Keeps policy request where
  holds :=
    { answers := by
        rintro call store answer after ⟨_, rfl, hstep⟩
        exact answers call store _ after hstep
      bound
      unchanged := by
        rintro call store answer after ⟨_, rfl, hstep⟩ -
        exact keeps call store _ after hstep
      written := by
        rintro call store answer after - ⟨_, rfl, hstep⟩
        exact keeps call store _ after hstep }
  now := now

variable {policy : AccountLinkingProperties} {request : LinkRequest} {pipeline : AuthenticationPipeline}

variable [Std.Refl Keeps]

theorem PipelineTables.meets_serve
    (h : PipelineTables tables Step Keeps pipeline.linking.policy request) (store : σ) :
    Meets Step Keeps (fun context last => request.Answered (tables last) context)
      (pipeline.linking.serve request).inPipeline store :=
  Meets.lift (serve_meetsBindings h.holds pipeline.linking rfl store)

variable {authentication : AuthenticationResult} {kind : PrincipalKind} {random : List UInt8}

section
variable (h : PipelineTables tables Step Keeps pipeline.linking.policy
  (.resolveLogin authentication kind random))
include h

theorem PipelineTables.meets_resolveLogin (store : σ) :
    Meets Step Keeps
      (fun context last => BoundTo (tables last) authentication.externalIdentity.bindingKey
        context.principalId)
      (pipeline.linking.resolveLogin authentication kind random).inPipeline store :=
  (h.meets_serve store).imp fun _ _ hanswered => hanswered.bound

theorem PipelineTables.meets_verifyStepUp (principalId : String) (store : σ) :
    Meets Step Keeps
      (fun _ last => BoundTo (tables last) authentication.externalIdentity.bindingKey principalId)
      (pipeline.verifyStepUp principalId authentication kind random) store := by
  refine (h.meets_resolveLogin store).bind fun context last hbound => ?_
  split
  · exact meets_fail _ last
  · rename_i hsame
    refine meets_ok fun later hlater => h.holds.boundTo hlater ?_
    rw [← not_ne_iff.mp hsame]
    exact hbound

end

variable [Wire] [Keys]

/-- The token is for the principal it is asked for. -/
theorem PipelineTables.meets_issue
    (h : PipelineTables tables Step Keeps pipeline.linking.policy request)
    {principal : AuthenticatedPrincipalContext} {store : σ}
    (hbound : BoundTo (tables store) authentication.externalIdentity.bindingKey
      principal.principalId) :
    Meets Step Keeps
      (fun issued last => issued.principal.principalId = principal.principalId ∧
        BoundTo (tables last) authentication.externalIdentity.bindingKey
          issued.principal.principalId)
      (pipeline.issue authentication principal) store := by
  intro later hlater now after hstep
  obtain rfl := h.now later now after hstep
  refine ⟨refl_of Keeps after, ?_⟩
  simp only [AuthenticationPipeline.issueAt]
  split
  · exact meets_fail _ after
  · exact meets_ok fun last hlast => ⟨rfl, h.holds.boundTo hlast (h.holds.boundTo hlater hbound)⟩

section
variable (h : PipelineTables tables Step Keeps pipeline.linking.policy
  (.resolveLogin authentication kind random))
include h

theorem PipelineTables.meets_login (store : σ) :
    Meets Step Keeps
      (fun issued last => BoundTo (tables last) authentication.externalIdentity.bindingKey
        issued.principal.principalId)
      (pipeline.login authentication kind random) store := by
  refine (h.meets_resolveLogin store).bind fun context last hbound => ?_
  exact (h.meets_issue hbound).imp fun _ _ hissued => hissued.2

theorem PipelineTables.meets_completeStepUp (principalId : String) (store : σ) :
    Meets Step Keeps
      (fun issued last => issued.principal.principalId = principalId ∧
        BoundTo (tables last) authentication.externalIdentity.bindingKey principalId)
      (pipeline.completeStepUp principalId authentication kind random) store := by
  refine (h.meets_resolveLogin store).bind fun context last hbound => ?_
  split
  · exact meets_fail _ last
  · rename_i hsame
    obtain rfl := not_ne_iff.mp hsame
    refine (h.meets_issue hbound).imp ?_
    rintro issued final ⟨hprincipal, hbound⟩
    exact ⟨hprincipal, hprincipal ▸ hbound⟩

end

theorem PipelineTables.meets_link {principalId : String}
    (h : PipelineTables tables Step Keeps pipeline.linking.policy
      (.linkIdentity principalId authentication)) (store : σ) :
    Meets Step Keeps
      (fun issued last => issued.principal.principalId = principalId ∧
        BoundTo (tables last) authentication.externalIdentity.bindingKey principalId)
      (pipeline.link principalId authentication) store := by
  refine (h.meets_serve store).bind fun context last hanswered => ?_
  obtain rfl := hanswered.linked principalId authentication rfl
  refine (h.meets_issue hanswered.bound).imp ?_
  rintro issued final ⟨hprincipal, hbound⟩
  exact ⟨hprincipal, hprincipal ▸ hbound⟩

end

end Authguard
