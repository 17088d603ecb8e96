import Authguard.Authz.CheckMachine
import Authguard.Metatheory.PolicyDecision
import Authguard.Metatheory.PolicyScope
import Authguard.Metatheory.RouteResolution

/-!
The check fails closed. Whatever is installed and stored while a request is
under way, an OK answer means that one catalog, published at some moment of the
request, maps it to one route and permits it for the principal and the groups
that were stored and active at some moment of the request; the context delivered
upstream is computed from that same catalog.
-/

namespace Authguard
open Result Runs SortedMap

/-! Stored principals. -/

def PrincipalTable.activeGroup (table : PrincipalTable) (id : String) : Bool :=
  table.rows.any fun principal =>
    principal.id == id && principal.status = .active && principal.kind = .group

/-- Those of the identifiers that name a stored active group. -/
def PrincipalTable.activeGroups (table : PrincipalTable) (ids : List String) : List String :=
  ids.filter table.activeGroup

theorem PrincipalTable.activeGroup_iff {table : PrincipalTable} {id : String} :
    table.activeGroup id = true ↔ ∃ principal ∈ table.rows, principal.id = id ∧
      principal.status = .active ∧ principal.kind = .group := by
  simp [PrincipalTable.activeGroup, and_assoc]

theorem projected_get {found : List IamPrincipalInfo} (hunique : (found.map (·.id)).Nodup)
    (id : String) (principal : IamPrincipalInfo) :
    (SortedMap.ofList (found.map fun principal => (principal.id, principal))).get id =
        some principal ↔
      principal ∈ found ∧ principal.id = id := by
  induction found using List.reverseRecOn with
  | nil => simp [SortedMap.ofList, SortedMap.get, SortedMap.empty]
  | append_singleton found last ih =>
      rw [List.map_append, List.map_singleton, List.nodup_append] at hunique
      obtain ⟨hunique, -, hdisjoint⟩ := hunique
      rw [List.map_append, List.map_singleton, get_ofList_snoc, List.mem_append,
        List.mem_singleton]
      have hnew : ∀ other ∈ found, other.id ≠ last.id := by
        intro other hother
        exact hdisjoint other.id (List.mem_map_of_mem hother) last.id List.mem_cons_self
      by_cases hid : id = last.id
      · rw [if_pos hid, Option.some.injEq]
        constructor
        · intro h
          exact ⟨.inr h.symm, by rw [← h, hid]⟩
        · rintro ⟨hmem, hsame⟩
          cases hmem with
          | inl hfound => exact absurd (hsame.trans hid) (hnew principal hfound)
          | inr hlast => exact hlast.symm
      · rw [if_neg hid, ih hunique]
        constructor
        · rintro ⟨hmem, hsame⟩
          exact ⟨.inl hmem, hsame⟩
        · rintro ⟨hmem, hsame⟩
          cases hmem with
          | inl hfound => exact ⟨hfound, hsame⟩
          | inr hlast => exact absurd (by rw [← hsame, hlast]) hid

theorem erased_keys {projected : PrincipalMap} {key : String}
    (h : ∀ id principal, projected.get id = some principal → principal.id = id) :
    ∀ id principal, (projected.erase key).get id = some principal → principal.id = id := by
  intro id principal hget
  rw [get_erase] at hget
  split at hget
  · cases hget
  · exact h id principal hget

/-- The loop keeps the groups the map has as active groups. -/
theorem mem_takeGroups (groupIds : List String) (projected : PrincipalMap)
    (hkeys : ∀ id principal, projected.get id = some principal → principal.id = id)
    (id : String) :
    id ∈ takeGroups groupIds projected ↔ id ∈ groupIds ∧ ∃ principal,
      projected.get id = some principal ∧ principal.status = .active ∧
        principal.kind = .group := by
  induction groupIds generalizing projected with
  | nil => simp [takeGroups]
  | cons groupId groupIds ih =>
      simp only [takeGroups]
      split
      · rename_i hnone
        rw [ih projected hkeys, List.mem_cons]
        constructor
        · rintro ⟨hmem, h⟩
          exact ⟨.inr hmem, h⟩
        · rintro ⟨hmem, principal, hget, h⟩
          cases hmem with
          | inl hsame => rw [hsame, hnone] at hget; cases hget
          | inr hmem => exact ⟨hmem, principal, hget, h⟩
      · rename_i group hgroup
        have hid := hkeys groupId group hgroup
        have hrest := ih (projected.erase groupId) (erased_keys hkeys)
        rw [get_erase] at hrest
        by_cases hsame : id = groupId
        · rw [hsame] at hrest ⊢
          simp only [if_pos, reduceCtorEq, false_and, exists_false, and_false, iff_false] at hrest
          simp only [hgroup, Option.some.injEq, exists_eq_left', List.mem_cons_self, true_and]
          split
          · rename_i hactive
            simp [hid, hactive]
          · rename_i hinactive
            simp [hrest, hinactive]
        · rw [if_neg hsame] at hrest
          rw [List.mem_cons]
          simp only [hsame, false_or]
          split
          · rw [List.mem_cons, hid, hrest]
            simp [hsame]
          · exact hrest

/-- The principals a request may act as, as they are stored. -/
structure PrincipalTable.Resolves (table : PrincipalTable)
    (identity : AuthenticatedPrincipalContext) (resolved : ResolvedRequestPrincipal) : Prop where
  primary : ∃ principal ∈ table.rows, principal.id = identity.principalId ∧
    principal.status = .active ∧ principal.kind = identity.kind
  principalId : resolved.principalId = identity.principalId
  groups : ∀ id, id = identity.principalId ∨ id ∈ resolved.groupPrincipalIds ↔
    id = identity.principalId ∨ id ∈ table.activeGroups identity.stableGroupIds

theorem resolveRequest_ok {table : PrincipalTable} {identity : AuthenticatedPrincipalContext}
    {answer : Except String Unit} {resolved : ResolvedRequestPrincipal}
    (h : resolveRequest table identity answer = .ok resolved) :
    table.Resolves identity resolved := by
  cases answer with
  | error message => cases h
  | ok _ =>
      simp only [resolveRequest, projectPrincipals] at h
      have hunique : ((table.findByIds
          (identity.principalId :: identity.stableGroupIds)).map (·.id)).Nodup :=
        table.unique.sublist (List.filter_sublist.map _)
      have hget := projected_get hunique
      generalize hmap : SortedMap.ofList ((table.findByIds (identity.principalId ::
        identity.stableGroupIds)).map fun principal => (principal.id, principal)) = projected
        at h hget
      split at h
      · cases h
      · rename_i primary hprimary
        obtain ⟨hfound, hid⟩ := (hget identity.principalId primary).mp hprimary
        obtain ⟨hrow, -⟩ := List.mem_filter.mp hfound
        split at h
        · cases h
        · rename_i hactive
          split at h
          · cases h
          · rename_i hkind
            cases h
            refine ⟨⟨primary, hrow, hid, not_not.mp hactive, not_not.mp hkind⟩, hid, ?_⟩
            intro id
            by_cases hself : id = identity.principalId
            · simp [hself]
            · simp only [hself, false_or]
              rw [Text.mem_sortDedup, mem_takeGroups _ _ (erased_keys fun other principal hother =>
                ((hget other principal).mp hother).2), get_erase, if_neg hself,
                PrincipalTable.activeGroups, List.mem_filter, PrincipalTable.activeGroup_iff]
              apply and_congr_right
              intro hrequested
              apply exists_congr
              intro principal
              rw [hget, PrincipalTable.findByIds, List.mem_filter]
              constructor
              · rintro ⟨⟨⟨hrow, _⟩, hsame⟩, hgroup⟩
                exact ⟨hrow, hsame, hgroup⟩
              · rintro ⟨hrow, hsame, hgroup⟩
                refine ⟨⟨⟨hrow, ?_⟩, hsame⟩, hgroup⟩
                simp [hsame, hrequested]

section
variable [Ipnet]

/-! The decision depends on the principals only as a set. -/

theorem principalMatches_congr {principalId : String} {groups groups' : List String}
    (h : ∀ id, id = principalId ∨ id ∈ groups ↔ id = principalId ∨ id ∈ groups')
    (binding : CompiledRoleBinding) :
    principalMatches binding principalId groups = principalMatches binding principalId groups' := by
  rw [Bool.eq_iff_iff, principalMatches_iff, principalMatches_iff]
  exact h binding.principalId

theorem authorizeFrom_congr {request request' : AuthorizationRequest}
    (h : ∀ binding : CompiledRoleBinding, binding.applies request = binding.applies request')
    (bindings : List CompiledRoleBinding) (allow : Option String) :
    authorizeFrom request bindings allow = authorizeFrom request' bindings allow := by
  induction bindings generalizing allow with
  | nil => cases allow <;> rfl
  | cons binding bindings ih => simp only [authorizeFrom, h binding, ih]

theorem authorize_groups_congr {catalog : CompiledPolicy} {request : AuthorizationRequest}
    {groups : List String}
    (h : ∀ id, id = request.principalId ∨ id ∈ request.groupPrincipalIds ↔
      id = request.principalId ∨ id ∈ groups) :
    catalog.authorize request = catalog.authorize { request with groupPrincipalIds := groups } := by
  apply authorizeFrom_congr
  intro binding
  rw [CompiledRoleBinding.applies, CompiledRoleBinding.applies, principalMatches_congr h]

theorem authorizationScope_groups_congr {catalog : CompiledPolicy} {principalId action : String}
    {groups groups' : List String} {context : EvaluationContext}
    (h : ∀ id, id = principalId ∨ id ∈ groups ↔ id = principalId ∨ id ∈ groups') :
    catalog.authorizationScope principalId groups action context =
      catalog.authorizationScope principalId groups' action context := by
  have hscope : ∀ binding : CompiledRoleBinding,
      binding.inScope principalId groups action context =
        binding.inScope principalId groups' action context := by
    intro binding
    rw [CompiledRoleBinding.inScope, CompiledRoleBinding.inScope, principalMatches_congr h]
  simp only [CompiledPolicy.authorizationScope, hscope]

/-- A published catalog is its own policy, compiled. -/
theorem Catalog.recompiles (catalog : Catalog) :
    CompiledPolicy.compile catalog.policy catalog.revision = .ok catalog.compiled := by
  obtain ⟨policy, revision, hcompiled⟩ := catalog.valid
  have hpolicy : catalog.policy = { policy with revision } :=
    (compile_eq_ok.mp hcompiled).policy_eq
  rw [Catalog.revision, hpolicy]
  exact hcompiled

/-! What an OK answer stands for. -/

variable [Wire]

/-- The request carries a token that was read as the identity. -/
structure Identifies (handler : DefaultAuthorizationHandler) (request : CheckRequest)
    (input : WorkloadRequest) (identity : AuthenticatedPrincipalContext) : Prop where
  input_eq : WorkloadRequest.tryFrom request = .ok input
  identity_eq : ∃ token, gatewayToken input.headers handler.identity.tokenHeader = some token ∧
    AuthenticatedPrincipalContext.fromVerifiedJwtWithClaims token
      handler.identity.principalIdClaim handler.identity.principalKindClaim
      handler.identity.groupsClaim = .ok identity

omit [Ipnet] in
theorem identify_ok {handler : DefaultAuthorizationHandler} {request : CheckRequest}
    {input : WorkloadRequest} {identity : AuthenticatedPrincipalContext} {expiry : Option Nat}
    (hinput : WorkloadRequest.tryFrom request = .ok input)
    (h : handler.identify input = .ok (identity, expiry)) :
    Identifies handler request input identity := by
  simp only [DefaultAuthorizationHandler.identify, bind_ok_iff] at h
  obtain ⟨found, hfound, _, _, h⟩ := h
  cases h
  refine ⟨hinput, ?_⟩
  rw [DefaultAuthorizationHandler.requestIdentity, mapError_ok,
    AuthenticatedPrincipalContext.fromGatewayHeaders] at hfound
  split at hfound
  · cases hfound
  · rename_i token htoken
    exact ⟨token, htoken, hfound⟩

/-- The question put to the catalog: may the principal, or one of its stored active groups,
take the action of the route on its resource? -/
def checkedRequest (table : PrincipalTable) (input : WorkloadRequest)
    (identity : AuthenticatedPrincipalContext) (route : ResolvedHttpRoute) :
    AuthorizationRequest :=
  { principalId := identity.principalId
    groupPrincipalIds := table.activeGroups identity.stableGroupIds
    action := route.action
    resourceUrn := route.resourceUrn
    parentUrns := route.parentUrns
    context := evaluationContext input identity }

/-- The catalog maps the request to one route and permits it. -/
structure Permitted (table : PrincipalTable) (catalog : Catalog) (input : WorkloadRequest)
    (identity : AuthenticatedPrincipalContext) (route : ResolvedHttpRoute) : Prop where
  principal : ∃ principal ∈ table.rows, principal.id = identity.principalId ∧
    principal.status = .active ∧ principal.kind = identity.kind
  route_eq : catalog.compiled.resolveHttpRoute input.method input.host input.path
    identity.trustedClaims.get = .ok route
  oneRoute : ∃ answers, collect (·.resolve input.method input.host input.path
      identity.trustedClaims.get) catalog.compiled.routes = .ok answers ∧
    answers.filterMap id = [route]
  allowed : ∃ binding ∈ catalog.policy.roleBindings, binding.effect = .allow ∧
    catalog.policy.Matches (checkedRequest table input identity route) binding
  notDenied : ¬∃ binding ∈ catalog.policy.roleBindings, binding.effect = .deny ∧
    catalog.policy.Matches (checkedRequest table input identity route) binding

/-- The context says what the catalog says. -/
structure Carries (table : PrincipalTable) (catalog : Catalog) (input : WorkloadRequest)
    (identity : AuthenticatedPrincipalContext) (route : ResolvedHttpRoute)
    (context : AccessContextInput) : Prop where
  principalId : context.principalId = identity.principalId
  action : context.action = route.action
  resourceUrn : context.resourceUrn = route.resourceUrn.display
  policyRevision : context.policyRevision = catalog.revision
  scope : (⟨context.allowResourceUrns, context.denyResourceUrns⟩ : AuthorizationScope) =
    catalog.compiled.authorizationScope identity.principalId
      (table.activeGroups identity.stableGroupIds) route.action
      (evaluationContext input identity)

omit [Wire] in
theorem evaluateOn_ok {table : PrincipalTable} {catalog : Catalog} {input : WorkloadRequest}
    {identity : AuthenticatedPrincipalContext} {expiry : Option Nat}
    {resolved : ResolvedRequestPrincipal} {evaluation : RequestEvaluation}
    (hresolves : table.Resolves identity resolved)
    (h : evaluateOn catalog.compiled input identity expiry resolved = .ok evaluation)
    (hallowed : evaluation.decision.allowed = true) :
    Permitted table catalog input identity evaluation.route ∧
      ∃ scope, evaluation.authorizationScope = some scope ∧
        Carries table catalog input identity evaluation.route
          (evaluation.accessContextInput scope) := by
  unfold evaluateOn at h
  split at h
  · cases h
  · rename_i route hroute
    cases h
    have hprincipal := hresolves.principalId
    have hgroups := hresolves.groups
    rw [← hprincipal] at hgroups
    have hpermits : catalog.policy.Permits (checkedRequest table input identity route) := by
      rw [← compiled_permits catalog.recompiles, checkedRequest, ← hprincipal]
      rw [authorize_groups_congr hgroups] at hallowed
      exact hallowed
    refine ⟨⟨hresolves.primary, hroute, (resolveRoute_ok _ _ _ _ _ _).mp hroute, hpermits.1,
      hpermits.2⟩, _, if_pos hallowed, hprincipal, rfl, rfl, rfl, ?_⟩
    rw [← hprincipal]
    exact authorizationScope_groups_congr hgroups

variable [Keys]

/-- The response hands the context on, signed or as a token the cache resolves. -/
inductive Delivers (scopes : List (String × String × Duration)) (response : CheckResponse)
    (context : AccessContext) : Prop
  | direct (encoded signed : String) (removed : List String)
      (headers : List (String × String)) : context.encode = .ok encoded →
      signEncoded encoded = .ok signed →
      response.http = .ok removed ((accessContextHeader, signed) :: headers) →
      Delivers scopes response context
  | token (encoded token : String) (ttl : Duration) (removed : List String)
      (headers : List (String × String)) : context.encode = .ok encoded →
      (token, encoded, ttl) ∈ scopes →
      response.http = .ok removed ((scopeTokenHeader, token) :: headers) →
      Delivers scopes response context

/-- A prepared delivery encodes the context. -/
def Delivery.Encodes (context : AccessContext) : Delivery → Prop
  | .direct signed => ∃ encoded, context.encode = .ok encoded ∧ signEncoded encoded = .ok signed
  | .store _ encoded => context.encode = .ok encoded

omit [Ipnet] in
theorem prepareDelivery_ok {handler : DefaultAuthorizationHandler} {context : AccessContext}
    {urnCount now : Nat} {random : List UInt8} {delivery : Delivery}
    (h : handler.prepareDelivery context urnCount now random = .ok delivery) :
    ∃ delivered : AccessContext, delivered.input = context.input ∧ delivery.Encodes delivered := by
  simp only [DefaultAuthorizationHandler.prepareDelivery, bind_ok_iff, mapError_ok] at h
  obtain ⟨encoded, hencoded, signed, hsigned, h⟩ := h
  split at h
  · cases h
    exact ⟨context, rfl, encoded, hencoded, hsigned⟩
  · simp only [bind_ok_iff, mapError_ok] at h
    obtain ⟨stored, hstored, h⟩ := h
    cases h
    exact ⟨AccessContext.new context.input now handler.scopeDelivery.scopeTokenTtl, rfl, hstored⟩

omit [Ipnet] in
theorem allowed_ok {handler : DefaultAuthorizationHandler} {evaluation : RequestEvaluation}
    {scope : AuthorizationScope} {now resignNow : Nat} {random : List UInt8} {delivery : Delivery}
    {resignToken : Option String} (hscope : evaluation.authorizationScope = some scope)
    (h : handler.allowed now resignNow random evaluation = .ok (delivery, resignToken)) :
    ∃ delivered : AccessContext, delivered.input = evaluation.accessContextInput scope ∧
      delivery.Encodes delivered := by
  simp only [DefaultAuthorizationHandler.allowed, hscope, bind_ok_iff] at h
  obtain ⟨_, _, prepared, hprepared, h⟩ := h
  cases h
  exact prepareDelivery_ok hprepared

omit [Ipnet] [Wire] [Keys] in
theorem permitted_http (handler : DefaultAuthorizationHandler) (delivery : AccessDelivery)
    (resignToken : Option String) :
    ∃ removed headers, (handler.permitted delivery resignToken).http = .ok removed
      ((match delivery with
        | .direct encoded => (accessContextHeader, encoded)
        | .token token => (scopeTokenHeader, token)) :: headers) := by
  cases delivery <;> exact ⟨_, _, rfl⟩

omit [Ipnet] [Wire] [Keys] in
theorem denied_code (failure : CheckFailure) : failure.denied.code ≠ .ok := by
  cases hstatus : failure.status <;> simp [CheckFailure.denied, HttpStatusCode.grpcCode, hstatus]

/-! Every stage of a request. -/

section
variable (handler : DefaultAuthorizationHandler) (request : CheckRequest) (initial : CheckState)

/-- The identity of the request, and a table of principals and a catalog that were in force
while it was under way. -/
structure InForce (past : List CheckEvent) (table : PrincipalTable) (catalog : Catalog)
    (input : WorkloadRequest) (identity : AuthenticatedPrincipalContext) : Prop where
  identifies : Identifies handler request input identity
  table_during : During handler.step initial past (·.principals = table)
  catalog_during : During handler.step initial past (·.published = catalog)

/-- The request was permitted on a catalog in force, and its context is delivered. -/
def Granted (past : List CheckEvent) (scopes : List (String × String × Duration))
    (response : CheckResponse) : Prop :=
  ∃ table catalog input identity route context,
    InForce handler request initial past table catalog input identity ∧
      Permitted table catalog input identity route ∧
      Carries table catalog input identity route context.input ∧
      Delivers scopes response context

/-- What is known of a request that has come this far. -/
def Stage.Sound (past : List CheckEvent) (scopes : List (String × String × Duration)) :
    Stage → Prop
  | .received asked => asked = request
  | .identified input identity _ => Identifies handler request input identity
  | .resolved input identity _ principal => Identifies handler request input identity ∧
      ∃ table, During handler.step initial past (·.principals = table) ∧
        table.Resolves identity principal
  | .pinned input identity _ principal catalog =>
      ∃ table, InForce handler request initial past table catalog input identity ∧
        table.Resolves identity principal
  | .decided evaluation => ∃ table catalog input identity scope,
      InForce handler request initial past table catalog input identity ∧
        evaluation.authorizationScope = some scope ∧
        Permitted table catalog input identity evaluation.route ∧
        Carries table catalog input identity evaluation.route
          (evaluation.accessContextInput scope)
  | .storing _ encoded _ => ∃ table catalog input identity route context,
      InForce handler request initial past table catalog input identity ∧
        Permitted table catalog input identity route ∧
        Carries table catalog input identity route context.input ∧
        AccessContext.encode context = .ok encoded
  | .responded response =>
      (response.code = .ok ∧ Granted handler request initial past scopes response) ∨
        ∃ failure : CheckFailure, response = failure.denied

variable {handler request initial}

theorem InForce.append {past : List CheckEvent} {table : PrincipalTable} {catalog : Catalog}
    {input : WorkloadRequest} {identity : AuthenticatedPrincipalContext}
    (h : InForce handler request initial past table catalog input identity)
    (more : List CheckEvent) :
    InForce handler request initial (past ++ more) table catalog input identity :=
  ⟨h.identifies, h.table_during.append more, h.catalog_during.append more⟩

/-- What is known stays known, whatever happens next. -/
theorem Stage.Sound.append {past : List CheckEvent} {scopes : List (String × String × Duration)}
    {stage : Stage} (h : stage.Sound handler request initial past scopes)
    (more : List CheckEvent) : stage.Sound handler request initial (past ++ more) scopes := by
  cases stage with
  | received => exact h
  | identified => exact h
  | resolved =>
      obtain ⟨hidentifies, table, htable, hresolves⟩ := h
      exact ⟨hidentifies, table, htable.append more, hresolves⟩
  | pinned =>
      obtain ⟨table, hforce, hresolves⟩ := h
      exact ⟨table, hforce.append more, hresolves⟩
  | decided =>
      obtain ⟨table, catalog, input, identity, scope, hforce, h⟩ := h
      exact ⟨table, catalog, input, identity, scope, hforce.append more, h⟩
  | storing =>
      obtain ⟨table, catalog, input, identity, route, context, hforce, h⟩ := h
      exact ⟨table, catalog, input, identity, route, context, hforce.append more, h⟩
  | responded =>
      cases h with
      | inr hdenied => exact .inr hdenied
      | inl hgranted =>
          obtain ⟨hcode, table, catalog, input, identity, route, context, hforce, h⟩ := hgranted
          exact .inl ⟨hcode, table, catalog, input, identity, route, context,
            hforce.append more, h⟩

theorem Stage.failed_sound {past : List CheckEvent} {scopes : List (String × String × Duration)}
    (failure : CheckFailure) : (Stage.failed failure).Sound handler request initial past scopes :=
  .inr ⟨failure, rfl⟩

section
variable {past : List CheckEvent} {scopes : List (String × String × Duration)}

theorem receive_sound :
    (handler.receive request).Sound handler request initial past scopes := by
  unfold DefaultAuthorizationHandler.receive
  split
  · exact Stage.failed_sound _
  · rename_i input hinput
    split
    · exact Stage.failed_sound _
    · rename_i identity expiry hidentify
      exact identify_ok hinput hidentify

theorem evaluate_sound {table : PrincipalTable} {catalog : Catalog} {input : WorkloadRequest}
    {identity : AuthenticatedPrincipalContext} {expiry : Option Nat}
    {principal : ResolvedRequestPrincipal}
    (hforce : InForce handler request initial past table catalog input identity)
    (hresolves : table.Resolves identity principal) :
    (Stage.evaluate catalog input identity expiry principal).Sound handler request initial past
      scopes := by
  unfold Stage.evaluate
  split
  · exact Stage.failed_sound _
  · rename_i evaluation hevaluation
    split
    · rename_i hallowed
      obtain ⟨hpermitted, scope, hscope, hcarries⟩ := evaluateOn_ok hresolves hevaluation hallowed
      exact ⟨table, catalog, input, identity, scope, hforce, hscope, hpermitted, hcarries⟩
    · exact Stage.failed_sound _

theorem deliver_sound {evaluation : RequestEvaluation} {now resignNow : Nat}
    {random : List UInt8}
    (h : (Stage.decided evaluation).Sound handler request initial past scopes) :
    (handler.deliver now resignNow random evaluation).Sound handler request initial past
      scopes := by
  obtain ⟨table, catalog, input, identity, scope, hforce, hscope, hpermitted, hcarries⟩ := h
  unfold DefaultAuthorizationHandler.deliver
  split
  · exact Stage.failed_sound _
  · rename_i signed resignToken hallowed
    obtain ⟨context, hinput, encoded, hencoded, hsigned⟩ := allowed_ok hscope hallowed
    obtain ⟨removed, headers, hhttp⟩ := permitted_http handler (.direct signed) resignToken
    rw [← hinput] at hcarries
    exact .inl ⟨rfl, table, catalog, input, identity, evaluation.route, context, hforce,
      hpermitted, hcarries, .direct encoded signed removed headers hencoded hsigned hhttp⟩
  · rename_i token encoded resignToken hallowed
    obtain ⟨context, hinput, hencoded⟩ := allowed_ok hscope hallowed
    rw [← hinput] at hcarries
    exact ⟨table, catalog, input, identity, evaluation.route, context, hforce, hpermitted,
      hcarries, hencoded⟩

theorem cached_sound {token encoded : String} {resignToken : Option String}
    (h : (Stage.storing token encoded resignToken).Sound handler request initial past scopes) :
    (Stage.responded (handler.permitted (.token token) resignToken)).Sound handler request initial
      past ((token, encoded, handler.scopeDelivery.scopeTokenTtl) :: scopes) := by
  obtain ⟨table, catalog, input, identity, route, context, hforce, hpermitted, hcarries,
    hencoded⟩ := h
  obtain ⟨removed, headers, hhttp⟩ := permitted_http handler (.token token) resignToken
  exact .inl ⟨rfl, table, catalog, input, identity, route, context, hforce, hpermitted, hcarries,
    .token encoded token _ removed headers hencoded List.mem_cons_self hhttp⟩

end

theorem step_sound {past : List CheckEvent} {reached next : CheckState} {event : CheckEvent}
    (hrun : Runs.run handler.step initial past = some reached)
    (h : reached.stage.Sound handler request initial past reached.scopes)
    (hstep : handler.step reached event = some next) :
    next.stage.Sound handler request initial (past ++ [event]) next.scopes := by
  apply Stage.Sound.append
  cases event with
  | install catalog => cases hstep; exact h
  | update principals => cases hstep; exact h
  | proceed =>
      simp only [DefaultAuthorizationHandler.step] at hstep
      split at hstep
      · rename_i asked hstage
        cases hstep
        rw [hstage] at h
        have hasked : asked = request := h
        rw [hasked]
        exact receive_sound
      · rename_i input identity expiry principal hstage
        cases hstep
        rw [hstage] at h
        obtain ⟨hidentifies, table, htable, hresolves⟩ := h
        exact ⟨table, ⟨hidentifies, htable, during_now hrun rfl⟩, hresolves⟩
      · rename_i input identity expiry principal catalog hstage
        cases hstep
        rw [hstage] at h
        obtain ⟨table, hforce, hresolves⟩ := h
        exact evaluate_sound hforce hresolves
      · cases hstep
  | lookup answer =>
      simp only [DefaultAuthorizationHandler.step] at hstep
      split at hstep
      · rename_i input identity expiry hstage
        rw [hstage] at h
        split at hstep
        · cases hstep
          exact Stage.failed_sound _
        · rename_i principal hresolved
          cases hstep
          exact ⟨h, reached.principals, during_now hrun rfl, resolveRequest_ok hresolved⟩
      · cases hstep
  | deliver now resignNow random =>
      simp only [DefaultAuthorizationHandler.step] at hstep
      split at hstep
      · rename_i evaluation hstage
        cases hstep
        rw [hstage] at h
        exact deliver_sound h
      · cases hstep
  | cached answer =>
      simp only [DefaultAuthorizationHandler.step] at hstep
      split at hstep
      · cases hstep
        exact Stage.failed_sound _
      · rename_i token encoded resignToken hstage
        cases hstep
        rw [hstage] at h
        exact cached_sound h
      · cases hstep

/-- In every run of a check, with catalogs installed and principals changed at any moment:
an OK answer is granted on one catalog in force, and every other answer is a denial. -/
theorem check_fails_closed (handler : DefaultAuthorizationHandler) (request : CheckRequest)
    (initial final : CheckState) (events : List CheckEvent) (response : CheckResponse)
    (hreceived : initial.stage = .received request)
    (hrun : Runs.run handler.step initial events = some final)
    (hresponse : final.stage = .responded response) :
    (response.code = .ok ∧ Granted handler request initial events final.scopes response) ∨
      (response.code ≠ .ok ∧ ∃ failure : CheckFailure, response = failure.denied) := by
  have hsound := run_history_invariant
    (fun past reached => reached.stage.Sound handler request initial past reached.scopes)
    (fun _ _ _ _ hrun h hstep => step_sound hrun h hstep) hrun (by rw [hreceived]; exact rfl)
  rw [hresponse] at hsound
  cases hsound with
  | inl hgranted => exact .inl hgranted
  | inr hdenied =>
      obtain ⟨failure, rfl⟩ := hdenied
      exact .inr ⟨denied_code failure, failure, rfl⟩

end

end

namespace Payroll

/-! One checked request. -/

def ascii (text : String) : List UInt8 := text.toList.map fun c => c.toNat.toUInt8

def base64Digit (value : Nat) : Char :=
  if value < 26 then Char.ofNat ('A'.toNat + value)
  else if value < 52 then Char.ofNat ('a'.toNat + (value - 26))
  else if value < 62 then Char.ofNat ('0'.toNat + (value - 52))
  else if value = 62 then '-'
  else '_'

/-- Base64URL without padding. -/
def base64Url : List UInt8 → List Char
  | [] => []
  | [a] => [a.toNat / 4, a.toNat % 4 * 16].map base64Digit
  | [a, b] =>
      [a.toNat / 4, a.toNat % 4 * 16 + b.toNat / 16, b.toNat % 16 * 4].map base64Digit
  | a :: b :: c :: rest =>
      [a.toNat / 4, a.toNat % 4 * 16 + b.toNat / 16, b.toNat % 16 * 4 + c.toNat / 64,
        c.toNat % 64].map base64Digit ++ base64Url rest

def quoted (text : String) : String := "\"" ++ text ++ "\""

def printValue : Json → String
  | .number value => value.text
  | .string value => quoted value
  | .array items => "[" ++ ",".intercalate (items.map fun item =>
      quoted (item.toStr.getD "")) ++ "]"
  | _ => "null"

/-- Compact JSON for flat objects without characters to escape. -/
def printFlat : Json → String
  | .object fields => "\x7b" ++ ",".intercalate (fields.map fun field =>
      quoted field.1 ++ ":" ++ printValue field.2) ++ "\x7d"
  | value => printValue value

/-- The claims of the token. -/
def claims : Json :=
  .object [("principal_id", .string "alice"), ("principal_kind", .string "USER")]

scoped instance plainWire : Wire where
  headerName name := some (String.ofList (name.toList.map Char.toLower))
  headerValue _ := true
  isText _ := true
  decodeNoPad text :=
    if text.toList = base64Url (ascii (printFlat claims)) then some (ascii (printFlat claims))
    else none
  decodePadded _ := none
  encodeNoPad bytes := String.ofList (base64Url bytes)
  fromSlice bytes := if bytes = ascii (printFlat claims) then some claims else none
  toVec json := .ok (ascii (printFlat json))

/-- The signature of the context of the request below, under a key of 32 times `k`. -/
scoped instance directKey : Keys where
  hmac _ := .ok [206, 19, 109, 167, 164, 193, 54, 166, 17, 113, 214, 255, 143, 105, 150, 146, 121,
    12, 143, 30, 192, 46, 177, 123, 220, 152, 143, 73, 246, 77, 244, 112]
  rsa _ _ := []

def handler : DefaultAuthorizationHandler where
  identity := ⟨"authorization", "principal_id", "principal_kind", "authguard_group_ids"⟩
  scopeDelivery := ⟨0, 4096, Duration.fromSecs 30, Duration.fromSecs 60⟩
  resign := none

def bearer : String := "Bearer x." ++ String.ofList (base64Url (ascii (printFlat claims))) ++ ".y"

def checkRequest : CheckRequest :=
  ⟨some
    { source := some ⟨some (some (.socketAddress "10.0.0.1"))⟩
      request := some (some
        { method := "GET", path := "/payrolls/january?view=full", host := "payroll.internal",
          scheme := "https", headers := [("authorization", bearer)] }) }⟩

def principals : PrincipalTable where
  rows := [⟨"alice", .user, .active⟩, ⟨"contractors", .group, .active⟩]
  unique := by decide

def received (catalog : Catalog) : CheckState :=
  ⟨catalog, principals, [], .received checkRequest⟩

/-- The policy is cleared after the catalog was read. -/
def checkEvents (cleared : Catalog) : List CheckEvent :=
  [.proceed, .lookup (.ok ()), .proceed, .install cleared, .proceed,
    .deliver 1700000000 1700000000 (ascii "a random token of 32 bytes......"), .cached (.ok ())]

def answeredOk (state : CheckState) : Bool :=
  match state.stage with
  | .responded response => decide (response.code = .ok)
  | _ => false

theorem january_checked :
    ∃ catalog cleared final response,
      Runs.run handler.step (received catalog) (checkEvents cleared) = some final ∧
      final.stage = .responded response ∧
      Granted handler checkRequest (received catalog) (checkEvents cleared) final.scopes
        response := by
  have hchecked : ((Catalog.compile policy 1).toOption.any fun catalog =>
      (Catalog.compile {} 1).toOption.any fun cleared =>
        (Runs.run handler.step (received catalog) (checkEvents cleared)).any fun final =>
          decide (answeredOk final = true)) = true := by decide +kernel
  obtain ⟨catalog, -, hchecked⟩ := (Option.any_eq_true _ _).mp hchecked
  obtain ⟨cleared, -, hchecked⟩ := (Option.any_eq_true _ _).mp hchecked
  obtain ⟨final, hrun, hanswered⟩ := exists_run_of_any hchecked
  unfold answeredOk at hanswered
  split at hanswered
  · rename_i response hresponse
    cases check_fails_closed handler checkRequest (received catalog) final
      (checkEvents cleared) response rfl hrun hresponse with
    | inl hgranted => exact ⟨catalog, cleared, final, response, hrun, hresponse, hgranted.2⟩
    | inr hdenied => exact absurd (of_decide_eq_true hanswered) hdenied.1
  · cases hanswered

end Payroll

end Authguard
