import Authguard.Metatheory.PushdownDecisions
import Authguard.Metatheory.ScopeDelivery

/-!
From a check to the rows of a list query. The scope of an allowed evaluation is
delivered, read by the workload and pushed down; the rows the workload then selects
are those on which the catalog permits the same principal the same action. The message
a scope token is resolved with is short enough to be sent.
-/

namespace Authguard
open Text Result Sql HttpHeader

section
variable [Ipnet]

theorem evaluateOn_scope {catalog : CompiledPolicy} {input : WorkloadRequest}
    {identity : AuthenticatedPrincipalContext} {expiry : Option Nat}
    {resolved : ResolvedRequestPrincipal} {evaluation : RequestEvaluation}
    {scope : AuthorizationScope}
    (h : evaluateOn catalog input identity expiry resolved = .ok evaluation)
    (hscope : evaluation.authorizationScope = some scope) :
    catalog.authorizationScope resolved.principalId resolved.groupPrincipalIds
      evaluation.route.action (evaluationContext input identity) = scope := by
  unfold evaluateOn at h
  split at h
  · cases h
  · cases h
    rw [Option.ite_none_right_eq_some] at hscope
    exact Option.some.inj hscope.2

variable [Wire] [Keys]

/-- What the workload has entered gives it a statement for the action of the route, and for no
other, which selects the rows that the catalog permits. -/
structure Pushed (catalog : Catalog) (input : WorkloadRequest)
    (identity : AuthenticatedPrincipalContext) (resolved : ResolvedRequestPrincipal)
    (action : String) (mapping : ResourceSqlMapping) (current : Option RequestAccess)
    (sql : SqlScope) : Prop where
  issued : Rust.currentScopeForAction current action mapping = .ok sql
  otherwise : ∀ other, other ≠ action → Rust.currentScopeForAction current other mapping =
    .error (.actionMismatch other action)
  selects : sql.Selects mapping fun resourceUrn => (catalog.compiled.authorize
    { principalId := resolved.principalId
      groupPrincipalIds := resolved.groupPrincipalIds
      action
      resourceUrn
      context := evaluationContext input identity }).allowed = true

theorem delivered_rows (hwire : Wire.Standard) (hkeys : Keys.Standard) (catalog : Catalog)
    (input : WorkloadRequest) (identity : AuthenticatedPrincipalContext) (expiry : Option Nat)
    (resolved : ResolvedRequestPrincipal) (evaluation : RequestEvaluation)
    (hevaluated : evaluateOn catalog.compiled input identity expiry resolved = .ok evaluation)
    (handler : DefaultAuthorizationHandler) (scope : AuthorizationScope) (now : Nat)
    (prepared : Delivery) (resignToken : Option String)
    (hdelivered : Delivered handler evaluation scope now prepared resignToken)
    (loadScope : LoadScope) (response : ResponseProperties) (resolvedAt instant : Nat)
    (resolvers : List AccessContextResolver) (client : ScopeTokenClient)
    (hattended : Attended prepared now (prepared.ttl handler.scopeDelivery) loadScope response
      resolvedAt instant resolvers client)
    (hfits : prepared.Fits response) (headers : Headers) (mapping : ResourceSqlMapping)
    (columns : ∀ entry ∈ mapping.path, entry.isRemainder = false) :
    ∃ current sql,
      enter resolvers instant
        (httpHeaderAccessRequest (handler.upstream prepared.delivery resignToken headers)) =
          .ok current ∧
      Pushed catalog input identity resolved evaluation.route.action mapping current sql := by
  obtain ⟨sql, hsends, hselects⟩ := sends_selects columns
    (catalog.scope_read resolved.principalId resolved.groupPrincipalIds evaluation.route.action
      (evaluationContext input identity))
  rw [evaluateOn_scope hevaluated hdelivered.scope_eq] at hsends
  refine ⟨some (evaluation.requestAccess scope), sql,
    (enter_delivered hwire hkeys hdelivered hattended headers).1 hfits, ?_, ?_,
    hselects.permitted⟩
  · rw [Rust.currentScopeForAction_eq_ok]
    refine ⟨rfl, ?_⟩
    change (Rust.compileScope mapping scope.allowResourceUrns
      scope.denyResourceUrns).mapError CurrentScopeError.compile = .ok sql
    rw [mapError_ok]
    exact hsends.rust
  · intro other hother
    exact if_pos hother.symm

end

/-! The payrolls of the policy, listed by their service. -/

namespace PayrollRows
open Documents (ascii print wire wire_standard wire_keepsObject)
open Payroll (policy request mapping row row_ok)
open PayrollService (handler random token response)
open scoped Payroll

def alice : AuthenticatedPrincipalContext := ⟨"alice", .user, ["contractors"], .empty, none, []⟩

def listing : WorkloadRequest where
  method := "GET"
  host := "payroll.internal"
  path := "/payrolls/january"
  headers := []
  sourceIp := some (.v4 0x0A000001#32)
  secureTransport := true

def grant : AuthorizationScope :=
  ⟨["urn:iam:*:payroll:*:default:payroll/**"], ["urn:iam:*:payroll:*:default:payroll/board"]⟩

def evaluation : RequestEvaluation where
  principalId := "alice"
  route := ⟨"payroll-read", "payroll.read", (request "january").resourceUrn, []⟩
  decision := ⟨true, "matched role binding", some "office"⟩
  authorizationScope := some grant
  policyRevision := 1
  identity := alice
  sourceExpiresAtEpochSeconds := none

def context : AccessContext :=
  AccessContext.new (evaluation.accessContextInput grant) 1700000000 (Duration.fromSecs 30)

scoped instance contextWire : Wire := wire [context.fields]

/-- The mac of the one context, under a key of 32 times `k`. -/
def mac : List UInt8 :=
  [199, 60, 255, 6, 10, 229, 5, 85, 251, 1, 84, 90, 166, 202, 198, 72, 144, 176, 41, 91, 221, 248,
    99, 0, 28, 252, 178, 179, 91, 179, 74, 234]

scoped instance contextKeys : Keys where
  hmac _ := .ok mac
  rsa _ _ := []

theorem contextKeys_standard : Keys.Standard := by
  intro text found h
  cases h
  rfl

theorem context_kept : Wire.KeepsObject context.fields :=
  wire_keepsObject (List.find?_cons_of_pos (by simp))

def encoded : String := Wire.encodeNoPad (ascii (print context.fields))

theorem delivered :
    Delivered handler evaluation grant 1700000000 (.store token encoded) none where
  contextTtl := by decide
  scopeTokenTtl := by decide
  clock := by norm_num
  scope_eq := rfl
  allowed := ⟨1700000000, random, rfl, rfl⟩
  json := context_kept

def loadScope : LoadScope := fun _ => .ok (some encoded)

def client : ScopeTokenClient := grpcScopeTokenClient (fun _ => "unauthenticated") fun token =>
  response.encoded (resolveScope loadScope 1700000010 token)

theorem attended :
    Attended (.store token encoded) 1700000000 (Duration.fromSecs 30) loadScope response 1700000010
      1700000020 [.header, .grpc client] client where
  cached := rfl
  served := ⟨by norm_num [saturatingAdd],
    by norm_num [saturatingAdd, Duration.asSecs, Duration.fromSecs]⟩
  read := ⟨by norm_num [saturatingAdd],
    by norm_num [saturatingAdd, Duration.asSecs, Duration.fromSecs]⟩
  configured := ⟨by simp, by simp, by simp⟩
  answers := ⟨_, rfl⟩

theorem fits : (Delivery.store token encoded).Fits response :=
  PayrollService.fits_of_length
    ((Documents.length_print_le context.fields).trans (by decide +kernel)) token

/-- The list has the payroll of January, and not the board's. -/
theorem january_listed :
    ∃ current sql,
      enter [.header, .grpc client] 1700000020
        (httpHeaderAccessRequest (handler.upstream (.token token) none
          [("x-authguard-context", "forged")])) = .ok current ∧
      Rust.currentScopeForAction current "payroll.read" mapping = .ok sql ∧
      satisfies (row "january") sql.whereClause sql.params = true ∧
      satisfies (row "board") sql.whereClause sql.params = false := by
  obtain ⟨current, sql, hentered, hpushed⟩ := delivered_rows (wire_standard _)
    contextKeys_standard ⟨_, policy, 1, rfl⟩ listing alice none ⟨"alice", ["contractors"]⟩
    evaluation (by decide +kernel) handler grant 1700000000 (.store token encoded) none delivered
    loadScope response 1700000010 1700000020 [.header, .grpc client] client attended fits
    [("x-authguard-context", "forged")] mapping (by decide)
  refine ⟨current, sql, hentered, hpushed.issued, ?_, ?_⟩
  · rw [hpushed.selects _ (row_ok ⟨by decide, by decide, by decide⟩)]
    decide
  · rw [Bool.eq_false_iff, ne_eq,
      hpushed.selects _ (row_ok ⟨by decide, by decide, by decide⟩)]
    decide

end PayrollRows

end Authguard
