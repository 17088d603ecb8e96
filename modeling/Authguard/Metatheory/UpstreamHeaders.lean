import Authguard.Metatheory.CheckDelivery
import Authguard.Metatheory.WireFormat

/-!
What an authorized request carries upstream. The gateway removes and overwrites
headers as the OK answer says; the client's own identity headers must not get
through, whichever way its credential arrived. The credential of the browser
travels in a cookie, which the answer does not touch.
-/

namespace Authguard
open Text HttpHeader

def AccessDelivery.header : AccessDelivery → String
  | .direct _ => accessContextHeader
  | .token _ => scopeTokenHeader

def AccessDelivery.unusedHeader : AccessDelivery → String
  | .direct _ => scopeTokenHeader
  | .token _ => accessContextHeader

def AccessDelivery.value : AccessDelivery → String
  | .direct encoded => encoded
  | .token value => value

section
variable (handler : DefaultAuthorizationHandler)

def DefaultAuthorizationHandler.readsBearer : Bool :=
  eqIgnoreAsciiCase handler.identity.tokenHeader "authorization"

/-- The names an OK answer removes. -/
def DefaultAuthorizationHandler.removedHeaders (delivery : AccessDelivery)
    (resignToken : Option String) : List String :=
  (if resignToken.isNone then ["authorization"] else []) ++ legacyAccessHeaders ++
    untrustedIdentityHeaders ++
    (if resignToken.isNone || !handler.readsBearer then [handler.identity.tokenHeader] else []) ++
    [delivery.unusedHeader]

/-- The headers it sets. -/
def setHeaders (delivery : AccessDelivery) (resignToken : Option String) :
    List (String × String) :=
  (delivery.header, delivery.value) ::
    (resignToken.map fun token => ("authorization", "Bearer " ++ token)).toList

theorem allowedHttpResponse_eq (delivery : AccessDelivery) (resignToken : Option String) :
    handler.allowedHttpResponse delivery resignToken =
      .ok (handler.removedHeaders delivery resignToken) (setHeaders delivery resignToken) := by
  cases delivery with
  | direct | token => rfl

/-- The headers that go upstream. -/
def DefaultAuthorizationHandler.upstream (delivery : AccessDelivery)
    (resignToken : Option String) (headers : Headers) : Headers :=
  mutate (handler.removedHeaders delivery resignToken) (setHeaders delivery resignToken) headers

variable {handler}

theorem lower_tokenHeader : lower handler.identity.tokenHeader = "authorization" ↔
    handler.readsBearer = true := by
  rw [DefaultAuthorizationHandler.readsBearer, eqIgnoreAsciiCase_iff]
  exact Iff.rfl

/-- The token header is neither of the delivery headers. -/
structure IdentityProperties.Apart (identity : IdentityProperties) : Prop where
  context : eqIgnoreAsciiCase identity.tokenHeader accessContextHeader = false
  scope : eqIgnoreAsciiCase identity.tokenHeader scopeTokenHeader = false

theorem IdentityProperties.Apart.ne_header {identity : IdentityProperties} (h : identity.Apart)
    (delivery : AccessDelivery) : lower identity.tokenHeader ≠ lower delivery.header := by
  intro hsame
  cases delivery with
  | direct => exact Bool.eq_false_iff.mp h.context (eqIgnoreAsciiCase_iff.mpr hsame)
  | token => exact Bool.eq_false_iff.mp h.scope (eqIgnoreAsciiCase_iff.mpr hsame)

/-! Names that are constants of the answer. -/

def fixedHeaders (unused : String) : List String :=
  unused :: (legacyAccessHeaders ++ untrustedIdentityHeaders)

structure NamesApart (used unused : String) : Prop where
  used_fixed : lower used ∉ (fixedHeaders unused).map lower
  authorization_fixed : "authorization" ∉ (fixedHeaders unused).map lower
  cookie_fixed : "cookie" ∉ (fixedHeaders unused).map lower
  used_authorization : lower used ≠ "authorization"
  used_cookie : lower used ≠ "cookie"

theorem namesApart (delivery : AccessDelivery) :
    NamesApart delivery.header delivery.unusedHeader := by
  cases delivery with
  | direct encoded =>
      have h : NamesApart accessContextHeader scopeTokenHeader :=
        ⟨by decide, by decide, by decide, by decide, by decide⟩
      exact h
  | token value =>
      have h : NamesApart scopeTokenHeader accessContextHeader :=
        ⟨by decide, by decide, by decide, by decide, by decide⟩
      exact h

theorem mem_removedHeaders {delivery : AccessDelivery} {resignToken : Option String}
    {name : String} :
    name ∈ (handler.removedHeaders delivery resignToken).map lower ↔
      name ∈ (fixedHeaders delivery.unusedHeader).map lower ∨
        (name = "authorization" ∧ resignToken = none) ∨
        (name = lower handler.identity.tokenHeader ∧
          (resignToken = none ∨ handler.readsBearer = false)) := by
  have hauthorization : lower "authorization" = "authorization" := rfl
  simp only [DefaultAuthorizationHandler.removedHeaders, fixedHeaders, List.map_append,
    List.map_cons, List.mem_append, List.mem_cons]
  -- the rest is about which of the lists the name is in
  generalize (name ∈ List.map lower legacyAccessHeaders) = legacy
  generalize (name ∈ List.map lower untrustedIdentityHeaders) = untrusted
  generalize (name = lower delivery.unusedHeader) = unused
  cases resignToken with
  | none =>
      simp only [Option.isNone_none, if_true, Bool.true_or, List.map_cons, List.map_nil,
        List.mem_singleton, hauthorization, true_or, and_true]
      tauto
  | some token =>
      cases hbearer : handler.readsBearer with
      | true => simp; tauto
      | false => simp; tauto

theorem mem_setHeaders {delivery : AccessDelivery} {resignToken : Option String}
    {entry : String × String} :
    entry ∈ setHeaders delivery resignToken ↔
      entry = (delivery.header, delivery.value) ∨
        ∃ token, resignToken = some token ∧ entry = ("authorization", "Bearer " ++ token) := by
  cases resignToken with
  | none => simp [setHeaders]
  | some token => simp [setHeaders]

/-- What goes upstream under one name. -/
theorem values_upstream (delivery : AccessDelivery) (resignToken : Option String)
    (headers : Headers) (name : String) :
    values (handler.upstream delivery resignToken headers) name =
      if lower name = lower delivery.header then [delivery.value]
      else match resignToken with
        | some token =>
            if lower name = "authorization" then ["Bearer " ++ token]
            else if lower name ∈ (handler.removedHeaders delivery (some token)).map lower then []
            else values headers name
        | none =>
            if lower name ∈ (handler.removedHeaders delivery none).map lower then []
            else values headers name := by
  cases resignToken with
  | none =>
      simp only [DefaultAuthorizationHandler.upstream, mutate, setHeaders, Option.map_none,
        Option.toList_none, List.foldl_cons, List.foldl_nil, values_overwrite, values_removeAll]
  | some token =>
      simp only [DefaultAuthorizationHandler.upstream, mutate, setHeaders, Option.map_some,
        Option.toList_some, List.foldl_cons, List.foldl_nil, values_overwrite, values_removeAll]
      have hauthorization : lower "authorization" = "authorization" := rfl
      rw [hauthorization]
      by_cases hname : lower name = "authorization"
      · rw [if_pos hname, if_neg (by rw [hname]; exact (namesApart delivery).used_authorization.symm),
          if_pos hname]
      · rw [if_neg hname, if_neg hname]

theorem removed_apart_set (hapart : handler.identity.Apart) (delivery : AccessDelivery)
    (resignToken : Option String) {name : String}
    (hname : name ∈ handler.removedHeaders delivery resignToken) {entry : String × String}
    (hentry : entry ∈ setHeaders delivery resignToken) :
    eqIgnoreAsciiCase name entry.1 = false := by
  rw [Bool.eq_false_iff, ne_eq, eqIgnoreAsciiCase_iff]
  intro hsame
  have hremoved := mem_removedHeaders.mp (List.mem_map_of_mem (f := lower) hname)
  have hnames := namesApart delivery
  rw [hsame] at hremoved
  obtain rfl | ⟨token, rfl, rfl⟩ := mem_setHeaders.mp hentry
  · obtain h | ⟨h, -⟩ | ⟨h, -⟩ := hremoved
    · exact hnames.used_fixed h
    · exact hnames.used_authorization h
    · exact hapart.ne_header delivery h.symm
  · have hauthorization : lower "authorization" = "authorization" := rfl
    rw [hauthorization] at hremoved
    obtain h | ⟨-, h⟩ | ⟨h, h' | h'⟩ := hremoved
    · exact hnames.authorization_fixed h
    · cases h
    · cases h'
    · rw [lower_tokenHeader.mp h.symm] at h'
      cases h'

theorem values_stripped (delivery : AccessDelivery) (resignToken : Option String)
    (headers : Headers) {name : String} (hname : name ∈ fixedHeaders delivery.unusedHeader) :
    values (handler.upstream delivery resignToken headers) name = [] := by
  have hlower := List.mem_map_of_mem (f := lower) hname
  have hnames := namesApart delivery
  have hremoved : lower name ∈ (handler.removedHeaders delivery resignToken).map lower :=
    mem_removedHeaders.mpr (.inl hlower)
  have hused : lower name ≠ lower delivery.header :=
    fun h => hnames.used_fixed (h ▸ hlower)
  have hauthorization : lower name ≠ "authorization" :=
    fun h => hnames.authorization_fixed (h ▸ hlower)
  rw [values_upstream, if_neg hused]
  cases resignToken with
  | none => exact if_pos hremoved
  | some token =>
      dsimp only
      rw [if_neg hauthorization, if_pos hremoved]

/-- The cookie goes through where the token header is not the cookie itself. -/
theorem values_cookie (delivery : AccessDelivery) (resignToken : Option String)
    (headers : Headers) (hbearer : handler.readsBearer = true) :
    values (handler.upstream delivery resignToken headers) "cookie" = values headers "cookie" := by
  have hnames := namesApart delivery
  have hcookie : lower "cookie" = "cookie" := rfl
  have hkept : "cookie" ∉ (handler.removedHeaders delivery resignToken).map lower := by
    rw [mem_removedHeaders]
    rintro (h | ⟨h, -⟩ | ⟨h, -⟩)
    · exact hnames.cookie_fixed h
    · revert h
      decide
    · rw [lower_tokenHeader.mpr hbearer] at h
      revert h
      decide
  rw [values_upstream, hcookie, if_neg hnames.used_cookie.symm]
  cases resignToken with
  | none => exact if_neg hkept
  | some token =>
      dsimp only
      rw [if_neg (by decide), if_neg hkept]

theorem values_tokenHeader_removed (hapart : handler.identity.Apart) (delivery : AccessDelivery)
    (resignToken : Option String) (headers : Headers)
    (hremoved : resignToken = none ∨ handler.readsBearer = false) :
    values (handler.upstream delivery resignToken headers) handler.identity.tokenHeader = [] := by
  have hmem : lower handler.identity.tokenHeader ∈
      (handler.removedHeaders delivery resignToken).map lower :=
    mem_removedHeaders.mpr (.inr (.inr ⟨rfl, hremoved⟩))
  rw [values_upstream, if_neg (hapart.ne_header delivery)]
  cases resignToken with
  | none => exact if_pos hmem
  | some token =>
      obtain h | hbearer := hremoved
      · cases h
      · dsimp only
        rw [if_neg, if_pos hmem]
        intro h
        rw [lower_tokenHeader.mp h] at hbearer
        cases hbearer

/-! The credential. -/

section
variable [Wire]

/-- The credential of a browser, where the token header makes cookies count. -/
def DefaultAuthorizationHandler.cookieToken (handler : DefaultAuthorizationHandler)
    (headers : HeaderMap) : Option String :=
  if handler.readsBearer then cookieValue headers "authguard_token" else none

theorem text_of_values_nil (hwire : Wire.Standard) {headers : Headers} {name : String}
    (h : values headers name = []) : (headerMap headers).text name = none := by
  rw [HeaderMap.text, headerMap_get hwire, h]
  split <;> rfl

theorem cookieToken_upstream (hwire : Wire.Standard) (delivery : AccessDelivery)
    (resignToken : Option String) (headers : Headers) :
    handler.cookieToken (headerMap (handler.upstream delivery resignToken headers)) =
      handler.cookieToken (headerMap headers) := by
  unfold DefaultAuthorizationHandler.cookieToken
  cases hbearer : handler.readsBearer with
  | false => rfl
  | true =>
      have hname : (HttpHeader.name "cookie").isSome = true := by decide
      simp only [if_true, cookieValue, headerMap_text hwire hname,
        values_cookie delivery resignToken headers hbearer]

theorem gatewayToken_of_values_nil (hwire : Wire.Standard) {headers : Headers}
    (h : values headers handler.identity.tokenHeader = []) :
    gatewayToken (headerMap headers) handler.identity.tokenHeader =
      handler.cookieToken (headerMap headers) := by
  simp only [gatewayToken, text_of_values_nil hwire h]
  rfl

theorem gatewayToken_resigned (hwire : Wire.Standard) (delivery : AccessDelivery)
    {token : String} (hcompact : IsCompact token) (hne : token ≠ "") (headers : Headers)
    (hapart : handler.identity.Apart) (hbearer : handler.readsBearer = true) :
    gatewayToken (headerMap (handler.upstream delivery (some token) headers))
      handler.identity.tokenHeader = some token := by
  have hlower := lower_tokenHeader.mpr hbearer
  have hname : (HttpHeader.name handler.identity.tokenHeader).isSome = true := by
    rw [HttpHeader.name, hlower]
    decide
  have hvalues : values (handler.upstream delivery (some token) headers)
      handler.identity.tokenHeader = ["Bearer " ++ token] := by
    rw [values_upstream, if_neg (hapart.ne_header delivery)]
    exact if_pos hlower
  have hvisible : HttpHeader.isText ("Bearer " ++ token) = true := by
    have htoken := hcompact.isText
    rw [HttpHeader.isText] at htoken ⊢
    rw [String.toList_append, List.all_append, htoken]
    decide
  have htext : (headerMap (handler.upstream delivery (some token) headers)).text
      handler.identity.tokenHeader = some ("Bearer " ++ token) := by
    rw [headerMap_text hwire hname, hvalues]
    simp [isValue_of_isText hvisible, hvisible]
  have hnonempty : (some ("Bearer " ++ token)).filter (· != "") = some ("Bearer " ++ token) := by
    simp
  have hreads : eqIgnoreAsciiCase handler.identity.tokenHeader "authorization" = true := hbearer
  simp only [gatewayToken, htext, hreads, if_true, hnonempty, Option.bind_some,
    bearerValue_bearer hcompact hne, Option.some_or]

/-- No identity the client controls reaches the workload. -/
structure CleanUpstream (handler : DefaultAuthorizationHandler) (delivery : AccessDelivery)
    (resignToken : Option String) (removed : List String) (set : List (String × String))
    (headers : Headers) : Prop where
  disjoint : ∀ name ∈ removed, ∀ entry ∈ set, eqIgnoreAsciiCase name entry.1 = false
  stripped : ∀ name ∈ delivery.unusedHeader :: (legacyAccessHeaders ++ untrustedIdentityHeaders),
    values (mutate removed set headers) name = []
  delivered : values (mutate removed set headers) delivery.header = [delivery.value]
  identity : gatewayToken (headerMap (mutate removed set headers)) handler.identity.tokenHeader =
      none ∨
    ∃ token, resignToken = some token ∧
      gatewayToken (headerMap (mutate removed set headers)) handler.identity.tokenHeader =
        some token
  credential : ∀ token,
    gatewayToken (headerMap headers) handler.identity.tokenHeader = some token →
      handler.cookieToken (headerMap (mutate removed set headers)) ≠ some token

/-- The credential did not arrive in a cookie, or it is replaced and was not the cookie. -/
def DefaultAuthorizationHandler.CookieUnused (handler : DefaultAuthorizationHandler)
    (headers : HeaderMap) : Prop :=
  handler.readsBearer = false ∨ cookieValue headers "authguard_token" = none ∨
    (handler.resign.isSome = true ∧
      cookieValue headers "authguard_token" ≠ gatewayToken headers handler.identity.tokenHeader)

theorem cleanUpstream_iff (hwire : Wire.Standard) (hapart : handler.identity.Apart)
    (delivery : AccessDelivery) {resignToken : Option String}
    (hresigned : (resignToken = none ∧ handler.resign = none) ∨
      ∃ token, resignToken = some token ∧ handler.resign.isSome = true ∧ IsCompact token ∧
        token ≠ "")
    {headers : Headers} {token : String}
    (haccepted : gatewayToken (headerMap headers) handler.identity.tokenHeader = some token) :
    CleanUpstream handler delivery resignToken (handler.removedHeaders delivery resignToken)
        (setHeaders delivery resignToken) headers ↔
      handler.CookieUnused (headerMap headers) := by
  have hcookie : handler.cookieToken (headerMap (handler.upstream delivery resignToken headers)) =
      handler.cookieToken (headerMap headers) :=
    cookieToken_upstream hwire delivery resignToken headers
  have hstripped := values_tokenHeader_removed hapart delivery resignToken headers
  have hrest : CleanUpstream handler delivery resignToken
      (handler.removedHeaders delivery resignToken) (setHeaders delivery resignToken) headers ↔
      (gatewayToken (headerMap (handler.upstream delivery resignToken headers))
            handler.identity.tokenHeader = none ∨
          ∃ token, resignToken = some token ∧
            gatewayToken (headerMap (handler.upstream delivery resignToken headers))
              handler.identity.tokenHeader = some token) ∧
        handler.cookieToken (headerMap headers) ≠ some token := by
    constructor
    · intro h
      exact ⟨h.identity, hcookie ▸ h.credential token haccepted⟩
    · rintro ⟨hidentity, hcredential⟩
      refine ⟨fun _ hname _ => removed_apart_set hapart delivery resignToken hname,
        fun _ hname => values_stripped delivery resignToken headers hname, ?_, hidentity, ?_⟩
      · change values (handler.upstream delivery resignToken headers) delivery.header =
          [delivery.value]
        rw [values_upstream, if_pos rfl]
      · intro other hother
        rw [haccepted, Option.some.injEq] at hother
        rw [← hother]
        exact hcookie ▸ hcredential
  rw [hrest, DefaultAuthorizationHandler.CookieUnused, haccepted]
  cases hbearer : handler.readsBearer with
  | false =>
      have hno : handler.cookieToken (headerMap headers) = none := by
        simp [DefaultAuthorizationHandler.cookieToken, hbearer]
      rw [gatewayToken_of_values_nil hwire (hstripped (.inr hbearer)), hcookie, hno]
      simp
  | true =>
      have hyes : handler.cookieToken (headerMap headers) =
          cookieValue (headerMap headers) "authguard_token" := by
        simp [DefaultAuthorizationHandler.cookieToken, hbearer]
      obtain ⟨rfl, hresign⟩ | ⟨resigned, rfl, hresign, hcompact, hne⟩ := hresigned
      · rw [gatewayToken_of_values_nil hwire (hstripped (.inl rfl)), hcookie, hyes, hresign]
        simp only [reduceCtorEq, false_and, exists_false, or_false, Bool.true_eq_false, false_or,
          Option.isSome_none, Bool.false_eq_true]
        exact and_iff_left_of_imp fun hnone => by simp [hnone]
      · rw [gatewayToken_resigned hwire delivery hcompact hne headers hapart hbearer, hyes,
          hresign]
        simp only [reduceCtorEq, Option.some.injEq, exists_eq_left', or_true, true_and,
          Bool.true_eq_false, false_or]
        constructor
        · exact .inr
        · rintro (hnone | hother)
          · simp [hnone]
          · exact hother

/-! The headers of an answered check. -/

def CheckRequest.http (request : CheckRequest) : Option HttpRequest :=
  (request.attributes.bind (·.request)).join

theorem tryFrom_headers {request : CheckRequest} {input : WorkloadRequest}
    (h : WorkloadRequest.tryFrom request = .ok input) :
    ∃ http, request.http = some http ∧ input.headers = headerMap http.headers := by
  unfold WorkloadRequest.tryFrom at h
  split at h
  · cases h
  · rename_i attributes hattributes
    split at h
    · cases h
    · rename_i http hhttp
      split at h
      · cases h
      · cases h
        exact ⟨http, by rw [CheckRequest.http, hattributes]; exact hhttp, rfl⟩

variable [Ipnet] [Keys]

/-- The answer was prepared for the request, and what it makes of the headers is clean. -/
def AnswersClean (handler : DefaultAuthorizationHandler) (request : CheckRequest)
    (headers : Headers) (response : CheckResponse) : Prop :=
  ∃ input evaluation prepared resignToken removed set,
    Prepares handler request input evaluation prepared resignToken ∧
      response = handler.permitted prepared.delivery resignToken ∧
      response.http = .ok removed set ∧
      CleanUpstream handler prepared.delivery resignToken removed set headers

omit [Ipnet] in
theorem answersClean_iff (hwire : Wire.Standard) {handler : DefaultAuthorizationHandler}
    (hapart : handler.identity.Apart) {request : CheckRequest} {http : HttpRequest}
    (hhttp : request.http = some http) {response : CheckResponse}
    (hprepared : ∃ input evaluation prepared resignToken,
      Prepares handler request input evaluation prepared resignToken ∧
        response = handler.permitted prepared.delivery resignToken) :
    AnswersClean handler request http.headers response ↔
      handler.CookieUnused (headerMap http.headers) := by
  have hclean : ∀ input evaluation prepared resignToken,
      Prepares handler request input evaluation prepared resignToken →
      (CleanUpstream handler prepared.delivery resignToken
          (handler.removedHeaders prepared.delivery resignToken)
          (setHeaders prepared.delivery resignToken) http.headers ↔
        handler.CookieUnused (headerMap http.headers)) := by
    intro input evaluation prepared resignToken hprepares
    obtain ⟨http', hhttp', hheaders⟩ := tryFrom_headers hprepares.identifies.input_eq
    rw [hhttp, Option.some.injEq] at hhttp'
    obtain ⟨token, htoken, -⟩ := hprepares.identifies.identity_eq
    rw [hheaders, ← hhttp'] at htoken
    refine cleanUpstream_iff hwire hapart prepared.delivery ?_ htoken
    cases hprepares.resigned with
    | inl hnone => exact .inl hnone
    | inr hsome =>
        obtain ⟨resign, payload, hresign, hpayload⟩ := hsome
        exact .inr ⟨_, hpayload, by rw [hresign]; rfl, isCompact_signJwt hwire resign.key payload,
          signJwt_ne_empty resign.key payload⟩
  constructor
  · rintro ⟨input, evaluation, prepared, resignToken, removed, set, hprepares, rfl, hanswer, h⟩
    rw [DefaultAuthorizationHandler.permitted, allowedHttpResponse_eq, HttpResponse.ok.injEq]
      at hanswer
    obtain ⟨rfl, rfl⟩ := hanswer
    exact (hclean input evaluation prepared resignToken hprepares).mp h
  · intro h
    obtain ⟨input, evaluation, prepared, resignToken, hprepares, rfl⟩ := hprepared
    exact ⟨input, evaluation, prepared, resignToken, _, _, hprepares, rfl,
      allowedHttpResponse_eq handler prepared.delivery resignToken,
      (hclean input evaluation prepared resignToken hprepares).mpr h⟩

theorem upstream_clean_iff_cookieUnused (hwire : Wire.Standard)
    (handler : DefaultAuthorizationHandler) (hapart : handler.identity.Apart)
    (request : CheckRequest) (http : HttpRequest) (hhttp : request.http = some http)
    (initial final : CheckState) (events : List CheckEvent) (response : CheckResponse)
    (hreceived : initial.stage = .received request)
    (hrun : Runs.run handler.step initial events = some final)
    (hresponse : final.stage = .responded response) (hok : response.code = .ok) :
    AnswersClean handler request http.headers response ↔
      handler.CookieUnused (headerMap http.headers) :=
  answersClean_iff hwire hapart hhttp (responded_prepared hreceived hrun hresponse hok)

end

end

/-! The payroll request of before, sent by a browser. -/

namespace Portal
open Payroll (ascii printFlat claims handler policy principals answeredOk)

attribute [local instance] Payroll.officeNetworks Payroll.directKey

scoped instance standardWire : Wire where
  headerName := HttpHeader.name
  headerValue := HttpHeader.isValue
  isText := HttpHeader.isText
  decodeNoPad := Base64Url.decode
  decodePadded _ := none
  encodeNoPad := Base64Url.encode
  fromSlice bytes := if bytes = ascii (printFlat claims) then some claims else none
  toVec json := .ok (ascii (printFlat json))

theorem standardWire_standard : Wire.Standard :=
  ⟨fun _ => rfl, fun _ => rfl, fun _ => rfl, fun _ => rfl, fun _ => rfl⟩

def token : String := "x." ++ Base64Url.encode (ascii (printFlat claims)) ++ ".y"

def http (headers : Headers) : HttpRequest where
  method := "GET"
  path := "/payrolls/january?view=full"
  host := "payroll.internal"
  scheme := "https"
  headers

def request (headers : Headers) : CheckRequest :=
  ⟨some
    { source := some ⟨some (some (.socketAddress "10.0.0.1"))⟩
      request := some (some (http headers)) }⟩

def received (catalog : Catalog) (headers : Headers) : CheckState :=
  ⟨catalog, principals, [], .received (request headers)⟩

def events : List CheckEvent :=
  [.proceed, .lookup (.ok ()), .proceed, .proceed,
    .deliver 1700000000 1700000000 (ascii "a random token of 32 bytes......"), .cached (.ok ())]

def Answered (headers : Headers) : Bool :=
  (Catalog.compile policy 1).toOption.any fun catalog =>
    (Runs.run handler.step (received catalog headers) events).any fun final =>
      decide (answeredOk final = true)

theorem exists_answer (headers : Headers) (h : Answered headers = true) :
    ∃ catalog final response,
      Runs.run handler.step (received catalog headers) events = some final ∧
        final.stage = .responded response ∧ response.code = .ok := by
  obtain ⟨catalog, -, h⟩ := (Option.any_eq_true _ _).mp h
  obtain ⟨final, hrun, hanswered⟩ := Runs.exists_run_of_any h
  unfold Payroll.answeredOk at hanswered
  split at hanswered
  · rename_i response hresponse
    exact ⟨catalog, final, response, hrun, hresponse, of_decide_eq_true hanswered⟩
  · cases hanswered

theorem handler_apart : handler.identity.Apart := ⟨by decide, by decide⟩

/-- The client adds an identity of its own to its bearer token. -/
def spoofing : Headers :=
  [("Authorization", "Bearer " ++ token), ("X-Authguard-Groups", "admins"),
    ("X-Authguard-Context", "forged"), ("cookie", "theme=dark")]

theorem spoofing_clean :
    ∃ catalog final response,
      Runs.run handler.step (received catalog spoofing) events = some final ∧
        final.stage = .responded response ∧
        AnswersClean handler (request spoofing) spoofing response := by
  obtain ⟨catalog, final, response, hrun, hresponse, hok⟩ :=
    exists_answer spoofing (by decide +kernel)
  refine ⟨catalog, final, response, hrun, hresponse, ?_⟩
  exact (upstream_clean_iff_cookieUnused standardWire_standard handler handler_apart
    (request spoofing) (http spoofing) rfl (received catalog spoofing) final events response rfl
    hrun hresponse hok).mpr (.inr (.inl (by decide +kernel)))

def browsing : Headers := [("cookie", "theme=dark; authguard_token=" ++ token)]

theorem cookie_forwarded :
    ∃ catalog final response,
      Runs.run handler.step (received catalog browsing) events = some final ∧
        final.stage = .responded response ∧ response.code = .ok ∧ handler.identity.Apart ∧
        ¬AnswersClean handler (request browsing) browsing response := by
  obtain ⟨catalog, final, response, hrun, hresponse, hok⟩ :=
    exists_answer browsing (by decide +kernel)
  refine ⟨catalog, final, response, hrun, hresponse, hok, handler_apart, ?_⟩
  have hhttp : (request browsing).http = some (http browsing) := rfl
  have hreceived : (received catalog browsing).stage = .received (request browsing) := rfl
  have hclean := answersClean_iff standardWire_standard handler_apart hhttp
    (responded_prepared hreceived hrun hresponse hok)
  refine hclean.not.mpr ?_
  rintro (h | h | ⟨h, -⟩)
  · revert h
    decide
  · revert h
    decide +kernel
  · cases h

end Portal

end Authguard
