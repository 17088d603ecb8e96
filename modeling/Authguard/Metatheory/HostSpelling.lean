import Authguard.Metatheory.TemplateBoundaries

/-!
Host names in another spelling. Exact host patterns are compared without regard to
the case of letters, wildcard patterns letter by letter, so a table resolves a host
in two spellings alike as long as no wildcard pattern tells the spellings apart.
-/

namespace Authguard
open Text Result HttpMatcher TemplateToken

/-! Spellings. -/

/-- The pieces of a text are spelled as the text is. -/
theorem map_toLower_splitOn {c : Char} (hc : c.isAlpha = false) (cs : List Char) :
    (cs.map Char.toLower).splitOn c = (cs.splitOn c).map (·.map Char.toLower) := by
  induction cs with
  | nil => simp
  | cons d cs ih =>
      rw [List.map_cons]
      by_cases hd : d = c
      · rw [(toLower_eq_iff hc).mpr hd, Pieces.splitOn_cons_self, ih, hd, Pieces.splitOn_cons_self]
        rfl
      · obtain ⟨first, rest, hpieces, hcons⟩ := Pieces.splitOn_cons_ne c hd cs
        rw [List.splitOn_cons_eq_if_modifyHead, ih, hpieces, hcons]
        simp [mt (toLower_eq_iff hc).mp hd]

/-- The text before the port. -/
def hostName (host : String) : List Char := ((splitChar ':' host).head?.getD host).toList

theorem hostName_eq (host : String) : [hostName host] = (host.toList.splitOn ':').take 1 := by
  cases hpieces : host.toList.splitOn ':' with
  | nil => exact absurd hpieces (List.splitOn_ne_nil _ _)
  | cons first rest => simp [hostName, splitChar, hpieces]

theorem map_toLower_hostName {host host' : String} (h : eqIgnoreAsciiCase host host' = true) :
    (hostName host).map Char.toLower = (hostName host').map Char.toLower := by
  have hmap : host.toList.map Char.toLower = host'.toList.map Char.toLower := by
    simpa [eqIgnoreAsciiCase] using h
  have hpieces := congrArg (fun cs => (cs.splitOn ':').take 1) hmap
  have hcolon : (':' : Char).isAlpha = false := by decide
  simp only [map_toLower_splitOn hcolon, ← List.map_take, ← hostName_eq] at hpieces
  simpa using hpieces

/-! Host patterns. -/

/-- What a wildcard pattern asks of the end of the host. -/
def wildcardSuffix (pattern : String) : Option (List Char) :=
  if "*.".toList.isPrefixOf pattern.toList then some ('.' :: pattern.toList.drop 2) else none

theorem hostMatches_wildcard {pattern host : String} {suffix : List Char}
    (h : wildcardSuffix pattern = some suffix) :
    hostMatches pattern host = true ↔ suffix <:+ hostName host := by
  simp only [wildcardSuffix] at h
  split at h
  · rename_i hwild
    cases h
    simp only [hostMatches, if_pos hwild, Bool.and_eq_true, bne_iff_ne,
      List.isSuffixOf_iff_suffix, hostName]
    constructor
    · exact And.right
    · intro hsuffix
      refine ⟨fun heq => ?_, hsuffix⟩
      -- the host is longer than the suffix behind the dot
      have hlength := hsuffix.length_le
      rw [heq, List.length_cons] at hlength
      omega
  · cases h

theorem hostMatches_exact {pattern : String} (host : String) (h : wildcardSuffix pattern = none) :
    hostMatches pattern host = (pattern.toList.map Char.toLower ==
      (hostName host).map Char.toLower) := by
  simp only [wildcardSuffix] at h
  split at h
  · cases h
  · rename_i hexact
    simp only [hostMatches, if_neg hexact, eqIgnoreAsciiCase, hostName]

theorem wildcardSuffix_isSome {pattern pattern' : String}
    (h : eqIgnoreAsciiCase pattern pattern' = true) :
    (wildcardSuffix pattern).isSome = (wildcardSuffix pattern').isSome := by
  have hmap : pattern.toList.map Char.toLower = pattern'.toList.map Char.toLower := by
    simpa [eqIgnoreAsciiCase] using h
  have hbegins : ∀ cs : List Char, "*.".toList.isPrefixOf cs =
      "*.".toList.isPrefixOf (cs.map Char.toLower) := by
    have hstar : ∀ c : Char, '*' = c.toLower ↔ '*' = c := fun c => by
      rw [eq_comm, toLower_eq_iff (by decide), eq_comm]
    have hdot : ∀ c : Char, '.' = c.toLower ↔ '.' = c := fun c => by
      rw [eq_comm, toLower_eq_iff (by decide), eq_comm]
    intro cs
    rw [show "*.".toList = ['*', '.'] from rfl, Bool.eq_iff_iff]
    rcases cs with _ | ⟨first, _ | ⟨second, rest⟩⟩
    · rfl
    · simp [List.isPrefixOf]
    · simp [List.isPrefixOf, hstar, hdot]
  have hwild := (hbegins pattern.toList).trans ((congrArg _ hmap).trans (hbegins _).symm)
  simp only [wildcardSuffix, hwild]
  split <;> rfl

/-- A pattern without a wildcard is the host, in some spelling. -/
def ExactAccepts (hosts : List String) (host : String) : Prop :=
  ∃ pattern ∈ hosts, wildcardSuffix pattern = none ∧
    pattern.toList.map Char.toLower = (hostName host).map Char.toLower

/-- A wildcard pattern ends the host, letter by letter. -/
def WildcardAccepts (hosts : List String) (host : String) : Prop :=
  ∃ pattern ∈ hosts, ∃ suffix, wildcardSuffix pattern = some suffix ∧ suffix <:+ hostName host

/-- The hosts in their two spellings accept both spellings of a host or neither: a pattern
without a wildcard accepts it in every spelling, or the wildcards do not tell the spellings
apart. -/
def HostsAgree (hosts hosts' : List String) (host host' : String) : Prop :=
  ExactAccepts hosts host ∨ (WildcardAccepts hosts host ↔ WildcardAccepts hosts' host')

theorem hostMatches_iff (hosts : List String) (host : String) :
    (∃ pattern ∈ hosts, hostMatches pattern host = true) ↔
      ExactAccepts hosts host ∨ WildcardAccepts hosts host := by
  constructor
  · rintro ⟨pattern, hmem, hmatches⟩
    cases hsuffix : wildcardSuffix pattern with
    | none =>
        rw [hostMatches_exact host hsuffix, beq_iff_eq] at hmatches
        exact .inl ⟨pattern, hmem, hsuffix, hmatches⟩
    | some suffix =>
        exact .inr ⟨pattern, hmem, suffix, hsuffix, (hostMatches_wildcard hsuffix).mp hmatches⟩
  · rintro (⟨pattern, hmem, hexact, hname⟩ | ⟨pattern, hmem, suffix, hsuffix, hends⟩)
    · exact ⟨pattern, hmem, by rw [hostMatches_exact host hexact, beq_iff_eq, hname]⟩
    · exact ⟨pattern, hmem, (hostMatches_wildcard hsuffix).mpr hends⟩

/-- The patterns of one list in another spelling, place by place. -/
def Spelled (hosts hosts' : List String) : Prop :=
  List.Forall₂ (fun pattern pattern' => eqIgnoreAsciiCase pattern pattern' = true) hosts hosts'

theorem exactAccepts_spelled {hosts hosts' : List String} {host host' : String}
    (hhosts : Spelled hosts hosts') (hhost : eqIgnoreAsciiCase host host' = true) :
    ExactAccepts hosts host ↔ ExactAccepts hosts' host' := by
  induction hhosts with
  | nil => simp [ExactAccepts]
  | @cons pattern pattern' hosts hosts' hpattern _ ih =>
      have hmap : pattern.toList.map Char.toLower = pattern'.toList.map Char.toLower := by
        simpa [eqIgnoreAsciiCase] using hpattern
      have hwild : wildcardSuffix pattern = none ↔ wildcardSuffix pattern' = none := by
        rw [← Option.isNone_iff_eq_none, ← Option.isNone_iff_eq_none, ← Option.not_isSome,
          ← Option.not_isSome, wildcardSuffix_isSome hpattern]
      simp only [ExactAccepts, List.exists_mem_cons_iff, hwild, hmap,
        map_toLower_hostName hhost] at ih ⊢
      rw [ih]

theorem hosts_accept_iff {hosts hosts' : List String} {host host' : String}
    (hhosts : Spelled hosts hosts') (hhost : eqIgnoreAsciiCase host host' = true) :
    ((hosts = [] ∨ ∃ pattern ∈ hosts, hostMatches pattern host = true) ↔
      (hosts' = [] ∨ ∃ pattern ∈ hosts', hostMatches pattern host' = true)) ↔
        HostsAgree hosts hosts' host host' := by
  rw [hostMatches_iff, hostMatches_iff, ← exactAccepts_spelled hhosts hhost, HostsAgree]
  cases hhosts with
  | nil => simp [WildcardAccepts]
  | cons _ _ =>
      simp only [reduceCtorEq, false_or]
      tauto

/-! One route. -/

/-- The same route with its hosts in another spelling. -/
structure Respelled (route route' : CompiledHttpRoute) : Prop where
  action : route.action = route'.action
  id : route.rule.id = route'.rule.id
  methods : route.rule.methods = route'.rule.methods
  resourceUrn : route.rule.resourceUrn = route'.rule.resourceUrn
  parentUrns : route.rule.parentUrns = route'.rule.parentUrns
  path : route.path = route'.path
  hosts : Spelled route.rule.hosts route'.rule.hosts

/-- No template of the route mentions the host. -/
def HostUnused (route : CompiledHttpRoute) : Prop :=
  ∀ template ∈ route.rule.resourceUrn :: route.rule.parentUrns,
    .placeholder "host" ∉ tokens template

/-- Values that differ at most in the host. -/
def AgreeOffHost (values values' : TemplateValues) : Prop :=
  ∀ name, name ≠ "host" → values name = values' name

theorem AgreeOffHost.insert {values values' : TemplateValues} (h : AgreeOffHost values values')
    (name value : String) : AgreeOffHost (values.insert name value) (values'.insert name value) := by
  intro key hkey
  simp only [TemplateValues.insert, h key hkey]

theorem matchPath_agree (pattern : List PathMatcher) (request : List String)
    {values values' : TemplateValues} (h : AgreeOffHost values values') :
    Option.Rel AgreeOffHost (matchPath pattern request values)
      (matchPath pattern request values') := by
  induction pattern generalizing request values values' with
  | nil =>
      simp only [matchPath]
      split
      · exact .some h
      · exact .none
  | cons first rest ih =>
      cases first with
      | remainder => exact .some h
      | literal value =>
          cases request with
          | nil => exact .none
          | cons segment request =>
              simp only [matchPath]
              split
              · exact ih request h
              · exact .none
      | var name =>
          cases request with
          | nil => exact .none
          | cons segment request => exact ih request (h.insert name segment)
      | any =>
          cases request with
          | nil => exact .none
          | cons segment request => exact ih request h

section
variable {values values' : TemplateValues} (h : AgreeOffHost values values')
include h

theorem expandFrom_agree (state : Option (List Char)) (cs : List Char)
    (hunused : .placeholder "host" ∉ tokensFrom state cs) :
    expandFrom values state cs = expandFrom values' state cs := by
  fun_induction tokensFrom state cs with
  | case1 => rfl
  | case2 rest ih => simpa [expandFrom] using ih hunused
  | case3 c rest hc ih =>
      rw [List.mem_cons, not_or] at hunused
      rw [expandFrom, if_neg hc, expandFrom, if_neg hc, ih hunused.2]
  | case4 name => rfl
  | case5 name rest ih =>
      rw [List.mem_cons, not_or] at hunused
      have hname : String.ofList name ≠ "host" := by
        intro heq
        exact hunused.1 (by rw [heq])
      simp only [expandFrom, if_true, h _ hname, ih hunused.2]
  | case6 name c rest hc ih =>
      rw [expandFrom, if_neg hc, expandFrom, if_neg hc, ih hunused]

theorem resourceFromTemplate_agree {template : String}
    (hunused : .placeholder "host" ∉ tokens template) :
    resourceFromTemplate values template = resourceFromTemplate values' template := by
  rw [resourceFromTemplate, resourceFromTemplate, expandTemplate, expandTemplate,
    expandFrom_agree h none template.toList hunused]

theorem expansion_agree {route route' : CompiledHttpRoute} (hroute : Respelled route route')
    (hunused : HostUnused route) :
    route.expansion values = route'.expansion values' := by
  have hparents : collect (resourceFromTemplate values) route.rule.parentUrns =
      collect (resourceFromTemplate values') route.rule.parentUrns :=
    collect_congr fun template hmem =>
      resourceFromTemplate_agree h (hunused template (List.mem_cons_of_mem _ hmem))
  rw [CompiledHttpRoute.expansion, CompiledHttpRoute.expansion, ← hroute.resourceUrn,
    ← hroute.parentUrns, ← hroute.id, ← hroute.action, hparents,
    resourceFromTemplate_agree h (hunused _ List.mem_cons_self)]

end

/-! What a route contributes to a request. -/

namespace CompiledHttpRoute
variable (route : CompiledHttpRoute) (method host path : String) (claims : TemplateValues)

/-- The method and the path of the request are those of the route; its hosts are not asked. -/
structure Concerns : Prop where
  method : route.rule.methods = [] ∨
    ∃ candidate ∈ route.rule.methods, eqIgnoreAsciiCase candidate method = true
  path : ∃ bindings, BindsPath route.path (requestSegments path) bindings

instance : Decidable (route.Accepts method host) :=
  decidable_of_iff
    ((route.rule.methods = [] ∨
        ∃ candidate ∈ route.rule.methods, eqIgnoreAsciiCase candidate method = true) ∧
      (route.rule.hosts = [] ∨
        ∃ candidate ∈ route.rule.hosts, hostMatches candidate host = true))
    ⟨fun h => ⟨h.1, h.2⟩, fun h => ⟨h.method, h.host⟩⟩

/-- Nothing, or what the templates of the route are expanded to. -/
def expanded : Option (Except HttpMappingError ResolvedHttpRoute) :=
  if route.Accepts method host then
    (matchPath route.path (requestSegments path) (requestValues claims method host [])).map
      route.expansion
  else none

theorem resolve_eq_expanded :
    route.resolve method host path claims =
      (route.expanded method host path claims).elim (.ok none) (·.map some) := by
  by_cases haccepted : route.Accepts method host
  · rw [resolve_of_accepted _ _ _ _ haccepted, expanded, if_pos haccepted]
    cases matchPath route.path (requestSegments path) (requestValues claims method host []) <;> rfl
  · rw [resolve_of_refused _ _ _ _ haccepted, expanded, if_neg haccepted]
    rfl

variable {route method host path claims}

theorem expanded_none_iff (hcompiled : route.Compiled) :
    route.expanded method host path claims = none ↔ ¬route.Matches method host path := by
  rw [← resolve_none_iff method host path claims hcompiled.restLast, resolve_eq_expanded]
  cases route.expanded method host path claims with
  | none => simp
  | some answer => cases answer <;> simp [Except.map]

theorem matches_iff :
    route.Matches method host path ↔ route.Concerns method path ∧
      (route.rule.hosts = [] ∨
        ∃ candidate ∈ route.rule.hosts, hostMatches candidate host = true) := by
  constructor
  · rintro ⟨bindings, haccepted, hpath⟩
    exact ⟨⟨haccepted.method, bindings, hpath⟩, haccepted.host⟩
  · rintro ⟨⟨hmethod, bindings, hpath⟩, hhost⟩
    exact ⟨bindings, ⟨hmethod, hhost⟩, hpath⟩

end CompiledHttpRoute

section
variable {route route' : CompiledHttpRoute} (hroute : Respelled route route')
include hroute

theorem concerns_respelled (method path : String) :
    route.Concerns method path ↔ route'.Concerns method path := by
  constructor
  · rintro ⟨hmethod, hpath⟩
    exact ⟨hroute.methods ▸ hmethod, hroute.path ▸ hpath⟩
  · rintro ⟨hmethod, hpath⟩
    exact ⟨hroute.methods ▸ hmethod, hroute.path ▸ hpath⟩

theorem matches_respelled_iff {host host' : String} (hhost : eqIgnoreAsciiCase host host' = true)
    (method path : String) :
    (route.Matches method host path ↔ route'.Matches method host' path) ↔
      (route.Concerns method path →
        HostsAgree route.rule.hosts route'.rule.hosts host host') := by
  rw [← hosts_accept_iff hroute.hosts hhost, CompiledHttpRoute.matches_iff,
    CompiledHttpRoute.matches_iff, ← concerns_respelled hroute]
  exact and_congr_right_iff

/-- The templates do not see the host, so a route that matches both spellings contributes
the same to both. -/
theorem expanded_respelled {method host host' path : String} (claims : TemplateValues)
    (hcompiled : route.Compiled) (hcompiled' : route'.Compiled) (hunused : HostUnused route)
    (hmatches : route.Matches method host path ↔ route'.Matches method host' path) :
    route.expanded method host path claims = route'.expanded method host' path claims := by
  by_cases hmatch : route.Matches method host path
  · obtain ⟨bindings, haccepted, -⟩ := id hmatch
    obtain ⟨bindings', haccepted', -⟩ := hmatches.mp hmatch
    rw [CompiledHttpRoute.expanded, CompiledHttpRoute.expanded, if_pos haccepted,
      if_pos haccepted', ← hroute.path]
    have hvalues : AgreeOffHost (requestValues claims method host [])
        (requestValues claims method host' []) := by
      intro name hname
      simp [requestValues, TemplateValues.bind, TemplateValues.insert, hname]
    have hfound := matchPath_agree route.path (requestSegments path) hvalues
    revert hfound
    generalize matchPath route.path (requestSegments path) (requestValues claims method host []) =
      found
    generalize matchPath route.path (requestSegments path) (requestValues claims method host' []) =
      found'
    rintro (⟨hagree⟩ | _)
    · rw [Option.map_some, Option.map_some, expansion_agree hagree hroute hunused]
    · rfl
  · rw [(CompiledHttpRoute.expanded_none_iff hcompiled).mpr hmatch,
      (CompiledHttpRoute.expanded_none_iff hcompiled').mpr (mt hmatches.mpr hmatch)]

end

/-! The whole table. -/

/-- What the loop of the resolution makes of the contributions of the routes: it stops at
the first failure and at the second answer. -/
def settle : List (Except HttpMappingError ResolvedHttpRoute) →
    Except HttpMappingError ResolvedHttpRoute
  | [] => .error .notMapped
  | .error failure :: _ => .error failure
  | [.ok route] => .ok route
  | .ok _ :: .error failure :: _ => .error failure
  | .ok _ :: .ok _ :: _ => .error .ambiguous

/-- The first of the matching routes fails, or the second one behind an answer. -/
inductive FailsWith (failure : HttpMappingError) :
    List (Except HttpMappingError ResolvedHttpRoute) → Prop
  | first (rest) : FailsWith failure (.error failure :: rest)
  | second (route rest) : FailsWith failure (.ok route :: .error failure :: rest)

theorem FailsWith.settle {failure : HttpMappingError}
    {answers : List (Except HttpMappingError ResolvedHttpRoute)} (h : FailsWith failure answers) :
    settle answers = .error failure := by
  cases h <;> rfl

/-- Every route of the table that the method and the path concern has hosts that accept both
spellings or neither. -/
def TableAgrees (routes routes' : List CompiledHttpRoute) (method host host' path : String) :
    Prop :=
  List.Forall₂ (fun route route' => route.Concerns method path →
    HostsAgree route.rule.hosts route'.rule.hosts host host') routes routes'

section
variable {routes routes' : List CompiledHttpRoute} {method host host' path : String}
  (claims : TemplateValues)
  (hcompiled : ∀ route ∈ routes, route.Compiled) (hcompiled' : ∀ route ∈ routes', route.Compiled)
  (hroutes : List.Forall₂ Respelled routes routes') (hhost : eqIgnoreAsciiCase host host' = true)
include hcompiled hcompiled' hroutes hhost

theorem TableAgrees.expanded (hunused : ∀ route ∈ routes, HostUnused route)
    (hagrees : TableAgrees routes routes' method host host' path) :
    routes.filterMap (·.expanded method host path claims) =
      routes'.filterMap (·.expanded method host' path claims) := by
  induction hroutes with
  | nil => rfl
  | cons hroute _ ih =>
      obtain ⟨hfirst, hrest⟩ := List.forall_mem_cons.mp hcompiled
      obtain ⟨hfirst', hrest'⟩ := List.forall_mem_cons.mp hcompiled'
      obtain ⟨hunused, hunuseds⟩ := List.forall_mem_cons.mp hunused
      obtain ⟨hagree, hagrees⟩ := List.forall₂_cons.mp hagrees
      have hmatches := (matches_respelled_iff hroute hhost method path).mpr hagree
      rw [List.filterMap_cons, List.filterMap_cons,
        expanded_respelled hroute claims hfirst hfirst' hunused hmatches,
        ih hrest hrest' hunuseds hagrees]

end

namespace ApiRoutes

end ApiRoutes

namespace AdminRoutes

def admin : CompiledHttpRoute where
  action := "settings.write"
  rule :=
    { id := "settings", methods := [], hosts := ["*.admin.example.com"], path := "/settings"
      resourceUrn := "urn:iam:prod:web:global:acme:settings", parentUrns := [] }
  path := [.literal "settings"]

end AdminRoutes

end Authguard
