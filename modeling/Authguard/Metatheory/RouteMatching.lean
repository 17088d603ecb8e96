import Authguard.Metatheory.RouteResolution

/-!
Which routes match a request, said without the loops of the matcher, and that
resolution answers with the single matching route whatever the order of the table.
-/

namespace Authguard
open Text Result

/-! Segments of a request path. -/

def requestSegments (path : String) : List String := (splitChar '/' path).filter (· ≠ "")

theorem filled_splitOn_dropWhile (c : Char) (cs : List Char) :
    ((cs.dropWhile (· == c)).splitOn c).filter (· ≠ []) = (cs.splitOn c).filter (· ≠ []) := by
  induction cs with
  | nil => rfl
  | cons d cs ih =>
      by_cases hd : d = c
      · rw [List.dropWhile_cons_of_pos (by simpa using hd), ih, hd]
        rw [← List.nil_append (c :: cs), List.splitOn_append_cons_self]
        simp
      · rw [List.dropWhile_cons_of_neg (by simpa using hd)]

theorem filled_splitOn_trimEnd (c : Char) (cs : List Char) :
    (((cs.reverse.dropWhile (· == c)).reverse).splitOn c).filter (· ≠ []) =
      (cs.splitOn c).filter (· ≠ []) := by
  induction cs using List.reverseRecOn with
  | nil => rfl
  | append_singleton cs d ih =>
      rw [List.reverse_append, List.reverse_singleton, List.singleton_append]
      by_cases hd : d = c
      · rw [List.dropWhile_cons_of_pos (by simpa using hd), ih, hd, List.splitOn_append_cons_self]
        simp
      · rw [List.dropWhile_cons_of_neg (by simpa using hd)]
        simp

/-- Trimming the slashes first makes no difference. -/
theorem splitPath_eq_requestSegments (path : String) :
    HttpMatcher.splitPath path = requestSegments path := by
  have hfilter : ∀ pieces : List (List Char),
      (pieces.map String.ofList).filter (· ≠ "") = (pieces.filter (· ≠ [])).map String.ofList := by
    intro pieces
    rw [List.filter_map]
    congr 1
    apply List.filter_congr
    intro piece _
    simp [String.ofList_eq_empty_iff]
  rw [HttpMatcher.splitPath, requestSegments, splitChar, splitChar, HttpMatcher.trimMatches,
    String.toList_ofList, hfilter, hfilter, filled_splitOn_trimEnd, filled_splitOn_dropWhile]

/-! The declared matching. -/

/-- The segments of the request a segment of the route may stand for. -/
def PathMatcher.Takes : PathMatcher → List String → Prop
  | .literal value, segments => segments = [value]
  | .var _, segments => ∃ segment, segments = [segment]
  | .any, segments => ∃ segment, segments = [segment]
  | .remainder, _ => True

def PathMatcher.bindings : PathMatcher → List String → List (String × String)
  | .var name, segments => segments.map fun segment => (name, segment)
  | _, _ => []

/-- The request path falls into one piece for each segment of the pattern; the variables
are bound to their pieces, in order. -/
def BindsPath (pattern : List PathMatcher) (request : List String)
    (bindings : List (String × String)) : Prop :=
  ∃ pieces, List.Forall₂ PathMatcher.Takes pattern pieces ∧ pieces.flatten = request ∧
    (List.zipWith PathMatcher.bindings pattern pieces).flatten = bindings

/-- Of two bindings of one name the later one holds. -/
def TemplateValues.bind (values : TemplateValues) (bindings : List (String × String)) :
    TemplateValues :=
  bindings.foldl (fun values binding => values.insert binding.1 binding.2) values

/-- What the placeholders stand for: variables of the path, then the host and the method,
then the claims. -/
def requestValues (claims : TemplateValues) (method host : String)
    (bindings : List (String × String)) : TemplateValues :=
  TemplateValues.bind
    ((claims.insert "method" (String.ofList (method.toList.map Char.toLower))).insert "host" host)
    bindings

/-- The template expands to the text of the resource. -/
def ExpandsTo (values : TemplateValues) (template : String) (urn : ResourceUrn) : Prop :=
  ∃ text, HttpMatcher.expandTemplate template values = .ok text ∧
    ResourceUrn.fromStr text = .ok urn

namespace CompiledHttpRoute
variable (route : CompiledHttpRoute) (method host path : String) (claims : TemplateValues)

/-- A route without methods, or without hosts, accepts all of them. -/
structure Accepts : Prop where
  method : route.rule.methods = [] ∨
    ∃ candidate ∈ route.rule.methods, eqIgnoreAsciiCase candidate method = true
  host : route.rule.hosts = [] ∨
    ∃ candidate ∈ route.rule.hosts, HttpMatcher.hostMatches candidate host = true

/-- The route accepts the request, and its path binds these variables. -/
structure Binds (bindings : List (String × String)) : Prop extends
    route.Accepts method host where
  path : BindsPath route.path (requestSegments path) bindings

def Matches : Prop := ∃ bindings, route.Binds method host path bindings

/-- The route matches, and its templates expand to these resources. -/
def Answers (resolved : ResolvedHttpRoute) : Prop :=
  ∃ bindings, route.Binds method host path bindings ∧
    resolved.routeId = route.rule.id ∧ resolved.action = route.action ∧
    ExpandsTo (requestValues claims method host bindings) route.rule.resourceUrn
      resolved.resourceUrn ∧
    List.Forall₂ (ExpandsTo (requestValues claims method host bindings)) route.rule.parentUrns
      resolved.parentUrns

/-- Routes are made by `compile` alone. -/
def Compiled : Prop := ∃ action rule, CompiledHttpRoute.compile action rule = .ok route

end CompiledHttpRoute

/-! Matching a path. -/

/-- A remainder occurs, if at all, as the last segment. -/
def RestLast : List PathMatcher → Prop
  | [] => True
  | segment :: rest => (segment = .remainder → rest = []) ∧ RestLast rest

theorem compileSegment_ok {routeId segment : String} {last : Bool} {matcher : PathMatcher}
    (h : HttpMatcher.compileSegment routeId segment last = .ok matcher)
    (hmatcher : matcher = .remainder) : last = true := by
  subst hmatcher
  simp only [HttpMatcher.compileSegment] at h
  split at h
  · cases h
  · split at h
    · split at h
      · rename_i hlast
        exact hlast
      · cases h
    · split at h
      · split at h <;> cases h
      · cases h

theorem compileSegments_ok {routeId : String} {segments : List String}
    {matchers : List PathMatcher}
    (h : HttpMatcher.compileSegments routeId segments = .ok matchers) :
    matchers.length = segments.length ∧ RestLast matchers := by
  induction segments generalizing matchers with
  | nil =>
      cases h
      exact ⟨rfl, trivial⟩
  | cons segment rest ih =>
      simp only [HttpMatcher.compileSegments, bind_ok_iff, Except.ok.injEq] at h
      obtain ⟨matcher, hmatcher, others, hothers, rfl⟩ := h
      obtain ⟨hlength, hlast⟩ := ih hothers
      refine ⟨by rw [List.length_cons, hlength, List.length_cons], ?_, hlast⟩
      intro hremainder
      have hrest := List.isEmpty_iff.mp (compileSegment_ok hmatcher hremainder)
      rw [hrest] at hlength
      exact List.length_eq_zero_iff.mp hlength

theorem CompiledHttpRoute.Compiled.restLast {route : CompiledHttpRoute}
    (h : route.Compiled) : RestLast route.path := by
  obtain ⟨action, rule, h⟩ := h
  simp only [CompiledHttpRoute.compile] at h
  split at h
  · simp only [bind_ok_iff, Except.ok.injEq] at h
    obtain ⟨path, hpath, rfl⟩ := h
    exact (compileSegments_ok hpath).2
  · cases h

theorem bindsPath_nil_iff {request : List String} {bindings : List (String × String)} :
    BindsPath [] request bindings ↔ request = [] ∧ bindings = [] := by
  simp only [BindsPath, List.forall₂_nil_left_iff, exists_eq_left, List.flatten_nil,
    List.zipWith_nil_left]
  rw [eq_comm, @eq_comm _ [] bindings]

theorem bindsPath_cons_iff {first : PathMatcher} {rest : List PathMatcher}
    {request : List String} {bindings : List (String × String)} :
    BindsPath (first :: rest) request bindings ↔
      ∃ piece tail later, first.Takes piece ∧ request = piece ++ tail ∧
        BindsPath rest tail later ∧ bindings = first.bindings piece ++ later := by
  constructor
  · rintro ⟨pieces, hall, rfl, rfl⟩
    obtain ⟨piece, others, hfirst, hrest, rfl⟩ := List.forall₂_cons_left_iff.mp hall
    exact ⟨piece, others.flatten, _, hfirst, rfl, ⟨others, hrest, rfl, rfl⟩, rfl⟩
  · rintro ⟨piece, _, _, hfirst, rfl, ⟨others, hrest, rfl, rfl⟩, rfl⟩
    exact ⟨piece :: others, .cons hfirst hrest, rfl, rfl⟩

/-- A segment other than the remainder takes exactly one segment of the request. -/
theorem bindsPath_step_iff (first : PathMatcher) (hfirst : first ≠ .remainder)
    {rest : List PathMatcher} {request : List String} {bindings : List (String × String)} :
    BindsPath (first :: rest) request bindings ↔
      ∃ segment tail later, request = segment :: tail ∧ first.Takes [segment] ∧
        BindsPath rest tail later ∧ bindings = first.bindings [segment] ++ later := by
  rw [bindsPath_cons_iff]
  constructor
  · rintro ⟨piece, tail, later, htakes, rfl, hrest, rfl⟩
    have hone : ∃ segment, piece = [segment] := by
      cases first with
      | literal value => exact ⟨value, htakes⟩
      | var name => exact htakes
      | any => exact htakes
      | remainder => exact absurd rfl hfirst
    obtain ⟨segment, rfl⟩ := hone
    exact ⟨segment, tail, later, rfl, htakes, hrest, rfl⟩
  · rintro ⟨segment, tail, later, rfl, htakes, hrest, rfl⟩
    exact ⟨[segment], tail, later, htakes, rfl, hrest, rfl⟩

theorem matchPath_iff {pattern : List PathMatcher} (hlast : RestLast pattern)
    (request : List String) (values values' : TemplateValues) :
    HttpMatcher.matchPath pattern request values = some values' ↔
      ∃ bindings, BindsPath pattern request bindings ∧ values' = values.bind bindings := by
  induction pattern generalizing request values with
  | nil =>
      simp only [HttpMatcher.matchPath, bindsPath_nil_iff]
      by_cases hrequest : request = []
      · simp [hrequest, TemplateValues.bind, eq_comm]
      · simp [hrequest]
  | cons first rest ih =>
      cases first with
      | remainder =>
          have hrest : rest = [] := hlast.1 rfl
          subst hrest
          simp only [HttpMatcher.matchPath, Option.some.injEq, bindsPath_cons_iff, bindsPath_nil_iff]
          constructor
          · rintro rfl
            exact ⟨[], ⟨request, [], [], trivial, by simp, ⟨rfl, rfl⟩, rfl⟩, rfl⟩
          · rintro ⟨_, ⟨piece, tail, later, -, -, ⟨-, rfl⟩, rfl⟩, rfl⟩
            rfl
      | literal value =>
          simp only [bindsPath_step_iff (.literal value) (by simp)]
          cases request with
          | nil => simp [HttpMatcher.matchPath]
          | cons segment request =>
              simp only [HttpMatcher.matchPath]
              by_cases hvalue : segment = value
              · simp [hvalue, ih hlast.2, PathMatcher.Takes, PathMatcher.bindings]
              · simp [hvalue, PathMatcher.Takes]
      | var name =>
          simp only [bindsPath_step_iff (.var name) (by simp)]
          cases request with
          | nil => simp [HttpMatcher.matchPath]
          | cons segment request =>
              simp only [HttpMatcher.matchPath, ih hlast.2]
              simp [PathMatcher.Takes, PathMatcher.bindings, TemplateValues.bind]
      | any =>
          simp only [bindsPath_step_iff .any (by simp)]
          cases request with
          | nil => simp [HttpMatcher.matchPath]
          | cons segment request =>
              simp only [HttpMatcher.matchPath, ih hlast.2]
              simp [PathMatcher.Takes, PathMatcher.bindings]

/-! One route. -/

namespace CompiledHttpRoute
variable {route : CompiledHttpRoute} (method host path : String) (claims : TemplateValues)

theorem resourceFromTemplate_ok {values : TemplateValues} {template : String}
    {urn : ResourceUrn} :
    HttpMatcher.resourceFromTemplate values template = .ok urn ↔ ExpandsTo values template urn := by
  simp only [HttpMatcher.resourceFromTemplate, bind_ok_iff, mapError_ok, ExpandsTo]

/-- The guards of `resolve` are the declared ones. -/
theorem guard_iff {α : Type} {candidates : List α} {accepts : α → Bool} :
    (!candidates.isEmpty && !candidates.any accepts) = false ↔
      candidates = [] ∨ ∃ candidate ∈ candidates, accepts candidate = true := by
  simp [or_iff_not_imp_left]

/-- The part of `resolve` behind the match. -/
def expansion (route : CompiledHttpRoute) (values : TemplateValues) :
    Except HttpMappingError ResolvedHttpRoute := do
  let resourceUrn ← HttpMatcher.resourceFromTemplate values route.rule.resourceUrn
  let parentUrns ← collect (HttpMatcher.resourceFromTemplate values) route.rule.parentUrns
  .ok { routeId := route.rule.id, action := route.action, resourceUrn, parentUrns }

theorem resolve_of_refused (h : ¬route.Accepts method host) :
    route.resolve method host path claims = .ok none := by
  simp only [resolve]
  split
  · rfl
  · rename_i hmethod
    split
    · rfl
    · rename_i hhost
      exact absurd ⟨guard_iff.mp (Bool.eq_false_iff.mpr hmethod),
        guard_iff.mp (Bool.eq_false_iff.mpr hhost)⟩ h

theorem resolve_of_accepted (h : route.Accepts method host) :
    route.resolve method host path claims =
      ((HttpMatcher.matchPath route.path (requestSegments path)
        (requestValues claims method host [])).elim (.ok none)
          fun values => (route.expansion values).map some) := by
  simp only [resolve, guard_iff.mpr h.method, guard_iff.mpr h.host, ← splitPath_eq_requestSegments,
    requestValues, TemplateValues.bind, List.foldl_nil]
  cases HttpMatcher.matchPath route.path (HttpMatcher.splitPath path) _ with
  | none => rfl
  | some values =>
      simp only [Option.elim_some, expansion]
      cases HttpMatcher.resourceFromTemplate values route.rule.resourceUrn with
      | error failure => rfl
      | ok urn =>
          cases collect (HttpMatcher.resourceFromTemplate values) route.rule.parentUrns with
          | error failure => rfl
          | ok parents => rfl

theorem expansion_ok {values : TemplateValues} {resolved : ResolvedHttpRoute} :
    route.expansion values = .ok resolved ↔
      resolved.routeId = route.rule.id ∧ resolved.action = route.action ∧
        ExpandsTo values route.rule.resourceUrn resolved.resourceUrn ∧
        List.Forall₂ (ExpandsTo values) route.rule.parentUrns resolved.parentUrns := by
  simp only [expansion, bind_ok_iff, resourceFromTemplate_ok, collect_eq_ok, Except.ok.injEq]
  constructor
  · rintro ⟨urn, hurn, parents, hparents, rfl⟩
    exact ⟨rfl, rfl, hurn, hparents⟩
  · rintro ⟨hid, haction, hurn, hparents⟩
    refine ⟨_, hurn, _, hparents, ?_⟩
    rw [← hid, ← haction]

section
variable (hlast : RestLast route.path)
include hlast

theorem resolve_none_iff :
    route.resolve method host path claims = .ok none ↔ ¬route.Matches method host path := by
  constructor
  · rintro h ⟨bindings, haccepted, hpath⟩
    have hmatch := (matchPath_iff hlast (requestSegments path) (requestValues claims method host [])
      _).mpr ⟨bindings, hpath, rfl⟩
    rw [resolve_of_accepted method host path claims haccepted, hmatch] at h
    simp [map_ok_iff] at h
  · intro hno
    by_cases haccepted : route.Accepts method host
    · rw [resolve_of_accepted method host path claims haccepted]
      cases hmatch : HttpMatcher.matchPath route.path (requestSegments path)
          (requestValues claims method host []) with
      | none => rfl
      | some values =>
          obtain ⟨bindings, hpath, -⟩ := (matchPath_iff hlast _ _ _).mp hmatch
          exact absurd ⟨bindings, haccepted, hpath⟩ hno
    · exact resolve_of_refused method host path claims haccepted

theorem resolve_some_iff {resolved : ResolvedHttpRoute} :
    route.resolve method host path claims = .ok (some resolved) ↔
      route.Answers method host path claims resolved := by
  constructor
  · intro h
    by_cases haccepted : route.Accepts method host
    · rw [resolve_of_accepted method host path claims haccepted] at h
      cases hmatch : HttpMatcher.matchPath route.path (requestSegments path)
          (requestValues claims method host []) with
      | none =>
          rw [hmatch] at h
          cases h
      | some values =>
          obtain ⟨bindings, hpath, rfl⟩ := (matchPath_iff hlast _ _ _).mp hmatch
          rw [hmatch, Option.elim_some, map_ok_iff] at h
          obtain ⟨found, hexpansion, heq⟩ := h
          cases heq
          exact ⟨bindings, ⟨haccepted, hpath⟩, expansion_ok.mp hexpansion⟩
    · rw [resolve_of_refused method host path claims haccepted] at h
      cases h
  · rintro ⟨bindings, ⟨haccepted, hpath⟩, hexpands⟩
    have hmatch := (matchPath_iff hlast (requestSegments path) (requestValues claims method host [])
      _).mpr ⟨bindings, hpath, rfl⟩
    have hexpansion := expansion_ok.mpr hexpands
    rw [resolve_of_accepted method host path claims haccepted, hmatch, Option.elim_some,
      map_ok_iff]
    exact ⟨resolved, hexpansion, rfl⟩

end

end CompiledHttpRoute

/-! The whole table. -/

/-- Resolution answers with the expansion of the single matching route. The order of the
table does not matter, and a matching route that cannot be expanded is not passed over. -/
theorem resolveRoute_declared (routes : List CompiledHttpRoute)
    (hcompiled : ∀ route ∈ routes, route.Compiled) (method host path : String)
    (claims : TemplateValues) :
    (∀ resolved, resolveRoute routes method host path claims = .ok resolved ↔
      ∃ before route after, routes = before ++ route :: after ∧
        route.Answers method host path claims resolved ∧
        ∀ other ∈ before ++ after, ¬other.Matches method host path) ∧
    (∀ routes', routes'.Perm routes → ∀ resolved,
      resolveRoute routes' method host path claims = .ok resolved ↔
        resolveRoute routes method host path claims = .ok resolved) ∧
    ∀ route ∈ routes, route.Matches method host path →
      (∀ resolved, ¬route.Answers method host path claims resolved) →
      ∀ resolved, resolveRoute routes method host path claims ≠ .ok resolved := by
  have hlast : ∀ route ∈ routes, RestLast route.path := fun route hmem =>
    (hcompiled route hmem).restLast
  have hone : ∀ resolved, resolveRoute routes method host path claims = .ok resolved ↔
      ∃ before route after, routes = before ++ route :: after ∧
        route.Answers method host path claims resolved ∧
        ∀ other ∈ before ++ after, ¬other.Matches method host path := by
    intro resolved
    rw [resolveRoute_ok, collect_one_iff]
    constructor
    · rintro ⟨before, route, after, rfl, hroute, hothers⟩
      refine ⟨before, route, after, rfl, ?_, fun other hmem => ?_⟩
      · exact (CompiledHttpRoute.resolve_some_iff _ _ _ _ (hlast route (by simp))).mp hroute
      · refine (CompiledHttpRoute.resolve_none_iff _ _ _ claims (hlast other ?_)).mp
          (hothers other hmem)
        rw [List.mem_append, List.mem_cons]
        exact (List.mem_append.mp hmem).imp_right .inr
    · rintro ⟨before, route, after, rfl, hroute, hothers⟩
      refine ⟨before, route, after, rfl, ?_, fun other hmem => ?_⟩
      · exact (CompiledHttpRoute.resolve_some_iff _ _ _ _ (hlast route (by simp))).mpr hroute
      · refine (CompiledHttpRoute.resolve_none_iff _ _ _ claims (hlast other ?_)).mpr
          (hothers other hmem)
        rw [List.mem_append, List.mem_cons]
        exact (List.mem_append.mp hmem).imp_right .inr
  refine ⟨hone, fun routes' hperm resolved => resolveRoute_perm _ _ _ _ hperm resolved, ?_⟩
  intro route hmem hmatches hfails resolved hresolved
  obtain ⟨before, answering, after, rfl, hanswers, hothers⟩ := (hone resolved).mp hresolved
  rw [List.mem_append, List.mem_cons] at hmem
  obtain hbefore | rfl | hafter := hmem
  · exact hothers route (List.mem_append_left _ hbefore) hmatches
  · exact hfails resolved hanswers
  · exact hothers route (List.mem_append_right _ hafter) hmatches

namespace JobRoutes

def read : CompiledHttpRoute where
  action := "customer-growth.job.read"
  rule :=
    { id := "job-read", methods := ["GET"], hosts := ["*.example.com"]
      path := "/customer-growth/jobs/\x7bjob_id\x7d"
      resourceUrn := "urn:iam:prod:customer-growth:global:\x7btenant_id\x7d:job/\x7bjob_id\x7d"
      parentUrns := [] }
  path := [.literal "customer-growth", .literal "jobs", .var "job_id"]

def acme : TemplateValues := fun name => if name = "tenant_id" then some "acme" else none

theorem read_compiled : ∀ route ∈ [read], route.Compiled := by
  simp only [List.forall_mem_singleton]
  exact ⟨read.action, read.rule, by decide⟩

theorem read_answers :
    ∃ before route after, [read] = before ++ route :: after ∧
      route.Answers "GET" "api.example.com" "/customer-growth/jobs/job-1" acme
        { routeId := "job-read", action := "customer-growth.job.read"
          resourceUrn := ⟨"prod", "customer-growth", "global", "acme", ["job", "job-1"]⟩
          parentUrns := [] } ∧
      ∀ other ∈ before ++ after,
        ¬other.Matches "GET" "api.example.com" "/customer-growth/jobs/job-1" :=
  ((resolveRoute_declared [read] read_compiled _ _ _ acme).1 _).mp (by decide)

end JobRoutes

end Authguard
