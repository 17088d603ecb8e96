import Authguard.Library.Pieces
import Authguard.Metatheory.RouteMatching
import Authguard.Metatheory.UrnLanguage

/-!
Templates as lists of tokens. The expansion of a template is the expansion of its tokens
one after the other, so no inserted text is read as a placeholder. The parser of the
expanded text accounts for every colon, so no value moves a field; slashes are not
accounted for, and a value with a slash in it adds segments to the path.
-/

namespace Authguard
open Text Result

/-! Tokens. -/

inductive TemplateToken
  | char (c : Char)
  | placeholder (name : String)
  /-- An opening brace without a closing one, with the text after it. -/
  | unclosed (text : String)
  deriving DecidableEq

namespace TemplateToken

/-- The text after an opening brace is collected in the second state. -/
def tokensFrom : Option (List Char) → List Char → List TemplateToken
  | none, [] => []
  | none, c :: rest =>
      if c = '{' then tokensFrom (some []) rest else .char c :: tokensFrom none rest
  | some name, [] => [.unclosed (String.ofList name)]
  | some name, c :: rest =>
      if c = '}' then .placeholder (String.ofList name) :: tokensFrom none rest
      else tokensFrom (some (name ++ [c])) rest

def tokens (template : String) : List TemplateToken := tokensFrom none template.toList

def Known (values : TemplateValues) : TemplateToken → Prop
  | .char _ => True
  | .placeholder name => (values name).isSome = true
  | .unclosed _ => False

def fill (values : TemplateValues) : TemplateToken → List Char
  | .char c => [c]
  | .placeholder name => ((values name).getD "").toList
  | .unclosed _ => []

/-- The tokens expand to the text: every placeholder is known, and its value stands in its
place as it is. -/
def Expand (values : TemplateValues) (tokens : List TemplateToken) (text : String) : Prop :=
  (∀ token ∈ tokens, token.Known values) ∧ text.toList = tokens.flatMap (fill values)

theorem expandFrom_ok (values : TemplateValues) (state : Option (List Char)) (cs : List Char)
    (text : List Char) :
    HttpMatcher.expandFrom values state cs = .ok text ↔
      (∀ token ∈ tokensFrom state cs, token.Known values) ∧
        text = (tokensFrom state cs).flatMap (fill values) := by
  fun_induction HttpMatcher.expandFrom values state cs generalizing text with
  | case1 => simp [tokensFrom, eq_comm]
  | case2 rest ih => simpa [tokensFrom] using ih text
  | case3 c rest hc ih =>
      simp only [map_ok_iff, ih, tokensFrom, if_neg hc, List.forall_mem_cons, List.flatMap_cons]
      constructor
      · rintro ⟨_, ⟨hknown, rfl⟩, rfl⟩
        exact ⟨⟨trivial, hknown⟩, rfl⟩
      · rintro ⟨⟨-, hknown⟩, rfl⟩
        exact ⟨_, ⟨hknown, rfl⟩, rfl⟩
  | case4 name => simp [tokensFrom, Known]
  | case5 name rest hvalue => simp [tokensFrom, Known, hvalue]
  | case6 name rest value hvalue ih =>
      simp only [map_ok_iff, ih, tokensFrom, if_true, List.forall_mem_cons, List.flatMap_cons,
        Known, fill, hvalue, Option.isSome_some, Option.getD_some, true_and]
      constructor
      · rintro ⟨_, ⟨hknown, rfl⟩, rfl⟩
        exact ⟨hknown, rfl⟩
      · rintro ⟨hknown, rfl⟩
        exact ⟨_, ⟨hknown, rfl⟩, rfl⟩
  | case7 name c rest hc ih => simpa [tokensFrom, hc] using ih text

theorem expandTemplate_ok (values : TemplateValues) (template text : String) :
    HttpMatcher.expandTemplate template values = .ok text ↔ Expand values (tokens template) text := by
  simp only [HttpMatcher.expandTemplate, map_ok_iff, expandFrom_ok, Expand, tokens]
  constructor
  · rintro ⟨_, ⟨hknown, rfl⟩, rfl⟩
    exact ⟨hknown, String.toList_ofList⟩
  · rintro ⟨hknown, htext⟩
    exact ⟨_, ⟨hknown, rfl⟩, by rw [← htext, String.ofList_toList]⟩

/-! Cutting a template and its expansion at one character. -/

section
variable {values : TemplateValues} {template : List TemplateToken} {text : String} (c : Char)

/-- No value that is inserted holds the character. -/
def ValuesFree (values : TemplateValues) (template : List TemplateToken) : Prop :=
  ∀ name, .placeholder name ∈ template → ∀ value, values name = some value → c ∉ value.toList

theorem fill_free_iff {token : TemplateToken} (hknown : token.Known values) (hne : token ≠ .char c) :
    c ∉ token.fill values ↔
      ∀ name, token = .placeholder name → ∀ value, values name = some value → c ∉ value.toList := by
  cases token with
  | char d =>
      have hd : c ≠ d := by
        rintro rfl
        exact hne rfl
      simp [fill, hd]
  | placeholder name =>
      obtain ⟨value, hvalue⟩ := Option.isSome_iff_exists.mp hknown
      simp [fill, hvalue]
  | unclosed rest => exact absurd hknown id

theorem pieces_free_iff (hknown : ∀ token ∈ template, token.Known values) :
    (∀ piece ∈ template.splitOn (.char c), c ∉ piece.flatMap (fill values)) ↔
      ValuesFree c values template := by
  constructor
  · intro hfree name hmem
    obtain ⟨piece, hpiece, hin⟩ := (Pieces.mem_piece_iff (.char c)).mpr ⟨hmem, by simp⟩
    refine (fill_free_iff c (hknown _ hmem) (by simp)).mp ?_ name rfl
    exact fun hc => hfree piece hpiece (List.mem_flatMap.mpr ⟨_, hin, hc⟩)
  · intro hfree piece hpiece hc
    obtain ⟨token, htoken, hc⟩ := List.mem_flatMap.mp hc
    obtain ⟨hmem, hne⟩ := (Pieces.mem_piece_iff (.char c)).mp ⟨piece, hpiece, htoken⟩
    refine (fill_free_iff c (hknown token hmem) hne).mpr ?_ hc
    rintro name rfl
    exact hfree name hmem

theorem forall₂_expand_of_map {pieces : List (List TemplateToken)}
    (hknown : ∀ piece ∈ pieces, ∀ token ∈ piece, token.Known values) :
    List.Forall₂ (Expand values) pieces
      ((pieces.map (·.flatMap (fill values))).map String.ofList) := by
  rw [List.map_map, List.forall₂_map_right_iff, List.forall₂_same]
  exact fun piece hpiece => ⟨hknown piece hpiece, String.toList_ofList⟩

section
variable (h : Expand values template text)
include h

theorem Expand.pieces_known :
    ∀ piece ∈ template.splitOn (.char c), ∀ token ∈ piece, token.Known values :=
  fun piece hpiece _ htoken =>
    h.1 _ ((Pieces.mem_piece_iff (.char c)).mp ⟨piece, hpiece, htoken⟩).1

theorem Expand.joined :
    text.toList = [c].intercalate
      ((template.splitOn (.char c)).map (·.flatMap (fill values))) :=
  h.2.trans (Pieces.flatMap_splitOn (.char c) rfl template)

theorem Expand.free_of_length
    (hlength : (splitChar c text).length = (template.splitOn (.char c)).length) :
    ValuesFree c values template := by
  rw [splitChar, List.length_map, h.joined c] at hlength
  have hfree := Pieces.free_of_length c (by simp) (hlength.trans (List.length_map _).symm)
  rw [List.forall_mem_map] at hfree
  exact (pieces_free_iff c h.1).mp hfree

theorem Expand.split (hfree : ValuesFree c values template) :
    List.Forall₂ (Expand values) (template.splitOn (.char c)) (splitChar c text) := by
  have hpieces : text.toList.splitOn c =
      (template.splitOn (.char c)).map (·.flatMap (fill values)) := by
    rw [h.joined c]
    refine List.splitOn_intercalate c ?_ (by simp)
    exact List.forall_mem_map.mpr ((pieces_free_iff c h.1).mpr hfree)
  rw [splitChar, hpieces]
  exact forall₂_expand_of_map (h.pieces_known c)

end

end

end TemplateToken

/-! Templates of resources. -/

open TemplateToken

theorem splitUrn_splitChar {text : String} {parts : UrnParts} (h : splitUrn text = .ok parts) :
    splitChar ':' text = ["urn", "iam", parts.partition, parts.service, parts.region,
      parts.tenant, parts.path] := by
  have htext := splitUrn_ok h
  simp only [splitUrn] at h
  split at h
  · rename_i scheme nid partition service region tenant path hparts
    have hinit : ∀ piece ∈ [scheme, nid, partition, service, region, tenant],
        ':' ∉ piece.toList :=
      splitN_init_free ':' hparts
    split at h
    · cases h
    · rename_i hguard
      simp only [Bool.or_eq_true, bne_iff_ne, not_or, ne_eq, not_not] at hguard
      obtain ⟨⟨rfl, rfl⟩, hpath⟩ := hguard
      cases h
      rw [← htext]
      refine splitChar_intercalate ':' _ (by simp) ?_
      intro piece hpiece
      rw [show ["urn", "iam", partition, service, region, tenant, path] =
        ["urn", "iam", partition, service, region, tenant] ++ [path] from rfl,
        List.mem_append, List.mem_singleton] at hpiece
      obtain hpiece | rfl := hpiece
      · exact hinit piece hpiece
      · simpa [contains] using hpath
  · cases h

/-- The fields of a template, between its colons. -/
def templateFields (template : String) : List (List TemplateToken) :=
  (tokens template).splitOn (.char ':')

/-- The last field: the path of the resource. -/
def templatePath (template : String) : List TemplateToken :=
  (templateFields template).getLast?.getD []

/-- Every field of the resource and every segment of its path is the expansion of the
corresponding part of the template. -/
structure KeepsBoundaries (values : TemplateValues) (template : String) (urn : ResourceUrn) :
    Prop where
  fields : List.Forall₂ (Expand values) (templateFields template)
    ["urn", "iam", urn.partition, urn.service, urn.region, urn.tenant, "/".intercalate urn.path]
  segments : List.Forall₂ (Expand values) ((templatePath template).splitOn (.char '/')) urn.path

section
variable {values : TemplateValues} {template : String} {urn : ResourceUrn}

theorem templateFields_length (h : (tokens template).count (.char ':') = 6) :
    (templateFields template).length = 7 := by
  rw [templateFields, Pieces.length_splitOn, h]

/-- The parser accounts for all colons, so the values hold none and the fields stay apart. -/
theorem fields_expand (h : ExpandsTo values template urn)
    (hcolons : (tokens template).count (.char ':') = 6) :
    List.Forall₂ (Expand values) (templateFields template)
      ["urn", "iam", urn.partition, urn.service, urn.region, urn.tenant,
        "/".intercalate urn.path] := by
  obtain ⟨text, hexpand, hurn⟩ := h
  rw [expandTemplate_ok] at hexpand
  obtain ⟨parts, hparts, hread⟩ := ResourceUrn.fromStr_ok hurn
  have hsplit := splitUrn_splitChar hparts
  have hlength : (splitChar ':' text).length = (templateFields template).length := by
    rw [hsplit, templateFields_length hcolons]
    rfl
  have hfields := hexpand.split ':' (hexpand.free_of_length ':' hlength)
  rw [hsplit] at hfields
  rw [hread.partition, hread.service, hread.region, hread.tenant, (splitPath_ok hread.path).1]
  exact hfields

theorem path_expand (h : ExpandsTo values template urn)
    (hcolons : (tokens template).count (.char ':') = 6) :
    Expand values (templatePath template) ("/".intercalate urn.path) := by
  have hfields := List.forall₂_reverse_iff.mpr (fields_expand h hcolons)
  obtain ⟨last, rest, hlast, -, hreversed⟩ := List.forall₂_cons_right_iff.mp hfields
  rw [templatePath, List.getLast?_eq_head?_reverse, hreversed]
  exact hlast

/-- The segments stay apart exactly when no value in the path of the template holds a slash. -/
theorem keepsBoundaries_iff (h : ExpandsTo values template urn)
    (hcolons : (tokens template).count (.char ':') = 6) :
    KeepsBoundaries values template urn ↔ ValuesFree '/' values (templatePath template) := by
  have hpath := path_expand h hcolons
  have hsplit : splitChar '/' ("/".intercalate urn.path) = urn.path := by
    obtain ⟨text, -, hurn⟩ := h
    obtain ⟨parts, -, hread⟩ := ResourceUrn.fromStr_ok hurn
    obtain ⟨-, hne, hsegments⟩ := splitPath_ok hread.path
    exact splitChar_intercalate '/' urn.path hne fun segment hmem => (hsegments segment hmem).2
  constructor
  · intro hkept
    apply hpath.free_of_length '/'
    rw [hsplit, hkept.segments.length_eq]
  · intro hfree
    refine ⟨fields_expand h hcolons, ?_⟩
    have hsegments := hpath.split '/' hfree
    rwa [hsplit] at hsegments

end

/-- A resolved route names the resource part by part as its template says, unless a value
with a slash in it stands in the path of the template. -/
theorem resolve_keeps_boundaries_iff (route : CompiledHttpRoute) (hcompiled : route.Compiled)
    (hcolons : (tokens route.rule.resourceUrn).count (.char ':') = 6)
    (method host path : String) (claims : TemplateValues) (resolved : ResolvedHttpRoute)
    (h : route.resolve method host path claims = .ok (some resolved)) :
    ∃ bindings, route.Binds method host path bindings ∧
      (KeepsBoundaries (requestValues claims method host bindings) route.rule.resourceUrn
          resolved.resourceUrn ↔
        ValuesFree '/' (requestValues claims method host bindings)
          (templatePath route.rule.resourceUrn)) := by
  obtain ⟨bindings, hbinds, -, -, hexpands, -⟩ :=
    (CompiledHttpRoute.resolve_some_iff _ _ _ _ hcompiled.restLast).mp h
  exact ⟨bindings, hbinds, keepsBoundaries_iff hexpands hcolons⟩

namespace TeamRoutes

/-- The path of the resource ends in a claim. -/
def read : CompiledHttpRoute where
  action := "growth.report.read"
  rule :=
    { id := "report-read", methods := [], hosts := [], path := "/reports"
      resourceUrn := "urn:iam:prod:growth:global:acme:report/\x7bteam\x7d", parentUrns := [] }
  path := [.literal "reports"]

def member (team : String) : TemplateValues := fun name => if name = "team" then some team else none

theorem read_compiled : read.Compiled := ⟨read.action, read.rule, by decide⟩

theorem six_colons : (tokens read.rule.resourceUrn).count (.char ':') = 6 := by decide

theorem plain_team_boundaries :
    ∃ bindings, read.Binds "GET" "example.com" "/reports" bindings ∧
      (KeepsBoundaries (requestValues (member "sales") "GET" "example.com" bindings)
          read.rule.resourceUrn ⟨"prod", "growth", "global", "acme", ["report", "sales"]⟩ ↔
        ValuesFree '/' (requestValues (member "sales") "GET" "example.com" bindings)
          (templatePath read.rule.resourceUrn)) :=
  resolve_keeps_boundaries_iff read read_compiled six_colons _ _ _ _
    { routeId := "report-read", action := "growth.report.read"
      resourceUrn := ⟨"prod", "growth", "global", "acme", ["report", "sales"]⟩, parentUrns := [] }
    (by decide)

/-- A claim with a slash names a report below the report of the team. -/
theorem nested_team_moves_boundary :
    read.resolve "GET" "example.com" "/reports" (member "sales/eu") =
        .ok (some { routeId := "report-read", action := "growth.report.read"
                    resourceUrn := ⟨"prod", "growth", "global", "acme", ["report", "sales", "eu"]⟩
                    parentUrns := [] }) ∧
      ∀ values, ¬KeepsBoundaries values read.rule.resourceUrn
        ⟨"prod", "growth", "global", "acme", ["report", "sales", "eu"]⟩ := by
  refine ⟨by decide, fun values hkept => ?_⟩
  have hlength := hkept.segments.length_eq
  exact absurd hlength (by decide)

end TeamRoutes

end Authguard
