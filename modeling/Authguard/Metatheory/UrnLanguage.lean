import Authguard.Metatheory.UrnPatterns

/-!
What resource URNs and URN patterns say. The text of an accepted URN is its printed
form, a pattern selects the URNs that arise from it by filling in its wildcards, and a
resource is named by its own text unless that text holds an asterisk: the reader of
resources lets one stand inside a path segment, the reader of patterns does not.
-/

namespace Authguard
open Text Result

/-! Accepted resource texts. -/

theorem validateExactSegment_ok {name input : String}
    (h : validateExactSegment name input = .ok ()) : input ≠ "" ∧ '*' ∉ input.toList := by
  simp only [validateExactSegment] at h
  split at h
  · cases h
  · rename_i hne
    split at h
    · cases h
    · rename_i hstar
      refine ⟨hne, fun hmem => hstar (.inr (.inr ?_))⟩
      simpa [contains] using hmem

/-- A segment of the path is not a wildcard as a whole. -/
def NotWildcard (segment : String) : Prop := segment ≠ "*" ∧ segment ≠ "**"

structure ResourceUrn.ReadFrom (urn : ResourceUrn) (parts : UrnParts) : Prop where
  partition : urn.partition = parts.partition
  service : urn.service = parts.service
  region : urn.region = parts.region
  tenant : urn.tenant = parts.tenant
  fields : ∀ field ∈ [parts.partition, parts.service, parts.region, parts.tenant],
    field ≠ "" ∧ '*' ∉ field.toList
  path : splitPath parts.path = .ok urn.path
  plain : ∀ segment ∈ urn.path, NotWildcard segment

theorem ResourceUrn.fromStr_ok {input : String} {urn : ResourceUrn}
    (h : ResourceUrn.fromStr input = .ok urn) :
    ∃ parts, splitUrn input = .ok parts ∧ urn.ReadFrom parts := by
  simp only [ResourceUrn.fromStr, bind_ok_iff] at h
  obtain ⟨parts, hparts, _, hpartition, _, hservice, _, hregion, _, htenant, path, hpath, h⟩ := h
  have hfields : ∀ field ∈ [parts.partition, parts.service, parts.region, parts.tenant],
      field ≠ "" ∧ '*' ∉ field.toList := by
    simp only [List.forall_mem_cons]
    exact ⟨validateExactSegment_ok hpartition, validateExactSegment_ok hservice,
      validateExactSegment_ok hregion, validateExactSegment_ok htenant, by simp⟩
  refine ⟨parts, hparts, ?_⟩
  split at h
  · cases h
  · rename_i hnone
    cases h
    refine ⟨rfl, rfl, rfl, rfl, hfields, hpath, ?_⟩
    intro segment hmem
    have hplain := List.find?_eq_none.mp hnone segment hmem
    simpa [NotWildcard] using hplain

theorem ResourceUrn.fromStr_display {input : String} {urn : ResourceUrn}
    (h : ResourceUrn.fromStr input = .ok urn) : urn.display = input := by
  obtain ⟨parts, hparts, hread⟩ := fromStr_ok h
  rw [ResourceUrn.display, hread.partition, hread.service, hread.region, hread.tenant,
    (splitPath_ok hread.path).1]
  exact splitUrn_ok hparts

/-! The URNs a pattern stands for. -/

def SegmentPattern.Selects : SegmentPattern → String → Prop
  | .exact value, field => field = value
  | .any, _ => True

/-- The segments that may stand in the place of a segment of the pattern. -/
def PathPattern.Fills : PathPattern → List String → Prop
  | .exact value, segments => segments = [value]
  | .any, segments => ∃ segment, segments = [segment]
  | .globStar, _ => True

structure UrnPattern.Selects (pattern : UrnPattern) (urn : ResourceUrn) : Prop where
  partition : pattern.partition.Selects urn.partition
  service : pattern.service.Selects urn.service
  region : pattern.region.Selects urn.region
  tenant : pattern.tenant.Selects urn.tenant
  path : ∃ pieces, List.Forall₂ PathPattern.Fills pattern.path pieces ∧ pieces.flatten = urn.path

theorem segmentPattern_matches_iff (pattern : SegmentPattern) (field : String) :
    pattern.matches field = true ↔ pattern.Selects field := by
  cases pattern with
  | exact value =>
      rw [SegmentPattern.matches, beq_iff_eq, SegmentPattern.Selects]
      exact eq_comm
  | any => simp [SegmentPattern.matches, SegmentPattern.Selects]

theorem fills_cons_iff {first : PathPattern} {rest : List PathPattern} {path : List String} :
    (∃ pieces, List.Forall₂ PathPattern.Fills (first :: rest) pieces ∧ pieces.flatten = path) ↔
      ∃ piece tail, first.Fills piece ∧ path = piece ++ tail ∧
        ∃ pieces, List.Forall₂ PathPattern.Fills rest pieces ∧ pieces.flatten = tail := by
  constructor
  · rintro ⟨pieces, hall, rfl⟩
    obtain ⟨piece, others, hfirst, hrest, rfl⟩ := List.forall₂_cons_left_iff.mp hall
    exact ⟨piece, others.flatten, hfirst, rfl, others, hrest, rfl⟩
  · rintro ⟨piece, _, hfirst, rfl, others, hrest, rfl⟩
    exact ⟨piece :: others, .cons hfirst hrest, rfl⟩

/-- The loop over both paths; a globstar ends it because nothing follows. -/
theorem pathMatches_iff {pattern : List PathPattern} (hlast : GlobStarLast pattern)
    (path : List String) :
    pathMatches pattern path = true ↔
      ∃ pieces, List.Forall₂ PathPattern.Fills pattern pieces ∧ pieces.flatten = path := by
  induction pattern generalizing path with
  | nil =>
      simp only [pathMatches, List.isEmpty_iff, List.forall₂_nil_left_iff, exists_eq_left,
        List.flatten_nil]
      exact eq_comm
  | cons first rest ih =>
      rw [fills_cons_iff]
      cases first with
      | globStar =>
          have hrest : rest = [] := hlast.1 rfl
          subst hrest
          simp only [pathMatches, List.isEmpty_nil, true_iff]
          exact ⟨path, [], trivial, by simp, [], .nil, rfl⟩
      | any =>
          cases path with
          | nil => simp [pathMatches, PathPattern.Fills]
          | cons segment path =>
              rw [pathMatches, ih hlast.2]
              constructor
              · intro h
                exact ⟨[segment], path, ⟨segment, rfl⟩, rfl, h⟩
              · rintro ⟨_, tail, ⟨other, rfl⟩, heq, h⟩
                cases heq
                exact h
      | exact value =>
          cases path with
          | nil => simp [pathMatches, PathPattern.Fills]
          | cons segment path =>
              rw [pathMatches, Bool.and_eq_true, beq_iff_eq, ih hlast.2]
              constructor
              · rintro ⟨rfl, h⟩
                exact ⟨[segment], path, rfl, rfl, h⟩
              · rintro ⟨_, tail, rfl, heq, h⟩
                cases heq
                exact ⟨rfl, h⟩

theorem UrnPattern.matches_iff {pattern : UrnPattern} (hlast : GlobStarLast pattern.path)
    (urn : ResourceUrn) : pattern.matches urn = true ↔ pattern.Selects urn := by
  simp only [UrnPattern.matches, Bool.and_eq_true, segmentPattern_matches_iff,
    pathMatches_iff hlast]
  constructor
  · rintro ⟨⟨⟨⟨hpartition, hservice⟩, hregion⟩, htenant⟩, hpath⟩
    exact ⟨hpartition, hservice, hregion, htenant, hpath⟩
  · rintro ⟨hpartition, hservice, hregion, htenant, hpath⟩
    exact ⟨⟨⟨⟨hpartition, hservice⟩, hregion⟩, htenant⟩, hpath⟩

/-- Accepted texts and their values determine each other, and an accepted pattern matches
the URNs it selects. -/
theorem urn_text_faithful (text : String) :
    (∀ pattern, UrnPattern.fromStr text = .ok pattern →
      pattern.display = text ∧ UrnPattern.fromStr pattern.display = .ok pattern ∧
        (∀ other, UrnPattern.fromStr other = .ok pattern → other = text) ∧
        ∀ urn, pattern.matches urn = true ↔ pattern.Selects urn) ∧
    ∀ urn, ResourceUrn.fromStr text = .ok urn →
      urn.display = text ∧ ResourceUrn.fromStr urn.display = .ok urn ∧
        ∀ other, ResourceUrn.fromStr other = .ok urn → other = text := by
  constructor
  · intro pattern h
    obtain ⟨hdisplay, hwell⟩ := UrnPattern.fromStr_ok h
    refine ⟨hdisplay, UrnPattern.fromStr_display h, ?_, UrnPattern.matches_iff hwell.globStarLast⟩
    intro other hother
    rw [← (UrnPattern.fromStr_ok hother).1, hdisplay]
  · intro urn h
    have hdisplay := ResourceUrn.fromStr_display h
    refine ⟨hdisplay, by rw [hdisplay, h], ?_⟩
    intro other hother
    rw [← ResourceUrn.fromStr_display hother, hdisplay]

theorem urn_text_faithful_job :
    UrnPattern.fromStr "urn:iam:prod:*:global:acme:job/*/**" =
        .ok ⟨.exact "prod", .any, .exact "global", .exact "acme",
          [.exact "job", .any, .globStar]⟩ ∧
      UrnPattern.display ⟨.exact "prod", .any, .exact "global", .exact "acme",
          [.exact "job", .any, .globStar]⟩ = "urn:iam:prod:*:global:acme:job/*/**" ∧
      ResourceUrn.display ⟨"prod", "growth", "global", "acme", ["job", "7"]⟩ =
        "urn:iam:prod:growth:global:acme:job/7" := by
  have hpattern : UrnPattern.fromStr "urn:iam:prod:*:global:acme:job/*/**" =
      .ok ⟨.exact "prod", .any, .exact "global", .exact "acme",
        [.exact "job", .any, .globStar]⟩ := by
    decide
  have hurn : ResourceUrn.fromStr "urn:iam:prod:growth:global:acme:job/7" =
      .ok ⟨"prod", "growth", "global", "acme", ["job", "7"]⟩ := by
    decide
  exact ⟨hpattern, ((urn_text_faithful _).1 _ hpattern).1, ((urn_text_faithful _).2 _ hurn).1⟩

/-! Naming one resource in a policy. -/

theorem segmentPattern_parse_exact {input : String} (hne : input ≠ "") (hstar : '*' ∉ input.toList) :
    SegmentPattern.parse input = .ok (.exact input) := by
  have hany : input ≠ "*" := by
    rintro rfl
    exact hstar (by decide)
  have hplain : ¬(input = "**" ∨ contains '*' input = true) := by
    rintro (rfl | hcontains)
    · exact hstar (by decide)
    · exact hstar (by simpa [contains] using hcontains)
  rw [SegmentPattern.parse, if_neg hne, if_neg hany, if_neg hplain]

/-- Among the segments of a resource only an asterisk stops the reader of patterns. -/
theorem parsePathSegments_exact_iff {segments : List String}
    (hplain : ∀ segment ∈ segments, NotWildcard segment) (path : List PathPattern) :
    parsePathSegments segments = .ok path ↔
      (∀ segment ∈ segments, '*' ∉ segment.toList) ∧ path = segments.map .exact := by
  induction segments generalizing path with
  | nil => simp [parsePathSegments, eq_comm]
  | cons segment rest ih =>
      obtain ⟨hsegment, hrest⟩ := List.forall_mem_cons.mp hplain
      have hfirst : parsePathSegment segment rest.isEmpty =
          if contains '*' segment then .error (.invalidWildcard segment)
          else .ok (.exact segment) := by
        rw [parsePathSegment, if_neg hsegment.1, if_neg hsegment.2]
      simp only [parsePathSegments, bind_ok_iff, hfirst, ih hrest, List.forall_mem_cons]
      constructor
      · rintro ⟨first, hread, tail, ⟨hfree, rfl⟩, heq⟩
        split at hread
        · cases hread
        · rename_i hstar
          cases hread
          cases heq
          exact ⟨⟨by simpa [contains] using hstar, hfree⟩, rfl⟩
      · rintro ⟨⟨hstar, hfree⟩, rfl⟩
        refine ⟨.exact segment, ?_, rest.map .exact, ⟨hfree, rfl⟩, rfl⟩
        rw [if_neg (by simpa [contains] using hstar)]

theorem pathMatches_map_exact (segments path : List String) :
    pathMatches (segments.map .exact) path = true ↔ path = segments := by
  induction segments generalizing path with
  | nil => simp [pathMatches]
  | cons segment rest ih =>
      cases path with
      | nil => simp [pathMatches]
      | cons first path => simp [pathMatches, ih]

/-- The pattern that selects the resource alone. -/
def ResourceUrn.pattern (urn : ResourceUrn) : UrnPattern where
  partition := .exact urn.partition
  service := .exact urn.service
  region := .exact urn.region
  tenant := .exact urn.tenant
  path := urn.path.map .exact

theorem ResourceUrn.pattern_matches (urn other : ResourceUrn) :
    urn.pattern.matches other = true ↔ other = urn := by
  simp only [ResourceUrn.pattern, UrnPattern.matches, SegmentPattern.matches, Bool.and_eq_true,
    beq_iff_eq, pathMatches_map_exact]
  constructor
  · rintro ⟨⟨⟨⟨hpartition, hservice⟩, hregion⟩, htenant⟩, hpath⟩
    cases urn
    cases other
    simp_all
  · rintro rfl
    simp

theorem patternFromStr_iff {text : String} {urn : ResourceUrn}
    (h : ResourceUrn.fromStr text = .ok urn) (pattern : UrnPattern) :
    UrnPattern.fromStr text = .ok pattern ↔
      (∀ segment ∈ urn.path, '*' ∉ segment.toList) ∧ pattern = urn.pattern := by
  obtain ⟨parts, hparts, hread⟩ := ResourceUrn.fromStr_ok h
  have hfields := hread.fields
  simp only [List.forall_mem_cons] at hfields
  obtain ⟨hpartition, hservice, hregion, htenant, -⟩ := hfields
  simp only [UrnPattern.fromStr, parsePathPattern, bind_ok_iff, hparts, Except.ok.injEq,
    exists_eq_left', segmentPattern_parse_exact hpartition.1 hpartition.2,
    segmentPattern_parse_exact hservice.1 hservice.2,
    segmentPattern_parse_exact hregion.1 hregion.2,
    segmentPattern_parse_exact htenant.1 htenant.2, hread.path,
    parsePathSegments_exact_iff hread.plain]
  rw [ResourceUrn.pattern, hread.partition, hread.service, hread.region, hread.tenant]
  constructor
  · rintro ⟨path, ⟨hfree, rfl⟩, rfl⟩
    exact ⟨hfree, rfl⟩
  · rintro ⟨hfree, rfl⟩
    exact ⟨_, ⟨hfree, rfl⟩, rfl⟩

/-- The fields before the path hold no asterisk anyway. -/
theorem asterisk_free_iff {text : String} {urn : ResourceUrn}
    (h : ResourceUrn.fromStr text = .ok urn) :
    '*' ∉ text.toList ↔ ∀ segment ∈ urn.path, '*' ∉ segment.toList := by
  obtain ⟨parts, hparts, hread⟩ := ResourceUrn.fromStr_ok h
  have hfields := hread.fields
  simp only [List.forall_mem_cons] at hfields
  obtain ⟨hpartition, hservice, hregion, htenant, -⟩ := hfields
  rw [← ResourceUrn.fromStr_display h, ResourceUrn.display, urnText, hread.partition,
    hread.service, hread.region, hread.tenant, mem_intercalate (by decide)]
  have hpath : '*' ∈ ("/".intercalate urn.path).toList ↔
      ∃ segment ∈ urn.path, '*' ∈ segment.toList :=
    mem_intercalate (by decide)
  constructor
  · intro hfree segment hmem hstar
    exact hfree ⟨_, by simp, hpath.mpr ⟨segment, hmem, hstar⟩⟩
  · rintro hfree ⟨piece, hmem, hstar⟩
    simp only [List.mem_cons, List.not_mem_nil, or_false] at hmem
    obtain rfl | rfl | rfl | rfl | rfl | rfl | rfl := hmem
    · exact absurd hstar (by decide)
    · exact absurd hstar (by decide)
    · exact hpartition.2 hstar
    · exact hservice.2 hstar
    · exact hregion.2 hstar
    · exact htenant.2 hstar
    · obtain ⟨segment, hsegment, hin⟩ := hpath.mp hstar
      exact hfree segment hsegment hin

/-- The text of a resource, read as a pattern, selects this resource alone. -/
def NamesItself (text : String) (urn : ResourceUrn) : Prop :=
  ∃ pattern, UrnPattern.fromStr text = .ok pattern ∧
    ∀ other, pattern.matches other = true ↔ other = urn

/-- A resource can be named in a policy exactly when its text holds no asterisk. -/
theorem resource_named_iff (text : String) (urn : ResourceUrn)
    (h : ResourceUrn.fromStr text = .ok urn) :
    NamesItself text urn ↔ '*' ∉ text.toList := by
  rw [asterisk_free_iff h]
  constructor
  · rintro ⟨pattern, hpattern, -⟩
    exact ((patternFromStr_iff h pattern).mp hpattern).1
  · intro hfree
    exact ⟨urn.pattern, (patternFromStr_iff h _).mpr ⟨hfree, rfl⟩, urn.pattern_matches⟩

theorem resource_named_job :
    NamesItself "urn:iam:prod:growth:global:acme:job/7"
      ⟨"prod", "growth", "global", "acme", ["job", "7"]⟩ :=
  (resource_named_iff _ _ (by decide)).mpr (by decide)

/-- The resource is accepted and its text is no pattern. -/
theorem resource_unnamed_starred_job :
    ResourceUrn.fromStr "urn:iam:prod:growth:global:acme:job/a*b" =
        .ok ⟨"prod", "growth", "global", "acme", ["job", "a*b"]⟩ ∧
      UrnPattern.fromStr "urn:iam:prod:growth:global:acme:job/a*b" =
        .error (.invalidWildcard "a*b") ∧
      ¬NamesItself "urn:iam:prod:growth:global:acme:job/a*b"
        ⟨"prod", "growth", "global", "acme", ["job", "a*b"]⟩ := by
  have herror : UrnPattern.fromStr "urn:iam:prod:growth:global:acme:job/a*b" =
      .error (.invalidWildcard "a*b") := by
    decide
  refine ⟨by decide, herror, ?_⟩
  rintro ⟨pattern, hpattern, -⟩
  rw [herror] at hpattern
  cases hpattern

end Authguard
