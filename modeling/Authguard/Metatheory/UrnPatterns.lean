import Authguard.Library.Result
import Authguard.Common.PolicyUrn

/-!
What an accepted URN pattern looks like, and that its text and its value
determine each other. Every later module reasons about parsed patterns through
`UrnPattern.fromStr_ok` alone.
-/

namespace Authguard
open Text Result

/-- The globstar occurs, if at all, as the last segment. -/
def GlobStarLast : List PathPattern → Prop
  | [] => True
  | segment :: rest => (segment = .globStar → rest = []) ∧ GlobStarLast rest

structure PathWellFormed (path : List PathPattern) : Prop where
  globStarLast : GlobStarLast path
  segment : ∀ value, .exact value ∈ path → value ≠ "" ∧ '/' ∉ value.toList

theorem PathWellFormed.tail {segment : PathPattern} {rest : List PathPattern}
    (h : PathWellFormed (segment :: rest)) : PathWellFormed rest where
  globStarLast := h.globStarLast.2
  segment value hmem := h.segment value (List.mem_cons_of_mem _ hmem)

theorem PathWellFormed.globStar_rest {rest : List PathPattern}
    (h : PathWellFormed (.globStar :: rest)) : rest = [] :=
  h.globStarLast.1 rfl

theorem splitUrn_ok {input : String} {parts : UrnParts} (h : splitUrn input = .ok parts) :
    urnText parts.partition parts.service parts.region parts.tenant parts.path = input := by
  have hjoin := intercalate_splitN ':' 6 input
  simp only [splitUrn] at h
  split at h
  · rename_i scheme nid partition service region tenant path hparts
    split at h
    · cases h
    · rename_i hguard
      simp only [Bool.or_eq_true, bne_iff_ne, not_or, ne_eq, not_not] at hguard
      cases h
      rw [hparts, hguard.1.1, hguard.1.2] at hjoin
      exact hjoin
  · cases h

theorem splitPath_ok {input : String} {segments : List String}
    (h : splitPath input = .ok segments) :
    "/".intercalate segments = input ∧ segments ≠ [] ∧
      ∀ segment ∈ segments, segment ≠ "" ∧ '/' ∉ segment.toList := by
  simp only [splitPath] at h
  split at h
  · cases h
  · split at h
    · cases h
    · rename_i hempty
      cases h
      refine ⟨intercalate_splitChar '/' input, splitChar_ne_nil '/' input, ?_⟩
      intro segment hmem
      refine ⟨?_, splitChar_piece_free '/' input segment hmem⟩
      rintro rfl
      exact hempty (List.any_eq_true.mpr ⟨"", hmem, by simp⟩)

theorem segmentPattern_parse_ok {input : String} {pattern : SegmentPattern}
    (h : SegmentPattern.parse input = .ok pattern) : pattern.display = input := by
  simp only [SegmentPattern.parse] at h
  split at h
  · cases h
  · split at h
    · rename_i hany
      cases h
      exact hany.symm
    · split at h
      · cases h
      · cases h
        rfl

theorem parsePathSegment_ok {segment : String} {last : Bool} {pattern : PathPattern}
    (h : parsePathSegment segment last = .ok pattern) :
    pattern.display = segment ∧ (pattern = .globStar → last = true) := by
  simp only [parsePathSegment] at h
  split at h
  · rename_i hany
    cases h
    exact ⟨hany.symm, by simp⟩
  · split at h
    · rename_i hglob
      split at h
      · rename_i hlast
        cases h
        exact ⟨hglob.symm, fun _ => hlast⟩
      · cases h
    · split at h
      · cases h
      · cases h
        exact ⟨rfl, by simp⟩

theorem parsePathSegments_ok {segments : List String} {path : List PathPattern}
    (h : parsePathSegments segments = .ok path) :
    path.map PathPattern.display = segments ∧ GlobStarLast path := by
  induction segments generalizing path with
  | nil =>
      cases h
      exact ⟨rfl, trivial⟩
  | cons segment rest ih =>
      simp only [parsePathSegments, bind_ok_iff, Except.ok.injEq] at h
      obtain ⟨parsed, hparsed, tail, htail, rfl⟩ := h
      obtain ⟨hdisplay, hlast⟩ := parsePathSegment_ok hparsed
      obtain ⟨hmap, hglob⟩ := ih htail
      refine ⟨by rw [List.map_cons, hdisplay, hmap], ?_, hglob⟩
      intro hstar
      have hrest := List.isEmpty_iff.mp (hlast hstar)
      rw [hrest] at hmap
      exact List.map_eq_nil_iff.mp hmap

theorem parsePathPattern_ok {input : String} {path : List PathPattern}
    (h : parsePathPattern input = .ok path) :
    "/".intercalate (path.map PathPattern.display) = input ∧ PathWellFormed path := by
  simp only [parsePathPattern, bind_ok_iff] at h
  obtain ⟨segments, hsplit, hparse⟩ := h
  obtain ⟨hjoin, -, hsegments⟩ := splitPath_ok hsplit
  obtain ⟨hmap, hglob⟩ := parsePathSegments_ok hparse
  refine ⟨by rw [hmap, hjoin], hglob, ?_⟩
  intro value hmem
  apply hsegments
  rw [← hmap]
  exact List.mem_map.mpr ⟨.exact value, hmem, rfl⟩

/-- An accepted pattern prints as the text it was read from, and is well formed. -/
theorem UrnPattern.fromStr_ok {input : String} {pattern : UrnPattern}
    (h : UrnPattern.fromStr input = .ok pattern) :
    pattern.display = input ∧ PathWellFormed pattern.path := by
  simp only [UrnPattern.fromStr, bind_ok_iff, Except.ok.injEq] at h
  obtain ⟨parts, hparts, partition, hpartition, service, hservice, region, hregion,
    tenant, htenant, path, hpath, rfl⟩ := h
  obtain ⟨hjoin, hwell⟩ := parsePathPattern_ok hpath
  refine ⟨?_, hwell⟩
  simp only [UrnPattern.display, segmentPattern_parse_ok hpartition,
    segmentPattern_parse_ok hservice, segmentPattern_parse_ok hregion,
    segmentPattern_parse_ok htenant, hjoin]
  exact splitUrn_ok hparts

theorem UrnPattern.fromStr_display {input : String} {pattern : UrnPattern}
    (h : UrnPattern.fromStr input = .ok pattern) :
    UrnPattern.fromStr pattern.display = .ok pattern := by
  rw [(fromStr_ok h).1, h]

end Authguard
