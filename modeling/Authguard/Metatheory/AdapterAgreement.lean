import Authguard.Adapter.ScopeCompilers
import Authguard.Metatheory.UrnPatterns

/-!
The adapters against the Rust compiler. A pattern that Rust accepts is taken apart
into the same texts by every adapter, and the walk over the texts makes the
clauses that the walk over the parsed pattern makes. Errors differ in wording, so
results are compared as options.
-/

namespace Authguard
open Text Result

/-! Options of results. -/

section
variable {ε ε' α β γ : Type}

theorem toOption_bind (step : Except ε α) (next : α → Except ε β) :
    (step >>= next).toOption = step.toOption.bind fun value => (next value).toOption := by
  cases step with
  | error failure => rfl
  | ok value => rfl

theorem toOption_collect {f : α → Except ε γ} {g : β → Except ε' γ} {xs : List α} {ys : List β}
    (h : List.Forall₂ (fun x y => (f x).toOption = (g y).toOption) xs ys) :
    (collect f xs).toOption = (collect g ys).toOption := by
  induction h with
  | nil => rfl
  | cons hfirst _ ih =>
      simp only [collect, toOption_bind, hfirst, ih]
      rfl

end

/-! Patterns as text. -/

/-- Exact segments are not mistaken for wildcards. -/
structure UrnPattern.Plain (pattern : UrnPattern) : Prop where
  fields : ∀ field ∈ [pattern.partition, pattern.service, pattern.region, pattern.tenant],
    field ≠ .exact "*"
  path : ∀ value, .exact value ∈ pattern.path → value ≠ "*" ∧ value ≠ "**"

def UrnPattern.text (pattern : UrnPattern) : URNPattern where
  partition := pattern.partition.display
  service := pattern.service.display
  region := pattern.region.display
  tenant := pattern.tenant.display
  path := pattern.path.map PathPattern.display

theorem segmentPattern_parse_accepted {input : String} {pattern : SegmentPattern}
    (h : SegmentPattern.parse input = .ok pattern) :
    pattern.display = input ∧ pattern ≠ .exact "*" ∧ Adapter.invalidSegment input = false := by
  simp only [SegmentPattern.parse] at h
  split at h
  · cases h
  · rename_i hempty
    split at h
    · rename_i hany
      cases h
      exact ⟨hany.symm, by simp, by rw [hany]; decide⟩
    · rename_i hany
      split at h
      · cases h
      · rename_i hplain
        cases h
        rw [not_or, Bool.not_eq_true] at hplain
        refine ⟨rfl, by simpa using hany, ?_⟩
        simp [Adapter.invalidSegment, hempty, hplain.2]

theorem parsePathSegment_accepted {segment : String} {last : Bool} {pattern : PathPattern}
    (h : parsePathSegment segment last = .ok pattern) :
    pattern.display = segment ∧ pattern ≠ .exact "*" ∧ pattern ≠ .exact "**" ∧
      (segment = "**" → last = true) ∧ Adapter.partialWildcard segment = false := by
  simp only [parsePathSegment] at h
  split at h
  · rename_i hany
    cases h
    exact ⟨hany.symm, by simp, by simp, by simp [hany], by rw [hany]; decide⟩
  · rename_i hany
    split at h
    · rename_i hglob
      split at h
      · rename_i hlast
        cases h
        exact ⟨hglob.symm, by simp, by simp, fun _ => hlast, by rw [hglob]; decide⟩
      · cases h
    · rename_i hglob
      split at h
      · cases h
      · rename_i hplain
        cases h
        rw [Bool.not_eq_true] at hplain
        refine ⟨rfl, by simpa using hany, by simpa using hglob, fun h => absurd h hglob, ?_⟩
        simp [Adapter.partialWildcard, hplain]

/-- Segments the Rust parser accepts, as the loops of the adapters meet them. -/
def AcceptedPath : List String → Prop
  | [] => True
  | segment :: rest => (segment = "**" → rest = []) ∧ Adapter.partialWildcard segment = false ∧
      AcceptedPath rest

theorem parsePathSegments_accepted {segments : List String} {path : List PathPattern}
    (h : parsePathSegments segments = .ok path) :
    path.map PathPattern.display = segments ∧ AcceptedPath segments ∧
      ∀ value, .exact value ∈ path → value ≠ "*" ∧ value ≠ "**" := by
  induction segments generalizing path with
  | nil =>
      cases h
      exact ⟨rfl, trivial, by simp⟩
  | cons segment rest ih =>
      simp only [parsePathSegments, bind_ok_iff, Except.ok.injEq] at h
      obtain ⟨parsed, hparsed, tail, htail, rfl⟩ := h
      obtain ⟨hdisplay, hstar, hglob, hlast, hpartial⟩ := parsePathSegment_accepted hparsed
      obtain ⟨hmap, haccepted, hplain⟩ := ih htail
      refine ⟨by rw [List.map_cons, hdisplay, hmap],
        ⟨fun hsegment => List.isEmpty_iff.mp (hlast hsegment), hpartial, haccepted⟩, ?_⟩
      intro value hvalue
      cases List.mem_cons.mp hvalue with
      | inl heq =>
          refine ⟨?_, ?_⟩
          · rintro rfl
            exact hstar heq.symm
          · rintro rfl
            exact hglob heq.symm
      | inr htail => exact hplain value htail

/-- What Rust accepts, in the words of the adapters. -/
structure Accepted (raw : String) (pattern : UrnPattern) : Prop where
  split : ∃ path, splitN 7 ':' raw =
      ["urn", "iam", pattern.partition.display, pattern.service.display, pattern.region.display,
        pattern.tenant.display, path] ∧ path ≠ "" ∧ contains ':' path = false ∧
      splitChar '/' path = pattern.text.path
  fields : ([pattern.partition.display, pattern.service.display, pattern.region.display,
    pattern.tenant.display].any Adapter.invalidSegment) = false
  nonempty : pattern.text.path.any (· == "") = false
  path : AcceptedPath pattern.text.path
  plain : pattern.Plain
  globStarLast : GlobStarLast pattern.path

theorem UrnPattern.fromStr_accepted {raw : String} {pattern : UrnPattern}
    (h : UrnPattern.fromStr raw = .ok pattern) : Accepted raw pattern := by
  have hwell := (UrnPattern.fromStr_ok h).2
  simp only [UrnPattern.fromStr, bind_ok_iff, Except.ok.injEq] at h
  obtain ⟨parts, hparts, partition, hpartition, service, hservice, region, hregion,
    tenant, htenant, path, hpath, rfl⟩ := h
  simp only [parsePathPattern, bind_ok_iff] at hpath
  obtain ⟨segments, hsegments, hpath⟩ := hpath
  obtain ⟨hmap, haccepted, hplain⟩ := parsePathSegments_accepted hpath
  obtain ⟨hd₁, hp₁, hi₁⟩ := segmentPattern_parse_accepted hpartition
  obtain ⟨hd₂, hp₂, hi₂⟩ := segmentPattern_parse_accepted hservice
  obtain ⟨hd₃, hp₃, hi₃⟩ := segmentPattern_parse_accepted hregion
  obtain ⟨hd₄, hp₄, hi₄⟩ := segmentPattern_parse_accepted htenant
  have hsplitPath : parts.path ≠ "" ∧ splitChar '/' parts.path = segments ∧
      segments.any (· == "") = false := by
    simp only [splitPath] at hsegments
    split at hsegments
    · cases hsegments
    · rename_i hne
      split at hsegments
      · cases hsegments
      · rename_i hempty
        cases hsegments
        exact ⟨hne, rfl, Bool.eq_false_iff.mpr hempty⟩
  have hsplit : splitN 7 ':' raw = ["urn", "iam", parts.partition, parts.service, parts.region,
      parts.tenant, parts.path] ∧ contains ':' parts.path = false := by
    simp only [splitUrn] at hparts
    split at hparts
    · rename_i scheme nid partition service region tenant path hpieces
      split at hparts
      · cases hparts
      · rename_i hguard
        simp only [Bool.or_eq_true, bne_iff_ne, not_or, ne_eq, not_not, Bool.not_eq_true] at hguard
        cases hparts
        exact ⟨by rw [hpieces, hguard.1.1, hguard.1.2], hguard.2⟩
    · cases hparts
  refine ⟨⟨parts.path, ?_, hsplitPath.1, hsplit.2, ?_⟩, ?_, ?_, ?_, ⟨?_, hplain⟩, hwell.globStarLast⟩
  · rw [hsplit.1, hd₁, hd₂, hd₃, hd₄]
  · rw [hsplitPath.2.1, UrnPattern.text, hmap]
  · simp [hd₁, hd₂, hd₃, hd₄, hi₁, hi₂, hi₃, hi₄]
  · rw [UrnPattern.text, hmap]
    exact hsplitPath.2.2
  · rw [UrnPattern.text, hmap]
    exact haccepted
  · simp only [List.mem_cons, List.not_mem_nil, or_false]
    rintro field (rfl | rfl | rfl | rfl)
    · exact hp₁
    · exact hp₂
    · exact hp₃
    · exact hp₄

/-! Every adapter reads an accepted pattern. -/

theorem go_checkPath {raw : String} {segments : List String} (h : AcceptedPath segments)
    (hempty : segments.any (· == "") = false) : Go.checkPath raw segments = .ok () := by
  induction segments with
  | nil => rfl
  | cons segment rest ih =>
      rw [List.any_cons, Bool.or_eq_false_iff, beq_eq_false_iff_ne] at hempty
      obtain ⟨hlast, hpartial, hrest⟩ := h
      have hplace : ¬(segment = "**" ∧ rest ≠ []) := fun h => h.2 (hlast h.1)
      rw [Go.checkPath, if_neg hempty.1, if_neg hplace, hpartial]
      exact ih hrest hempty.2

theorem checkWildcards_accepted {misplaced : String} {segments : List String}
    (h : AcceptedPath segments) : Adapter.checkWildcards misplaced segments = .ok () := by
  induction segments with
  | nil => rfl
  | cons segment rest ih =>
      obtain ⟨hlast, hpartial, hrest⟩ := h
      have hplace : ¬(segment = "**" ∧ rest ≠ []) := fun h => h.2 (hlast h.1)
      rw [Adapter.checkWildcards, if_neg hplace, hpartial]
      exact ih hrest

theorem splitChar_of_free {c : Char} {text : String} (h : ¬contains c text = true) :
    splitChar c text = [text] := by
  have hsingle := splitChar_intercalate c [text] (by simp) (by
    intro piece hpiece
    rw [List.mem_singleton.mp hpiece]
    simpa [contains] using h)
  have hjoin : (String.singleton c).intercalate [text] = text := rfl
  rw [hjoin] at hsingle
  exact hsingle

/-- Nothing is dropped from the end when no piece is empty. -/
theorem java_split {c : Char} {text : String}
    (h : (splitChar c text).any (· == "") = false) : Java.split c text = splitChar c text := by
  rw [Java.split]
  split
  · have hkeep : (splitChar c text).reverse.dropWhile (· == "") = (splitChar c text).reverse := by
      cases hlast : (splitChar c text).reverse with
      | nil => rfl
      | cons piece pieces =>
          have hmem : piece ∈ splitChar c text := by
            rw [← List.mem_reverse, hlast]
            exact List.mem_cons_self
          rw [List.any_eq_false] at h
          exact List.dropWhile_cons_of_neg (h piece hmem)
    rw [hkeep, List.reverse_reverse]
  · rename_i hfree
    exact (splitChar_of_free hfree).symm

section
variable {raw : String} {pattern : UrnPattern}

theorem Accepted.go (h : Accepted raw pattern) : Go.parseURNPattern raw = .ok pattern.text := by
  obtain ⟨path, hsplit, hne, hcolon, hpath⟩ := h.split
  have hform : ¬("urn" ≠ "urn" ∨ "iam" ≠ "iam" ∨ path = "" ∨ contains ':' path = true) := by
    simp [hne, hcolon]
  simp only [Go.parseURNPattern, hsplit, if_neg hform, h.fields, Bool.false_eq_true, if_false,
    hpath, go_checkPath h.path h.nonempty]
  rfl

theorem Accepted.java (h : Accepted raw pattern) :
    Java.parseUrnPattern raw = .ok pattern.text := by
  obtain ⟨path, hsplit, -, hcolon, hpath⟩ := h.split
  have hform : ¬("urn" ≠ "urn" ∨ "iam" ≠ "iam" ∨ contains ':' path = true) := by simp [hcolon]
  have hjava : Java.split '/' path = pattern.text.path :=
    (java_split (by rw [hpath]; exact h.nonempty)).trans hpath
  have hpieces : ¬(pattern.text.path = [] ∨ pattern.text.path.any (· == "") = true) := by
    rw [h.nonempty, ← hpath]
    simp [splitChar_ne_nil]
  simp only [Java.parseUrnPattern, hsplit, if_neg hform, h.fields, Bool.false_eq_true, if_false,
    hjava, if_neg hpieces, checkWildcards_accepted h.path]
  rfl

theorem Accepted.python (h : Accepted raw pattern) :
    Python.parseUrnPattern raw = .ok pattern.text := by
  obtain ⟨path, hsplit, -, hcolon, hpath⟩ := h.split
  have hform : ¬("urn" ≠ "urn" ∨ "iam" ≠ "iam" ∨ contains ':' path = true) := by simp [hcolon]
  have hpieces : ¬(pattern.text.path = [] ∨ pattern.text.path.any (· == "") = true) := by
    rw [h.nonempty, ← hpath]
    simp [splitChar_ne_nil]
  simp only [Python.parseUrnPattern, hsplit, if_neg hform, h.fields, Bool.false_eq_true, if_false,
    hpath, if_neg hpieces, checkWildcards_accepted h.path]
  rfl

end

/-! The walk over the texts. -/

theorem compileSegment_display (mapping : SegmentMap) {pattern : SegmentPattern}
    (h : pattern ≠ .exact "*") (acc : Fragment) :
    Adapter.compileSegment mapping pattern.display acc = compileSegment mapping pattern acc := by
  cases pattern with
  | any => cases mapping <;> rfl
  | exact value =>
      have hvalue : value ≠ "*" := fun heq => h (by rw [heq])
      unfold Adapter.compileSegment
      rw [SegmentPattern.display, if_neg hvalue]
      cases mapping <;> rfl

section
variable {path : List PathPattern}

theorem display_eq_star {segment : PathPattern}
    (h : ∀ value, segment = .exact value → value ≠ "*" ∧ value ≠ "**") :
    (segment.display = "*" ↔ segment = .any) ∧ (segment.display = "**" ↔ segment = .globStar) := by
  cases segment with
  | any => decide
  | globStar => decide
  | exact value =>
      have hvalue := h value rfl
      simp [PathPattern.display, hvalue.1, hvalue.2]

/-- Without `*`, and with `**` in the last place only, all but the last are exact. -/
theorem collect_exactSegment_display {remaining segments : List PathPattern}
    (hany : segments.any (· == .any) = false) (hglob : ∀ segment ∈ segments, segment ≠ .globStar) :
    collect (exactSegment remaining) segments = .ok (segments.map PathPattern.display) := by
  rw [collect_eq_ok, List.forall₂_map_right_iff, List.forall₂_same]
  intro segment hsegment
  cases segment with
  | any =>
      rw [List.any_eq_false] at hany
      exact absurd (beq_self_eq_true PathPattern.any) (hany .any hsegment)
  | globStar => exact absurd rfl (hglob .globStar hsegment)
  | exact value => rfl

theorem GlobStarLast.dropLast (h : GlobStarLast path) :
    ∀ segment ∈ path.dropLast, segment ≠ .globStar := by
  induction path with
  | nil => simp
  | cons first rest ih =>
      cases rest with
      | nil => simp
      | cons second rest =>
          rw [List.dropLast_cons_cons]
          intro segment hsegment
          cases List.mem_cons.mp hsegment with
          | inl heq =>
              rintro rfl
              have hnil := h.1 heq.symm
              cases hnil
          | inr hrest => exact ih h.2 segment hrest

/-- The path of a pattern that Rust accepted. -/
structure PlainPath (path : List PathPattern) : Prop where
  globStarLast : GlobStarLast path
  exact : ∀ value, .exact value ∈ path → value ≠ "*" ∧ value ≠ "**"

theorem PlainPath.tail {segment : PathPattern} (h : PlainPath (segment :: path)) :
    PlainPath path where
  globStarLast := h.globStarLast.2
  exact value hmem := h.exact value (List.mem_cons_of_mem _ hmem)

theorem PlainPath.display_iff (h : PlainPath path) {segment : PathPattern}
    (hsegment : segment ∈ path) :
    (segment.display = "*" ↔ segment = .any) ∧ (segment.display = "**" ↔ segment = .globStar) :=
  display_eq_star fun value heq => h.exact value (heq ▸ hsegment)

theorem PlainPath.eq_globStar (h : PlainPath path) :
    path.map PathPattern.display = ["**"] ↔ path = [.globStar] := by
  constructor
  · intro hmap
    obtain ⟨segment, rfl, hdisplay⟩ := List.map_eq_singleton_iff.mp hmap
    rw [(h.display_iff List.mem_cons_self).2.mp hdisplay]
  · rintro rfl
    rfl

theorem PlainPath.contains_star (h : PlainPath path) :
    (path.map PathPattern.display).contains "*" = path.any (· == .any) := by
  rw [Bool.eq_iff_iff, List.contains_iff_mem, List.mem_map, List.any_eq_true]
  constructor
  · rintro ⟨segment, hsegment, hdisplay⟩
    exact ⟨segment, hsegment, beq_iff_eq.mpr ((h.display_iff hsegment).1.mp hdisplay)⟩
  · rintro ⟨segment, hsegment, hany⟩
    exact ⟨segment, hsegment, (h.display_iff hsegment).1.mpr (beq_iff_eq.mp hany)⟩

theorem PlainPath.getLast_globStar (h : PlainPath path) :
    (path.map PathPattern.display).getLast? = some "**" ↔ path.getLast? = some .globStar := by
  rw [List.getLast?_map]
  cases hlast : path.getLast? with
  | none => simp
  | some segment =>
      have hmem := List.mem_of_getLast? hlast
      rw [Option.map_some, Option.some.injEq, Option.some.injEq, (h.display_iff hmem).2]

theorem compileRemainder_display (column : String) (h : PlainPath path) (acc : Fragment) :
    (Adapter.compileRemainder column (path.map PathPattern.display) acc).toOption =
      (compileRemainder column path acc).toOption := by
  by_cases hnil : path = []
  · rw [hnil]
    rfl
  by_cases hglob : path = [.globStar]
  · rw [hglob]
    rfl
  have hdisplay : ¬(path.map PathPattern.display = [] ∨ path.map PathPattern.display = ["**"]) := by
    rw [not_or, List.map_eq_nil_iff, h.eq_globStar]
    exact ⟨hnil, hglob⟩
  rw [Adapter.compileRemainder, compileRemainder, if_neg hdisplay, if_neg hnil, if_neg hglob,
    h.contains_star]
  cases hany : path.any (· == .any) with
  | true => rfl
  | false =>
      rw [if_neg Bool.false_ne_true, if_neg Bool.false_ne_true]
      have hdrop : (path.map PathPattern.display).dropLast =
          path.dropLast.map PathPattern.display := List.map_dropLast.symm
      by_cases hlast : path.getLast? = some .globStar
      · have hdropped : path.dropLast.any (· == .any) = false := by
          rw [List.any_eq_false] at hany ⊢
          exact fun segment hsegment => hany segment (List.mem_of_mem_dropLast hsegment)
        rw [if_pos (h.getLast_globStar.mpr hlast), if_pos hlast, hdrop,
          collect_exactSegment_display hdropped h.globStarLast.dropLast]
        dsimp only [bind, Except.bind]
        split <;> rfl
      · have hno : ∀ segment ∈ path, segment ≠ .globStar := by
          rintro segment hsegment rfl
          have hsplit := List.dropLast_append_getLast hnil
          rw [← hsplit, List.mem_append, List.mem_singleton] at hsegment
          cases hsegment with
          | inl hbefore => exact h.globStarLast.dropLast .globStar hbefore rfl
          | inr heq => exact hlast (heq ▸ List.getLast?_eq_some_getLast hnil)
        rw [if_neg (fun hdisplay => hlast (h.getLast_globStar.mp hdisplay)), if_neg hlast,
          collect_exactSegment_display hany hno]
        rfl

/-- The remainder column is, if there is one, the last entry of the path. -/
def RemainderLast : List PathMap → Prop
  | [] => True
  | mapping :: rest => (∀ name, mapping = .remainderColumn name → rest = []) ∧ RemainderLast rest

/-- A last remainder column takes what is left. -/
theorem compilePath_remainder_display (name : String) (h : PlainPath path) (acc : Fragment) :
    (Adapter.compilePath [.remainderColumn name] (path.map PathPattern.display) acc).toOption =
      (compilePath [.remainderColumn name] path acc).toOption := by
  have hremainder := compileRemainder_display name h acc
  cases path with
  | nil => rfl
  | cons segment rest =>
      cases segment with
      | globStar => rfl
      | any =>
          simp only [List.map_cons, PathPattern.display, Adapter.compilePath, compilePath,
            List.head?_cons, toOption_bind]
          rfl
      | exact value =>
          have hvalue := h.exact value List.mem_cons_self
          simp only [List.map_cons, PathPattern.display] at hremainder ⊢
          simp only [Adapter.compilePath, compilePath, List.head?_cons, Option.some.injEq,
            if_neg hvalue.2, toOption_bind, hremainder]
          rfl

theorem compilePath_display {mappings : List PathMap} (hmappings : RemainderLast mappings)
    (h : PlainPath path) (acc : Fragment) :
    (Adapter.compilePath mappings (path.map PathPattern.display) acc).toOption =
      (compilePath mappings path acc).toOption := by
  induction mappings generalizing path acc with
  | nil =>
      have hend : (path.map PathPattern.display = [] ∨ path.map PathPattern.display = ["**"]) ↔
          (path = [] ∨ path = [.globStar]) := by
        rw [List.map_eq_nil_iff, h.eq_globStar]
      by_cases hpath : path = [] ∨ path = [.globStar]
      · rw [Adapter.compilePath, compilePath, if_pos (hend.mpr hpath), if_pos hpath]
        rfl
      · rw [Adapter.compilePath, compilePath, if_neg (hend.not.mpr hpath), if_neg hpath]
        rfl
  | cons mapping mappings ih =>
      cases mapping with
      | remainderColumn name =>
          obtain rfl := hmappings.1 name rfl
          exact compilePath_remainder_display name h acc
      | literal expected =>
          cases path with
          | nil => rfl
          | cons segment rest =>
              have hrest := ih hmappings.2 h.tail
              cases segment with
              | globStar => rfl
              | any => exact hrest acc
              | exact value =>
                  have hvalue := h.exact value List.mem_cons_self
                  simp only [List.map_cons, PathPattern.display, Adapter.compilePath, compilePath,
                    List.head?_cons, Option.some.injEq, if_neg hvalue.2, ne_eq, hvalue.1,
                    not_false_eq_true, true_and, ite_not]
                  split
                  · exact hrest acc
                  · rfl
      | column name =>
          cases path with
          | nil => rfl
          | cons segment rest =>
              have hrest := ih hmappings.2 h.tail
              cases segment with
              | globStar => rfl
              | any => exact hrest acc
              | exact value =>
                  have hvalue := h.exact value List.mem_cons_self
                  simp only [List.map_cons, PathPattern.display, Adapter.compilePath, compilePath,
                    List.head?_cons, Option.some.injEq, if_neg hvalue.2, if_neg hvalue.1]
                  exact hrest _

end

theorem compileFields_text {mapping : ResourceSqlMapping} {pattern : UrnPattern}
    (h : pattern.Plain) :
    Adapter.compileFields mapping pattern.text = compileFields mapping pattern ⟨[], []⟩ := by
  have hfields := h.fields
  simp only [List.mem_cons, List.not_mem_nil, or_false, forall_eq_or_imp, forall_eq] at hfields
  simp only [Adapter.compileFields, compileFields, UrnPattern.text,
    compileSegment_display _ hfields.1, compileSegment_display _ hfields.2.1,
    compileSegment_display _ hfields.2.2.1, compileSegment_display _ hfields.2.2.2]

/-! No clauses, no parameters. -/

def Fragment.Paired (acc : Fragment) : Prop := acc.clauses = [] → acc.params = []

theorem Fragment.paired_push (acc : Fragment) (clause : String) (params : List String) :
    (acc.push clause params).Paired := by
  simp [Fragment.Paired, Fragment.push]

theorem compileSegment_paired {mapping : SegmentMap} {pattern : SegmentPattern}
    {acc acc' : Fragment} (hacc : acc.Paired) (h : compileSegment mapping pattern acc = some acc') :
    acc'.Paired := by
  unfold compileSegment at h
  split at h
  · cases h
    exact hacc
  · split at h
    · cases h
      exact hacc
    · cases h
  · cases h
    exact acc.paired_push _ _

theorem compileFields_paired {mapping : ResourceSqlMapping} {pattern : UrnPattern}
    {acc acc' : Fragment} (hacc : acc.Paired) (h : compileFields mapping pattern acc = some acc') :
    acc'.Paired := by
  simp only [compileFields, Option.bind_eq_bind, Option.bind_eq_some_iff] at h
  obtain ⟨acc₁, h₁, acc₂, h₂, acc₃, h₃, h₄⟩ := h
  exact compileSegment_paired (compileSegment_paired (compileSegment_paired
    (compileSegment_paired hacc h₁) h₂) h₃) h₄

theorem compileRemainder_paired {name : String} {remaining : List PathPattern}
    {acc acc' : Fragment} (hacc : acc.Paired) (h : compileRemainder name remaining acc = .ok acc') :
    acc'.Paired := by
  unfold compileRemainder at h
  split at h
  · cases h
    exact hacc
  · split at h
    · cases h
      exact hacc
    · split at h
      · cases h
      · split at h
        · obtain ⟨values, -, h⟩ := bind_ok_iff.mp h
          dsimp only at h
          split at h
          · cases h
            exact hacc
          · cases h
            exact acc.paired_push _ _
        · obtain ⟨values, -, h⟩ := bind_ok_iff.mp h
          cases h
          exact acc.paired_push _ _

theorem compilePath_paired {mappings : List PathMap} {pattern : List PathPattern}
    {acc acc' : Fragment} (hacc : acc.Paired)
    (h : compilePath mappings pattern acc = .ok (some acc')) : acc'.Paired := by
  fun_induction compilePath mappings pattern acc with
  | case1 pattern acc =>
      simp only [Except.ok.injEq, Option.ite_none_right_eq_some, Option.some.injEq] at h
      exact h.2 ▸ hacc
  | case2 =>
      cases h
      exact hacc
  | case3 | case5 | case7 => cases h
  | case4 _ _ _ _ ih | case6 _ _ _ _ ih | case9 _ _ _ _ ih => exact ih hacc h
  | case8 column _ _ value acc ih => exact ih (acc.paired_push _ _) h
  | case10 column _ _ acc =>
      obtain ⟨acc', hremainder, h⟩ := bind_ok_iff.mp h
      cases h
      exact compileRemainder_paired hacc hremainder

theorem Fragment.Paired.scopeFrom {acc : Fragment} (h : acc.Paired) :
    Adapter.scopeFrom acc = acc.scope := by
  by_cases hclauses : acc.clauses = []
  · rw [Adapter.scopeFrom, Fragment.scope, if_pos hclauses, if_pos hclauses, h hclauses]
    rfl
  · rw [Adapter.scopeFrom, Fragment.scope, if_neg hclauses, if_neg hclauses]

/-! Whole scopes. -/

/-- How an adapter turns clauses into a scope; it matters for paired fragments only. -/
def FollowsScope (scopeFrom : Fragment → SqlScope) : Prop :=
  ∀ acc : Fragment, acc.Paired → scopeFrom acc = acc.scope

section
variable {parse : String → Except String URNPattern} {scopeFrom : Fragment → SqlScope}
  {mapping : ResourceSqlMapping}

theorem compilePattern_text (hscope : FollowsScope scopeFrom)
    (hmapping : RemainderLast mapping.path) {raw : String} {pattern : UrnPattern}
    (h : Accepted raw pattern) :
    (Adapter.compilePattern scopeFrom mapping pattern.text).toOption =
      (mapping.compilePattern pattern).toOption := by
  simp only [Adapter.compilePattern, ResourceSqlMapping.compilePattern, compileFields_text h.plain]
  cases hfields : compileFields mapping pattern ⟨[], []⟩ with
  | none => rfl
  | some acc =>
      have hacc : acc.Paired := compileFields_paired (fun _ => rfl) hfields
      have hpath := compilePath_display hmapping ⟨h.globStarLast, h.plain.path⟩ acc
      simp only [toOption_bind, UrnPattern.text, hpath]
      cases hcompiled : compilePath mapping.path pattern.path acc with
      | error failure => rfl
      | ok compiled =>
          cases compiled with
          | none => rfl
          | some acc' =>
              have hpaired := compilePath_paired hacc hcompiled
              simp only [Except.toOption, Option.bind_some, Option.map_some, hscope acc' hpaired]

variable (hparse : ∀ raw pattern, Accepted raw pattern → parse raw = .ok pattern.text)
  (hscope : FollowsScope scopeFrom) (hmapping : RemainderLast mapping.path)

include hparse hscope hmapping

theorem compileRaw_text {raw : String} {pattern : UrnPattern} (h : Accepted raw pattern) :
    (Adapter.compileRaw parse scopeFrom mapping raw).toOption =
      (mapping.compilePattern pattern).toOption := by
  rw [Adapter.compileRaw, hparse raw pattern h]
  exact compilePattern_text hscope hmapping h

theorem applyDeny_text {raws : List String} {patterns : List UrnPattern}
    (h : List.Forall₂ Accepted raws patterns) (scope : SqlScope) :
    (Adapter.applyDeny parse scopeFrom mapping raws scope).toOption =
      (mapping.applyDeny patterns scope).toOption := by
  induction h generalizing scope with
  | nil => rfl
  | cons hfirst _ ih =>
      simp only [Adapter.applyDeny, ResourceSqlMapping.applyDeny, toOption_bind,
        compileRaw_text hparse hscope hmapping hfirst]
      congr 1
      funext compiled
      cases compiled with
      | none => exact ih scope
      | some denyScope =>
          dsimp only
          split
          · rfl
          · exact ih _

theorem compileScope_text {allow deny : List String} {allowed denied : List UrnPattern}
    (hallow : List.Forall₂ Accepted allow allowed) (hdeny : List.Forall₂ Accepted deny denied) :
    (Adapter.compileScope parse scopeFrom mapping allow deny).toOption =
      (mapping.compileScope allowed denied).toOption := by
  have hcollect := toOption_collect
    (hallow.imp fun raw pattern h => compileRaw_text hparse hscope hmapping h)
  simp only [Adapter.compileScope, ResourceSqlMapping.compileScope, toOption_bind, hcollect]
  congr 1
  funext compiled
  split
  · rfl
  · exact applyDeny_text hparse hscope hmapping hdeny _

end

theorem adapters_text {mapping : ResourceSqlMapping} (hmapping : RemainderLast mapping.path)
    {allow deny : List String} {allowed denied : List UrnPattern}
    (hallow : List.Forall₂ Accepted allow allowed) (hdeny : List.Forall₂ Accepted deny denied) :
    (Go.compileScope mapping allow deny).toOption =
        (mapping.compileScope allowed denied).toOption ∧
      (Java.compileScope mapping allow deny).toOption =
        (mapping.compileScope allowed denied).toOption ∧
      (Python.compileScope mapping allow deny).toOption =
        (mapping.compileScope allowed denied).toOption := by
  have hpaired : FollowsScope Adapter.scopeFrom := fun acc h => h.scopeFrom
  have hjava : FollowsScope Java.scopeFrom := fun acc _ => rfl
  refine ⟨?_, ?_, ?_⟩
  · exact compileScope_text (fun _ _ h => h.go) hpaired hmapping hallow hdeny
  · exact compileScope_text (fun _ _ h => h.java) hjava hmapping hallow hdeny
  · exact compileScope_text (fun _ _ h => h.python) hpaired hmapping hallow hdeny

theorem accepted_patterns {raws : List String}
    (h : ∀ raw ∈ raws, (UrnPattern.fromStr raw).isOk = true) :
    ∃ patterns, parsePatterns raws = .ok patterns ∧ List.Forall₂ Accepted raws patterns := by
  induction raws with
  | nil => exact ⟨[], rfl, .nil⟩
  | cons raw raws ih =>
      obtain ⟨patterns, hpatterns, haccepted⟩ := ih fun other hother =>
        h other (List.mem_cons_of_mem _ hother)
      cases hraw : UrnPattern.fromStr raw with
      | error failure =>
          have hok := h raw List.mem_cons_self
          rw [hraw] at hok
          cases hok
      | ok pattern =>
          refine ⟨pattern :: patterns, ?_, .cons (UrnPattern.fromStr_accepted hraw) haccepted⟩
          rw [parsePatterns] at hpatterns ⊢
          simp only [collect, hraw, hpatterns]
          rfl

theorem adapters_agree (mapping : ResourceSqlMapping) (hmapping : RemainderLast mapping.path)
    (allow deny : List String)
    (hallow : ∀ raw ∈ allow, (UrnPattern.fromStr raw).isOk = true)
    (hdeny : ∀ raw ∈ deny, (UrnPattern.fromStr raw).isOk = true) :
    (Go.compileScope mapping allow deny).toOption =
        (mapping.compileScopeStrs allow deny).toOption ∧
      (Java.compileScope mapping allow deny).toOption =
        (mapping.compileScopeStrs allow deny).toOption ∧
      (Python.compileScope mapping allow deny).toOption =
        (mapping.compileScopeStrs allow deny).toOption := by
  obtain ⟨allowed, hallowed, hallow⟩ := accepted_patterns hallow
  obtain ⟨denied, hdenied, hdeny⟩ := accepted_patterns hdeny
  have hrust : mapping.compileScopeStrs allow deny = mapping.compileScope allowed denied := by
    rw [ResourceSqlMapping.compileScopeStrs, hallowed, hdenied]
    rfl
  rw [hrust]
  exact adapters_text hmapping hallow hdeny

/-! Objects of a bucket, keyed by their path. -/

namespace Reports

def mapping : ResourceSqlMapping where
  partition := .const "aws"
  service := .const "s3"
  region := .column "region"
  tenant := .column "tenant_id"
  path := [.literal "bucket", .column "bucket_id", .remainderColumn "object_key"]

def allow : List String :=
  ["urn:iam:aws:s3:*:acme:bucket/reports/2024/**", "urn:iam:aws:s3:eu:acme:bucket/*/index"]

def deny : List String := ["urn:iam:*:*:*:acme:bucket/reports/2024/private"]

theorem mapping_remainderLast : RemainderLast mapping.path :=
  ⟨by simp, by simp, fun _ _ => rfl, trivial⟩

theorem reports_agree :
    (Go.compileScope mapping allow deny).toOption =
        (mapping.compileScopeStrs allow deny).toOption ∧
      (Java.compileScope mapping allow deny).toOption =
        (mapping.compileScopeStrs allow deny).toOption ∧
      (Python.compileScope mapping allow deny).toOption =
        (mapping.compileScopeStrs allow deny).toOption ∧
      (mapping.compileScopeStrs allow deny).isOk = true := by
  obtain ⟨hgo, hjava, hpython⟩ := adapters_agree mapping mapping_remainderLast allow deny
    (by decide +kernel) (by decide +kernel)
  exact ⟨hgo, hjava, hpython, by decide +kernel⟩

end Reports

end Authguard
