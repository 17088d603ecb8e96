import Authguard.Metatheory.SqlExactness

/-!
SQL push-down with a remainder column at the end of the mapping. The compiled
condition selects the rows that some allow pattern, and no deny pattern, matches
or strays onto; it is exact on the rows where straying makes no difference.
-/

namespace Authguard
open Text Result Sql

/-- The remaining segments of a pattern as LIKE reads them, a final `**` being `%`. -/
def likeText (remaining : List PathPattern) : String :=
  "/".intercalate (remaining.dropLast.map PathPattern.display ++ ["%"])

/-- A pattern strays onto a path when it does not match it, but would if everything from
the remainder column on were ignored, and either it stops before that column or LIKE
accepts the column's value for what is left of it. -/
def pathStrays (ordinary : Nat) (pattern : List PathPattern) (path : List String)
    (value : String) : Bool :=
  pathMatches (pattern.take ordinary ++ [.globStar]) path && !pathMatches pattern path &&
    (pattern.length == ordinary ||
      ((pattern.drop ordinary).getLast? == some .globStar &&
        like (likeText (pattern.drop ordinary)) value))

theorem pathCovers_strays (segments tail : List String) (value : String)
    (pattern : List PathPattern) (hwell : PathWellFormed pattern) :
    pathCovers (fun p => pathMatches p tail || pathStrays 0 p tail value) segments pattern =
      (pathMatches pattern (segments ++ tail) ||
        pathStrays segments.length pattern (segments ++ tail) value) := by
  induction segments generalizing pattern with
  | nil => rfl
  | cons segment segments ih =>
      cases pattern with
      | nil => simp [pathCovers, pathMatches, pathStrays]
      | cons head pattern =>
          have hnext := ih pattern hwell.tail
          cases head with
          | globStar => simp [pathCovers, pathMatches, hwell.globStar_rest]
          | any => simpa [pathCovers, pathMatches, pathStrays] using hnext
          | exact expected =>
              simp only [pathCovers, hnext]
              cases h : segment == expected <;> simp [pathMatches, pathStrays, h]

theorem collect_exactSegment {remaining segments : List PathPattern} {values : List String}
    (h : collect (exactSegment remaining) segments = .ok values) :
    segments = values.map PathPattern.exact := by
  have hall := collect_eq_ok.mp h
  clear h
  induction hall with
  | nil => rfl
  | @cons segment value segments values hsegment _ ih =>
      cases segment with
      | exact stored =>
          cases hsegment
          rw [List.map_cons, ih]
      | any | globStar => cases hsegment

theorem pathMatches_exact (values path : List String) :
    pathMatches (values.map PathPattern.exact) path = (path == values) := by
  induction values generalizing path with
  | nil => cases path <;> simp [pathMatches]
  | cons value values ih => cases path <;> simp [pathMatches, ih]

theorem pathMatches_globStar (values path : List String) :
    pathMatches (values.map PathPattern.exact ++ [.globStar]) path = true ↔ values <+: path := by
  induction values generalizing path with
  | nil => simp [pathMatches]
  | cons value values ih =>
      cases path with
      | nil => simp [pathMatches]
      | cons segment path =>
          simp only [List.map_cons, List.cons_append, pathMatches, Bool.and_eq_true,
            beq_iff_eq, ih, List.cons_prefix_cons]
          exact and_congr_left fun _ => eq_comm

theorem likeText_exact (values : List String) (hne : values ≠ []) :
    likeText (values.map PathPattern.exact ++ [.globStar]) = "/".intercalate values ++ "/%" := by
  have hdisplay : (values.map PathPattern.exact).map PathPattern.display = values := by
    simp [PathPattern.display, Function.comp_def]
  rw [likeText, List.dropLast_concat, hdisplay,
    String.intercalate_append_of_ne_nil hne (by simp), ← String.toList_inj]
  simp

/-- Segments below a path, when joined, extend the joined path and a separator. -/
theorem like_of_below {values path : List String} (hne : values ≠ []) (h : values <+: path) :
    path = values ∨
      like ("/".intercalate values ++ "/%") ("/".intercalate path) = true := by
  obtain ⟨rest, rfl⟩ := h
  cases rest with
  | nil => exact .inl (List.append_nil _)
  | cons segment rest =>
      right
      have hjoin : "/".intercalate (values ++ segment :: rest) =
          "/".intercalate values ++ "/" ++ "/".intercalate (segment :: rest) :=
        String.intercalate_append_of_ne_nil hne (by simp)
      have hlike := likeList_append ("/".intercalate values ++ "/").toList ['%']
        ("/".intercalate (segment :: rest)).toList (likeList_percent _)
      rw [hjoin, like]
      simpa using hlike

theorem intercalate_segments_inj {values path : List String} (hv : values ≠ []) (hp : path ≠ [])
    (values_plain : ∀ s ∈ values, '/' ∉ s.toList) (path_plain : ∀ s ∈ path, '/' ∉ s.toList)
    (h : "/".intercalate path = "/".intercalate values) : path = values := by
  rw [← splitChar_intercalate '/' path hp path_plain,
    ← splitChar_intercalate '/' values hv values_plain]
  exact congrArg (splitChar '/') h

theorem intercalate_eq_iff {values path : List String} (hv : values ≠ []) (hp : path ≠ [])
    (values_plain : ∀ s ∈ values, '/' ∉ s.toList) (path_plain : ∀ s ∈ path, '/' ∉ s.toList) :
    ("/".intercalate path == "/".intercalate values) = (path == values) := by
  rw [Bool.eq_iff_iff, beq_iff_eq, beq_iff_eq]
  exact ⟨intercalate_segments_inj hv hp values_plain path_plain, congrArg _⟩

theorem intercalate_ne_empty {values : List String} (hne : values ≠ [])
    (nonempty : ∀ s ∈ values, s ≠ "") : "/".intercalate values ≠ "" := by
  cases values with
  | nil => exact absurd rfl hne
  | cons value values =>
      have hvalue := nonempty value List.mem_cons_self
      cases values with
      | nil => simpa using hvalue
      | cons next values =>
          rw [String.intercalate_cons_cons]
          intro hempty
          have hlist := congrArg String.toList hempty
          simp at hlist

/-- What the compiled remainder condition says of a row, for every pattern suffix. -/
def remainderTruth (segments : List String) (pattern : List PathPattern) : Bool :=
  pathMatches pattern segments || pathStrays 0 pattern segments ("/".intercalate segments)

theorem remainderTruth_globStar {values segments : List String} (hv : values ≠ [])
    (hs : segments ≠ []) (values_plain : ∀ s ∈ values, '/' ∉ s.toList)
    (segments_plain : ∀ s ∈ segments, '/' ∉ s.toList) :
    remainderTruth segments (values.map PathPattern.exact ++ [.globStar]) =
      ("/".intercalate segments == "/".intercalate values ||
        like ("/".intercalate values ++ "/%") ("/".intercalate segments)) := by
  have hlike := @like_of_below values segments hv
  rw [intercalate_eq_iff hv hs values_plain segments_plain, Bool.eq_iff_iff]
  simp only [remainderTruth, pathStrays, List.take_zero, List.drop_zero, List.nil_append,
    likeText_exact values hv, List.getLast?_concat, Bool.or_eq_true, Bool.and_eq_true,
    pathMatches_globStar, beq_iff_eq]
  constructor
  · rintro (hbelow | ⟨-, hempty | ⟨-, hlike'⟩⟩)
    · exact hlike hbelow
    · simp at hempty
    · exact .inr hlike'
  · rintro (rfl | hlike')
    · exact .inl List.prefix_rfl
    · by_cases hbelow : values <+: segments
      · exact .inl hbelow
      · right
        refine ⟨⟨by simp [pathMatches], ?_⟩, .inr ⟨trivial, hlike'⟩⟩
        simpa [← pathMatches_globStar] using hbelow

theorem remainderTruth_exact {values segments : List String} (hv : values ≠ [])
    (hs : segments ≠ []) (values_plain : ∀ s ∈ values, '/' ∉ s.toList)
    (segments_plain : ∀ s ∈ segments, '/' ∉ s.toList) :
    remainderTruth segments (values.map PathPattern.exact) =
      ("/".intercalate segments == "/".intercalate values) := by
  have hlast : ((values.map PathPattern.exact).getLast? == some .globStar) = false := by
    rw [beq_eq_false_iff_ne]
    intro hlast
    have hmem := List.mem_of_getLast? hlast
    simp at hmem
  rw [intercalate_eq_iff hv hs values_plain segments_plain]
  simp [remainderTruth, pathStrays, pathMatches_exact, hv]

theorem compileRemainder_means {row : Row} {column : String} {segments : List String}
    (hcolumn : IsName column) (hs : segments ≠ [])
    (plain : ∀ segment ∈ segments, PlainSegment segment)
    (hvalue : row column = some ("/".intercalate segments)) {pattern : List PathPattern}
    (hwell : PathWellFormed pattern) {acc acc' : Fragment} {before : Bool}
    (hacc : Clauses row acc.clauses acc.params before)
    (h : compileRemainder column pattern acc = .ok acc') :
    Clauses row acc'.clauses acc'.params (before && remainderTruth segments pattern) := by
  have segments_plain : ∀ s ∈ segments, '/' ∉ s.toList := fun s hmem => (plain s hmem).2.2
  unfold compileRemainder at h
  split at h
  · rename_i hnil
    cases h
    simpa [hnil, remainderTruth, pathStrays, pathMatches] using hacc
  · rename_i hne
    split at h
    · rename_i hglob
      cases h
      simpa [hglob, remainderTruth, pathMatches] using hacc
    · rename_i hglob
      split at h
      · cases h
      · split at h
        · -- `prefix/**`: the exact segments are everything but the globstar
          rename_i hlast
          obtain ⟨values, hvalues, h⟩ := bind_ok_iff.mp h
          have hsplit := List.dropLast_concat_getLast hne
          rw [List.getLast?_eq_some_getLast hne, Option.some.injEq] at hlast
          rw [hlast, collect_exactSegment hvalues] at hsplit
          have hv : values ≠ [] := by
            rintro rfl
            exact hglob (by simpa using hsplit.symm)
          have hsegment : ∀ s ∈ values, s ≠ "" ∧ '/' ∉ s.toList := fun s hmem =>
            hwell.segment s (by simp [← hsplit, hmem])
          have hjoined := intercalate_ne_empty hv fun s hmem => (hsegment s hmem).1
          simp only [hjoined, ite_false, Except.ok.injEq] at h
          rw [← hsplit, ← h, remainderTruth_globStar hv hs
            (fun s hmem => (hsegment s hmem).2) segments_plain]
          have hequals := Means.equals (p := "/".intercalate values) hcolumn hvalue
          have hlike := Means.like (p := "/".intercalate values ++ "/%") hcolumn hvalue
          have hor := (hequals.ofAtom.ofNeg.or hlike.ofAtom.ofNeg.ofConj).paren
          have htext : "(" ++ column ++ " = ? OR " ++ column ++ " LIKE ?)" =
              "(" ++ (column ++ " = ?" ++ " OR " ++ (column ++ " LIKE ?")) ++ ")" := by
            rw [← String.toList_inj]
            simp
          rw [htext]
          exact hacc.snoc hor
        · obtain ⟨values, hvalues, h⟩ := bind_ok_iff.mp h
          have hall := collect_exactSegment hvalues
          have hv : values ≠ [] := by
            rintro rfl
            exact hne hall
          have hsegment : ∀ s ∈ values, '/' ∉ s.toList := fun s hmem =>
            (hwell.segment s (by simp [hall, hmem])).2
          cases h
          rw [hall, remainderTruth_exact hv hs hsegment segments_plain]
          exact hacc.snoc (Means.equals hcolumn hvalue)

theorem remainder_pathMeans {row : Row} {column : String} {segments : List String}
    (hcolumn : IsName column) (hs : segments ≠ [])
    (plain : ∀ segment ∈ segments, PlainSegment segment)
    (hvalue : row column = some ("/".intercalate segments)) :
    PathMeans row [.remainderColumn column] (remainderTruth segments) := by
  intro pattern acc before r hwell hacc hr
  cases pattern with
  | nil =>
      cases hr
      exact compileRemainder_means hcolumn hs plain hvalue hwell hacc rfl
  | cons head pattern =>
      cases head with
      | globStar =>
          cases hr
          rw [hwell.globStar_rest]
          simpa [FragmentMeans, remainderTruth, pathMatches] using hacc
      | any | exact =>
          obtain ⟨acc', hremainder, h⟩ := bind_ok_iff.mp hr
          cases h
          exact compileRemainder_means hcolumn hs plain hvalue hwell hacc hremainder

/-! Whole patterns. -/

/-- The mapping's last path entry, and only that one, is the remainder column. -/
structure ResourceSqlMapping.EndsIn (mapping : ResourceSqlMapping) (column : String) : Prop where
  last : mapping.path.getLast? = some (.remainderColumn column)
  only : ∀ entry ∈ mapping.path.dropLast, entry.isRemainder = false

/-- The pattern does not match the row's resource, but it would if the remainder column
were left open, and either it stops right before that column or it ends in `**` and LIKE
reads its last segments as accepting the column's value. -/
def UrnPattern.strays (pattern : UrnPattern) (mapping : ResourceSqlMapping) (column : String)
    (row : Row) : Bool :=
  let ordinary := mapping.path.length - 1
  let urn := mapping.assemble row
  UrnPattern.matches { pattern with path := pattern.path.take ordinary ++ [.globStar] } urn &&
    !pattern.matches urn &&
    (pattern.path.length == ordinary ||
      ((pattern.path.drop ordinary).getLast? == some .globStar &&
        like (likeText (pattern.path.drop ordinary)) ((row column).getD "")))

theorem PathMap.assemble_length {entries : List PathMap} (row : Row)
    (only : ∀ entry ∈ entries, entry.isRemainder = false) :
    (entries.flatMap (PathMap.assemble row)).length = entries.length := by
  induction entries with
  | nil => rfl
  | cons entry entries ih =>
      have hrest := ih fun e he => only e (List.mem_cons_of_mem _ he)
      have hentry := only entry List.mem_cons_self
      cases entry with
      | remainderColumn name => simp [PathMap.isRemainder] at hentry
      | literal | column => simp [PathMap.assemble, hrest]

theorem ResourceSqlMapping.EndsIn.path_eq {mapping : ResourceSqlMapping} {column : String}
    (h : mapping.EndsIn column) :
    mapping.path.dropLast ++ [.remainderColumn column] = mapping.path := by
  obtain ⟨entries, hpath⟩ := List.getLast?_eq_some_iff.mp h.last
  rw [hpath, List.dropLast_concat]

theorem UrnPattern.matches_or_strays (pattern : UrnPattern) (mapping : ResourceSqlMapping)
    {column value : String} {row : Row} (hvalue : row column = some value) :
    (pattern.matches (mapping.assemble row) || pattern.strays mapping column row) =
      ((pattern.partition.matches (mapping.partition.assemble row) &&
        (pattern.service.matches (mapping.service.assemble row) &&
          (pattern.region.matches (mapping.region.assemble row) &&
            pattern.tenant.matches (mapping.tenant.assemble row)))) &&
        (pathMatches pattern.path (mapping.path.flatMap (PathMap.assemble row)) ||
          pathStrays (mapping.path.length - 1) pattern.path
            (mapping.path.flatMap (PathMap.assemble row)) value)) := by
  simp only [UrnPattern.strays, UrnPattern.matches_assemble, pathStrays, hvalue,
    Option.getD_some]
  cases (pattern.partition.matches (mapping.partition.assemble row) &&
    (pattern.service.matches (mapping.service.assemble row) &&
      (pattern.region.matches (mapping.region.assemble row) &&
        pattern.tenant.matches (mapping.tenant.assemble row)))) <;> simp

theorem remainder_patternsMean {mapping : ResourceSqlMapping} {column : String} {row : Row}
    (hends : mapping.EndsIn column) (hrow : mapping.RowOk row) {patterns : List UrnPattern}
    (parsed : ∀ pattern ∈ patterns, ∃ text, UrnPattern.fromStr text = .ok pattern) :
    PatternsMean row mapping
      (fun pattern => pattern.matches (mapping.assemble row) ||
        pattern.strays mapping column row) patterns := by
  intro pattern hmem r hr
  obtain ⟨text, htext⟩ := parsed pattern hmem
  have hwell := (UrnPattern.fromStr_ok htext).2
  have hpath := hends.path_eq
  obtain ⟨hcolumn, segments, hs, plain, hvalue⟩ := hrow.path (.remainderColumn column)
    (by rw [← hpath]; simp)
  have hmeans := compilePath_append (remainder_pathMeans hcolumn hs plain hvalue)
    mapping.path.dropLast hends.only fun e he => hrow.path e (List.mem_of_mem_dropLast he)
  rw [hpath] at hmeans
  have hscope := compilePattern_means hrow hmeans pattern hwell r hr
  have hassemble : mapping.path.flatMap (PathMap.assemble row) =
      mapping.path.dropLast.flatMap (PathMap.assemble row) ++ segments := by
    conv_lhs => rw [← hpath]
    have hsegments : splitChar '/' ("/".intercalate segments) = segments :=
      splitChar_intercalate '/' segments hs fun s hmem => (plain s hmem).2.2
    simp only [List.flatMap_append, List.flatMap_singleton, PathMap.assemble, hvalue,
      Option.getD_some, hsegments]
  have hcovers := pathCovers_strays (mapping.path.dropLast.flatMap (PathMap.assemble row))
    segments ("/".intercalate segments) pattern.path hwell
  rw [← hassemble, PathMap.assemble_length row hends.only, List.length_dropLast] at hcovers
  unfold remainderTruth at hscope
  rw [hcovers, ← pattern.matches_or_strays mapping hvalue] at hscope
  exact hscope

theorem any_or {α : Type} (p q : α → Bool) (items : List α) :
    items.any (fun item => p item || q item) = (items.any p || items.any q) := by
  induction items with
  | nil => rfl
  | cons item items ih =>
      rw [List.any_cons, List.any_cons, List.any_cons, ih]
      ac_rfl

/-- With a remainder column a row is selected exactly when some allow pattern, and no deny
pattern, matches or strays. -/
theorem compileScope_remainder {mapping : ResourceSqlMapping} {column : String} {row : Row}
    (hends : mapping.EndsIn column) (hrow : mapping.RowOk row) {allow deny : List UrnPattern}
    (parsedAllow : ∀ pattern ∈ allow, ∃ text, UrnPattern.fromStr text = .ok pattern)
    (parsedDeny : ∀ pattern ∈ deny, ∃ text, UrnPattern.fromStr text = .ok pattern)
    {scope : SqlScope} (hscope : mapping.compileScope allow deny = .ok scope) :
    satisfies row scope.whereClause scope.params =
      ((allow.any (·.matches (mapping.assemble row)) ||
          allow.any (·.strays mapping column row)) &&
        !(deny.any (·.matches (mapping.assemble row)) ||
          deny.any (·.strays mapping column row))) := by
  have hmeans := compileScope_means (remainder_patternsMean hends hrow parsedAllow)
    (remainder_patternsMean hends hrow parsedDeny) hscope
  rw [hmeans.satisfies_eq, any_or, any_or]

/-- Straying makes no difference on the row: some deny pattern matches anyway, or an allow
pattern matches and no deny pattern strays, or no allow pattern matches and none strays
without a deny pattern straying too. -/
def StrayingHarmless (mapping : ResourceSqlMapping) (column : String)
    (allow deny : List UrnPattern) (row : Row) : Prop :=
  let urn := mapping.assemble row
  deny.any (·.matches urn) = true ∨
    (allow.any (·.matches urn) = true ∧ deny.any (·.strays mapping column row) = false) ∨
    (allow.any (·.matches urn) = false ∧
      (allow.any (·.strays mapping column row) = false ∨
        deny.any (·.strays mapping column row) = true))

theorem compileScope_exact_iff_strayingHarmless (mapping : ResourceSqlMapping)
    (column : String) (hends : mapping.EndsIn column) (allow deny : List UrnPattern)
    (parsedAllow : ∀ pattern ∈ allow, ∃ text, UrnPattern.fromStr text = .ok pattern)
    (parsedDeny : ∀ pattern ∈ deny, ∃ text, UrnPattern.fromStr text = .ok pattern)
    (scope : SqlScope) (hscope : mapping.compileScope allow deny = .ok scope)
    (row : Row) (hrow : mapping.RowOk row) :
    (satisfies row scope.whereClause scope.params = true ↔
        (∃ pattern ∈ allow, pattern.matches (mapping.assemble row) = true) ∧
          ¬ ∃ pattern ∈ deny, pattern.matches (mapping.assemble row) = true) ↔
      StrayingHarmless mapping column allow deny row := by
  rw [compileScope_remainder hends hrow parsedAllow parsedDeny hscope, ← List.any_eq_true,
    ← List.any_eq_true]
  simp only [StrayingHarmless]
  cases allow.any (·.matches (mapping.assemble row)) <;>
    cases deny.any (·.matches (mapping.assemble row)) <;>
      cases allow.any (·.strays mapping column row) <;>
        cases deny.any (·.strays mapping column row) <;> simp

def objectMapping : ResourceSqlMapping where
  partition := .const "prod"
  service := .const "s3"
  region := .const "global"
  tenant := .column "tenant_id"
  path := [.column "bucket", .remainderColumn "object_key"]

def objectRow : Row
  | "tenant_id" => some "default"
  | "bucket" => some "payroll"
  | "object_key" => some "2024/january"
  | _ => none

theorem objectMapping_endsIn : objectMapping.EndsIn "object_key" := ⟨rfl, by decide⟩

theorem objectRow_ok : objectMapping.RowOk objectRow := by
  have htenant : OrdinaryColumn objectRow "tenant_id" :=
    ⟨isName_of_check (by decide), "default", rfl, by decide, by decide, by decide⟩
  have hbucket : OrdinaryColumn objectRow "bucket" :=
    ⟨isName_of_check (by decide), "payroll", rfl, by decide, by decide, by decide⟩
  have hplain : ∀ segment ∈ ["2024", "january"], PlainSegment segment := by
    intro segment hsegment
    simp only [List.mem_cons, List.not_mem_nil, or_false] at hsegment
    rcases hsegment with rfl | rfl
    · exact ⟨by decide, by decide, by decide⟩
    · exact ⟨by decide, by decide, by decide⟩
  have hkey : SegmentsColumn objectRow "object_key" :=
    ⟨isName_of_check (by decide), ["2024", "january"], by decide, hplain, rfl⟩
  refine ⟨trivial, trivial, trivial, htenant, ?_⟩
  intro entry hentry
  simp only [objectMapping, List.mem_cons, List.not_mem_nil, or_false] at hentry
  rcases hentry with rfl | rfl
  · exact hbucket
  · exact hkey

/-- The bucket itself, and the objects below `2_24`, where only a literal `_` should count. -/
def strayingPatterns : List UrnPattern :=
  [⟨.any, .exact "s3", .any, .exact "default", [.exact "payroll"]⟩,
    ⟨.any, .exact "s3", .any, .exact "default", [.exact "payroll", .exact "2_24", .globStar]⟩]

theorem objectRow_selected_unauthorized :
    objectMapping.EndsIn "object_key" ∧ objectMapping.RowOk objectRow ∧
      ∀ pattern ∈ strayingPatterns, UrnPattern.fromStr pattern.display = .ok pattern ∧
        ∃ scope, objectMapping.compileScope [pattern] [] = .ok scope ∧
          ¬ (satisfies objectRow scope.whereClause scope.params = true ↔
            (∃ p ∈ [pattern], p.matches (objectMapping.assemble objectRow) = true) ∧
              ¬ ∃ p ∈ ([] : List UrnPattern),
                p.matches (objectMapping.assemble objectRow) = true) := by
  refine ⟨objectMapping_endsIn, objectRow_ok, ?_⟩
  intro pattern hpattern
  simp only [strayingPatterns, List.mem_cons, List.not_mem_nil, or_false] at hpattern
  rcases hpattern with rfl | rfl
  · exact ⟨by decide, _, rfl, by decide⟩
  · exact ⟨by decide, _, rfl, by decide⟩

theorem objectRow_exact_for_whole_bucket :
    ∃ scope, objectMapping.compileScope
        [⟨.any, .exact "s3", .any, .exact "default", [.exact "payroll", .globStar]⟩] [] =
          .ok scope ∧ satisfies objectRow scope.whereClause scope.params = true := by
  refine ⟨_, rfl, ?_⟩
  have hexact := compileScope_exact_iff_strayingHarmless objectMapping "object_key"
    objectMapping_endsIn
    [⟨.any, .exact "s3", .any, .exact "default", [.exact "payroll", .globStar]⟩] []
    (by simpa using ⟨"urn:iam:*:s3:*:default:payroll/**", by decide⟩) (by simp) _ rfl
    objectRow objectRow_ok
  apply (hexact.mpr (.inr (.inl (by decide)))).mpr
  exact ⟨⟨_, List.mem_cons_self, by decide⟩, by simp⟩

end Authguard
