import Authguard.Library.SqlMeaning
import Authguard.Common.SqlScope
import Authguard.Metatheory.UrnPatterns

/-!
Rows selected by a compiled scope against the resources the policy authorizes.

A mapping assembles a Resource URN from each row of its table. The compiled
condition is exact when no path entry is a remainder column. With a final
remainder column it is exact only up to the patterns that stray: the ones that
stop right before that column, and the ones whose text LIKE reads as a wildcard.
-/

namespace Authguard
open Text Result Sql

def SegmentMap.assemble (row : Row) : SegmentMap → String
  | .const value => value
  | .column name => (row name).getD ""

def PathMap.assemble (row : Row) : PathMap → List String
  | .literal value => [value]
  | .column name => [(row name).getD ""]
  | .remainderColumn name => splitChar '/' ((row name).getD "")

/-- The resource a row stands for. -/
def ResourceSqlMapping.assemble (mapping : ResourceSqlMapping) (row : Row) : ResourceUrn where
  partition := mapping.partition.assemble row
  service := mapping.service.assemble row
  region := mapping.region.assemble row
  tenant := mapping.tenant.assemble row
  path := mapping.path.flatMap (PathMap.assemble row)

def PlainSegment (value : String) : Prop :=
  value ≠ "" ∧ ':' ∉ value.toList ∧ '/' ∉ value.toList

/-- A column with a SQL name that the row gives an ordinary value. -/
def OrdinaryColumn (row : Row) (name : String) : Prop :=
  IsName name ∧ ∃ value, row name = some value ∧ PlainSegment value

/-- A column with a SQL name that the row gives one or more segments. -/
def SegmentsColumn (row : Row) (name : String) : Prop :=
  IsName name ∧ ∃ segments, segments ≠ [] ∧ (∀ s ∈ segments, PlainSegment s) ∧
    row name = some ("/".intercalate segments)

def SegmentMap.RowOk (row : Row) : SegmentMap → Prop
  | .const _ => True
  | .column name => OrdinaryColumn row name

def PathMap.RowOk (row : Row) : PathMap → Prop
  | .literal _ => True
  | .column name => OrdinaryColumn row name
  | .remainderColumn name => SegmentsColumn row name

/-- The row gives every mapped column a value of the expected form. -/
structure ResourceSqlMapping.RowOk (mapping : ResourceSqlMapping) (row : Row) : Prop where
  partition : mapping.partition.RowOk row
  service : mapping.service.RowOk row
  region : mapping.region.RowOk row
  tenant : mapping.tenant.RowOk row
  path : ∀ entry ∈ mapping.path, entry.RowOk row

def PathMap.isRemainder : PathMap → Bool
  | .remainderColumn _ => true
  | _ => false

/-! The meaning of partial results: `none` stands for a condition no row meets. -/

def FragmentMeans (row : Row) (before truth : Bool) : Option Fragment → Prop
  | none => truth = false
  | some acc => Clauses row acc.clauses acc.params (before && truth)

def ScopeMeans (row : Row) (truth : Bool) : Option SqlScope → Prop
  | none => truth = false
  | some scope => Means row .disj scope.whereClause scope.params truth

theorem FragmentMeans.and {row : Row} {before truth truth' : Bool} {r : Option Fragment}
    (h : FragmentMeans row (before && truth) truth' r) :
    FragmentMeans row before (truth && truth') r := by
  cases r with
  | none =>
      change truth' = false at h
      simp [FragmentMeans, h]
  | some acc => simpa [FragmentMeans, Bool.and_assoc] using h

theorem FragmentMeans.bind {row : Row} {before truth truth' : Bool} {r : Option Fragment}
    {next : Fragment → Option Fragment} (h : FragmentMeans row before truth r)
    (hnext : ∀ acc, Clauses row acc.clauses acc.params (before && truth) →
      FragmentMeans row (before && truth) truth' (next acc)) :
    FragmentMeans row before (truth && truth') (r.bind next) := by
  cases r with
  | none =>
      change truth = false at h
      simp [FragmentMeans, h]
  | some acc => exact (hnext acc h).and

theorem compileSegment_means {row : Row} {acc : Fragment} {before : Bool}
    (mapping : SegmentMap) (pattern : SegmentPattern) (hrow : mapping.RowOk row)
    (hacc : Clauses row acc.clauses acc.params before) :
    FragmentMeans row before (pattern.matches (mapping.assemble row))
      (compileSegment mapping pattern acc) := by
  cases pattern with
  | any =>
      cases mapping <;> simpa [compileSegment, FragmentMeans, SegmentPattern.matches] using hacc
  | exact value =>
      cases mapping with
      | const expected =>
          by_cases h : expected = value
          · simpa [compileSegment, FragmentMeans, SegmentPattern.matches,
              SegmentMap.assemble, h] using hacc
          · simp [compileSegment, FragmentMeans, SegmentPattern.matches,
              SegmentMap.assemble, h, Ne.symm h]
      | column name =>
          obtain ⟨hname, stored, hstored, -⟩ := hrow
          have hpush := hacc.snoc (Means.equals (p := value) hname hstored)
          simpa [compileSegment, FragmentMeans, SegmentPattern.matches, SegmentMap.assemble,
            hstored, Fragment.push, BEq.comm] using hpush

theorem compileFields_means {row : Row} {acc : Fragment} {before : Bool}
    (mapping : ResourceSqlMapping) (pattern : UrnPattern) (hrow : mapping.RowOk row)
    (hacc : Clauses row acc.clauses acc.params before) :
    FragmentMeans row before
      (pattern.partition.matches (mapping.partition.assemble row) &&
        (pattern.service.matches (mapping.service.assemble row) &&
          (pattern.region.matches (mapping.region.assemble row) &&
            pattern.tenant.matches (mapping.tenant.assemble row))))
      (compileFields mapping pattern acc) := by
  apply FragmentMeans.bind (compileSegment_means _ _ hrow.partition hacc)
  intro acc hacc
  apply FragmentMeans.bind (compileSegment_means _ _ hrow.service hacc)
  intro acc hacc
  apply FragmentMeans.bind (compileSegment_means _ _ hrow.region hacc)
  intro acc hacc
  exact compileSegment_means _ _ hrow.tenant hacc

theorem Fragment.scope_means {row : Row} {acc : Fragment} {truth : Bool}
    (h : Clauses row acc.clauses acc.params truth) :
    Means row .disj acc.scope.whereClause acc.scope.params truth := by
  obtain ⟨clauses, params⟩ := acc
  cases h with
  | nil => exact Means.always.ofAtom.ofNeg.ofConj
  | cons hfirst hrest =>
      have hjoin := (Clauses.cons hfirst hrest).join (by simp)
      exact hjoin.ofConj

/-! Path entries before the end of the mapping fix one segment each. What the rest
of the mapping makes of the rest of the pattern is the parameter `rest`. -/

def pathCovers (rest : List PathPattern → Bool) : List String → List PathPattern → Bool
  | [], pattern => rest pattern
  | _ :: _, [] => false
  | _ :: _, .globStar :: _ => true
  | _ :: segments, .any :: pattern => pathCovers rest segments pattern
  | segment :: segments, .exact value :: pattern =>
      segment == value && pathCovers rest segments pattern

/-- What compiling a mapping suffix means on the row, for every pattern suffix. -/
def PathMeans (row : Row) (mappings : List PathMap) (truth : List PathPattern → Bool) : Prop :=
  ∀ pattern acc before r, PathWellFormed pattern →
    Clauses row acc.clauses acc.params before →
    compilePath mappings pattern acc = .ok r → FragmentMeans row before (truth pattern) r

theorem compilePath_append {row : Row} {tail : List PathMap} {rest : List PathPattern → Bool}
    (htail : PathMeans row tail rest) (mappings : List PathMap)
    (columns : ∀ entry ∈ mappings, entry.isRemainder = false)
    (hrow : ∀ entry ∈ mappings, entry.RowOk row) :
    PathMeans row (mappings ++ tail)
      (pathCovers rest (mappings.flatMap (PathMap.assemble row))) := by
  induction mappings with
  | nil => exact htail
  | cons entry mappings ih =>
      have hentry := hrow entry List.mem_cons_self
      have hnext := ih (fun e he => columns e (List.mem_cons_of_mem _ he))
        (fun e he => hrow e (List.mem_cons_of_mem _ he))
      intro pattern acc before r hwell hacc hr
      cases entry with
      | remainderColumn name =>
          exact absurd (columns _ List.mem_cons_self) (by simp [PathMap.isRemainder])
      | literal expected =>
          cases pattern with
          | nil =>
              cases hr
              rfl
          | cons segment pattern =>
              cases segment with
              | globStar =>
                  cases hr
                  simpa [FragmentMeans, pathCovers, PathMap.assemble] using hacc
              | any => exact hnext pattern acc before r hwell.tail hacc hr
              | exact value =>
                  by_cases h : value = expected
                  · have hmeans := hnext pattern acc before r hwell.tail hacc
                      (by simpa [compilePath, h] using hr)
                    simpa [PathMap.assemble, pathCovers, h] using hmeans
                  · simp only [List.cons_append, compilePath, h, ite_false,
                      Except.ok.injEq] at hr
                    simp [← hr, FragmentMeans, PathMap.assemble, pathCovers, Ne.symm h]
      | column name =>
          obtain ⟨hname, stored, hstored, -⟩ := hentry
          cases pattern with
          | nil =>
              cases hr
              rfl
          | cons segment pattern =>
              cases segment with
              | globStar =>
                  cases hr
                  simpa [FragmentMeans, pathCovers, PathMap.assemble] using hacc
              | any => exact hnext pattern acc before r hwell.tail hacc hr
              | exact value =>
                  have hpush := hacc.snoc (Means.equals (p := value) hname hstored)
                  have hmeans := hnext pattern _ _ r hwell.tail hpush hr
                  simpa [PathMap.assemble, pathCovers, hstored] using hmeans.and

theorem pathCovers_matches (segments tail : List String) (pattern : List PathPattern)
    (hwell : PathWellFormed pattern) :
    pathCovers (pathMatches · tail) segments pattern =
      pathMatches pattern (segments ++ tail) := by
  induction segments generalizing pattern with
  | nil => rfl
  | cons segment segments ih =>
      cases pattern with
      | nil => rfl
      | cons head pattern =>
          cases head with
          | globStar => simp [pathCovers, pathMatches, hwell.globStar_rest]
          | any => simpa [pathCovers, pathMatches] using ih pattern hwell.tail
          | exact value => simp [pathCovers, pathMatches, ih pattern hwell.tail]

theorem compilePath_nil_means (row : Row) : PathMeans row [] (pathMatches · []) := by
  intro pattern acc before r hwell hacc hr
  cases hr
  cases pattern with
  | nil => simpa [pathMatches, FragmentMeans] using hacc
  | cons head pattern =>
      cases head with
      | globStar => simpa [pathMatches, FragmentMeans, hwell.globStar_rest] using hacc
      | any | exact value => simp [pathMatches, FragmentMeans]

theorem compilePath_total (mappings : List PathMap)
    (columns : ∀ entry ∈ mappings, entry.isRemainder = false)
    (pattern : List PathPattern) (acc : Fragment) :
    ∃ r, compilePath mappings pattern acc = .ok r := by
  fun_induction compilePath mappings pattern acc with
  | case1 | case2 | case3 | case5 | case7 => exact ⟨_, rfl⟩
  | case4 _ _ _ _ ih | case6 _ _ _ _ ih | case8 _ _ _ _ _ ih | case9 _ _ _ _ ih =>
      exact ih fun entry hentry => columns entry (List.mem_cons_of_mem _ hentry)
  | case10 =>
      exact absurd (columns _ List.mem_cons_self) (by simp [PathMap.isRemainder])

/-! From paths to patterns, and from patterns to a whole scope. -/

theorem compilePattern_means {row : Row} {mapping : ResourceSqlMapping}
    {truth : List PathPattern → Bool} (hrow : mapping.RowOk row)
    (hpath : PathMeans row mapping.path truth) (pattern : UrnPattern)
    (hwell : PathWellFormed pattern.path) (r : Option SqlScope)
    (h : mapping.compilePattern pattern = .ok r) :
    ScopeMeans row
      ((pattern.partition.matches (mapping.partition.assemble row) &&
        (pattern.service.matches (mapping.service.assemble row) &&
          (pattern.region.matches (mapping.region.assemble row) &&
            pattern.tenant.matches (mapping.tenant.assemble row)))) &&
        truth pattern.path) r := by
  have hfields := @compileFields_means row ⟨[], []⟩ _ mapping pattern hrow .nil
  simp only [ResourceSqlMapping.compilePattern] at h
  cases hf : compileFields mapping pattern ⟨[], []⟩ with
  | none =>
      simp only [hf, Except.ok.injEq] at h
      rw [hf] at hfields
      change _ = false at hfields
      simp [← h, ScopeMeans, hfields]
  | some acc =>
      simp only [hf, bind_ok_iff, Except.ok.injEq] at h
      obtain ⟨acc?, hcompiled, rfl⟩ := h
      rw [hf] at hfields
      have hmeans := (hpath pattern.path acc _ acc? hwell hfields hcompiled).and
      cases acc? with
      | none => exact hmeans
      | some acc' => exact Fragment.scope_means (by simpa [FragmentMeans] using hmeans)

/-- Every pattern of the list compiles, if at all, to its truth value on the row. -/
def PatternsMean (row : Row) (mapping : ResourceSqlMapping) (truth : UrnPattern → Bool)
    (patterns : List UrnPattern) : Prop :=
  ∀ pattern ∈ patterns, ∀ r, mapping.compilePattern pattern = .ok r →
    ScopeMeans row (truth pattern) r

theorem compiled_any {row : Row} {mapping : ResourceSqlMapping} {truth : UrnPattern → Bool}
    {patterns : List UrnPattern} (hmean : PatternsMean row mapping truth patterns)
    {compiled : List (Option SqlScope)}
    (h : collect mapping.compilePattern patterns = .ok compiled) :
    (∀ scope ∈ compiled.filterMap id,
      Means row .disj scope.whereClause scope.params
        (satisfies row scope.whereClause scope.params)) ∧
    (compiled.filterMap id).any (fun scope => satisfies row scope.whereClause scope.params) =
      patterns.any truth := by
  have hall := collect_eq_ok.mp h
  clear h
  induction hall with
  | nil => simp
  | @cons pattern r patterns compiled hr _ ih =>
      obtain ⟨hscopes, hany⟩ := ih fun q hq => hmean q (List.mem_cons_of_mem _ hq)
      have hfirst := hmean pattern List.mem_cons_self r hr
      cases r with
      | none =>
          change truth pattern = false at hfirst
          rw [List.filterMap_cons_none rfl, List.any_cons, hfirst, Bool.false_or]
          exact ⟨hscopes, hany⟩
      | some scope =>
          have hsat := hfirst.satisfies_eq
          have hcons : (some scope :: compiled).filterMap id = scope :: compiled.filterMap id :=
            rfl
          rw [hcons, List.any_cons, List.any_cons, hsat, hany]
          refine ⟨?_, rfl⟩
          intro other hother
          rcases List.mem_cons.mp hother with rfl | hother
          · rw [hsat]
            exact hfirst
          · exact hscopes other hother

theorem orScopes_means {row : Row} {scopes : List SqlScope} (hne : scopes ≠ [])
    (h : ∀ scope ∈ scopes, Means row .disj scope.whereClause scope.params
      (satisfies row scope.whereClause scope.params)) :
    Means row .disj (orScopes scopes).whereClause (orScopes scopes).params
      (scopes.any fun scope => satisfies row scope.whereClause scope.params) := by
  unfold orScopes
  split
  · simpa using h _ List.mem_cons_self
  · split
    · rename_i hall
      obtain ⟨scope, hmem, htext⟩ := List.any_eq_true.mp hall
      have htrue := h scope hmem
      rw [beq_iff_eq.mp htext] at htrue
      have hany : (scopes.any fun scope => satisfies row scope.whereClause scope.params) =
          true := by
        rw [List.any_eq_true]
        refine ⟨scope, hmem, ?_⟩
        rw [beq_iff_eq.mp htext]
        exact htrue.truth_of_always.1
      rw [hany]
      exact Means.always.ofAtom.ofNeg.ofConj
    · exact Means.alternatives _ _ _ scopes hne h

theorem applyDeny_means {row : Row} {mapping : ResourceSqlMapping} {truth : UrnPattern → Bool}
    (deny : List UrnPattern) (hmean : PatternsMean row mapping truth deny)
    (scope result : SqlScope) (before : Bool)
    (hscope : Means row .disj scope.whereClause scope.params before)
    (h : mapping.applyDeny deny scope = .ok result) :
    Means row .disj result.whereClause result.params (before && !deny.any truth) := by
  induction deny generalizing scope before with
  | nil =>
      cases h
      simpa using hscope
  | cons pattern deny ih =>
      have hrest := ih fun q hq => hmean q (List.mem_cons_of_mem _ hq)
      simp only [ResourceSqlMapping.applyDeny, bind_ok_iff] at h
      obtain ⟨r, hr, h⟩ := h
      have hfirst := hmean pattern List.mem_cons_self r hr
      cases r with
      | none =>
          change truth pattern = false at hfirst
          simpa [hfirst] using hrest scope before hscope h
      | some denied =>
          change Means row .disj denied.whereClause denied.params (truth pattern) at hfirst
          by_cases hall : denied.whereClause = "1=1"
          · simp only [hall, ite_true, Except.ok.injEq] at h
            rw [hall] at hfirst
            have htrue := hfirst.truth_of_always.1
            simpa [← h, htrue, SqlScope.denyAll] using
              (Means.never : Means row _ _ _ _).ofAtom.ofNeg.ofConj
          · simp only [hall, ite_false] at h
            have hstep := Means.and hscope.paren.ofAtom hfirst.paren.ofAtom.not.ofNeg
            have htext : "(" ++ scope.whereClause ++ ") AND NOT (" ++
                denied.whereClause ++ ")" =
                "(" ++ scope.whereClause ++ ")" ++ " AND " ++
                  ("NOT " ++ ("(" ++ denied.whereClause ++ ")")) := by
              rw [← String.toList_inj]
              simp
            rw [← htext] at hstep
            simpa [Bool.and_assoc] using hrest _ _ hstep.ofConj h

theorem compileScope_means {row : Row} {mapping : ResourceSqlMapping}
    {truth : UrnPattern → Bool} {allow deny : List UrnPattern} {scope : SqlScope}
    (hallow : PatternsMean row mapping truth allow)
    (hdeny : PatternsMean row mapping truth deny)
    (h : mapping.compileScope allow deny = .ok scope) :
    Means row .disj scope.whereClause scope.params (allow.any truth && !deny.any truth) := by
  simp only [ResourceSqlMapping.compileScope, bind_ok_iff] at h
  obtain ⟨compiled, hcompiled, h⟩ := h
  obtain ⟨hscopes, hany⟩ := compiled_any hallow hcompiled
  by_cases hnil : compiled.filterMap id = []
  · simp only [hnil, ite_true, Except.ok.injEq] at h
    rw [hnil] at hany
    simpa [← h, ← hany, SqlScope.denyAll] using (Means.never : Means row _ _ _ _).ofAtom.ofNeg.ofConj
  · simp only [hnil, ite_false] at h
    rw [← hany]
    exact applyDeny_means deny hdeny _ scope _ (orScopes_means hnil hscopes) h

end Authguard
