import Authguard.Library.SqlMeaning
import Authguard.Common.SqlScope

/-!
Placeholders and parameters of a compiled scope stay in step. This needs nothing
of the column names except that they contain no placeholder themselves, so it is
proved on the text alone and not through a reading of it.
-/

namespace Authguard
open Result Sql

def SegmentMap.columnNames : SegmentMap → List String
  | .const _ => []
  | .column name => [name]

def PathMap.columnNames : PathMap → List String
  | .literal _ => []
  | .column name | .remainderColumn name => [name]

def ResourceSqlMapping.columnNames (mapping : ResourceSqlMapping) : List String :=
  mapping.partition.columnNames ++ mapping.service.columnNames ++
    mapping.region.columnNames ++ mapping.tenant.columnNames ++
    mapping.path.flatMap PathMap.columnNames

def Fragment.Balanced (acc : Fragment) : Prop :=
  (acc.clauses.map marks).sum = acc.params.length

def SqlScope.Balanced (scope : SqlScope) : Prop :=
  marks scope.whereClause = scope.params.length

theorem Fragment.Balanced.push {acc : Fragment} (h : acc.Balanced) {clause : String}
    {params : List String} (hc : marks clause = params.length) :
    (acc.push clause params).Balanced := by
  simp only [Fragment.Balanced] at h
  simp [Fragment.Balanced, Fragment.push, h, hc]

theorem marks_equals {name : String} (h : '?' ∉ name.toList) : marks (name ++ " = ?") = 1 := by
  simp [marks, List.count_eq_zero.mpr h]

theorem marks_like {name : String} (h : '?' ∉ name.toList) :
    marks ("(" ++ name ++ " = ? OR " ++ name ++ " LIKE ?)") = 2 := by
  simp [marks, List.count_eq_zero.mpr h]

theorem compileSegment_balanced {mapping : SegmentMap} {pattern : SegmentPattern}
    {acc acc' : Fragment} (names : ∀ name ∈ mapping.columnNames, '?' ∉ name.toList)
    (hacc : acc.Balanced) (h : compileSegment mapping pattern acc = some acc') :
    acc'.Balanced := by
  cases pattern with
  | any =>
      cases mapping <;> (cases h; exact hacc)
  | exact value =>
      cases mapping with
      | const expected =>
          simp only [compileSegment, Option.ite_none_right_eq_some, Option.some.injEq] at h
          exact h.2 ▸ hacc
      | column name =>
          cases h
          exact hacc.push (marks_equals (names name (by simp [SegmentMap.columnNames])))

theorem compileFields_balanced {mapping : ResourceSqlMapping} {pattern : UrnPattern}
    {acc acc' : Fragment} (names : ∀ name ∈ mapping.columnNames, '?' ∉ name.toList)
    (hacc : acc.Balanced) (h : compileFields mapping pattern acc = some acc') :
    acc'.Balanced := by
  simp only [compileFields, Option.bind_eq_bind, Option.bind_eq_some_iff] at h
  obtain ⟨acc₁, h₁, acc₂, h₂, acc₃, h₃, h₄⟩ := h
  simp only [ResourceSqlMapping.columnNames, List.mem_append] at names
  have b₁ := compileSegment_balanced (fun n hn => names n (by simp [hn])) hacc h₁
  have b₂ := compileSegment_balanced (fun n hn => names n (by simp [hn])) b₁ h₂
  have b₃ := compileSegment_balanced (fun n hn => names n (by simp [hn])) b₂ h₃
  exact compileSegment_balanced (fun n hn => names n (by simp [hn])) b₃ h₄

theorem compileRemainder_balanced {name : String} {remaining : List PathPattern}
    {acc acc' : Fragment} (hname : '?' ∉ name.toList) (hacc : acc.Balanced)
    (h : compileRemainder name remaining acc = .ok acc') : acc'.Balanced := by
  unfold compileRemainder at h
  split at h
  · cases h; exact hacc
  · split at h
    · cases h; exact hacc
    · split at h
      · cases h
      · split at h
        · obtain ⟨values, -, h⟩ := bind_ok_iff.mp h
          dsimp only at h
          split at h
          · cases h; exact hacc
          · cases h
            exact hacc.push (marks_like hname)
        · obtain ⟨values, -, h⟩ := bind_ok_iff.mp h
          cases h
          exact hacc.push (marks_equals hname)

theorem compilePath_balanced {mappings : List PathMap} {pattern : List PathPattern}
    {acc acc' : Fragment}
    (names : ∀ name ∈ mappings.flatMap PathMap.columnNames, '?' ∉ name.toList)
    (hacc : acc.Balanced) (h : compilePath mappings pattern acc = .ok (some acc')) :
    acc'.Balanced := by
  fun_induction compilePath mappings pattern acc with
  | case1 pattern acc =>
      simp only [Except.ok.injEq, Option.ite_none_right_eq_some, Option.some.injEq] at h
      exact h.2 ▸ hacc
  | case2 =>
      cases h
      exact hacc
  | case3 | case5 | case7 => cases h
  | case4 _ _ _ _ ih | case6 _ _ _ _ ih | case9 _ _ _ _ ih =>
      exact ih (fun name hname => names name (by simp [List.flatMap_cons, hname])) hacc h
  | case8 column _ _ value acc ih =>
      have hcolumn := names column (by simp [PathMap.columnNames])
      exact ih (fun name hname => names name (by simp [List.flatMap_cons, hname]))
        (hacc.push (marks_equals hcolumn)) h
  | case10 column _ _ acc =>
      have hcolumn := names column (by simp [PathMap.columnNames])
      obtain ⟨acc', hremainder, h⟩ := bind_ok_iff.mp h
      cases h
      exact compileRemainder_balanced hcolumn hacc hremainder

theorem Fragment.Balanced.scope {acc : Fragment} (h : acc.Balanced) : acc.scope.Balanced := by
  unfold Fragment.scope
  split
  · rfl
  · rw [SqlScope.Balanced, marks_intercalate " AND " rfl]
    exact h

theorem compilePattern_balanced {mapping : ResourceSqlMapping} {pattern : UrnPattern}
    {scope : SqlScope} (names : ∀ name ∈ mapping.columnNames, '?' ∉ name.toList)
    (h : mapping.compilePattern pattern = .ok (some scope)) : scope.Balanced := by
  simp only [ResourceSqlMapping.compilePattern] at h
  cases hf : compileFields mapping pattern ⟨[], []⟩ with
  | none => simp [hf] at h
  | some acc =>
      simp only [hf, bind_ok_iff, Except.ok.injEq, Option.map_eq_some_iff] at h
      obtain ⟨_, hpath, acc', rfl, rfl⟩ := h
      have hstart : Fragment.Balanced ⟨[], []⟩ := rfl
      have hacc := compileFields_balanced names hstart hf
      refine (compilePath_balanced ?_ hacc hpath).scope
      intro name hname
      exact names name (by simp [ResourceSqlMapping.columnNames, hname])

theorem orScopes_balanced {scopes : List SqlScope} (h : ∀ scope ∈ scopes, scope.Balanced) :
    (orScopes scopes).Balanced := by
  unfold orScopes
  split
  · exact h _ List.mem_cons_self
  · split
    · rfl
    · simp only [SqlScope.Balanced]
      rw [marks_intercalate " OR " rfl]
      clear * - h
      induction scopes with
      | nil => rfl
      | cons scope scopes ih =>
          have hscope := h scope List.mem_cons_self
          have hrest := ih fun s hs => h s (List.mem_cons_of_mem _ hs)
          simp only [SqlScope.Balanced] at hscope
          have hparen : marks "(" = 0 ∧ marks ")" = 0 := ⟨rfl, rfl⟩
          simp only [List.map_cons, List.sum_cons, List.flatMap_cons, List.length_append,
            marks_append, hparen, hscope, hrest]
          omega

theorem applyDeny_balanced {mapping : ResourceSqlMapping}
    (names : ∀ name ∈ mapping.columnNames, '?' ∉ name.toList) (deny : List UrnPattern)
    (scope result : SqlScope) (hscope : scope.Balanced)
    (h : mapping.applyDeny deny scope = .ok result) : result.Balanced := by
  induction deny generalizing scope with
  | nil =>
      cases h
      exact hscope
  | cons pattern deny ih =>
      simp only [ResourceSqlMapping.applyDeny, bind_ok_iff] at h
      obtain ⟨r, hr, h⟩ := h
      cases r with
      | none => exact ih scope hscope h
      | some denied =>
          have hdenied := compilePattern_balanced names hr
          dsimp only at h
          split at h
          · cases h
            rfl
          · refine ih _ ?_ h
            have htext : marks "(" = 0 ∧ marks ") AND NOT (" = 0 ∧ marks ")" = 0 :=
              ⟨rfl, rfl, rfl⟩
            simp only [SqlScope.Balanced] at hscope hdenied ⊢
            simp [htext, hscope, hdenied]

theorem compileScope_balanced {mapping : ResourceSqlMapping} {allow deny : List UrnPattern}
    {scope : SqlScope} (names : ∀ name ∈ mapping.columnNames, '?' ∉ name.toList)
    (h : mapping.compileScope allow deny = .ok scope) : scope.Balanced := by
  simp only [ResourceSqlMapping.compileScope, bind_ok_iff] at h
  obtain ⟨compiled, hcompiled, h⟩ := h
  split at h
  · cases h
    rfl
  · refine applyDeny_balanced names deny _ scope (orScopes_balanced ?_) h
    intro allowed hallowed
    simp only [List.mem_filterMap, id_eq, exists_eq_right] at hallowed
    obtain ⟨pattern, -, hpattern⟩ := collect_ok_mem hcompiled hallowed
    exact compilePattern_balanced names hpattern

end Authguard
