import Authguard.Metatheory.SqlPushdown
import Authguard.Metatheory.SqlPlaceholders

/-!
Exactness of SQL push-down without a remainder column: the compiled condition
always exists and selects precisely the authorized rows.
-/

namespace Authguard
open Text Result Sql

theorem UrnPattern.matches_assemble (pattern : UrnPattern) (mapping : ResourceSqlMapping)
    (row : Row) :
    pattern.matches (mapping.assemble row) =
      ((pattern.partition.matches (mapping.partition.assemble row) &&
        (pattern.service.matches (mapping.service.assemble row) &&
          (pattern.region.matches (mapping.region.assemble row) &&
            pattern.tenant.matches (mapping.tenant.assemble row)))) &&
        pathMatches pattern.path (mapping.path.flatMap (PathMap.assemble row))) := by
  simp only [UrnPattern.matches, ResourceSqlMapping.assemble, Bool.and_assoc]

theorem compilePattern_total {mapping : ResourceSqlMapping}
    (columns : ∀ entry ∈ mapping.path, entry.isRemainder = false) (pattern : UrnPattern) :
    ∃ r, mapping.compilePattern pattern = .ok r := by
  simp only [ResourceSqlMapping.compilePattern]
  split
  · exact ⟨none, rfl⟩
  · rename_i acc _
    obtain ⟨acc?, hpath⟩ := compilePath_total mapping.path columns pattern.path acc
    exact ⟨acc?.map Fragment.scope, by rw [hpath]; rfl⟩

theorem applyDeny_total {mapping : ResourceSqlMapping}
    (columns : ∀ entry ∈ mapping.path, entry.isRemainder = false) (deny : List UrnPattern)
    (scope : SqlScope) : ∃ result, mapping.applyDeny deny scope = .ok result := by
  induction deny generalizing scope with
  | nil => exact ⟨scope, rfl⟩
  | cons pattern deny ih =>
      obtain ⟨r, hr⟩ := compilePattern_total columns pattern
      simp only [ResourceSqlMapping.applyDeny, hr, bind, Except.bind]
      cases r with
      | none => exact ih scope
      | some denied =>
          dsimp only
          split
          · exact ⟨_, rfl⟩
          · exact ih _

theorem compileScope_total {mapping : ResourceSqlMapping}
    (columns : ∀ entry ∈ mapping.path, entry.isRemainder = false)
    (allow deny : List UrnPattern) : ∃ scope, mapping.compileScope allow deny = .ok scope := by
  obtain ⟨compiled, hcompiled⟩ := collect_total (compilePattern_total columns) allow
  simp only [ResourceSqlMapping.compileScope, hcompiled, bind, Except.bind]
  split
  · exact ⟨_, rfl⟩
  · exact applyDeny_total columns deny _

theorem columns_patternsMean {mapping : ResourceSqlMapping} {row : Row}
    (columns : ∀ entry ∈ mapping.path, entry.isRemainder = false) (hrow : mapping.RowOk row)
    {patterns : List UrnPattern}
    (parsed : ∀ pattern ∈ patterns, ∃ text, UrnPattern.fromStr text = .ok pattern) :
    PatternsMean row mapping (·.matches (mapping.assemble row)) patterns := by
  intro pattern hmem r hr
  obtain ⟨text, htext⟩ := parsed pattern hmem
  have hwell := (UrnPattern.fromStr_ok htext).2
  have hpath := compilePath_append (compilePath_nil_means row) mapping.path columns hrow.path
  rw [List.append_nil] at hpath
  have hmeans := compilePattern_means hrow hpath pattern hwell r hr
  rw [pathCovers_matches _ _ _ hwell, List.append_nil, ← UrnPattern.matches_assemble] at hmeans
  exact hmeans

/-- Push-down without a remainder column: a scope is always produced, it has one
placeholder for each parameter, and it selects exactly the authorized rows. -/
theorem compileScope_exact_of_columns (mapping : ResourceSqlMapping)
    (columns : ∀ entry ∈ mapping.path, entry.isRemainder = false)
    (allow deny : List UrnPattern)
    (parsedAllow : ∀ pattern ∈ allow, ∃ text, UrnPattern.fromStr text = .ok pattern)
    (parsedDeny : ∀ pattern ∈ deny, ∃ text, UrnPattern.fromStr text = .ok pattern) :
    ∃ scope, mapping.compileScope allow deny = .ok scope ∧
      ((∀ name ∈ mapping.columnNames, '?' ∉ name.toList) →
        scope.whereClause.toList.count '?' = scope.params.length) ∧
      ∀ row, mapping.RowOk row →
        (satisfies row scope.whereClause scope.params = true ↔
          (∃ pattern ∈ allow, pattern.matches (mapping.assemble row) = true) ∧
            ¬ ∃ pattern ∈ deny, pattern.matches (mapping.assemble row) = true) := by
  obtain ⟨scope, hscope⟩ := compileScope_total columns allow deny
  refine ⟨scope, hscope, fun names => compileScope_balanced names hscope, ?_⟩
  intro row hrow
  have hmeans := compileScope_means (columns_patternsMean columns hrow parsedAllow)
    (columns_patternsMean columns hrow parsedDeny) hscope
  rw [hmeans.satisfies_eq]
  simp only [Bool.and_eq_true, List.any_eq_true, Bool.not_eq_true', List.any_eq_false,
    Bool.not_eq_true, not_exists, not_and]

def documentMapping : ResourceSqlMapping where
  partition := .const "prod"
  service := .const "documents"
  region := .const "global"
  tenant := .column "workspace_id"
  path := [.literal "document", .column "document_id"]

def documentRow : Row
  | "workspace_id" => some "default"
  | "document_id" => some "payroll-fixer"
  | _ => none

theorem documentRow_ok : documentMapping.RowOk documentRow := by
  have hworkspace : OrdinaryColumn documentRow "workspace_id" :=
    ⟨isName_of_check (by decide), "default", rfl, by decide, by decide, by decide⟩
  have hdocument : OrdinaryColumn documentRow "document_id" :=
    ⟨isName_of_check (by decide), "payroll-fixer", rfl, by decide, by decide, by decide⟩
  refine ⟨trivial, trivial, trivial, hworkspace, ?_⟩
  intro entry hentry
  simp only [documentMapping, List.mem_cons, List.not_mem_nil, or_false] at hentry
  rcases hentry with rfl | rfl
  · trivial
  · exact hdocument

theorem documentRow_selected_iff_authorized :
    ∃ scope, documentMapping.compileScope
        [⟨.any, .exact "documents", .any, .exact "default", [.exact "document", .globStar]⟩]
        [⟨.any, .any, .any, .any, [.any, .exact "payroll-fixer"]⟩] = .ok scope ∧
      satisfies documentRow scope.whereClause scope.params = false := by
  have hexact := compileScope_exact_of_columns documentMapping (by decide)
    [⟨.any, .exact "documents", .any, .exact "default", [.exact "document", .globStar]⟩]
    [⟨.any, .any, .any, .any, [.any, .exact "payroll-fixer"]⟩]
    (by simpa using ⟨"urn:iam:*:documents:*:default:document/**", by decide⟩)
    (by simpa using ⟨"urn:iam:*:*:*:*:*/payroll-fixer", by decide⟩)
  obtain ⟨scope, hscope, -, hrows⟩ := hexact
  refine ⟨scope, hscope, ?_⟩
  rw [Bool.eq_false_iff, ne_eq, hrows documentRow documentRow_ok]
  rintro ⟨-, hdenied⟩
  exact hdenied ⟨_, List.mem_cons_self, by decide⟩

end Authguard
