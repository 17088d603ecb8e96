import Authguard.Adapter.CurrentScope
import Authguard.Metatheory.AdapterAgreement
import Authguard.Metatheory.PolicyChanges
import Authguard.Metatheory.SqlExactness

/-!
Push-down against the engine. The scope of a published catalog becomes one
statement, in the library and in every adapter. Without a remainder column it is always
made, and it selects the rows whose resources the engine permits.
-/

namespace Authguard
open Text Result Sql

theorem RemainderLast.of_columns {path : List PathMap}
    (columns : ∀ entry ∈ path, entry.isRemainder = false) : RemainderLast path := by
  induction path with
  | nil => trivial
  | cons entry rest ih =>
      refine ⟨?_, ih fun other hother => columns other (List.mem_cons_of_mem _ hother)⟩
      rintro name rfl
      exact absurd (columns _ List.mem_cons_self) (by simp [PathMap.isRemainder])

/-! Texts of a scope and the patterns read from them. -/

theorem parsePatterns_mem {texts : List String} {patterns : List UrnPattern}
    (h : parsePatterns texts = .ok patterns) :
    ∀ pattern ∈ patterns, ∃ text, UrnPattern.fromStr text = .ok pattern := by
  intro pattern hpattern
  obtain ⟨text, -, hparse⟩ := collect_ok_mem h hpattern
  exact ⟨text, mapError_ok.mp hparse⟩

theorem parsePatterns_any {texts : List String} {patterns : List UrnPattern}
    (h : parsePatterns texts = .ok patterns) (urn : ResourceUrn) :
    patterns.any (·.matches urn) = true ↔ ∃ text ∈ texts, AcceptsText [urn] text := by
  rw [List.any_eq_true]
  constructor
  · rintro ⟨pattern, hpattern, hmatches⟩
    obtain ⟨text, htext, hparse⟩ := collect_ok_mem h hpattern
    exact ⟨text, htext, pattern, mapError_ok.mp hparse, urn, List.mem_singleton_self urn,
      hmatches⟩
  · rintro ⟨text, htext, pattern, hparse, other, hother, hmatches⟩
    obtain ⟨read, hread, hparsed⟩ := collect_mem_ok h htext
    have hsame := hparse.symm.trans (mapError_ok.mp hparsed)
    rw [Except.ok.injEq] at hsame
    exact ⟨read, hread, by rw [← hsame, ← List.mem_singleton.mp hother]; exact hmatches⟩

/-! Statements. -/

/-- The library and the four adapters make this statement of a scope. -/
structure ResourceSqlMapping.Sends (mapping : ResourceSqlMapping) (scope : AuthorizationScope)
    (sql : SqlScope) : Prop where
  library : mapping.compileScopeStrs scope.allowResourceUrns scope.denyResourceUrns = .ok sql
  rust : Rust.compileScope mapping scope.allowResourceUrns scope.denyResourceUrns = .ok sql
  go : (Go.compileScope mapping scope.allowResourceUrns
    scope.denyResourceUrns).toOption = some sql
  java : (Java.compileScope mapping scope.allowResourceUrns
    scope.denyResourceUrns).toOption = some sql
  python : (Python.compileScope mapping scope.allowResourceUrns
    scope.denyResourceUrns).toOption = some sql

/-- Of the rows that the mapping describes, those with a permitted resource are selected. -/
def SqlScope.Selects (sql : SqlScope) (mapping : ResourceSqlMapping)
    (permits : ResourceUrn → Prop) : Prop :=
  ∀ row, mapping.RowOk row →
    (satisfies row sql.whereClause sql.params = true ↔ permits (mapping.assemble row))

section
variable {mapping : ResourceSqlMapping} {scope : AuthorizationScope}
  (columns : ∀ entry ∈ mapping.path, entry.isRemainder = false)

include columns

theorem selects_of_parsed {allowed denied : List UrnPattern} {sql : SqlScope}
    (hallow : parsePatterns scope.allowResourceUrns = .ok allowed)
    (hdeny : parsePatterns scope.denyResourceUrns = .ok denied)
    (h : mapping.compileScope allowed denied = .ok sql) :
    sql.Selects mapping fun urn => scope.Permits [urn] := by
  intro row hrow
  have hmeans := compileScope_means
    (columns_patternsMean columns hrow (parsePatterns_mem hallow))
    (columns_patternsMean columns hrow (parsePatterns_mem hdeny)) h
  rw [hmeans.satisfies_eq, Bool.and_eq_true, Bool.not_eq_true', ← Bool.not_eq_true,
    parsePatterns_any hallow, parsePatterns_any hdeny]
  exact Iff.rfl

/-- A scope of well-formed texts is sent as one statement, which decides as the scope does. -/
theorem sends_selects
    (hread : ∀ text ∈ scope.allowResourceUrns ++ scope.denyResourceUrns,
      (UrnPattern.fromStr text).isOk = true) :
    ∃ sql, mapping.Sends scope sql ∧ sql.Selects mapping fun urn => scope.Permits [urn] := by
  obtain ⟨allowed, hallow, hallowed⟩ := accepted_patterns fun text htext =>
    hread text (List.mem_append_left _ htext)
  obtain ⟨denied, hdeny, hdenied⟩ := accepted_patterns fun text htext =>
    hread text (List.mem_append_right _ htext)
  obtain ⟨sql, hsql⟩ := compileScope_total columns allowed denied
  obtain ⟨hgo, hjava, hpython⟩ :=
    adapters_text (RemainderLast.of_columns columns) hallowed hdenied
  have hoption : (mapping.compileScope allowed denied).toOption = some sql := by rw [hsql]; rfl
  have hlibrary : mapping.compileScopeStrs scope.allowResourceUrns scope.denyResourceUrns =
      .ok sql := by
    rw [ResourceSqlMapping.compileScopeStrs, hallow, hdeny]
    exact hsql
  exact ⟨sql, ⟨hlibrary, Rust.compileScope_eq_ok.mpr hlibrary, hgo.trans hoption,
    hjava.trans hoption, hpython.trans hoption⟩, selects_of_parsed columns hallow hdeny hsql⟩

end

section
variable [Ipnet]

/-- The scope of a published catalog lists patterns that can be read back. -/
theorem Catalog.scope_read (catalog : Catalog) (principalId : String) (groups : List String)
    (action : String) (context : EvaluationContext) :
    let scope := catalog.compiled.authorizationScope principalId groups action context
    ∀ text ∈ scope.allowResourceUrns ++ scope.denyResourceUrns,
      (UrnPattern.fromStr text).isOk = true := by
  intro scope text htext
  rw [List.mem_append, mem_allowResourceUrns, mem_denyResourceUrns] at htext
  cases htext with
  | inl h | inr h =>
      obtain ⟨binding, hmem, -, -, rfl⟩ := h
      rw [compiled_fromStr_display catalog.recompile hmem]
      rfl

/-- A statement that decides as the scope does decides as the engine does. -/
theorem SqlScope.Selects.permitted {catalog : Catalog} {mapping : ResourceSqlMapping}
    {principalId action : String} {groups : List String} {context : EvaluationContext}
    {sql : SqlScope}
    (h : sql.Selects mapping fun urn =>
      (catalog.compiled.authorizationScope principalId groups action context).Permits [urn]) :
    sql.Selects mapping fun resourceUrn => (catalog.compiled.authorize
      { principalId, groupPrincipalIds := groups, action, resourceUrn, context }).allowed =
        true := by
  intro row hrow
  have hdecides := authorize_allowed_iff_scope catalog.recompile
    { principalId, groupPrincipalIds := groups, action, resourceUrn := mapping.assemble row,
      context }
  exact (h row hrow).trans hdecides.symm

/-- A list query under push-down returns the rows that a check of each would permit. -/
theorem pushdown_selects_permitted (catalog : Catalog) (mapping : ResourceSqlMapping)
    (columns : ∀ entry ∈ mapping.path, entry.isRemainder = false) (principalId : String)
    (groups : List String) (action : String) (context : EvaluationContext) :
    ∃ sql,
      mapping.Sends (catalog.compiled.authorizationScope principalId groups action context) sql ∧
      sql.Selects mapping fun resourceUrn => (catalog.compiled.authorize
        { principalId, groupPrincipalIds := groups, action, resourceUrn, context }).allowed =
          true := by
  obtain ⟨sql, hsends, hselects⟩ := sends_selects columns
    (catalog.scope_read principalId groups action context)
  exact ⟨sql, hsends, hselects.permitted⟩

end

namespace Payroll

/-- Payrolls as rows. -/
def mapping : ResourceSqlMapping where
  partition := .const "prod"
  service := .const "payroll"
  region := .const "global"
  tenant := .column "tenant_id"
  path := [.literal "payroll", .column "payroll_id"]

def row (payroll : String) : Row
  | "tenant_id" => some "default"
  | "payroll_id" => some payroll
  | _ => none

theorem row_ok {payroll : String} (h : PlainSegment payroll) : mapping.RowOk (row payroll) := by
  have htenant : OrdinaryColumn (row payroll) "tenant_id" :=
    ⟨isName_of_check (by decide), "default", rfl, by decide, by decide, by decide⟩
  have hpayroll : OrdinaryColumn (row payroll) "payroll_id" :=
    ⟨isName_of_check (by decide), payroll, rfl, h⟩
  refine ⟨trivial, trivial, trivial, htenant, ?_⟩
  intro entry hentry
  simp only [mapping, List.mem_cons, List.not_mem_nil, or_false] at hentry
  rcases hentry with rfl | rfl
  · trivial
  · exact hpayroll

theorem january_selected :
    ∃ catalog sql, Catalog.compile policy 1 = .ok catalog ∧
      mapping.Sends (catalog.compiled.authorizationScope "alice" ["contractors"] "payroll.read"
        (request "january").context) sql ∧
      satisfies (row "january") sql.whereClause sql.params = true ∧
      satisfies (row "board") sql.whereClause sql.params = false := by
  obtain ⟨sql, hsends, hselects⟩ := pushdown_selects_permitted ⟨_, policy, 1, rfl⟩ mapping
    (by decide) "alice" ["contractors"] "payroll.read" (request "january").context
  refine ⟨_, sql, rfl, hsends, ?_, ?_⟩
  · rw [hselects _ (row_ok ⟨by decide, by decide, by decide⟩)]
    decide
  · rw [Bool.eq_false_iff, ne_eq, hselects _ (row_ok ⟨by decide, by decide, by decide⟩)]
    decide

end Payroll

end Authguard
