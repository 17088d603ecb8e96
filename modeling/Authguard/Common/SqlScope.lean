import Authguard.Library.Result
import Authguard.Common.PolicyUrn

/-!
Compilation of an authorization scope into a SQL condition
(`common/src/utils/sql.rs`). The production code pushes clauses and parameters
onto two vectors; here both are threaded as a `Fragment`, and the production
result `false` ("no row of this table can match") is `none`.
-/

namespace Authguard
open Result

inductive SqlCompileError
  | invalidPattern (message : String)
  /-- The production message carries the Debug rendering of these segments. -/
  | unsupportedRemainderPattern (remaining : List PathPattern)
  deriving DecidableEq, Repr

structure SqlScope where
  whereClause : String
  params : List String
  deriving DecidableEq, Repr

def SqlScope.denyAll : SqlScope := { whereClause := "0=1", params := [] }

def SqlScope.allowAll : SqlScope := { whereClause := "1=1", params := [] }

inductive SegmentMap
  | const (value : String)
  | column (name : String)
  deriving DecidableEq, Repr

inductive PathMap
  | literal (value : String)
  | column (name : String)
  | remainderColumn (name : String)
  deriving DecidableEq, Repr

structure ResourceSqlMapping where
  partition : SegmentMap
  service : SegmentMap
  region : SegmentMap
  tenant : SegmentMap
  path : List PathMap
  deriving DecidableEq, Repr

structure Fragment where
  clauses : List String
  params : List String
  deriving DecidableEq, Repr

def Fragment.push (acc : Fragment) (clause : String) (params : List String) : Fragment :=
  { clauses := acc.clauses ++ [clause], params := acc.params ++ params }

def compileSegment (mapping : SegmentMap) (pattern : SegmentPattern) (acc : Fragment) :
    Option Fragment :=
  match mapping, pattern with
  | _, .any => some acc
  | .const expected, .exact value => if expected = value then some acc else none
  | .column column, .exact value => some (acc.push (column ++ " = ?") [value])

def exactSegment (remaining : List PathPattern) :
    PathPattern → Except SqlCompileError String
  | .exact value => .ok value
  | _ => .error (.unsupportedRemainderPattern remaining)

def compileRemainder (column : String) (remaining : List PathPattern) (acc : Fragment) :
    Except SqlCompileError Fragment :=
  if remaining = [] then
    .ok acc
  else if remaining = [.globStar] then
    .ok acc
  else if remaining.any (· == .any) then
    .error (.unsupportedRemainderPattern remaining)
  else if remaining.getLast? = some .globStar then do
    let values ← collect (exactSegment remaining) remaining.dropLast
    let pre := "/".intercalate values
    if pre = "" then
      .ok acc
    else
      .ok (acc.push ("(" ++ column ++ " = ? OR " ++ column ++ " LIKE ?)")
        [pre, pre ++ "/%"])
  else do
    let values ← collect (exactSegment remaining) remaining
    .ok (acc.push (column ++ " = ?") ["/".intercalate values])

/-- The pattern argument is the production slice `pattern[pidx..]`. -/
def compilePath : List PathMap → List PathPattern → Fragment →
    Except SqlCompileError (Option Fragment)
  | [], pattern, acc =>
      .ok (if pattern = [] ∨ pattern = [.globStar] then some acc else none)
  | _ :: _, .globStar :: _, acc => .ok (some acc)
  | .literal _ :: _, [], _ => .ok none
  | .literal expected :: mappings, .exact value :: pattern, acc =>
      if value = expected then compilePath mappings pattern acc else .ok none
  | .literal _ :: mappings, .any :: pattern, acc => compilePath mappings pattern acc
  | .column _ :: _, [], _ => .ok none
  | .column column :: mappings, .exact value :: pattern, acc =>
      compilePath mappings pattern (acc.push (column ++ " = ?") [value])
  | .column _ :: mappings, .any :: pattern, acc => compilePath mappings pattern acc
  | .remainderColumn column :: _, pattern, acc => do
      let acc ← compileRemainder column pattern acc
      .ok (some acc)

def compileFields (mapping : ResourceSqlMapping) (pattern : UrnPattern) (acc : Fragment) :
    Option Fragment := do
  let acc ← compileSegment mapping.partition pattern.partition acc
  let acc ← compileSegment mapping.service pattern.service acc
  let acc ← compileSegment mapping.region pattern.region acc
  compileSegment mapping.tenant pattern.tenant acc

def Fragment.scope (acc : Fragment) : SqlScope :=
  if acc.clauses = [] then
    SqlScope.allowAll
  else
    { whereClause := " AND ".intercalate acc.clauses, params := acc.params }

def ResourceSqlMapping.compilePattern (mapping : ResourceSqlMapping) (pattern : UrnPattern) :
    Except SqlCompileError (Option SqlScope) :=
  match compileFields mapping pattern ⟨[], []⟩ with
  | none => .ok none
  | some acc => do
      let acc? ← compilePath mapping.path pattern.path acc
      .ok (acc?.map Fragment.scope)

def orScopes (scopes : List SqlScope) : SqlScope :=
  match scopes with
  | [scope] => scope
  | _ =>
      if scopes.any (·.whereClause == "1=1") then
        SqlScope.allowAll
      else
        { whereClause := " OR ".intercalate
            (scopes.map fun scope => "(" ++ scope.whereClause ++ ")")
          params := scopes.flatMap (·.params) }

def ResourceSqlMapping.applyDeny (mapping : ResourceSqlMapping) :
    List UrnPattern → SqlScope → Except SqlCompileError SqlScope
  | [], scope => .ok scope
  | pattern :: rest, scope => do
      match ← mapping.compilePattern pattern with
      | none => mapping.applyDeny rest scope
      | some denyScope =>
          if denyScope.whereClause = "1=1" then
            .ok SqlScope.denyAll
          else
            mapping.applyDeny rest
              { whereClause := "(" ++ scope.whereClause ++ ") AND NOT (" ++
                  denyScope.whereClause ++ ")"
                params := scope.params ++ denyScope.params }

def ResourceSqlMapping.compileScope (mapping : ResourceSqlMapping)
    (allow deny : List UrnPattern) : Except SqlCompileError SqlScope := do
  let compiled ← collect mapping.compilePattern allow
  let allowScopes := compiled.filterMap id
  if allowScopes = [] then
    .ok SqlScope.denyAll
  else
    mapping.applyDeny deny (orScopes allowScopes)

def parsePatterns (patterns : List String) : Except SqlCompileError (List UrnPattern) :=
  collect (fun pattern =>
    (UrnPattern.fromStr pattern).mapError fun error => .invalidPattern error.message) patterns

def ResourceSqlMapping.compileScopeStrs (mapping : ResourceSqlMapping)
    (allow deny : List String) : Except SqlCompileError SqlScope := do
  let allow ← parsePatterns allow
  let deny ← parsePatterns deny
  mapping.compileScope allow deny

end Authguard
