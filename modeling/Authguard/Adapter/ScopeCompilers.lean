import Authguard.Common.SqlScope

/-!
The scope compilers of the Go, Java and Python adapters
(`adapters/golang/util/util.go`, `adapters/java/.../AuthguardUtils.java`,
`adapters/python/authguard_adapter/util.py`). All three keep a pattern as text and
walk it with an index; the walk is written once. What differs is how a pattern is
taken apart, which messages are used, and what an empty clause list returns.
-/

namespace Authguard
open Text Result

/-- A pattern as the adapters keep it. -/
structure URNPattern where
  partition : String
  service : String
  region : String
  tenant : String
  path : List String
  deriving DecidableEq

namespace Adapter

def compileSegment (mapping : SegmentMap) (pattern : String) (acc : Fragment) : Option Fragment :=
  if pattern = "*" then
    some acc
  else
    match mapping with
    | .const value => if value = pattern then some acc else none
    | .column name => some (acc.push (name ++ " = ?") [pattern])

def compileRemainder (column : String) (remaining : List String) (acc : Fragment) :
    Except String Fragment :=
  if remaining = [] ∨ remaining = ["**"] then
    .ok acc
  else if remaining.contains "*" then
    .error "wildcard inside a remainder column is not SQL-pushdown safe"
  else if remaining.getLast? = some "**" then
    let pre := "/".intercalate remaining.dropLast
    if pre = "" then
      .ok acc
    else
      .ok (acc.push ("(" ++ column ++ " = ? OR " ++ column ++ " LIKE ?)") [pre, pre ++ "/%"])
  else
    .ok (acc.push (column ++ " = ?") ["/".intercalate remaining])

/-- The pattern argument is what the index has not passed. A remainder column takes all of it,
and the loop goes on. -/
def compilePath : List PathMap → List String → Fragment → Except String (Option Fragment)
  | [], pattern, acc => .ok (if pattern = [] ∨ pattern = ["**"] then some acc else none)
  | mapping :: mappings, pattern, acc =>
      if pattern.head? = some "**" then
        .ok (some acc)
      else
        match mapping, pattern with
        | .literal _, [] => .ok none
        | .literal value, segment :: rest =>
            if segment ≠ "*" ∧ segment ≠ value then .ok none else compilePath mappings rest acc
        | .column _, [] => .ok none
        | .column name, segment :: rest =>
            if segment = "*" then
              compilePath mappings rest acc
            else
              compilePath mappings rest (acc.push (name ++ " = ?") [segment])
        | .remainderColumn name, pattern => do
            let acc ← compileRemainder name pattern acc
            compilePath mappings [] acc

def compileFields (mapping : ResourceSqlMapping) (pattern : URNPattern) : Option Fragment := do
  let acc ← compileSegment mapping.partition pattern.partition ⟨[], []⟩
  let acc ← compileSegment mapping.service pattern.service acc
  let acc ← compileSegment mapping.region pattern.region acc
  compileSegment mapping.tenant pattern.tenant acc

section
variable (parse : String → Except String URNPattern) (scopeFrom : Fragment → SqlScope)
  (mapping : ResourceSqlMapping)

def compilePattern (pattern : URNPattern) : Except String (Option SqlScope) :=
  match compileFields mapping pattern with
  | none => .ok none
  | some acc => do
      let acc? ← compilePath mapping.path pattern.path acc
      .ok (acc?.map scopeFrom)

def compileRaw (raw : String) : Except String (Option SqlScope) := do
  let pattern ← parse raw
  compilePattern scopeFrom mapping pattern

def applyDeny : List String → SqlScope → Except String SqlScope
  | [], scope => .ok scope
  | raw :: rest, scope => do
      match ← compileRaw parse scopeFrom mapping raw with
      | none => applyDeny rest scope
      | some denyScope =>
          if denyScope.whereClause = "1=1" then
            .ok SqlScope.denyAll
          else
            applyDeny rest
              { whereClause := "(" ++ scope.whereClause ++ ") AND NOT (" ++
                  denyScope.whereClause ++ ")"
                params := scope.params ++ denyScope.params }

def compileScope (allow deny : List String) : Except String SqlScope := do
  let compiled ← collect (compileRaw parse scopeFrom mapping) allow
  let allowScopes := compiled.filterMap id
  if allowScopes = [] then
    .ok SqlScope.denyAll
  else
    applyDeny parse scopeFrom mapping deny (orScopes allowScopes)

end

/-- The four segments between the namespace and the path. -/
def invalidSegment (segment : String) : Bool :=
  segment == "" || (contains '*' segment && segment != "*")

def partialWildcard (segment : String) : Bool :=
  contains '*' segment && segment != "*" && segment != "**"

/-- The loop over the path of the Java and the Python adapter. -/
def checkWildcards (misplaced : String) : List String → Except String Unit
  | [] => .ok ()
  | segment :: rest =>
      if segment = "**" ∧ rest ≠ [] then
        .error misplaced
      else if partialWildcard segment then
        .error ("partial wildcard is not supported: " ++ segment)
      else
        checkWildcards misplaced rest

/-- Clauses and parameters are returned as they are, also when there are none. -/
def scopeFrom (acc : Fragment) : SqlScope :=
  if acc.clauses = [] then
    { whereClause := "1=1", params := acc.params }
  else
    { whereClause := " AND ".intercalate acc.clauses, params := acc.params }

end Adapter

/-! Go. -/

namespace Go

def checkPath (raw : String) : List String → Except String Unit
  | [] => .ok ()
  | segment :: rest =>
      if segment = "" then
        .error ("empty resource path segment in " ++ raw)
      else if segment = "**" ∧ rest ≠ [] then
        .error "** is only allowed as the final path segment"
      else if Adapter.partialWildcard segment then
        .error ("partial wildcard is not supported: " ++ segment)
      else
        checkPath raw rest

def parseURNPattern (raw : String) : Except String URNPattern :=
  match splitN 7 ':' raw with
  | [scheme, nid, partition, service, region, tenant, path] =>
      if scheme ≠ "urn" ∨ nid ≠ "iam" ∨ path = "" ∨ contains ':' path = true then
        .error ("invalid authguard urn: " ++ raw)
      else if [partition, service, region, tenant].any Adapter.invalidSegment then
        .error ("invalid authguard urn segment in " ++ raw)
      else do
        let path := splitChar '/' path
        checkPath raw path
        .ok { partition, service, region, tenant, path }
  | _ => .error ("invalid authguard urn: " ++ raw)

def compileScope (mapping : ResourceSqlMapping) (allow deny : List String) :
    Except String SqlScope :=
  Adapter.compileScope parseURNPattern Adapter.scopeFrom mapping allow deny

end Go

/-! Java. -/

namespace Java

/-- `String::split` without a limit: trailing empty pieces are dropped where the separator
occurs at all. -/
def split (c : Char) (text : String) : List String :=
  if contains c text then ((splitChar c text).reverse.dropWhile (· == "")).reverse else [text]

def parseUrnPattern (raw : String) : Except String URNPattern :=
  match splitN 7 ':' raw with
  | [scheme, nid, partition, service, region, tenant, path] =>
      if scheme ≠ "urn" ∨ nid ≠ "iam" ∨ contains ':' path = true then
        .error ("invalid authguard urn: " ++ raw)
      else if [partition, service, region, tenant].any Adapter.invalidSegment then
        .error ("invalid authguard urn segment: " ++ raw)
      else
        let path := split '/' path
        if path = [] ∨ path.any (· == "") = true then
          .error ("empty resource path segment: " ++ raw)
        else do
          Adapter.checkWildcards "** is only allowed as the final path segment" path
          .ok { partition, service, region, tenant, path }
  | _ => .error ("invalid authguard urn: " ++ raw)

/-- Without clauses the scope is `allowAll`. -/
def scopeFrom (acc : Fragment) : SqlScope :=
  if acc.clauses = [] then
    SqlScope.allowAll
  else
    { whereClause := " AND ".intercalate acc.clauses, params := acc.params }

def compileScope (mapping : ResourceSqlMapping) (allow deny : List String) :
    Except String SqlScope :=
  Adapter.compileScope parseUrnPattern scopeFrom mapping allow deny

end Java

/-! Python. -/

namespace Python

def parseUrnPattern (raw : String) : Except String URNPattern :=
  match splitN 7 ':' raw with
  | [scheme, nid, partition, service, region, tenant, path] =>
      if scheme ≠ "urn" ∨ nid ≠ "iam" ∨ contains ':' path = true then
        .error ("invalid authguard urn: " ++ raw)
      else if [partition, service, region, tenant].any Adapter.invalidSegment then
        .error ("invalid authguard urn segment: " ++ raw)
      else
        let path := splitChar '/' path
        if path = [] ∨ path.any (· == "") = true then
          .error ("empty resource path segment: " ++ raw)
        else do
          Adapter.checkWildcards "** is only allowed as final path segment" path
          .ok { partition, service, region, tenant, path }
  | _ => .error ("invalid authguard urn: " ++ raw)

def compileScope (mapping : ResourceSqlMapping) (allow deny : List String) :
    Except String SqlScope :=
  Adapter.compileScope parseUrnPattern Adapter.scopeFrom mapping allow deny

end Python

end Authguard
