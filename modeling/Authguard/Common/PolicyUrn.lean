import Authguard.Library.Text

/-!
Resource URNs and URN patterns: parsing, display and matching
(`common/src/utils/policy_urn.rs`). The parser keeps the order of the
production checks, so the first failing one decides the reported error.
-/

namespace Authguard
open Text

inductive UrnError
  | invalidFormat
  | emptySegment (name : String)
  | wildcardInExactUrn (value : String)
  | invalidWildcard (value : String)
  | invalidGlobStar
  deriving DecidableEq, Repr

def UrnError.message : UrnError → String
  | .invalidFormat =>
      "URN must use format urn:iam:<partition>:<service>:<region>:<tenant>:<resource-path>"
  | .emptySegment name => "URN segment `" ++ name ++ "` must not be empty"
  | .wildcardInExactUrn value =>
      "exact Resource URN must not contain wildcard `" ++ value ++ "`"
  | .invalidWildcard value => "wildcard `" ++ value ++ "` is not allowed in this segment"
  | .invalidGlobStar => "globstar ** is only allowed as the final resource path segment"

structure ResourceUrn where
  partition : String
  service : String
  region : String
  tenant : String
  path : List String
  deriving DecidableEq, Repr

def urnText (partition service region tenant path : String) : String :=
  ":".intercalate ["urn", "iam", partition, service, region, tenant, path]

def ResourceUrn.display (urn : ResourceUrn) : String :=
  urnText urn.partition urn.service urn.region urn.tenant ("/".intercalate urn.path)

inductive SegmentPattern
  | exact (value : String)
  | any
  deriving DecidableEq, Repr

inductive PathPattern
  | exact (value : String)
  | any
  | globStar
  deriving DecidableEq, Repr

structure UrnPattern where
  partition : SegmentPattern
  service : SegmentPattern
  region : SegmentPattern
  tenant : SegmentPattern
  path : List PathPattern
  deriving DecidableEq, Repr

structure UrnParts where
  partition : String
  service : String
  region : String
  tenant : String
  path : String

def splitUrn (input : String) : Except UrnError UrnParts :=
  match splitN 7 ':' input with
  | [scheme, nid, partition, service, region, tenant, path] =>
      if scheme != "urn" || nid != "iam" || contains ':' path then
        .error .invalidFormat
      else
        .ok { partition, service, region, tenant, path }
  | _ => .error .invalidFormat

def validateExactSegment (name input : String) : Except UrnError Unit :=
  if input = "" then
    .error (.emptySegment name)
  else if input = "*" ∨ input = "**" ∨ contains '*' input then
    .error (.wildcardInExactUrn input)
  else
    .ok ()

def splitPath (input : String) : Except UrnError (List String) :=
  if input = "" then
    .error (.emptySegment "resource-path")
  else
    let segments := splitChar '/' input
    if segments.any (· == "") then
      .error (.emptySegment "resource-path")
    else
      .ok segments

def ResourceUrn.fromStr (input : String) : Except UrnError ResourceUrn := do
  let parts ← splitUrn input
  validateExactSegment "partition" parts.partition
  validateExactSegment "service" parts.service
  validateExactSegment "region" parts.region
  validateExactSegment "tenant" parts.tenant
  let path ← splitPath parts.path
  match path.find? (fun segment => segment == "*" || segment == "**") with
  | some segment => .error (.wildcardInExactUrn segment)
  | none =>
      .ok { partition := parts.partition, service := parts.service,
            region := parts.region, tenant := parts.tenant, path }

def SegmentPattern.parse (input : String) : Except UrnError SegmentPattern :=
  if input = "" then
    .error (.emptySegment "segment")
  else if input = "*" then
    .ok .any
  else if input = "**" ∨ contains '*' input then
    .error (.invalidWildcard input)
  else
    .ok (.exact input)

/-- One iteration of the production loop; `last` is `idx + 1 == segments.len()`. -/
def parsePathSegment (segment : String) (last : Bool) : Except UrnError PathPattern :=
  if segment = "*" then
    .ok .any
  else if segment = "**" then
    if last then .ok .globStar else .error .invalidGlobStar
  else if contains '*' segment then
    .error (.invalidWildcard segment)
  else
    .ok (.exact segment)

def parsePathSegments : List String → Except UrnError (List PathPattern)
  | [] => .ok []
  | segment :: rest => do
      let parsed ← parsePathSegment segment rest.isEmpty
      let tail ← parsePathSegments rest
      .ok (parsed :: tail)

def parsePathPattern (input : String) : Except UrnError (List PathPattern) := do
  let segments ← splitPath input
  parsePathSegments segments

def UrnPattern.fromStr (input : String) : Except UrnError UrnPattern := do
  let parts ← splitUrn input
  let partition ← SegmentPattern.parse parts.partition
  let service ← SegmentPattern.parse parts.service
  let region ← SegmentPattern.parse parts.region
  let tenant ← SegmentPattern.parse parts.tenant
  let path ← parsePathPattern parts.path
  .ok { partition, service, region, tenant, path }

def SegmentPattern.display : SegmentPattern → String
  | .exact value => value
  | .any => "*"

def PathPattern.display : PathPattern → String
  | .exact value => value
  | .any => "*"
  | .globStar => "**"

def UrnPattern.display (pattern : UrnPattern) : String :=
  urnText pattern.partition.display pattern.service.display pattern.region.display
    pattern.tenant.display ("/".intercalate (pattern.path.map PathPattern.display))

def SegmentPattern.matches : SegmentPattern → String → Bool
  | .exact expected, value => expected == value
  | .any, _ => true

/-- The two indices of the production loop advance together, so both lists are
consumed from the front. -/
def pathMatches : List PathPattern → List String → Bool
  | [], path => path.isEmpty
  | .globStar :: rest, _ => rest.isEmpty
  | .any :: _, [] => false
  | .any :: rest, _ :: path => pathMatches rest path
  | .exact _ :: _, [] => false
  | .exact expected :: rest, segment :: path =>
      segment == expected && pathMatches rest path

def UrnPattern.matches (pattern : UrnPattern) (urn : ResourceUrn) : Bool :=
  pattern.partition.matches urn.partition && pattern.service.matches urn.service &&
    pattern.region.matches urn.region && pattern.tenant.matches urn.tenant &&
    pathMatches pattern.path urn.path

def UrnPattern.matchesAny (pattern : UrnPattern) (urns : List ResourceUrn) : Bool :=
  urns.any pattern.matches

end Authguard
