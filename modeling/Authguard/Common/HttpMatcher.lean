import Authguard.Common.Role

/-!
Mapping of HTTP requests to actions and resources
(`common/src/utils/http_matcher.rs`). The hash map of template values is a
partial function: only lookups and insertions are made on it.
-/

namespace Authguard
open Text Result

structure ResolvedHttpRoute where
  routeId : String
  action : String
  resourceUrn : ResourceUrn
  parentUrns : List ResourceUrn
  deriving DecidableEq

inductive HttpMappingError
  | pathMustStartWithSlash (routeId : String)
  | invalidVariable (routeId variableName : String)
  | invalidGlobStar (routeId : String)
  | ambiguous
  | notMapped
  | missingTemplateValue (name : String)
  | invalidResourceUrn (message : String)
  deriving DecidableEq

inductive PathMatcher
  | literal (value : String)
  | var (name : String)
  | any
  | remainder
  deriving DecidableEq

structure CompiledHttpRoute where
  action : String
  rule : HttpRouteMatcher
  path : List PathMatcher
  deriving DecidableEq

abbrev TemplateValues := String → Option String

def TemplateValues.insert (values : TemplateValues) (name value : String) : TemplateValues :=
  fun key => if key = name then some value else values key

namespace HttpMatcher

def trimMatches (c : Char) (s : String) : String :=
  String.ofList
    ((s.toList.dropWhile (· == c)).reverse.dropWhile (· == c)).reverse

def splitPath (path : String) : List String :=
  (splitChar '/' (trimMatches '/' path)).filter (· ≠ "")

def validVariable (value : String) : Bool :=
  value != "" && value.toList.all fun c => c.isAlphanum || c == '_'

def startsWith (c : Char) (s : String) : Bool := s.toList.head? == some c

def endsWith (c : Char) (s : String) : Bool := s.toList.getLast? == some c

/-- One iteration of the production loop; `last` is `index + 1 == raw_segments.len()`. -/
def compileSegment (routeId segment : String) (last : Bool) :
    Except HttpMappingError PathMatcher :=
  if segment = "*" then
    .ok .any
  else if segment = "**" then
    if last then .ok .remainder else .error (.invalidGlobStar routeId)
  else if startsWith '{' segment && endsWith '}' segment then
    let name := String.ofList segment.toList.tail.dropLast
    if validVariable name then .ok (.var name)
    else .error (.invalidVariable routeId name)
  else
    .ok (.literal segment)

def compileSegments (routeId : String) :
    List String → Except HttpMappingError (List PathMatcher)
  | [] => .ok []
  | segment :: rest => do
      let matcher ← compileSegment routeId segment rest.isEmpty
      let matchers ← compileSegments routeId rest
      .ok (matcher :: matchers)

/-- The text after the opening brace of a variable is read in the second state. -/
def expandFrom (values : TemplateValues) :
    Option (List Char) → List Char → Except HttpMappingError (List Char)
  | none, [] => .ok []
  | none, c :: rest =>
      if c = '{' then expandFrom values (some []) rest
      else (expandFrom values none rest).map (c :: ·)
  | some name, [] => .error (.missingTemplateValue (String.ofList name))
  | some name, c :: rest =>
      if c = '}' then
        match values (String.ofList name) with
        | none => .error (.missingTemplateValue (String.ofList name))
        | some value => (expandFrom values none rest).map (value.toList ++ ·)
      else
        expandFrom values (some (name ++ [c])) rest

def expandTemplate (template : String) (values : TemplateValues) :
    Except HttpMappingError String :=
  (expandFrom values none template.toList).map String.ofList

def hostMatches (pattern host : String) : Bool :=
  let host := (splitChar ':' host).head?.getD host
  if "*.".toList.isPrefixOf pattern.toList then
    let suffix := pattern.toList.drop 2
    host.toList != suffix && ('.' :: suffix).isSuffixOf host.toList
  else
    eqIgnoreAsciiCase pattern host

/-- `None` stands for the production result `false`; the values are passed by reference there. -/
def matchPath : List PathMatcher → List String → TemplateValues → Option TemplateValues
  | .remainder :: _, _, values => some values
  | .literal expected :: pattern, segment :: request, values =>
      if segment = expected then matchPath pattern request values else none
  | .var name :: pattern, segment :: request, values =>
      matchPath pattern request (values.insert name segment)
  | .any :: pattern, _ :: request, values => matchPath pattern request values
  | _ :: _, [], _ => none
  | [], request, values => if request = [] then some values else none

def resourceFromTemplate (values : TemplateValues) (template : String) :
    Except HttpMappingError ResourceUrn := do
  let raw ← expandTemplate template values
  (ResourceUrn.fromStr raw).mapError fun error => .invalidResourceUrn error.message

end HttpMatcher

open HttpMatcher

def CompiledHttpRoute.compile (action : String) (rule : HttpRouteMatcher) :
    Except HttpMappingError CompiledHttpRoute :=
  if startsWith '/' rule.path then do
    let path ← compileSegments rule.id (HttpMatcher.splitPath rule.path)
    .ok { action, rule, path }
  else
    .error (.pathMustStartWithSlash rule.id)

def CompiledHttpRoute.resolve (route : CompiledHttpRoute) (method host requestPath : String)
    (claims : TemplateValues) : Except HttpMappingError (Option ResolvedHttpRoute) :=
  let rule := route.rule
  if !rule.methods.isEmpty && !rule.methods.any (eqIgnoreAsciiCase · method) then
    .ok none
  else if !rule.hosts.isEmpty && !rule.hosts.any (hostMatches · host) then
    .ok none
  else
    let values := claims.insert "method" (String.ofList (method.toList.map Char.toLower))
    let values := values.insert "host" host
    match matchPath route.path (HttpMatcher.splitPath requestPath) values with
    | none => .ok none
    | some values => do
        let resourceUrn ← resourceFromTemplate values rule.resourceUrn
        let parentUrns ← collect (resourceFromTemplate values) rule.parentUrns
        .ok (some { routeId := rule.id, action := route.action, resourceUrn, parentUrns })

/-- The loop of `resolve_route` from the route at hand on, with what was resolved so far. -/
def resolveRouteFrom (method host path : String) (claims : TemplateValues) :
    List CompiledHttpRoute → Option ResolvedHttpRoute →
      Except HttpMappingError ResolvedHttpRoute
  | [], resolved =>
      match resolved with
      | none => .error .notMapped
      | some route => .ok route
  | route :: routes, resolved => do
      match ← route.resolve method host path claims with
      | none => resolveRouteFrom method host path claims routes resolved
      | some candidate =>
          if resolved.isSome then .error .ambiguous
          else resolveRouteFrom method host path claims routes (some candidate)

def resolveRoute (routes : List CompiledHttpRoute) (method host path : String)
    (claims : TemplateValues) : Except HttpMappingError ResolvedHttpRoute :=
  resolveRouteFrom method host path claims routes none

end Authguard
