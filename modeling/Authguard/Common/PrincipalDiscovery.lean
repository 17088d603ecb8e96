import Authguard.Common.Principal
import Authguard.Library.Json
import Authguard.Library.Result
import Authguard.Library.SortedMap
import Authguard.Library.Text

/-!
Discovery of principals in external directories (`common/src/principal/mod.rs`):
references, projections, and searches that continue where their cursors say.
-/

namespace Authguard
open Text

/-- An object of `serde_json`. -/
abbrev JsonMap := SortedMap String Json

def objectOf (json : Json) : Option JsonMap := json.asObject.map SortedMap.ofList

/-- `json` is `InvalidQuery` with the text of `serde_json`. -/
inductive PrincipalDiscoveryError
  | invalidConfiguration (message : String)
  | invalidQuery (message : String)
  | unknownProvider (providerId : String)
  | authentication (providerId : String)
  | httpStatus (providerId operation : String) (status : Nat)
  | transport (providerId operation reason : String)
  | invalidResponse (providerId message : String)
  | task (message : String)
  | json
  deriving DecidableEq

def PrincipalDiscoveryError.toString : PrincipalDiscoveryError → String
  | .invalidConfiguration message =>
      "invalid IamPrincipalInfo discovery configuration: " ++ message
  | .invalidQuery message => "invalid principal search query: " ++ message
  | .unknownProvider providerId =>
      "unknown IamPrincipalInfo discovery source `" ++ providerId ++ "`"
  | .authentication providerId =>
      "principal provider `" ++ providerId ++ "` authentication failed"
  | .httpStatus providerId operation status =>
      "principal provider `" ++ providerId ++ "` operation `" ++ operation ++
        "` returned HTTP " ++ status.repr
  | .transport providerId operation reason =>
      "principal provider `" ++ providerId ++ "` operation `" ++ operation ++ "` failed: " ++ reason
  | .invalidResponse providerId message =>
      "principal provider `" ++ providerId ++ "` returned an invalid response: " ++ message
  | .task message => "principal provider task failed: " ++ message
  | .json => "invalid principal search query: "

/-- `str::strip_prefix`. -/
def stripPrefix (head value : String) : Option String :=
  if head.toList.isPrefixOf value.toList then
    some (String.ofList (value.toList.drop head.toList.length))
  else
    none

theorem stripPrefix_append (head rest : String) : stripPrefix head (head ++ rest) = some rest := by
  rw [stripPrefix, String.toList_append, if_pos (List.isPrefixOf_iff_prefix.mpr ⟨_, rfl⟩),
    List.drop_left, String.ofList_toList]

theorem stripPrefix_eq_some {head value rest : String} :
    stripPrefix head value = some rest ↔ value = head ++ rest := by
  constructor
  · intro h
    rw [stripPrefix] at h
    split at h
    · rename_i hbegins
      obtain ⟨tail, htail⟩ := List.isPrefixOf_iff_prefix.mp hbegins
      rw [← htail, List.drop_left] at h
      obtain rfl := Option.some.inj h
      rw [← String.toList_inj, String.toList_append, String.toList_ofList, htail]
    · cases h
  · rintro rfl
    exact stripPrefix_append head rest

/-- An identifier without blanks around it. -/
def isCanonical (value : String) : Bool := !isBlank value && trim value = value

structure ExternalPrincipalRef where
  providerId : String
  issuer : String
  externalId : String
  deriving DecidableEq

/-- The candidate that was selected, and the principal it is to become. -/
structure PrincipalMaterializationRequest where
  principalId : String
  reference : ExternalPrincipalRef

/-- The user name and the mail address are left out: the stored principal does not
have them. -/
structure PrincipalProjection where
  providerId : String
  issuer : String
  externalId : String
  kind : PrincipalKind
  displayName : String
  enabled : Bool
  attributes : JsonMap

def PrincipalProjection.reference (projection : PrincipalProjection) : ExternalPrincipalRef :=
  ⟨projection.providerId, projection.issuer, projection.externalId⟩

/-! Searches. -/

/-- `BTreeSet<String>`. -/
abbrev StringSet := SortedMap String Unit

def StringSet.items (set : StringSet) : List String := set.entries.map Prod.fst

structure PrincipalSearchQuery where
  text : String
  kinds : Finset PrincipalKind
  providerIds : StringSet
  perProviderLimit : Nat
  cursors : SortedMap String String

namespace PrincipalSearchQuery

def maxPageSize : Nat := 100

theorem pageSize_fifty : 1 ≤ 50 ∧ 50 ≤ maxPageSize := by decide

def maxTextBytes : Nat := 256

variable (query : PrincipalSearchQuery)

def supportsKind (kind : PrincipalKind) : Bool := query.kinds = ∅ || kind ∈ query.kinds

def cursorKey (providerId stream : String) : String := providerId ++ ":" ++ stream

/-- `str::parse::<u32>`: one sign is taken, and nothing but digits after it. -/
def parseU32 (value : String) : Option Nat :=
  let digits := if value.toList.head? = some '+' then value.toList.tail else value.toList
  let number := Nat.ofDigitChars 10 digits 0
  if digits ≠ [] ∧ digits.all Char.isDigit ∧ number < 2 ^ 32 then some number else none

/-- `name` is how the error calls the cursor. -/
def offsetOf (key name : String) : Except PrincipalDiscoveryError Nat :=
  match query.cursors.get key with
  | none => .ok 0
  | some value =>
      match parseU32 value with
      | none => .error (.invalidQuery ("cursor for provider `" ++ name ++ "` is invalid"))
      | some offset => .ok offset

def offsetCursor (providerId stream : String) : Except PrincipalDiscoveryError Nat :=
  query.offsetOf (cursorKey providerId stream) (cursorKey providerId stream)

end PrincipalSearchQuery

structure PrincipalSearchPage where
  principals : List PrincipalProjection
  nextCursors : SortedMap String String

namespace PrincipalSearchPage

def empty : PrincipalSearchPage := ⟨[], .empty⟩

/-- `BTreeMap::extend` of the cursors, after those of the page. -/
def extend (page other : PrincipalSearchPage) : PrincipalSearchPage where
  principals := page.principals ++ other.principals
  nextCursors :=
    other.nextCursors.entries.foldl (fun cursors entry => cursors.insert entry.1 entry.2)
      page.nextCursors

end PrincipalSearchPage

def validateSearchQuery (query : PrincipalSearchQuery) : Except PrincipalDiscoveryError Unit :=
  if isBlank query.text then
    .error (.invalidQuery "search text must not be empty")
  else if PrincipalSearchQuery.maxTextBytes < query.text.utf8ByteSize then
    .error (.invalidQuery "search text must not exceed 256 bytes")
  else if query.perProviderLimit < 1 ∨ PrincipalSearchQuery.maxPageSize < query.perProviderLimit then
    .error (.invalidQuery "per_provider_limit must be between 1 and 100")
  else
    .ok ()

/-- `saturating_add` of `u32`. -/
def saturatingAddU32 (offset limit : Nat) : Nat := min (offset + limit) (2 ^ 32 - 1)

/-- A page is followed by another when it is full. -/
def nextCursor (key : String) (offset limit returned : Nat) : SortedMap String String :=
  if returned = limit then SortedMap.empty.insert key (saturatingAddU32 offset limit).repr else .empty

/-- What is behind the trait `IPrincipalSearchDiscovery`; its requests are answered by the
directory as it is when they are made. -/
structure SearchProvider where
  providerId : String
  discover : PrincipalSearchQuery → Except PrincipalDiscoveryError PrincipalSearchPage
  resolvePrincipal :
    ExternalPrincipalRef → Except PrincipalDiscoveryError (Option PrincipalProjection)

/-- An HTTP exchange: a status and the body, if it is JSON; or the reason it failed for. -/
structure DirectoryResponse where
  status : Nat
  body : Option Json

def DirectoryResponse.isSuccess (response : DirectoryResponse) : Bool :=
  200 ≤ response.status && response.status < 300

def ensureSuccess (providerId operation : String) (response : DirectoryResponse) :
    Except PrincipalDiscoveryError Unit :=
  if response.isSuccess then .ok ()
  else if response.status = 401 ∨ response.status = 403 then .error (.authentication providerId)
  else .error (.httpStatus providerId operation response.status)

/-- `send`: what a directory answers, unless the exchange fails. -/
def exchanged (providerId operation : String) :
    Except String DirectoryResponse → Except PrincipalDiscoveryError DirectoryResponse
  | .error reason => .error (.transport providerId operation reason)
  | .ok response => .ok response

end Authguard
