import Authguard.Authz.ScimProvisioning
import Authguard.Common.CustomDirectory
import Authguard.Library.LikePattern

/-!
Listing principals and SCIM resources (`list` of `common/src/storage/principal_sqlite.rs`
and `principal_postgres.rs`, `list_page` of `authz/src/handler/principal.rs`, `list_scim` of
`authz/src/handler/scim.rs`, `parse_filter` and `list_page` of
`authz/src/principal/scim/scim.rs`), on a store that stays as it is. Identifiers are
compared in the order of the database, given by their rank.
-/

namespace Authguard
open Text

/-! The repository. -/

def principalPrefixPattern (input : String) : String :=
  if input = "" then
    "%"
  else
    let escaped := LikePattern.replaceChar '_' "\\_".toList
      (LikePattern.replaceChar '%' "\\%".toList
        (LikePattern.replaceChar '\\' "\\\\".toList input.toList))
    String.ofList (escaped ++ ['%'])

/-- `LOWER(value) LIKE LOWER(pattern) ESCAPE '\'`. -/
def likeLower (value pattern : String) : Bool :=
  LikePattern.like (toAsciiLowercase pattern).toList (toAsciiLowercase value).toList

/-- `clamp(1, 100)`. -/
def clampPage (limit : Nat) : Nat := max 1 (min limit 100)

section
variable {κ : Type} [LinearOrder κ] (rank : String → κ)

def IamDatabase.list (db : IamDatabase) (query : String) (afterId : Option String)
    (limit : Nat) : List PrincipalRow :=
  let pattern := principalPrefixPattern query
  let selected := db.principals.rows.filter fun row =>
    rank (afterId.getD "") < rank row.id ∧
      (pattern = "%" ∨ likeLower row.displayName pattern ∨ likeLower row.id pattern)
  (selected.insertionSort fun row other => rank row.id ≤ rank other.id).take (clampPage limit)

/-! The handler. -/

structure PrincipalPage where
  total : Nat
  items : List PrincipalRow
  nextCursor : Option String

def PrincipalHandler.listPage (db : IamDatabase) (query : String) (afterId : Option String)
    (limit : Nat) : PrincipalPage :=
  let limit := clampPage limit
  let items := db.list rank query afterId limit
  { total := items.length
    items
    nextCursor := if items.length = limit then items.getLast?.map (·.id) else none }

end

/-! SCIM filters and pages. -/

def listSchema : String := "urn:ietf:params:scim:api:messages:2.0:ListResponse"

structure ScimListQuery where
  startIndex : Nat
  count : Nat
  filter : Option String

structure ScimListResponse where
  schemas : List String
  totalResults : Nat
  startIndex : Nat
  itemsPerPage : Nat
  resources : List ScimResource

def invalidFilter : PrincipalDiscoveryError :=
  .invalidQuery
    "SCIM filter must be externalId, userName, or displayName eq a quoted string"

def filterAttributes : List String := ["externalId", "userName", "displayName"]

/-- `str::strip_prefix` and `str::strip_suffix` of a quotation mark. -/
def unquote : List Char → Option String
  | '"' :: quoted =>
      match quoted.getLast? with
      | some '"' => some (String.ofList quoted.dropLast)
      | _ => none
  | _ => none

def parseFilter (filter : String) : Except PrincipalDiscoveryError (String × String) :=
  match cutAt " eq ".toList filter.toList with
  | none => .error invalidFilter
  | some (name, expected) =>
      if String.ofList name ∉ filterAttributes then
        .error invalidFilter
      else
        match unquote expected with
        | none => .error invalidFilter
        | some value => .ok (String.ofList name, value)

/-- The attribute is a text, and the text is the value. -/
def ScimResource.attributeIs (name value : String) (resource : ScimResource) : Bool :=
  (resource.toObject.get name).bind Json.toStr = some value

/-- What a filter retains. -/
def retainFiltered (resources : List ScimResource) :
    Option String → Except PrincipalDiscoveryError (List ScimResource)
  | none => .ok resources
  | some filter => do
      let (name, expected) ← parseFilter filter
      .ok (resources.filter (ScimResource.attributeIs name expected))

def ScimPrincipalDiscovery.listPage (resources : List ScimResource) (query : ScimListQuery) :
    Except PrincipalDiscoveryError ScimListResponse := do
  let resources ← retainFiltered resources query.filter
  let startIndex := max query.startIndex 1
  let window := (resources.drop (startIndex - 1)).take (min query.count 100)
  .ok
    { schemas := [listSchema]
      totalResults := resources.length
      startIndex
      itemsPerPage := window.length
      resources := window }

/-! The SCIM collection. -/

namespace PrincipalHandler

variable {κ : Type} [LinearOrder κ] (rank : String → κ) (handler : PrincipalHandler)
  (db : IamDatabase) (row : String → Nat) (kind : PrincipalKind)

/-- `get_scim` where the store answers each call; `row` says which of the identities of a
principal is selected. -/
def readScim (principalId : String) : Option (Except PrincipalHandlerError ScimResource) :=
  ((handler.getScim principalId kind).evaluate PrincipalCall.exec (.answered (row principalId))
    db).map Prod.fst

/-- The inner loop, over one page. -/
def readPage : List PrincipalRow → Option (Except PrincipalHandlerError (List ScimResource))
  | [] => some (.ok [])
  | principal :: page =>
      if principal.kind = kind then
        match handler.readScim db row kind principal.id with
        | none => none
        | some (.ok resource) => (readPage page).map fun rest => rest.map (resource :: ·)
        | some (.error (.notFound _)) => readPage page
        | some (.error error) => some (.error error)
      else
        readPage page

/-- The outer loop, while the fuel lasts. -/
def collectScim : Nat → Option String → List ScimResource →
    Option (Except PrincipalHandlerError (List ScimResource))
  | 0, _, _ => none
  | fuel + 1, afterId, resources =>
      let page := db.list rank "" afterId 100
      match page.getLast? with
      | none => some (.ok resources)
      | some last =>
          match handler.readPage db row kind page with
          | none => none
          | some (.error error) => some (.error error)
          | some (.ok read) =>
              if page.length < 100 then some (.ok (resources ++ read))
              else collectScim fuel (some last.id) (resources ++ read)

def listScim (fuel : Nat) (query : ScimListQuery) :
    Option (Except PrincipalHandlerError ScimListResponse) :=
  match handler.scim with
  | none => some (.error .providerUnavailable)
  | some _ =>
      (handler.collectScim rank db row kind fuel none []).map fun collected =>
        collected.bind fun resources =>
          (ScimPrincipalDiscovery.listPage resources query).mapError fun error =>
            .discovery error.toString

end PrincipalHandler

end Authguard
