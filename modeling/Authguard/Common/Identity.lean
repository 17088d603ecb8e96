import Authguard.Library.Json
import Authguard.Common.Principal
import Authguard.Common.Condition

/-!
The identity a request carries (`common/src/model/identity.rs`). The token was
verified by the gateway; only its payload is read here. A hash map of claims is
kept in the order of its keys.
-/

namespace Authguard
open Text Result

/-- Header names and values of the `http` crate, Base64URL, and `serde_json`. -/
class Wire where
  /-- `HeaderName::from_bytes`, in lower case. -/
  headerName : String → Option String
  /-- `HeaderValue::from_str` accepts the text. -/
  headerValue : String → Bool
  /-- `HeaderValue::to_str` answers. -/
  isText : String → Bool
  decodeNoPad : String → Option (List UInt8)
  decodePadded : String → Option (List UInt8)
  encodeNoPad : List UInt8 → String
  fromSlice : List UInt8 → Option Json
  toVec : Json → Except String (List UInt8)

structure AuthenticatedPrincipalContext where
  principalId : String
  kind : PrincipalKind
  stableGroupIds : List String
  trustedClaims : StringMap
  acr : Option String
  amr : List String
  deriving DecidableEq

inductive IdentityError
  | missing
  | notJwt
  | invalidBase64
  | invalidJson
  | missingPrincipalId
  | invalidPrincipalKind
  | invalidGroups
  | tooLarge
  deriving DecidableEq

def maxGroups : Nat := 128
def maxGroupBytes : Nat := 16 * 1024
def maxScalarClaimBytes : Nat := 64 * 1024
def maxCanonicalIdBytes : Nat := 512

/-- `utils::validate_canonical`. -/
def validateCanonical (value : String) : Bool :=
  value != "" && trim value == value && value.utf8ByteSize ≤ maxCanonicalIdBytes &&
    !value.toList.any isControl

def parsePrincipalKind : String → Option PrincipalKind
  | "USER" => some .user
  | "WORKLOAD" => some .workload
  | "GROUP" => some .group
  | _ => none

def PrincipalKind.asStr : PrincipalKind → String
  | .user => "USER"
  | .workload => "WORKLOAD"
  | .group => "GROUP"

/-! The token. -/

abbrev HeaderMap := List (String × String)

/-- Replaces the value of a header that is there. -/
def HeaderMap.insert (name value : String) : HeaderMap → HeaderMap
  | [] => [(name, value)]
  | entry :: headers =>
      if entry.1 = name then (name, value) :: headers
      else entry :: HeaderMap.insert name value headers

def bearerValue (authorization : String) : Option String := do
  let (scheme, token) ← splitOnce ' ' authorization
  if eqIgnoreAsciiCase scheme "bearer" && trim token != "" then some (trim token) else none

section
variable [Wire]

def HeaderMap.get (headers : HeaderMap) (name : String) : Option String :=
  (Wire.headerName name).bind fun normal => headers.lookup normal

/-- A header whose value is text. -/
def HeaderMap.text (headers : HeaderMap) (name : String) : Option String :=
  (headers.get name).filter Wire.isText

def cookieValue (headers : HeaderMap) (name : String) : Option String := do
  let cookies ← headers.text "cookie"
  (splitChar ';' cookies).findSome? fun cookie => do
    let (key, value) ← splitOnce '=' (trim cookie)
    if key == name && value != "" then some value else none

def gatewayToken (headers : HeaderMap) (tokenHeader : String) : Option String :=
  let bearer := eqIgnoreAsciiCase tokenHeader "authorization"
  let configured := ((headers.text tokenHeader).filter (· != "")).bind fun value =>
    if bearer then bearerValue value else some value
  configured.or (if bearer then cookieValue headers "authguard_token" else none)

end

/-! Claims. -/

def readGroups (value : Option Json) : Except IdentityError (List String) := do
  let values ← match value with
    | none | some .null => .ok []
    | some (.string value) => .ok [value]
    | some (.array values) =>
        match Json.all Json.toStr values with
        | some values => .ok values
        | none => .error .invalidGroups
    | some _ => .error .invalidGroups
  if maxGroups < values.length ∨ maxGroupBytes < (values.map String.utf8ByteSize).sum then
    .error .tooLarge
  else if values.all validateCanonical then
    .ok (sortDedup values)
  else
    .error .invalidGroups

def readStringArray : Option Json → Except IdentityError (List String)
  | none | some .null => .ok []
  | some (.array values) =>
      match Json.all Json.toStr values with
      | some values => .ok values
      | none => .error .invalidJson
  | some _ => .error .invalidJson

def scalarClaim : Json → Option String
  | .string value => some value
  | .bool value => some (toString value)
  | .number value => some value.text
  | _ => none

def boundaryClaims : List String :=
  ["iss", "sub", "aud", "iat", "exp", "nbf", "jti", "provider", "access_token",
    "refresh_token", "authorization_code", "principal_id", "principal_kind",
    "authguard_group_ids", "acr", "amr", "authguardOrigin"]

def isBoundaryClaim (name : String) : Bool := boundaryClaims.contains name

/-- The claims that conditions and resource templates may refer to. -/
def scalarClaims (object : List (String × Json)) : List (String × String) :=
  (object.filter fun entry => !isBoundaryClaim entry.1).filterMap fun entry =>
    (scalarClaim entry.2).map fun value => (entry.1, value)

def AuthenticatedPrincipalContext.fromClaims (object : List (String × Json))
    (principalIdClaim kindClaim groupsClaim : String) :
    Except IdentityError AuthenticatedPrincipalContext :=
  match (object.lookup principalIdClaim).bind Json.toStr with
  | none => .error .missingPrincipalId
  | some principalId =>
      if !validateCanonical principalId then
        .error .missingPrincipalId
      else
        match ((object.lookup kindClaim).bind Json.toStr).bind parsePrincipalKind with
        | none => .error .invalidPrincipalKind
        | some kind => do
            let stableGroupIds ← readGroups (object.lookup groupsClaim)
            let scalars := scalarClaims object
            let bytes := (scalars.map fun entry =>
              entry.1.utf8ByteSize + entry.2.utf8ByteSize).sum
            if maxScalarClaimBytes < bytes then
              .error .tooLarge
            else
              let acr := (object.lookup "acr").bind Json.toStr
              let amr ← readStringArray (object.lookup "amr")
              let trustedClaims :=
                (SortedMap.ofList scalars).insert "mfa" (toString (amr.contains "mfa"))
              .ok { principalId, kind, stableGroupIds, trustedClaims, acr, amr }

section
variable [Wire]

def decodeBase64Url (text : String) : Option (List UInt8) :=
  (Wire.decodeNoPad text).or (Wire.decodePadded text)

def AuthenticatedPrincipalContext.fromVerifiedJwtWithClaims
    (token principalIdClaim kindClaim groupsClaim : String) :
    Except IdentityError AuthenticatedPrincipalContext :=
  match splitChar '.' token with
  | [_, encoded, _] =>
      if encoded = "" then
        .error .notJwt
      else
        match decodeBase64Url encoded with
        | none => .error .invalidBase64
        | some payload =>
            match (Wire.fromSlice payload).bind Json.asObject with
            | none => .error .invalidJson
            | some object => fromClaims object principalIdClaim kindClaim groupsClaim
  | _ => .error .notJwt

def AuthenticatedPrincipalContext.fromVerifiedJwt (token : String) :
    Except IdentityError AuthenticatedPrincipalContext :=
  fromVerifiedJwtWithClaims token "principal_id" "principal_kind" "authguard_group_ids"

def AuthenticatedPrincipalContext.fromGatewayHeaders (headers : HeaderMap)
    (tokenHeader principalIdClaim kindClaim groupsClaim : String) :
    Except IdentityError AuthenticatedPrincipalContext :=
  match gatewayToken headers tokenHeader with
  | none => .error .missing
  | some token => fromVerifiedJwtWithClaims token principalIdClaim kindClaim groupsClaim

end

end Authguard
