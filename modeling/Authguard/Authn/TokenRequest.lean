import Authguard.Library.Base64Url
import Authguard.Library.Replacement
import Authguard.Library.SortedMap

/-!
The token request of an OAuth-like provider (`authn/src/provider/base/oauth2_like.rs`).
Headers, query and body are templates of the configuration; what they do not say is
added as a standard authorization-code request says it.
-/

namespace Authguard

structure OAuthLikeCallback where
  authorizationCode : String
  redirectUri : String
  clientId : String
  clientSecret : String
  nonce : Option String
  pkceVerifier : Option String

inductive HttpMethod
  | get
  | post
  deriving DecidableEq, Repr

inductive ClientCredentialPlacement
  | body
  | query
  | basic
  | none
  deriving DecidableEq, Repr

structure TokenEndpointProperties where
  endpoint : String
  method : HttpMethod
  clientCredentials : ClientCredentialPlacement
  headers : SortedMap String String
  query : SortedMap String String
  body : SortedMap String String

structure TokenExchangeRequest where
  endpoint : String
  method : HttpMethod
  headers : SortedMap String String
  query : SortedMap String String
  body : SortedMap String String
  deriving DecidableEq

/-- `str::replace`. -/
def replaceText (mark value text : String) : String :=
  String.ofList (Replacement.replaceAll mark.toList value.toList text.toList)

def placeholder (name : String) : String := "$\x7b" ++ name ++ "\x7d"

def renderMap (values replacements : SortedMap String String) : SortedMap String String :=
  SortedMap.ofList (values.entries.map fun (name, template) =>
    (name, replacements.entries.foldl
      (fun value (name, replacement) => replaceText (placeholder name) replacement value) template))

def hasExplicitClientCredentials (properties : TokenEndpointProperties) : Bool :=
  (properties.headers.entries ++ properties.query.entries ++ properties.body.entries).any
    fun (_, value) =>
      decide ((placeholder "clientId").toList <:+: value.toList) ||
        decide ((placeholder "clientSecret").toList <:+: value.toList)

/-- Base64 with the standard alphabet and padding. -/
def standardEncode (text : String) : String :=
  let digits := (Base64Url.encodeDigits text.toUTF8.toList).map fun value =>
    if value = 62 then '+' else if value = 63 then '/' else Base64Url.digit value
  String.ofList (digits ++ List.replicate ((4 - digits.length % 4) % 4) '=')

/-- What `token_request` does after rendering. -/
def TokenEndpointProperties.complete (properties : TokenEndpointProperties)
    (callback : OAuthLikeCallback) (clientIdParameter clientSecretParameter : String)
    (headers query body : SortedMap String String) : TokenExchangeRequest :=
  let body :=
    if properties.query.isEmpty && properties.body.isEmpty then
      ((body.insert "grant_type" "authorization_code").insert "code"
        callback.authorizationCode).insert "redirect_uri" callback.redirectUri
    else body
  let withCredentials (parameters : SortedMap String String) :=
    (parameters.insert clientIdParameter callback.clientId).insert clientSecretParameter
      callback.clientSecret
  let request : TokenExchangeRequest :=
    { endpoint := properties.endpoint, method := properties.method, headers, query, body }
  if hasExplicitClientCredentials properties then request
  else
    match properties.clientCredentials with
    | .body => { request with body := withCredentials body }
    | .query => { request with query := withCredentials query }
    | .basic =>
        let credentials := standardEncode (callback.clientId ++ ":" ++ callback.clientSecret)
        { request with headers := headers.insert "authorization" ("Basic " ++ credentials) }
    | .none => request

def OAuthLikeCallback.templateVariables (callback : OAuthLikeCallback) : SortedMap String String :=
  SortedMap.ofList
    [("clientId", callback.clientId), ("clientSecret", callback.clientSecret),
      ("authorizationCode", callback.authorizationCode), ("redirectUri", callback.redirectUri)]

def TokenEndpointProperties.tokenRequest (properties : TokenEndpointProperties)
    (callback : OAuthLikeCallback) (clientIdParameter clientSecretParameter : String) :
    TokenExchangeRequest :=
  properties.complete callback clientIdParameter clientSecretParameter
    (renderMap properties.headers callback.templateVariables)
    (renderMap properties.query callback.templateVariables)
    (renderMap properties.body callback.templateVariables)

end Authguard
