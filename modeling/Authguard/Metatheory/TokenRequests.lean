import Authguard.Authn.TokenRequest

/-!
The templates of a token request. The placeholders are replaced one after the other, in
the order of their names, so a value that is inserted early is searched for the
placeholders that come later.
-/

namespace Authguard
open Replacement

namespace OAuthLikeCallback

/-- The placeholders with their values, as characters. -/
def table (callback : OAuthLikeCallback) : List (List Char × List Char) :=
  callback.templateVariables.entries.map fun (name, value) =>
    ((placeholder name).toList, value.toList)

/-- The order of the names decides the order of the replacements. -/
theorem templateVariables_entries (callback : OAuthLikeCallback) :
    callback.templateVariables.entries =
      [("authorizationCode", callback.authorizationCode), ("clientId", callback.clientId),
        ("clientSecret", callback.clientSecret), ("redirectUri", callback.redirectUri)] := by
  have hsecret : ¬"clientSecret" < "clientId" := by decide
  have hcode : "authorizationCode" < "clientId" := by decide
  have huri : ¬"redirectUri" < "authorizationCode" ∧ ¬"redirectUri" < "clientId" ∧
      ¬"redirectUri" < "clientSecret" := by
    decide
  simp [templateVariables, SortedMap.ofList, SortedMap.insert, SortedMap.insertEntry,
    SortedMap.empty, hsecret, hcode, huri]

theorem table_marks (callback : OAuthLikeCallback) :
    callback.table.map Prod.fst =
      ["authorizationCode", "clientId", "clientSecret", "redirectUri"].map
        fun name => (placeholder name).toList := by
  rw [table, templateVariables_entries]
  rfl

theorem table_marks_ne_nil (callback : OAuthLikeCallback) :
    ∀ mark ∈ callback.table.map Prod.fst, mark ≠ [] := by
  rw [table_marks]
  decide

theorem table_marks_nodup (callback : OAuthLikeCallback) :
    (callback.table.map Prod.fst).Nodup := by
  rw [table_marks]
  decide

/-- The four placeholders of the template, all at once. -/
def substituteTemplate (callback : OAuthLikeCallback) (template : String) : String :=
  String.ofList (substitute callback.table template.toList)

def substituteMap (callback : OAuthLikeCallback) (values : SortedMap String String) :
    SortedMap String String :=
  SortedMap.ofList (values.entries.map fun (name, template) =>
    (name, callback.substituteTemplate template))

end OAuthLikeCallback

/-- The replacements on texts are those on characters. -/
theorem foldl_replaceText (replacements : List (String × String)) (template : String) :
    replacements.foldl
        (fun value (name, replacement) => replaceText (placeholder name) replacement value)
        template =
      String.ofList (replaceEach
        (replacements.map fun (name, value) => ((placeholder name).toList, value.toList))
        template.toList) := by
  induction replacements generalizing template with
  | nil => simp [replaceEach]
  | cons entry replacements ih =>
      obtain ⟨name, value⟩ := entry
      rw [List.foldl_cons, ih]
      simp only [replaceText, String.toList_ofList, List.map_cons, replaceEach, List.foldl_cons]

/-- All templates the configuration has for the request. -/
def TokenEndpointProperties.templates (properties : TokenEndpointProperties) : List String :=
  (properties.headers.entries ++ properties.query.entries ++ properties.body.entries).map Prod.snd

theorem renderMap_eq_substituteMap (callback : OAuthLikeCallback) {values : SortedMap String String}
    (h : ∀ entry ∈ values.entries, Separate callback.table entry.2.toList) :
    renderMap values callback.templateVariables = callback.substituteMap values := by
  rw [renderMap, OAuthLikeCallback.substituteMap]
  congr 1
  apply List.map_congr_left
  rintro ⟨name, template⟩ hentry
  simp only [Prod.mk.injEq, true_and]
  rw [foldl_replaceText, OAuthLikeCallback.substituteTemplate, ← OAuthLikeCallback.table,
    replaceEach_eq_substitute callback.table_marks_ne_nil callback.table_marks_nodup
      (h _ hentry)]

/-- The request is the configured one with its placeholders filled in at once, and no
replacement touched inserted text. -/
structure FilledInOneStep (properties : TokenEndpointProperties) (callback : OAuthLikeCallback)
    (clientIdParameter clientSecretParameter : String) : Prop where
  request : properties.tokenRequest callback clientIdParameter clientSecretParameter =
    properties.complete callback clientIdParameter clientSecretParameter
      (callback.substituteMap properties.headers) (callback.substituteMap properties.query)
      (callback.substituteMap properties.body)
  untouched : ∀ template ∈ properties.templates, NeverRescans callback.table template.toList

/-- This is so exactly when no earlier value, where it stands in a template, makes up a later
placeholder with what is around it. -/
theorem tokenRequest_one_step_iff (properties : TokenEndpointProperties)
    (callback : OAuthLikeCallback) (clientIdParameter clientSecretParameter : String) :
    FilledInOneStep properties callback clientIdParameter clientSecretParameter ↔
      ∀ template ∈ properties.templates, Separate callback.table template.toList := by
  constructor
  · intro h template hmem
    exact (neverRescans_iff callback.table_marks_ne_nil callback.table_marks_nodup).mp
      (h.untouched template hmem)
  · intro h
    have hentries : ∀ entry ∈ properties.headers.entries ++ properties.query.entries ++
        properties.body.entries, Separate callback.table entry.2.toList :=
      fun entry hentry => h entry.2 (List.mem_map_of_mem hentry)
    refine ⟨?_, fun template hmem => ?_⟩
    · rw [TokenEndpointProperties.tokenRequest]
      rw [renderMap_eq_substituteMap callback fun entry hentry => hentries entry (by simp [hentry]),
        renderMap_eq_substituteMap callback fun entry hentry => hentries entry (by simp [hentry]),
        renderMap_eq_substituteMap callback fun entry hentry => hentries entry (by simp [hentry])]
    · exact (neverRescans_iff callback.table_marks_ne_nil callback.table_marks_nodup).mpr
        (h template hmem)

namespace EchoedCode

/-- The configuration names the secret in one parameter and the code in another. -/
def properties : TokenEndpointProperties where
  endpoint := "https://idp.example.com/token"
  method := .post
  clientCredentials := .none
  headers := .empty
  query := .empty
  body := SortedMap.ofList
    [("code", "$\x7bauthorizationCode\x7d"), ("client_secret", "$\x7bclientSecret\x7d")]

def callback : OAuthLikeCallback where
  authorizationCode := "$\x7bclientSecret\x7d"
  redirectUri := "https://app.example.com/callback"
  clientId := "app"
  clientSecret := "s3cret"
  nonce := none
  pkceVerifier := none

/-- A code that spells a placeholder puts the secret in the place of the code. -/
theorem secret_in_code_parameter :
    (properties.tokenRequest callback "client_id" "client_secret").body.get "code" =
        some "s3cret" ∧
      (callback.substituteMap properties.body).get "code" = some "$\x7bclientSecret\x7d" ∧
      ¬FilledInOneStep properties callback "client_id" "client_secret" := by
  have hcode : (properties.tokenRequest callback "client_id" "client_secret").body.get "code" =
      some "s3cret" := by
    decide +kernel
  have honce : (callback.substituteMap properties.body).get "code" =
      some "$\x7bclientSecret\x7d" := by
    decide +kernel
  refine ⟨hcode, honce, fun h => ?_⟩
  have hbody := congrArg (fun request => request.body.get "code") h.request
  rw [hcode] at hbody
  revert hbody
  decide +kernel

end EchoedCode

end Authguard
