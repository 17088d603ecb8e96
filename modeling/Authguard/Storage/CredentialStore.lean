import Authguard.Storage.PrincipalStore

/-!
The standalone credentials (`common/src/storage/authn/credential_sqlite.rs`,
`credential_postgres.rs`). The counter of a TOTP credential is a field of its
JSON data; it is read and written inside one statement, in the words of either
database.
-/

namespace Authguard

inductive StandaloneCredentialKind
  | password
  | totp
  | webauthn
  deriving DecidableEq

structure IamStandaloneCredential where
  id : String
  identity : ExternalIdentityKey
  kind : StandaloneCredentialKind
  credentialKey : Option String
  secretData : Option String
  credentialData : Option Json

/-- A row of `iam_standalone_credential`. -/
structure CredentialRow extends IamStandaloneCredential where
  createdAt : Nat
  revoked : Bool

def CredentialRow.key (row : CredentialRow) : String := row.id

abbrev CredentialTable := Table CredentialRow String CredentialRow.key

inductive CredentialRepositoryError
  | keyConflict
  | backend (message : String)
  deriving DecidableEq

/-! The schema. -/

def IamStandaloneCredential.checked (credential : IamStandaloneCredential) : Bool :=
  sqlFilled credential.id && credential.identity.provider = "standalone" &&
    sqlFilled credential.identity.issuer && sqlFilled credential.identity.subject &&
    match credential.kind with
    | .password | .totp => credential.secretData.isSome
    | .webauthn => credential.credentialKey.isSome && credential.credentialData.isSome

/-- The partial unique index on `(kind, credential_key)`. -/
def keyTaken (table : CredentialTable) (credential : IamStandaloneCredential) : Bool :=
  credential.credentialKey.isSome &&
    table.rows.any fun row =>
      row.kind = credential.kind ∧ row.credentialKey = credential.credentialKey ∧ !row.revoked

/-! Statements. -/

namespace CredentialTable

/-- The rows `find_by_key` selects. -/
def byKey (table : CredentialTable) (issuer : String) (kind : StandaloneCredentialKind)
    (credentialKey : String) : Option CredentialRow :=
  table.rows.find? fun row =>
    row.identity.provider = "standalone" ∧ row.identity.issuer = issuer ∧ row.kind = kind ∧
      row.credentialKey = some credentialKey ∧ !row.revoked

/-- `ORDER BY created_at, id`. -/
def listByIdentity (table : CredentialTable) (identity : ExternalIdentityKey)
    (kind : StandaloneCredentialKind) : List CredentialRow :=
  (table.rows.filter fun row =>
    row.identity = identity ∧ row.kind = kind ∧ !row.revoked).insertionSort fun row other =>
      row.createdAt < other.createdAt ∨ (row.createdAt = other.createdAt ∧ row.id ≤ other.id)

/-- `INSERT INTO iam_standalone_credential`; the text of a broken constraint is left out. -/
def createCredential (table : CredentialTable) (iam : IamDatabase) (now : Nat)
    (credential : IamStandaloneCredential) : Except CredentialRepositoryError CredentialTable :=
  if credential.checked then
    if keyTaken table credential then
      .error .keyConflict
    else
      match table.insert { credential with createdAt := now, revoked := false } with
      | none => .error .keyConflict
      | some created =>
          if (iam.identities.find credential.identity).isSome then .ok created
          else .error (.backend "")
  else
    .error (.backend "")

end CredentialTable

/-! The counter. -/

/-- What the databases make of a `lastCounter` that is no unsigned integer; `none` where the
statement fails. -/
class SqlJson where
  castCounter : Backend → Json → Option Int

/-- The left side of the comparison: `CAST(JSON_EXTRACT(…) AS INTEGER)` takes an integer
beyond the range for the largest one, `::bigint` fails on it. -/
def lastCounter [SqlJson] (backend : Backend) (data : Option Json) : Option Int :=
  match (data.bind Json.asObject).bind (·.lookup "lastCounter") with
  | none | some .null => some (-1)
  | some (.number value) =>
      match value.asU64 with
      | none => SqlJson.castCounter backend (.number value)
      | some counter =>
          if counter < 2 ^ 63 then some counter
          else
            match backend with
            | .sqlite => some (2 ^ 63 - 1)
            | .postgres => none
  | some other => SqlJson.castCounter backend other

/-- `JSON_SET` leaves a value that is no object as it is; `JSONB_SET` fails on it. -/
def setCounter (backend : Backend) (counter : Nat) : Option Json → Option Json
  | none => some (.object [("lastCounter", .ofNat counter)])
  | some (.object fields) => some (.object (Json.setField "lastCounter" (.ofNat counter) fields))
  | some other =>
      match backend with
      | .sqlite => some other
      | .postgres => none

/-- The `UPDATE`, and whether it affected a row. -/
def CredentialTable.advanceTotpCounter [SqlJson] (table : CredentialTable) (backend : Backend)
    (credentialId : String) (counter : Nat) :
    Except CredentialRepositoryError (Bool × CredentialTable) :=
  if 2 ^ 63 ≤ counter then
    .error (.backend "TOTP counter is out of range")
  else
    match table.find credentialId with
    | none => .ok (false, table)
    | some row =>
        if row.kind ≠ .totp ∨ row.revoked then
          .ok (false, table)
        else
          match lastCounter backend row.credentialData with
          | none => .error (.backend "")
          | some last =>
              if last < counter then
                match setCounter backend counter row.credentialData with
                | none => .error (.backend "")
                | some data => .ok (true, table.upsert { row with credentialData := some data })
              else
                .ok (false, table)

/-! The data of a passkey. -/

/-- How a database compares documents: SQLite by their minified texts, PostgreSQL as `jsonb`. -/
class SqlJsonEquality where
  same : Backend → Json → Json → Bool

/-- The table after the `UPDATE`, where it affects a row. -/
def CredentialTable.compareAndSwapCredentialData [SqlJsonEquality] (table : CredentialTable)
    (backend : Backend) (credentialId : String) (currentData credentialData : Json) :
    Option CredentialTable :=
  match table.find credentialId with
  | none => none
  | some row =>
      if row.revoked then
        none
      else
        match row.credentialData with
        | none => none
        | some stored =>
            if SqlJsonEquality.same backend stored currentData then
              some (table.upsert { row with credentialData := some credentialData })
            else
              none

end Authguard
