import Authguard.Common.Principal
import Authguard.Library.Json
import Authguard.Library.SortedMap
import Authguard.Library.Table
import Authguard.Library.Text

/-!
The principal tables (`migrations/001_init.ddl.sql`) and the statements the
repositories run on them. A database satisfies the constraints of its schema by
construction; a statement that would break one fails and changes nothing. Columns
of times are left out.
-/

namespace Authguard

/-- A row of `iam_principal`: `IamPrincipalInfo` with the fields only the API reads. -/
structure PrincipalRow extends IamPrincipalInfo where
  displayName : String
  authorizationState : SortedMap String Json

structure ExternalIdentityKey where
  provider : String
  issuer : String
  subject : String
  deriving DecidableEq

/-- A row of `iam_principal_identity`. -/
structure IamPrincipalIdentityInfo where
  principalId : String
  provider : String
  issuer : String
  subject : String
  claims : Json

def PrincipalRow.key (row : PrincipalRow) : String := row.id

def IamPrincipalIdentityInfo.key (row : IamPrincipalIdentityInfo) : ExternalIdentityKey :=
  ⟨row.provider, row.issuer, row.subject⟩

/-! The schema. -/

/-- `TRIM(value) <> ''`: SQL trims spaces only. -/
def sqlFilled (value : String) : Bool := value.toList.any (· ≠ ' ')

def PrincipalRow.checked (row : PrincipalRow) : Bool :=
  sqlFilled row.id && sqlFilled row.displayName

def IamPrincipalIdentityInfo.checked (row : IamPrincipalIdentityInfo) : Bool :=
  sqlFilled row.provider && sqlFilled row.issuer && sqlFilled row.subject

structure IamDatabase where
  principals : Table PrincipalRow String PrincipalRow.key
  identities : Table IamPrincipalIdentityInfo ExternalIdentityKey IamPrincipalIdentityInfo.key
  principals_checked : ∀ row ∈ principals.rows, row.checked
  identities_checked : ∀ row ∈ identities.rows, row.checked
  identities_principal : ∀ row ∈ identities.rows, (principals.find row.principalId).isSome

/-- The constraint a statement breaks. -/
inductive Violation
  | check
  | unique
  | foreignKey
  deriving DecidableEq

namespace IamDatabase

def empty : IamDatabase where
  principals := .empty
  identities := .empty
  principals_checked := fun _ h => absurd h List.not_mem_nil
  identities_checked := fun _ h => absurd h List.not_mem_nil
  identities_principal := fun _ h => absurd h List.not_mem_nil

/-! Statements. -/

/-- `INSERT INTO iam_principal`. -/
def insertPrincipal (db : IamDatabase) (row : PrincipalRow) : Except Violation IamDatabase :=
  if hchecked : row.checked then
    match hinsert : db.principals.insert row with
    | none => .error .unique
    | some principals =>
        .ok
          { principals
            identities := db.identities
            principals_checked := by
              intro other hother
              obtain hother | rfl := (Table.mem_insert hinsert).mp hother
              · exact db.principals_checked other hother
              · exact hchecked
            identities_checked := db.identities_checked
            identities_principal := by
              intro other hother
              rw [Table.find_insert hinsert]
              split
              · rfl
              · exact db.identities_principal other hother }
  else
    .error .check

/-- `INSERT INTO iam_principal … ON CONFLICT(id) DO UPDATE`. -/
def upsertPrincipal (db : IamDatabase) (row : PrincipalRow) : Except Violation IamDatabase :=
  if hchecked : row.checked then
    .ok
      { principals := db.principals.upsert row
        identities := db.identities
        principals_checked := by
          intro other hother
          obtain rfl | hother := Table.mem_upsert hother
          · exact hchecked
          · exact db.principals_checked other hother
        identities_checked := db.identities_checked
        identities_principal := by
          intro other hother
          rw [Table.find_upsert]
          split
          · rfl
          · exact db.identities_principal other hother }
  else
    .error .check

/-- `UPDATE iam_principal SET status … WHERE id … RETURNING`. -/
def updateStatus (db : IamDatabase) (id : String) (status : PrincipalStatus) :
    Option (PrincipalRow × IamDatabase) :=
  match h : db.principals.find id with
  | none => none
  | some stored =>
      some
        ({ stored with status },
          { principals := db.principals.upsert { stored with status }
            identities := db.identities
            principals_checked := by
              intro other hother
              obtain rfl | hother := Table.mem_upsert hother
              · exact db.principals_checked stored (Table.find_eq_some.mp h).1
              · exact db.principals_checked other hother
            identities_checked := db.identities_checked
            identities_principal := by
              intro other hother
              rw [Table.find_upsert]
              split
              · rfl
              · exact db.identities_principal other hother })

/-- `INSERT INTO iam_principal_identity`. -/
def insertIdentity (db : IamDatabase) (row : IamPrincipalIdentityInfo) :
    Except Violation IamDatabase :=
  if hchecked : row.checked then
    match hinsert : db.identities.insert row with
    | none => .error .unique
    | some identities =>
        if hprincipal : (db.principals.find row.principalId).isSome then
          .ok
            { principals := db.principals
              identities
              principals_checked := db.principals_checked
              identities_checked := by
                intro other hother
                obtain hother | rfl := (Table.mem_insert hinsert).mp hother
                · exact db.identities_checked other hother
                · exact hchecked
              identities_principal := by
                intro other hother
                obtain hother | rfl := (Table.mem_insert hinsert).mp hother
                · exact db.identities_principal other hother
                · exact hprincipal }
        else
          .error .foreignKey
  else
    .error .check

/-- `UPDATE iam_principal_identity SET claims` of a row that is there. -/
def updateClaims (db : IamDatabase) (row : IamPrincipalIdentityInfo)
    (hrow : row ∈ db.identities.rows) (claims : Json) : IamDatabase where
  principals := db.principals
  identities := db.identities.upsert { row with claims }
  principals_checked := db.principals_checked
  identities_checked := by
    intro other hother
    obtain rfl | hother := Table.mem_upsert hother
    · exact db.identities_checked row hrow
    · exact db.identities_checked other hother
  identities_principal := by
    intro other hother
    obtain rfl | hother := Table.mem_upsert hother
    · exact db.identities_principal row hrow
    · exact db.identities_principal other hother

/-- `INSERT INTO iam_principal_identity … ON CONFLICT(provider, issuer, subject) DO UPDATE SET
claims … WHERE principal_id = excluded.principal_id`, with the number of rows it affects. -/
def upsertIdentity (db : IamDatabase) (row : IamPrincipalIdentityInfo) :
    Except Violation (IamDatabase × Nat) :=
  if row.checked then
    match h : db.identities.find row.key with
    | none => (db.insertIdentity row).map (·, 1)
    | some stored =>
        if stored.principalId = row.principalId then
          .ok (db.updateClaims stored (Table.find_eq_some.mp h).1 row.claims, 1)
        else
          .ok (db, 0)
  else
    .error .check

/-- `DELETE FROM iam_principal_identity WHERE principal_id … AND provider … AND issuer … AND
subject …`. -/
def deleteIdentity (db : IamDatabase) (principalId : String) (key : ExternalIdentityKey) :
    IamDatabase where
  principals := db.principals
  identities := db.identities.filter fun row => !(row.principalId = principalId ∧ row.key = key)
  principals_checked := db.principals_checked
  identities_checked := fun row hrow => db.identities_checked row (List.mem_filter.mp hrow).1
  identities_principal := fun row hrow => db.identities_principal row (List.mem_filter.mp hrow).1

/-- `DELETE FROM iam_principal WHERE id … AND NOT EXISTS (…)`. -/
def deleteUnbound (db : IamDatabase) (principalId : String) : IamDatabase :=
  if hbound : ∃ row ∈ db.identities.rows, row.principalId = principalId then
    db
  else
    { principals := db.principals.filter fun row => row.id ≠ principalId
      identities := db.identities
      principals_checked := fun row hrow => db.principals_checked row (List.mem_filter.mp hrow).1
      identities_checked := db.identities_checked
      identities_principal := by
        intro row hrow
        obtain ⟨principal, hprincipal⟩ :=
          Option.isSome_iff_exists.mp (db.identities_principal row hrow)
        have hkept : principal.id ≠ principalId := fun heq =>
          hbound ⟨row, hrow, (Table.find_eq_some.mp hprincipal).2 ▸ heq⟩
        rw [Table.find_filter, hprincipal, Option.filter_some, if_pos (decide_eq_true hkept)]
        rfl }

/-- The join of a binding with its principal. -/
def findPrincipalByIdentity (db : IamDatabase) (key : ExternalIdentityKey) :
    Option PrincipalRow :=
  (db.identities.find key).bind fun identity => db.principals.find identity.principalId

/-! What the statements do to the tables. -/

theorem insertPrincipal_eq_ok {db after : IamDatabase} {row : PrincipalRow}
    (h : db.insertPrincipal row = .ok after) :
    db.principals.insert row = some after.principals ∧ after.identities = db.identities := by
  simp only [insertPrincipal] at h
  split at h
  · split at h
    · cases h
    · rename_i principals hinsert
      cases h
      exact ⟨hinsert, rfl⟩
  · cases h

theorem upsertPrincipal_eq_ok {db after : IamDatabase} {row : PrincipalRow}
    (h : db.upsertPrincipal row = .ok after) :
    after.principals = db.principals.upsert row ∧ after.identities = db.identities := by
  simp only [upsertPrincipal] at h
  split at h
  · cases h
    exact ⟨rfl, rfl⟩
  · cases h

theorem insertIdentity_eq_ok {db after : IamDatabase} {row : IamPrincipalIdentityInfo}
    (h : db.insertIdentity row = .ok after) :
    db.identities.insert row = some after.identities ∧ after.principals = db.principals := by
  simp only [insertIdentity] at h
  split at h
  · split at h
    · cases h
    · rename_i identities hinsert
      split at h
      · cases h
        exact ⟨hinsert, rfl⟩
      · cases h
  · cases h

theorem upsertIdentity_principals {db after : IamDatabase} {row : IamPrincipalIdentityInfo}
    {affected : Nat} (h : db.upsertIdentity row = .ok (after, affected)) :
    after.principals = db.principals := by
  simp only [upsertIdentity] at h
  split at h
  · split at h
    · cases hinsert : db.insertIdentity row with
      | error violation =>
          rw [hinsert] at h
          cases h
      | ok inserted =>
          rw [hinsert] at h
          cases h
          exact (insertIdentity_eq_ok hinsert).2
    · split at h
      · cases h
        rfl
      · cases h
        rfl
  · cases h

/-- A binding that is written is the row under its key. -/
theorem upsertIdentity_eq_ok {db after : IamDatabase} {row : IamPrincipalIdentityInfo}
    (h : db.upsertIdentity row = .ok (after, 1)) (key : ExternalIdentityKey) :
    after.identities.find key = if key = row.key then some row else db.identities.find key := by
  simp only [upsertIdentity] at h
  split at h
  · split at h
    · cases hinsert : db.insertIdentity row with
      | error violation =>
          rw [hinsert] at h
          cases h
      | ok inserted =>
          rw [hinsert] at h
          cases h
          exact Table.find_insert (insertIdentity_eq_ok hinsert).1 key
    · rename_i stored hstored
      split at h
      · rename_i hprincipal
        have hkey : stored.key = row.key := (Table.find_eq_some.mp hstored).2
        have hrow : { stored with claims := row.claims } = row := by
          cases stored
          cases row
          cases hkey
          cases hprincipal
          rfl
        cases h
        simp only [updateClaims, hrow]
        exact Table.find_upsert db.identities row key
      · cases h
  · cases h

end IamDatabase

/-! Calls. -/

inductive Backend
  | sqlite
  | postgres
  deriving DecidableEq

/-- How the database takes a call. A lookup that several rows match answers with any one
of them; a failure leaves the database as it was, or comes after the commit. -/
inductive StoreOutcome
  | answered (row : Nat)
  | failed (message : String)
  | lost (message : String)

section
variable {ε α : Type} (db : IamDatabase) (lift : String → ε)

def readCall (answer : α) : StoreOutcome → Except ε α × IamDatabase
  | .answered _ => (.ok answer, db)
  | .failed message | .lost message => (.error (lift message), db)

/-- A transaction that the outcome lets through, stops or loses. -/
def writeCall (transaction : Except ε (α × IamDatabase)) :
    StoreOutcome → Except ε α × IamDatabase
  | .answered _ =>
      match transaction with
      | .ok (answer, after) => (.ok answer, after)
      | .error error => (.error error, db)
  | .failed message => (.error (lift message), db)
  | .lost message =>
      match transaction with
      | .ok (_, after) => (.error (lift message), after)
      | .error error => (.error error, db)

variable {db lift}

theorem readCall_cases {value : α} {outcome : StoreOutcome} {answer : Except ε α}
    {after : IamDatabase} (h : readCall db lift value outcome = (answer, after)) :
    after = db ∧ (answer = .ok value ∨ ∃ error, answer = .error error) := by
  cases outcome with
  | answered row => cases h; exact ⟨rfl, .inl rfl⟩
  | failed message | lost message => cases h; exact ⟨rfl, .inr ⟨lift message, rfl⟩⟩

/-- A write either changes nothing and fails, or is the transaction, whatever is answered. -/
theorem writeCall_cases {transaction : Except ε (α × IamDatabase)} {outcome : StoreOutcome}
    {answer : Except ε α} {after : IamDatabase}
    (h : writeCall db lift transaction outcome = (answer, after)) :
    (after = db ∧ ∃ error, answer = .error error) ∨
      ∃ value, transaction = .ok (value, after) ∧
        (answer = .ok value ∨ ∃ error, answer = .error error) := by
  cases outcome with
  | answered row =>
      cases transaction with
      | ok written => cases h; exact .inr ⟨written.1, rfl, .inl rfl⟩
      | error error => cases h; exact .inl ⟨rfl, error, rfl⟩
  | failed message => cases h; exact .inl ⟨rfl, lift message, rfl⟩
  | lost message =>
      cases transaction with
      | ok written => cases h; exact .inr ⟨written.1, rfl, .inr ⟨lift message, rfl⟩⟩
      | error error => cases h; exact .inl ⟨rfl, error, rfl⟩

end

end Authguard
