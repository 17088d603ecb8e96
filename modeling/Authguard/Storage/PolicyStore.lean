import Mathlib
import Authguard.Storage.Codec

/-!
The policy tables and the repository over them (`migrations/001_init.ddl.sql`,
`common/src/storage/authz/role_sqlite.rs` and `role_postgres.rs`). A statement
that violates a constraint fails, and the transaction with it. Both backends run
the same statements; what differs between them is the parameter `Database`.
-/

namespace Authguard
open Json Result

/-- A database backend: how a JSON column holds a document, its LIKE, and the order of
its text collation. -/
class Database where
  Cell : Type
  encode : Json → Cell
  decode : Cell → Option Json
  like : String → String → Bool
  le : String → String → Bool

inductive RepositoryError
  | constraint (table rule : String)
  | bindingInsert (bindingId principalId : String) (cause : RepositoryError)
  | decode (context : String)
  | unsupportedEffect (value : String)
  deriving DecidableEq

variable [Database]

structure ActionRow where
  identifier : String
  description : String
  routeMatchers : Database.Cell

structure RoleRow where
  id : String
  name : String
  description : String
  deriving DecidableEq

structure RoleActionRow where
  roleId : String
  actionIdentifier : String
  deriving DecidableEq

structure RoleBindingRow where
  id : String
  principalId : String
  roleId : String
  effect : String
  resourceUrn : String
  conditions : Database.Cell

/-- The tables a policy touches; of `iam_principal` only the keys are referenced. -/
structure Tables where
  principalIds : List String
  actions : List ActionRow
  roles : List RoleRow
  roleActions : List RoleActionRow
  roleBindings : List RoleBindingRow

/-- `TRIM(value) = ''`; TRIM removes spaces only. -/
def sqlBlank (value : String) : Bool := value.toList.all (· == ' ')

def sqlTrim (value : String) : String :=
  String.ofList
    ((value.toList.dropWhile (· == ' ')).reverse.dropWhile (· == ' ')).reverse

/-- A row is refused for the first rule it breaks. -/
def enforce (table : String) : List (String × Bool) → Except RepositoryError Unit
  | [] => .ok ()
  | (rule, holds) :: rules =>
      if holds then enforce table rules else .error (.constraint table rule)

def insertAction (tables : Tables) (action : IamActionInfo) : Except RepositoryError Tables := do
  enforce "iam_action"
    [("CHECK (TRIM(identifier) <> '')", !sqlBlank action.identifier),
      ("PRIMARY KEY (identifier)", tables.actions.all (·.identifier != action.identifier))]
  .ok { tables with
    actions := tables.actions ++
      [⟨action.identifier, action.description,
        Database.encode (.array (action.routeMatchers.map HttpRouteMatcher.toJson))⟩] }

def insertRoleAction (roleId : String) (tables : Tables) (identifier : String) :
    Except RepositoryError Tables := do
  enforce "iam_role_action"
    [("PRIMARY KEY (role_id, action_identifier)",
        !tables.roleActions.contains ⟨roleId, identifier⟩),
      ("FOREIGN KEY (role_id)", tables.roles.any (·.id == roleId)),
      ("FOREIGN KEY (action_identifier)", tables.actions.any (·.identifier == identifier))]
  .ok { tables with roleActions := tables.roleActions ++ [⟨roleId, identifier⟩] }

def insertRole (tables : Tables) (role : IamRoleInfo) : Except RepositoryError Tables := do
  enforce "iam_role"
    [("CHECK (TRIM(id) <> '')", !sqlBlank role.id),
      ("CHECK (TRIM(name) <> '')", !sqlBlank role.name),
      ("PRIMARY KEY (id)", tables.roles.all (·.id != role.id)),
      ("UNIQUE (name)", tables.roles.all (·.name != role.name))]
  role.actionIds.foldlM (insertRoleAction role.id)
    { tables with roles := tables.roles ++ [⟨role.id, role.name, role.description⟩] }

def insertBinding (tables : Tables) (binding : IamRoleBindingInfo) :
    Except RepositoryError Tables := do
  (enforce "iam_role_binding"
    [("CHECK (TRIM(id) <> '')", !sqlBlank binding.id),
      ("CHECK (effect IN ('ALLOW', 'DENY'))", ["ALLOW", "DENY"].contains binding.effect.asStr),
      ("CHECK (TRIM(resource_urn) LIKE 'urn:iam:%')",
        Database.like "urn:iam:%" (sqlTrim binding.resourceUrn)),
      ("PRIMARY KEY (id)", tables.roleBindings.all (·.id != binding.id)),
      ("REFERENCES iam_principal(id)", tables.principalIds.contains binding.principalId),
      ("FOREIGN KEY (role_id)", tables.roles.any (·.id == binding.roleId))]).mapError
    (.bindingInsert binding.id binding.principalId)
  .ok { tables with
    roleBindings := tables.roleBindings ++
      [⟨binding.id, binding.principalId, binding.roleId, binding.effect.asStr,
        binding.resourceUrn, Database.encode binding.conditions.toJson⟩] }

def deleteRoleBindings (tables : Tables) : Tables := { tables with roleBindings := [] }

def deleteRoleActions (tables : Tables) : Tables := { tables with roleActions := [] }

/-- Bindings restrict the deletion of their role; grants follow their role. -/
def deleteRoles (tables : Tables) : Except RepositoryError Tables := do
  enforce "iam_role_binding"
    [("FOREIGN KEY (role_id)",
      tables.roleBindings.all fun binding => !tables.roles.any (·.id == binding.roleId))]
  .ok { tables with
    roles := []
    roleActions := tables.roleActions.filter fun grant => !tables.roles.any (·.id == grant.roleId) }

def deleteActions (tables : Tables) : Except RepositoryError Tables := do
  enforce "iam_role_action"
    [("FOREIGN KEY (action_identifier)",
      tables.roleActions.all fun grant =>
        !tables.actions.any (·.identifier == grant.actionIdentifier))]
  .ok { tables with actions := [] }

/-- The transaction of `replace`: the tables it leaves when it commits. -/
def PolicyRepository.replace (tables : Tables) (policy : IamPolicyInfo) : Except RepositoryError Tables := do
  let tables := deleteRoleActions (deleteRoleBindings tables)
  let tables ← deleteRoles tables
  let tables ← deleteActions tables
  let tables ← policy.actions.foldlM insertAction tables
  let tables ← policy.roles.foldlM insertRole tables
  policy.roleBindings.foldlM insertBinding tables

/-! Loading. -/

def orElse {α : Type} (value : Option α) (error : RepositoryError) :
    Except RepositoryError α :=
  match value with
  | none => .error error
  | some value => .ok value

def ActionRow.tryIntoModel (row : ActionRow) : Except RepositoryError IamActionInfo := do
  let routeMatchers ← orElse
    ((Database.decode row.routeMatchers).bind (toList HttpRouteMatcher.fromJson))
    (.decode "decode IAM action route matchers")
  .ok { identifier := row.identifier, description := row.description, routeMatchers }

def effectFromStr : String → Except RepositoryError Effect
  | "ALLOW" => .ok .allow
  | "DENY" => .ok .deny
  | value => .error (.unsupportedEffect value)

def RoleBindingRow.tryIntoModel (row : RoleBindingRow) :
    Except RepositoryError IamRoleBindingInfo := do
  let effect ← effectFromStr row.effect
  let conditions ← orElse
    ((Database.decode row.conditions).bind AuthorizationConditionSpec.fromJson)
    (.decode "decode IAM role binding conditions")
  .ok { id := row.id, principalId := row.principalId, roleId := row.roleId, effect,
        resourceUrn := row.resourceUrn, conditions }

structure RoleWithAction where
  roleId : String
  roleName : String
  roleDescription : String
  actionIdentifier : Option String
  deriving DecidableEq

def RoleRow.joined (role : RoleRow) (actionIdentifier : Option String) : RoleWithAction where
  roleId := role.id
  roleName := role.name
  roleDescription := role.description
  actionIdentifier := actionIdentifier

/-- The rows of the LEFT JOIN for one role. -/
def leftJoin (granted : List String) (role : RoleRow) : List RoleWithAction :=
  if granted = [] then [role.joined none] else granted.map fun id => role.joined (some id)

def grantedTo (roleActions : List RoleActionRow) (roleId : String) : List String :=
  (roleActions.filter (·.roleId == roleId)).map (·.actionIdentifier)

/-- A NULL is alone in its role, so its place in the order is never asked for. -/
def identifierLe : Option String → Option String → Bool
  | none, _ => true
  | some _, none => false
  | some first, some second => Database.le first second

/-- `ORDER BY r.id, ra.action_identifier`. -/
def recordLe (first second : RoleWithAction) : Bool :=
  if first.roleId = second.roleId then
    identifierLe first.actionIdentifier second.actionIdentifier
  else
    Database.le first.roleId second.roleId

def pushAction (roles : List IamRoleInfo) (identifier : String) : List IamRoleInfo :=
  match roles.getLast? with
  | none => roles
  | some role =>
      roles.dropLast ++ [{ role with actionIds := role.actionIds ++ [identifier] }]

/-- One record of the loop that groups the joined rows. -/
def groupRecord (roles : List IamRoleInfo) (record : RoleWithAction) : List IamRoleInfo :=
  let roles :=
    if roles.getLast?.all (·.id != record.roleId) then
      roles ++ [{ id := record.roleId, name := record.roleName,
                  description := record.roleDescription, actionIds := [] }]
    else
      roles
  match record.actionIdentifier with
  | none => roles
  | some identifier => pushAction roles identifier

def loadActions (tables : Tables) : Except RepositoryError (List IamActionInfo) :=
  collect ActionRow.tryIntoModel
    (tables.actions.insertionSort fun a b => Database.le a.identifier b.identifier = true)

def loadRoles (tables : Tables) : List IamRoleInfo :=
  let records := tables.roles.flatMap fun role =>
    leftJoin (grantedTo tables.roleActions role.id) role
  (records.insertionSort fun a b => recordLe a b = true).foldl groupRecord []

def loadBindings (tables : Tables) : Except RepositoryError (List IamRoleBindingInfo) :=
  collect RoleBindingRow.tryIntoModel
    (tables.roleBindings.insertionSort fun a b => Database.le a.id b.id = true)

def PolicyRepository.load (tables : Tables) : Except RepositoryError IamPolicyInfo := do
  let actions ← loadActions tables
  let roleBindings ← loadBindings tables
  .ok { revision := 1, actions, roles := loadRoles tables, roleBindings }

end Authguard
