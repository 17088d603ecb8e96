import Authguard.Library.SqlMeaning
import Authguard.Storage.PolicyStore
import Authguard.Metatheory.PolicyScope
import Authguard.Metatheory.RouteResolution

/-!
Storing a policy and loading it again. A committed replacement leaves exactly the
rows of the policy, whatever was stored before; loading sorts them, rebuilds each
role from its joined rows, and so returns the policy up to order.
-/

namespace Authguard
open Json Result

/-- What is relied on of a backend: JSON documents come back as they were stored, and the
collation is a linear order. -/
class LawfulDatabase [Database] : Prop where
  decode_encode : ∀ json, Database.decode (Database.encode json) = some json
  le_total : ∀ a b, Database.le a b = true ∨ Database.le b a = true
  le_trans : ∀ a b c, Database.le a b = true → Database.le b c = true → Database.le a c = true
  le_antisymm : ∀ a b, Database.le a b = true → Database.le b a = true → a = b

section
variable [Database]

/-! The rows of a policy. -/

def actionRow (action : IamActionInfo) : ActionRow where
  identifier := action.identifier
  description := action.description
  routeMatchers :=
    Database.encode (.array (action.routeMatchers.map HttpRouteMatcher.toJson))

omit [Database] in
def roleRow (role : IamRoleInfo) : RoleRow := ⟨role.id, role.name, role.description⟩

omit [Database] in
def roleGrants (role : IamRoleInfo) : List RoleActionRow :=
  role.actionIds.map fun identifier => ⟨role.id, identifier⟩

def bindingRow (binding : IamRoleBindingInfo) : RoleBindingRow where
  id := binding.id
  principalId := binding.principalId
  roleId := binding.roleId
  effect := binding.effect.asStr
  resourceUrn := binding.resourceUrn
  conditions := Database.encode binding.conditions.toJson

def storedTables (principalIds : List String) (policy : IamPolicyInfo) : Tables where
  principalIds := principalIds
  actions := policy.actions.map actionRow
  roles := policy.roles.map roleRow
  roleActions := policy.roles.flatMap roleGrants
  roleBindings := policy.roleBindings.map bindingRow

def putActions (tables : Tables) (actions : List IamActionInfo) : Tables :=
  { tables with actions := tables.actions ++ actions.map actionRow }

def putGrants (roleId : String) (tables : Tables) (identifiers : List String) : Tables :=
  { tables with
    roleActions := tables.roleActions ++ identifiers.map fun identifier => ⟨roleId, identifier⟩ }

def putRoles (tables : Tables) (roles : List IamRoleInfo) : Tables :=
  { tables with
    roles := tables.roles ++ roles.map roleRow
    roleActions := tables.roleActions ++ roles.flatMap roleGrants }

def putBindings (tables : Tables) (bindings : List IamRoleBindingInfo) : Tables :=
  { tables with roleBindings := tables.roleBindings ++ bindings.map bindingRow }

theorem insertAction_ok (tables : Tables) (action : IamActionInfo) (tables' : Tables)
    (h : insertAction tables action = .ok tables') : tables' = putActions tables [action] := by
  obtain ⟨_, -, h⟩ := bind_ok_iff.mp h
  cases h
  rfl

theorem insertRoleAction_ok (roleId : String) (tables : Tables) (identifier : String)
    (tables' : Tables) (h : insertRoleAction roleId tables identifier = .ok tables') :
    tables' = putGrants roleId tables [identifier] := by
  obtain ⟨_, -, h⟩ := bind_ok_iff.mp h
  cases h
  rfl

theorem insertRole_ok (tables : Tables) (role : IamRoleInfo) (tables' : Tables)
    (h : insertRole tables role = .ok tables') : tables' = putRoles tables [role] := by
  obtain ⟨_, -, h⟩ := bind_ok_iff.mp h
  have hgrants := foldlM_put (putGrants role.id) (by simp [putGrants]) (by simp [putGrants])
    (insertRoleAction_ok role.id) h
  simpa [putGrants, putRoles, roleRow, roleGrants] using hgrants

theorem insertBinding_ok (tables : Tables) (binding : IamRoleBindingInfo) (tables' : Tables)
    (h : insertBinding tables binding = .ok tables') :
    tables' = putBindings tables [binding] := by
  obtain ⟨_, -, h⟩ := bind_ok_iff.mp h
  cases h
  rfl

/-- A committed replacement keeps nothing of the previous content. -/
theorem replace_ok {tables tables' : Tables} {policy : IamPolicyInfo}
    (h : PolicyRepository.replace tables policy = .ok tables') :
    tables' = storedTables tables.principalIds policy := by
  simp only [PolicyRepository.replace, bind_ok_iff] at h
  obtain ⟨_, hroles, _, hactions, withActions, hinsert, withRoles, hinsertRoles, h⟩ := h
  obtain ⟨_, -, hroles⟩ := bind_ok_iff.mp hroles
  cases hroles
  obtain ⟨_, -, hactions⟩ := bind_ok_iff.mp hactions
  cases hactions
  have hwithActions := foldlM_put putActions (by simp [putActions]) (by simp [putActions])
    insertAction_ok hinsert
  have hwithRoles := foldlM_put putRoles (by simp [putRoles]) (by simp [putRoles])
    insertRole_ok hinsertRoles
  have hall := foldlM_put putBindings (by simp [putBindings]) (by simp [putBindings])
    insertBinding_ok h
  rw [hall, hwithRoles, hwithActions]
  simp [putActions, putRoles, putBindings, storedTables, deleteRoleActions, deleteRoleBindings]

/-! Actions and bindings come back row by row. -/

variable [LawfulDatabase]

theorem actionRow_tryIntoModel (action : IamActionInfo) :
    (actionRow action).tryIntoModel = .ok action := by
  simp only [ActionRow.tryIntoModel, actionRow, LawfulDatabase.decode_encode, Option.bind_some,
    toList_map _ _ HttpRouteMatcher.fromJson_toJson, orElse]
  rfl

omit [Database] [LawfulDatabase] in
theorem effectFromStr_asStr (effect : Effect) : effectFromStr effect.asStr = .ok effect := by
  cases effect with
  | allow => rfl
  | deny => rfl

theorem bindingRow_tryIntoModel (binding : IamRoleBindingInfo) :
    (bindingRow binding).tryIntoModel = .ok binding := by
  simp only [RoleBindingRow.tryIntoModel, bindingRow, LawfulDatabase.decode_encode,
    Option.bind_some, AuthorizationConditionSpec.fromJson_toJson, orElse, effectFromStr_asStr]
  rfl

omit [Database] [LawfulDatabase] in
/-- Rows that read back as their items read back as the items in any order. -/
theorem collect_rows {α ρ : Type} {row : α → ρ} {read : ρ → Except RepositoryError α}
    (h : ∀ item, read (row item) = .ok item) {items : List α} {rows : List ρ}
    (hp : rows.Perm (items.map row)) :
    ∃ loaded, collect read rows = .ok loaded ∧ loaded.Perm items := by
  have hall : collect read (items.map row) = .ok items := by
    rw [collect_eq_ok, List.forall₂_map_left_iff]
    exact List.forall₂_same.mpr fun item _ => h item
  obtain ⟨loaded, hloaded, hperm⟩ := collect_perm hp.symm hall
  exact ⟨loaded, hloaded, hperm.symm⟩

/-! Roles are rebuilt from the ordered rows of the join. -/

omit [Database] [LawfulDatabase] in
/-- The joined rows of one role. -/
def roleRecords (role : IamRoleInfo) : List RoleWithAction := leftJoin role.actionIds (roleRow role)

def sortedRole (role : IamRoleInfo) : IamRoleInfo :=
  { role with actionIds := role.actionIds.insertionSort fun a b => Database.le a b = true }

def sortedRoles (roles : List IamRoleInfo) : List IamRoleInfo :=
  (roles.insertionSort fun a b => Database.le a.id b.id = true).map sortedRole

omit [Database] [LawfulDatabase] in
theorem grantedTo_eq {roles : List IamRoleInfo} (unique : (roles.map (·.id)).Nodup)
    {role : IamRoleInfo} (hrole : role ∈ roles) :
    grantedTo (roles.flatMap roleGrants) role.id = role.actionIds := by
  induction roles with
  | nil => cases hrole
  | cons first roles ih =>
      rw [List.map_cons, List.nodup_cons] at unique
      have hown : grantedTo (roleGrants first) first.id = first.actionIds := by
        rw [grantedTo, List.filter_eq_self.mpr (by simp [roleGrants])]
        simp [roleGrants, Function.comp_def]
      have hsplit : ∀ roleId, grantedTo ((first :: roles).flatMap roleGrants) roleId =
          grantedTo (roleGrants first) roleId ++ grantedTo (roles.flatMap roleGrants) roleId := by
        simp [grantedTo]
      rw [hsplit]
      cases List.mem_cons.mp hrole with
      | inl heq =>
          have hrest : grantedTo (roles.flatMap roleGrants) role.id = [] := by
            simp only [grantedTo, List.map_eq_nil_iff, List.filter_eq_nil_iff, List.mem_flatMap,
              roleGrants, List.mem_map]
            rintro grant ⟨other, hother, identifier, _, hgrant⟩ hsame
            apply unique.1
            rw [← hgrant, beq_iff_eq] at hsame
            rw [← heq, ← hsame]
            exact List.mem_map_of_mem hother
          rw [hrest, List.append_nil, heq, hown]
      | inr hmem =>
          have hne : role.id ≠ first.id := by
            intro hsame
            exact unique.1 (hsame ▸ List.mem_map_of_mem hmem)
          have hnone : grantedTo (roleGrants first) role.id = [] := by
            simp [grantedTo, roleGrants, hne.symm]
          rw [hnone, List.nil_append, ih unique.2 hmem]

omit [LawfulDatabase] in
theorem storedTables_records {principalIds : List String} {policy : IamPolicyInfo}
    (unique : (policy.roles.map (·.id)).Nodup) :
    ((storedTables principalIds policy).roles.flatMap fun role =>
      leftJoin (grantedTo (storedTables principalIds policy).roleActions role.id) role) =
      policy.roles.flatMap roleRecords := by
  simp only [storedTables, List.flatMap_map]
  apply List.flatMap_congr
  intro role hrole
  rw [show (roleRow role).id = role.id from rfl, grantedTo_eq unique hrole]
  rfl

omit [Database] [LawfulDatabase] in
theorem mem_roleRecords {role : IamRoleInfo} {record : RoleWithAction}
    (h : record ∈ roleRecords role) :
    record = (roleRow role).joined record.actionIdentifier := by
  unfold roleRecords leftJoin at h
  split at h
  · rw [List.mem_singleton.mp h]
    rfl
  · obtain ⟨identifier, _, rfl⟩ := List.mem_map.mp h
    rfl

omit [Database] [LawfulDatabase] in
theorem roleRecords_perm {role role' : IamRoleInfo} (hrow : roleRow role = roleRow role')
    (hp : role.actionIds.Perm role'.actionIds) : (roleRecords role).Perm (roleRecords role') := by
  unfold roleRecords leftJoin
  by_cases h : role.actionIds = []
  · have h' : role'.actionIds = [] := by
      rw [h] at hp
      exact hp.symm.eq_nil
    rw [if_pos h, if_pos h', hrow]
  · have h' : role'.actionIds ≠ [] := by
      intro hnil
      rw [hnil] at hp
      exact h hp.eq_nil
    rw [if_neg h, if_neg h', hrow]
    exact hp.map _

omit [LawfulDatabase] in
theorem sortedRole_actionIds (role : IamRoleInfo) :
    (sortedRole role).actionIds.Perm role.actionIds :=
  List.perm_insertionSort _ _

omit [LawfulDatabase] in
/-- Rows of one role are ordered by their action alone. -/
theorem recordLe_joined (row : RoleRow) (first second : Option String) :
    recordLe (row.joined first) (row.joined second) = identifierLe first second := by
  simp [recordLe, RoleRow.joined]

theorem identifierLe_total (first second : Option String) :
    identifierLe first second = true ∨ identifierLe second first = true := by
  cases first with
  | none => exact .inl rfl
  | some first =>
      cases second with
      | none => exact .inr rfl
      | some second => exact LawfulDatabase.le_total first second

theorem identifierLe_trans (first second third : Option String)
    (h : identifierLe first second = true) (h' : identifierLe second third = true) :
    identifierLe first third = true := by
  cases first with
  | none => rfl
  | some first =>
      cases second with
      | none => cases h
      | some second =>
          cases third with
          | none => cases h'
          | some third => exact LawfulDatabase.le_trans first second third h h'

theorem identifierLe_antisymm (first second : Option String)
    (h : identifierLe first second = true) (h' : identifierLe second first = true) :
    first = second := by
  cases first with
  | none =>
      cases second with
      | none => rfl
      | some second => cases h'
  | some first =>
      cases second with
      | none => cases h
      | some second => rw [LawfulDatabase.le_antisymm first second h h']

theorem recordLe_total (first second : RoleWithAction) :
    recordLe first second = true ∨ recordLe second first = true := by
  unfold recordLe
  by_cases h : first.roleId = second.roleId
  · rw [if_pos h, if_pos h.symm]
    exact identifierLe_total _ _
  · rw [if_neg h, if_neg (Ne.symm h)]
    exact LawfulDatabase.le_total _ _

theorem recordLe_trans (first second third : RoleWithAction)
    (h : recordLe first second = true) (h' : recordLe second third = true) :
    recordLe first third = true := by
  unfold recordLe at h h' ⊢
  by_cases hfirst : first.roleId = second.roleId
  · rw [if_pos hfirst] at h
    rw [hfirst]
    by_cases hsecond : second.roleId = third.roleId
    · rw [if_pos hsecond] at h' ⊢
      exact identifierLe_trans _ _ _ h h'
    · rw [if_neg hsecond] at h' ⊢
      exact h'
  · rw [if_neg hfirst] at h
    by_cases hsecond : second.roleId = third.roleId
    · rw [← hsecond, if_neg hfirst]
      exact h
    · rw [if_neg hsecond] at h'
      have hle := LawfulDatabase.le_trans _ _ _ h h'
      by_cases hthird : first.roleId = third.roleId
      · -- then the middle role would lie both above and below
        rw [← hthird] at h'
        exact absurd (LawfulDatabase.le_antisymm _ _ h h') hfirst
      · rw [if_neg hthird]
        exact hle

theorem recordLe_antisymm {first second : RoleWithAction} (h : recordLe first second = true)
    (h' : recordLe second first = true) :
    first.roleId = second.roleId ∧ first.actionIdentifier = second.actionIdentifier := by
  unfold recordLe at h h'
  by_cases hsame : first.roleId = second.roleId
  · rw [if_pos hsame] at h
    rw [if_pos hsame.symm] at h'
    exact ⟨hsame, identifierLe_antisymm _ _ h h'⟩
  · rw [if_neg hsame] at h
    rw [if_neg (Ne.symm hsame)] at h'
    exact absurd (LawfulDatabase.le_antisymm _ _ h h') hsame

omit [Database] [LawfulDatabase] in
theorem insertionSort_pairwise {α : Type} {le : α → α → Bool}
    (total : ∀ a b, le a b = true ∨ le b a = true)
    (trans : ∀ a b c, le a b = true → le b c = true → le a c = true) (items : List α) :
    (items.insertionSort fun a b => le a b = true).Pairwise fun a b => le a b = true := by
  have : Std.Total fun a b => le a b = true := ⟨total⟩
  have : IsTrans α fun a b => le a b = true := ⟨trans⟩
  exact List.pairwise_insertionSort _ items

theorem roleRecords_sorted (role : IamRoleInfo) :
    (roleRecords (sortedRole role)).Pairwise fun a b => recordLe a b = true := by
  unfold roleRecords leftJoin
  split
  · exact List.pairwise_singleton _ _
  · rw [List.pairwise_map]
    have hsorted := insertionSort_pairwise LawfulDatabase.le_total LawfulDatabase.le_trans
      role.actionIds
    refine hsorted.imp ?_
    intro a b hab
    rw [recordLe_joined]
    exact hab

omit [LawfulDatabase] in
theorem sortedRoles_ids {roles : List IamRoleInfo} :
    ((sortedRoles roles).map (·.id)).Perm (roles.map (·.id)) := by
  have hids : (sortedRoles roles).map (·.id) =
      (roles.insertionSort fun a b => Database.le a.id b.id = true).map (·.id) := by
    simp [sortedRoles, sortedRole, Function.comp_def]
  rw [hids]
  exact (List.perm_insertionSort _ _).map _

theorem sortedRoles_records_sorted {roles : List IamRoleInfo}
    (unique : (roles.map (·.id)).Nodup) :
    ((sortedRoles roles).flatMap roleRecords).Pairwise fun a b => recordLe a b = true := by
  rw [List.pairwise_flatMap]
  constructor
  · intro role hrole
    obtain ⟨original, -, rfl⟩ := List.mem_map.mp hrole
    exact roleRecords_sorted original
  · have hdistinct : (sortedRoles roles).Pairwise fun a b => a.id ≠ b.id := by
      rw [← List.pairwise_map]
      exact sortedRoles_ids.nodup_iff.mpr unique
    have hordered : (sortedRoles roles).Pairwise fun a b => Database.le a.id b.id = true := by
      rw [sortedRoles, List.pairwise_map]
      exact insertionSort_pairwise (fun a b : IamRoleInfo => LawfulDatabase.le_total a.id b.id)
        (fun a b c => LawfulDatabase.le_trans a.id b.id c.id) roles
    refine (hdistinct.and hordered).imp ?_
    rintro first second ⟨hne, hle⟩ record hrecord record' hrecord'
    have hid : record.roleId = first.id := congrArg RoleWithAction.roleId (mem_roleRecords hrecord)
    have hid' : record'.roleId = second.id :=
      congrArg RoleWithAction.roleId (mem_roleRecords hrecord')
    rw [recordLe, hid, hid', if_neg hne]
    exact hle

theorem records_insertionSort {roles : List IamRoleInfo} (unique : (roles.map (·.id)).Nodup) :
    ((roles.flatMap roleRecords).insertionSort fun a b => recordLe a b = true) =
      (sortedRoles roles).flatMap roleRecords := by
  have hjoined : ((sortedRoles roles).flatMap roleRecords).Perm (roles.flatMap roleRecords) := by
    rw [sortedRoles, List.flatMap_map]
    refine ((List.perm_insertionSort _ roles).flatMap_right _).trans ?_
    exact List.Perm.flatMap_left _ fun role _ => roleRecords_perm rfl (sortedRole_actionIds role)
  have hperm := (List.perm_insertionSort (fun a b => recordLe a b = true)
    (roles.flatMap roleRecords)).trans hjoined.symm
  refine hperm.eq_of_pairwise ?_ (insertionSort_pairwise recordLe_total recordLe_trans _)
    (sortedRoles_records_sorted unique)
  -- two rows in the same place of the order come from one role and name one action
  intro record record' hrecord hrecord' hle hge
  obtain ⟨hrole, haction⟩ := recordLe_antisymm hle hge
  obtain ⟨role, hmem, hof⟩ := List.mem_flatMap.mp ((List.mem_insertionSort _).mp hrecord)
  obtain ⟨role', hmem', hof'⟩ := List.mem_flatMap.mp (hjoined.mem_iff.mp hrecord')
  have hrow := mem_roleRecords hof
  have hrow' := mem_roleRecords hof'
  have hids : role.id = role'.id :=
    (congrArg RoleWithAction.roleId hrow).symm.trans
      (hrole.trans (congrArg RoleWithAction.roleId hrow'))
  rw [hrow, hrow', List.inj_on_of_nodup_map unique hmem hmem' hids, haction]

/-! Grouping. -/

omit [Database] [LawfulDatabase] in
theorem groupRecord_new {roles : List IamRoleInfo} {row : RoleRow} {action : Option String}
    (hnew : roles.getLast?.all (·.id != row.id) = true) :
    groupRecord roles (row.joined action) =
      roles ++ [⟨row.id, row.name, row.description, action.toList⟩] := by
  cases action <;> simp_all [groupRecord, RoleRow.joined, pushAction]

omit [Database] [LawfulDatabase] in
/-- Further rows of the role at the end extend it. -/
theorem foldl_groupRecord_last (roles : List IamRoleInfo) (row : RoleRow)
    (identifiers granted : List String) :
    (identifiers.map fun id => row.joined (some id)).foldl groupRecord
        (roles ++ [⟨row.id, row.name, row.description, granted⟩]) =
      roles ++ [⟨row.id, row.name, row.description, granted ++ identifiers⟩] := by
  induction identifiers generalizing granted with
  | nil => simp
  | cons identifier identifiers ih =>
      have hstep : groupRecord (roles ++ [⟨row.id, row.name, row.description, granted⟩])
          (row.joined (some identifier)) =
          roles ++ [⟨row.id, row.name, row.description, granted ++ [identifier]⟩] := by
        simp [groupRecord, RoleRow.joined, pushAction]
      rw [List.map_cons, List.foldl_cons, hstep, ih, List.append_assoc]
      rfl

omit [Database] [LawfulDatabase] in
theorem foldl_roleRecords {roles : List IamRoleInfo} {role : IamRoleInfo}
    (hnew : roles.getLast?.all (·.id != role.id) = true) :
    (roleRecords role).foldl groupRecord roles = roles ++ [role] := by
  unfold roleRecords leftJoin
  cases hids : role.actionIds with
  | nil =>
      rw [if_pos rfl, List.foldl_cons, List.foldl_nil, groupRecord_new hnew]
      simp [roleRow, ← hids]
  | cons identifier identifiers =>
      rw [if_neg (by simp), List.map_cons, List.foldl_cons, groupRecord_new hnew]
      rw [foldl_groupRecord_last]
      simp [roleRow, ← hids]

omit [Database] [LawfulDatabase] in
theorem foldl_records (roles before : List IamRoleInfo)
    (unique : ((before ++ roles).map (·.id)).Nodup) :
    (roles.flatMap roleRecords).foldl groupRecord before = before ++ roles := by
  induction roles generalizing before with
  | nil => simp
  | cons role roles ih =>
      have hnew : before.getLast?.all (·.id != role.id) = true := by
        cases hlast : before.getLast? with
        | none => rfl
        | some last =>
            have hmem := List.mem_of_getLast? hlast
            rw [List.map_append, List.nodup_append] at unique
            have hne := unique.2.2 last.id (List.mem_map_of_mem hmem) role.id (by simp)
            simpa using hne
      rw [List.flatMap_cons, List.foldl_append, foldl_roleRecords hnew, ih (before ++ [role])
        (by simpa using unique), List.append_assoc]
      rfl

theorem loadRoles_storedTables {principalIds : List String} {policy : IamPolicyInfo}
    (unique : (policy.roles.map (·.id)).Nodup) :
    loadRoles (storedTables principalIds policy) = sortedRoles policy.roles := by
  simp only [loadRoles]
  rw [storedTables_records unique, records_insertionSort unique,
    foldl_records (sortedRoles policy.roles) [] (sortedRoles_ids.nodup_iff.mpr unique),
    List.nil_append]

/-! The whole policy. -/

omit [Database] [LawfulDatabase] in
/-- The same role, granting the same actions in some order. -/
structure SameRole (role role' : IamRoleInfo) : Prop where
  id : role'.id = role.id
  name : role'.name = role.name
  description : role'.description = role.description
  actionIds : role'.actionIds.Perm role.actionIds

omit [LawfulDatabase] in
theorem sameRole_sortedRole (role : IamRoleInfo) : SameRole role (sortedRole role) :=
  ⟨rfl, rfl, rfl, sortedRole_actionIds role⟩

omit [LawfulDatabase] in
theorem sortedRoles_perm (roles : List IamRoleInfo) :
    (sortedRoles roles).Perm (roles.map sortedRole) :=
  (List.perm_insertionSort _ roles).map sortedRole

theorem load_storedTables {principalIds : List String} {policy : IamPolicyInfo}
    (unique : (policy.roles.map (·.id)).Nodup) :
    ∃ loaded, PolicyRepository.load (storedTables principalIds policy) = .ok loaded ∧
      loaded.actions.Perm policy.actions ∧ loaded.roles = sortedRoles policy.roles ∧
      loaded.roleBindings.Perm policy.roleBindings := by
  obtain ⟨actions, hactions, hpermActions⟩ := collect_rows actionRow_tryIntoModel
    (List.perm_insertionSort (fun a b : ActionRow => Database.le a.identifier b.identifier = true)
      (policy.actions.map actionRow))
  obtain ⟨bindings, hbindings, hpermBindings⟩ := collect_rows bindingRow_tryIntoModel
    (List.perm_insertionSort (fun a b : RoleBindingRow => Database.le a.id b.id = true)
      (policy.roleBindings.map bindingRow))
  refine ⟨⟨1, actions, sortedRoles policy.roles, bindings⟩, ?_, hpermActions, rfl, hpermBindings⟩
  simp only [PolicyRepository.load, bind_ok_iff]
  refine ⟨actions, hactions, bindings, hbindings, ?_⟩
  rw [loadRoles_storedTables unique]

omit [LawfulDatabase] in
theorem sameGrants_loaded {policy loaded : IamPolicyInfo}
    (hactions : loaded.actions.Perm policy.actions)
    (hroles : loaded.roles = sortedRoles policy.roles)
    (hbindings : loaded.roleBindings.Perm policy.roleBindings) : SameGrants policy loaded where
  actions := hactions.symm
  bindings := hbindings.symm
  roleIds := by
    rw [hroles]
    exact sortedRoles_ids.symm
  granted role hrole := by
    refine ⟨sortedRole role, ?_, rfl, List.toFinset_eq_of_perm _ _ (sortedRole_actionIds role)⟩
    rw [hroles, (sortedRoles_perm policy.roles).mem_iff]
    exact List.mem_map_of_mem hrole

variable [Ipnet]

/-- Whatever was stored before, a policy that was stored is loaded with all of its content
and answers every request, scope query and route as before. -/
theorem replace_load_faithful (policy : IamPolicyInfo) (revision : Nat) (catalog : CompiledPolicy)
    (hcompiled : CompiledPolicy.compile policy revision = .ok catalog) (tables tables' : Tables)
    (hreplace : PolicyRepository.replace tables policy = .ok tables') :
    ∃ loaded, PolicyRepository.load tables' = .ok loaded ∧
      loaded.actions.Perm policy.actions ∧
      (∃ roles, loaded.roles.Perm roles ∧ List.Forall₂ SameRole policy.roles roles) ∧
      loaded.roleBindings.Perm policy.roleBindings ∧
      ∀ revision', ∃ catalog', CompiledPolicy.compile loaded revision' = .ok catalog' ∧
        (∀ request, (catalog'.authorize request).allowed = (catalog.authorize request).allowed) ∧
        (∀ principalId groups action context,
          catalog'.authorizationScope principalId groups action context =
            catalog.authorizationScope principalId groups action context) ∧
        ∀ method host path claims route,
          catalog'.resolveHttpRoute method host path claims = .ok route ↔
            catalog.resolveHttpRoute method host path claims = .ok route := by
  have hpolicy := compile_eq_ok.mp hcompiled
  obtain ⟨loaded, hload, hactions, hroles, hbindings⟩ :=
    @load_storedTables _ _ tables.principalIds policy hpolicy.roleIds.nodup
  rw [← replace_ok hreplace] at hload
  refine ⟨loaded, hload, hactions, ⟨policy.roles.map sortedRole, ?_, ?_⟩, hbindings, ?_⟩
  · rw [hroles]
    exact sortedRoles_perm policy.roles
  · rw [List.forall₂_map_right_iff]
    exact List.forall₂_same.mpr fun role _ => sameRole_sortedRole role
  · intro revision'
    have hsame := sameGrants_loaded hactions hroles hbindings
    obtain ⟨catalog', hcatalog', hperm, hroutes⟩ := hsame.compile hcompiled revision'
    refine ⟨catalog', hcatalog', ?_, ?_, ?_⟩
    · intro request
      exact ((authorize_decides catalog request).perm hperm (authorize_decides catalog' request)).1
    · intro principalId groups action context
      exact (authorizationScope_perm hperm principalId groups action context).symm
    · intro method host path claims route
      exact (resolveRoute_perm method host path claims hroutes route).symm

end

namespace Payroll

/-- Documents kept as they are, and the order of bytes. -/
scoped instance binaryDatabase : Database where
  Cell := Json
  encode json := json
  decode cell := some cell
  like pattern text := Sql.like pattern text
  le a b := decide (a ≤ b)

theorem binary_le {a b : String} : Database.le a b = true ↔ a ≤ b := by
  change decide (a ≤ b) = true ↔ a ≤ b
  exact decide_eq_true_iff

theorem binaryDatabase_lawful : LawfulDatabase where
  decode_encode _ := rfl
  le_total a b := by
    rw [binary_le, binary_le]
    exact le_total a b
  le_trans a b c := by
    rw [binary_le, binary_le, binary_le]
    exact le_trans
  le_antisymm a b := by
    rw [binary_le, binary_le]
    exact le_antisymm

theorem policy_survives_storage :
    ∃ tables loaded,
      PolicyRepository.replace ⟨["alice", "contractors"], [], [], [], []⟩ policy = .ok tables ∧
      PolicyRepository.load tables = .ok loaded ∧
        loaded.roleBindings.Perm policy.roleBindings := by
  have := binaryDatabase_lawful
  obtain ⟨loaded, hload, -, -, hbindings, -⟩ := replace_load_faithful policy 1 _ rfl
    ⟨["alice", "contractors"], [], [], [], []⟩ _ rfl
  exact ⟨_, loaded, rfl, hload, hbindings⟩

end Payroll

end Authguard
