import Authguard.Library.Table
import Authguard.Metatheory.PolicyStore
import Authguard.Metatheory.UrnPatterns

/-!
Which policies the schema takes. The constraints on actions, bindings and keys
follow from the checks of the compiler; those on the names of roles and on
repeated grants do not, so they decide whether a compiled policy can be stored.
-/

namespace Authguard
open Text Result

/-- What is relied on of LIKE: a trailing `%` stands for any rest. -/
def LikePrefix [Database] : Prop :=
  ∀ literal rest : String, (∀ c ∈ literal.toList, c ≠ '%' ∧ c ≠ '_' ∧ c ≠ '\\') →
    Database.like (literal ++ "%") (literal ++ rest) = true

/-- What the schema asks of the roles beyond what the compiler checks. -/
structure IamPolicyInfo.Storable (policy : IamPolicyInfo) : Prop where
  named : ∀ role ∈ policy.roles, sqlBlank role.name = false
  names : (policy.roles.map (·.name)).Nodup
  grants : ∀ role ∈ policy.roles, role.actionIds.Nodup

theorem enforce_ok {table : String} {rules : List (String × Bool)} :
    enforce table rules = .ok () ↔ ∀ rule ∈ rules, rule.2 = true := by
  induction rules with
  | nil => simp [enforce]
  | cons rule rules ih =>
      rw [enforce, List.forall_mem_cons]
      split
      · rename_i hholds
        rw [ih]
        exact ⟨fun h => ⟨hholds, h⟩, fun h => h.2⟩
      · rename_i hfails
        constructor
        · intro h
          cases h
        · intro h
          exact absurd h.1 hfails

/-- SQL trims less than the compiler does. -/
theorem sqlBlank_of_not_isBlank {value : String} (h : isBlank value = false) :
    sqlBlank value = false := by
  rw [isBlank, List.all_eq_false] at h
  obtain ⟨c, hc, hspace⟩ := h
  refine List.all_eq_false.mpr ⟨c, hc, fun heq => hspace ?_⟩
  rw [beq_iff_eq] at heq
  subst heq
  decide

theorem nodup_iff_splits {values : List String} :
    values.Nodup ↔ ∀ before value after, values = before ++ value :: after → value ∉ before := by
  simpa using @nodup_keys_iff String String id values

/-! The address of a binding. -/

theorem sqlTrim_append {first last : Char} {middle rest : List Char} (hfirst : first ≠ ' ')
    (hlast : last ≠ ' ') :
    ∃ kept, sqlTrim (String.ofList (first :: middle ++ last :: rest)) =
      String.ofList (first :: middle ++ last :: kept) := by
  refine ⟨(rest.reverse.dropWhile (· == ' ')).reverse, ?_⟩
  have hhead : (first :: middle ++ last :: rest).dropWhile (· == ' ') =
      first :: middle ++ last :: rest := by
    rw [List.cons_append, List.dropWhile_cons_of_neg (by simpa using hfirst)]
  have htail : ((first :: middle ++ last :: rest).reverse.dropWhile (· == ' ')).reverse =
      first :: middle ++ last :: (rest.reverse.dropWhile (· == ' ')).reverse := by
    have hstops : ((last :: (first :: middle).reverse).dropWhile (· == ' ')) =
        last :: (first :: middle).reverse :=
      List.dropWhile_cons_of_neg (by simpa using hlast)
    rw [List.reverse_append, List.reverse_cons, List.append_assoc, List.singleton_append,
      List.dropWhile_append]
    split
    · rename_i hempty
      rw [hstops, List.isEmpty_iff.mp hempty]
      simp
    · simp
  rw [sqlTrim, String.toList_ofList, hhead, htail]

theorem urn_toList {value : String} {pattern : UrnPattern}
    (h : UrnPattern.fromStr value = .ok pattern) :
    ∃ rest, value = String.ofList ('u' :: "rn:iam".toList ++ ':' :: rest) := by
  obtain ⟨hdisplay, -⟩ := UrnPattern.fromStr_ok h
  rw [UrnPattern.display, urnText, String.intercalate_cons_cons, String.intercalate_cons_cons]
    at hdisplay
  obtain ⟨tail, htail⟩ : ∃ tail, value = "urn" ++ ":" ++ ("iam" ++ ":" ++ tail) :=
    ⟨_, hdisplay.symm⟩
  refine ⟨tail.toList, ?_⟩
  rw [htail]
  apply String.toList_inj.mp
  simp

theorem like_urn [Database] (hlike : LikePrefix) {value : String} {pattern : UrnPattern}
    (h : UrnPattern.fromStr value = .ok pattern) :
    Database.like "urn:iam:%" (sqlTrim value) = true := by
  obtain ⟨rest, rfl⟩ := urn_toList h
  obtain ⟨kept, hkept⟩ := @sqlTrim_append 'u' ':' "rn:iam".toList rest (by decide) (by decide)
  rw [hkept]
  have hurn : String.ofList ('u' :: "rn:iam".toList ++ ':' :: kept) =
      "urn:iam:" ++ String.ofList kept := by
    apply String.toList_inj.mp
    simp
  rw [hurn]
  refine hlike "urn:iam:" (String.ofList kept) ?_
  simp

/-! What a statement accepts. -/

section
variable [Database]

theorem insertAction_iff (tables : Tables) (action : IamActionInfo) (after : Tables) :
    insertAction tables action = .ok after ↔
      (sqlBlank action.identifier = false ∧
        ∀ row ∈ tables.actions, row.identifier ≠ action.identifier) ∧
      after = putActions tables [action] := by
  constructor
  · intro h
    refine ⟨?_, insertAction_ok tables action after h⟩
    obtain ⟨_, hrules, -⟩ := bind_ok_iff.mp h
    simpa using enforce_ok.mp hrules
  · rintro ⟨haccepts, rfl⟩
    refine bind_ok_iff.mpr ⟨(), enforce_ok.mpr ?_, rfl⟩
    simpa using haccepts

theorem insertRoleAction_iff (roleId : String) (tables : Tables) (identifier : String)
    (after : Tables) :
    insertRoleAction roleId tables identifier = .ok after ↔
      (⟨roleId, identifier⟩ ∉ tables.roleActions ∧ (∃ row ∈ tables.roles, row.id = roleId) ∧
        ∃ row ∈ tables.actions, row.identifier = identifier) ∧
      after = putGrants roleId tables [identifier] := by
  constructor
  · intro h
    refine ⟨?_, insertRoleAction_ok roleId tables identifier after h⟩
    obtain ⟨_, hrules, -⟩ := bind_ok_iff.mp h
    simpa using enforce_ok.mp hrules
  · rintro ⟨haccepts, rfl⟩
    refine bind_ok_iff.mpr ⟨(), enforce_ok.mpr ?_, rfl⟩
    simpa using haccepts

/-- The grants of a role, once its row is there. -/
def GrantsAccepted (tables : Tables) (role : IamRoleInfo) : Prop :=
  ∀ before identifier after, role.actionIds = before ++ identifier :: after →
    (⟨role.id, identifier⟩ ∉ (putGrants role.id tables before).roleActions ∧
      (∃ row ∈ tables.roles, row.id = role.id) ∧
      ∃ row ∈ tables.actions, row.identifier = identifier)

theorem insertRole_iff (tables : Tables) (role : IamRoleInfo) (after : Tables) :
    insertRole tables role = .ok after ↔
      ((sqlBlank role.id = false ∧ sqlBlank role.name = false ∧
          (∀ row ∈ tables.roles, row.id ≠ role.id) ∧ ∀ row ∈ tables.roles, row.name ≠ role.name) ∧
        GrantsAccepted { tables with roles := tables.roles ++ [roleRow role] } role) ∧
      after = putRoles tables [role] := by
  have hgrants := @foldlM_put_iff _ _ _ _ _ (putGrants role.id) (by simp [putGrants])
    (by simp [putGrants]) (insertRoleAction_iff role.id) role.actionIds
    { tables with roles := tables.roles ++ [roleRow role] }
  constructor
  · intro h
    refine ⟨?_, insertRole_ok tables role after h⟩
    obtain ⟨_, hrules, hfold⟩ := bind_ok_iff.mp h
    exact ⟨by simpa using enforce_ok.mp hrules, hgrants.mp ⟨after, hfold⟩⟩
  · rintro ⟨⟨haccepts, hrole⟩, rfl⟩
    obtain ⟨last, hlast⟩ := hgrants.mpr hrole
    have hdone : insertRole tables role = .ok last :=
      bind_ok_iff.mpr ⟨(), enforce_ok.mpr (by simpa using haccepts), hlast⟩
    rw [hdone, insertRole_ok tables role last hdone]

theorem insertBinding_iff (tables : Tables) (binding : IamRoleBindingInfo) (after : Tables) :
    insertBinding tables binding = .ok after ↔
      (sqlBlank binding.id = false ∧
        Database.like "urn:iam:%" (sqlTrim binding.resourceUrn) = true ∧
        (∀ row ∈ tables.roleBindings, row.id ≠ binding.id) ∧
        binding.principalId ∈ tables.principalIds ∧ ∃ row ∈ tables.roles, row.id = binding.roleId) ∧
      after = putBindings tables [binding] := by
  have heffect : binding.effect.asStr = "ALLOW" ∨ binding.effect.asStr = "DENY" := by
    cases binding.effect with
    | allow => exact .inl rfl
    | deny => exact .inr rfl
  constructor
  · intro h
    refine ⟨?_, insertBinding_ok tables binding after h⟩
    obtain ⟨_, hrules, -⟩ := bind_ok_iff.mp h
    simpa [heffect] using enforce_ok.mp (mapError_ok.mp hrules)
  · rintro ⟨haccepts, rfl⟩
    refine bind_ok_iff.mpr ⟨(), mapError_ok.mpr (enforce_ok.mpr ?_), rfl⟩
    simpa [heffect] using haccepts

/-! The transaction. -/

/-- The tables once the previous content is deleted. -/
def clearedTables (tables : Tables) : Tables := ⟨tables.principalIds, [], [], [], []⟩

theorem replace_eq (tables : Tables) (policy : IamPolicyInfo) :
    PolicyRepository.replace tables policy = (do
      let tables ← policy.actions.foldlM insertAction (clearedTables tables)
      let tables ← policy.roles.foldlM insertRole tables
      policy.roleBindings.foldlM insertBinding tables) := by
  have hroles : deleteRoles (deleteRoleActions (deleteRoleBindings tables)) =
      .ok { clearedTables tables with actions := tables.actions } :=
    bind_ok_iff.mpr ⟨(), enforce_ok.mpr (by simp [deleteRoleActions, deleteRoleBindings]), rfl⟩
  have hactions : deleteActions { clearedTables tables with actions := tables.actions } =
      .ok (clearedTables tables) :=
    bind_ok_iff.mpr ⟨(), enforce_ok.mpr (by simp [clearedTables]), rfl⟩
  rw [PolicyRepository.replace, hroles]
  exact congrArg (· >>= fun tables => do
    let tables ← policy.actions.foldlM insertAction tables
    let tables ← policy.roles.foldlM insertRole tables
    policy.roleBindings.foldlM insertBinding tables) hactions

/-- The tables with the actions and the first roles of the policy. -/
def rolesStored (tables : Tables) (policy : IamPolicyInfo) (roles : List IamRoleInfo) : Tables :=
  putRoles (putActions (clearedTables tables) policy.actions) roles

theorem replace_ok_iff (tables : Tables) (policy : IamPolicyInfo) :
    (∃ after, PolicyRepository.replace tables policy = .ok after) ↔
      (∃ after, policy.actions.foldlM insertAction (clearedTables tables) = .ok after) ∧
      (∃ after, policy.roles.foldlM insertRole (rolesStored tables policy []) = .ok after) ∧
      ∃ after, policy.roleBindings.foldlM insertBinding
        (rolesStored tables policy policy.roles) = .ok after := by
  have hactions : ∀ {after}, policy.actions.foldlM insertAction (clearedTables tables) =
      .ok after → after = rolesStored tables policy [] := by
    intro after h
    rw [foldlM_put putActions (by simp [putActions]) (by simp [putActions]) insertAction_ok h]
    simp [rolesStored, putRoles]
  have hroles : ∀ {after}, policy.roles.foldlM insertRole (rolesStored tables policy []) =
      .ok after → after = rolesStored tables policy policy.roles := by
    intro after h
    rw [foldlM_put putRoles (by simp [putRoles]) (by simp [putRoles]) insertRole_ok h]
    simp [rolesStored, putRoles]
  simp only [replace_eq, bind_ok_iff]
  constructor
  · rintro ⟨last, withActions, hwithActions, withRoles, hwithRoles, hlast⟩
    obtain rfl := hactions hwithActions
    obtain rfl := hroles hwithRoles
    exact ⟨⟨_, hwithActions⟩, ⟨_, hwithRoles⟩, last, hlast⟩
  · rintro ⟨⟨withActions, hwithActions⟩, ⟨withRoles, hwithRoles⟩, last, hlast⟩
    obtain rfl := hactions hwithActions
    obtain rfl := hroles hwithRoles
    exact ⟨last, _, hwithActions, _, hwithRoles, hlast⟩

section
variable [Ipnet] {policy : IamPolicyInfo} (hpolicy : policy.WellFormed) (tables : Tables)
include hpolicy

theorem actions_accepted :
    ∃ after, policy.actions.foldlM insertAction (clearedTables tables) = .ok after := by
  refine (foldlM_put_iff putActions (by simp [putActions]) (by simp [putActions])
    insertAction_iff).mpr fun before action after hsplit => ⟨?_, ?_⟩
  · refine sqlBlank_of_not_isBlank (hpolicy.actionIds.notBlank _ ?_)
    rw [hsplit]
    simp
  · have hnew := nodup_keys_iff.mp hpolicy.actionIds.nodup before action after hsplit
    intro row hrow heq
    obtain ⟨other, hother, rfl⟩ : ∃ other ∈ before, actionRow other = row := by
      simpa [putActions, clearedTables] using hrow
    exact hnew (heq ▸ List.mem_map_of_mem hother)

/-- Which of the roles the schema takes, after those before them. -/
theorem roles_accepted_iff :
    (∃ after, policy.roles.foldlM insertRole (rolesStored tables policy []) = .ok after) ↔
      policy.Storable := by
  rw [foldlM_put_iff putRoles (by simp [putRoles]) (by simp [putRoles]) insertRole_iff]
  constructor
  · intro haccepts
    refine ⟨?_, nodup_keys_iff.mpr ?_, ?_⟩
    · intro role hrole
      obtain ⟨before, after, hsplit⟩ := List.append_of_mem hrole
      exact (haccepts before role after hsplit).1.2.1
    · intro before role after hsplit hname
      obtain ⟨other, hother, hname⟩ := List.mem_map.mp hname
      refine (haccepts before role after hsplit).1.2.2.2 (roleRow other) ?_ hname
      simp only [rolesStored, putRoles, List.mem_append, List.mem_map]
      exact .inr ⟨other, hother, rfl⟩
    · intro role hrole
      obtain ⟨before, after, hsplit⟩ := List.append_of_mem hrole
      refine nodup_iff_splits.mpr fun granted identifier rest hgrants hmem => ?_
      refine ((haccepts before role after hsplit).2 granted identifier rest hgrants).1 ?_
      exact List.mem_append_right _ (List.mem_map_of_mem hmem)
  · intro hstorable before role after hsplit
    have hrole : role ∈ policy.roles := by
      rw [hsplit]
      simp
    have hroles : (putRoles (rolesStored tables policy []) before).roles = before.map roleRow := by
      simp [rolesStored, putRoles, putActions, clearedTables]
    have hnewId := nodup_keys_iff.mp hpolicy.roleIds.nodup before role after hsplit
    have hnewName := nodup_keys_iff.mp hstorable.names before role after hsplit
    refine ⟨⟨sqlBlank_of_not_isBlank (hpolicy.roleIds.notBlank _ (List.mem_map_of_mem hrole)),
      hstorable.named role hrole, ?_, ?_⟩, ?_⟩
    · rw [hroles]
      intro row hrow heq
      obtain ⟨other, hother, rfl⟩ := List.mem_map.mp hrow
      exact hnewId (heq ▸ List.mem_map_of_mem hother)
    · rw [hroles]
      intro row hrow heq
      obtain ⟨other, hother, rfl⟩ := List.mem_map.mp hrow
      exact hnewName (heq ▸ List.mem_map_of_mem hother)
    · intro granted identifier rest hgrants
      have hnewGrant := nodup_iff_splits.mp (hstorable.grants role hrole) granted identifier rest
        hgrants
      refine ⟨?_, ⟨roleRow role, by simp, rfl⟩, ?_⟩
      · intro hmem
        obtain ⟨other, hother, hid, -⟩ | hmem : (∃ other ∈ before, other.id = role.id ∧
            identifier ∈ other.actionIds) ∨ identifier ∈ granted := by
          simpa [putGrants, putRoles, rolesStored, putActions, clearedTables, roleGrants,
            and_comm] using hmem
        · exact hnewId (hid ▸ List.mem_map_of_mem hother)
        · exact hnewGrant hmem
      · obtain ⟨action, haction, rfl⟩ := List.mem_map.mp
          (hpolicy.roleActions role hrole identifier (by rw [hgrants]; simp))
        refine ⟨actionRow action, ?_, rfl⟩
        simpa [putRoles, rolesStored, putActions, clearedTables] using ⟨action, haction, rfl⟩

theorem bindings_accepted (hlike : LikePrefix)
    (hprincipals : ∀ binding ∈ policy.roleBindings, binding.principalId ∈ tables.principalIds) :
    ∃ after, policy.roleBindings.foldlM insertBinding (rolesStored tables policy policy.roles) =
      .ok after := by
  refine (foldlM_put_iff putBindings (by simp [putBindings]) (by simp [putBindings])
    insertBinding_iff).mpr fun before binding after hsplit => ?_
  have hbinding : binding ∈ policy.roleBindings := by
    rw [hsplit]
    simp
  have hnew := nodup_keys_iff.mp hpolicy.bindingIds.nodup before binding after hsplit
  obtain ⟨pattern, hpattern⟩ := hpolicy.bindingUrns binding hbinding
  refine ⟨sqlBlank_of_not_isBlank (hpolicy.bindingIds.notBlank _ (List.mem_map_of_mem hbinding)),
    like_urn hlike hpattern, ?_, hprincipals binding hbinding, ?_⟩
  · intro row hrow heq
    obtain ⟨other, hother, rfl⟩ : ∃ other ∈ before, bindingRow other = row := by
      simpa [putBindings, rolesStored, putRoles, putActions, clearedTables] using hrow
    exact hnew (heq ▸ List.mem_map_of_mem hother)
  · obtain ⟨role, hrole, hid⟩ := List.mem_map.mp (hpolicy.bindingRoles binding hbinding)
    refine ⟨roleRow role, ?_, hid⟩
    simpa [putBindings, rolesStored, putRoles, putActions, clearedTables] using ⟨role, hrole, rfl⟩

end

/-- A policy that compiled, and whose principals are stored, can be stored exactly when the
schema takes its roles. -/
theorem replace_stores_iff_storable [Ipnet] (hlike : LikePrefix) (policy : IamPolicyInfo)
    (revision : Nat) (catalog : CompiledPolicy)
    (hcompiled : CompiledPolicy.compile policy revision = .ok catalog) (tables : Tables)
    (hprincipals : ∀ binding ∈ policy.roleBindings, binding.principalId ∈ tables.principalIds) :
    (∃ after, PolicyRepository.replace tables catalog.policy = .ok after) ↔ policy.Storable := by
  have hcompiled := compile_eq_ok.mp hcompiled
  have hpolicy := hcompiled.wellFormed
  rw [hcompiled.policy_eq] at hpolicy ⊢
  rw [replace_ok_iff, roles_accepted_iff hpolicy tables]
  constructor
  · rintro ⟨-, ⟨hnamed, hnames, hgrants⟩, -⟩
    exact ⟨hnamed, hnames, hgrants⟩
  · rintro ⟨hnamed, hnames, hgrants⟩
    exact ⟨actions_accepted hpolicy tables, ⟨hnamed, hnames, hgrants⟩,
      bindings_accepted hpolicy tables hlike hprincipals⟩

end

namespace Payroll

theorem binaryDatabase_likePrefix : LikePrefix := by
  intro literal rest _
  change Sql.like (literal ++ "%") (literal ++ rest) = true
  rw [Sql.like, String.toList_append, String.toList_append]
  exact Sql.likeList_append _ _ _ (Sql.likeList_percent _)

theorem policy_stored :
    ∃ after, PolicyRepository.replace ⟨["alice", "contractors"], [], [], [], []⟩ policy =
      .ok after :=
  (replace_stores_iff_storable binaryDatabase_likePrefix policy 1 _ rfl _ (by decide)).mpr
    ⟨by decide, by decide, by decide⟩

/-- The reader is granted its action twice. -/
def repeatedGrant : IamPolicyInfo :=
  { policy with
    roles := [{ id := "reader", name := "Reader", actionIds := ["payroll.read", "payroll.read"] }] }

theorem repeatedGrant_refused :
    ∃ catalog, CompiledPolicy.compile repeatedGrant 1 = .ok catalog ∧
      (∀ binding ∈ repeatedGrant.roleBindings,
        binding.principalId ∈ ["alice", "contractors"]) ∧
      PolicyRepository.replace ⟨["alice", "contractors"], [], [], [], []⟩ catalog.policy =
        .error (.constraint "iam_role_action" "PRIMARY KEY (role_id, action_identifier)") :=
  ⟨_, rfl, by decide, rfl⟩

end Payroll

end Authguard
