import Authguard.Authz.ScimProvisioning

/-!
What the writes of principals do to the tables: a transaction that is checked and does not
meet an identity of another principal is an upsert of both rows, any other fails.
-/

namespace Authguard

namespace IamDatabase

variable {db : IamDatabase}

theorem upsertPrincipal_checked (db : IamDatabase) {row : PrincipalRow} (h : row.checked = true) :
    ∃ after, db.upsertPrincipal row = .ok after ∧ after.principals = db.principals.upsert row ∧
      after.identities = db.identities :=
  ⟨_, dif_pos h, rfl, rfl⟩

theorem upsertPrincipal_unchecked {row : PrincipalRow} (h : row.checked = false) :
    db.upsertPrincipal row = .error .check :=
  dif_neg (by rw [h]; exact Bool.false_ne_true)

/-- The identity belongs to another principal. -/
def BoundElsewhere (db : IamDatabase) (row : IamPrincipalIdentityInfo) : Prop :=
  ∃ stored, db.identities.find row.key = some stored ∧ stored.principalId ≠ row.principalId

theorem upsertIdentity_elsewhere {row : IamPrincipalIdentityInfo} (hchecked : row.checked = true)
    (h : db.BoundElsewhere row) : db.upsertIdentity row = .ok (db, 0) := by
  obtain ⟨stored, hstored, hother⟩ := h
  rw [upsertIdentity, if_pos hchecked]
  split
  · rename_i hnone
    rw [hstored] at hnone
    cases hnone
  · rename_i found hfound
    rw [hstored, Option.some.injEq] at hfound
    rw [if_neg (hfound ▸ hother)]

theorem upsertIdentity_own {row : IamPrincipalIdentityInfo} (hchecked : row.checked = true)
    (hprincipal : (db.principals.find row.principalId).isSome) (h : ¬db.BoundElsewhere row) :
    ∃ after, db.upsertIdentity row = .ok (after, 1) ∧ after.principals = db.principals ∧
      after.identities = db.identities.upsert row := by
  rw [upsertIdentity, if_pos hchecked]
  split
  · rename_i hnone
    have hinsert := Table.insert_eq_upsert hnone
    have hok : ∃ after, db.insertIdentity row = .ok after := by
      rw [insertIdentity, dif_pos hchecked]
      split
      · rename_i hfails
        rw [hinsert] at hfails
        cases hfails
      · rw [dif_pos hprincipal]
        exact ⟨_, rfl⟩
    obtain ⟨after, hafter⟩ := hok
    obtain ⟨hidentities, hprincipals⟩ := insertIdentity_eq_ok hafter
    rw [hinsert, Option.some.injEq] at hidentities
    exact ⟨after, by rw [hafter]; rfl, hprincipals, hidentities.symm⟩
  · rename_i stored hstored
    have hsame : stored.principalId = row.principalId := by
      by_contra hother
      exact h ⟨stored, hstored, hother⟩
    have hkey : stored.key = row.key := (Table.find_eq_some.mp hstored).2
    have hrow : { stored with claims := row.claims } = row := by
      cases stored
      cases row
      cases hkey
      cases hsame
      rfl
    rw [if_pos hsame]
    exact ⟨_, rfl, rfl, congrArg db.identities.upsert hrow⟩

theorem upsertIdentity_unchecked {row : IamPrincipalIdentityInfo} (h : ¬row.checked = true) :
    db.upsertIdentity row = .error .check := by
  rw [upsertIdentity, if_neg h]

theorem upsert_eq_ok {principal : PrincipalRow} {after : IamDatabase}
    (h : db.upsert principal = .ok ((), after)) :
    after.principals = db.principals.upsert principal ∧ after.identities = db.identities := by
  rw [upsert] at h
  split at h
  · cases h
  · rename_i written hwritten
    cases h
    exact upsertPrincipal_eq_ok hwritten

section
variable {principal : PrincipalRow} {identity : IamPrincipalIdentityInfo}

theorem upsertWithIdentity_unchecked
    (h : ¬(principal.checked = true ∧ identity.checked = true)) :
    db.upsertWithIdentity principal identity = .error (.backend "") := by
  rw [upsertWithIdentity]
  cases hprincipal : principal.checked with
  | false => rw [upsertPrincipal_unchecked hprincipal]
  | true =>
      obtain ⟨written, hwritten, -, -⟩ := upsertPrincipal_checked db hprincipal
      have hidentity : ¬identity.checked = true := fun hidentity => h ⟨hprincipal, hidentity⟩
      simp only [hwritten, upsertIdentity_unchecked hidentity]

theorem boundElsewhere_congr {other : IamDatabase} (h : other.identities = db.identities) :
    other.BoundElsewhere identity ↔ db.BoundElsewhere identity := by
  rw [BoundElsewhere, BoundElsewhere, h]

theorem upsertWithIdentity_elsewhere (hchecked : principal.checked = true ∧ identity.checked = true)
    (h : db.BoundElsewhere identity) :
    db.upsertWithIdentity principal identity = .error .conflict := by
  obtain ⟨written, hwritten, -, hidentities⟩ := upsertPrincipal_checked db hchecked.1
  have hbound := upsertIdentity_elsewhere hchecked.2 ((boundElsewhere_congr hidentities).mpr h)
  simp only [upsertWithIdentity, hwritten, hbound]
  rfl

theorem upsertWithIdentity_own (hchecked : principal.checked = true ∧ identity.checked = true)
    (hid : identity.principalId = principal.id) (h : ¬db.BoundElsewhere identity) :
    ∃ after, db.upsertWithIdentity principal identity = .ok ((), after) ∧
      after.principals = db.principals.upsert principal ∧
      after.identities = db.identities.upsert identity := by
  obtain ⟨written, hwritten, hprincipals, hidentities⟩ :=
    upsertPrincipal_checked db hchecked.1
  have hfound : (written.principals.find identity.principalId).isSome := by
    rw [hprincipals, hid, Table.find_upsert]
    exact if_pos rfl ▸ rfl
  obtain ⟨after, hafter, hprincipals', hidentities'⟩ :=
    upsertIdentity_own hchecked.2 hfound (mt (boundElsewhere_congr hidentities).mp h)
  refine ⟨after, ?_, hprincipals'.trans hprincipals, hidentities'.trans (by rw [hidentities])⟩
  simp only [upsertWithIdentity, hwritten, hafter]
  rfl

theorem mem_identities_upsertWithIdentity {after : IamDatabase}
    (h : db.upsertWithIdentity principal identity = .ok ((), after)) :
    ∀ row ∈ after.identities.rows, row = identity ∨ row ∈ db.identities.rows := by
  intro row hrow
  have hfound : after.identities.find row.key = some row := Table.find_eq_some.mpr ⟨hrow, rfl⟩
  rw [(upsertWithIdentity_eq_ok h).2] at hfound
  split at hfound
  · exact .inl (Option.some.inj hfound).symm
  · exact .inr (Table.find_eq_some.mp hfound).1

end

end IamDatabase

end Authguard
