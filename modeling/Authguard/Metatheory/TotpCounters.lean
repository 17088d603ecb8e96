import Authguard.Authn.StandaloneLogin

/-!
The stored counters of TOTP credentials. Every acceptance raises the counter of
its credential above the value it had, and no call lowers it; both databases
compare and write it in one statement.
-/

namespace Authguard
open Program

/-! Counters. -/

/-- The counter in the data of a credential. -/
def IamStandaloneCredential.recorded (credential : IamStandaloneCredential) : Option Nat :=
  ((credential.credentialData.bind Json.asObject).bind (·.lookup "lastCounter")).bind Json.toU64

/-- The counter a TOTP credential has in the store. -/
def StandaloneStore.counterOf (store : StandaloneStore) (credentialId : String) : Option Nat :=
  ((store.credentials.find credentialId).filter (·.kind = .totp)).bind (·.recorded)

/-- Both databases compare with the counter itself, as far as it can be exceeded. -/
theorem lt_of_lastCounter [SqlJson] {credential : IamStandaloneCredential} {counter stored : Nat}
    (hstored : credential.recorded = some stored) (hrange : counter < 2 ^ 63) {backend : Backend}
    {last : Int} (hlast : lastCounter backend credential.credentialData = some last)
    (hlt : last < counter) : stored < counter := by
  obtain ⟨value, hlookup, hvalue⟩ := Option.bind_eq_some_iff.mp hstored
  cases value with
  | number number =>
      have hu64 : number.asU64 = some stored := hvalue
      simp only [lastCounter, hlookup, hu64] at hlast
      split at hlast
      · cases hlast
        omega
      · cases backend with
        | sqlite =>
            cases hlast
            omega
        | postgres => cases hlast
  | null | bool _ | string _ | array _ | object _ => cases hvalue

theorem recorded_setCounter {credential : IamStandaloneCredential} {counter stored : Nat}
    (hstored : credential.recorded = some stored) {backend : Backend} {data : Json}
    (hdata : setCounter backend counter credential.credentialData = some data) :
    ({ credential with credentialData := some data } : IamStandaloneCredential).recorded =
      some counter := by
  obtain ⟨value, hlookup, -⟩ := Option.bind_eq_some_iff.mp hstored
  obtain ⟨fields, hfields, -⟩ := Option.bind_eq_some_iff.mp hlookup
  obtain ⟨json, hjson, hobject⟩ := Option.bind_eq_some_iff.mp hfields
  cases json with
  | object entries =>
      rw [hjson] at hdata
      cases hdata
      simp [IamStandaloneCredential.recorded, Json.asObject, Json.lookup_setField, Json.toU64,
        Json.ofNat]
  | null | bool _ | number _ | string _ | array _ => cases hobject

/-! The invariant. -/

/-- The counter of the credential has reached the value. -/
def StandaloneStore.Reached (store : StandaloneStore) (credentialId : String) (counter : Nat) :
    Prop :=
  ∃ stored, store.counterOf credentialId = some stored ∧ counter ≤ stored

/-- The counter of the credential has reached the value, and only codes beyond it were
accepted. -/
structure StandaloneStore.Exceeded (store : StandaloneStore) (credentialId : String)
    (counter : Nat) : Prop where
  reached : store.Reached credentialId counter
  accepted : ∀ acceptance ∈ store.accepted, acceptance.credentialId = credentialId →
    counter < acceptance.counter

structure TotpInvariant (start store : StandaloneStore) : Prop where
  /-- A TOTP credential has a counter. -/
  recorded : ∀ row ∈ store.credentials.rows, row.kind = .totp → row.recorded.isSome
  reached : ∀ acceptance ∈ store.accepted,
    store.Reached acceptance.credentialId acceptance.counter
  increasing : store.accepted.Pairwise fun earlier later =>
    earlier.credentialId = later.credentialId → earlier.counter < later.counter
  enrolled : ∀ credential ∈ store.enrolled, ∀ counter, credential.recorded = some counter →
    store.Exceeded credential.id counter
  started : ∀ credentialId counter, start.counterOf credentialId = some counter →
    store.Exceeded credentialId counter

/-- What a call may do: keep the invariant and every acceptance. -/
structure KeepsTotp (start store after : StandaloneStore) : Prop where
  invariant : TotpInvariant start store → TotpInvariant start after
  accepted : store.accepted <+: after.accepted

instance (start : StandaloneStore) : Std.Refl (KeepsTotp start) :=
  ⟨fun _ => ⟨id, List.prefix_refl _⟩⟩

instance (start : StandaloneStore) : IsTrans StandaloneStore (KeepsTotp start) :=
  ⟨fun _ _ _ h h' => ⟨fun hinv => h'.invariant (h.invariant hinv), h.accepted.trans h'.accepted⟩⟩

section
variable {start store after : StandaloneStore}

/-- The credentials and the records are the same. -/
theorem keepsTotp_of_eq (hcredentials : after.credentials = store.credentials)
    (henrolled : after.enrolled = store.enrolled) (haccepted : after.accepted = store.accepted) :
    KeepsTotp start store after := by
  obtain ⟨iam, credentials, challenges, enrolled, accepted⟩ := after
  simp only at hcredentials henrolled haccepted
  subst hcredentials henrolled haccepted
  exact ⟨fun hinv => ⟨hinv.recorded, hinv.reached, hinv.increasing,
    fun credential hcredential counter hcounter =>
      ⟨(hinv.enrolled credential hcredential counter hcounter).1,
        (hinv.enrolled credential hcredential counter hcounter).2⟩,
    fun id counter hcounter =>
      ⟨(hinv.started id counter hcounter).1, (hinv.started id counter hcounter).2⟩⟩,
    List.prefix_refl _⟩

theorem counterOf_eq_some {credentialId : String} {counter : Nat} :
    store.counterOf credentialId = some counter ↔
      ∃ row, store.credentials.find credentialId = some row ∧ row.kind = .totp ∧
        row.recorded = some counter := by
  simp [StandaloneStore.counterOf, Option.bind_eq_some_iff, Option.filter_eq_some_iff, and_assoc]

/-- Counters that do not fall still reach what they reached. -/
theorem reached_of_le (hle : ∀ id counter, store.counterOf id = some counter →
      ∃ later, after.counterOf id = some later ∧ counter ≤ later) {credentialId : String}
    {counter : Nat} (h : store.Reached credentialId counter) :
    after.Reached credentialId counter := by
  obtain ⟨stored, hstored, hcounter⟩ := h
  obtain ⟨later, hlater, hstep⟩ := hle credentialId stored hstored
  exact ⟨later, hlater, hcounter.trans hstep⟩

/-! Enrollment. -/

theorem createCredential_eq_ok {now : Nat} {credential : IamStandaloneCredential}
    (h : store.createCredential now credential = .ok after) :
    store.credentials.insert { credential with createdAt := now, revoked := false } =
        some after.credentials ∧
      after.enrolled = store.enrolled ++ [credential] ∧ after.accepted = store.accepted := by
  rw [StandaloneStore.createCredential] at h
  cases hcreate : store.credentials.createCredential store.iam now credential with
  | error error =>
      rw [hcreate] at h
      cases h
  | ok created =>
      rw [hcreate] at h
      cases h
      refine ⟨?_, rfl, rfl⟩
      simp only [CredentialTable.createCredential] at hcreate
      split at hcreate
      · split at hcreate
        · cases hcreate
        · split at hcreate
          · cases hcreate
          · rename_i inserted hinsert
            split at hcreate
            · cases hcreate
              exact hinsert
            · cases hcreate
      · cases hcreate

/-- A new credential starts at the counter it records; it was in no store before. -/
theorem keepsTotp_createCredential {now : Nat} {credential : IamStandaloneCredential}
    {counter : Nat} (hkind : credential.kind = .totp) (hrecorded : credential.recorded = some counter)
    (h : store.createCredential now credential = .ok after) : KeepsTotp start store after := by
  obtain ⟨hinsert, henrolled, haccepted⟩ := createCredential_eq_ok h
  have hfresh : store.credentials.find credential.id = none :=
    Table.insert_isSome.mp (Option.isSome_iff_exists.mpr ⟨_, hinsert⟩)
  have hunknown : ∀ value, ¬store.Reached credential.id value := by
    rintro value ⟨stored, hstored, -⟩
    obtain ⟨row, hrow, -⟩ := counterOf_eq_some.mp hstored
    rw [hfresh] at hrow
    cases hrow
  have hle : ∀ id value, store.counterOf id = some value →
      ∃ later, after.counterOf id = some later ∧ value ≤ later := by
    intro id value hvalue
    obtain ⟨row, hrow, hrest⟩ := counterOf_eq_some.mp hvalue
    exact ⟨value, counterOf_eq_some.mpr ⟨row, Table.find_of_insert hinsert hrow, hrest⟩, le_rfl⟩
  have hcounter : after.counterOf credential.id = some counter :=
    counterOf_eq_some.mpr ⟨_, (Table.find_insert hinsert _).trans (if_pos rfl), hkind, hrecorded⟩
  refine ⟨fun hinv => ⟨?_, ?_, ?_, ?_, ?_⟩, haccepted ▸ List.prefix_refl _⟩
  · intro row hrow htotp
    obtain hrow | rfl := (Table.mem_insert hinsert).mp hrow
    · exact hinv.recorded row hrow htotp
    · exact Option.isSome_iff_exists.mpr ⟨counter, hrecorded⟩
  · intro acceptance hacceptance
    rw [haccepted] at hacceptance
    exact reached_of_le hle (hinv.reached acceptance hacceptance)
  · rw [haccepted]
    exact hinv.increasing
  · intro other hother value hvalue
    rw [henrolled, List.mem_append, List.mem_singleton] at hother
    obtain hother | rfl := hother
    · have hbefore := hinv.enrolled other hother value hvalue
      exact ⟨reached_of_le hle hbefore.reached, haccepted ▸ hbefore.accepted⟩
    · rw [hrecorded, Option.some.injEq] at hvalue
      subst hvalue
      refine ⟨⟨counter, hcounter, le_rfl⟩, ?_⟩
      intro acceptance hacceptance heq
      rw [haccepted] at hacceptance
      exact absurd (heq ▸ hinv.reached acceptance hacceptance) (hunknown _)
  · intro id value hvalue
    have hbefore := hinv.started id value hvalue
    exact ⟨reached_of_le hle hbefore.reached, haccepted ▸ hbefore.accepted⟩

/-! Advancing a counter. -/

section
variable [SqlJson] {backend : Backend} {credentialId : String} {counter : Nat}
  {table : CredentialTable}

theorem advanceTotpCounter_eq_ok {advanced : Bool}
    (h : store.credentials.advanceTotpCounter backend credentialId counter =
      .ok (advanced, table)) :
    (advanced = false ∧ table = store.credentials) ∨
      ∃ row last data, advanced = true ∧ counter < 2 ^ 63 ∧
        store.credentials.find credentialId = some row ∧ row.kind = .totp ∧
        lastCounter backend row.credentialData = some last ∧ last < counter ∧
        setCounter backend counter row.credentialData = some data ∧
        table = store.credentials.upsert { row with credentialData := some data } := by
  simp only [CredentialTable.advanceTotpCounter] at h
  split at h
  · cases h
  · rename_i hrange
    split at h
    · cases h
      exact .inl ⟨rfl, rfl⟩
    · rename_i row hrow
      split at h
      · cases h
        exact .inl ⟨rfl, rfl⟩
      · rename_i hkind
        split at h
        · cases h
        · rename_i last hlast
          split at h
          · rename_i hlt
            split at h
            · cases h
            · rename_i data hdata
              cases h
              refine .inr ⟨row, last, data, rfl, by omega, hrow, ?_, hlast, hlt, hdata, rfl⟩
              by_contra hother
              exact hkind (.inl hother)
          · cases h
            exact .inl ⟨rfl, rfl⟩

/-- What an advance does: the counter of one credential rises to the new value. -/
structure Advanced (store : StandaloneStore) (credentialId : String) (counter : Nat)
    (table : CredentialTable) : Prop where
  below : ∃ stored, store.counterOf credentialId = some stored ∧ stored < counter
  counterOf : ∀ id, ({ store with credentials := table } : StandaloneStore).counterOf id =
    if id = credentialId then some counter else store.counterOf id
  recorded : ∀ row ∈ table.rows, row.kind = .totp → row.recorded.isSome

theorem advanced_of_ok (hinv : TotpInvariant start store)
    (h : store.credentials.advanceTotpCounter backend credentialId counter = .ok (true, table)) :
    Advanced store credentialId counter table := by
  obtain ⟨hfalse, -⟩ | ⟨row, last, data, -, hrange, hrow, hkind, hlast, hlt, hdata, rfl⟩ :=
    advanceTotpCounter_eq_ok h
  · cases hfalse
  · obtain ⟨hmem, rfl⟩ := Table.find_eq_some.mp hrow
    obtain ⟨stored, hstored⟩ := Option.isSome_iff_exists.mp (hinv.recorded row hmem hkind)
    have hnew := recorded_setCounter hstored hdata
    refine ⟨⟨stored, counterOf_eq_some.mpr ⟨row, hrow, hkind, hstored⟩,
      lt_of_lastCounter hstored hrange hlast hlt⟩, ?_, ?_⟩
    · intro id
      by_cases hid : id = row.key
      · rw [if_pos hid, counterOf_eq_some]
        exact ⟨_, (Table.find_upsert _ _ id).trans (if_pos hid), hkind, hnew⟩
      · have hfind := (Table.find_upsert store.credentials { row with credentialData := some data }
          id).trans (if_neg hid)
        rw [if_neg hid, StandaloneStore.counterOf, StandaloneStore.counterOf, hfind]
    · intro other hother htotp
      obtain rfl | hother := Table.mem_upsert hother
      · exact Option.isSome_iff_exists.mpr ⟨counter, hnew⟩
      · exact hinv.recorded other hother htotp

/-- An advance whose answer may be lost: the acceptance, where it is recorded, is of a
counter beyond all that was reached. -/
theorem keepsTotp_advance {accepted : List Acceptance}
    (h : store.credentials.advanceTotpCounter backend credentialId counter = .ok (true, table))
    (haccepted : accepted = store.accepted ∨
      ∃ task, accepted = store.accepted ++ [⟨task, credentialId, counter⟩]) :
    KeepsTotp start store { store with credentials := table, accepted } := by
  refine ⟨fun hinv => ?_, ?_⟩
  · have hadvanced := advanced_of_ok hinv h
    obtain ⟨stored, hstored, hbelow⟩ := hadvanced.below
    have hcounterOf : ∀ id,
        ({ store with credentials := table, accepted } : StandaloneStore).counterOf id =
          if id = credentialId then some counter else store.counterOf id := hadvanced.counterOf
    have hle : ∀ id value, store.counterOf id = some value → ∃ later,
        ({ store with credentials := table, accepted } : StandaloneStore).counterOf id =
          some later ∧ value ≤ later := by
      intro id value hvalue
      by_cases hid : id = credentialId
      · subst hid
        rw [hstored, Option.some.injEq] at hvalue
        subst hvalue
        exact ⟨counter, (hcounterOf id).trans (if_pos rfl), hbelow.le⟩
      · exact ⟨value, ((hcounterOf id).trans (if_neg hid)).trans hvalue, le_rfl⟩
    have hbeyond : ∀ value, store.Reached credentialId value → value < counter := by
      rintro value ⟨reached, hreached, hvalue⟩
      rw [hstored, Option.some.injEq] at hreached
      omega
    have hcases : ∀ acceptance ∈ accepted, acceptance ∈ store.accepted ∨
        acceptance.credentialId = credentialId ∧ acceptance.counter = counter := by
      intro acceptance hacceptance
      obtain rfl | ⟨task, rfl⟩ := haccepted
      · exact .inl hacceptance
      · obtain hold | hnew := List.mem_append.mp hacceptance
        · exact .inl hold
        · cases List.mem_singleton.mp hnew
          exact .inr ⟨rfl, rfl⟩
    have hexceeded : ∀ id value, store.Exceeded id value →
        ({ store with credentials := table, accepted } : StandaloneStore).Exceeded id value := by
      intro id value hbefore
      refine ⟨reached_of_le hle hbefore.reached, ?_⟩
      intro acceptance hacceptance hid
      obtain hold | ⟨hnew, hcounter⟩ := hcases acceptance hacceptance
      · exact hbefore.accepted acceptance hold hid
      · rw [hcounter]
        exact hbeyond value (hnew ▸ hid ▸ hbefore.reached)
    refine ⟨hadvanced.recorded, ?_, ?_, ?_, ?_⟩
    · intro acceptance hacceptance
      obtain hold | ⟨hnew, hcounter⟩ := hcases acceptance hacceptance
      · exact reached_of_le hle (hinv.reached acceptance hold)
      · rw [hnew, hcounter]
        exact ⟨counter, (hcounterOf credentialId).trans (if_pos rfl), le_rfl⟩
    · obtain rfl | ⟨task, rfl⟩ := haccepted
      · exact hinv.increasing
      · refine List.pairwise_append.mpr ⟨hinv.increasing, List.pairwise_singleton _ _, ?_⟩
        intro earlier hearlier later hlater heq
        cases List.mem_singleton.mp hlater
        have hid : earlier.credentialId = credentialId := heq
        exact hbeyond earlier.counter (hid ▸ hinv.reached earlier hearlier)
    · intro credential hcredential value hvalue
      exact hexceeded credential.id value (hinv.enrolled credential hcredential value hvalue)
    · intro id value hvalue
      exact hexceeded id value (hinv.started id value hvalue)
  · obtain rfl | ⟨task, rfl⟩ := haccepted
    · exact List.prefix_refl _
    · exact List.prefix_append _ _

end

/-! The calls. -/

/-- The credentials the requests create are enrolled with the counter of their code. -/
def EnrollsTotp : StandaloneCall → Prop
  | .createCredential credential => credential.kind = .totp ∧ credential.recorded.isSome
  | _ => True

theorem read_store {α : Type} {answer answer' : Except CredentialRepositoryError α}
    {outcome : CallOutcome} (h : store.read answer outcome = some (answer', after)) :
    after = store := by
  cases outcome <;> cases h <;> rfl

variable [SqlJson] {backend : Backend} {task : Nat}

theorem keepsTotp_exec {call : StandaloneCall} {outcome : CallOutcome} {answer : call.Answer}
    (hcall : EnrollsTotp call)
    (h : StandaloneCall.exec backend task call outcome store = some (answer, after)) :
    KeepsTotp start store after := by
  cases call with
  | pipeline call =>
      cases call with
      | identity call =>
          obtain ⟨stored, -, h⟩ := Option.bind_eq_some_iff.mp h
          obtain ⟨⟨_, iam⟩, -, h⟩ := Option.map_eq_some_iff.mp h
          cases h
          exact keepsTotp_of_eq rfl rfl rfl
      | now =>
          cases outcome <;> cases h
          exact refl_of (KeepsTotp start) store
  | clock =>
      cases outcome <;> cases h
      exact refl_of (KeepsTotp start) store
  | findByKey issuer kind credentialKey =>
      rw [read_store h]
      exact refl_of (KeepsTotp start) store
  | listByIdentity identity kind =>
      rw [read_store h]
      exact refl_of (KeepsTotp start) store
  | createCredential credential =>
      obtain ⟨counter, hcounter⟩ := Option.isSome_iff_exists.mp hcall.2
      cases outcome with
      | answered now | lost message now =>
          simp only [StandaloneCall.exec] at h
          split at h
          · cases h
            exact refl_of (KeepsTotp start) store
          · rename_i created hcreated
            cases h
            exact keepsTotp_createCredential hcall.1 hcounter hcreated
      | expired => cases h
      | failed message =>
          cases h
          exact refl_of (KeepsTotp start) store
  | advanceTotpCounter credentialId counter =>
      cases outcome with
      | answered now =>
          simp only [StandaloneCall.exec] at h
          split at h
          · cases h
            exact refl_of (KeepsTotp start) store
          · cases h
            exact refl_of (KeepsTotp start) store
          · rename_i credentials hadvance
            cases h
            exact keepsTotp_advance hadvance (.inr ⟨task, rfl⟩)
      | expired => cases h
      | failed message =>
          cases h
          exact refl_of (KeepsTotp start) store
      | lost message now =>
          simp only [StandaloneCall.exec] at h
          split at h
          · cases h
            exact refl_of (KeepsTotp start) store
          · rename_i advanced credentials hadvance
            cases h
            cases advanced with
            | true => exact keepsTotp_advance hadvance (.inl rfl)
            | false =>
                obtain ⟨-, rfl⟩ | ⟨_, _, _, htrue, -⟩ := advanceTotpCounter_eq_ok hadvance
                · exact refl_of (KeepsTotp start) store
                · cases htrue
  | putChallenge challengeId challenge =>
      cases outcome with
      | answered now =>
          simp only [StandaloneCall.exec] at h
          split at h
          · cases h
            exact refl_of (KeepsTotp start) store
          · cases h
            exact keepsTotp_of_eq rfl rfl rfl
      | expired => cases h
      | failed message | lost message now =>
          cases h
          exact keepsTotp_of_eq rfl rfl rfl
  | consumeChallenge challengeId =>
      cases outcome <;> cases h <;> exact keepsTotp_of_eq rfl rfl rfl

end

end Authguard
