import Authguard.Authn.WalletAccount
import Authguard.Library.Result

/-!
Subjects of wallets. The subject is the account as it was written; it is one for each
account where an address has one spelling, and a Bitcoin address may have two.
-/

namespace Authguard
open Text

/-- `toAsciiLowercase` for capitals. -/
def toAsciiUppercase (s : String) : String := String.ofList (s.toList.map Char.toUpper)

/-- What the libraries accept: one checksummed spelling for an EVM address, texts that base58
decodes apart for Solana; a segwit address of Bitcoin in small letters or in capitals. -/
structure Spellings {Message Account : Type} (siwx : SiwxLibrary Message)
    (accountOf : String → String → Account) (checksum spelling : Account → String)
    (Segwit : Account → Prop) : Prop where
  evm : ∀ address, siwx.validateAddress "eip155" address = .ok () →
    address = checksum (accountOf "eip155" address)
  solana : ∀ address other, siwx.validateAddress "solana" address = .ok () →
    siwx.validateAddress "solana" other = .ok () →
    accountOf "solana" address = accountOf "solana" other → address = other
  bitcoin : ∀ address, siwx.validateAddress "bip122" address = .ok () →
    address = spelling (accountOf "bip122" address) ∨
      (Segwit (accountOf "bip122" address) ∧
        address = toAsciiUppercase (spelling (accountOf "bip122" address)))
  segwit : ∀ account, Segwit account → toAsciiLowercase (spelling account) = spelling account

/-- There are no capitals in the text. -/
def IsLowercase (s : String) : Prop := toAsciiLowercase s = s

theorem toLower_toUpper {c : Char} (h : c.toLower = c) : c.toUpper.toLower = c := by
  have hletters : ∀ n, 97 ≤ n → n ≤ 122 → (Char.ofNat n).toUpper.toLower = Char.ofNat n := by
    intro n hlow hhigh
    interval_cases n <;> decide
  by_cases hlower : 'a'.val ≤ c.val ∧ c.val ≤ 'z'.val
  · rw [UInt32.le_iff_toNat_le, UInt32.le_iff_toNat_le] at hlower
    have hletter := hletters c.toNat hlower.1 hlower.2
    rwa [Char.ofNat_toNat] at hletter
  · rw [Char.toUpper, dif_neg hlower, h]

theorem toAsciiLowercase_uppercase {s : String} (h : IsLowercase s) :
    toAsciiLowercase (toAsciiUppercase s) = s := by
  have hchars := congrArg String.toList h
  rw [toAsciiLowercase, String.toList_ofList] at hchars
  rw [toAsciiUppercase, toAsciiLowercase, String.toList_ofList, ← String.toList_inj,
    String.toList_ofList, List.map_map]
  refine (List.map_congr_left fun c hc => ?_).trans (List.map_id _)
  exact toLower_toUpper (List.map_inj_left.mp (hchars.trans (List.map_id _).symm) c hc)

theorem canonical_inj {account other : CaipAccount}
    (hspace : account.caipNamespace = other.caipNamespace)
    (hreference : account.reference = other.reference) :
    account.canonical = other.canonical ↔ account.address = other.address := by
  rw [CaipAccount.canonical, CaipAccount.canonical, hspace, hreference]
  exact String.append_right_inj _

section
variable {Message : Type} {siwx : SiwxLibrary Message} {provider : WalletProvider}

theorem validateAccount_ok {account : CaipAccount} {encoding : String}
    (h : provider.validateAccount siwx account = .ok encoding) :
    account.caipNamespace ∈ ["eip155", "solana", "bip122"] ∧
      siwx.validateAddress account.caipNamespace account.address = .ok () := by
  rw [WalletProvider.validateAccount] at h
  split at h
  · rename_i hspace
    split at h
    · obtain ⟨⟨⟩, hvalid, -⟩ := Result.bind_ok_iff.mp h
      exact ⟨hspace, Result.mapError_ok.mp hvalid⟩
    · cases h
  · cases h

/-- What a challenge is prepared for. -/
theorem prepareChallenge_ok {nonce : String} {now : Nat} {accountId challengeId : String}
    {prepared : PreparedWalletChallenge} {account : CaipAccount}
    (hparse : CaipAccount.parse accountId = .ok account)
    (h : provider.prepareChallenge siwx nonce now accountId challengeId = .ok prepared) :
    account.caipNamespace ∈ ["eip155", "solana", "bip122"] ∧
      siwx.validateAddress account.caipNamespace account.address = .ok () ∧
      prepared.state.accountId = account.canonical := by
  obtain ⟨parsed, hparsed, h⟩ := Result.bind_ok_iff.mp h
  rw [hparse] at hparsed
  cases hparsed
  obtain ⟨encoding, hencoding, h⟩ := Result.bind_ok_iff.mp h
  obtain ⟨hspace, hvalid⟩ := validateAccount_ok hencoding
  refine ⟨hspace, hvalid, ?_⟩
  obtain ⟨message, -, h⟩ := Result.bind_ok_iff.mp h
  obtain ⟨stated, -, h⟩ := Result.bind_ok_iff.mp h
  obtain ⟨issued, -, h⟩ := Result.bind_ok_iff.mp h
  obtain ⟨expiring, -, h⟩ := Result.bind_ok_iff.mp h
  obtain ⟨identified, -, h⟩ := Result.bind_ok_iff.mp h
  split at h
  · cases h
  · cases h
    rfl

theorem verify_subject {now : Int} {challenge : WalletChallenge} {challengeId signature : String}
    {requested : WalletVerificationMethod} {result : AuthenticationResult}
    (h : provider.verify siwx now challenge challengeId signature requested = .ok result) :
    result.externalIdentity.subject = challenge.accountId := by
  obtain ⟨decoded, -, h⟩ := Result.bind_ok_iff.mp h
  obtain ⟨method, -, h⟩ := Result.bind_ok_iff.mp h
  cases h
  rfl

/-- What is a spelling of one account in one case is one text. -/
theorem Spellings.cased_eq {Account : Type} {accountOf : String → String → Account}
    {checksum spelling : Account → String} {Segwit : Account → Prop}
    (h : Spellings siwx accountOf checksum spelling Segwit) {account : Account}
    {address other : String}
    (haddress : address = spelling account ∨
      (Segwit account ∧ address = toAsciiUppercase (spelling account)))
    (hother : other = spelling account ∨
      (Segwit account ∧ other = toAsciiUppercase (spelling account)))
    (hcase : IsLowercase address ↔ IsLowercase other) : address = other := by
  have hmixed : ∀ {small capitals : String}, Segwit account → small = spelling account →
      capitals = toAsciiUppercase (spelling account) → (IsLowercase small ↔ IsLowercase capitals) →
        small = capitals := by
    rintro small capitals hsegwit rfl rfl hcase
    have hlower := hcase.mp (h.segwit account hsegwit)
    rw [IsLowercase, toAsciiLowercase_uppercase (h.segwit account hsegwit)] at hlower
    exact hlower
  obtain hsmall | ⟨hsegwit, hcapitals⟩ := haddress
  · obtain hsmall' | ⟨hsegwit, hcapitals'⟩ := hother
    · rw [hsmall, hsmall']
    · exact hmixed hsegwit hsmall hcapitals' hcase
  · obtain hsmall' | ⟨-, hcapitals'⟩ := hother
    · exact (hmixed hsegwit hsmall' hcapitals hcase.symm).symm
    · rw [hcapitals, hcapitals']

/-- Spellings of one account that differ only in their case differ in nothing. -/
theorem Spellings.address_eq_iff {Account : Type} {accountOf : String → String → Account}
    {checksum spelling : Account → String} {Segwit : Account → Prop}
    (h : Spellings siwx accountOf checksum spelling Segwit) {caipNamespace address other : String}
    (hspace : caipNamespace ∈ ["eip155", "solana", "bip122"])
    (hvalid : siwx.validateAddress caipNamespace address = .ok ())
    (hother : siwx.validateAddress caipNamespace other = .ok ())
    (hsame : accountOf caipNamespace address = accountOf caipNamespace other) :
    address = other ↔ (caipNamespace = "bip122" → (IsLowercase address ↔ IsLowercase other)) := by
  constructor
  · rintro rfl -
    rfl
  · intro hcase
    simp only [List.mem_cons, List.not_mem_nil, or_false] at hspace
    obtain rfl | rfl | rfl := hspace
    · rw [h.evm address hvalid, h.evm other hother, hsame]
    · exact h.solana address other hvalid hother hsame
    · have hcase := hcase rfl
      have hbitcoin := h.bitcoin address hvalid
      have hbitcoin' := h.bitcoin other hother
      rw [hsame] at hbitcoin
      generalize accountOf "bip122" other = account at hbitcoin hbitcoin'
      exact h.cased_eq hbitcoin hbitcoin' hcase

end

/-- Two accepted spellings of an account are one subject exactly when, for a Bitcoin address, they
are in the same case. -/
theorem wallet_subject_iff {Message Account : Type} {siwx : SiwxLibrary Message}
    {accountOf : String → String → Account} {checksum spelling : Account → String}
    {Segwit : Account → Prop} (hspellings : Spellings siwx accountOf checksum spelling Segwit)
    {provider : WalletProvider} {accountId otherId : String} {account other : CaipAccount}
    (hparse : CaipAccount.parse accountId = .ok account)
    (hparse' : CaipAccount.parse otherId = .ok other)
    (hspace : account.caipNamespace = other.caipNamespace)
    (hreference : account.reference = other.reference)
    (hsame : accountOf account.caipNamespace account.address =
      accountOf other.caipNamespace other.address)
    {nonce nonce' challengeId challengeId' : String} {now now' : Nat}
    {prepared prepared' : PreparedWalletChallenge}
    (hprepared : provider.prepareChallenge siwx nonce now accountId challengeId = .ok prepared)
    (hprepared' : provider.prepareChallenge siwx nonce' now' otherId challengeId' = .ok prepared')
    {instant instant' : Int} {signature signature' : String}
    {requested requested' : WalletVerificationMethod} {result result' : AuthenticationResult}
    (hverified : provider.verify siwx instant prepared.state challengeId signature requested =
      .ok result)
    (hverified' : provider.verify siwx instant' prepared'.state challengeId' signature' requested' =
      .ok result') :
    result.externalIdentity.subject = result'.externalIdentity.subject ↔
      (account.caipNamespace = "bip122" →
        (IsLowercase account.address ↔ IsLowercase other.address)) := by
  obtain ⟨hknown, hvalid, hstate⟩ := prepareChallenge_ok hparse hprepared
  obtain ⟨-, hvalid', hstate'⟩ := prepareChallenge_ok hparse' hprepared'
  rw [← hspace] at hvalid' hsame
  rw [verify_subject hverified, verify_subject hverified', hstate, hstate',
    canonical_inj hspace hreference]
  exact hspellings.address_eq_iff hknown hvalid hvalid' hsame

/-! An address of Bitcoin, in small letters and in capitals. -/

namespace Wallet

def small : String := "bc1qw508d6qejxtdg4y5r3zarvary0c5xw7kv8f3t4"

def capitals : String := "BC1QW508D6QEJXTDG4Y5R3ZARVARY0C5XW7KV8F3T4"

def siwx : SiwxLibrary String where
  validateAddress caipNamespace address :=
    if caipNamespace = "bip122" ∧ (address = small ∨ address = capitals) then .ok ()
    else .error (.rejected "unknown address")
  newMessage domain address uri chainId nonce :=
    .ok (domain ++ " " ++ address ++ " " ++ uri ++ " " ++ chainId ++ " " ++ nonce)
  withStatement message statement := .ok (message ++ " " ++ statement)
  withIssuedAt message now := .ok (message ++ " " ++ now.repr)
  withExpirationTime message instant := .ok (message ++ " " ++ instant.repr)
  withRequestId message id := .ok (message ++ " " ++ id)
  formatMessage _ message := message
  toRfc3339 instant := some instant.repr
  hexDecode _ := none
  base58Decode _ := none
  authenticate _ _ signature _ :=
    if signature = "proof".toList.flatMap String.utf8EncodeChar then .ok ()
    else .error (.rejected "unknown proof")

def provider : WalletProvider where
  domain := "shop.example"
  uri := "https://shop.example"
  statement := ""
  chains := ⟨.empty, .empty, .ofList [("000000000019d6689c085ae165831e93", "bitcoin")]⟩
  challengeTtl := Duration.fromSecs 300

def accountOf (caipNamespace address : String) : String :=
  if caipNamespace = "bip122" then toAsciiLowercase address else address

def accountId (address : String) : String := "bip122:000000000019d6689c085ae165831e93:" ++ address

theorem spellings : Spellings siwx accountOf id id (· = small) where
  evm _ _ := rfl
  solana _ _ _ _ h := h
  bitcoin address h := by
    simp only [siwx] at h
    split at h
    · rename_i haddress
      obtain rfl | rfl := haddress.2
      · exact .inl (by decide +kernel)
      · exact .inr ⟨by decide +kernel, by decide +kernel⟩
    · cases h
  segwit := by
    rintro account rfl
    decide +kernel

/-- What a challenge for the address leads to. -/
def login (address nonce : String) : Except WalletProviderError AuthenticationResult := do
  let prepared ← provider.prepareChallenge siwx nonce 0 (accountId address) "challenge"
  provider.verify siwx 0 prepared.state "challenge" "proof" .auto

theorem login_ok {address nonce subject : String}
    (h : (login address nonce).map (·.externalIdentity.subject) = .ok subject) :
    ∃ prepared result,
      provider.prepareChallenge siwx nonce 0 (accountId address) "challenge" = .ok prepared ∧
      provider.verify siwx 0 prepared.state "challenge" "proof" .auto = .ok result ∧
      login address nonce = .ok result ∧ result.externalIdentity.subject = subject := by
  obtain ⟨result, hlogin, hsubject⟩ := Result.map_ok_iff.mp h
  obtain ⟨prepared, hprepared, hverified⟩ := Result.bind_ok_iff.mp hlogin
  exact ⟨prepared, result, hprepared, hverified, hlogin, hsubject⟩

theorem login_again :
    ∃ first second, login small "a" = .ok first ∧ login small "b" = .ok second ∧
      first.externalIdentity.subject = second.externalIdentity.subject := by
  have hfirst : (login small "a").map (·.externalIdentity.subject) = .ok (accountId small) := by
    decide +kernel
  have hsecond : (login small "b").map (·.externalIdentity.subject) = .ok (accountId small) := by
    decide +kernel
  have hparse : CaipAccount.parse (accountId small) =
      .ok ⟨"bip122", "000000000019d6689c085ae165831e93", small⟩ := by
    decide +kernel
  obtain ⟨prepared, first, hprepared, hverified, hlogin, -⟩ := login_ok hfirst
  obtain ⟨prepared', second, hprepared', hverified', hlogin', -⟩ := login_ok hsecond
  refine ⟨first, second, hlogin, hlogin', ?_⟩
  exact (wallet_subject_iff spellings hparse hparse rfl rfl rfl hprepared hprepared' hverified
    hverified').mpr fun _ => Iff.rfl

/-- One account of Bitcoin, two subjects. -/
theorem login_capitals :
    accountOf "bip122" small = accountOf "bip122" capitals ∧
      ∃ first second, login small "a" = .ok first ∧ login capitals "b" = .ok second ∧
        first.externalIdentity.subject ≠ second.externalIdentity.subject := by
  have hfirst : (login small "a").map (·.externalIdentity.subject) = .ok (accountId small) := by
    decide +kernel
  have hsecond : (login capitals "b").map (·.externalIdentity.subject) =
      .ok (accountId capitals) := by
    decide +kernel
  obtain ⟨-, first, -, -, hlogin, hsubject⟩ := login_ok hfirst
  obtain ⟨-, second, -, -, hlogin', hsubject'⟩ := login_ok hsecond
  refine ⟨by decide +kernel, first, second, hlogin, hlogin', ?_⟩
  rw [hsubject, hsubject']
  decide +kernel

end Wallet

end Authguard
