import Authguard.Authn.TokenIssuer
import Authguard.Common.PrincipalDiscovery

/-!
Logins with a wallet (`authn/src/provider/wallet/mod.rs`, `caip.rs`, `evm.rs`).
The `siwx` libraries are given: which addresses they accept, the messages they
write, and which proofs they accept. The clock is read by the caller.
-/

namespace Authguard
open Text

inductive WalletProviderError
  | invalidAccount
  | chainNotConfigured
  | unsupportedNamespace
  | signatureTooLarge
  | invalidSignatureEncoding
  | backend
  | contractVerificationNotConfigured
  | verificationMethodMismatch
  | verification
  deriving DecidableEq

/-! Accounts. -/

structure CaipAccount where
  caipNamespace : String
  reference : String
  address : String
  deriving DecidableEq

namespace CaipAccount

def isComponent (c : Char) : Bool := c.isAlphanum || c = '-' || c = '_'

def isAddress (c : Char) : Bool := c.isAlphanum || c = '-' || c = '.' || c = '_' || c = '%'

def parse (value : String) : Except WalletProviderError CaipAccount :=
  match splitChar ':' value with
  | [caipNamespace, reference, address] =>
      if caipNamespace = "" ∨ reference = "" ∨ address = "" ∨
          caipNamespace.utf8ByteSize < 3 ∨ 8 < caipNamespace.utf8ByteSize ∨
          32 < reference.utf8ByteSize ∨ 128 < address.utf8ByteSize ∨
          !caipNamespace.toList.all (fun c => c.isLower || c.isDigit || c = '-') ∨
          !reference.toList.all isComponent ∨ !address.toList.all isAddress then
        .error .invalidAccount
      else
        .ok { caipNamespace, reference, address }
  | _ => .error .invalidAccount

def canonical (account : CaipAccount) : String :=
  account.caipNamespace ++ ":" ++ account.reference ++ ":" ++ account.address

end CaipAccount

/-! The libraries. -/

inductive WalletVerificationMethod
  | auto
  | eoa
  | erc1271
  | erc6492
  deriving DecidableEq

inductive SiwxError
  | backend
  | rejected (reason : String)

inductive BitcoinNetwork
  | bitcoin
  | testnet
  | signet
  | regtest

def parseNetwork (value : String) : Option BitcoinNetwork :=
  if value ∈ ["bitcoin", "bitcoin-mainnet"] then some .bitcoin
  else if value ∈ ["testnet", "bitcoin-testnet"] then some .testnet
  else if value ∈ ["signet", "bitcoin-signet"] then some .signet
  else if value ∈ ["regtest", "bitcoin-regtest"] then some .regtest
  else none

/-- An `EvmVerifier` that has an endpoint can ask contracts. -/
inductive SiwxVerifier
  | evm (contracts : Bool)
  | solana
  | bitcoin (network : BitcoinNetwork)

structure AuthOpts where
  domain : String
  nonce : String
  uri : String
  chainId : String
  requestId : String
  maxIssuedAge : Duration

/-- `siwx`, its verifiers by namespace, and the decoders of signatures. -/
structure SiwxLibrary (Message : Type) where
  validateAddress : String → String → Except SiwxError Unit
  newMessage : (domain address uri chainId nonce : String) → Except SiwxError Message
  withStatement : Message → String → Except SiwxError Message
  withIssuedAt : Message → Nat → Except SiwxError Message
  withExpirationTime : Message → Nat → Except SiwxError Message
  withRequestId : Message → String → Except SiwxError Message
  formatMessage : String → Message → String
  toRfc3339 : Nat → Option String
  hexDecode : String → Option (List UInt8)
  base58Decode : String → Option (List UInt8)
  authenticate : SiwxVerifier → String → List UInt8 → AuthOpts → Except SiwxError Unit

/-! The provider. -/

structure WalletChains where
  eip155 : SortedMap String (Option String)
  solana : StringSet
  bip122 : SortedMap String String

structure WalletProvider where
  domain : String
  uri : String
  statement : String
  chains : WalletChains
  challengeTtl : Duration

structure WalletChallenge where
  accountId : String
  caipNamespace : String
  reference : String
  nonce : String
  rawMessage : String

structure PreparedWalletChallenge where
  accountId : String
  message : String
  expiresAt : String
  signatureEncoding : String
  verificationMethods : List String
  state : WalletChallenge

def verificationError : SiwxError → WalletProviderError
  | .backend => .backend
  | .rejected _ => .verification

/-- `protocol_error`. -/
def protocolError {α : Type} (step : Except SiwxError α) : Except WalletProviderError α :=
  step.mapError fun _ => .invalidAccount

namespace WalletProvider

variable {Message : Type} (siwx : SiwxLibrary Message) (provider : WalletProvider)

/-- The chain of the account is in the settings. -/
def isConfigured (account : CaipAccount) : Bool :=
  if account.caipNamespace = "eip155" then (provider.chains.eip155.get account.reference).isSome
  else if account.caipNamespace = "solana" then
    (provider.chains.solana.get account.reference).isSome
  else (provider.chains.bip122.get account.reference).isSome

def validateAccount (account : CaipAccount) : Except WalletProviderError String :=
  if account.caipNamespace ∈ ["eip155", "solana", "bip122"] then
    if provider.isConfigured account then do
      (siwx.validateAddress account.caipNamespace account.address).mapError verificationError
      .ok
        (if account.caipNamespace = "eip155" then "hex"
        else if account.caipNamespace = "solana" then "base58"
        else "bip322")
    else
      .error .chainNotConfigured
  else
    .error .unsupportedNamespace

def verificationMethods (account : CaipAccount) : List String :=
  if account.caipNamespace = "eip155" then
    match provider.chains.eip155.get account.reference with
    | some (some _) => ["eoa", "erc1271", "erc6492"]
    | _ => ["eoa"]
  else if account.caipNamespace = "solana" then ["solana"]
  else if account.caipNamespace = "bip122" then ["bip322"]
  else []

/-- The message with the statement of the settings, if they have one. -/
def stated (message : Message) : Except WalletProviderError Message :=
  if provider.statement = "" then .ok message
  else protocolError (siwx.withStatement message provider.statement)

def prepareChallenge (nonce : String) (now : Nat) (accountId challengeId : String) :
    Except WalletProviderError PreparedWalletChallenge := do
  let account ← CaipAccount.parse accountId
  let signatureEncoding ← provider.validateAccount siwx account
  let message ← protocolError
    (siwx.newMessage provider.domain account.address provider.uri account.reference nonce)
  let message ← provider.stated siwx message
  let expiresAt := now + Duration.fromSecs provider.challengeTtl.asSecs
  let message ← protocolError (siwx.withIssuedAt message now)
  let message ← protocolError (siwx.withExpirationTime message expiresAt)
  let message ← protocolError (siwx.withRequestId message challengeId)
  let rawMessage := siwx.formatMessage account.caipNamespace message
  match siwx.toRfc3339 expiresAt with
  | none => .error .backend
  | some expiresAt =>
      .ok
        { accountId := account.canonical
          message := rawMessage
          expiresAt
          signatureEncoding
          verificationMethods := provider.verificationMethods account
          state :=
            { accountId := account.canonical
              caipNamespace := account.caipNamespace
              reference := account.reference
              nonce
              rawMessage } }

def decodeSignature (caipNamespace signature : String) : Except WalletProviderError (List UInt8) :=
  if 262144 < signature.utf8ByteSize then
    .error .signatureTooLarge
  else if caipNamespace = "eip155" then
    match siwx.hexDecode ((stripPrefix "0x" signature).getD signature) with
    | none => .error .invalidSignatureEncoding
    | some decoded => .ok decoded
  else if caipNamespace = "solana" then
    match siwx.base58Decode signature with
    | none => .error .invalidSignatureEncoding
    | some decoded => .ok decoded
  else if caipNamespace = "bip122" then
    .ok (signature.toList.flatMap String.utf8EncodeChar)
  else
    .error .unsupportedNamespace

/-- `has_erc6492_suffix`. -/
def hasErc6492Suffix (signature : List UInt8) : Bool :=
  ((List.replicate 16 [0x64, 0x92]).flatten).isSuffixOf signature

/-- `EvmVerification::verify_contract`. -/
def verifyContract (contracts : Bool) (rawMessage : String) (signature : List UInt8)
    (opts : AuthOpts) (method : String) : Except WalletProviderError String :=
  if contracts then do
    (siwx.authenticate (.evm true) rawMessage signature opts).mapError verificationError
    .ok method
  else
    .error .contractVerificationNotConfigured

/-- `EvmVerification::verify`. -/
def verifyEvm (contracts : Bool) (rawMessage : String) (signature : List UInt8) (opts : AuthOpts)
    (requested : WalletVerificationMethod) : Except WalletProviderError String :=
  if hasErc6492Suffix signature then
    if requested = .auto ∨ requested = .erc6492 then
      verifyContract siwx contracts rawMessage signature opts "erc6492"
    else
      .error .verificationMethodMismatch
  else if requested = .erc6492 then
    .error .verificationMethodMismatch
  else
    match siwx.authenticate (.evm false) rawMessage signature opts with
    | .ok () => if requested ≠ .erc1271 then .ok "eoa" else .error .verificationMethodMismatch
    | .error eoaError =>
        if requested = .eoa then .error (verificationError eoaError)
        else if contracts then do
          (siwx.authenticate (.evm true) rawMessage signature opts).mapError verificationError
          .ok "erc1271"
        else if requested = .erc1271 then .error .contractVerificationNotConfigured
        else .error (verificationError eoaError)

/-- The proof of the challenge, and the method it was verified by. -/
def verifyProof (challenge : WalletChallenge) (signature : List UInt8) (opts : AuthOpts)
    (requested : WalletVerificationMethod) : Except WalletProviderError String :=
  if challenge.caipNamespace = "eip155" then
    verifyEvm siwx ((provider.chains.eip155.get challenge.reference).any Option.isSome)
      challenge.rawMessage signature opts requested
  else if challenge.caipNamespace = "solana" then
    if requested ≠ .auto then
      .error .verificationMethodMismatch
    else do
      (siwx.authenticate .solana challenge.rawMessage signature opts).mapError verificationError
      .ok "solana"
  else if challenge.caipNamespace = "bip122" then
    if requested ≠ .auto then
      .error .verificationMethodMismatch
    else
      match (provider.chains.bip122.get challenge.reference).bind parseNetwork with
      | none => .error .chainNotConfigured
      | some network => do
          (siwx.authenticate (.bitcoin network) challenge.rawMessage signature opts).mapError
            verificationError
          .ok "bitcoin"
  else
    .error .unsupportedNamespace

def verify (now : Int) (challenge : WalletChallenge) (challengeId signature : String)
    (requested : WalletVerificationMethod) : Except WalletProviderError AuthenticationResult := do
  let signature ← decodeSignature siwx challenge.caipNamespace signature
  let method ← provider.verifyProof siwx challenge signature
    { domain := provider.domain
      nonce := challenge.nonce
      uri := provider.uri
      chainId := challenge.reference
      requestId := challengeId
      maxIssuedAge := Duration.fromSecs provider.challengeTtl.asSecs } requested
  .ok
    { externalIdentity :=
        { provider := "wallet", issuer := "caip-122", subject := challenge.accountId
          claims := .empty }
      amr := ["wallet", "siwx", method]
      acr := some "urn:authguard:acr:wallet-possession"
      authenticatedAt := now }

end WalletProvider

end Authguard
