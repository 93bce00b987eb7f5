import TkmChain.Stamp

/-!
# Envelope rules

The checks of each envelope version that do not read the state. V3 and V4 are
one set of rules with different texts and references (`NoteTexts`, `noteBasics`);
V5 repeats most of them in its own order.
-/

namespace TkmChain

/-! ## Nullifiers -/

def inputSlots : Nat := 4

def shield5InputSlots : Nat := 16

def checkNullifiers (count : Nat) : Nat → List Digest → List Digest → Except Err Unit
  | _, _, [] => .ok ()
  | i, seen, n :: rest => do
    let _ ← digestFromBytes n.bytes
    if i < count then do
      failIf (n = 0 ∨ n ∈ seen) (.invalidShieldedTx "")
      checkNullifiers count (i + 1) (n :: seen) rest
    else do
      failIf (n ≠ 0) (.invalidShieldedTx "")
      checkNullifiers count (i + 1) seen rest

def effectiveCount (deposit : Bool) (inputCount : Nat) : Nat :=
  if ¬ deposit ∧ inputCount = 0 then 1 else inputCount

def noteNullifiers (slots : Nat) (deposit : Bool) (inputCount : Nat) (all : List Digest) :
    Except Err (List Digest) := do
  let count := effectiveCount deposit inputCount
  failIf (slots < count ∨ deposit ≠ decide (count = 0)) (.invalidShieldedTx "")
  checkNullifiers count 0 [] all
  pure (all.take count)

def shieldedV3Nullifiers (e : ShieldedV3Transaction) : Except Err (List Digest) :=
  noteNullifiers inputSlots e.deposit e.inputCount (e.nullifier :: e.additionalNullifiers.toList)

def shieldedV4Nullifiers (e : ShieldedV4Transaction) : Except Err (List Digest) :=
  noteNullifiers inputSlots e.deposit e.inputCount (e.nullifier :: e.additionalNullifiers.toList)

def shieldedV5Nullifiers (e : ShieldedV5Transaction) : Except Err (List Digest) :=
  noteNullifiers shield5InputSlots e.deposit e.inputCount
    (e.nullifier :: e.additionalNullifiers.toList ++ e.additionalNullifiersV5.toList)

namespace ShieldedV3Transaction

/-- `shieldedV3AssetID`, and its V4 and V5 namesakes. -/
def asset (e : ShieldedV3Transaction) : Nat := normalizeAssetID e.assetID

def withdrawal (e : ShieldedV3Transaction) : Int := e.withdrawalValue.getD 0

def sponsor (e : ShieldedV3Transaction) : Int := e.gasSponsorValue.getD 0

def validValues (e : ShieldedV3Transaction) : Bool :=
  e.withdrawalValue.isSome && e.gasSponsorValue.isSome && 0 ≤ e.withdrawal && 0 ≤ e.sponsor

end ShieldedV3Transaction

/-- `ValidateShieldedV3Time` and `ValidateShieldedV4Time`. -/
def validateRelayTime (e : ShieldedV3Transaction) (time : Nat) : Except Err Unit :=
  if e.relayed then
    failIf (e.deposit ∨ e.withdrawalValue ≠ some 0 ∨ e.validUntil ≤ time ∨
        antarticalStampSponsorshipLifetime < e.validUntil - time)
      (.invalidShieldedTx "invalid or expired relay authorization")
  else failIf (e.validUntil ≠ 0) (.invalidShieldedTx "expiry requires relay mode")

def maxGasCost (tx : Tx) : Int := tx.gas * tx.gasFeeCap

/-! ## Binding registrations of V6 -/

def shieldedV6BoundVersion : Nat := 7

def shieldedV6BindingVersion : Nat := 8

def shieldedV6MaxRecipientProof : Nat := 4096

def shieldedV6MaxLifetime : Nat := 3600

def validShieldedV6BindingShape (e : ShieldedV6Transaction) : Bool :=
  e.version = shieldedV6BindingVersion && e.assetID = 1 && e.binding.isSome && e.recipients.isNone && !e.deposit &&
    e.depositMask = 0 && e.withdrawalRecipient = 0 && e.withdrawalValue.getD 0 = 0 && e.inputs.isEmpty &&
    e.outputs.isEmpty && e.rangeProof.isEmpty

/-! ## The shielded-only rule -/

section
variable (B : Backend) (cfg : ChainConfig) (num time : Nat)

structure LegacyFields where
  deposit : Bool
  recipient : Address
  (withdrawal sponsor : Option Int)
  assetID : Nat

def legacyFields (e : ShieldedV3Transaction) : LegacyFields :=
  ⟨e.deposit, e.withdrawalRecipient, e.withdrawalValue, e.gasSponsorValue, e.assetID⟩

def legacyExitFields (data : Bytes) : Option LegacyFields :=
  if hasShieldedV5Prefix data then
    match decodeShieldedV5Transaction B data with
    | .ok (some e) => if e.version = 5 then some (legacyFields e.toShieldedV3Transaction) else none
    | _ => none
  else if hasShieldedV4Prefix data then
    match decodeShieldedV4Transaction B data with
    | .ok (some e) => if e.version = 4 then some (legacyFields e.toShieldedV3Transaction) else none
    | _ => none
  else if hasShieldedV3Prefix data then
    match decodeShieldedV3Transaction B data with
    | .ok (some e) => if e.version = 3 then some { legacyFields e with assetID := 0 } else none
    | _ => none
  else none

def isShieldedLegacySelfExit (tx : Tx) (sender : Address) : Bool :=
  tx.type = .pqTkm && tx.toAddr = some poolAddress && tx.value = 0 &&
    match legacyExitFields B tx.data with
    | none => false
    | some f => !f.deposit && normalizeAssetID f.assetID = assetTKM && 0 < f.withdrawal.getD 0 &&
        !bitLenAbove (f.withdrawal.getD 0) 128 && f.recipient = sender && f.sponsor = some 0

def shieldedOnlyV6 (tx : Tx) : Except Err Unit := do
  failIf (tx.type ≠ .pqTkm ∨ tx.toAddr ≠ some poolAddress)
    (.publicPaymentDisabled "Shield6 requires a PQ transaction to the reserved pool")
  match decodeShieldedV6Transaction B tx.data with
  | .ok (some e) => do
    failIf (e.version ≠ 6 ∧ e.version ≠ shieldedV6BoundVersion ∧ e.version ≠ shieldedV6BindingVersion)
      (.publicPaymentDisabled "malformed Shield6 envelope")
    if e.version = shieldedV6BindingVersion then
      failIf (tx.value ≠ 0 ∨ ¬ validShieldedV6BindingShape e)
        (.publicPaymentDisabled "invalid Shield6 key registration")
    else if e.deposit then
      failIf (tx.value = 0 ∨ 0 < e.withdrawalValue.getD 0 ∨ e.withdrawalRecipient ≠ 0 ∨ e.inputs ≠ [])
        (.publicPaymentDisabled "invalid Shield6 public deposit boundary")
    else if 0 < e.withdrawalValue.getD 0 then
      failIf (tx.value ≠ 0 ∨ e.withdrawalRecipient = 0 ∨ e.inputs = [])
        (.publicPaymentDisabled "invalid Shield6 public withdrawal boundary")
    else
      failIf (tx.value ≠ 0 ∨ e.withdrawalRecipient ≠ 0 ∨ e.inputs = [])
        (.publicPaymentDisabled "invalid Shield6 private transfer")
  | _ => .error (.publicPaymentDisabled "malformed Shield6 envelope")

/-- The fields of a V3, V5 or V4 envelope, in the order of the source's switch. -/
def shieldedOnlyLegacy (data : Bytes) : Except Err LegacyFields :=
  if hasShieldedV3Prefix data then
    match decodeShieldedV3Transaction B data with
    | .ok (some e) =>
      if e.version = 3 then .ok (legacyFields e) else .error (.publicPaymentDisabled "malformed Shield3 envelope")
    | _ => .error (.publicPaymentDisabled "malformed Shield3 envelope")
  else if hasShieldedV5Prefix data then
    match decodeShieldedV5Transaction B data with
    | .ok (some e) =>
      if e.version = 5 then .ok (legacyFields e.toShieldedV3Transaction)
      else .error (.publicPaymentDisabled "malformed Shield5 envelope")
    | _ => .error (.publicPaymentDisabled "malformed Shield5 envelope")
  else if hasShieldedV4Prefix data then
    match decodeShieldedV4Transaction B data with
    | .ok (some e) =>
      if e.version = 4 then .ok (legacyFields e.toShieldedV3Transaction)
      else .error (.publicPaymentDisabled "malformed Shield4 envelope")
    | _ => .error (.publicPaymentDisabled "malformed Shield4 envelope")
  else .error (.publicPaymentDisabled "unsupported public or legacy envelope")

def shieldedOnlyValidator (tx : Tx) : Except Err Unit :=
  if hasValidatorRegistrationPrefix tx.data then do
    failIf (tx.value ≠ validatorBondWei)
      (.publicPaymentDisabled "validator registration must transfer exactly the consensus bond")
    (decodeValidatorRegistration B tx.data).mapError (fun _ => .publicPaymentDisabled "malformed validator registration")
      |>.map fun _ => ()
  else do
    failIf (tx.value ≠ 0) (.publicPaymentDisabled "validator control operations cannot transfer value")
    (validateValidatorEnvelopeEncoding B tx.data).mapError
      fun _ => .publicPaymentDisabled "malformed validator control envelope"

def shieldedOnlyFields (tx : Tx) : Except Err Unit :=
  if hasShieldedV6Prefix tx.data then shieldedOnlyV6 B tx
  else do
    failIf ((tx.type ≠ .pqTkm ∨ tx.toAddr ≠ some poolAddress ∨ tx.value ≠ 0) ∧
        (tx.type ≠ .pqTkm ∨ tx.toAddr ≠ some poolAddress ∨ ¬ hasValidatorRegistrationPrefix tx.data ∨
          tx.value ≠ validatorBondWei))
      (.publicPaymentDisabled "requires a zero-value PQ envelope to the shielded pool")
    if isValidatorProtocolEnvelope tx.data then shieldedOnlyValidator B tx
    else if hasAntarticalStampPrefix tx.data then
      (decodeAntarticalStamp B tx.data).mapError (fun _ => .publicPaymentDisabled "malformed stamp registration")
        |>.map fun _ => ()
    else do
      let f ← shieldedOnlyLegacy B tx.data
      failIf (f.deposit ∨ f.withdrawal ≠ some 0 ∨ f.recipient ≠ 0)
        (.publicPaymentDisabled "deposits and public withdrawals reveal their amount")
      failIf (f.sponsor ≠ some 0) (.publicPaymentDisabled
        "gas must be paid outside the private notes; public reserve refunds would expose value")

def selfExit (tx : Tx) : Bool :=
  match B.sender cfg num time tx with
  | .ok sender => isShieldedLegacySelfExit B tx sender
  | .error _ => false

def validateShieldedOnlyTransaction (tx : Tx) : Except Err Unit :=
  if cfg.isAntartical num time ∧ isValidatorProtocolEnvelope tx.data then do
    failIf (¬ cfg.isValidatorTransactionsActive num time) .validatorTransactionsNotActive
    validateValidatorProtocolBasics B cfg num time tx
  else if ¬ cfg.isShieldedOnly num time then .ok ()
  else if cfg.isShield6 num time ∧ selfExit B cfg num time tx then .ok ()
  else shieldedOnlyFields B tx

/-! ## V3 and V4 -/

structure NoteTexts where
  (inactive requiresPQ chainID version asset publicValues inputs relayReserve sendLimit : String)
  (recipient depositShape spendShape sponsorAbove sponsorWrapped commitment keySize key : String)
  (canonicalCommitment canonicalKey ciphertext proof : String)

def shieldedV3Texts : NoteTexts where
  inactive := "Shield3 is not active until Antartical"
  requiresPQ := "Shield3 requires a PQ transaction to the shielded pool"
  chainID := "Shield3 chain ID mismatch"
  version := "expected Shield3 envelope version 3"
  asset := "unsupported Shield3 asset ID"
  publicValues := "invalid Shield3 public values"
  inputs := "invalid input count or nullifiers"
  relayReserve := "relay requires the exact authorized gas reserve"
  sendLimit := "Shield3 send exceeds 5000000 TKM"
  recipient := "Shield3 withdrawal recipient/value mismatch"
  depositShape := "invalid Shield3 deposit or amount exceeds 5000000 TKM"
  spendShape := "invalid Shield3 private spend references"
  sponsorAbove := "Shield3 gas sponsorship exceeds transaction gas cost"
  sponsorWrapped := "wrapped private TKM cannot sponsor public gas"
  commitment := "zero or duplicate Shield3 output commitment"
  keySize := "missing or invalid Shield3 one-time output key"
  key := "invalid or duplicate Shield3 one-time output key"
  canonicalCommitment := "noncanonical Shield3 output commitment"
  canonicalKey := "noncanonical Shield3 one-time output key"
  ciphertext := "invalid Shield3 encrypted output context"
  proof := "invalid Shield3 proof encoding"

def shieldedV4Texts : NoteTexts where
  inactive := "Shield4 is not active until Antartical"
  requiresPQ := "Shield4 requires a PQ transaction to the shielded pool"
  chainID := "Shield4 chain ID mismatch"
  version := "Shield4 expected envelope version 4"
  asset := "Shield4 unsupported Shield4 asset ID"
  publicValues := "Shield4 invalid public values"
  inputs := "Shield4 invalid input count or nullifiers"
  relayReserve := "Shield4 relay requires the exact authorized gas reserve"
  sendLimit := "Shield4 send exceeds 5000000 TKM"
  recipient := "Shield4 withdrawal recipient/value mismatch"
  depositShape := "Shield4 invalid deposit or amount exceeds 5000000 TKM"
  spendShape := "Shield4 invalid private spend references"
  sponsorAbove := "Shield4 gas sponsorship exceeds transaction gas cost"
  sponsorWrapped := "Shield4 wrapped private TKM cannot sponsor public gas"
  commitment := "Shield4 zero or duplicate output commitment"
  keySize := "Shield4 invalid or duplicate one-time output key"
  key := "Shield4 invalid or duplicate one-time output key"
  canonicalCommitment := "Shield4 noncanonical output commitment"
  canonicalKey := "Shield4 noncanonical one-time output key"
  ciphertext := "Shield4 invalid encrypted output context"
  proof := "Shield4 invalid STARK proof encoding"

def canonicalOr (d : Bytes) (text : String) : Except Err Unit :=
  match digestFromBytes d with
  | .ok _ => .ok ()
  | .error _ => .error (.invalidShieldedTx text)

/-- `ShieldedV4Output` and `ShieldedV3Output` carry the same fields. -/
def validCiphertexts (chainID : Nat) (out : ShieldedV3Output) : Bool :=
  B.validCiphertext chainID .incoming out.commitment out.incoming &&
    B.validCiphertext chainID .outgoing out.commitment out.outgoing &&
    B.validCiphertext chainID .stamp out.commitment out.stamp

def checkNoteOutputs (t : NoteTexts) (chainID : Nat) :
    List Digest → List Bytes → List ShieldedV3Output → Except Err Unit
  | _, _, [] => .ok ()
  | seen, keys, out :: rest => do
    failIf (out.commitment = 0 ∨ out.commitment ∈ seen) (.invalidShieldedTx t.commitment)
    failIf (out.oneTimeKey.length ≠ 40) (.invalidShieldedTx t.keySize)
    failIf (out.oneTimeKey = List.replicate 40 0 ∨ out.oneTimeKey ∈ keys) (.invalidShieldedTx t.key)
    canonicalOr out.commitment.bytes t.canonicalCommitment
    canonicalOr out.oneTimeKey t.canonicalKey
    failIf (¬ validCiphertexts B chainID out) (.invalidShieldedTx t.ciphertext)
    checkNoteOutputs t chainID (out.commitment :: seen) (out.oneTimeKey :: keys) rest

def noteDomain (t : NoteTexts) (tx : Tx) : Except Err Unit := do
  failIf (¬ (cfg.isAntartical num time ∧ cfg.isPrivacyCommitments num time)) (.invalidShieldedTx t.inactive)
  failIf (tx.type ≠ .pqTkm ∨ tx.toAddr ≠ some poolAddress) (.invalidShieldedTx t.requiresPQ)
  failIf (some tx.chainId ≠ cfg.chainID ∨ 2 ^ 64 ≤ tx.chainId) (.invalidShieldedTx t.chainID)

/-- The rules of a decoded V3 or V4 envelope. `refs` are the digests a deposit leaves zero
and a spend sets; `digests` are checked for canonicity, each with its text. -/
def noteBasics (t : NoteTexts) (tx : Tx) (e : ShieldedV3Transaction) (nullifiers : Except Err (List Digest))
    (refs : List Digest) (digests : List (Digest × String)) : Except Err Unit := do
  failIf (¬ isSupportedAsset e.assetID) (.invalidShieldedTx t.asset)
  failIf (¬ e.validValues) (.invalidShieldedTx t.publicValues)
  validateConfidentialLedgerShape cfg num time tx e.deposit e.sponsor e.feeMode e.asset
  validateRelayTime e time
  let _ ← nullifiers.mapError fun _ => .invalidShieldedTx t.inputs
  failIf (e.relayed ∧ ¬ cfg.isShieldedOnly num time ∧ ¬ cfg.isConfidentialLedger num time ∧ e.sponsor ≠ maxGasCost tx)
    (.invalidShieldedTx t.relayReserve)
  failIf (maxSendWei < e.withdrawal) (.invalidShieldedTx t.sendLimit)
  failIf (decide (0 < e.withdrawal) ≠ decide (e.withdrawalRecipient ≠ 0)) (.invalidShieldedTx t.recipient)
  failIf (e.deposit ∧ (tx.value = 0 ∨ maxSendWei < tx.value ∨ e.withdrawal + e.sponsor ≠ 0 ∨ ∃ d ∈ refs, d ≠ 0))
    (.invalidShieldedTx t.depositShape)
  failIf (¬ e.deposit ∧ (tx.value ≠ 0 ∨ ∃ d ∈ refs, d = 0)) (.invalidShieldedTx t.spendShape)
  checkAll (fun d => canonicalOr d.1.bytes d.2) digests
  failIf (maxGasCost tx < e.sponsor) (.invalidShieldedTx t.sponsorAbove)
  failIf (e.asset = assetPTKM ∧ e.sponsor ≠ 0) (.invalidShieldedTx t.sponsorWrapped)
  checkNoteOutputs B t tx.chainId [] [] e.outputs.toList
  failIf (¬ validProofEncoding e.proof) (.invalidShieldedTx t.proof)

def shieldedV3Basics (tx : Tx) : Except Err ShieldedV3Transaction := do
  validateShieldedOnlyTransaction B cfg num time tx
  noteDomain cfg num time shieldedV3Texts tx
  let e ← orFail (← decodeShieldedV3Transaction B tx.data) (.invalidShieldedTx shieldedV3Texts.version)
  failIf (e.version ≠ 3) (.invalidShieldedTx shieldedV3Texts.version)
  noteBasics B cfg num time shieldedV3Texts tx e (shieldedV3Nullifiers e) [e.anchor, e.nullifier]
    [(e.anchor, "noncanonical Shield3 anchor"), (e.nullifier, "noncanonical Shield3 nullifier")]
  pure e

def shieldedV4Basics (tx : Tx) : Except Err ShieldedV4Transaction := do
  validateShieldedOnlyTransaction B cfg num time tx
  noteDomain cfg num time shieldedV4Texts tx
  let e ← orFail (← decodeShieldedV4Transaction B tx.data) (.invalidShieldedTx shieldedV4Texts.version)
  failIf (e.version ≠ 4) (.invalidShieldedTx shieldedV4Texts.version)
  noteBasics B cfg num time shieldedV4Texts tx e.toShieldedV3Transaction (shieldedV4Nullifiers e)
    [e.anchor, e.nullifier, e.linkTag]
    ([e.anchor, e.nullifier, e.stampRoot, e.linkTag].map fun d => (d, "Shield4 noncanonical digest"))
  pure e

/-! ## V5 -/

def shieldedV5AsV4 (e : ShieldedV5Transaction) : ShieldedV4Transaction :=
  { e.toShieldedV4Transaction with version := 4, inputCount := min e.inputCount inputSlots }

def checkV5Outputs (chainID : Nat) : List Digest → List Bytes → List ShieldedV3Output → Except Err Unit
  | _, _, [] => .ok ()
  | seen, keys, out :: rest => do
    failIf (out.commitment = 0 ∨ out.commitment ∈ seen ∨ out.oneTimeKey.length ≠ 40 ∨ out.oneTimeKey ∈ keys)
      (.invalidShieldedTx "")
    canonicalOr out.commitment.bytes "noncanonical output commitment"
    failIf (out.oneTimeKey = List.replicate 40 0) (.invalidShieldedTx "zero one-time output key")
    let _ ← digestFromBytes out.oneTimeKey
    failIf (¬ validCiphertexts B chainID out) (.invalidShieldedTx "")
    checkV5Outputs chainID (out.commitment :: seen) (out.oneTimeKey :: keys) rest

def v5Shape (tx : Tx) (e : ShieldedV5Transaction) : Except Err Unit := do
  failIf (¬ (isSupportedAsset e.assetID ∧ e.validValues)) (.invalidShieldedTx "")
  validateConfidentialLedgerShape cfg num time tx e.deposit e.sponsor e.feeMode e.asset
  validateRelayTime (shieldedV5AsV4 e).toShieldedV3Transaction time
  failIf (maxGasCost tx < e.sponsor) (.invalidShieldedTx "gas sponsorship exceeds transaction gas cost")
  failIf (e.relayed ∧ ¬ cfg.isShieldedOnly num time ∧ ¬ cfg.isConfidentialLedger num time ∧ e.sponsor ≠ maxGasCost tx)
    (.invalidShieldedTx "relay requires the exact authorized gas reserve")
  failIf (maxSendWei < e.withdrawal) (.invalidShieldedTx "send exceeds 5000000 TKM")
  failIf (decide (0 < e.withdrawal) ≠ decide (e.withdrawalRecipient ≠ 0)) (.invalidShieldedTx "")
  failIf (e.deposit ∧ (tx.value = 0 ∨ maxSendWei < tx.value ∨ e.anchor ≠ 0 ∨ e.nullifier ≠ 0 ∨ e.linkTag ≠ 0 ∨
      e.sponsor ≠ 0 ∨ e.withdrawal ≠ 0)) (.invalidShieldedTx "")
  failIf (¬ e.deposit ∧ (tx.value ≠ 0 ∨ e.anchor = 0 ∨ e.nullifier = 0 ∨ e.linkTag = 0)) (.invalidShieldedTx "")
  failIf (maxGasCost tx < e.sponsor) (.invalidShieldedTx "")
  failIf (e.asset = assetPTKM ∧ e.sponsor ≠ 0) (.invalidShieldedTx "")
  checkV5Outputs B (tx.chainId % 2 ^ 64) [] [] e.outputs.toList
  failIf (¬ validProofEncoding e.proof) (.invalidShieldedTx "")

def shieldedV5Basics (tx : Tx) : Except Err ShieldedV5Transaction := do
  failIf (¬ cfg.isShield5 num time) (.invalidShieldedTx "Shield5 is not active")
  failIf (¬ hasShieldedV5Prefix tx.data) (.invalidShieldedTx "")
  let e ← orFail (← decodeShieldedV5Transaction B tx.data) (.invalidShieldedTx "expected envelope version 5")
  failIf (e.version ≠ 5) (.invalidShieldedTx "expected envelope version 5")
  let _ ← (shieldedV5Nullifiers e).mapError fun _ => .invalidShieldedTx "invalid Shield5 input set"
  validateShieldedOnlyTransaction B cfg num time tx
  failIf (¬ toPool cfg tx) (.invalidShieldedTx "invalid Shield5 transaction domain")
  v5Shape B cfg num time tx e
  pure e

/-! ## V6 -/

def ringSize : Nat := 16

def clsagSize : Nat := 576

def maxRangeProofBundleSize : Nat := 2 * 8192 + 16

def maxVerifyingKeyBytes : Nat := 64 * 1024

def shieldedV6MaxInputs : Nat := 16

def shieldedV6MaxOutputs : Nat := 16

def shieldedV6MaxCiphertext : Nat := 4096

def validateShieldedV6Time (e : ShieldedV6Transaction) (time : Nat) : Except Err Unit :=
  if e.version = 6 then failIf (e.validUntil ≠ 0) (.invalidShieldedTx "")
  else
    failIf ((e.version ≠ shieldedV6BoundVersion ∧ e.version ≠ shieldedV6BindingVersion) ∨ e.validUntil ≤ time ∨
      shieldedV6MaxLifetime < e.validUntil - time) (.invalidShieldedTx "recipient envelope expired or exceeds one hour")

def validDigest (d : Digest) : Bool := (digestFromBytes d.bytes).isOk && d ≠ 0

def validateShieldedV6BindingBasics (tx : Tx) (e : ShieldedV6Transaction) :
    Except Err ShieldedV6BindingRegistration := do
  failIf (¬ validShieldedV6BindingShape e ∨ e.validUntil = 0 ∨ tx.value ≠ 0 ∨ 2 ^ 64 ≤ tx.chainId ∨ tx.chainId = 0)
    (.invalidShieldedTx "")
  let b ← orFail e.binding (.invalidShieldedTx "")
  failIf (¬ validDigest b.commitment) (.invalidShieldedTx "")
  failIf (¬ validDigest b.owner ∨ b.proof = [] ∨ shieldedV6MaxRecipientProof < b.proof.length) (.invalidShieldedTx "")
  pure b

def shieldedV6PinnedVerifier (encoded : Bytes) (pin : Hash) : Except Err Unit := do
  failIf (encoded = [] ∨ maxVerifyingKeyBytes < encoded.length ∨ pin = 0 ∨ B.sha256 encoded ≠ pin)
    (.invalidShieldedTx "recipient verification key unavailable or unpinned")
  B.newVerifier encoded pin

def shieldedV6RecipientVerifier : Except Err Unit :=
  shieldedV6PinnedVerifier B cfg.shield6RecipientKey cfg.shield6RecipientKeyHash

def shieldedV6RegistrationVerifier : Except Err Unit :=
  shieldedV6PinnedVerifier B cfg.shield6RegistrationKey cfg.shield6RegistrationKeyHash

def validateShieldedV6RegistrationProof (tx : Tx) (e : ShieldedV6Transaction) : Except Err Unit := do
  let b ← validateShieldedV6BindingBasics tx e
  shieldedV6RegistrationVerifier B cfg
  let intent ← B.intentV6 tx e
  failIf (¬ B.verifyRegistration cfg.shield6RegistrationKey ⟨tx.chainId, b.owner, b.commitment, intent⟩ b.proof)
    (.invalidShieldedTx "recipient key-control proof")

def checkRecipientProofs (tx : Tx) (e : ShieldedV6Transaction) :
    Nat → List (Bytes × ShieldedV6RecipientRoots × ShieldedV6Output) → Except Err Unit
  | _, [] => .ok ()
  | i, (proof, r, out) :: rest => do
    failIf (proof = [] ∨ shieldedV6MaxRecipientProof < proof.length) (.invalidShieldedTx "")
    failIf (2 ^ 64 ≤ tx.chainId) (.invalidShieldedTx "")
    let intent ← B.intentV6 tx e
    failIf (¬ B.verifyRecipient cfg.shield6RecipientKey
        ⟨tx.chainId, e.assetID, i, r.stampRoot, r.bindingRoot, r.anchor, intent, out⟩ proof)
      (.invalidShieldedTx ("recipient proof " ++ toString i))
    checkRecipientProofs tx e (i + 1) rest

def validateShieldedV6RecipientProof (tx : Tx) (e : ShieldedV6Transaction) : Except Err Unit := do
  failIf (e.version ≠ shieldedV6BoundVersion) (.invalidShieldedTx "")
  let bundle ← orFail e.recipients (.invalidShieldedTx "")
  failIf (bundle.proofs.length ≠ e.outputs.length ∨ bundle.roots.length ≠ e.outputs.length) (.invalidShieldedTx "")
  shieldedV6RecipientVerifier B cfg
  checkRecipientProofs B cfg tx e 0 (bundle.proofs.zip (bundle.roots.zip e.outputs))

def checkV6Inputs : Nat → List Hash → List ShieldedV6Input → Except Err Unit
  | _, _, [] => .ok ()
  | i, seen, input :: rest => do
    failIf (input.keyImage = 0 ∨ input.pseudoOutput = 0 ∨ input.signature = List.replicate clsagSize 0)
      (.invalidShieldedTx ("invalid Shield6 input " ++ toString i))
    failIf (¬ B.validPublicKey input.keyImage) (.invalidShieldedTx ("invalid Shield6 key image " ++ toString i))
    failIf (¬ B.validCommitment input.pseudoOutput)
      (.invalidShieldedTx ("invalid Shield6 pseudo-output " ++ toString i))
    failIf (input.keyImage ∈ seen) (.invalidShieldedTx "duplicate Shield6 key image in transaction")
    failIf (¬ input.ringIndices.Nodup) (.invalidShieldedTx "duplicate Shield6 ring index")
    checkV6Inputs (i + 1) (input.keyImage :: seen) rest

def checkV6Outputs : Nat → List Hash → List ShieldedV6Output → Except Err Unit
  | _, _, [] => .ok ()
  | i, seen, output :: rest => do
    failIf (output.oneTimeKey = 0 ∨ output.ephemeralKey = 0 ∨ output.commitment = 0 ∨ output.encryptedNote = [] ∨
      shieldedV6MaxCiphertext < output.encryptedNote.length)
      (.invalidShieldedTx ("invalid Shield6 output " ++ toString i))
    failIf (¬ B.validPublicKey output.oneTimeKey)
      (.invalidShieldedTx ("invalid Shield6 one-time key " ++ toString i))
    failIf (¬ B.validPublicKey output.ephemeralKey)
      (.invalidShieldedTx ("invalid Shield6 ephemeral key " ++ toString i))
    failIf (output.oneTimeKey ∈ seen) (.invalidShieldedTx "duplicate Shield6 one-time output key")
    checkV6Outputs (i + 1) (output.oneTimeKey :: seen) rest

def ShieldedV6Transaction.withdrawal (e : ShieldedV6Transaction) : Int := e.withdrawalValue.getD 0

def v6Boundary (tx : Tx) (e : ShieldedV6Transaction) : Except Err Unit := do
  failIf (e.assetID ≠ assetTKM)
    (.invalidShieldedTx "Shield6 currently accepts only the native TKM asset domain")
  failIf (e.withdrawal < 0 ∨ bitLenAbove e.withdrawal 128) (.invalidShieldedTx "invalid Shield6 withdrawal amount")
  failIf ((e.deposit ∨ 0 < e.withdrawal) ∧ ¬ cfg.isConfidentialLedger num time)
    (.invalidShieldedTx "Shield6 public boundaries require the confidential backing ledger")
  if e.deposit then do
    failIf (tx.value = 0 ∨ bitLenAbove tx.value 128 ∨ e.withdrawal ≠ 0 ∨ e.withdrawalRecipient ≠ 0 ∨ e.inputs ≠ [] ∨
      e.outputs = [] ∨ shieldedV6MaxOutputs < e.outputs.length) (.invalidShieldedTx "invalid Shield6 public deposit")
    failIf (¬ B.validScalar e.depositMask) (.invalidShieldedTx "noncanonical Shield6 deposit mask")
  else do
    failIf (tx.value ≠ 0 ∨ e.depositMask ≠ 0)
      (.invalidShieldedTx "Shield6 spend must have zero public value and no deposit mask")
    if 0 < e.withdrawal then
      failIf (e.withdrawalRecipient = 0 ∨ e.inputs = [] ∨ shieldedV6MaxInputs < e.inputs.length ∨
        shieldedV6MaxOutputs < e.outputs.length) (.invalidShieldedTx "invalid Shield6 public withdrawal")
    else
      failIf (e.withdrawalRecipient ≠ 0 ∨ e.inputs = [] ∨ shieldedV6MaxInputs < e.inputs.length ∨ e.outputs = [] ∨
        shieldedV6MaxOutputs < e.outputs.length) (.invalidShieldedTx "invalid Shield6 private input or output count")

def v6Transfer (bound : Bool) (tx : Tx) (e : ShieldedV6Transaction) : Except Err Unit := do
  v6Boundary B cfg num time tx e
  if e.outputs ≠ [] then
    failIf (e.rangeProof = [] ∨ maxRangeProofBundleSize < e.rangeProof.length)
      (.invalidShieldedTx "invalid Shield6 paired range-proof bundle size")
  else
    failIf (e.rangeProof ≠ [])
      (.invalidShieldedTx "Shield6 withdrawal without outputs must not carry a range proof")
  checkV6Inputs B 0 [] e.inputs
  checkV6Outputs B 0 [] e.outputs
  checkWhen bound (validateShieldedV6RecipientProof B cfg tx e)

def shieldedV6Basics (tx : Tx) : Except Err ShieldedV6Transaction := do
  failIf (¬ cfg.isShield6 num time) (.invalidShieldedTx "Shield6 is not active")
  validateShieldedOnlyTransaction B cfg num time tx
  failIf (tx.type ≠ .pqTkm ∨ tx.toAddr ≠ some poolAddress)
    (.invalidShieldedTx "Shield6 requires a PQ transaction to the shielded pool")
  failIf (some tx.chainId ≠ cfg.chainID) (.invalidShieldedTx "Shield6 chain ID mismatch")
  let e ← orFail (← decodeShieldedV6Transaction B tx.data) (.invalidShieldedTx "missing Shield6 envelope")
  if cfg.isShield6Recipients num time then do
    (validateShieldedV6Time e time).mapError
      fun _ => .invalidShieldedTx "recipient envelope expired or lifetime exceeds one hour"
    if e.version = shieldedV6BindingVersion then do
      let _ ← validateShieldedV6BindingBasics tx e
      validateShieldedV6RegistrationProof B cfg tx e
    else do
      failIf (e.version ≠ shieldedV6BoundVersion ∨ e.binding.isSome)
        (.invalidShieldedTx "recipient proofs are mandatory")
      v6Transfer B cfg num time true tx e
  else do
    failIf (e.version ≠ 6 ∨ e.recipients.isSome ∨ e.binding.isSome ∨ e.validUntil ≠ 0)
      (.invalidShieldedTx "recipient-proof envelope is not active")
    v6Transfer B cfg num time false tx e
  pure e

end

/-! ## V1 and V2 -/

def shieldedMaxEncryptedBytes : Nat := 16 * 1024

def shieldedMinEncryptedOutputBytes : Nat := 32

def shieldedMinNonceBytes : Nat := 12

def shieldedMaxProofBytes : Nat := 192 * 1024

def shieldedMaxSpendsPerTx : Nat := 16

def shieldedOutputSlots : Nat := 4

def shieldedTxVersionV1 : Nat := 1

def shieldedTxVersionV2 : Nat := 2

def isDepositProof (s : ShieldedSpend) : Bool := s.nullifier = 0 && s.anchor = 0

def checkSpend (total i : Nat) (seen : List Hash) (s : ShieldedSpend) : Except Err Unit := do
  let fail (m : String) : Err := .invalidShieldedTx ("spend " ++ toString i ++ " " ++ m)
  failIf (¬ isDepositProof s ∧ s.nullifier = 0) (fail "zero nullifier")
  failIf (¬ isDepositProof s ∧ s.anchor = 0) (fail "zero anchor")
  failIf (¬ isCanonicalShieldedFieldHash s.nullifier) (fail "nullifier is not a canonical BN254 field element")
  failIf (¬ isCanonicalShieldedFieldHash s.anchor) (fail "anchor is not a canonical BN254 field element")
  failIf (s.proof = []) (fail "missing proof")
  failIf (shieldedMaxProofBytes < s.proof.length) (fail "proof exceeds 196608 bytes")
  failIf (shieldedMaxEncryptedBytes < s.encryptedSpendData.length) (fail "encrypted data exceeds 16384 bytes")
  failIf (¬ isDepositProof s ∧ s.nullifier ∈ seen) (.invalidShieldedTx "duplicate nullifier")
  failIf (isDepositProof s ∧ total ≠ 1)
    (.invalidShieldedTx "deposit proof cannot be mixed with private spends")
  failIf (isDepositProof s ∧ i ≠ 0) (.invalidShieldedTx "duplicate nullifier")

def checkSpends (total : Nat) : Nat → List Hash → List ShieldedSpend → Except Err Unit
  | _, _, [] => .ok ()
  | i, seen, s :: rest => do
    checkSpend total i seen s
    checkSpends total (i + 1) (if isDepositProof s then seen else s.nullifier :: seen) rest

def checkOutputs : Nat → List Hash → List ShieldedOutput → Except Err Unit
  | _, _, [] => .ok ()
  | i, seen, out :: rest => do
    let fail (m : String) : Err := .invalidShieldedTx ("output " ++ toString i ++ " " ++ m)
    failIf (out.commitment = 0) (fail "zero commitment")
    failIf (¬ isCanonicalShieldedFieldHash out.commitment) (fail "commitment is not a canonical BN254 field element")
    failIf (out.payloadHash = 0) (fail "zero payload hash")
    failIf (out.encryptedPayload.length < shieldedMinEncryptedOutputBytes)
      (fail "encrypted payload must be at least 32 bytes")
    failIf (shieldedMaxEncryptedBytes < out.encryptedPayload.length) (fail "encrypted payload exceeds 16384 bytes")
    failIf (out.nonce.length < shieldedMinNonceBytes) (fail "nonce must be at least 12 bytes")
    failIf (out.commitment ∈ seen) (.invalidShieldedTx "duplicate commitment")
    checkOutputs (i + 1) (out.commitment :: seen) rest

def validateShieldedEnvelope (e : ShieldedTransaction) (expectedVersion : Nat) : Except Err Unit := do
  failIf (e.version ≠ expectedVersion) (.invalidShieldedTx ("envelope version " ++ toString e.version ++
    " is not active; expected version " ++ toString expectedVersion))
  failIf (e.spends = [] ∧ e.outputs = []) (.invalidShieldedTx "empty shielded envelope")
  failIf (shieldedMaxSpendsPerTx < e.spends.length)
    (.invalidShieldedTx ("too many spends " ++ toString e.spends.length))
  failIf (e.outputs.length ≠ shieldedOutputSlots)
    (.invalidShieldedTx "shielded tx must carry exactly 4 padded outputs")
  failIf (e.spends ≠ [] ∧ e.bindingSig = []) (.invalidShieldedTx "binding signature required for spends")
  failIf (e.bindingSig.length ≠ 32) (.invalidShieldedTx "binding hash must be 32 bytes")
  failIf (¬ isCanonicalShieldedFieldHash (Hash.ofBytes e.bindingSig))
    (.invalidShieldedTx "binding hash is not a canonical BN254 field element")
  checkSpends e.spends.length 0 [] e.spends
  failIf (e.balanceCommitment = 0) (.invalidShieldedTx "zero balance commitment")
  failIf (¬ isCanonicalShieldedFieldHash e.balanceCommitment)
    (.invalidShieldedTx "balance commitment is not a canonical BN254 field element")
  checkOutputs 0 [] e.outputs

def isShieldedDeposit (e : ShieldedTransaction) (value : Nat) : Bool :=
  0 < value && match e.spends with
    | [s] => isDepositProof s
    | _ => false

def shieldedWithdrawalValue (e : ShieldedTransaction) : Int := max 0 (e.withdrawalValue.getD 0)

def shieldedGasSponsorValue (e : ShieldedTransaction) : Int := max 0 (e.gasSponsorValue.getD 0)

def publicRelease (e : ShieldedTransaction) : Int := shieldedWithdrawalValue e + shieldedGasSponsorValue e

def shieldedPublicValue (e : ShieldedTransaction) (value : Nat) : Int :=
  if 0 < publicRelease e then publicRelease e else value

section
variable (B : Backend) (cfg : ChainConfig) (num time : Nat)

def emptyNoteCommitment (recipient : Nat) (random : Hash) : Hash :=
  B.mimc [2001, recipient % bn254Modulus, 1, 0, fieldElementFromHash random]

def checkMigrationOutputs : Nat → List (Hash × ShieldedOutput) → Except Err Unit
  | _, [] => .ok ()
  | recipient, (random, out) :: rest => do
    failIf (random = 0 ∨ ¬ isCanonicalShieldedFieldHash random) (.invalidShieldedTx "invalid migration randomness")
    failIf (out.commitment ≠ emptyNoteCommitment B recipient random)
      (.invalidShieldedTx "migration outputs must have zero value")
    checkMigrationOutputs 0 rest

def checkMigration (tx : Tx) (e : ShieldedTransaction) : Except Err Unit := do
  let text := "Antartical requires Shield3; V2 is restricted to migration withdrawals to the signer"
  let sender ← (B.sender cfg num time tx).mapError fun _ => .invalidShieldedTx text
  failIf (e.version ≠ shieldedTxVersionV2 ∨ isShieldedDeposit e tx.value ∨ shieldedWithdrawalValue e ≤ 0 ∨
    e.withdrawalRecipient ≠ sender ∨ shieldedGasSponsorValue e ≠ 0 ∨ e.spends.length ≠ 1) (.invalidShieldedTx text)
  failIf (e.migrationOutputRandomness.length ≠ shieldedOutputSlots)
    (.invalidShieldedTx "migration requires four zero-value output openings")
  checkMigrationOutputs B sender.toNat (e.migrationOutputRandomness.zip e.outputs)

def checkPublicValues (tx : Tx) (e : ShieldedTransaction) : Except Err Unit := do
  failIf (e.withdrawalValue.getD 0 < 0) (.invalidShieldedTx "shielded withdrawal value cannot be negative")
  failIf (e.gasSponsorValue.getD 0 < 0) (.invalidShieldedTx "shielded gas sponsorship cannot be negative")
  failIf (tx.value ≠ 0 ∧ ¬ isShieldedDeposit e tx.value)
    (.invalidShieldedTx "transparent value is only allowed for shielded deposits")
  if 0 < shieldedWithdrawalValue e then do
    failIf (isShieldedDeposit e tx.value ∨ tx.value ≠ 0)
      (.invalidShieldedTx "shielded deposit and withdrawal cannot be combined")
    failIf (e.spends.length ≠ 1) (.invalidShieldedTx "shielded withdrawal must spend exactly one private note")
    failIf (e.withdrawalRecipient = 0) (.invalidShieldedTx "shielded withdrawal recipient is required")
    failIf (bitLenAbove (shieldedWithdrawalValue e) 64)
      (.invalidShieldedTx "shielded withdrawal value exceeds uint64")
  else failIf (e.withdrawalRecipient ≠ 0) (.invalidShieldedTx "shielded withdrawal value is required")
  checkWhen (0 < shieldedGasSponsorValue e) do
    failIf (¬ cfg.isMainnetShieldedGasSponsor time) (.invalidShieldedTx "shielded gas sponsorship is not active")
    failIf (e.version ≠ shieldedTxVersionV2 ∨ isShieldedDeposit e tx.value ∨ tx.value ≠ 0 ∨ e.spends.length ≠ 1)
      (.invalidShieldedTx "shielded gas sponsorship requires one V2 private spend")
    failIf (maxGasCost tx < shieldedGasSponsorValue e)
      (.invalidShieldedTx "shielded gas sponsorship exceeds maximum transaction gas cost")
  failIf (bitLenAbove (publicRelease e) 64) (.invalidShieldedTx "shielded public release exceeds uint64")
  failIf (tx.value = 0 ∧ e.spends = []) (.invalidShieldedTx "shielded tx must spend at least one private note")

def checkTransparent (tx : Tx) : Except Err Unit :=
  if cfg.isPrivacyCommitments num time then
    if cfg.isValidatorTransactionsActive num time ∧ isValidatorProtocolEnvelope tx.data then
      validateValidatorProtocolBasics B cfg num time tx
    else if cfg.isPQMigrationAllowed num time ∧ B.isPQMigrationTx tx then .ok ()
    else .error (.invalidShieldedTx "transparent transactions are disabled after privacy activation")
  else .ok ()

def checkEnvelope (tx : Tx) (e : ShieldedTransaction) : Except Err Unit := do
  failIf (¬ cfg.isPrivacyCommitments num time) (.invalidShieldedTx "privacy commitments are not active")
  failIf (tx.toAddr ≠ some poolAddress) (.invalidShieldedTx "shielded tx must target the pool")
  validateShieldedEnvelope e (if cfg.isMainnetShieldedV2 time then shieldedTxVersionV2 else shieldedTxVersionV1)
  checkPublicValues cfg time tx e
  failIf (¬ cfg.isAntartical num time ∧ e.migrationOutputRandomness ≠ [])
    (.invalidShieldedTx "migration openings are not active")
  checkWhen (cfg.isAntartical num time) (checkMigration B cfg num time tx e)

def validateShieldedTransactionEnvelope (tx : Tx) : Except Err (Option ShieldedTransaction) :=
  match decodeShieldedTransaction B tx.data with
  | .error m => .error (.invalidShieldedTx ("malformed envelope: " ++ m))
  | .ok none => (checkTransparent B cfg num time tx).map fun _ => none
  | .ok (some e) => (checkEnvelope B cfg num time tx e).map fun _ => some e

end

end TkmChain
