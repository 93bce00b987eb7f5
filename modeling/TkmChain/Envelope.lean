import TkmChain.State

/-!
# Transactions, envelopes and the code behind them

The fields of a transaction, the decoded envelopes of every version, and
`Backend`: the RLP decoders of the envelopes, the signature scheme, the proof
systems and the hash functions. Nothing is assumed of a backend but that no
signature recovers to the reserved pool address.
-/

namespace TkmChain

inductive TxType
  | legacy
  | accessList
  | dynamicFee
  | blob
  | setCode
  | randomX
  | pqTkm
  deriving DecidableEq, Repr

structure AccessTuple where
  address : Address
  storageKeys : List Hash
  deriving DecidableEq, Repr

structure SetCodeAuthorization where
  chainID : Nat
  address : Address
  nonce : Nat
  signature : Bytes
  deriving DecidableEq, Repr

theorem Hash.one_ne : (1 : Hash) ≠ 0 := by decide

structure Tx where
  hash : Hash
  hash_ne : hash ≠ 0
  type : TxType
  (chainId nonce gasTipCap gasFeeCap gas : Nat)
  toAddr : Option Address
  value : Nat
  data : Bytes
  algorithm : String
  publicKey : Bytes
  accessList : List AccessTuple := []
  blobGasFeeCap : Option Nat := none
  blobHashes : Option (List Hash) := none
  setCodeAuthorizations : Option (List SetCodeAuthorization) := none
  deriving DecidableEq

/-! ## V1 and V2 -/

structure ShieldedOutput where
  (commitment payloadHash : Hash)
  (ephemeralPubKey viewTag encryptedPayload nonce : Bytes)
  deriving DecidableEq, Repr

structure ShieldedSpend where
  (nullifier anchor : Hash)
  (proof encryptedSpendData : Bytes)
  deriving DecidableEq, Repr

structure ShieldedTransaction where
  version : Nat
  spends : List ShieldedSpend
  outputs : List ShieldedOutput
  balanceCommitment : Hash
  bindingSig : Bytes
  withdrawalRecipient : Address
  (withdrawalValue gasSponsorValue : Option Int)
  migrationOutputRandomness : List Hash
  deriving DecidableEq, Repr

structure ShieldedProofContext where
  version : Nat
  sender : Address
  chainID : Option Nat
  blockNumber : Nat
  txHash : Hash
  spendIndex : Nat
  (nullifier anchor balanceCommitment : Hash)
  publicValue : Int
  outputCommitments : List Hash
  bindingSig : Bytes
  deriving DecidableEq, Repr

/-! ## V3, V4 and V5 -/

structure ShieldedV3Output where
  commitment : Digest
  (incoming outgoing stamp oneTimeKey : Bytes)
  deriving DecidableEq, Repr

structure ShieldedV3Transaction where
  version : Nat
  deposit : Bool
  (anchor nullifier stampRoot : Digest)
  outputs : Vector ShieldedV3Output 4
  withdrawalRecipient : Address
  (withdrawalValue gasSponsorValue : Option Int)
  proof : Bytes
  additionalNullifiers : Vector Digest 3
  inputCount : Nat
  relayed : Bool
  (validUntil assetID feeMode : Nat)
  deriving DecidableEq, Repr

structure ShieldedV4Transaction extends ShieldedV3Transaction where
  linkTag : Digest
  deriving DecidableEq, Repr

structure ShieldedV5Transaction extends ShieldedV4Transaction where
  additionalNullifiersV5 : Vector Digest 12
  deriving DecidableEq, Repr

/-- The public statement of a note proof; V4 adds the link tag and V5 the
nullifiers beyond the fourth. -/
structure Statement where
  deposit : Bool
  (chainID assetID publicValue gasSponsor : Nat)
  intent : Bytes
  (anchor nullifier : Digest)
  (outputs oneTimeKeys : List Digest)
  stampRoot : Digest
  additionalNullifiers : Vector Digest 3
  inputCount : Nat

structure StatementV4 extends Statement where
  linkTag : Digest

structure StatementV5 extends StatementV4 where
  additionalNullifiersV5 : Vector Digest 12

inductive CiphertextPurpose
  | incoming
  | outgoing
  | stamp
  deriving DecidableEq, Repr

/-! ## V6; points and scalars are 32-byte words -/

structure ShieldedV6Input where
  ringIndices : List Nat
  (keyImage pseudoOutput : Hash)
  signature : Bytes
  deriving DecidableEq, Repr

structure ShieldedV6Output where
  (oneTimeKey ephemeralKey commitment : Hash)
  amountLimbs : Hash × Hash
  encryptedNote : Bytes
  deriving DecidableEq, Repr

structure ShieldedV6RecipientRoots where
  (stampRoot bindingRoot : Digest)
  anchor : Hash
  deriving DecidableEq, Repr

structure ShieldedV6RecipientProofs where
  roots : List ShieldedV6RecipientRoots
  proofs : List Bytes
  deriving DecidableEq, Repr

structure ShieldedV6BindingRegistration where
  (owner commitment : Digest)
  proof : Bytes
  deriving DecidableEq, Repr

structure ShieldedV6Transaction where
  (version assetID : Nat)
  deposit : Bool
  depositMask : Hash
  withdrawalRecipient : Address
  withdrawalValue : Option Int
  inputs : List ShieldedV6Input
  outputs : List ShieldedV6Output
  rangeProof : Bytes
  recipients : Option ShieldedV6RecipientProofs
  binding : Option ShieldedV6BindingRegistration
  validUntil : Nat
  deriving DecidableEq, Repr

structure RingMember where
  (oneTimeKey commitment : Hash)
  deriving DecidableEq, Repr

structure RecipientStatement where
  (chainID assetID outputPosition : Nat)
  (stampRoot bindingRoot : Digest)
  (stateAnchor intent : Hash)
  output : ShieldedV6Output

structure RegistrationStatement where
  chainID : Nat
  (owner commitment : Digest)
  intent : Hash

/-! ## Stamps, votes and the validator registry -/

structure ShieldedV3StampRecord where
  chainID : Nat
  commitment : Hash × Hash
  (ciphertext signature : Bytes)
  deriving DecidableEq, Repr

structure AntarticalStampRegistration where
  version : Nat
  owner : Digest
  stamp : ShieldedV3StampRecord
  (proof beneficiaryPublicKey : Bytes)
  validUntil : Nat
  authorization : Bytes
  deriving DecidableEq, Repr

structure AddressVote where
  version : Nat
  unvote : Bool
  target : Address
  reason : Bytes
  deriving DecidableEq, Repr

structure ValidatorRegistration where
  version : Nat
  publicKey : Bytes
  rewardAddress : Address
  activationHeight : UInt64
  deriving DecidableEq, Repr

structure ValidatorSlashEvidence where
  version : Nat
  validator : Address
  height : Nat
  (blockHashA blockHashB : Hash)
  (signatureA signatureB publicKey : Bytes)
  deriving DecidableEq, Repr

/-! ## External code -/

structure Backend where
  decodeV1 : Bytes → Except String ShieldedTransaction
  decodeV3 : Bytes → Option ShieldedV3Transaction
  decodeV4 : Bytes → Option ShieldedV4Transaction
  decodeV5 : Bytes → Option ShieldedV5Transaction
  preflightV6 : Bytes → Bool
  decodeV6 : Bytes → Option ShieldedV6Transaction
  decodeStamp : Bytes → Except String AntarticalStampRegistration
  decodeVote : Bytes → Except String AddressVote
  decodeRegistration : Bytes → Except String ValidatorRegistration
  decodeSlash : Bytes → Except String ValidatorSlashEvidence
  decodeAction : Bytes → Option Nat
  sender : ChainConfig → Nat → Nat → Tx → Except Err Address
  sender_ne_pool : ∀ cfg num time tx a, sender cfg num time tx = .ok a → a ≠ poolAddress
  quantumSender : Tx → Except Err Address
  pqAddress : Bytes → Except Err Address
  verifyMLDSA87 : Bytes → Bytes → Bytes → Bool
  verifyStamp : Bytes → ShieldedV3StampRecord → Bool
  isPQMigrationTx : Tx → Bool
  validUTF8 : Bytes → Bool
  (keccak256 sha256 : Bytes → Hash)
  mimc : List Nat → Hash
  hashPair : Digest → Digest → Except Err Digest
  stampLeaf : Nat → Digest → Except Err Digest
  bindingLeaf : Nat → Digest → Digest → Except Err Digest
  validCiphertext : Nat → CiphertextPurpose → Digest → Bytes → Bool
  intentV1 : Tx → ShieldedTransaction → Except Err Hash
  intentV3 : Tx → ShieldedV3Transaction → Except Err Bytes
  intentV4 : Tx → ShieldedV4Transaction → Except Err Bytes
  intentV5 : Tx → ShieldedV5Transaction → Except Err Bytes
  intentV6 : Tx → ShieldedV6Transaction → Except Err Hash
  intentStamp : Tx → AntarticalStampRegistration → Except Err Bytes
  verifySpendV1 : ChainConfig → Nat → Nat → ShieldedProofContext → Bytes → Except String Unit
  verifyV3 : Statement → Bytes → Except String Unit
  verifyV4 : StatementV4 → Bytes → Except String Unit
  verifyV5 : StatementV5 → Bytes → Except String Unit
  verifyOwner : Nat → Digest → Bytes → Bytes → Except String Unit
  (validPublicKey validCommitment validScalar : Hash → Bool)
  verifyRange128 : List (Hash × Hash × Hash) → Bytes → Except String Unit
  verifyDeposit : List Hash → Nat → Hash → Except String Unit
  verifyBalance128 : List Hash → List Hash → Int → Except String Unit
  verifyCLSAG : Hash → List RingMember → Hash → Hash → Bytes → Except String Unit
  newVerifier : Bytes → Hash → Except Err Unit
  verifyRecipient : Bytes → RecipientStatement → Bytes → Bool
  verifyRegistration : Bytes → RegistrationStatement → Bytes → Bool

/-! ## Envelope prefixes and decoding -/

def hasPrefix (data : Bytes) (magic : String) : Bool := (Bytes.ofText magic).isPrefixOf data

def shieldedTxMagic : String := "TKMSHIELD1"
def shieldedV3Magic : String := "TKMSHIELD3"
def shieldedV4Magic : String := "TKMSHIELD4"
def shieldedV5Magic : String := "TKMSHIELD5"
def shieldedV6Magic : String := "TKMSHIELD6"
def antarticalStampMagic : String := "TKMSTAMP1"
def addressVoteMagic : String := "TKMVOTE1"
def validatorRegistrationMagic : String := "TKMVALREG1"
def validatorSlashMagic : String := "TKMVSLASH1"
def validatorExitMagic : String := "TKMVALEXIT1"
def validatorWithdrawalMagic : String := "TKMVALWD1"
def privateTVMMagic : String := "TKMPRIVATEVM1"

def shieldedV3MaxTxSize : Nat := 8388608 - 64 * 1024

def shieldedV6MaxTxSize : Nat := 256 * 1024

def envelopeBody (data : Bytes) (magic : String) : Bytes := data.drop magic.length

section
variable (B : Backend)

/-- The `ok` result of the Go decoders is the outer option. -/
def decodeShieldedTransaction (data : Bytes) : Except String (Option ShieldedTransaction) :=
  if hasPrefix data shieldedTxMagic then (B.decodeV1 (envelopeBody data shieldedTxMagic)).map some else .ok none

def decodeNoteEnvelope {α : Type} (decode : Bytes → Option α) (magic malformed : String) (data : Bytes) :
    Except Err (Option α) :=
  if hasPrefix data magic then do
    failIf (shieldedV3MaxTxSize < data.length) (.invalidShieldedTx "")
    let e ← orFail (decode (envelopeBody data magic)) (.invalidShieldedTx malformed)
    pure (some e)
  else .ok none

def decodeShieldedV3Transaction (data : Bytes) : Except Err (Option ShieldedV3Transaction) :=
  decodeNoteEnvelope B.decodeV3 shieldedV3Magic "malformed Shield3 envelope" data

def decodeShieldedV4Transaction (data : Bytes) : Except Err (Option ShieldedV4Transaction) :=
  decodeNoteEnvelope B.decodeV4 shieldedV4Magic "malformed Shield4 envelope" data

def decodeShieldedV5Transaction (data : Bytes) : Except Err (Option ShieldedV5Transaction) :=
  decodeNoteEnvelope B.decodeV5 shieldedV5Magic "malformed Shield5 envelope" data

def decodeShieldedV6Transaction (data : Bytes) : Except Err (Option ShieldedV6Transaction) :=
  if hasPrefix data shieldedV6Magic then do
    failIf (shieldedV6MaxTxSize < data.length) (.invalidShieldedTx "")
    failIf (¬ B.preflightV6 (envelopeBody data shieldedV6Magic))
      (.invalidShieldedTx "malformed or unbounded Shield6 envelope")
    let e ← orFail (B.decodeV6 (envelopeBody data shieldedV6Magic)) (.invalidShieldedTx "malformed Shield6 envelope")
    pure (some e)
  else .ok none

/-- The decoders of the stamp, vote and validator envelopes, which have no
"not this kind" result. -/
def decodeProtocolEnvelope {α : Type} (decode : Bytes → Except String α) (magic invalid : String) (data : Bytes) :
    Except Err α := do
  failIf (¬ hasPrefix data magic ∨ shieldedV3MaxTxSize < data.length) (.invalidShieldedTx "")
  match decode (envelopeBody data magic) with
  | .ok e => pure e
  | .error m => .error (.text (invalid ++ m))

def decodeAntarticalStamp (data : Bytes) : Except Err AntarticalStampRegistration :=
  decodeProtocolEnvelope B.decodeStamp antarticalStampMagic "invalid stamp registration: " data

def decodeAddressVote (data : Bytes) : Except Err AddressVote :=
  decodeProtocolEnvelope B.decodeVote addressVoteMagic "invalid address vote: " data

def decodeValidatorRegistration (data : Bytes) : Except Err ValidatorRegistration :=
  decodeProtocolEnvelope B.decodeRegistration validatorRegistrationMagic "invalid validator registration: " data

def decodeValidatorSlash (data : Bytes) : Except Err ValidatorSlashEvidence :=
  decodeProtocolEnvelope B.decodeSlash validatorSlashMagic "invalid validator slash evidence: " data

def validatorEnvelopeVersion : Nat := 1

def decodeValidatorAction (data : Bytes) (magic : String) : Except Err Nat := do
  failIf (¬ hasPrefix data magic ∨ shieldedV3MaxTxSize < data.length) (.invalidShieldedTx "")
  let version ← orFail (B.decodeAction (envelopeBody data magic)) (.invalidShieldedTx "")
  failIf (version ≠ validatorEnvelopeVersion) (.invalidShieldedTx "")
  pure version

end

/-! ## Assets and amounts -/

def assetTKM : Nat := 1

def assetPTKM : Nat := 2

def normalizeAssetID (a : Nat) : Nat := if a = 0 then assetTKM else a

def isSupportedAsset (a : Nat) : Bool := normalizeAssetID a = assetTKM || normalizeAssetID a = assetPTKM

def maxSendWei : Int := 5000000 * 10 ^ 18

def bitLenAbove (v : Int) (n : Nat) : Bool := 2 ^ n ≤ v.natAbs

def amountFromBig (v : Int) : Except Err Nat := do
  failIf (v < 0 ∨ bitLenAbove v 256) .invalidStatement
  pure v.toNat

def validProofEncoding (proof : Bytes) : Bool :=
  let count := Bytes.toNat (proof.take 4).reverse
  12 ≤ proof.length && proof.length ≤ 4 + 2 ^ 20 * 8 && count ≠ 0 && count ≤ 2 ^ 20 &&
    proof.length = 4 + count * 8 &&
    (List.range count).all fun i => Bytes.toNat (((proof.drop (4 + 8 * i)).take 8).reverse) < fieldModulus

/-- The storage slot of an asset's role: native TKM keeps the historical slots. -/
def assetSlot (asset : Nat) (r : Role) (key : Bytes) : Slot :=
  if normalizeAssetID asset = assetTKM then .v3 r key else .v3Asset (normalizeAssetID asset) r key

/-! ## A backend for examples -/

/-- Accepts every proof and signature, recovers one sender, hashes by addition and
decodes V1/V2 bodies only. -/
theorem seven_ne_pool : (7 : Address) ≠ poolAddress := by decide

def Backend.accepting (decode : Bytes → ShieldedTransaction) (sender : Address) (hs : sender ≠ poolAddress) :
    Backend where
  decodeV1 b := .ok (decode b)
  decodeV3 _ := none
  decodeV4 _ := none
  decodeV5 _ := none
  preflightV6 _ := false
  decodeV6 _ := none
  decodeStamp _ := .error ""
  decodeVote _ := .error ""
  decodeRegistration _ := .error ""
  decodeSlash _ := .error ""
  decodeAction _ := none
  sender _ _ _ _ := .ok sender
  sender_ne_pool _ _ _ _ a h := by cases h; exact hs
  quantumSender _ := .ok sender
  pqAddress _ := .ok sender
  verifyMLDSA87 _ _ _ := true
  verifyStamp _ _ := true
  isPQMigrationTx _ := false
  validUTF8 _ := true
  keccak256 b := BitVec.ofNat 256 (Bytes.toNat b)
  sha256 b := BitVec.ofNat 256 (Bytes.toNat b)
  mimc l := BitVec.ofNat 256 l.sum
  hashPair a _ := .ok a
  stampLeaf _ d := .ok d
  bindingLeaf _ d _ := .ok d
  validCiphertext _ _ _ _ := true
  intentV1 _ _ := .ok 1
  intentV3 _ _ := .ok []
  intentV4 _ _ := .ok []
  intentV5 _ _ := .ok []
  intentV6 _ _ := .ok 1
  intentStamp _ _ := .ok []
  verifySpendV1 _ _ _ _ _ := .ok ()
  verifyV3 _ _ := .ok ()
  verifyV4 _ _ := .ok ()
  verifyV5 _ _ := .ok ()
  verifyOwner _ _ _ _ := .ok ()
  validPublicKey _ := true
  validCommitment _ := true
  validScalar _ := true
  verifyRange128 _ _ := .ok ()
  verifyDeposit _ _ _ := .ok ()
  verifyBalance128 _ _ _ := .ok ()
  verifyCLSAG _ _ _ _ _ := .ok ()
  newVerifier _ _ := .ok ()
  verifyRecipient _ _ _ := true
  verifyRegistration _ _ _ := true

end TkmChain
