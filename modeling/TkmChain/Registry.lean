import TkmChain.Envelope
import TkmChain.Rlp

/-!
# The validator registry

Records are RLP encoded and kept in 32-byte chunks under the validator's
address; an index enumerates the validators. Stakes are decoded big integers,
hence never missing and never negative.
-/

namespace TkmChain

def ether : Nat := 10 ^ 18

def validatorActivationDelay : Nat := 720

def validatorUnbondingPeriod : Nat := 21600

def validatorMaxSetSize : Nat := 4096

def validatorBondWei : Nat := 500000 * ether

def validatorRegistrationFeeWei : Nat := 100 * ether

def mldsa87PublicKeySize : Nat := 2592

def algorithmMLDSA87 : String := "ML-DSA-87"

structure ValidatorRecord where
  version : Nat
  address : Address
  publicKey : Bytes
  rewardAddress : Address
  (stake activationHeight : Nat)
  (exitHeight jailedUntil : Nat := 0)
  registeredAt : Nat
  slashCount : Nat := 0
  deriving DecidableEq, Repr

def ValidatorRecord.activeAt (r : ValidatorRecord) (height : Nat) : Bool :=
  0 < r.stake && r.activationHeight ≤ height && (r.exitHeight = 0 || height < r.exitHeight) && r.jailedUntil ≤ height

/-! ## Records in storage -/

def ValidatorRecord.fields (r : ValidatorRecord) : List Bytes :=
  [Bytes.minimal r.version, r.address.bytes, r.publicKey, r.rewardAddress.bytes, Bytes.minimal r.stake,
   Bytes.minimal r.activationHeight, Bytes.minimal r.exitHeight, Bytes.minimal r.jailedUntil,
   Bytes.minimal r.registeredAt, Bytes.minimal r.slashCount]

def encodeValidatorRecord (r : ValidatorRecord) : Bytes := Rlp.encodeList (r.fields.map Rlp.encodeStr)

def decodeUint64 (b : Bytes) : Option Nat := Rlp.decodeNat 8 b

def decodeAddress (b : Bytes) : Option Address := if b.length = 20 then some (Address.ofBytes b) else none

def ValidatorRecord.ofFields : List Bytes → Option ValidatorRecord
  | [version, address, publicKey, rewardAddress, stake, activation, exit, jailed, registered, slashes] => do
    let version ← decodeUint64 version
    let address ← decodeAddress address
    let rewardAddress ← decodeAddress rewardAddress
    let stake ← Rlp.decodeNat stake.length stake
    let activationHeight ← decodeUint64 activation
    let exitHeight ← decodeUint64 exit
    let jailedUntil ← decodeUint64 jailed
    let registeredAt ← decodeUint64 registered
    let slashCount ← decodeUint64 slashes
    some { version, address, publicKey, rewardAddress, stake, activationHeight, exitHeight, jailedUntil,
           registeredAt, slashCount }
  | _ => none

def decodeValidatorRecord (raw : Bytes) : Except Err ValidatorRecord :=
  orFail ((Rlp.decodeList raw).bind fun p => (Rlp.strings 10 p).bind ValidatorRecord.ofFields)
    (.text "invalid validator record encoding")

def validatorChunkCountSlot (a : Address) : Slot := .v3 .validatorChunkCount a.bytes

def validatorByteLengthSlot (a : Address) : Slot := .v3 .validatorByteLength a.bytes

def validatorChunkSlot (a : Address) (i : Nat) : Slot := .v3 .validatorChunk (a.bytes ++ Bytes.be 8 i)

def validatorIndexSlot (i : Nat) : Slot := .v3 .validatorIndex (Bytes.be 8 i)

def validatorCountSlot : Slot := .v3 .validatorCount []

def validatorEvidenceSlot (h : Hash) : Slot := .v3 .validatorEvidence h.bytes

def readChunks (st : StateDB) (a : Address) : Nat → Bytes
  | 0 => []
  | n + 1 => readChunks st a n ++ (st.storage (validatorChunkSlot a n)).bytes

def readValidatorRecord (st : StateDB) (a : Address) : Except Err ValidatorRecord := do
  let count := uint64FromHash (st.storage (validatorChunkCountSlot a))
  failIf (count = 0) .validatorNotFound
  let raw := readChunks st a count
  let length := uint64FromHash (st.storage (validatorByteLengthSlot a))
  failIf (length = 0 ∨ raw.length < length) (.text "validator record has invalid encoded length")
  decodeValidatorRecord (raw.take length)

def stakeOf (st : StateDB) (a : Address) : Nat :=
  match readValidatorRecord st a with
  | .ok r => r.stake
  | .error _ => 0

def chunkWord (raw : Bytes) (i : Nat) : Hash :=
  Hash.ofBytes (((raw.drop (32 * i)).take 32) ++ List.replicate (32 - ((raw.drop (32 * i)).take 32).length) 0)

def writeChunks (st : StateDB) (a : Address) (raw : Bytes) : Nat → StateDB
  | 0 => st
  | n + 1 => (writeChunks st a raw n).setState (validatorChunkSlot a n) (chunkWord raw n)

def chunkCount (raw : Bytes) : Nat := (raw.length + 31) / 32

def storeRecord (st : StateDB) (r : ValidatorRecord) : StateDB :=
  let raw := encodeValidatorRecord r
  ((writeChunks st r.address raw (chunkCount raw)).setState
    (validatorChunkCountSlot r.address) (uint64Hash (chunkCount raw))).setState
    (validatorByteLengthSlot r.address) (uint64Hash raw.length)

def writeValidatorRecord (r : ValidatorRecord) : Proc StateDB Err Unit := do
  let count := chunkCount (encodeValidatorRecord r)
  Proc.read fun _ => failIf (count = 0 ∨ 256 < count) (.text "validator record exceeds state encoding limit")
  Proc.modify fun st => storeRecord st r

/-! ## The set of validators -/

def validatorCount (st : StateDB) : Nat := uint64FromHash (st.storage validatorCountSlot)

def validatorAt (st : StateDB) (i : Nat) : Except Err ValidatorRecord := do
  let hash := st.storage (validatorIndexSlot i)
  failIf (hash = 0) (.text "validator activation queue is corrupt")
  readValidatorRecord st (Address.ofBytes hash.bytes)

def validatorsBelow (st : StateDB) : Nat → Except Err (List ValidatorRecord)
  | 0 => .ok []
  | n + 1 => do
    let l ← validatorsBelow st n
    let r ← validatorAt st n
    pure (l ++ [r])

def validatorRecords (st : StateDB) : Except Err (List ValidatorRecord) := do
  failIf (validatorMaxSetSize < validatorCount st) .validatorSetFull
  validatorsBelow st (validatorCount st)

/-! ## Registration, exit, withdrawal and slashing -/

def hasValidatorRegistrationPrefix (data : Bytes) : Bool := hasPrefix data validatorRegistrationMagic

def hasValidatorSlashPrefix (data : Bytes) : Bool := hasPrefix data validatorSlashMagic

def hasValidatorExitPrefix (data : Bytes) : Bool := hasPrefix data validatorExitMagic

def hasValidatorWithdrawalPrefix (data : Bytes) : Bool := hasPrefix data validatorWithdrawalMagic

def isValidatorProtocolEnvelope (data : Bytes) : Bool :=
  hasValidatorRegistrationPrefix data || hasValidatorSlashPrefix data || hasValidatorExitPrefix data ||
    hasValidatorWithdrawalPrefix data

def toPool (cfg : ChainConfig) (tx : Tx) : Bool :=
  tx.type = .pqTkm && tx.toAddr = some poolAddress && some tx.chainId = cfg.chainID

section
variable (B : Backend) (cfg : ChainConfig) (num time : Nat)

def validateValidatorEnvelopeEncoding (data : Bytes) : Except Err Unit :=
  if hasValidatorRegistrationPrefix data then (decodeValidatorRegistration B data).map fun _ => ()
  else if hasValidatorSlashPrefix data then (decodeValidatorSlash B data).map fun _ => ()
  else if hasValidatorExitPrefix data then (decodeValidatorAction B data validatorExitMagic).map fun _ => ()
  else if hasValidatorWithdrawalPrefix data then
    (decodeValidatorAction B data validatorWithdrawalMagic).map fun _ => ()
  else .error (.invalidShieldedTx "")

def validateValidatorRegistrationBasics (tx : Tx) : Except Err Unit := do
  failIf (¬ cfg.isAntartical num time) .validatorNotActive
  failIf (¬ (toPool cfg tx ∧ tx.value = validatorBondWei))
    (.text "validator registration requires a bond-sized PQ transaction to the reserved pool")
  let e ← decodeValidatorRegistration B tx.data
  failIf (e.version ≠ validatorEnvelopeVersion ∨ e.rewardAddress = 0 ∨
      e.activationHeight.toNat < (num + validatorActivationDelay) % 2 ^ 64)
    (.text "invalid validator registration activation or reward address")
  failIf (tx.algorithm ≠ algorithmMLDSA87 ∨ e.publicKey.length ≠ mldsa87PublicKeySize ∨ tx.publicKey ≠ e.publicKey)
    (.text "validator registration requires an ML-DSA-87 public key bound to the transaction")
  let address ← B.pqAddress tx.publicKey
  let sender ← B.sender cfg num time tx
  failIf (sender ≠ address ∨ e.rewardAddress ≠ sender)
    (.text "validator public key, sender, and reward address do not match")

def validateValidatorActionBasics (tx : Tx) : Except Err Unit := do
  failIf (¬ cfg.isAntartical num time) .validatorNotActive
  failIf (¬ (toPool cfg tx ∧ tx.value = 0))
    (.text "validator action requires a zero-value PQ transaction to the reserved pool")
  failIf (tx.algorithm ≠ algorithmMLDSA87 ∨ tx.publicKey.length ≠ mldsa87PublicKeySize)
    (.text "validator action requires an ML-DSA-87 transaction")
  if hasValidatorExitPrefix tx.data then (decodeValidatorAction B tx.data validatorExitMagic).map fun _ => ()
  else if hasValidatorWithdrawalPrefix tx.data then
    (decodeValidatorAction B tx.data validatorWithdrawalMagic).map fun _ => ()
  else .error (.invalidShieldedTx "")

def validatorAttestationDigest (height : Nat) (blockHash : Hash) : Hash :=
  B.keccak256 (Bytes.ofText "TKM_VALIDATOR_ATTEST_V1" ++ Bytes.be 8 height ++ blockHash.bytes)

def validateValidatorSlashBasics (tx : Tx) : Except Err Unit := do
  failIf (¬ cfg.isAntartical num time) .validatorNotActive
  failIf (¬ (toPool cfg tx ∧ tx.value = 0))
    (.text "validator slash requires a zero-value PQ transaction to the reserved pool")
  let e ← decodeValidatorSlash B tx.data
  failIf (e.version ≠ validatorEnvelopeVersion ∨ e.validator = 0 ∨ e.height = 0 ∨ e.blockHashA = e.blockHashB)
    .validatorEvidenceInvalid
  failIf (e.publicKey.length ≠ mldsa87PublicKeySize ∨ e.signatureA = [] ∨ e.signatureB = []) .validatorEvidenceInvalid
  failIf (¬ (B.verifyMLDSA87 e.publicKey (validatorAttestationDigest B e.height e.blockHashA).bytes e.signatureA ∧
      B.verifyMLDSA87 e.publicKey (validatorAttestationDigest B e.height e.blockHashB).bytes e.signatureB))
    .validatorEvidenceInvalid
  failIf (B.pqAddress e.publicKey ≠ .ok e.validator) .validatorEvidenceInvalid

def validateValidatorProtocolBasics (tx : Tx) : Except Err Unit :=
  if hasValidatorRegistrationPrefix tx.data then validateValidatorRegistrationBasics B cfg num time tx
  else if hasValidatorSlashPrefix tx.data then validateValidatorSlashBasics B cfg num time tx
  else if hasValidatorExitPrefix tx.data || hasValidatorWithdrawalPrefix tx.data then
    validateValidatorActionBasics B cfg num time tx
  else .error (.invalidShieldedTx "")

def validateValidatorRegistrationState (st : StateDB) (sender : Address) (data : Bytes) (height : Nat) :
    Except Err Unit := do
  let e ← decodeValidatorRegistration B data
  failIf (0 < stakeOf st sender) .validatorAlreadyRegistered
  failIf (validatorMaxSetSize ≤ validatorCount st) .validatorSetFull
  failIf (e.activationHeight.toNat < (height + validatorActivationDelay) % 2 ^ 64)
    (.text "validator activation is too soon")

def validateValidatorActionState (st : StateDB) (sender : Address) (data : Bytes) (height : Nat) :
    Except Err Unit :=
  match readValidatorRecord st sender with
  | .error _ => .error .validatorNotFound
  | .ok record =>
    if hasValidatorExitPrefix data then
      failIf (record.stake = 0 ∨ record.exitHeight ≠ 0) (.text "validator is not active or has already exited")
    else if hasValidatorWithdrawalPrefix data then
      failIf (record.stake = 0 ∨ record.exitHeight = 0 ∨
          height < (record.exitHeight + validatorUnbondingPeriod) % 2 ^ 64)
        (.text "validator bond is still in its unbonding period")
    else .error (.invalidShieldedTx "")

def indexValidator (st : StateDB) (a : Address) : StateDB :=
  let count := validatorCount st
  if (List.range count).any fun i => st.storage (validatorIndexSlot i) = Hash.ofBytes a.bytes then st
  else (st.setState (validatorIndexSlot count) (Hash.ofBytes a.bytes)).setState validatorCountSlot
    (uint64Hash (count + 1))

def processValidatorRegistration (tx : Tx) : Proc StateDB Err Unit := do
  Proc.read fun _ => validateValidatorRegistrationBasics B cfg num time tx
  let sender ← Proc.read fun _ => B.sender cfg num time tx
  Proc.read fun st => validateValidatorRegistrationState B st sender tx.data (num % 2 ^ 64)
  let e ← Proc.read fun _ => decodeValidatorRegistration B tx.data
  Proc.read fun st => failIf ((st.balance sender).toNat < validatorRegistrationFeeWei)
    (.text "validator registration fee cannot be burned")
  Proc.modify fun st => st.subBalance sender (BitVec.ofNat 256 validatorRegistrationFeeWei)
  writeValidatorRecord
    { version := e.version, address := sender, publicKey := e.publicKey, rewardAddress := e.rewardAddress,
      stake := validatorBondWei, activationHeight := e.activationHeight.toNat, registeredAt := num % 2 ^ 64 }
  Proc.modify fun st => indexValidator st sender

def processValidatorAction (tx : Tx) : Proc StateDB Err Unit := do
  Proc.read fun _ => validateValidatorActionBasics B cfg num time tx
  let sender ← Proc.read fun _ => B.sender cfg num time tx
  Proc.read fun st => validateValidatorActionState st sender tx.data (num % 2 ^ 64)
  let record ← Proc.read fun st => readValidatorRecord st sender
  Proc.read fun _ => failIf (record.publicKey ≠ tx.publicKey)
    (.text "validator action public key does not match the registered validator")
  if hasValidatorExitPrefix tx.data then
    writeValidatorRecord { record with
      exitHeight := num % 2 ^ 64, jailedUntil := (num + validatorUnbondingPeriod) % 2 ^ 64 }
  else do
    Proc.read fun st => failIf (st.pool < record.stake)
      (.text "validator bond reserve is unavailable for withdrawal")
    Proc.modify fun st => (st.subBalance poolAddress (BitVec.ofNat 256 record.stake)).addBalance sender
      (BitVec.ofNat 256 record.stake)
    writeValidatorRecord { record with stake := 0, exitHeight := num % 2 ^ 64, jailedUntil := num % 2 ^ 64 }

def processValidatorSlash (tx : Tx) : Proc StateDB Err Unit := do
  Proc.read fun _ => validateValidatorSlashBasics B cfg num time tx
  let e ← Proc.read fun _ => decodeValidatorSlash B tx.data
  let record ← Proc.read fun st => readValidatorRecord st e.validator
  Proc.read fun _ => failIf (record.publicKey ≠ e.publicKey) .validatorEvidenceInvalid
  Proc.read fun st => failIf (st.storage (validatorEvidenceSlot (B.keccak256 tx.data)) ≠ 0)
    (.text "validator evidence was already processed")
  Proc.read fun st => failIf (0 < record.stake ∧ st.pool < record.stake)
    (.text "validator bond reserve is unavailable for slashing")
  Proc.modify fun st => if 0 < record.stake then st.subBalance poolAddress (BitVec.ofNat 256 record.stake) else st
  writeValidatorRecord { record with
    stake := 0, exitHeight := num % 2 ^ 64, jailedUntil := (num + validatorUnbondingPeriod) % 2 ^ 64,
    slashCount := (record.slashCount + 1) % 2 ^ 64 }
  Proc.modify fun st => st.setState (validatorEvidenceSlot (B.keccak256 tx.data)) tx.hash

def processValidatorHooks (tx : Tx) : Proc StateDB Err Unit := do
  .runWhen (cfg.isAntartical num time && hasValidatorRegistrationPrefix tx.data)
    (processValidatorRegistration B cfg num time tx)
  .runWhen (cfg.isAntartical num time && hasValidatorSlashPrefix tx.data) (processValidatorSlash B cfg num time tx)
  .runWhen (cfg.isAntartical num time &&
      (hasValidatorExitPrefix tx.data || hasValidatorWithdrawalPrefix tx.data))
    (processValidatorAction B cfg num time tx)

end

end TkmChain
