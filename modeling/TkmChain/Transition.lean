import TkmChain.Gas

/-!
# Applying a transaction

The state transition of a transaction: the message made of it, the checks before
its gas is bought, the purchase from the sender and the block's gas pool, the run
of the EVM, and the gas that goes back. An error keeps what was written so far.
-/

namespace TkmChain

structure BlockState where
  state : Journal StateDB
  gasPool : GasPool

namespace BlockState

variable {α : Type}

def check (f : StateDB → Except TxErr α) : Proc BlockState TxErr α :=
  Proc.read fun b => f b.state.current

def write (f : StateDB → StateDB) : Proc BlockState TxErr Unit :=
  Proc.modify fun b => { b with state := b.state.write f }

def onState (x : Proc StateDB Err α) : Proc BlockState TxErr α := fun b =>
  ((x b.state.current).1.mapError TxErr.consensus,
    { b with state := b.state.write fun _ => (x b.state.current).2 })

def onPool (f : GasPool → Except TxErr GasPool) : Proc BlockState TxErr Unit := fun b =>
  match f b.gasPool with
  | .ok gp => (.ok (), { b with gasPool := gp })
  | .error e => (.error e, b)

end BlockState

/-! ## Messages -/

/-- A transaction with its sender, its effective gas price and, for a stamp
registration, the hash and the address it was verified for. -/
structure Message extends Tx where
  sender : Address
  gasPrice : Nat
  stampTransactionHash : Hash := 0
  stampBeneficiary : Address := 0

section
variable (B : Backend) (M : Machine) (cfg : ChainConfig) (h : Header)

def messageStamp (tx : Tx) (sender : Address) : Except TxErr (Hash × Address) :=
  if hasAntarticalStampPrefix tx.data then do
    let e ← (decodeAntarticalStamp B tx.data).mapError TxErr.consensus
    let beneficiary ← (antarticalStampBeneficiary B sender e).mapError TxErr.consensus
    pure (tx.hash, beneficiary)
  else .ok (0, 0)

/-- `GasPrice()` is the fee cap for every transaction type. -/
def transactionToMessage (tx : Tx) : Except TxErr Message := do
  let sender ← (B.sender cfg h.number h.time.toNat tx).mapError TxErr.consensus
  failIf (2 ^ 256 ≤ tx.gasFeeCap) .feeCapVeryHigh
  failIf (2 ^ 256 ≤ tx.gasTipCap) .tipVeryHigh
  failIf (2 ^ 256 ≤ tx.value) (.text "value exceeds 256 bits")
  failIf (2 ^ 256 ≤ tx.blobGasFeeCap.getD 0) (.text "blobGasFeeCap exceeds 256 bits")
  let (stampTransactionHash, stampBeneficiary) ← messageStamp B tx sender
  let gasPrice := h.baseFee.elim tx.gasFeeCap fun fee => min (fee + tx.gasTipCap) tx.gasFeeCap
  pure { tx with sender, gasPrice, stampTransactionHash, stampBeneficiary }

/-! ## Checks before the purchase -/

def pqMigrationDataMagic : String := "TKMPQMIG1"

def maxTxGas : Nat := 2 ^ 24

def blobTxMaxBlobs : Nat := 6

def blobTxBlobGasPerBlob : Nat := 2 ^ 17

def isPrivateEnvelope (data : Bytes) : Bool :=
  hasAntarticalStampPrefix data || hasAddressVotePrefix data || hasValidatorRegistrationPrefix data ||
    hasValidatorSlashPrefix data || hasValidatorExitPrefix data || hasValidatorWithdrawalPrefix data ||
    hasShieldedV3Prefix data || hasShieldedV4Prefix data || hasShieldedV5Prefix data || hasShieldedV6Prefix data

def validatePrivateExecutionFields (num time : Nat) (tx : Tx) (blockReward : Bool) : Except TxErr Unit := do
  failIf (cfg.isAntartical num time ∧ isValidatorProtocolEnvelope tx.data ∧
    ¬ cfg.isValidatorTransactionsActive num time) (.consensus .validatorTransactionsNotActive)
  if cfg.isShieldedOnly num time then (shieldedOnlyFields B tx).mapError TxErr.consensus
  else if ¬ cfg.isAntartical num time ∨ blockReward then pure ()
  else failIf (tx.type ≠ .pqTkm ∨ ¬ isPrivateEnvelope tx.data) .publicExecutionDisabled

def validatePrivateExecutionMessage (num time : Nat) (tx : Tx) : Except TxErr Unit :=
  validatePrivateExecutionFields B cfg num time tx false

def checkNonce (st : StateDB) (msg : Message) : Except TxErr Unit := do
  failIf (st.nonce msg.sender < msg.nonce) .nonceTooHigh
  failIf (msg.nonce < st.nonce msg.sender) .nonceTooLow
  failIf ((st.nonce msg.sender + 1) % 2 ^ 64 < st.nonce msg.sender) .nonceMax

def checkStamp (st : StateDB) (msg : Message) : Except TxErr Unit := do
  failIf (hasAntarticalStampPrefix msg.data ∧ (msg.stampTransactionHash = 0 ∨
      st.storage (stampAddressSlot msg.stampBeneficiary) ≠ msg.stampTransactionHash))
    (.text "illegal transaction: stamp registration was not consensus verified")
  (validateAntarticalStampState B st msg.sender msg.toTx).mapError TxErr.consensus

def isPQMigration (msg : Message) : Except TxErr Bool :=
  if hasPrefix msg.data pqMigrationDataMagic then do
    failIf (msg.toAddr = none ∨ M.parsePQMigration msg.data ≠ msg.toAddr)
      (.text "invalid post-quantum migration transaction")
    pure (0 < msg.value && (msg.type = .legacy || msg.type = .accessList || msg.type = .dynamicFee))
  else .ok false

def checkTransactionType (msg : Message) : Except TxErr Unit := do
  failIf (msg.type = .randomX ∧ ¬ cfg.isRandomXTx h.number)
    (.txTypeNotSupported "block not yet at RandomX transaction fork")
  failIf (msg.type = .randomX ∧ msg.toAddr = none) (.text "randomx tx must be a coin transfer with a recipient")
  let migration ← isPQMigration M msg
  failIf (cfg.isQuantumResistant h.number h.time.toNat ∧ msg.type ≠ .pqTkm ∧
      ¬ (migration ∧ cfg.isPQMigrationAllowed h.number h.time.toNat))
    (.txTypeNotSupported "quantum-resistant transaction fork requires PQ tx type")

def checkFees (msg : Message) : Except TxErr Unit :=
  if cfg.isLondon h.number then do
    let baseFee ← orFail h.baseFee (.feeCapTooLow "missing fee cap or block base fee")
    failIf (msg.gasFeeCap < msg.gasTipCap) .tipAboveFeeCap
    failIf (msg.gasFeeCap < baseFee) (.feeCapTooLow "")
  else .ok ()

def checkBlobHashes (msg : Message) : Except TxErr Unit :=
  match msg.blobHashes with
  | none => .ok ()
  | some l => do
    failIf (msg.toAddr = none) .blobTxCreate
    failIf (l = []) .missingBlobHashes
    failIf (cfg.isOsaka h.number h.time.toNat ∧ blobTxMaxBlobs < l.length) .tooManyBlobs
    failIf (l.any fun hash => hash.toNat / 2 ^ 248 ≠ 1) (.text "invalid hash version")

def blobGasUsed (msg : Message) : Nat := (msg.blobHashes.getD []).length * blobTxBlobGasPerBlob

def blobBaseFee : Option Nat :=
  if h.excessBlobGas.isSome && cfg.isCancun h.number h.time.toNat then some (M.calcBlobFee cfg h) else none

def checkBlobFee (msg : Message) : Except TxErr Unit :=
  if cfg.isCancun h.number h.time.toNat && 0 < blobGasUsed msg then do
    let fee ← orFail (blobBaseFee M cfg h) (.blobFeeCapTooLow "missing blob fee cap or block blob base fee")
    failIf (msg.blobGasFeeCap.getD 0 < fee) (.blobFeeCapTooLow "")
  else .ok ()

def checkAuthorizations (msg : Message) : Except TxErr Unit :=
  match msg.setCodeAuthorizations with
  | none => .ok ()
  | some l => do
    failIf (msg.toAddr = none) .setCodeTxCreate
    failIf (l = []) .emptyAuthList

/-- `preCheck` up to the purchase. -/
def checkMessage (msg : Message) (st : StateDB) : Except TxErr Unit := do
  checkNonce st msg
  checkWhen (cfg.isAntartical h.number h.time.toNat) (checkStamp B st msg)
  validatePrivateExecutionMessage B cfg h.number h.time.toNat msg.toTx
  checkTransactionType M cfg h msg
  failIf (cfg.isOsaka h.number h.time.toNat ∧ ¬ cfg.isAmsterdam h.number h.time.toNat ∧ maxTxGas < msg.gas)
    .gasLimitTooHigh
  failIf (st.codeSize msg.sender ≠ 0 ∧ ¬ M.delegated st msg.sender) .senderNoEOA
  checkFees cfg h msg
  checkBlobHashes cfg h msg
  checkBlobFee M cfg h msg
  checkAuthorizations msg

/-! ## The purchase -/

def feeMode (data : Bytes) : Except TxErr Nat :=
  if ¬ cfg.isConfidentialLedger h.number h.time.toNat then .ok 0
  else Except.mapError TxErr.consensus
    (if hasShieldedV5Prefix data then (decodeShieldedV5Transaction B data).map fun e => e.elim 0 (·.feeMode)
    else if hasShieldedV4Prefix data then (decodeShieldedV4Transaction B data).map fun e => e.elim 0 (·.feeMode)
    else (decodeShieldedV3Transaction B data).map fun e => e.elim 0 (·.feeMode))

def checkPrepaid (msg : Message) (st : StateDB) : Except TxErr Unit := do
  failIf (msg.type ≠ .pqTkm ∨ msg.toAddr.getD 0 ≠ poolAddress ∨ msg.value ≠ 0 ∨ msg.gas ≠ confidentialPrepaidGas ∨
    msg.gasFeeCap ≠ msg.gasTipCap ∨ msg.hash = 0) (.consensus (.invalidShieldedTx "invalid prepaid message"))
  failIf (msg.gas * msg.gasFeeCap = 0 ∨ 2 ^ 256 ≤ msg.gas * msg.gasFeeCap ∨
      st.storage (confidentialFeeTicket msg.hash) ≠ bigToHash (msg.gas * msg.gasFeeCap))
    (.consensus (.invalidShieldedTx "prepaid fee has no verified note debit"))

def within256 (n : Nat) : Except TxErr Nat := do
  failIf (2 ^ 256 ≤ n) (.insufficientFunds "required balance exceeds 256 bits")
  pure n

/-- The need and the cost with the blob gas, at the sender's cap and at the block's price. The price is there
whenever `checkBlobFee` passed. -/
def addBlobCosts (msg : Message) (need cost : Nat) : Except TxErr (Nat × Nat) :=
  if cfg.isCancun h.number h.time.toNat && 0 < blobGasUsed msg then do
    let blobNeed ← within256 (blobGasUsed msg * msg.blobGasFeeCap.getD 0)
    let need ← within256 (need + blobNeed)
    let fee := (blobBaseFee M cfg h).getD 0
    failIf (2 ^ 256 ≤ fee) (.text "invalid blobBaseFee")
    let blobCost ← within256 (blobGasUsed msg * fee)
    let cost ← within256 (cost + blobCost)
    pure (need, cost)
  else .ok (need, cost)

def gasCost (msg : Message) (st : StateDB) : Except TxErr Nat := do
  let cost ← within256 (msg.gas * msg.gasPrice)
  let need ← within256 (msg.gas * msg.gasFeeCap)
  let need ← within256 (need + msg.value)
  let (need, cost) ← addBlobCosts M cfg h msg need cost
  failIf ((st.balance msg.sender).toNat < need) (.insufficientFunds "")
  pure cost

def takeGas {α : Type} (gas : Nat) (check : StateDB → Except TxErr α) (pay : α → StateDB → StateDB) :
    Proc BlockState TxErr Unit := do
  let a ← BlockState.check check
  BlockState.onPool (GasPool.subGas gas)
  BlockState.write (pay a)

def buyGas (msg : Message) : Proc BlockState TxErr Bool := do
  let mode ← BlockState.check fun _ => feeMode B cfg h msg.data
  if mode = shieldedFeePrepaid then do
    takeGas msg.gas (checkPrepaid msg) fun _ st => st.setState (confidentialFeeTicket msg.hash) 0
    pure true
  else do
    takeGas msg.gas (gasCost M cfg h msg) fun cost st => st.subBalance msg.sender (BitVec.ofNat 256 cost)
    pure false

def preCheck (msg : Message) : Proc BlockState TxErr Bool := do
  BlockState.check (checkMessage B M cfg h msg)
  buyGas B M cfg h msg

/-! ## Execution -/

structure ExecutionResult where
  (usedGas maxUsedGas : Nat)
  err : Option String
  deriving DecidableEq, Repr

def maxInitCodeSize (r : Rules) : Option Nat :=
  if r.isAmsterdam then some (2 * 32768) else if r.isShanghai then some (2 * 24576) else none

def checkMaxInitCodeSize (r : Rules) (size : Nat) : Except TxErr Unit :=
  failIf ((maxInitCodeSize r).any (· < size)) .maxInitCodeSizeExceeded

def floorGas (r : Rules) (tx : Tx) : Except TxErr Nat := if r.isPrague then floorDataGas B M r tx else .ok 0

def checkExecution (msg : Message) (st : StateDB) : Except TxErr (Nat × Nat) := do
  let r := rules cfg h.number h.time.toNat
  let cost ← intrinsicGasWithShield3 B M r msg.toTx
  failIf (msg.gas < cost) (.intrinsicGas msg.gas cost)
  let floor ← floorGas B M r msg.toTx
  failIf (msg.gas < floor) (.floorDataGas msg.gas floor)
  failIf (msg.value ≠ 0 ∧ (st.balance msg.sender).toNat < msg.value) .insufficientFundsForTransfer
  checkWhen msg.toAddr.isNone (checkMaxInitCodeSize r msg.data.length)
  pure (cost, floor)

def runMessage (msg : Message) (gas : Nat) (j : Journal StateDB) : CallResult gas :=
  match msg.toAddr with
  | none => M.create h msg.sender msg.data gas msg.value j
  | some callee =>
    let j := j.write fun st => st.setNonce msg.sender (st.nonce msg.sender + 1)
    let j := match msg.setCodeAuthorizations with
      | none => j
      | some l => j.write (M.applyAuthorizations cfg l)
    M.call h msg.sender callee msg.data gas msg.value j

def runInBlock (msg : Message) (gas : Nat) : Proc BlockState TxErr (Nat × Nat × Option String) := fun b =>
  let result := runMessage M cfg h msg gas b.state
  (.ok (result.left, result.refund, result.err), { b with state := result.state })

end

/-- The gas left of `limit` after refund and floor, and the peak of the gas used. A note pays the whole limit. -/
def settleGas (r : Rules) (limit left refund floor : Nat) (prepaid : Bool) : Nat × Nat :=
  let left := if prepaid then 0 else left
  let peak := limit - left
  let refunded := if prepaid then left else left + min refund (peak / if r.isLondon then 5 else 2)
  let used := limit - refunded
  if r.isPrague then
    (if used < floor ∧ floor - used ≤ refunded then refunded - (floor - used) else refunded, max peak floor)
  else (refunded, peak)

section
variable (B : Backend) (M : Machine) (cfg : ChainConfig) (h : Header) (coinbase : Address)

def settle (msg : Message) (prepaid : Bool) (remaining peak : Nat) (err : Option String) :
    Proc BlockState TxErr ExecutionResult := do
  let r := rules cfg h.number h.time.toNat
  BlockState.write fun st =>
    if prepaid then st else st.addBalance msg.sender (BitVec.ofNat 256 (remaining * msg.gasPrice))
  BlockState.onPool (GasPool.returnGas (if r.isAmsterdam then msg.gas - peak else remaining) (msg.gas - remaining))
  BlockState.check fun _ => failIf (r.isLondon ∧ 2 ^ 256 ≤ h.baseFee.getD 0) (.text "invalid baseFee")
  let tip := if r.isLondon then msg.gasPrice - h.baseFee.getD 0 else msg.gasPrice
  BlockState.write fun st =>
    if prepaid then st else st.addBalance coinbase (BitVec.ofNat 256 ((msg.gas - remaining) * tip))
  pure { usedGas := msg.gas - remaining, maxUsedGas := peak, err }

def executePurchased (msg : Message) (prepaid : Bool) : Proc BlockState TxErr ExecutionResult := do
  let (cost, floor) ← BlockState.check (checkExecution B M cfg h msg)
  let (left, refund, err) ← runInBlock M cfg h msg (msg.gas - cost)
  let gas := settleGas (rules cfg h.number h.time.toNat) msg.gas left refund floor prepaid
  settle cfg h coinbase msg prepaid gas.1 gas.2 err

def execute (msg : Message) : Proc BlockState TxErr ExecutionResult := do
  let prepaid ← preCheck B M cfg h msg
  executePurchased B M cfg h coinbase msg prepaid

structure Receipt where
  type : TxType
  failed : Bool
  cumulativeGasUsed : Nat
  txHash : Hash
  gasUsed : Nat
  deriving DecidableEq, Repr

def finaliseTransaction (tx : Tx) (result : ExecutionResult) : Proc BlockState TxErr (Receipt × ExecutionResult) :=
  fun b =>
    (.ok ({ type := tx.type, failed := result.err.isSome, cumulativeGasUsed := b.gasPool.cumulativeUsed,
            txHash := tx.hash, gasUsed := result.usedGas }, result),
      { b with state := (b.state.write M.finalise).reset })

/-- The result of the execution is kept beside the receipt made of it. -/
def applyTransactionWithEVM (msg : Message) (tx : Tx) : Proc BlockState TxErr (Receipt × ExecutionResult) := do
  BlockState.check fun _ =>
    (validateShieldedOnlyTransaction B cfg h.number h.time.toNat tx).mapError TxErr.consensus
  Proc.runWhen (cfg.isAntartical h.number h.time.toNat && hasAntarticalStampPrefix tx.data)
    (BlockState.onState (processAntarticalStamp B cfg h.number h.time.toNat tx))
  let result ← execute B M cfg h coinbase msg
  finaliseTransaction M tx result

def applyTransaction (tx : Tx) : Proc BlockState TxErr (Receipt × ExecutionResult) := do
  let msg ← BlockState.check fun _ => transactionToMessage B cfg h tx
  applyTransactionWithEVM B M cfg h coinbase msg tx

end

end TkmChain
