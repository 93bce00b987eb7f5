import TkmChain.Header
import TkmChain.Journal
import TkmChain.ShieldedChecks

/-!
# Gas

The gas pool that the transactions of a block share and the gas a transaction
costs before it runs. `Machine` is the code behind execution: the EVM, the
envelope encoders and the protocol hooks. A call returns at most the gas it was
given; nothing else is assumed of a machine.
-/

namespace TkmChain

inductive TxErr
  | consensus (e : Err)
  | blockOversized
  | gasLimitReached
  | gasLimitOverflow
  | nonceTooHigh
  | nonceTooLow
  | nonceMax
  | txTypeNotSupported (reason : String)
  | gasLimitTooHigh
  | senderNoEOA
  | feeCapVeryHigh
  | tipVeryHigh
  | feeCapTooLow (reason : String)
  | tipAboveFeeCap
  | blobTxCreate
  | missingBlobHashes
  | tooManyBlobs
  | blobFeeCapTooLow (reason : String)
  | setCodeTxCreate
  | emptyAuthList
  | insufficientFunds (reason : String)
  | insufficientFundsForTransfer
  | gasUintOverflow
  | intrinsicGas (gas want : Nat)
  | floorDataGas (gas want : Nat)
  | maxInitCodeSizeExceeded
  | publicExecutionDisabled
  | profileInactive
  | accountAbstractionEnvelope (reason : String)
  | accountAbstractionNonce
  | accountAbstractionTarget
  | accountAbstractionPaymaster
  | execution (message : String)
  | text (message : String)
  deriving DecidableEq, Repr

structure UserOperation where
  sender : Address
  nonce : Nat
  (initCode callData : Bytes)
  (callGasLimit verificationGasLimit preVerificationGas maxFeePerGas maxPriorityFeePerGas : Nat)
  paymasterAndData : Bytes
  algorithm : String
  (publicKey signature : Bytes)
  deriving DecidableEq, Repr

structure CallResult (gas : Nat) where
  state : Journal StateDB
  left : Nat
  left_le : left ≤ gas
  refund : Nat
  err : Option String

structure Machine where
  calcBlobFee : ChainConfig → Header → Nat
  txSize : Tx → Nat
  delegated : StateDB → Address → Bool
  parsePQMigration : Bytes → Option Address
  encodeV3 : ShieldedV3Transaction → Except Err Bytes
  encodeV4 : ShieldedV4Transaction → Except Err Bytes
  encodeV5 : ShieldedV5Transaction → Except Err Bytes
  encodeV6 : ShieldedV6Transaction → Except Err Bytes
  encodeStamp : AntarticalStampRegistration → Except Err Bytes
  privateTVMGasData : Bytes → Except Err (Bytes × Nat)
  decodeUserOperation : Bytes → Except String UserOperation
  verifyUserOperation : Option Nat → Address → UserOperation → Except Err Unit
  applyAuthorizations : ChainConfig → List SetCodeAuthorization → StateDB → StateDB
  call : Header → Address → Address → Bytes → (gas : Nat) → Nat → Journal StateDB → CallResult gas
  create : Header → Address → Bytes → (gas : Nat) → Nat → Journal StateDB → CallResult gas
  finalise : StateDB → StateDB
  (processOracle processCrossChain : ChainConfig → Nat → Nat → Tx → Address → Proc StateDB Err Unit)
  processPrivateTVM : ChainConfig → Nat → Nat → Tx → Proc StateDB Err Unit

/-! ## The gas pool -/

def maxUint64 : Nat := 2 ^ 64 - 1

structure GasPool where
  (remaining initial cumulativeUsed : Nat)
  deriving DecidableEq, Repr

def newGasPool (amount : Nat) : GasPool := ⟨amount, amount, 0⟩

namespace GasPool

def subGas (amount : Nat) (gp : GasPool) : Except TxErr GasPool := do
  failIf (gp.remaining < amount) .gasLimitReached
  pure { gp with remaining := gp.remaining - amount }

def returnGas (returned gasUsed : Nat) (gp : GasPool) : Except TxErr GasPool := do
  failIf (maxUint64 - returned < gp.remaining) .gasLimitOverflow
  pure { gp with
    remaining := gp.remaining + returned
    cumulativeUsed := (gp.cumulativeUsed + gasUsed) % 2 ^ 64 }

/-- `none` where the code panics. -/
def used (gp : GasPool) : Option Nat := if gp.initial < gp.remaining then none else some (gp.initial - gp.remaining)

theorem subGas_ok : subGas amount gp = .ok gp' ↔
    amount ≤ gp.remaining ∧ { gp with remaining := gp.remaining - amount } = gp' := by
  simp only [subGas, ok_rules, Nat.not_lt]
  exact ⟨fun ⟨_, h⟩ => h, fun h => ⟨(), h⟩⟩

theorem returnGas_ok (h : returnGas returned gasUsed gp = .ok gp') :
    gp'.remaining = gp.remaining + returned ∧ gp'.initial = gp.initial := by
  simp only [returnGas, ok_rules] at h
  obtain ⟨_, _, rfl⟩ := h
  exact ⟨rfl, rfl⟩

end GasPool

/-! ## Costs -/

def txGas : Nat := 21000
def txGasContractCreation : Nat := 53000
def callNewAccountGas : Nat := 25000
def txTokenPerNonZeroByte : Nat := 4
def txCostFloorPerToken : Nat := 10
def txCostFloorPerToken7976 : Nat := 16
def maxProofSize : Nat := 4 + 2 ^ 20 * 8
def shieldedV3VerifyGas : Nat := 3000000
def antarticalStampVerifyGas : Nat := 1000000
def shieldedV6BaseVerifyGas : Nat := 1000000
def shieldedV6InputVerifyGas : Nat := 250000
def shieldedV6OutputVerifyGas : Nat := 50000
def shieldedV6RecipientVerifyGas : Nat := 250000
def shieldedV6StateWriteGas : Nat := 20000
def shieldedV6StateUpdateGas : Nat := 2900

def chargeUnits (gas unit count : Nat) : Except TxErr Nat := do
  failIf ((maxUint64 - gas) / unit < count) .gasUintOverflow
  pure (gas + count * unit)

theorem chargeUnits_le (h : chargeUnits gas unit count = .ok total) : gas ≤ total := by
  simp only [chargeUnits, ok_rules] at h
  obtain ⟨_, _, rfl⟩ := h
  exact Nat.le_add_right _ _

def toWordSize (size : Nat) : Nat := if maxUint64 - 31 < size then maxUint64 / 32 + 1 else (size + 31) / 32

def storageKeys (l : List AccessTuple) : Nat := (l.map fun t => t.storageKeys.length).sum

def dataGas (gas : Nat) (data : Bytes) (creation eip2028 eip3860 : Bool) : Except TxErr Nat :=
  if data = [] then .ok gas
  else do
    let gas ← chargeUnits gas (if eip2028 then 16 else 68) (data.length - data.count 0)
    let gas ← chargeUnits gas 4 (data.count 0)
    if creation && eip3860 then chargeUnits gas 2 (toWordSize data.length) else pure gas

def accessListGas (gas : Nat) (l : List AccessTuple) (amsterdam : Bool) : Except TxErr Nat := do
  let gas ← chargeUnits gas 2400 l.length
  let gas ← chargeUnits gas 1900 (storageKeys l)
  if amsterdam then do
    let gas ← chargeUnits gas (20 * txCostFloorPerToken7976 * txTokenPerNonZeroByte) l.length
    chargeUnits gas (32 * txCostFloorPerToken7976 * txTokenPerNonZeroByte) (storageKeys l)
  else pure gas

def intrinsicGas (data : Bytes) (accessList : List AccessTuple) (authList : Option (List SetCodeAuthorization))
    (creation homestead eip2028 eip3860 amsterdam : Bool) : Except TxErr Nat := do
  let gas := if creation && homestead then txGasContractCreation else txGas
  let gas ← dataGas gas data creation eip2028 eip3860
  let gas ← accessListGas gas accessList amsterdam
  pure (gas + (authList.getD []).length * callNewAccountGas)

section
variable (B : Backend) (M : Machine)

def proofGasData {α : Type} (data : Bytes) (decoded : Except Err (Option α)) (proof : α → Bytes)
    (encodeClean : α → Except Err Bytes) (verifyGas : Nat) : Except TxErr (Bytes × Nat) := do
  match ← decoded.mapError TxErr.consensus with
  | none => pure (data, 0)
  | some e => do
    failIf (maxProofSize < (proof e).length) (.consensus (.invalidShieldedTx ""))
    let encoded ← (encodeClean e).mapError TxErr.consensus
    pure (encoded, verifyGas + (proof e).length)

def shieldedV4GasData (data : Bytes) : Except TxErr (Bytes × Nat) :=
  proofGasData data (decodeShieldedV4Transaction B data) (·.proof) (fun e => M.encodeV4 { e with proof := [] })
    shieldedV3VerifyGas

def shieldedV5GasData (data : Bytes) : Except TxErr (Bytes × Nat) :=
  proofGasData data (decodeShieldedV5Transaction B data) (·.proof) (fun e => M.encodeV5 { e with proof := [] })
    shieldedV3VerifyGas

def bindingGasData (e : ShieldedV6Transaction) : Except TxErr (Bytes × Nat) := do
  failIf (¬ validShieldedV6BindingShape e) (.consensus (.invalidShieldedTx ""))
  let binding ← orFail e.binding (.consensus (.invalidShieldedTx ""))
  failIf (binding.proof = [] ∨ shieldedV6MaxRecipientProof < binding.proof.length)
    (.consensus (.invalidShieldedTx ""))
  let encoded ← (M.encodeV6 { e with binding := some { binding with proof := [] } }).mapError TxErr.consensus
  pure (encoded, shieldedV6BaseVerifyGas + 106 * shieldedV6StateWriteGas + shieldedV6RecipientVerifyGas +
    binding.proof.length * 100)

def recipientGas (e : ShieldedV6Transaction) : Except TxErr Nat :=
  match e.recipients with
  | none => .ok 0
  | some r => do
    failIf (e.version ≠ shieldedV6BoundVersion ∨ r.proofs.length ≠ e.outputs.length ∨
      r.roots.length ≠ e.outputs.length) (.consensus (.invalidShieldedTx ""))
    failIf (r.proofs.any fun p => p = [] || shieldedV6MaxRecipientProof < p.length) (.consensus (.invalidShieldedTx ""))
    pure (r.proofs.map fun p => shieldedV6RecipientVerifyGas + p.length * 100).sum

def transferCosts (e : ShieldedV6Transaction) (recipients : Nat) : List Nat :=
  let inputs := e.inputs.length
  let outputs := e.outputs.length
  [inputs * shieldedV6InputVerifyGas, outputs * shieldedV6OutputVerifyGas, e.rangeProof.length * 100,
   if inputs = 0 then 0
     else (2 * inputs + 1) * shieldedV6StateWriteGas + (inputs - 1) * shieldedV6StateUpdateGas,
   if outputs = 0 then 0 else outputs * (32 + 4) * shieldedV6StateWriteGas + 2 * shieldedV6StateWriteGas,
   if e.deposit ∨ 0 < e.withdrawalValue.getD 0 then 3 * shieldedV6StateWriteGas else 0,
   recipients]

def transferGasData (e : ShieldedV6Transaction) : Except TxErr (Bytes × Nat) := do
  failIf (shieldedV6MaxInputs < e.inputs.length ∨ shieldedV6MaxOutputs < e.outputs.length ∨
      maxRangeProofBundleSize < e.rangeProof.length ∨ (e.inputs = [] ∧ ¬ e.deposit) ∨
      (e.outputs = [] ∧ e.withdrawalValue.getD 0 = 0)) (.consensus (.invalidShieldedTx ""))
  failIf (e.binding.isSome ∨ (e.version = shieldedV6BoundVersion ∧ e.recipients = none) ∨
      (e.version = 6 ∧ (e.recipients.isSome ∨ e.validUntil ≠ 0))) (.consensus (.invalidShieldedTx ""))
  let recipients ← recipientGas e
  let clean := { e with
    recipients := e.recipients.map fun r => { r with proofs := [] }
    rangeProof := []
    inputs := e.inputs.map fun i => { i with signature := List.replicate clsagSize 0 } }
  let encoded ← (M.encodeV6 clean).mapError TxErr.consensus
  let gas ← (transferCosts e recipients).foldlM (fun gas cost => chargeUnits gas 1 cost) shieldedV6BaseVerifyGas
  pure (encoded, gas)

def shieldedV6GasData (data : Bytes) : Except TxErr (Bytes × Nat) := do
  match ← (decodeShieldedV6Transaction B data).mapError TxErr.consensus with
  | none => pure (data, 0)
  | some e => do
    failIf (e.version ≠ 6 ∧ e.version ≠ shieldedV6BoundVersion ∧ e.version ≠ shieldedV6BindingVersion)
      (.consensus (.invalidShieldedTx ""))
    if e.version = shieldedV6BindingVersion then bindingGasData M e else transferGasData M e

def shieldedV3GasData (data : Bytes) : Except TxErr (Bytes × Nat) :=
  if hasPrivateTVMPrefix data then (M.privateTVMGasData data).mapError TxErr.consensus
  else if hasShieldedV6Prefix data then shieldedV6GasData B M data
  else if hasShieldedV5Prefix data then shieldedV5GasData B M data
  else if hasShieldedV4Prefix data then shieldedV4GasData B M data
  else if hasAntarticalStampPrefix data then
    proofGasData data ((decodeAntarticalStamp B data).map some) (·.proof)
      (fun e => M.encodeStamp { e with proof := [] }) antarticalStampVerifyGas
  else
    proofGasData data (decodeShieldedV3Transaction B data) (·.proof) (fun e => M.encodeV3 { e with proof := [] })
      shieldedV3VerifyGas

structure Rules where
  (isHomestead isIstanbul isLondon isShanghai isPrague isAmsterdam isAntartical : Bool)

def rules (cfg : ChainConfig) (num time : Nat) : Rules where
  isHomestead := cfg.isHomestead num
  isIstanbul := cfg.isIstanbul num
  isLondon := cfg.isLondon num
  isShanghai := cfg.isShanghai num time
  isPrague := cfg.isPrague num time
  isAmsterdam := cfg.isAmsterdam num time
  isAntartical := cfg.isAntartical num time

def pricedData (r : Rules) (data : Bytes) : Except TxErr (Bytes × Nat) :=
  if r.isAntartical then shieldedV3GasData B M data else .ok (data, 0)

def intrinsicGasWithShield3 (r : Rules) (tx : Tx) : Except TxErr Nat := do
  let (data, proofGas) ← pricedData B M r tx.data
  let gas ← intrinsicGas data tx.accessList tx.setCodeAuthorizations tx.toAddr.isNone r.isHomestead r.isIstanbul
    r.isShanghai r.isAmsterdam
  failIf (maxUint64 - gas < proofGas) .gasUintOverflow
  pure (gas + proofGas)

def dataTokens (r : Rules) (data : Bytes) (l : List AccessTuple) : Except TxErr Nat :=
  if r.isAmsterdam then do
    let tokens ← chargeUnits 0 txTokenPerNonZeroByte data.length
    let tokens ← chargeUnits tokens (20 * txTokenPerNonZeroByte) l.length
    chargeUnits tokens (32 * txTokenPerNonZeroByte) (storageKeys l)
  else do
    let tokens ← chargeUnits 0 txTokenPerNonZeroByte (data.length - data.count 0)
    chargeUnits tokens 1 (data.count 0)

def floorDataGas (r : Rules) (tx : Tx) : Except TxErr Nat := do
  let (data, proofGas) ← pricedData B M r tx.data
  let tokens ← dataTokens r data tx.accessList
  let gas ← chargeUnits txGas (if r.isAmsterdam then txCostFloorPerToken7976 else txCostFloorPerToken) tokens
  pure ((gas + proofGas) % 2 ^ 64)

end

/-! ## A transaction costs at least its base -/

theorem dataGas_le (h : dataGas gas data creation eip2028 eip3860 = .ok total) : gas ≤ total := by
  unfold dataGas at h
  split at h
  · cases h; exact Nat.le_refl _
  · simp only [ok_rules] at h
    obtain ⟨g₁, h₁, g₂, h₂, h₃⟩ := h
    have h₁₂ := (chargeUnits_le h₁).trans (chargeUnits_le h₂)
    split at h₃
    · exact h₁₂.trans (chargeUnits_le h₃)
    · cases h₃; exact h₁₂

theorem accessListGas_le (h : accessListGas gas l amsterdam = .ok total) : gas ≤ total := by
  simp only [accessListGas, ok_rules] at h
  obtain ⟨g₁, h₁, g₂, h₂, h₃⟩ := h
  have h₁₂ := (chargeUnits_le h₁).trans (chargeUnits_le h₂)
  split at h₃
  · simp only [ok_rules] at h₃
    obtain ⟨g₃, h₃, h₄⟩ := h₃
    exact h₁₂.trans ((chargeUnits_le h₃).trans (chargeUnits_le h₄))
  · cases h₃; exact h₁₂

theorem txGas_le_intrinsicGas 
    (h : intrinsicGas data l auths creation homestead eip2028 eip3860 amsterdam = .ok gas) : txGas ≤ gas := by
  simp only [intrinsicGas, ok_rules] at h
  obtain ⟨g₁, h₁, g₂, h₂, rfl⟩ := h
  have hbase : txGas ≤ if creation && homestead then txGasContractCreation else txGas := by
    split <;> decide
  exact (hbase.trans (dataGas_le h₁)).trans ((accessListGas_le h₂).trans (Nat.le_add_right _ _))

theorem txGas_le_intrinsicGasWithShield3 (h : intrinsicGasWithShield3 B M r tx = .ok gas) : txGas ≤ gas := by
  simp only [intrinsicGasWithShield3, ok_rules] at h
  obtain ⟨_, _, g, hg, _, _, rfl⟩ := h
  exact (txGas_le_intrinsicGas hg).trans (Nat.le_add_right _ _)

end TkmChain
