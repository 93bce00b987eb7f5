import TkmChain.Shielded
import TkmChain.Transition

/-!
# The miner's block environment

`commitTransaction` adds a transaction to the block under construction: the
shielded rules, the transaction itself, and the consensus hooks that block import
runs as well. It takes a snapshot first and goes back to it on every error.
-/

namespace TkmChain

/-! ## Account abstraction -/

def accountAbstractionMagic : String := "TKM-AA-ENTRYPOINT-V1"

def entryPointAddress : Address := 0x4337

def hasAccountAbstractionPrefix (data : Bytes) : Bool := hasPrefix data accountAbstractionMagic

def accountAbstractionNonceSlot (sender : Address) : Slot := .v3 .accountAbstractionNonce sender.bytes

def accountAbstractionCallData (data : Bytes) : Except TxErr (Address × Bytes) := do
  failIf (data.length < 20) .accountAbstractionTarget
  let target := Address.ofBytes (data.take 20)
  failIf (target = 0 ∨ target = entryPointAddress) .accountAbstractionTarget
  pure (target, data.drop 20)

section
variable (M : Machine)

def decodeAccountAbstraction (data : Bytes) : Except TxErr UserOperation := do
  failIf (¬ hasAccountAbstractionPrefix data ∨ shieldedV3MaxTxSize < data.length) (.accountAbstractionEnvelope "")
  match M.decodeUserOperation (envelopeBody data accountAbstractionMagic) with
  | .ok op => pure op
  | .error m => .error (.accountAbstractionEnvelope m)

def checkOperation (cfg : ChainConfig) (h : Header) (tx : Tx) (st : StateDB) :
    Except TxErr (UserOperation × Address × Bytes) := do
  failIf (¬ cfg.isAntartical h.number h.time.toNat) .profileInactive
  failIf (tx.type ≠ .pqTkm ∨ tx.toAddr ≠ some entryPointAddress ∨ tx.value ≠ 0 ∨ cfg.chainID ≠ some tx.chainId)
    (.accountAbstractionEnvelope "")
  let op ← decodeAccountAbstraction M tx.data
  (M.verifyUserOperation cfg.chainID entryPointAddress op).mapError TxErr.consensus
  failIf (2 ^ 64 ≤ op.nonce) .accountAbstractionNonce
  failIf (op.nonce ≠ uint64FromHash (st.storage (accountAbstractionNonceSlot op.sender))) .accountAbstractionNonce
  let (target, input) ← accountAbstractionCallData op.callData
  failIf (2 ^ 64 ≤ op.callGasLimit ∨ 2 ^ 64 ≤ op.verificationGasLimit ∨ 2 ^ 64 ≤ op.preVerificationGas)
    (.accountAbstractionEnvelope "")
  failIf (op.callGasLimit = 0 ∨ op.verificationGasLimit = 0) (.accountAbstractionEnvelope "")
  failIf (maxUint64 - op.verificationGasLimit < op.preVerificationGas ∨
    op.callGasLimit < op.preVerificationGas + op.verificationGasLimit) (.accountAbstractionEnvelope "")
  failIf (maxUint64 - op.verificationGasLimit < op.callGasLimit) (.accountAbstractionEnvelope "")
  pure (op, target, input)

def UserOperation.reserved (op : UserOperation) : Nat := op.callGasLimit + op.verificationGasLimit

variable (h : Header)

def evmCall (caller callee : Address) (input : Bytes) (gas : Nat) : Proc BlockState TxErr (Nat × Option String) :=
  fun b =>
    let result := M.call h caller callee input gas 0 b.state
    (.ok (result.left, result.err), { b with state := result.state })

def entryPointCall (callee : Address) (input : Bytes) (gas : Nat) (what : String) : Proc BlockState TxErr Nat := do
  let (left, err) ← evmCall M h entryPointAddress callee input gas
  BlockState.check fun _ => failIf err.isSome (.execution (what ++ err.getD ""))
  pure left

def runFactory (op : UserOperation) (gas : Nat) : Proc BlockState TxErr Nat :=
  if op.initCode = [] then pure gas
  else do
    let (factory, input) ← BlockState.check fun _ => accountAbstractionCallData op.initCode
    BlockState.check fun st => failIf (st.codeSize factory = 0) (.accountAbstractionEnvelope "factory has no code")
    entryPointCall M h factory input gas "account-abstraction factory validation: "

def runPaymaster (op : UserOperation) (gas : Nat) : Proc BlockState TxErr Nat :=
  if op.paymasterAndData = [] then pure gas
  else do
    let paymaster := Address.ofBytes (op.paymasterAndData.take 20)
    BlockState.check fun st => failIf (op.paymasterAndData.length < 20 ∨ paymaster = 0 ∨ st.codeSize paymaster = 0)
      .accountAbstractionPaymaster
    entryPointCall M h paymaster (op.paymasterAndData.drop 20) gas "account-abstraction paymaster validation: "

def runOperation (op : UserOperation) (target : Address) (input : Bytes) :
    Proc BlockState TxErr (Nat × Option String) := do
  BlockState.check fun _ => failIf (op.callGasLimit < op.verificationGasLimit) (.accountAbstractionEnvelope "")
  let verification ← runFactory M h op op.verificationGasLimit
  let verification ← runPaymaster M h op verification
  let (left, err) ← evmCall M h op.sender target input op.callGasLimit
  pure (max (op.verificationGasLimit - verification + (op.callGasLimit - left)) op.preVerificationGas, err)

def processAccountAbstraction (cfg : ChainConfig) (tx : Tx) : Proc BlockState TxErr Nat := do
  let (op, target, input) ← BlockState.check (checkOperation M cfg h tx)
  BlockState.onPool (GasPool.subGas op.reserved)
  let (used, err) ← runOperation M h op target input
  BlockState.onPool (GasPool.returnGas (op.reserved - used) used)
  BlockState.check fun _ => failIf err.isSome (.execution (err.getD ""))
  BlockState.write fun st => st.setState (accountAbstractionNonceSlot op.sender) (uint64Hash ((op.nonce + 1) % 2 ^ 64))
  pure used

end

/-! ## The environment -/

inductive Stop
  | err (e : TxErr)
  | panic (message : String)
  deriving DecidableEq, Repr

structure MinerEnv extends BlockState where
  header : Header
  txs : List Tx
  receipts : List Receipt
  seen : Finset BlockKey

def MinerEnv.onBlock {α : Type} (x : Proc BlockState TxErr α) : Proc MinerEnv TxErr α :=
  Proc.zoom MinerEnv.toBlockState (fun env b => { env with toBlockState := b }) x

def MinerEnv.orRollback {α : Type} (snap : Nat) (x : Proc MinerEnv TxErr α) : Proc MinerEnv Stop α := fun env =>
  match x env with
  | (.ok a, env) => (.ok a, env)
  | (.error e, env) =>
    match env.state.revertToSnapshot snap with
    | some j => (.error (.err e), { env with state := j })
    | none => (.error (.panic "revision id cannot be reverted"), env)

def oracleObservationMagic : String := "TKM-ORACLE-ENVELOPE-V1"
def oracleQuorumMagic : String := "TKM-ORACLE-QUORUM-V1"
def crossChainMessageMagic : String := "TKM-XCHAIN-ENVELOPE-V1"
def crossChainQuorumMagic : String := "TKM-XCHAIN-QUORUM-V1"

def hasOracleObservationPrefix (data : Bytes) : Bool :=
  hasPrefix data oracleObservationMagic || hasPrefix data oracleQuorumMagic

def hasCrossChainMessagePrefix (data : Bytes) : Bool :=
  hasPrefix data crossChainMessageMagic || hasPrefix data crossChainQuorumMagic

section
variable (B : Backend) (M : Machine) (cfg : ChainConfig) (coinbase : Address)

def shieldedStep (h : Header) (tx : Tx) : Proc MinerEnv TxErr (Finset BlockKey) := fun env =>
  match processShieldedTransaction B cfg h.number h.time.toNat tx ⟨env.state.current, env.seen⟩ with
  | (.ok _, w) => (.ok w.seen, { env with state := env.state.write fun _ => w.st })
  | (.error e, w) => (.error (.consensus e), { env with state := env.state.write fun _ => w.st })

def userOperationHook (h : Header) (tx : Tx) : Proc BlockState TxErr Nat :=
  if cfg.isAntartical h.number h.time.toNat && hasAccountAbstractionPrefix tx.data then
    processAccountAbstraction M h cfg tx
  else pure 0

def protocolHooks (h : Header) (tx : Tx) (sender : Address) : Proc BlockState TxErr Unit := do
  let num := h.number
  let time := h.time.toNat
  let active := cfg.isAntartical num time
  Proc.runWhen (active && hasOracleObservationPrefix tx.data)
    (BlockState.onState (M.processOracle cfg num time tx sender))
  Proc.runWhen (active && hasCrossChainMessagePrefix tx.data)
    (BlockState.onState (M.processCrossChain cfg num time tx sender))
  Proc.runWhen (active && hasPrivateTVMPrefix tx.data) (BlockState.onState (M.processPrivateTVM cfg num time tx))
  Proc.runWhen (active && hasAddressVotePrefix tx.data)
    (BlockState.onState (processAddressVote B sender tx.data tx.hash))
  Proc.runWhen (active && hasValidatorRegistrationPrefix tx.data)
    (BlockState.onState (processValidatorRegistration B cfg num time tx))
  Proc.runWhen (active && hasValidatorSlashPrefix tx.data)
    (BlockState.onState (processValidatorSlash B cfg num time tx))
  Proc.runWhen (active && (hasValidatorExitPrefix tx.data || hasValidatorWithdrawalPrefix tx.data))
    (BlockState.onState (processValidatorAction B cfg num time tx))

def consensusHooks (h : Header) (tx : Tx) (sender : Address) : Proc BlockState TxErr Nat := do
  let used ← userOperationHook M cfg h tx
  protocolHooks B M cfg h tx sender
  pure used

def checkBlockSize (tx : Tx) (env : MinerEnv) : Except Stop Unit :=
  failIf (cfg.isAntartical env.header.number env.header.time.toNat ∧
    shieldedV3MaxTxSize < M.txSize tx + (env.txs.map M.txSize).sum) (.err .blockOversized)

def applyAndHook (h : Header) (tx : Tx) : Proc MinerEnv TxErr (Finset BlockKey × Receipt × ExecutionResult) := do
  let candidate ← shieldedStep B cfg h tx
  let (receipt, result) ← MinerEnv.onBlock (applyTransaction B M cfg h coinbase tx)
  let sender ← MinerEnv.onBlock (BlockState.check fun _ =>
    (B.sender cfg h.number h.time.toNat tx).mapError TxErr.consensus)
  let used ← MinerEnv.onBlock (consensusHooks B M cfg h tx sender)
  pure (candidate, { receipt with
    gasUsed := receipt.gasUsed + used
    cumulativeGasUsed := receipt.cumulativeGasUsed + used }, result)

def includeTx (tx : Tx) (candidate : Finset BlockKey) (receipt : Receipt) (env : MinerEnv) :
    Except Stop Unit × MinerEnv :=
  match env.gasPool.used with
  | none => (.error (.panic "gas used underflow"), { env with seen := env.seen ∪ candidate })
  | some used => (.ok (), { env with
      seen := env.seen ∪ candidate
      header := { env.header with gasUsed := UInt64.ofNat used }
      txs := env.txs ++ [tx]
      receipts := env.receipts ++ [receipt] })

def commitTransaction (tx : Tx) : Proc MinerEnv Stop (Receipt × ExecutionResult) := do
  Proc.read (checkBlockSize M cfg tx)
  let h ← Proc.read fun env => .ok env.header
  let snap ← Proc.read fun env => .ok env.state.nextRevisionId
  Proc.modify fun env => { env with state := env.state.snapshot }
  let (candidate, receipt, result) ← MinerEnv.orRollback snap (applyAndHook B M cfg coinbase h tx)
  includeTx tx candidate receipt
  pure (receipt, result)

end

end TkmChain
