import TkmChain.Transition
import TkmChain.Shielded
import TkmChain.Rewards

/-!
# The gates before execution

The stateless checks a transaction passes on its way into a block: the execution
policy of the pool, the envelope rules, and the policy again on the message.
-/

namespace TkmChain

section
variable (B : Backend) (cfg : ChainConfig) (num time : Nat)

def validateAddressVoteBasics (tx : Tx) : Except Err Unit := do
  failIf (cfg.chainID = none ∨ ¬ cfg.isAntartical num time)
    (.text "address voting is not active until Antartical")
  failIf (¬ (toPool cfg tx ∧ tx.value = 0))
    (.text "address vote requires a zero-value PQ transaction to the reserved pool")
  let vote ← decodeAddressVote B tx.data
  validateAddressVotePayload B vote

/-! ## Private TVM envelopes -/

structure PrivateTVMTransaction where
  version : Nat
  (codeHash oldRoot newRoot : Digest)
  operation : Nat
  (ciphertext proof : Bytes)

def privateTVMMaxCiphertext : Nat := 16 * 1024

/-- The rules of a decoded private TVM envelope; `decode` is the RLP decoder of its body. The intent a
statement is bound to can always be encoded. -/
def validatePrivateTVMBasics (decode : Bytes → Option PrivateTVMTransaction) (tx : Tx) : Except Err Unit := do
  let fail (m : String) : Err := .text ("invalid private TVM transaction" ++ m)
  failIf (¬ (cfg.isAntartical num time ∧ cfg.isPrivacyCommitments num time)) (fail ": not active until Antartical")
  failIf (tx.type ≠ .pqTkm ∨ tx.toAddr ≠ some poolAddress ∨ tx.value ≠ 0)
    (fail ": requires a PQ transaction to the shielded pool")
  failIf (cfg.chainID ≠ some tx.chainId) (fail ": chain ID mismatch")
  failIf (hasPrivateTVMPrefix tx.data ∧ shieldedV3MaxTxSize < tx.data.length) (fail "")
  let e ← orFail (decode (envelopeBody tx.data privateTVMMagic)) (fail ": malformed envelope")
  failIf (¬ hasPrivateTVMPrefix tx.data ∨ e.version ≠ 1 ∨ 1 < e.operation ∨ e.codeHash = 0 ∨ e.oldRoot = 0 ∨
    e.newRoot = 0) (fail ": invalid version, operation, code hash, or root")
  failIf (e.ciphertext = [] ∨ privateTVMMaxCiphertext < e.ciphertext.length ∨ ¬ validProofEncoding e.proof)
    (fail ": invalid ciphertext or proof")
  failIf (2 ^ 64 ≤ tx.chainId) (fail "")

/-! ## The envelope rules -/

def envelopeBasics (tx : Tx) : Except Err Unit :=
  (validateShieldedTransactionEnvelope B cfg num time tx).map fun _ => ()

def noteVersionBasics (tx : Tx) : Except Err Unit := do
  failIf (hasShieldedV4Prefix tx.data ∧ ¬ (cfg.isAntartical num time ∧ cfg.isPrivacyCommitments num time))
    (.invalidShieldedTx "Shield4 is not active until Antartical")
  if hasShieldedV4Prefix tx.data ∧ cfg.isPrivacyCommitments num time then
    (shieldedV4Basics B cfg num time tx).map fun _ => ()
  else if hasShieldedV3Prefix tx.data ∧ cfg.isPrivacyCommitments num time then
    (shieldedV3Basics B cfg num time tx).map fun _ => ()
  else envelopeBasics B cfg num time tx

def validateShieldedTransactionBasics (decode : Bytes → Option PrivateTVMTransaction) (tx : Tx) : Except Err Unit :=
  if hasShieldedV6Prefix tx.data then do
    failIf (¬ cfg.isShield6 num time) (.invalidShieldedTx "Shield6 is not active")
    let _ ← shieldedV6Basics B cfg num time tx
    validateShieldedV6Proof B tx
  else if hasShieldedV5Prefix tx.data then do
    failIf (¬ cfg.isShield5 num time) (.invalidShieldedTx "Shield5 is not active")
    (shieldedV5Basics B cfg num time tx).map fun _ => ()
  else do
    validateShieldedOnlyTransaction B cfg num time tx
    if hasPrivateTVMPrefix tx.data then validatePrivateTVMBasics cfg num time decode tx
    else if hasAntarticalStampPrefix tx.data then validateAntarticalStampBasics B cfg num time tx
    else if cfg.isValidatorTransactionsActive num time ∧ isValidatorProtocolEnvelope tx.data then
      validateValidatorProtocolBasics B cfg num time tx
    else noteVersionBasics B cfg num time tx

/-! ## The execution policy -/

/-- `IsBlockRewardTx` on the fields of a pooled transaction. -/
def isBlockReward (tx : Tx) : Bool :=
  tx.type = .legacy && tx.gas = 0 && tx.gasFeeCap = 0 && tx.data.length = blockRewardTxPrefix.length + 9 &&
    blockRewardTxPrefix.isPrefixOf tx.data

def validatePrivateExecutionPolicy (tx : Tx) : Except TxErr Unit := do
  (validateShieldedOnlyTransaction B cfg num time tx).mapError TxErr.consensus
  if ¬ cfg.isAntartical num time then pure ()
  else if tx.type = .pqTkm ∧ hasAntarticalStampPrefix tx.data then
    (validateAntarticalStampBasics B cfg num time tx).mapError TxErr.consensus
  else if tx.type = .pqTkm ∧ hasAddressVotePrefix tx.data then
    (validateAddressVoteBasics B cfg num time tx).mapError TxErr.consensus
  else if tx.type = .pqTkm ∧ hasValidatorRegistrationPrefix tx.data then
    (validateValidatorRegistrationBasics B cfg num time tx).mapError TxErr.consensus
  else if tx.type = .pqTkm ∧ hasValidatorSlashPrefix tx.data then
    (validateValidatorSlashBasics B cfg num time tx).mapError TxErr.consensus
  else if tx.type = .pqTkm ∧ (hasValidatorExitPrefix tx.data ∨ hasValidatorWithdrawalPrefix tx.data) then
    (validateValidatorActionBasics B cfg num time tx).mapError TxErr.consensus
  else validatePrivateExecutionFields B cfg num time tx (isBlockReward tx)

end

end TkmChain
