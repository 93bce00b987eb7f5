import TkmChain.Miner

/-!
# Block import

The serial loop of the block processor over user transactions: a transaction
becomes a message, passes the shielded rules on the state and the `seen` map of
the block, is applied, and its hooks run. An error ends the import of the block.

`Machine.Plain` and `Machine.SparesTickets` say what is assumed of execution:
accounts without code run nothing, and no code writes the slots of the pool.
-/

namespace TkmChain

structure ImportState extends BlockState where
  seen : Finset BlockKey

def ImportState.onBlock {α : Type} (x : Proc BlockState TxErr α) : Proc ImportState TxErr α :=
  Proc.zoom ImportState.toBlockState (fun s b => { s with toBlockState := b }) x

section
variable (B : Backend) (M : Machine) (cfg : ChainConfig) (coinbase : Address) (h : Header) (tx : Tx)

def importShielded : Proc ImportState TxErr Unit := fun s =>
  let r := processShieldedTransaction B cfg h.number h.time.toNat tx ⟨s.state.current, s.seen⟩
  (r.1.mapError TxErr.consensus, { s with state := s.state.write fun _ => r.2.st, seen := r.2.seen })

/-- Unlike the miner, import runs a private TVM transaction before its message. -/
def importPrivateTVM : Proc BlockState TxErr Unit :=
  Proc.runWhen (cfg.isAntartical h.number h.time.toNat && hasPrivateTVMPrefix tx.data)
    (BlockState.onState (M.processPrivateTVM cfg h.number h.time.toNat tx))

def importHooks (sender : Address) : Proc BlockState TxErr Unit := do
  let num := h.number
  let time := h.time.toNat
  let active := cfg.isAntartical num time
  Proc.runWhen (active && hasOracleObservationPrefix tx.data)
    (BlockState.onState (M.processOracle cfg num time tx sender))
  Proc.runWhen (active && hasCrossChainMessagePrefix tx.data)
    (BlockState.onState (M.processCrossChain cfg num time tx sender))
  Proc.runWhen (active && hasAddressVotePrefix tx.data)
    (BlockState.onState (processAddressVote B sender tx.data tx.hash))
  Proc.runWhen (active && hasValidatorRegistrationPrefix tx.data)
    (BlockState.onState (processValidatorRegistration B cfg num time tx))
  Proc.runWhen (active && hasValidatorSlashPrefix tx.data)
    (BlockState.onState (processValidatorSlash B cfg num time tx))
  Proc.runWhen (active && (hasValidatorExitPrefix tx.data || hasValidatorWithdrawalPrefix tx.data))
    (BlockState.onState (processValidatorAction B cfg num time tx))

def importTransaction : Proc ImportState TxErr (Receipt × ExecutionResult) := do
  let msg ← ImportState.onBlock (BlockState.check fun _ => transactionToMessage B cfg h tx)
  importShielded B cfg h tx
  ImportState.onBlock (importPrivateTVM M cfg h tx)
  let (receipt, result) ← ImportState.onBlock (applyTransactionWithEVM B M cfg h coinbase msg tx)
  let used ← ImportState.onBlock (userOperationHook M cfg h tx)
  ImportState.onBlock (importHooks B M cfg h tx msg.sender)
  pure ({ receipt with
    gasUsed := receipt.gasUsed + used
    cumulativeGasUsed := receipt.cumulativeGasUsed + used }, result)

end

/-! ## Execution without code -/

def StateDB.transfer (st : StateDB) (sender recipient : Address) (value : Nat) : StateDB :=
  (st.subBalance sender (BitVec.ofNat 256 value)).addBalance recipient (BitVec.ofNat 256 value)

/-- A call of an account without code moves the value or fails and moves nothing; of the pool, which is no
precompile, it moves a value the sender has. Finalising a transaction deletes empty accounts only. -/
structure Machine.Plain (M : Machine) : Prop where
  call : ∀ h sender callee data gas value j, j.current.codeSize callee = 0 →
    (M.call h sender callee data gas value j).state.current = j.current ∨
      (M.call h sender callee data gas value j).state.current = j.current.transfer sender callee value
  callPool : ∀ h sender data gas value j, j.current.codeSize poolAddress = 0 →
    value ≤ (j.current.balance sender).toNat →
    (M.call h sender poolAddress data gas value j).state.current = j.current.transfer sender poolAddress value
  finalise : ∀ st, (M.finalise st).balance = st.balance

/-- The pool account has no code, so no execution writes its fee tickets; deleting it clears them. -/
structure Machine.SparesTickets (M : Machine) : Prop where
  call : ∀ h sender callee data gas value j k,
    (M.call h sender callee data gas value j).state.current.storage (confidentialFeeTicket k) =
      j.current.storage (confidentialFeeTicket k)
  create : ∀ h sender data gas value j k,
    (M.create h sender data gas value j).state.current.storage (confidentialFeeTicket k) =
      j.current.storage (confidentialFeeTicket k)
  authorizations : ∀ cfg l st k,
    (M.applyAuthorizations cfg l st).storage (confidentialFeeTicket k) = st.storage (confidentialFeeTicket k)
  finalise : ∀ st k, (M.finalise st).storage (confidentialFeeTicket k) = st.storage (confidentialFeeTicket k) ∨
    (M.finalise st).storage (confidentialFeeTicket k) = 0

/-- Only a set-code transaction carries authorizations, and only a blob transaction blobs. -/
structure Tx.Typed (tx : Tx) : Prop where
  authorizations : tx.type ≠ .setCode → tx.setCodeAuthorizations = none
  blobs : tx.type ≠ .blob → tx.blobHashes = none

end TkmChain
