import TkmChain.Import

/-!
# Admission to the transaction pool

The stateful checks of a transaction before it is pooled: the stamp, vote and
validator rules on the state of the head, the nonce, the shielded references,
and the balance against what the sender must hold before execution.
-/

namespace TkmChain

/-! ## What the sender must hold -/

def Tx.cost (tx : Tx) : Nat :=
  tx.gas * tx.gasFeeCap +
    (if tx.type = .blob then (tx.blobHashes.getD []).length * blobTxBlobGasPerBlob * tx.blobGasFeeCap.getD 0 else 0) +
    tx.value

def lessSponsor (cost : Nat) (sponsor : Int) : Nat := if 0 < sponsor then (cost - sponsor).toNat else cost

section
variable (B : Backend)

/-- What a V1/V2 envelope releases to its sender: the sponsor, and the withdrawal of a migration to itself. -/
def migrationSponsor (tx : Tx) (e : ShieldedTransaction) : Int :=
  shieldedGasSponsorValue e +
    if e.migrationOutputRandomness.length = shieldedOutputSlots ∧ 0 < e.withdrawalValue.getD 0 ∧
        (B.quantumSender tx).toOption = some e.withdrawalRecipient then e.withdrawalValue.getD 0
    else 0

def shieldedTransactionPreBalanceCost (tx : Tx) : Nat :=
  let cost := tx.cost + if hasAddressVotePrefix tx.data then addressVoteBurnWei else 0
  if hasShieldedV5Prefix tx.data then
    match decodeShieldedV5Transaction B tx.data with
    | .ok (some e) => lessSponsor cost (e.gasSponsorValue.getD 0)
    | _ => cost
  else if hasShieldedV4Prefix tx.data then
    match decodeShieldedV4Transaction B tx.data with
    | .ok (some e) => lessSponsor cost (e.gasSponsorValue.getD 0)
    | _ => cost
  else if hasShieldedV3Prefix tx.data then
    match decodeShieldedV3Transaction B tx.data with
    | .ok (some e) => lessSponsor cost (e.gasSponsorValue.getD 0)
    | _ => cost
  else match decodeShieldedTransaction B tx.data with
    | .ok (some e) => lessSponsor cost (migrationSponsor B tx e)
    | _ => cost

/-! ## The state rules -/

def validateLegacyState (st : StateDB) (tx : Tx) (e : ShieldedTransaction) : Except Err Unit := do
  checkWhen (¬ isShieldedDeposit e tx.value) (checkAll (fun s => do
    failIf (¬ shieldedMerkleRootKnown st s.anchor) (.invalidShieldedTx "unknown shielded note root")
    failIf (st.storage (shieldedNullifierSlot s.nullifier) ≠ 0) (.invalidShieldedTx "nullifier already spent")) e.spends)
  checkAll (fun out => failIf (st.storage (shieldedCommitmentSlot out.commitment) ≠ 0)
    (.invalidShieldedTx "commitment already exists")) e.outputs

def validateShieldedTransactionState (st : StateDB) (tx : Tx) : Except Err Unit :=
  if hasShieldedV6Prefix tx.data then do
    match ← decodeShieldedV6Transaction B tx.data with
    | some e => validateShieldedV6State B st tx e
    | none => pure ()
  else if hasShieldedV5Prefix tx.data then do
    match ← decodeShieldedV5Transaction B tx.data with
    | some e => validateShieldedV5State st tx e
    | none => pure ()
  else if hasShieldedV4Prefix tx.data then do
    match ← decodeShieldedV4Transaction B tx.data with
    | some e => validateShieldedV4State st tx e
    | none => pure ()
  else if hasShieldedV3Prefix tx.data then do
    match ← decodeShieldedV3Transaction B tx.data with
    | some e => validateShieldedV3State st tx e
    | none => pure ()
  else match decodeShieldedTransaction B tx.data with
    | .error m => .error (.invalidShieldedTx ("malformed envelope: " ++ m))
    | .ok (some e) => validateLegacyState st tx e
    | .ok none => pure ()

/-- A time of zero stands for admission, where the lifetime is not checked. -/
def validateAntarticalStampRegistrationState (st : StateDB) (sender : Address) (data : Bytes) (time : Nat) :
    Except Err Unit := do
  let e ← decodeAntarticalStamp B data
  failIf (e.beneficiaryPublicKey ≠ [] ∧ (¬ isAntarticalStamped st sender ∨ e.validUntil = 0 ∨ e.validUntil ≤ time ∨
      (time ≠ 0 ∧ antarticalStampSponsorshipLifetime < e.validUntil - time)))
    (.text "stamp sponsorship requires a confirmed sponsor and unexpired authorization")
  let beneficiary ← antarticalStampBeneficiary B sender e
  failIf (isAntarticalStamped st beneficiary) (.text "address stamp is already registered")
  failIf (st.storage (stampOwnerIndexSlot e.owner) ≠ 0) (.text "stamp owner is already registered")

def validateAddressVoteBalance (st : StateDB) (voter : Address) : Except Err Unit :=
  failIf ((st.balance voter).toNat < addressVoteBurnWei) (.text "address vote requires a 50 TKM burn")

def validateValidatorRegistrationBalance (st : StateDB) (sender : Address) : Except Err Unit :=
  failIf ((st.balance sender).toNat < validatorBondWei + validatorRegistrationFeeWei)
    (.text "validator registration requires bond and fee balance")

def validateActionAdmission (st : StateDB) (sender : Address) (data : Bytes) : Except Err Unit :=
  match validateValidatorActionState st sender data 0 with
  | .ok _ => .ok ()
  | .error e => if hasValidatorExitPrefix data then .error e else .ok ()

def validateAntarticalAdmission (st : StateDB) (sender : Address) (tx : Tx) : Except Err Unit := do
  validateAntarticalStampState B st sender tx
  checkWhen (hasAntarticalStampPrefix tx.data) (validateAntarticalStampRegistrationState B st sender tx.data 0)
  checkWhen (hasAddressVotePrefix tx.data) (validateAddressVoteBalance st sender)
  checkWhen (hasValidatorRegistrationPrefix tx.data) (validateValidatorRegistrationBalance st sender)
  checkWhen (hasValidatorExitPrefix tx.data || hasValidatorWithdrawalPrefix tx.data)
    (validateActionAdmission st sender tx.data)

/-! ## Admission -/

structure StateOptions where
  antartical : Bool
  firstNonceGap : Option (Address → Nat)
  usedAndLeftSlots : Option (Address → Int × Int)
  existingExpenditure : Address → Nat
  existingCost : Address → Nat → Option Nat

def checkExpenditure (opts : StateOptions) (sender : Address) (nonce balance cost : Nat) : Except TxErr Unit :=
  match opts.existingCost sender nonce with
  | some prev => failIf ((balance : Int) < opts.existingExpenditure sender + ((cost : Int) - prev)) (.insufficientFunds "")
  | none => do
    failIf (balance < opts.existingExpenditure sender + cost) (.insufficientFunds "")
    failIf (∃ f ∈ opts.usedAndLeftSlots, (f sender).2 ≤ 0) (.text "account limit exceeded")

def validateTransactionWithState (signer : Tx → Except Err Address) (opts : StateOptions) (st : StateDB) (tx : Tx) :
    Except TxErr Unit := do
  let sender ← (signer tx).mapError TxErr.consensus
  checkWhen opts.antartical ((validateAntarticalAdmission B st sender tx).mapError TxErr.consensus)
  failIf (tx.nonce < st.nonce sender) .nonceTooLow
  (validateShieldedTransactionState B st tx).mapError TxErr.consensus
  failIf (∃ gap ∈ opts.firstNonceGap, gap sender < tx.nonce) .nonceTooHigh
  let balance := (st.balance sender).toNat
  let cost := shieldedTransactionPreBalanceCost B tx
  failIf (balance < cost) (.insufficientFunds "")
  checkExpenditure opts sender tx.nonce balance cost

end

end TkmChain
