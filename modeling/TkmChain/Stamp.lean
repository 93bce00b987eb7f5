import TkmChain.Trees

/-!
# Stamps and address votes

Registration of address stamps, the suspension votes of stamped owners, and the
stamp rule every transaction passes after Antartical.
-/

namespace TkmChain

def antarticalStampSponsorshipLifetime : Nat := 3600

def addressVoteVersion : Nat := 1

def addressVoteThreshold : Nat := 15

def addressVoteMaxReason : Nat := 160

def addressVoteBurnWei : Nat := 50 * ether

def hasAntarticalStampPrefix (data : Bytes) : Bool := hasPrefix data antarticalStampMagic

def hasAddressVotePrefix (data : Bytes) : Bool := hasPrefix data addressVoteMagic

def hasPrivateTVMPrefix (data : Bytes) : Bool := hasPrefix data privateTVMMagic

def hasShieldedV3Prefix (data : Bytes) : Bool := hasPrefix data shieldedV3Magic

def hasShieldedV4Prefix (data : Bytes) : Bool := hasPrefix data shieldedV4Magic

def hasShieldedV5Prefix (data : Bytes) : Bool := hasPrefix data shieldedV5Magic

def hasShieldedV6Prefix (data : Bytes) : Bool := hasPrefix data shieldedV6Magic

def stampAddressSlot (a : Address) : Slot := .v3 .stampAddress a.bytes

def isAntarticalStamped (st : StateDB) (a : Address) : Bool := st.storage (stampAddressSlot a) ≠ 0

structure AntarticalStampStatus where
  registered : Bool
  owner : Digest
  commitment : Hash × Hash
  transactionHash : Hash

def antarticalStampForAddress (st : StateDB) (a : Address) : Except Err AntarticalStampStatus :=
  if isAntarticalStamped st a then do
    let owner ← v3ReadDigest st .stampAddressOwner a.bytes
    pure ⟨true, owner, (st.storage (.v3 (.stampCommitment false) a.bytes), st.storage (.v3 (.stampCommitment true) a.bytes)),
      st.storage (stampAddressSlot a)⟩
  else .ok ⟨false, 0, (0, 0), 0⟩

/-! ## Address votes -/

def addressVoteActiveSlot (target : Address) (owner : Bytes) : Slot := .v3 .voteActive (target.bytes ++ owner)

def addressVoteReasonSlot (target : Address) (owner : Bytes) : Slot := .v3 .voteReason (target.bytes ++ owner)

def addressVoteCountSlot (target : Address) : Slot := .v3 .voteCount target.bytes

def addressVoteSuspendedSlot (target : Address) : Slot := .v3 .voteSuspended target.bytes

def isAddressSuspended (st : StateDB) (a : Address) : Bool := st.storage (addressVoteSuspendedSlot a) ≠ 0

def addressVoteCount (st : StateDB) (a : Address) : Nat := uint64FromHash (st.storage (addressVoteCountSlot a))

section
variable (B : Backend) (cfg : ChainConfig) (num time : Nat)

def validateAddressVotePayload (vote : AddressVote) : Except Err Unit := do
  failIf (vote.version ≠ addressVoteVersion ∨ vote.target = 0 ∨ vote.target = poolAddress)
    (.text "invalid address vote target or version")
  if vote.unvote then failIf (vote.reason ≠ []) (.text "unvote must not include a reason")
  else
    failIf (vote.reason = [] ∨ addressVoteMaxReason < vote.reason.length ∨ ¬ B.validUTF8 vote.reason)
      (.text "vote reason must be valid UTF-8 and between 1 and 160 bytes")

def addressVoteOwner (st : StateDB) (voter : Address) : Except Err Bytes := do
  failIf (¬ isAntarticalStamped st voter) (.unstampedAddress "voter")
  let owner ← match v3ReadDigest st .stampAddressOwner voter.bytes with
    | .ok owner => .ok owner
    | .error _ => .error (.text "read voter stamp owner")
  failIf (owner = 0) (.unstampedAddress "voter")
  pure owner.bytes

def validateAddressVoteState (st : StateDB) (voter : Address) (data : Bytes) : Except Err Unit := do
  let vote ← decodeAddressVote B data
  validateAddressVotePayload B vote
  failIf (vote.target = voter) (.text "an address cannot vote on itself")
  let owner ← addressVoteOwner st voter
  let active := st.storage (addressVoteActiveSlot vote.target owner)
  if vote.unvote then failIf (active = 0) .addressVoteNotFound
  else do
    failIf (active ≠ 0) .addressVoteAlreadyCast
    failIf (addressVoteThreshold ≤ addressVoteCount st vote.target ∨ isAddressSuspended st vote.target)
      .addressVoteSuspended

def burnAddressVoteFee (voter : Address) : Proc StateDB Err Unit := do
  Proc.read fun st => failIf ((st.balance voter).toNat < addressVoteBurnWei)
    (.text "address vote requires a 50 TKM burn")
  Proc.modify fun st => st.subBalance voter (BitVec.ofNat 256 addressVoteBurnWei)

def processAddressVote (voter : Address) (data : Bytes) (txHash : Hash) : Proc StateDB Err Unit := do
  let vote ← Proc.read fun _ => decodeAddressVote B data
  Proc.read fun st => validateAddressVoteState B st voter data
  let owner ← Proc.read fun st => addressVoteOwner st voter
  let count ← Proc.read fun st => .ok (addressVoteCount st vote.target)
  if vote.unvote then do
    Proc.read fun _ => failIf (count = 0) (.text "address vote count underflow")
    burnAddressVoteFee voter
    Proc.modify fun st => st.setStates
      [(addressVoteActiveSlot vote.target owner, 0), (addressVoteReasonSlot vote.target owner, 0),
       (addressVoteCountSlot vote.target, uint64Hash (count - 1))]
    Proc.modify fun st =>
      if count - 1 < addressVoteThreshold then st.setState (addressVoteSuspendedSlot vote.target) 0 else st
  else do
    Proc.read fun _ => failIf (addressVoteThreshold ≤ count) .addressVoteSuspended
    burnAddressVoteFee voter
    Proc.modify fun st => st.setStates
      [(addressVoteActiveSlot vote.target owner, txHash),
       (addressVoteReasonSlot vote.target owner, B.keccak256 vote.reason),
       (addressVoteCountSlot vote.target, uint64Hash (count + 1))]
    Proc.modify fun st =>
      if addressVoteThreshold ≤ count + 1 then st.setState (addressVoteSuspendedSlot vote.target) txHash else st

/-! ## Stamp registration -/

def stampSigner (tx : Tx) (e : AntarticalStampRegistration) : Except Err Bytes :=
  if e.beneficiaryPublicKey ≠ [] then do
    failIf (e.validUntil ≤ time ∨ antarticalStampSponsorshipLifetime < e.validUntil - time)
      (.text "stamp sponsorship authorization expired or exceeds one hour")
    match B.intentStamp tx e with
    | .error _ => .error (.text "invalid beneficiary stamp sponsorship authorization")
    | .ok intent => do
      failIf (¬ B.verifyMLDSA87 e.beneficiaryPublicKey intent e.authorization)
        (.text "invalid beneficiary stamp sponsorship authorization")
      pure e.beneficiaryPublicKey
  else do
    failIf (e.validUntil ≠ 0 ∨ e.authorization ≠ []) (.text "incomplete stamp sponsorship authorization")
    pure tx.publicKey

def validateAntarticalStampBasics (tx : Tx) : Except Err Unit := do
  failIf (cfg.chainID = none ∨ ¬ cfg.isAntartical num time)
    (.text "stamp registration is not active until Antartical")
  failIf (¬ (toPool cfg tx ∧ tx.value = 0))
    (.text "stamp registration requires a zero-value PQ transaction to the reserved pool")
  let e ← decodeAntarticalStamp B tx.data
  let publicKey ← stampSigner B time tx e
  failIf (e.version ≠ 1 ∨ 2 ^ 64 ≤ tx.chainId ∨ e.stamp.chainID ≠ tx.chainId ∨ tx.algorithm ≠ algorithmMLDSA87 ∨
      ¬ B.verifyStamp publicKey e.stamp ∨ e.owner = 0 ∨ ¬ validProofEncoding e.proof)
    (.text "invalid signed stamp or owner proof")
  let _ ← digestFromBytes e.owner.bytes
  pure ()

def antarticalStampBeneficiary (sender : Address) (e : AntarticalStampRegistration) : Except Err Address :=
  if e.beneficiaryPublicKey = [] then .ok sender
  else do
    let a ← B.pqAddress e.beneficiaryPublicKey
    failIf (a = sender) (.text "stamp sponsor must differ from beneficiary")
    pure a

def validateAntarticalStampProof (tx : Tx) : Except Err Unit := do
  let e ← decodeAntarticalStamp B tx.data
  let intent ← B.intentStamp tx e
  match B.verifyOwner e.stamp.chainID e.owner intent e.proof with
  | .ok _ => pure ()
  | .error m => .error (.text m)

def stampOwnerIndexSlot (owner : Digest) : Slot := .v3 .stampOwnerIndex owner.bytes

def recordStamp (beneficiary : Address) (e : AntarticalStampRegistration) (txHash : Hash) (st : StateDB) : StateDB :=
  let st := if st.nonce poolAddress = 0 then st.setNonce poolAddress 1 else st
  let st := st.setState (stampAddressSlot beneficiary) txHash
  let st := v3WriteDigest st .stampAddressOwner beneficiary.bytes e.owner
  st.setStates [(.v3 (.stampCommitment false) beneficiary.bytes, e.stamp.commitment.1),
    (.v3 (.stampCommitment true) beneficiary.bytes, e.stamp.commitment.2)]

def illegalStampProof : Err → Err
  | .text m => .text ("illegal stamp ownership proof: " ++ m)
  | e => e

def processAntarticalStamp (tx : Tx) : Proc StateDB Err Unit := do
  Proc.read fun _ => validateAntarticalStampBasics B cfg num time tx
  let sender ← Proc.read fun _ => B.sender cfg num time tx
  let e ← Proc.read fun _ => decodeAntarticalStamp B tx.data
  let beneficiary ← Proc.read fun _ => antarticalStampBeneficiary B sender e
  Proc.read fun st => failIf (e.beneficiaryPublicKey ≠ [] ∧ ¬ isAntarticalStamped st sender)
    (.unstampedAddress "stamp sponsor")
  let existing ← Proc.read fun st => .ok (st.storage (stampAddressSlot beneficiary))
  if existing = tx.hash then pure ()
  else do
    Proc.read fun st => do
      failIf (existing ≠ 0) (.text "illegal transaction: address stamp is immutable and already registered")
      failIf (st.codeSize poolAddress ≠ 0) (.text "stamp registry must not contain executable code")
      failIf (st.storage (stampOwnerIndexSlot e.owner) ≠ 0) (.text "stamp owner is already registered")
      (validateAntarticalStampProof B tx).mapError illegalStampProof
    Proc.orRevert (appendAntarticalStamp B e.stamp.chainID e.owner tx.hash)
    Proc.modify (recordStamp beneficiary e tx.hash)

/-! ## The stamp rule -/

def checkStampedSender (st : StateDB) (sender : Address) : Except Err Unit := do
  failIf (isAddressSuspended st sender) (.addressSuspended "sender")
  failIf (¬ isAntarticalStamped st sender) (.unstampedAddress "sender")

def checkStampedWithdrawal (st : StateDB) (value : Option Int) (recipient : Address) (who : String) : Except Err Unit :=
  failIf (0 < value.getD 0 ∧ ¬ isAntarticalStamped st recipient) (.unstampedAddress who)

def checkEnvelopeWithdrawal (st : StateDB) (data : Bytes) : Except Err Unit :=
  if hasShieldedV5Prefix data then do
    match ← decodeShieldedV5Transaction B data with
    | some e => checkStampedWithdrawal st e.withdrawalValue e.withdrawalRecipient "withdrawal recipient"
    | none => pure ()
  else if hasShieldedV4Prefix data then do
    match ← decodeShieldedV4Transaction B data with
    | some e => checkStampedWithdrawal st e.withdrawalValue e.withdrawalRecipient "withdrawal recipient"
    | none => pure ()
  else if hasShieldedV3Prefix data then do
    match ← decodeShieldedV3Transaction B data with
    | some e => checkStampedWithdrawal st e.withdrawalValue e.withdrawalRecipient "withdrawal recipient"
    | none => pure ()
  else match decodeShieldedTransaction B data with
    | .error m => .error (.text m)
    | .ok (some e) => checkStampedWithdrawal st e.withdrawalValue e.withdrawalRecipient "migration recipient"
    | .ok none => pure ()

def validateAntarticalStampState (st : StateDB) (sender : Address) (tx : Tx) : Except Err Unit :=
  if hasAntarticalStampPrefix tx.data then do
    failIf (tx.toAddr ≠ some poolAddress ∨ tx.value ≠ 0)
      (.text "illegal value transfer disguised as stamp registration")
    let e ← decodeAntarticalStamp B tx.data
    failIf (e.beneficiaryPublicKey ≠ [] ∧ ¬ isAntarticalStamped st sender) (.unstampedAddress "stamp sponsor")
  else if hasAddressVotePrefix tx.data then do
    failIf (tx.toAddr ≠ some poolAddress ∨ tx.value ≠ 0) (.text "illegal value transfer disguised as address vote")
    validateAddressVoteState B st sender tx.data
  else if hasValidatorRegistrationPrefix tx.data then do
    failIf (tx.toAddr ≠ some poolAddress ∨ tx.value ≠ validatorBondWei)
      (.text "illegal validator registration value transfer")
    checkStampedSender st sender
  else if hasValidatorSlashPrefix tx.data then do
    failIf (tx.toAddr ≠ some poolAddress ∨ tx.value ≠ 0) (.text "illegal validator slash value transfer")
    checkStampedSender st sender
  else if hasValidatorExitPrefix tx.data || hasValidatorWithdrawalPrefix tx.data then do
    failIf (tx.toAddr ≠ some poolAddress ∨ tx.value ≠ 0) (.text "illegal validator action value transfer")
    checkStampedSender st sender
  else do
    checkStampedSender st sender
    failIf (0 < tx.value ∧ tx.toAddr.all fun a => a ≠ poolAddress && !isAntarticalStamped st a)
      (.unstampedAddress "recipient")
    checkEnvelopeWithdrawal B st tx.data

end

end TkmChain
