import TkmChain.ShieldedChecks

/-!
# Processing of shielded transactions

The state rules of each version and `processShieldedTransaction`, the entry
point of consensus. V3, V4 and V5 write through one tail, `applyNotes`, behind a
snapshot; the V1/V2 path writes as it goes.
-/

namespace TkmChain

section
variable (B : Backend) (cfg : ChainConfig) (num time : Nat)

/-! ## Statements -/

def statementKeys : List ShieldedV3Output → Except Err (List Digest)
  | [] => .ok []
  | out :: rest => do
    let key ← digestFromBytes out.oneTimeKey
    let keys ← statementKeys rest
    pure (key :: keys)

def noteStatement (tx : Tx) (e : ShieldedV3Transaction) (inputCount : Nat) (intent : Except Err Bytes) :
    Except Err Statement := do
  let amount ← amountFromBig (if e.deposit then tx.value else e.withdrawal + e.sponsor)
  let intent ← intent
  let sponsor ← amountFromBig e.sponsor
  let keys ← statementKeys e.outputs.toList
  pure
    { deposit := e.deposit, chainID := tx.chainId, assetID := e.asset, publicValue := amount, gasSponsor := sponsor,
      intent, anchor := e.anchor, nullifier := e.nullifier, outputs := e.outputs.toList.map (·.commitment),
      oneTimeKeys := keys, stampRoot := e.stampRoot, additionalNullifiers := e.additionalNullifiers, inputCount }

def shieldedV3Statement (tx : Tx) (e : ShieldedV3Transaction) : Except Err Statement := do
  failIf (e.withdrawalValue = none ∨ e.gasSponsorValue = none ∨ 2 ^ 64 ≤ tx.chainId) (.invalidShieldedTx "")
  failIf (¬ isSupportedAsset e.assetID) (.invalidShieldedTx "unsupported Shield3 asset ID")
  noteStatement tx e (e.inputCount % 2 ^ 32) (B.intentV3 tx e)

def shieldedV4Statement (tx : Tx) (e : ShieldedV4Transaction) : Except Err StatementV4 := do
  failIf (e.withdrawalValue = none ∨ e.gasSponsorValue = none ∨ 2 ^ 64 ≤ tx.chainId) (.invalidShieldedTx "")
  failIf (¬ isSupportedAsset e.assetID) (.invalidShieldedTx "unsupported Shield4 asset ID")
  failIf (inputSlots < effectiveCount e.deposit e.inputCount) (.invalidShieldedTx "")
  let base ← noteStatement tx e.toShieldedV3Transaction (effectiveCount e.deposit e.inputCount) (B.intentV4 tx e)
  pure { base with linkTag := e.linkTag }

def shieldedV5Statement (tx : Tx) (e : ShieldedV5Transaction) : Except Err StatementV5 := do
  failIf (e.withdrawalValue = none ∨ e.gasSponsorValue = none ∨ 2 ^ 64 ≤ tx.chainId) (.invalidShieldedTx "")
  failIf (shield5InputSlots < effectiveCount e.deposit e.inputCount) (.invalidShieldedTx "")
  let base ← noteStatement tx e.toShieldedV3Transaction (effectiveCount e.deposit e.inputCount) (B.intentV5 tx e)
  pure { base with linkTag := e.linkTag, additionalNullifiersV5 := e.additionalNullifiersV5 }

def proofResult (system : String) (r : Except String Unit) : Except Err Unit :=
  r.mapError fun m => .invalidShieldedTx (system ++ " proof: " ++ m)

/-! ## State rules of V3, V4 and V5 -/

def nullifierSlot (asset : Nat) (n : Digest) : Slot := assetSlot asset .nullifier n.bytes

def blockNullifierKey (asset : Nat) (n : Digest) : BlockKey := .slot (assetSlot asset .blockNullifier n.bytes)

def commitmentSlot (asset : Nat) (d : Digest) : Slot := assetSlot asset .commitment d.bytes

def linkTagSlot (asset : Nat) (tag : Digest) : Slot :=
  if normalizeAssetID asset = assetTKM then .v4 .linkTag tag.bytes else assetSlot asset .shield4LinkTag tag.bytes

def linkKey (asset : Nat) (tag : Digest) : BlockKey :=
  .slot (if normalizeAssetID asset = assetTKM then .v4 .blockLinkTag tag.bytes
    else assetSlot asset .shield4BlockLinkTag tag.bytes)

structure StateTexts where
  (code spent link root exists_ full duplicate duplicateLink : String)

def shieldedV3StateTexts : StateTexts where
  code := "Shield3 pool must not contain executable code"
  spent := "Shield3 nullifier already spent"
  link := ""
  root := "unknown Shield3 note root"
  exists_ := "Shield3 commitment already exists"
  full := "Shield3 tree is full"
  duplicate := "duplicate Shield3 nullifier in block"
  duplicateLink := ""

def shieldedV4StateTexts : StateTexts where
  code := "Shield4 pool must not contain executable code"
  spent := "Shield4 nullifier already spent"
  link := "Shield4 linkability tag already spent"
  root := "unknown full-chain note root"
  exists_ := "Shield4 commitment already exists"
  full := "full-chain tree is full"
  duplicate := "duplicate Shield4 nullifier in block"
  duplicateLink := "duplicate Shield4 linkability tag in block"

def checkUnspent (st : StateDB) (asset : Nat) (text : String) (l : List Digest) : Except Err Unit :=
  checkAll (fun n => failIf (st.storage (nullifierSlot asset n) ≠ 0) (.invalidShieldedTx text)) l

def checkWrapped (st : StateDB) (tx : Tx) (e : ShieldedV3Transaction) : Except Err Unit := do
  let supply := shieldedV3AssetSupply st assetPTKM
  failIf (st.pool < supply) (.invalidShieldedTx "wrapped TKM backing reserve is undercollateralized")
  if e.deposit then
    failIf (bitLenAbove (supply + tx.value) 256) (.invalidShieldedTx "wrapped TKM supply overflow")
  else failIf (supply < e.withdrawal) (.invalidShieldedTx "wrapped TKM supply is below withdrawal")

def validateNoteState (t : StateTexts) (st : StateDB) (tx : Tx) (e : ShieldedV3Transaction)
    (nullifiers : Except Err (List Digest)) (link : Option Digest) : Except Err Unit := do
  failIf (st.codeSize poolAddress ≠ 0) (.invalidShieldedTx t.code)
  failIf (e.stampRoot = 0 ∨ st.storage (.v3 .stampRoot e.stampRoot.bytes) = 0)
    (.invalidShieldedTx "unknown stamp registry root")
  failIf (0 < e.withdrawal ∧ ¬ isAntarticalStamped st e.withdrawalRecipient) (.unstampedAddress "")
  let nullifiers ← nullifiers
  checkWhen (!e.deposit) do
    checkUnspent st e.asset t.spent nullifiers
    failIf (∃ tag ∈ link, st.storage (linkTagSlot e.asset tag) ≠ 0) (.invalidShieldedTx t.link)
    failIf (st.storage (.v3 .root e.anchor.bytes) = 0) (.invalidShieldedTx t.root)
  checkAll (fun out => failIf (st.storage (commitmentSlot e.asset out.commitment) ≠ 0) (.invalidShieldedTx t.exists_))
    e.outputs.toList
  checkWhen (e.asset = assetPTKM) (checkWrapped st tx e)
  failIf (bitLenAbove (e.withdrawal + e.sponsor) 256 ∨
    shieldedV3SpendablePoolReserve st e.asset < e.withdrawal + e.sponsor)
    (.invalidShieldedTx "insufficient shielded pool reserve")
  failIf (2 ^ merkleDepth - 3 ≤ shieldedV3NextIndex st) (.invalidShieldedTx t.full)

def validateShieldedV3State (st : StateDB) (tx : Tx) (e : ShieldedV3Transaction) : Except Err Unit :=
  validateNoteState shieldedV3StateTexts st tx e (shieldedV3Nullifiers e) none

def validateShieldedV4State (st : StateDB) (tx : Tx) (e : ShieldedV4Transaction) : Except Err Unit :=
  validateNoteState shieldedV4StateTexts st tx e.toShieldedV3Transaction (shieldedV4Nullifiers e) (some e.linkTag)

def validateShieldedV5State (st : StateDB) (tx : Tx) (e : ShieldedV5Transaction) : Except Err Unit := do
  validateShieldedV4State st tx (shieldedV5AsV4 e)
  let all ← shieldedV5Nullifiers e
  checkUnspent st e.asset "Shield5 nullifier already spent" (all.drop inputSlots)

/-! ## Writing notes -/

def checkSeen (w : World) (asset : Nat) (duplicate duplicateLink : String) (nullifiers : List Digest)
    (link : Option Digest) : Except Err Unit := do
  checkAll (fun n => failIf (blockNullifierKey asset n ∈ w.seen) (.invalidShieldedTx duplicate)) nullifiers
  failIf (∃ tag ∈ link, linkKey asset tag ∈ w.seen) (.invalidShieldedTx duplicateLink)

def noteLedger (st : StateDB) (tx : Tx) (e : ShieldedV3Transaction) : Except Err (Option ConfidentialLedgerTotals) :=
  if cfg.isConfidentialLedger num time then
    (ledgerTransition st e.asset (if e.deposit then tx.value else 0) e.withdrawal e.sponsor).map some
  else .ok none

def appendOutput (asset : Nat) (txHash : Hash) (out : ShieldedV3Output) : Proc StateDB Err Unit := do
  appendShieldedV3Leaf B out.commitment txHash
  Proc.modify fun st => st.setState (commitmentSlot asset out.commitment) txHash

def markNullifier (asset : Nat) (txHash : Hash) (w : World) (n : Digest) : World :=
  (w.mapState fun st => st.setState (nullifierSlot asset n) txHash).mark (blockNullifierKey asset n)

def updateSupply (tx : Tx) (e : ShieldedV3Transaction) (st : StateDB) : StateDB :=
  if e.asset = assetPTKM then
    let supply := shieldedV3AssetSupply st e.asset
    setShieldedV3AssetSupply st e.asset (if e.deposit then supply + tx.value else supply - e.withdrawal)
  else st

def markLink (asset : Nat) (txHash : Hash) (tag : Digest) (w : World) : World :=
  (w.mapState fun st => st.setState (linkTagSlot asset tag) txHash).mark (linkKey asset tag)

def settleLedger (tx : Tx) (e : ShieldedV3Transaction) (ledger : Option ConfidentialLedgerTotals) (st : StateDB) :
    StateDB :=
  match ledger with
  | none => st
  | some l =>
    let st := commitLedger st e.asset l
    if e.feeMode = shieldedFeePrepaid then burnConfidentialFee st tx e.sponsor else st

def publicSponsor (e : ShieldedV3Transaction) (ledger : Option ConfidentialLedgerTotals) : Int :=
  if ledger.isSome ∧ e.feeMode = shieldedFeePrepaid then 0 else e.sponsor

def noteWrites (tx : Tx) (e : ShieldedV3Transaction) (nullifiers : List Digest) (link : Option Digest)
    (ledger : Option ConfidentialLedgerTotals) (sender : Address) (w : World) : World :=
  let w := nullifiers.foldl (markNullifier e.asset tx.hash) w
  let w := w.mapState (updateSupply tx e)
  let w := if e.deposit then w else link.elim w fun tag => markLink e.asset tx.hash tag w
  let w := w.mapState (settleLedger tx e ledger)
  w.mapState fun st => (st.release e.withdrawalRecipient e.withdrawal).release sender (publicSponsor e ledger)

def applyNotes (tx : Tx) (e : ShieldedV3Transaction) (nullifiers : List Digest) (link : Option Digest)
    (ledger : Option ConfidentialLedgerTotals) (sender : Address) : Proc World Err Unit := do
  World.onState (Proc.orRevert (Proc.each (appendOutput B e.asset tx.hash) e.outputs.toList))
  Proc.modify (noteWrites tx e nullifiers link ledger sender)

def processShieldedV3 (tx : Tx) : Proc World Err Unit := do
  let e ← Proc.read fun _ => shieldedV3Basics B cfg num time tx
  Proc.read fun w => validateShieldedV3State w.st tx e
  let nullifiers ← Proc.read fun _ => shieldedV3Nullifiers e
  Proc.read fun w => checkSeen w e.asset shieldedV3StateTexts.duplicate shieldedV3StateTexts.duplicateLink nullifiers none
  let ledger ← Proc.read fun w => noteLedger cfg num time w.st tx e
  let statement ← Proc.read fun _ => shieldedV3Statement B tx e
  Proc.read fun _ => proofResult "Shield3" (B.verifyV3 statement e.proof)
  let sender ← Proc.read fun _ => B.sender cfg num time tx
  applyNotes B tx e nullifiers none ledger sender

def processShieldedV4 (tx : Tx) : Proc World Err Unit := do
  let e ← Proc.read fun _ => shieldedV4Basics B cfg num time tx
  Proc.read fun w => validateShieldedV4State w.st tx e
  let nullifiers ← Proc.read fun _ => shieldedV4Nullifiers e
  Proc.read fun w => checkSeen w e.asset shieldedV4StateTexts.duplicate shieldedV4StateTexts.duplicateLink nullifiers
    (some e.linkTag)
  let ledger ← Proc.read fun w => noteLedger cfg num time w.st tx e.toShieldedV3Transaction
  let statement ← Proc.read fun _ => shieldedV4Statement B tx e
  Proc.read fun _ => proofResult "Shield4" (B.verifyV4 statement e.proof)
  let sender ← Proc.read fun _ => B.sender cfg num time tx
  applyNotes B tx e.toShieldedV3Transaction nullifiers (some e.linkTag) ledger sender

def processShieldedV5 (tx : Tx) : Proc World Err Unit := do
  let e ← Proc.read fun _ => shieldedV5Basics B cfg num time tx
  let from_ ← Proc.read fun _ => B.sender cfg num time tx
  Proc.read fun w => validateAntarticalStampState B w.st from_ tx
  Proc.read fun w => validateShieldedV5State w.st tx e
  let nullifiers ← Proc.read fun _ => shieldedV5Nullifiers e
  Proc.read fun w => checkSeen w e.asset "duplicate Shield5 nullifier in block"
    "duplicate Shield5 linkability tag in block" nullifiers (some e.linkTag)
  let ledger ← Proc.read fun w => noteLedger cfg num time w.st tx e.toShieldedV3Transaction
  let statement ← Proc.read fun _ => shieldedV5Statement B tx e
  Proc.read fun _ => proofResult "Shield5" (B.verifyV5 statement e.proof)
  let sender ← Proc.read fun _ => B.sender cfg num time tx
  applyNotes B tx e.toShieldedV3Transaction nullifiers (some e.linkTag) ledger sender

/-! ## V6 -/

def validateShieldedV6Proof (tx : Tx) : Except Err Unit :=
  match decodeShieldedV6Transaction B tx.data with
  | .ok (some e) =>
    if e.version = shieldedV6BindingVersion then (validateShieldedV6BindingBasics tx e).map fun _ => ()
    else do
      checkWhen (e.outputs ≠ []) ((B.verifyRange128
        (e.outputs.map fun out => (out.commitment, out.amountLimbs.1, out.amountLimbs.2)) e.rangeProof).mapError
          fun m => .invalidShieldedTx ("Shield6 range proof: " ++ m))
      if e.deposit then
        (B.verifyDeposit (e.outputs.map (·.commitment)) tx.value e.depositMask).mapError
          fun m => .invalidShieldedTx ("Shield6 deposit balance: " ++ m)
      else
        (B.verifyBalance128 (e.inputs.map (·.pseudoOutput)) (e.outputs.map (·.commitment)) e.withdrawal).mapError
          fun m => .invalidShieldedTx ("Shield6 balance: " ++ m)
  | _ => .error (.invalidShieldedTx "")

def shieldedV6BindingCount (st : StateDB) : Nat := uint64FromHash (st.storage (.v3 .bindingCount []))

def validateShieldedV6BindingRegistration (st : StateDB) (sender : Address) (commitment : Digest) :
    Except Err Digest := do
  let stamp ← (antarticalStampForAddress st sender).mapError fun _ => .unstampedAddress ""
  failIf (¬ stamp.registered ∨ isAddressSuspended st sender) (.unstampedAddress "")
  failIf (st.storage (.v3 .bindingOwnerIndex stamp.owner.bytes) ≠ 0)
    (.invalidShieldedTx "recipient key binding is immutable and already registered")
  failIf (2 ^ merkleDepth ≤ shieldedV6BindingCount st) (.invalidShieldedTx "recipient registry full")
  failIf (¬ validDigest commitment) (.invalidShieldedTx "")
  pure stamp.owner

def shieldedV6RecipientAnchor (chainID : Nat) (stampRoot bindingRoot : Digest) : Hash :=
  B.keccak256 (Bytes.ofText "TKM_SHIELD6_REGISTRY_ANCHOR_V2" ++ shieldedV6IndexKey chainID ++ stampRoot.bytes ++
    bindingRoot.bytes)

def validateShieldedV6RecipientRoots (st : StateDB) (tx : Tx) (e : ShieldedV6Transaction) : Except Err Unit :=
  match e.recipients with
  | none => .ok ()
  | some bundle => do
    failIf (bundle.roots.length ≠ e.outputs.length) (.invalidShieldedTx "")
    checkAll (fun r => failIf (2 ^ 64 ≤ tx.chainId ∨
        r.anchor ≠ shieldedV6RecipientAnchor B tx.chainId r.stampRoot r.bindingRoot ∨
        st.storage (.v3 .stampRoot r.stampRoot.bytes) = 0 ∨ st.storage (.v3 .bindingRoot r.bindingRoot.bytes) = 0)
      (.invalidShieldedTx "unknown or reorganized recipient registry anchor")) bundle.roots

def ringMembers (st : StateDB) (i : Nat) : Nat → List Nat → Except Err (List RingMember)
  | _, [] => .ok []
  | j, index :: rest => do
    failIf (shieldedV6OutputCount st ≤ index)
      (.invalidShieldedTx "Shield6 ring index is not in the pre-transaction accumulator")
    let member ← (shieldedV6ReadOutput st index).mapError fun _ =>
      .invalidShieldedTx ("invalid Shield6 ring member " ++ toString i ++ "/" ++ toString j)
    let members ← ringMembers st i (j + 1) rest
    pure (member :: members)

def checkV6Spends (st : StateDB) (intent : Hash) : Nat → List Hash → List ShieldedV6Input → Except Err Unit
  | _, _, [] => .ok ()
  | i, seen, input :: rest => do
    let members ← ringMembers st i 0 input.ringIndices
    failIf (st.storage (.v6 .keyImage input.keyImage.bytes) ≠ 0) (.invalidShieldedTx "Shield6 key image already spent")
    failIf (input.keyImage ∈ seen) (.invalidShieldedTx "duplicate Shield6 key image in block")
    (B.verifyCLSAG intent members input.keyImage input.pseudoOutput input.signature).mapError
      fun m => .invalidShieldedTx ("Shield6 CLSAG input " ++ toString i ++ ": " ++ m)
    checkV6Spends st intent (i + 1) (input.keyImage :: seen) rest

def validateShieldedV6State (st : StateDB) (tx : Tx) (e : ShieldedV6Transaction) : Except Err Unit :=
  if e.version = shieldedV6BindingVersion then do
    let b ← validateShieldedV6BindingBasics tx e
    let sender ← B.quantumSender tx
    let owner ← validateShieldedV6BindingRegistration st sender b.commitment
    failIf (owner ≠ b.owner) (.invalidShieldedTx "")
  else do
    checkWhen (e.outputs ≠ []) (validateShieldedV6RecipientRoots B st tx e)
    failIf (2 ^ merkleDepth < shieldedV6OutputCount st) (.invalidShieldedTx "corrupt Shield6 output count")
    let intent ← B.intentV6 tx e
    checkV6Spends B st intent 0 [] e.inputs

def processShieldedV6Binding (tx : Tx) (sender : Address) (e : ShieldedV6Transaction) : Proc StateDB Err Unit := do
  let b ← Proc.read fun _ => orFail e.binding (.invalidShieldedTx "")
  let owner ← Proc.read fun st => validateShieldedV6BindingRegistration st sender b.commitment
  Proc.read fun _ => failIf (owner ≠ b.owner)
    (.invalidShieldedTx "key-control owner does not match the stamped account")
  let leaf ← Proc.read fun _ => B.bindingLeaf (tx.chainId % 2 ^ 64) owner b.commitment
  let zeroes ← Proc.read fun _ => v3Zeroes B
  let index ← Proc.read fun st => .ok (shieldedV6BindingCount st)
  let current ← Proc.orRevert (climb B bindingTree zeroes merkleDepth 0 index leaf)
  Proc.modify fun st => st.setState (.v3 .bindingOwnerIndex owner.bytes) (uint64Hash (index + 1))
  Proc.modify fun st => v3WriteDigest st .bindingCommitment owner.bytes b.commitment
  Proc.modify fun st => v3WriteDigest (st.setStates
    [(.v3 .bindingCount [], uint64Hash (index + 1)), (.v3 .bindingRoot current.bytes, tx.hash)]) .bindingCurrentRoot []
    current

def blockKeyImage (input : ShieldedV6Input) : BlockKey := .slot (.v6 .blockKeyImage input.keyImage.bytes)

def boundaryBacking : Err → Err
  | .text m => .invalidShieldedTx ("Shield6 public boundary backing: " ++ m)
  | _ => .invalidShieldedTx "Shield6 public boundary backing"

def v6Ledger (st : StateDB) (tx : Tx) (e : ShieldedV6Transaction) : Except Err (Option ConfidentialLedgerTotals) :=
  if e.deposit ∨ 0 < e.withdrawal then
    ((ledgerTransition st assetTKM (if e.deposit then tx.value else 0) e.withdrawal 0).mapError boundaryBacking).map some
  else .ok none

def applyV6 (tx : Tx) (e : ShieldedV6Transaction) (ledger : Option ConfidentialLedgerTotals) :
    Proc World Err Unit := do
  World.onState (Proc.orRevert do
    Proc.each (fun out => shieldedV6AppendOutput B out tx.hash) e.outputs
    Proc.each (fun input => shieldedV6AppendKeyImage B input.keyImage tx.hash) e.inputs)
  Proc.modify fun w => e.inputs.foldl (fun w input => w.mark (blockKeyImage input)) w
  Proc.modify fun w => w.mapState fun st => ledger.elim st (commitLedger st assetTKM)
  Proc.modify fun w => w.mapState fun st => st.release e.withdrawalRecipient e.withdrawal

def processShieldedV6 (tx : Tx) : Proc World Err Unit := do
  Proc.read fun w => failIf (w.st.codeSize poolAddress ≠ 0)
    (.invalidShieldedTx "Shield6 pool must not contain executable code")
  let e ← Proc.read fun _ => shieldedV6Basics B cfg num time tx
  let sender ← Proc.read fun _ => B.sender cfg num time tx
  Proc.read fun w => validateAntarticalStampState B w.st sender tx
  if e.version = shieldedV6BindingVersion then World.onState (processShieldedV6Binding B tx sender e)
  else do
    Proc.read fun w => failIf (0 < e.withdrawal ∧ ¬ isAntarticalStamped w.st e.withdrawalRecipient)
      (.invalidShieldedTx "Shield6 public withdrawal recipient is not stamped")
    Proc.read fun _ => validateShieldedV6Proof B tx
    Proc.read fun w => validateShieldedV6State B w.st tx e
    Proc.read fun w => checkAll (fun input => failIf (blockKeyImage input ∈ w.seen)
      (.invalidShieldedTx "duplicate Shield6 key image in block")) e.inputs
    let ledger ← Proc.read fun w => v6Ledger w.st tx e
    applyV6 B tx e ledger

/-! ## V1 and V2 -/

def verifyShieldedSpend (version : Nat) (ctx : ShieldedProofContext) (proof : Bytes) : Except String Unit :=
  match B.verifySpendV1 cfg time version ctx proof with
  | .ok u => .ok u
  | .error m =>
    if ctx.blockNumber = 0 then .error m
    else match B.verifySpendV1 cfg time version { ctx with blockNumber := 0 } proof with
      | .ok u => .ok u
      | .error _ => .error m

def spendContext (tx : Tx) (e : ShieldedTransaction) (sender : Address) (intent : Hash) (i : Nat)
    (s : ShieldedSpend) : ShieldedProofContext where
  version := e.version
  sender := sender
  chainID := cfg.chainID
  blockNumber := num
  txHash := intent
  spendIndex := i
  nullifier := s.nullifier
  anchor := s.anchor
  balanceCommitment := e.balanceCommitment
  publicValue := shieldedPublicValue e tx.value
  outputCommitments := e.outputs.map (·.commitment)
  bindingSig := e.bindingSig

def checkSpendState (tx : Tx) (e : ShieldedTransaction) (sender : Address) (intent : Hash) (i : Nat)
    (s : ShieldedSpend) (w : World) : Except Err Unit := do
  if isShieldedDeposit e tx.value then
    failIf (i ≠ 0) (.invalidShieldedTx "shielded deposit must carry exactly one deposit proof")
  else
    failIf (¬ shieldedMerkleRootKnown w.st s.anchor) (.invalidShieldedTx "unknown shielded note root")
  failIf (BlockKey.nullifier s.nullifier ∈ w.seen) (.invalidShieldedTx "duplicate nullifier in block")
  failIf (¬ isShieldedDeposit e tx.value ∧ w.st.storage (shieldedNullifierSlot s.nullifier) ≠ 0)
    (.invalidShieldedTx "nullifier already spent")
  (verifyShieldedSpend B cfg time e.version (spendContext cfg num tx e sender intent i s) s.proof).mapError
    fun m => .invalidShieldedTx ("spend proof " ++ toString i ++ ": " ++ m)

def markSpend (tx : Tx) (e : ShieldedTransaction) (s : ShieldedSpend) (w : World) : World :=
  if isShieldedDeposit e tx.value then w
  else (w.mark (.nullifier s.nullifier)).mapState fun st => st.setState (shieldedNullifierSlot s.nullifier) tx.hash

def processSpends (tx : Tx) (e : ShieldedTransaction) (sender : Address) (intent : Hash) :
    Nat → List ShieldedSpend → Proc World Err Unit
  | _, [] => pure ()
  | i, s :: rest => do
    Proc.read (checkSpendState B cfg num time tx e sender intent i s)
    Proc.modify (markSpend tx e s)
    processSpends tx e sender intent (i + 1) rest

def processOutput (txHash : Hash) (out : ShieldedOutput) : Proc StateDB Err Unit := do
  Proc.read fun st => failIf (st.storage (shieldedCommitmentSlot out.commitment) ≠ 0)
    (.invalidShieldedTx "commitment already exists")
  Proc.modify fun st => st.setState (shieldedCommitmentSlot out.commitment) out.payloadHash
  appendShieldedMerkleLeaf B out.commitment txHash

def legacySender (tx : Tx) (e : ShieldedTransaction) : Except Err Address :=
  if e.version = shieldedTxVersionV2 then
    (B.sender cfg num time tx).mapError fun _ => .invalidShieldedTx "recover V2 PQ sender"
  else .ok 0

def legacyLedger (st : StateDB) (e : ShieldedTransaction) : Except Err (Option ConfidentialLedgerTotals) :=
  if cfg.isConfidentialLedger num time then (ledgerTransition st assetTKM 0 (publicRelease e) 0).map some else .ok none

def checkRelease (st : StateDB) (e : ShieldedTransaction) : Except Err Unit :=
  failIf (0 < publicRelease e ∧ st.pool < publicRelease e)
    (.invalidShieldedTx "shielded pool balance is smaller than public release value")

def applyLegacy (tx : Tx) (e : ShieldedTransaction) (ledger : Option ConfidentialLedgerTotals) (intent : Hash)
    (sender : Address) : Proc World Err Unit := do
  processSpends B cfg num time tx e sender intent 0 e.spends
  Proc.modify fun w => w.mapState fun st =>
    (st.release e.withdrawalRecipient (shieldedWithdrawalValue e)).release sender (shieldedGasSponsorValue e)
  World.onState (Proc.each (processOutput B tx.hash) e.outputs)
  Proc.modify fun w => w.mapState fun st => ledger.elim st (commitLedger st assetTKM)

/-- The unexported `processShieldedTransaction` of the V1/V2 envelopes. -/
def processLegacyTransaction (tx : Tx) : Proc World Err Unit := do
  match ← Proc.read fun _ => validateShieldedTransactionEnvelope B cfg num time tx with
  | none => pure ()
  | some e => do
    let ledger ← Proc.read fun w => legacyLedger cfg num time w.st e
    Proc.read fun w => checkRelease w.st e
    let intent ← Proc.read fun _ => B.intentV1 tx e
    let sender ← Proc.read fun _ => legacySender B cfg num time tx e
    applyLegacy B cfg num time tx e ledger intent sender

/-! ## The entry point -/

def processNoteVersion (tx : Tx) : Proc World Err Unit :=
  if hasShieldedV4Prefix tx.data ∧ cfg.isPrivacyCommitments num time then processShieldedV4 B cfg num time tx
  else if hasShieldedV3Prefix tx.data ∧ cfg.isPrivacyCommitments num time then processShieldedV3 B cfg num time tx
  else processLegacyTransaction B cfg num time tx

def processAntartical (tx : Tx) : Proc World Err Unit :=
  if hasAntarticalStampPrefix tx.data then World.onState (processAntarticalStamp B cfg num time tx)
  else do
    let sender ← Proc.read fun _ => B.sender cfg num time tx
    Proc.read fun w => validateAntarticalStampState B w.st sender tx
    if hasPrivateTVMPrefix tx.data then pure ()
    else if isValidatorProtocolEnvelope tx.data then pure ()
    else processNoteVersion B cfg num time tx

def processShieldedTransaction (tx : Tx) : Proc World Err Unit :=
  if hasShieldedV6Prefix tx.data then do
    Proc.read fun _ => failIf (¬ cfg.isShield6 num time) (.invalidShieldedTx "Shield6 is not active")
    processShieldedV6 B cfg num time tx
  else if hasShieldedV5Prefix tx.data then do
    Proc.read fun _ => failIf (¬ cfg.isShield5 num time) (.invalidShieldedTx "Shield5 is not active")
    processShieldedV5 B cfg num time tx
  else do
    Proc.read fun _ => do
      validateShieldedOnlyTransaction B cfg num time tx
      checkWhen (cfg.isValidatorTransactionsActive num time && isValidatorProtocolEnvelope tx.data)
        (validateValidatorProtocolBasics B cfg num time tx)
      failIf (hasShieldedV4Prefix tx.data ∧ ¬ (cfg.isAntartical num time ∧ cfg.isPrivacyCommitments num time))
        (.invalidShieldedTx "Shield4 is not active until Antartical")
    if cfg.isAntartical num time then processAntartical B cfg num time tx
    else processNoteVersion B cfg num time tx

end

end TkmChain
