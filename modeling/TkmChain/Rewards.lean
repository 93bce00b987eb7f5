import TkmChain.Header
import TkmChain.Registry

/-!
# Block rewards

The halving schedules, the reward transactions the engine expects at the end of
a body, the check `processBlockRewardTxs` makes on such a tail, and what
`distributeBodyRewardTransactions` credits for it. Transaction hashes are free
of collisions: where the code compares hashes the transactions are compared.
-/

namespace TkmChain

/-- A transaction of a block body; `rest` holds the signature and the fields no reward rule reads. -/
structure BodyTx where
  type : TxType
  nonce : UInt64
  (gasPrice gas : Nat)
  toAddr : Option Address
  value : Nat
  data : Bytes
  rest : Bytes := []
  deriving DecidableEq

inductive RewardKind
  | mainKing
  | rotatingKing
  | miner
  | validator
  deriving DecidableEq, Repr

def RewardKind.byte : RewardKind → UInt8
  | .mainKing => 0
  | .rotatingKing => 1
  | .miner => 2
  | .validator => 3

def blockRewardTxPrefix : Bytes := Bytes.ofText "tkmchain:blockreward:v1:"

def rewardData (blockNumber : UInt64) (kind : RewardKind) : Bytes :=
  blockRewardTxPrefix ++ Bytes.be 8 blockNumber.toNat ++ [kind.byte]

def newBlockRewardTx (blockNumber : UInt64) (kind : RewardKind) (recipient : Address) (amount : Nat) : BodyTx where
  type := .legacy
  nonce := blockNumber * 3 + kind.byte.toUInt64
  gasPrice := 0
  gas := 0
  toAddr := some recipient
  value := amount
  data := rewardData blockNumber kind

def newValidatorRewardTx (blockNumber : UInt64) (recipient : Address) (amount : Nat) : BodyTx :=
  { newBlockRewardTx blockNumber .validator recipient amount with
    nonce := blockNumber * 4 + RewardKind.validator.byte.toUInt64 }

def isBlockRewardTx (tx : BodyTx) : Bool :=
  tx.type = .legacy ∧ tx.gas = 0 ∧ tx.gasPrice = 0 ∧ tx.data.length = blockRewardTxPrefix.length + 9 ∧
    blockRewardTxPrefix.isPrefixOf tx.data

def isValidatorRewardTx (tx : BodyTx) : Bool :=
  isBlockRewardTx tx && tx.data.getLast? = some RewardKind.validator.byte

/-! ## Schedules -/

def blocksPerHalving : Nat := 4 * 365 * 24 * 60 * 60 / 120

def maxHalvings : Nat := 64

def halveReward : Nat → Nat → Nat
  | 0, reward => reward
  | n + 1, reward => if reward / 2 < ether then 0 else halveReward n (reward / 2)

def calculateBlockReward (blockNumber : UInt64) : Nat :=
  halveReward (min (blockNumber.toNat / blocksPerHalving) maxHalvings) (200 * ether)

def genesisPremine : Nat := 60000000 * ether

def supplyCapLoop : Nat → Nat → Nat
  | 0, _ => 0
  | n + 1, reward => reward * blocksPerHalving + if reward / 2 < ether then 0 else supplyCapLoop n (reward / 2)

def calculateTotalSupplyCap : Nat := genesisPremine + supplyCapLoop (maxHalvings + 1) (200 * ether)

def circulatingLoop : Nat → Nat → Nat → Nat
  | 0, _, _ => 0
  | n + 1, reward, remaining =>
    let blocks := min blocksPerHalving remaining
    if remaining = 0 then 0
    else reward * blocks + if reward / 2 < ether then 0 else circulatingLoop n (reward / 2) (remaining - blocks)

def calculateCirculatingSupply (blockNumber : UInt64) : Nat :=
  genesisPremine + circulatingLoop (maxHalvings + 1) (200 * ether) blockNumber.toNat

def calculateTotalReward (blockReward : Nat) (transactionFees : Option Nat) : Nat :=
  blockReward + transactionFees.getD 0

def legacyRandomXBlockReward (blockNumber : UInt64) : Nat :=
  halveReward (blockNumber.toNat / blocksPerHalving) (200 * ether)

structure RewardShares where
  (miner validator rotating mainKing : Nat)
  deriving DecidableEq, Repr

def initialRewardShares : RewardShares where
  miner := 90 * ether
  validator := 70 * ether
  rotating := 35 * ether
  mainKing := 5 * ether

def rewardSharesAt (blockNumber : UInt64) (interval : Nat) : RewardShares :=
  if interval = 0 then initialRewardShares
  else
    let halve := (fun share : Nat => share / 2)^[blockNumber.toNat / interval]
    { miner := halve initialRewardShares.miner
      validator := halve initialRewardShares.validator
      rotating := halve initialRewardShares.rotating
      mainKing := halve initialRewardShares.mainKing }

/-! ## The engine's reward transactions -/

structure RewardEngine where
  mainKing : Address
  postQuantumMainKing : Address := 0
  (quantumResistantTime antarticalTime : Option Nat := none)
  chain : Option ChainConfig := none
  rotatingKings : List Address := []
  activation : Address → Nat := fun _ => 0
  rotationInterval : Nat := 100

structure RewardSplit where
  (mainKing rotating miner : Nat)

def splitReward (total : Nat) : RewardSplit where
  mainKing := total * 10 / 100
  rotating := total * 40 / 100
  miner := total * 50 / 100 + (total - (total * 10 / 100 + total * 40 / 100 + total * 50 / 100))

namespace RewardEngine

variable (rx : RewardEngine) (h : Header)

def mainKingAt : Address :=
  if rx.postQuantumMainKing ≠ 0 ∧ isForked rx.quantumResistantTime h.time.toNat then rx.postQuantumMainKing
  else rx.mainKing

def antarticalActive : Bool :=
  (rx.chain.any fun c => c.isAntartical h.number h.time.toNat) || isForked rx.antarticalTime h.time.toNat

def activeRotatingKingsAt (height : Nat) : List Address := rx.rotatingKings.filter fun a => rx.activation a ≤ height

def rotate (current : Address) (height : Nat) : Address :=
  match rx.activeRotatingKingsAt height with
  | [] => current
  | first :: rest =>
    if current = 0 ∨ current ∉ first :: rest then first
    else if height ≠ 0 then
      (first :: rest).getD (((first :: rest).idxOf current + 1) % (first :: rest).length) first
    else current

def getRotatingKing (blockNumber : UInt64) : Address :=
  if rx.rotatingKings = [] ∨ rx.rotationInterval = 0 then 0
  else ((List.range (blockNumber.toNat / rx.rotationInterval + 1)).map (· * rx.rotationInterval)).foldl rx.rotate 0

def antarticalSplit : RewardSplit :=
  let shares := rewardSharesAt h.number64 blocksPerHalving
  let toMain := if rx.mainKingAt h = 0 then 0 else shares.mainKing
  let toRotating := if rx.getRotatingKing h.number64 = 0 then 0 else shares.rotating
  { mainKing := toMain
    rotating := toRotating
    miner := shares.miner + (shares.mainKing - toMain) + (shares.rotating - toRotating) }

def rewardMarkerShares (total : Nat) : RewardSplit :=
  if total = 0 then ⟨0, 0, 0⟩
  else if rx.antarticalActive h then rx.antarticalSplit h
  else
    let s := splitReward total
    if rx.mainKingAt h = 0 then ⟨0, 0, s.miner + s.mainKing + s.rotating⟩ else s

def rewardShares (total : Nat) : RewardSplit :=
  if total = 0 then ⟨0, 0, 0⟩
  else if rx.antarticalActive h then rx.antarticalSplit h
  else
    let s := splitReward total
    let s := if rx.mainKingAt h = 0 then { s with miner := s.miner + s.mainKing, mainKing := 0 } else s
    if rx.getRotatingKing h.number64 = 0 then
      if rx.mainKingAt h ≠ 0 then { s with mainKing := s.mainKing + s.rotating, rotating := 0 }
      else { s with miner := s.miner + s.rotating, rotating := 0 }
    else s

def mainKingTx (amount : Nat) : BodyTx := newBlockRewardTx h.number64 .mainKing (rx.mainKingAt h) amount

def rotatingKingTx (amount : Nat) : BodyTx :=
  newBlockRewardTx h.number64 .rotatingKing (rx.getRotatingKing h.number64) amount

def rewardTransactions : List BodyTx :=
  let s := rx.rewardMarkerShares h (calculateTotalReward (calculateBlockReward h.number64) none)
  (if 0 < s.mainKing ∧ rx.mainKingAt h ≠ 0 then [rx.mainKingTx h s.mainKing] else []) ++
  (if 0 < s.rotating then [rx.rotatingKingTx h s.rotating] else []) ++
  (if 0 < s.miner ∧ h.coinbase ≠ 0 then [newBlockRewardTx h.number64 .miner h.coinbase s.miner] else [])

def fallbackRewardTransactions : List BodyTx :=
  let s := rx.rewardShares h (calculateTotalReward (calculateBlockReward h.number64) none)
  (if 0 < s.mainKing ∧ rx.mainKingAt h ≠ 0 then [rx.mainKingTx h s.mainKing] else []) ++
  (if (0 < s.rotating ∧ rx.getRotatingKing h.number64 ≠ 0) ∨
      (rx.getRotatingKing h.number64 = 0 ∧ 0 < s.mainKing ∧ rx.mainKingAt h ≠ 0) then
    [rx.rotatingKingTx h s.rotating] else []) ++
  (if 0 < s.miner ∧ h.coinbase ≠ 0 then [newBlockRewardTx h.number64 .miner h.coinbase s.miner] else [])

def legacyRewardTransactions : List BodyTx :=
  let s := splitReward (calculateTotalReward (calculateBlockReward h.number64) none)
  [rx.mainKingTx h s.mainKing, rx.rotatingKingTx h s.rotating,
   newBlockRewardTx h.number64 .miner h.coinbase s.miner]

end RewardEngine

def addCandidate (candidates : List (List BodyTx)) (c : List BodyTx) : List (List BodyTx) :=
  if c ≠ [] ∧ c ∉ candidates then candidates ++ [c] else candidates

def RewardEngine.compatibleRewardTransactions (rx : RewardEngine) (h : Header) : List (List BodyTx) :=
  if rx.antarticalActive h then [rx.rewardTransactions h]
  else [rx.legacyRewardTransactions h, rx.fallbackRewardTransactions h].foldl addCandidate [rx.rewardTransactions h]

/-! ## The selected validator -/

def activeValidatorRecords (st : StateDB) (height : Nat) : Except Err (List ValidatorRecord) := do
  let records ← validatorRecords st
  pure ((records.filter (·.activeAt height)).mergeSort fun a b => a.address.toNat ≤ b.address.toNat)

def pickByStake (last : ValidatorRecord) : Nat → List ValidatorRecord → ValidatorRecord
  | _, [] => last
  | choice, r :: rs => if choice < r.stake then r else pickByStake last (choice - r.stake) rs

def selectValidator (sha256 : Bytes → Hash) (st : StateDB) (height : Nat) (seed : Hash) :
    Except Err ValidatorRecord := do
  match ← activeValidatorRecords st height with
  | [] => .error .validatorNotFound
  | r :: rs =>
    let digest := sha256 (Bytes.ofText "TKM_VALIDATOR_SELECT_V1" ++ seed.bytes ++ Bytes.be 8 height)
    pure (pickByStake ((r :: rs).getLast (by simp)) (digest.toNat % ((r :: rs).map (·.stake)).sum) (r :: rs))

def validateValidatorRewardTransaction (sha256 : Bytes → Hash) (st : StateDB) (h : Header) (tx : BodyTx) :
    Except Err Unit := do
  failIf (¬ isValidatorRewardTx tx) .validatorRewardInvalid
  let record ← selectValidator sha256 st h.number64.toNat h.parentHash
  failIf (tx.toAddr ≠ some record.rewardAddress ∨
      tx.value ≠ (rewardSharesAt h.number64 blocksPerHalving).validator) .validatorRewardInvalid

/-! ## Checking a reward tail -/

structure RewardReceipt where
  type : TxType
  cumulativeGasUsed : Nat
  tx : BodyTx
  (gasUsed effectiveGasPrice : Nat := 0)
  deriving DecidableEq

def rewardTxReceipts (txs : List BodyTx) (cumulativeGas : Nat) : List RewardReceipt :=
  txs.map fun tx => { type := tx.type, cumulativeGasUsed := cumulativeGas, tx := tx }

def lonelyKing (cfg : ChainConfig) (mainKing : Address) : Bool :=
  cfg.randomX ∧ mainKing ≠ 0 ∧ cfg.rotatingKingAddresses = []

def acceptNoRotatingKingRewardTail (cfg : ChainConfig) (txs : List BodyTx) : Bool :=
  lonelyKing cfg cfg.mainKingAddress && txs ≠ [] && txs.all isBlockRewardTx

def legacyNoRotatingKingRewardTransactions (cfg : ChainConfig) (h : Header) : List BodyTx :=
  let mainKing := cfg.mainKingAddressAt h.number h.time.toNat
  let blockReward := legacyRandomXBlockReward h.number64
  if ¬ lonelyKing cfg mainKing ∨ blockReward = 0 then []
  else
    let mainKingReward := blockReward * 10 / 100
    let rotatingKingReward := blockReward * 40 / 100
    [newBlockRewardTx h.number64 .mainKing mainKing mainKingReward,
     newBlockRewardTx h.number64 .rotatingKing 0 rotatingKingReward,
     newBlockRewardTx h.number64 .miner h.coinbase (blockReward - (mainKingReward + rotatingKingReward))]

def matchingMixedRewardTransactions (txs : List BodyTx) (candidates : List (List BodyTx)) : Option (List BodyTx) :=
  (candidates.find? fun c => c.length = txs.length).filter fun _ =>
    (List.range txs.length).all fun i => candidates.any fun m => m.length = txs.length ∧ txs[i]? = m[i]?

def rewardCountText (got want : Nat) : Err :=
  .text ("invalid block reward transaction count: have " ++ toString got ++ ", want " ++ toString want)

def matchingRewardTransactions (txs : List BodyTx) (candidates : List (List BodyTx)) : Except Err (List BodyTx) :=
  match candidates.find? fun c => c ≠ [] ∧ c = txs with
  | some c => .ok c
  | none => match matchingMixedRewardTransactions txs candidates with
    | some mixed => .ok mixed
    | none => match candidates.find? (· ≠ []) with
      | none => .error (rewardCountText txs.length 0)
      | some expected =>
        if txs.length ≠ expected.length then .error (rewardCountText txs.length expected.length)
        else match (List.range expected.length).find? fun i => txs[i]? ≠ expected[i]? with
          | some i => .error (.text ("invalid block reward transaction " ++ toString i))
          | none => .error (.text "invalid block reward transactions")

def rewardCandidates (rx : RewardEngine) (cfg : ChainConfig) (h : Header) : List (List BodyTx) :=
  let legacy := legacyNoRotatingKingRewardTransactions cfg h
  rx.compatibleRewardTransactions h ++ if legacy ≠ [] then [legacy] else []

def processBlockRewardTxs (sha256 : Bytes → Hash) (rx : RewardEngine) (cfg : ChainConfig) (h : Header)
    (txs : List BodyTx) (cumulativeGas : Nat) (st : StateDB) : Except Err (List RewardReceipt) := do
  let validatorRewards := txs.filter isValidatorRewardTx
  let base := txs.filter fun tx => !isValidatorRewardTx tx
  checkAll (validateValidatorRewardTransaction sha256 st h) validatorRewards
  let active ← activeValidatorRecords st h.number64.toNat
  failIf (active ≠ [] ∧ validatorRewards.length ≠ 1)
    (.text ("invalid validator reward count: have " ++ toString validatorRewards.length ++ ", want 1"))
  failIf (active = [] ∧ validatorRewards ≠ []) .validatorRewardInvalid
  if acceptNoRotatingKingRewardTail cfg base then pure (rewardTxReceipts txs cumulativeGas)
  else
    let expected ← matchingRewardTransactions base (rewardCandidates rx cfg h)
    failIf (expected.length ≠ base.length) (.text "invalid base reward transaction count")
    pure (rewardTxReceipts txs cumulativeGas)

/-! ## Crediting a body -/

def rewardCredit (rx : RewardEngine) (tx : BodyTx) : Option (Address × Nat) :=
  match tx.toAddr with
  | none => none
  | some recipient =>
    -- the share of a missing rotating king goes to the main king
    let recipient :=
      if tx.data.getLast? = some RewardKind.rotatingKing.byte ∧ recipient = 0 ∧ rx.mainKing ≠ 0 then rx.mainKing
      else recipient
    if tx.value = 0 ∨ recipient = 0 then none else some (recipient, tx.value)

def bodyRewardCredits (rx : RewardEngine) (body : List BodyTx) : Option (List (Address × Nat)) :=
  let rewards := body.dropWhile fun tx => !isBlockRewardTx tx
  if rewards = [] ∨ ¬ rewards.all isBlockRewardTx then none else some (rewards.filterMap (rewardCredit rx))

def distributeBodyRewardTransactions (rx : RewardEngine) (st : StateDB) (body : List BodyTx) : Bool × StateDB :=
  match bodyRewardCredits rx body with
  | none => (false, st)
  | some credits => (true, credits.foldl (fun st c => st.addBalance c.1 (BitVec.ofNat 256 c.2)) st)

def RewardEngine.implicitCredits (rx : RewardEngine) (h : Header) (totalReward : Nat) : List (Address × Nat) :=
  let s := rx.rewardShares h totalReward
  (if 0 < s.mainKing ∧ rx.mainKingAt h ≠ 0 then [(rx.mainKingAt h, s.mainKing)] else []) ++
  (if 0 < s.rotating ∧ rx.getRotatingKing h.number64 ≠ 0 then [(rx.getRotatingKing h.number64, s.rotating)] else []) ++
  (if 0 < s.miner ∧ h.coinbase ≠ 0 then [(h.coinbase, s.miner)] else [])

def RewardEngine.distributeRewardsToState (rx : RewardEngine) (st : StateDB) (h : Header) (totalReward : Nat) :
    StateDB :=
  (rx.implicitCredits h totalReward).foldl (fun st c => st.addBalance c.1 (BitVec.ofNat 256 c.2)) st

def bodyRewardTotal (rx : RewardEngine) (body : List BodyTx) : Nat :=
  (((bodyRewardCredits rx body).getD []).map Prod.snd).sum

end TkmChain
