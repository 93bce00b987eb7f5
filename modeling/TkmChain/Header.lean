import TkmChain.Config
import TkmChain.Rlp

/-!
# Headers and their verification

The block header, its hash and the seal hash a miner works on; the difficulty
schedule; the rolling block-hash anchor of the extra data; and the checks of the
RandomX engine: `verifySeal` for the proof of work and `verifyHeader` for the
whole header. The RandomX virtual machine and Keccak are parameters of the engine.
-/

namespace TkmChain

@[ext] structure Header where
  parentHash : Hash
  uncleHash : Hash := 0
  coinbase : Address := 0
  root : Hash := 0
  txHash : Hash := 0
  receiptHash : Hash := 0
  bloom : BitVec 2048 := 0
  difficulty : Nat
  number : Nat
  gasLimit : UInt64 := 0
  gasUsed : UInt64 := 0
  time : UInt64
  extra : Bytes := []
  mixDigest : Hash := 0
  nonce : BitVec 64 := 0
  baseFee : Option Nat := none
  withdrawalsHash : Option Hash := none
  blobGasUsed : Option UInt64 := none
  excessBlobGas : Option UInt64 := none
  parentBeaconRoot : Option Hash := none
  requestsHash : Option Hash := none
  blockAccessListHash : Option Hash := none
  slotNumber : Option UInt64 := none
  fits : extra.length + Bytes.width difficulty + Bytes.width number < 2 ^ 63
  deriving DecidableEq

namespace Header

variable (h : Header)

def sealFields : List Bytes :=
  [h.parentHash.bytes, h.uncleHash.bytes, h.coinbase.bytes, h.root.bytes, h.txHash.bytes, h.receiptHash.bytes,
   Bytes.be 256 h.bloom.toNat, Bytes.minimal h.difficulty, Bytes.minimal h.number,
   Bytes.minimal h.gasLimit.toNat, Bytes.minimal h.gasUsed.toNat, Bytes.minimal h.time.toNat, h.extra]

def sealHash (keccak256 : Bytes → Hash) : Hash := keccak256 (Rlp.encodeList (h.sealFields.map Rlp.encodeStr))

def optionalFields : List (Option Bytes) :=
  [h.baseFee.map Bytes.minimal, h.withdrawalsHash.map Hash.bytes, h.blobGasUsed.map (Bytes.minimal ·.toNat),
   h.excessBlobGas.map (Bytes.minimal ·.toNat), h.parentBeaconRoot.map Hash.bytes, h.requestsHash.map Hash.bytes,
   h.blockAccessListHash.map Hash.bytes, h.slotNumber.map (Bytes.minimal ·.toNat)]

def setFields : List (Option Bytes) → List Bytes
  | [] => []
  | f :: fs => if f.isNone ∧ fs.all Option.isNone then [] else f.getD [] :: setFields fs

def encodeRLP : Bytes :=
  Rlp.encodeList ((h.sealFields ++ [h.mixDigest.bytes, Bytes.be 8 h.nonce.toNat] ++ setFields h.optionalFields).map
    Rlp.encodeStr)

def hash (keccak256 : Bytes → Hash) : Hash := keccak256 h.encodeRLP

/-- `Number.Uint64()`: the low 64 bits. -/
def number64 : UInt64 := UInt64.ofNat h.number

end Header

/-- What the engine reads of a chain. A header is stored under its hash and its number. -/
structure ChainReader where
  config : Option ChainConfig
  getHeader : Hash → UInt64 → Option Header
  getHeader_number : ∀ hash n p, getHeader hash n = some p → p.number = n.toNat

/-! ## The difficulty schedule -/

def genesisDifficulty : Nat := 3
def minDifficulty : Nat := 1310
def edaMinDifficulty : Nat := 16
def maxDifficulty : Nat := 10 ^ 30
def targetBlockTime : Nat := 120
def edaThreshold : Nat := 7 * 60
def egyptEDAThreshold : Nat := 30
def egyptChainID : Nat := 8980

theorem Header.fits_one : ([] : Bytes).length + Bytes.width 1 + Bytes.width 1 < 2 ^ 63 := by decide

theorem Header.fits_min : ([] : Bytes).length + Bytes.width minDifficulty + Bytes.width 1 < 2 ^ 63 := by decide

def isEgyptConfig (c : ChainConfig) : Bool := c.chainID = some egyptChainID

def reduceDifficulty (step : Nat → Nat) (minDiff : Nat) : Nat → Nat → Nat
  | 0, diff => diff
  | n + 1, diff => if step diff ≤ minDiff then minDiff else reduceDifficulty step minDiff n (step diff)

def applyMainnetEDAReductions (currentDiff reductions minDiff : Nat) : Nat :=
  reduceDifficulty (· * 75 / 100) minDiff reductions currentDiff

def applyEDAReductions (currentDiff reductions minDiff : Nat) : Nat :=
  reduceDifficulty (· / 4) minDiff reductions currentDiff

def phoneAdjustment (currentDiff delta divisor : Nat) : Nat :=
  max 1 (min (currentDiff * delta / divisor) (currentDiff / 4))

def clampDifficulty (minDiff newDiff : Nat) : Nat :=
  if newDiff < minDiff then minDiff else if newDiff > maxDifficulty then maxDifficulty else newDiff

def calcPhoneDifficulty (currentDiff blockTime targetTime minDiff : Nat) : Nat :=
  if currentDiff = 0 then minDiff
  else if blockTime = 0 then currentDiff
  else
    let targetTime := if targetTime = 0 then targetBlockTime else targetTime
    clampDifficulty minDiff <|
      if blockTime > targetTime then
        let newDiff := currentDiff - phoneAdjustment currentDiff (blockTime - targetTime) (targetTime * 8)
        if blockTime / edaThreshold > 1 then
          applyMainnetEDAReductions newDiff (blockTime / edaThreshold - 1) minDiff
        else newDiff
      else if blockTime < targetTime then
        currentDiff + phoneAdjustment currentDiff (targetTime - blockTime) (targetTime * 4)
      else currentDiff

def calcRatioDifficulty (currentDiff diff : Nat) : Nat :=
  if diff > targetBlockTime * 10 then currentDiff
  else if diff > 0 then
    clampDifficulty minDifficulty (currentDiff * max 50 (min 200 (targetBlockTime * 100 / diff)) / 100)
  else currentDiff

def calcDifficulty (chain : ChainReader) (time : UInt64) : Option Header → Nat
  | none => genesisDifficulty
  | some parent =>
    let diff := if time > parent.time then (time - parent.time).toNat else (parent.time - time).toNat
    match chain.config with
    | none => calcRatioDifficulty parent.difficulty diff
    | some c =>
      if c.isPhone (parent.number + 1) time.toNat then
        calcPhoneDifficulty parent.difficulty diff targetBlockTime edaMinDifficulty
      else if isEgyptConfig c ∧ diff ≥ egyptEDAThreshold then
        applyEDAReductions parent.difficulty (diff / egyptEDAThreshold) edaMinDifficulty
      else if c.isEDA (parent.number + 1) time.toNat ∧ diff ≥ edaThreshold then
        applyMainnetEDAReductions parent.difficulty (diff / edaThreshold) edaMinDifficulty
      else calcRatioDifficulty parent.difficulty diff

/-! ## The extra data -/

def daoForkBlockExtra : Bytes := Bytes.ofText "dao-hard-fork"

def daoForkExtraRange : Nat := 10

def verifyDAOHeaderExtraData (c : ChainConfig) (h : Header) : Except String Unit :=
  match c.daoForkBlock with
  | none => .ok ()
  | some fork =>
    if h.number < fork ∨ fork + daoForkExtraRange ≤ h.number then .ok ()
    else if c.daoForkSupport then failIf (h.extra ≠ daoForkBlockExtra) "bad DAO pro-fork extra-data"
    else failIf (h.extra = daoForkBlockExtra) "bad DAO no-fork extra-data"

/-- `bytes.Index`: where `m` first occurs. -/
def indexOf (m : Bytes) : Bytes → Option Nat
  | [] => if m = [] then some 0 else none
  | x :: b => if m.isPrefixOf (x :: b) then some 0 else (indexOf m b).map (· + 1)

def blockHashAnchorMagic : Bytes := Bytes.ofText "TKM_BLOCK_HASH_ANCHOR_V1"

def blockHashAnchorEncodedSize : Nat := blockHashAnchorMagic.length + 8 + 32 + 32

def maximumExtraDataSize : Nat := 32

def antarticalMaximumExtraDataSize : Nat := 128

structure BlockHashAnchor where
  height : UInt64
  (hash rolling : Hash)
  deriving DecidableEq

def blockHashAnchorCommitment (keccak256 : Bytes → Hash) (previous : Hash) (height : UInt64) (blockHash : Hash) :
    Hash :=
  keccak256 (blockHashAnchorMagic ++ previous.bytes ++ Bytes.be 8 height.toNat ++ blockHash.bytes)

def invalidAnchorText : String := "invalid TKM block-hash anchor"

def missingAnchorText : String := "missing TKM block-hash anchor"

def validateBlockHashAnchor (keccak256 : Bytes → Hash) (anchor : BlockHashAnchor) (blockNumber : UInt64)
    (parentHash previousRolling : Hash) : Except String Unit := do
  failIf (blockNumber = 0 ∨ anchor.height ≠ blockNumber - 1 ∨ anchor.hash ≠ parentHash) invalidAnchorText
  failIf (anchor.rolling ≠ blockHashAnchorCommitment keccak256 previousRolling anchor.height parentHash)
    invalidAnchorText

def blockHashAnchorFromHeaderExtra (extra : Bytes) : Except String (Option BlockHashAnchor) :=
  match indexOf blockHashAnchorMagic extra with
  | none => .ok none
  | some index =>
    let tail := extra.drop (index + blockHashAnchorMagic.length)
    if (indexOf blockHashAnchorMagic tail).isSome ∨ index + blockHashAnchorEncodedSize ≠ extra.length then
      .error invalidAnchorText
    else .ok (some
      { height := UInt64.ofNat (Bytes.toNat (tail.take 8))
        hash := Hash.ofBytes ((tail.drop 8).take 32)
        rolling := Hash.ofBytes ((tail.drop 40).take 32) })

def previousRolling (c : ChainConfig) (parent : Header) : Except String Hash := do
  let parentAnchor ← blockHashAnchorFromHeaderExtra parent.extra
  if c.isAntartical parent.number parent.time.toNat then
    -- the genesis block has no predecessor and carries no anchor
    failIf (0 < parent.number ∧ parentAnchor = none) missingAnchorText
    pure (parentAnchor.elim 0 BlockHashAnchor.rolling)
  else
    failIf (parentAnchor ≠ none) "pre-Antartical parent contains block-hash anchor"
    pure 0

def candidateParent (keccak256 : Bytes → Hash) (h : Header) (parentCandidates : List Header) : Option Header :=
  parentCandidates.reverse.find? fun p => p.hash keccak256 = h.parentHash ∧ p.number64 + 1 = h.number64

def verifyBlockHashAnchor (keccak256 : Bytes → Hash) (chain : ChainReader) (h : Header)
    (parentCandidates : List Header) : Except String Unit :=
  match chain.config with
  | none => .ok ()
  | some c => checkWhen c.randomX do
    let anchor ← blockHashAnchorFromHeaderExtra h.extra
    if c.isAntartical h.number h.time.toNat then
      let anchor ← orFail anchor missingAnchorText
      failIf (antarticalMaximumExtraDataSize < h.extra.length) "Antartical header extra data exceeds 128 bytes"
      failIf (h.number = 0) invalidAnchorText
      let parent ← orFail ((candidateParent keccak256 h parentCandidates).or
        (chain.getHeader h.parentHash (h.number64 - 1))) "unknown ancestor"
      let rolling ← previousRolling c parent
      validateBlockHashAnchor keccak256 anchor h.number64 h.parentHash rolling
    else failIf (anchor ≠ none ∨ maximumExtraDataSize < h.extra.length) "invalid pre-Antartical header extra data"

/-! ## The proof of work -/

/-- The RandomX engine: its switches, and the machines of an epoch. `vm` fails when the epoch's cache or the
machine cannot be set up. -/
structure RandomX where
  (fullFake closed : Bool := false)
  epochLength : Nat := 2048
  keccak256 : Bytes → Hash
  vm : Nat → Except String (Bytes → Hash)
  legacyVM : Nat → Option (Bytes → Hash)
  (gapCheckpoint checkpoint : UInt64 → Option Hash)

def maxUint256 : Nat := 2 ^ 256

def strictRandomXSealFieldsFromBlock : UInt64 := 7888

def meetsMoneroDifficulty (hash : Hash) (difficulty : Nat) : Bool :=
  0 < difficulty ∧ Bytes.toNat hash.bytes.reverse * difficulty < maxUint256

namespace RandomX

variable (rx : RandomX)

def epoch (blockNum : Nat) : Nat := blockNum / (if 0 < rx.epochLength then rx.epochLength else 2048)

def epochForBlock (config : Option ChainConfig) (blockNum : UInt64) : Nat :=
  match config.bind (·.randomXTxBlock) with
  | none => rx.epoch blockNum.toNat
  | some activation => rx.epoch (blockNum.toNat - activation % 2 ^ 64)

def epochGenesis : Bytes := Bytes.ofText "randomx_epoch_0_genesis"

def seedRounds : Nat → Bytes
  | 0 => List.replicate 32 0
  | i + 1 => (rx.keccak256 (if i = 0 then epochGenesis else seedRounds i)).bytes

def seedHash (epoch : UInt64) : Hash :=
  if epoch = 0 then rx.keccak256 epochGenesis else Hash.ofBytes (rx.seedRounds epoch.toNat)

def randomXHash (h : Header) (nonce : BitVec 64) (vm : Bytes → Hash) : Hash :=
  vm ((h.sealHash rx.keccak256).bytes ++ Bytes.be 8 nonce.toNat)

def validProof (h : Header) (nonce : BitVec 64) (vm : Bytes → Hash) (target : Nat) : Bool :=
  (rx.randomXHash h nonce vm).toNat ≤ target

def reverseNonce (nonce : BitVec 64) : BitVec 64 := BitVec.ofNat 64 (Bytes.toNat (Bytes.be 8 nonce.toNat).reverse)

def validProofWithNonceVariants (h : Header) (vm : Bytes → Hash) (target : Nat) : Bool :=
  rx.validProof h h.nonce vm target || rx.validProof h (reverseNonce h.nonce) vm target

def verifyMoneroProof (h : Header) (vm : Bytes → Hash) : Except String Unit := do
  failIf (h.mixDigest ≠ rx.randomXHash h h.nonce vm) "invalid proof: mix digest mismatch"
  failIf (¬ meetsMoneroDifficulty (rx.randomXHash h h.nonce vm) h.difficulty)
    "invalid proof: little-endian RandomX result does not meet difficulty"

def kyotoStoredMixDigestCompatUntil : UInt64 := 8192

def allowStoredMixDigestProof (h : Header) (kyoto : Bool) : Bool :=
  let number := h.number64
  if !kyoto then true
  else if number ≤ kyotoStoredMixDigestCompatUntil then true
  else if 20179 ≤ number ∧ number ≤ 20373 then rx.gapCheckpoint number = some (h.hash rx.keccak256)
  else if 20142 ≤ number ∧ number ≤ 20145 then rx.checkpoint number = some (h.hash rx.keccak256)
  else false

def validStoredMixDigest (h : Header) (target : Nat) : Bool := h.mixDigest ≠ 0 ∧ h.mixDigest.toNat ≤ target

def verifyLegacyProof (config : Option ChainConfig) (h : Header) (epoch : Nat) (vm : Bytes → Hash) :
    Except String Unit :=
  let target := maxUint256 / h.difficulty
  let kyoto := config.any fun c => c.isKyoto h.number h.time.toNat
  failIf (¬ (rx.validProof h h.nonce vm target ∨ rx.validProofWithNonceVariants h vm target ∨
      (rx.allowStoredMixDigestProof h kyoto ∧ validStoredMixDigest h target) ∨
      (rx.legacyVM epoch).any fun legacy => rx.validProofWithNonceVariants h legacy target))
    "invalid proof: result > target"

def verifySeal (config : Option ChainConfig) (h : Header) : Except String Unit :=
  if rx.fullFake ∨ rx.closed then .ok ()
  else if h.number64 = 0 then .ok ()
  else if config.any fun c => !c.isRandomXTx h.number then .ok ()
  else do
    let moneroProof := config.any fun c => c.isRandomXMonero h.number
    failIf (h.difficulty = 0) "invalid proof: non-positive difficulty"
    failIf (h.mixDigest = 0) "invalid proof: empty mix digest"
    failIf (!moneroProof ∧ strictRandomXSealFieldsFromBlock ≤ h.number64 ∧ h.nonce = 0) "invalid proof: empty nonce"
    let epoch := rx.epochForBlock config h.number64
    let vm ← rx.vm epoch
    if moneroProof then rx.verifyMoneroProof h vm else rx.verifyLegacyProof config h epoch vm

def verifyHeader (chain : ChainReader) (h : Header) (parents : List Header) : Except String Unit := do
  chain.config.elim (.ok ()) fun c => verifyDAOHeaderExtraData c h
  verifyBlockHashAnchor rx.keccak256 chain h parents
  if rx.fullFake ∨ h.number = 0 then pure () else rx.verifySeal chain.config h

end RandomX

end TkmChain
