import TkmChain.Supply

/-!
# What a block issues

How `Process` ends a block: the check of its reward tail, and the finalisation
that credits the rewards. A Kyoto block without reward transactions is finalised
in the first of a list of historical ways that gives the state root of its header.
-/

namespace TkmChain

inductive RewardMode
  | body
  | kyoto
  | none
  | implicit
  | implicitFor (king : Address)
  deriving DecidableEq

structure Finalization where
  slot : Option Address
  mode : RewardMode

namespace RewardEngine

variable (rx : RewardEngine) (h : Header)

/-- `distributeKyotoEmptyBlockRewards`. -/
def kyotoCredits (blockReward : Nat) : List (Address × Nat) :=
  let mainKingReward := blockReward * 50 / 100
  let minerReward := blockReward - mainKingReward
  if blockReward = 0 then []
  else
    (if rx.mainKingAt h ≠ 0 ∧ 0 < mainKingReward then [(rx.mainKingAt h, mainKingReward)] else []) ++
    (if h.coinbase ≠ 0 ∧ 0 < minerReward then [(h.coinbase, minerReward)] else [])

/-- `distributeRewardsToStateWithRotatingKing`. -/
def implicitCreditsFor (totalReward : Nat) (king : Address) : List (Address × Nat) :=
  let s := rx.rewardShares h totalReward
  let s :=
    if king = 0 then
      if rx.mainKingAt h ≠ 0 then { s with mainKing := s.mainKing + s.rotating, rotating := 0 }
      else { s with miner := s.miner + s.rotating, rotating := 0 }
    else s
  (if 0 < s.mainKing ∧ rx.mainKingAt h ≠ 0 then [(rx.mainKingAt h, s.mainKing)] else []) ++
  (if 0 < s.rotating ∧ king ≠ 0 then [(king, s.rotating)] else []) ++
  (if 0 < s.miner ∧ h.coinbase ≠ 0 then [(h.coinbase, s.miner)] else [])

def modeCredits (body : List BodyTx) : RewardMode → List (Address × Nat)
  | .body => (bodyRewardCredits rx body).getD []
  | .kyoto => rx.kyotoCredits h (calculateBlockReward h.number64)
  | .none => []
  | .implicit =>
    if 0 < calculateBlockReward h.number64 then rx.implicitCredits h (calculateBlockReward h.number64) else []
  | .implicitFor king => rx.implicitCreditsFor h (calculateBlockReward h.number64) king

end RewardEngine

def historicalRotatingKingAddresses : List Address :=
  [0x08959f2d8aaeb6a1a27a2dc3f6d0b07fd1fba21a, 0xa934a0a34a11eaeadc9a850d1017db2cb2216672,
   0xa76a7a2ec8c25400739ef5556cca8ae0c6247123, 0x577ebcf6d33f394e153156b1570fef0ab0ab4b3a,
   0x7a1e6b083943a95d45e8f3a07b90f93e63c0dbae, 0x4901ae660c6346c633d09a800056368d3cd6199c,
   0xcea49fe4228945e23aa5fa3ddfdc643ceabae1e7, 0x5a23aeec3ae9d21c93f5c560b4e080a6e3a68479,
   0xa5fa147d3705e2fc6aa80314c22f2673fef7a0ba, 0x618d891c7faafc4769c398100d9ff0eca1e48ffb,
   0xf4829bb30f5f0b8d009a1f1f2fffb891878b2f73, 0xb53681fc516570aa8c73266762c5494db7e5a260,
   0x4f8194062c21cfe921d294e79c6b913efc8f70ce]

/-- The candidates of `FinalizeKyotoEmptyBlockForRoot`, in their order. -/
def kyotoFinalizations (rotatingKing : Address) : List Finalization :=
  [⟨some rotatingKing, .kyoto⟩, ⟨none, .kyoto⟩, ⟨some rotatingKing, .none⟩, ⟨none, .none⟩,
   ⟨some rotatingKing, .implicit⟩] ++
  historicalRotatingKingAddresses.flatMap fun king =>
    [⟨some king, .kyoto⟩, ⟨some king, .none⟩, ⟨some king, .implicitFor king⟩]

/-- What processing a block finds: the engine's kings, the state behind the ordinary transactions, and the root of a
state in whose rotating king slot an address is written, if any. -/
structure BlockContext where
  rx : RewardEngine
  config : ChainConfig
  sha256 : Bytes → Hash
  st : StateDB
  root : Option Address → StateDB → Hash

namespace BlockContext

variable (c : BlockContext) (b : RewardBlock)

def isKyoto : Bool := c.config.isKyoto b.header.number b.header.time.toNat

def hasMarkers : Bool := b.transactions.any isBlockRewardTx

def stateAfter (f : Finalization) : Hash :=
  c.root f.slot ((c.rx.modeCredits b.header b.transactions f.mode).foldl
    (fun st credit => st.addBalance credit.1 (BitVec.ofNat 256 credit.2)) c.st)

def finalizeRewards : Finalization where
  slot := some (c.rx.getRotatingKing b.header.number64)
  mode :=
    if (bodyRewardCredits c.rx b.transactions).isSome then .body
    else if c.isKyoto b ∧ ¬ hasMarkers b then .kyoto
    else .implicit

def finalization : Finalization :=
  if c.isKyoto b ∧ ¬ hasMarkers b then
    ((kyotoFinalizations (c.rx.getRotatingKing b.header.number64)).find? fun f =>
      c.stateAfter b f = b.header.root).getD (c.finalizeRewards b)
  else c.finalizeRewards b

def rewardTail : List BodyTx := b.transactions.dropWhile fun tx => !isBlockRewardTx tx

structure Accepts : Prop where
  tail : rewardTail b ≠ [] →
    ∃ gas receipts, processBlockRewardTxs c.sha256 c.rx c.config b.header (rewardTail b) gas c.st = .ok receipts
  validators : c.config.isAntartical b.header.number b.header.time.toNat = true →
    ∃ active, activeValidatorRecords c.st b.header.number64.toNat = .ok active ∧ (active ≠ [] → rewardTail b ≠ [])
  root : c.stateAfter b (c.finalization b) = b.header.root

def issued : Nat := ((c.rx.modeCredits b.header b.transactions (c.finalization b).mode).map Prod.snd).sum

end BlockContext

end TkmChain
