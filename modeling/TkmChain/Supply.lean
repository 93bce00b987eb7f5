import TkmChain.Branch
import TkmChain.Rewards

/-!
# The supply index

`SupplyService` keeps an entry with cumulative rewards for every indexed block. A
call reads the canonical chain one block at a time, and a reorganisation may come
between two reads, so a call is a state of its own that each read advances.
-/

namespace TkmChain

structure RewardBlock where
  header : Header
  transactions : List BodyTx
  deriving DecidableEq

structure SupplyKings where
  mainKing : Address
  rotatingKingAt : UInt64 → Address

/-! ## One block -/

structure SupplyDelta where
  (mainKing rotatingKing miner : Nat)
  deriving DecidableEq

namespace SupplyDelta

def zero : SupplyDelta := ⟨0, 0, 0⟩

def total (d : SupplyDelta) : Nat := d.mainKing + d.rotatingKing + d.miner

def addMarker (mainKing : Address) (d : SupplyDelta) (tx : BodyTx) : SupplyDelta :=
  if tx.value = 0 then d
  else if tx.data.getLast? = some RewardKind.mainKing.byte then { d with mainKing := d.mainKing + tx.value }
  else if tx.data.getLast? = some RewardKind.rotatingKing.byte then
    if tx.toAddr = none ∨ tx.toAddr = some 0 ∨ tx.toAddr = some mainKing then
      { d with mainKing := d.mainKing + tx.value }
    else { d with rotatingKing := d.rotatingKing + tx.value }
  else if tx.data.getLast? = some RewardKind.miner.byte then { d with miner := d.miner + tx.value }
  else d

end SupplyDelta

namespace SupplyKings

variable (kings : SupplyKings) (block : RewardBlock)

def markerRewardDelta : Option SupplyDelta :=
  let markers := block.transactions.filter isBlockRewardTx
  if markers = [] then none else some (markers.foldl (SupplyDelta.addMarker kings.mainKing) .zero)

def implicitRewardDelta (reward : Nat) : SupplyDelta :=
  let mainKing := reward * 10 / 100
  let rotatingKing := reward * 40 / 100
  let miner := reward - (mainKing + rotatingKing)
  if kings.mainKing = 0 then ⟨0, 0, miner + mainKing + rotatingKing⟩
  else if kings.rotatingKingAt block.header.number64 = 0 then ⟨mainKing + rotatingKing, 0, miner⟩
  else ⟨mainKing, rotatingKing, miner⟩

def blockRewardDelta : SupplyDelta :=
  if block.header.number64 = 0 then .zero
  else match kings.markerRewardDelta block with
    | some delta => delta
    | none =>
      if block.header.coinbase = 0 ∨ calculateBlockReward block.header.number64 = 0 then .zero
      else kings.implicitRewardDelta block (calculateBlockReward block.header.number64)

end SupplyKings

/-! ## Entries -/

structure SupplyEntry where
  blockNumber : Nat
  block : Branch RewardBlock
  (genesisSupply totalIssued totalSupply mainKingRewards rotatingKingRewards minerRewards : Nat)
  deriving DecidableEq

namespace SupplyEntry

def genesis (genesisSupply : Nat) (block : Branch RewardBlock) : SupplyEntry where
  blockNumber := 0
  block := block
  genesisSupply := genesisSupply
  totalIssued := 0
  totalSupply := genesisSupply
  mainKingRewards := 0
  rotatingKingRewards := 0
  minerRewards := 0

def extend (current : SupplyEntry) (number : Nat) (block : Branch RewardBlock) (delta : SupplyDelta) :
    SupplyEntry where
  blockNumber := number
  block := block
  genesisSupply := current.genesisSupply
  totalIssued := current.totalIssued + delta.mainKing + delta.rotatingKing + delta.miner
  totalSupply := current.genesisSupply + (current.totalIssued + delta.mainKing + delta.rotatingKing + delta.miner)
  mainKingRewards := current.mainKingRewards + delta.mainKing
  rotatingKingRewards := current.rotatingKingRewards + delta.rotatingKing
  minerRewards := current.minerRewards + delta.miner

end SupplyEntry

/-! ## Calls -/

inductive SupplyErr
  | aboveHead (target head : Nat)
  | genesisNotFound
  | entryNotFound (target : Nat)
  | blockNotFound (number : Nat)
  deriving DecidableEq

inductive SupplyCall
  | rewind (target : Nat) (latest : SupplyEntry)
  | restart (target : Nat)
  | index (target : Nat) (current : SupplyEntry) (number : Nat)
  deriving DecidableEq

structure SupplyService where
  genesisSupply : Nat
  chain : Branch RewardBlock
  entries : Nat → Option SupplyEntry
  latest : Option Nat
  call : Option SupplyCall
  reply : Option (Except SupplyErr SupplyEntry)

namespace SupplyService

def init (genesisSupply : Nat) (chain : Branch RewardBlock) : SupplyService where
  genesisSupply := genesisSupply
  chain := chain
  entries _ := none
  latest := none
  call := none
  reply := none

variable (svc : SupplyService)

def writeEntry (entry : SupplyEntry) : SupplyService :=
  { svc with entries := Function.update svc.entries entry.blockNumber (some entry), latest := some entry.blockNumber }

def deleteEntry (number : Nat) : SupplyService := { svc with entries := Function.update svc.entries number none }

def readLatest : Option SupplyEntry := svc.latest.bind svc.entries

def readLatestBefore (number : Nat) : Option SupplyEntry := (List.range number).reverse.findSome? svc.entries

def answer (r : Except SupplyErr SupplyEntry) : SupplyService := { svc with call := none, reply := some r }

def genesisEntry (next : SupplyEntry → SupplyService → SupplyService) : SupplyService :=
  match svc.chain.ancestor 0 with
  | none => svc.answer (.error .genesisNotFound)
  | some block =>
    let entry := SupplyEntry.genesis svc.genesisSupply block
    next entry (svc.writeEntry entry)

def atBlock (target : Nat) : SupplyService :=
  match svc.call with
  | some _ => svc
  | none =>
    if svc.chain.number < target then svc.answer (.error (.aboveHead target svc.chain.number))
    else if target = 0 then
      match svc.entries 0 with
      | some stored =>
        if svc.chain.ancestor 0 = some stored.block then svc.answer (.ok stored)
        else svc.genesisEntry fun entry svc => svc.answer (.ok entry)
      | none => svc.genesisEntry fun entry svc => svc.answer (.ok entry)
    else match svc.readLatest with
      | some latest => { svc with call := some (.rewind target latest) }
      | none => { svc with call := some (.restart target) }

def startFrom (target : Nat) (current : SupplyEntry) : SupplyService :=
  if target < current.blockNumber then
    svc.answer (match svc.entries target with
      | some stored => .ok stored
      | none => .error (.entryNotFound target))
  else { svc with call := some (.index target current (current.blockNumber + 1)) }

def discard (target : Nat) (stale : SupplyEntry) : SupplyService :=
  let svc := svc.deleteEntry stale.blockNumber
  match svc.readLatestBefore stale.blockNumber with
  | some latest => { svc with call := some (.rewind target latest) }
  | none => { svc with latest := none, call := some (.restart target) }

def read (kings : SupplyKings) : SupplyService :=
  match svc.call with
  | none => svc
  | some (.rewind target latest) =>
    if target < latest.blockNumber then svc.discard target latest
    else if svc.chain.ancestor latest.blockNumber = some latest.block then
      { svc with latest := some latest.blockNumber }.startFrom target latest
    else svc.discard target latest
  | some (.restart target) => svc.genesisEntry fun entry svc => svc.startFrom target entry
  | some (.index target current number) =>
    if target < number then svc.answer (.ok current)
    else match svc.chain.ancestor number with
      | none => svc.answer (.error (.blockNotFound number))
      | some block =>
        let entry := current.extend number block (kings.blockRewardDelta block.content)
        { svc.writeEntry entry with call := some (.index target entry (number + 1)) }

end SupplyService

/-! ## Runs -/

inductive SupplyEvent
  | reorg (chain : Branch RewardBlock)
  | atBlock (target : Nat)
  | read (kings : SupplyKings)

namespace SupplyService

def step (svc : SupplyService) : SupplyEvent → SupplyService
  | .reorg chain => { svc with chain := chain }
  | .atBlock target => svc.atBlock target
  | .read kings => svc.read kings

def run (genesisSupply : Nat) (chain : Branch RewardBlock) (events : List SupplyEvent) : SupplyService :=
  events.foldl step (init genesisSupply chain)

end SupplyService

end TkmChain
