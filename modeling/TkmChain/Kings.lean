import TkmChain.Rewards

/-!
# Rotating kings

A node keeps a table of registered kings with their locks, a stored copy of it,
and the schedule of its consensus engine. Registrations come by RPC, from peers
and from markers in canonical headers; kings leave the table when their lock
ends or their balance falls, but never the schedule of a running engine.
-/

namespace TkmChain

open List

/-! ## The table -/

/-- `rkLockInfo`, with the time in nanoseconds. -/
structure KingLock where
  hash : Hash
  (unlockTime unlockHeight activationHeight addedHeight : Nat)
  deriving DecidableEq, Repr

/-- The kings in their order and the locks of some of them. No caller registers the zero address. -/
structure KingTable where
  kings : List Address
  locks : Address → Option KingLock
  nodup : kings.Nodup
  nonzero : 0 ∉ kings
  listed : ∀ a, locks a ≠ none → a ∈ kings

namespace KingTable

def empty : KingTable := ⟨[], fun _ => none, nodup_nil, not_mem_nil, fun _ h => absurd rfl h⟩

def add (t : KingTable) (a : Address) : KingTable where
  kings := if a = 0 ∨ a ∈ t.kings then t.kings else t.kings ++ [a]
  locks := t.locks
  nodup := by
    split
    · exact t.nodup
    · rename_i h
      rw [not_or] at h
      exact nodup_append.mpr ⟨t.nodup, nodup_singleton a, by simpa [forall_mem_ne'] using h.2⟩
  nonzero := by
    split
    · exact t.nonzero
    · rename_i h
      rw [not_or] at h
      rw [mem_append, mem_singleton, not_or]
      exact ⟨t.nonzero, Ne.symm h.1⟩
  listed b hb := by
    have := t.listed b hb
    split
    · exact this
    · exact mem_append_left _ this

theorem mem_add {t : KingTable} {a b : Address} : b ∈ (t.add a).kings ↔ b ∈ t.kings ∨ b = a ∧ a ≠ 0 := by
  unfold add
  split
  · rename_i h
    rcases h with rfl | h
    · simp
    · constructor
      · exact .inl
      · rintro (hb | ⟨rfl, _⟩)
        · exact hb
        · exact h
  · rename_i h
    rw [not_or] at h
    rw [mem_append, mem_singleton, and_iff_left h.1]

def lock (t : KingTable) (a : Address) (info : KingLock) : KingTable where
  kings := (t.add a).kings
  locks := if a = 0 then t.locks else Function.update t.locks a (some info)
  nodup := (t.add a).nodup
  nonzero := (t.add a).nonzero
  listed b hb := by
    rw [mem_add]
    split at hb
    · exact .inl (t.listed b hb)
    · by_cases h : b = a
      · exact .inr ⟨h, ‹_›⟩
      · rw [Function.update_of_ne h] at hb
        exact .inl (t.listed b hb)

def retain (t : KingTable) (keep : Address → Bool) : KingTable where
  kings := t.kings.filter keep
  locks a := if keep a then t.locks a else none
  nodup := t.nodup.filter _
  nonzero h := t.nonzero (mem_of_mem_filter h)
  listed a ha := by
    split at ha
    · exact mem_filter.mpr ⟨t.listed a ha, ‹_›⟩
    · exact absurd rfl ha

def activeRotatingKingsAt (t : KingTable) (height : Nat) : List Address :=
  t.kings.filter fun a => !(t.locks a).any fun info => height < info.activationHeight

end KingTable

def rotateIn (active : List Address) (current : Address) (height : Nat) : Address :=
  match active with
  | [] => current
  | first :: rest =>
    if current = 0 ∨ current ∉ first :: rest then first
    else if height ≠ 0 then
      (first :: rest).getD (((first :: rest).idxOf current + 1) % (first :: rest).length) first
    else current

def rotationHeights (interval blockNum : Nat) : List Nat := (List.range (blockNum / interval + 1)).map (· * interval)

def KingTable.rotatingKingAt (t : KingTable) (interval blockNum : Nat) : Address :=
  (rotationHeights interval blockNum).foldl (fun current height => rotateIn (t.activeRotatingKingsAt height) current height) 0

/-! ## Markers in headers -/

structure KingMarker where
  address : Address
  addedHeight : Nat
  (activationHeight unlockHeight unlockTime : Nat := 0)
  hash : Hash := 0
  full : Bool := false
  deriving DecidableEq, Repr

def rkHeaderExtraMagic : Bytes := Bytes.ofText "RK"

/-- The three layouts of a marker: without heights, with three bytes for each height, and in full. -/
def decodeRotatingKingHeaderExtra (extra : Bytes) : Option KingMarker :=
  let number (i n : Nat) : Nat := Bytes.toNat ((extra.drop i).take n)
  if extra.length < rkHeaderExtraMagic.length ∨ extra.take 2 ≠ rkHeaderExtraMagic then none
  else if extra.length = 2 + 8 + 20 then
    some { address := Address.ofBytes (extra.drop 10), addedHeight := number 2 8 }
  else if 32 ≤ extra.length ∧ extra[2]? = some 3 then
    some { address := Address.ofBytes ((extra.drop 3).take 20), addedHeight := number 23 3,
           activationHeight := number 26 3, unlockHeight := number 29 3, full := true }
  else if extra.length < 2 + 1 + 20 + 8 * 4 + 32 ∨ extra[2]? ≠ some 2 then none
  else
    some { address := Address.ofBytes ((extra.drop 3).take 20), addedHeight := number 23 8,
           activationHeight := number 31 8, unlockHeight := number 39 8, unlockTime := number 47 8 * 10 ^ 9,
           hash := Hash.ofBytes ((extra.drop 55).take 32), full := true }

def putUint24 (value : Nat) : Bytes := Bytes.be 3 (min value 0xffffff)

def encodeRotatingKingHeaderExtra (a : Address) (info : KingLock) : Bytes :=
  rkHeaderExtraMagic ++ [3] ++ a.bytes ++ putUint24 info.addedHeight ++ putUint24 info.activationHeight ++
    putUint24 info.unlockHeight

def KingMarker.liveAt (m : KingMarker) (height : Nat) : Prop :=
  m.address ≠ 0 ∧ ¬ (m.full = true ∧ m.unlockHeight ≠ 0 ∧ m.unlockHeight ≤ height)

instance (m : KingMarker) (height : Nat) : Decidable (m.liveAt height) := inferInstanceAs (Decidable (_ ∧ _))

/-! ## The schedule of the engine -/

def RewardEngine.addRotatingKingAt (rx : RewardEngine) (a : Address) (activationHeight : Nat) : RewardEngine :=
  if a = 0 then rx
  else if a ∈ rx.rotatingKings then
    if activationHeight < rx.activation a then
      { rx with activation := Function.update rx.activation a activationHeight }
    else rx
  else
    { rx with
      rotatingKings := rx.rotatingKings ++ [a]
      activation := Function.update rx.activation a activationHeight }

/-! ## The manager -/

/-- `RotatingKingConfig`; a king registered at height zero has no activation height. -/
structure RotatingKingManager where
  rotationInterval : Nat
  kingAddresses : List Address := []
  activationHeights : Address → Option Nat := fun _ => none

namespace RotatingKingManager

variable (m : RotatingKingManager)

def addKingAddressAt (a : Address) (activationHeight : Nat) : RotatingKingManager :=
  if a = 0 then m
  else if a ∈ m.kingAddresses then
    if (m.activationHeights a).any fun current => activationHeight ≠ 0 ∧ activationHeight < current then
      { m with activationHeights := Function.update m.activationHeights a (some activationHeight) }
    else m
  else
    { m with
      kingAddresses := m.kingAddresses ++ [a]
      activationHeights :=
        if activationHeight ≠ 0 then Function.update m.activationHeights a (some activationHeight)
        else m.activationHeights }

def activeKingAddressesAt (height : Nat) : List Address :=
  m.kingAddresses.filter fun a => (m.activationHeights a).getD 0 ≤ height

def kingAtHeight (height : Nat) : Address :=
  (rotationHeights (if m.rotationInterval = 0 then 100 else m.rotationInterval) height).foldl
    (fun current h => rotateIn (m.activeKingAddressesAt h) current h) 0

end RotatingKingManager

/-! ## A node -/

structure KingBlock where
  extra : Bytes
  time : Nat
  balance : Address → Nat

structure KingEnv where
  cfg : ChainConfig
  interval : Nat
  interval_pos : 0 < interval
  /-- `rotatingKingRegistrationHash`: of the address, the unlock time and the three heights. -/
  registrationHash : Address → Nat → Nat → Nat → Nat → Hash
  /-- What the engine is created with besides its kings. -/
  engine : RewardEngine

/-- The backend, the engine and the store; `checked` are the registrations found eligible but not recorded yet. -/
structure KingNode where
  table : KingTable
  engine : RewardEngine
  storedAddresses : List Address
  storedLocks : List (Address × KingLock)
  chain : List KingBlock
  checked : List Address

def rkRequiredStake : Nat := 50000 * ether

def rkAntarticalRequiredStake : Nat := 100000 * ether

def rkRegistrationFee : Nat := ether

def rkLockPeriod : Nat := 30 * 24 * 3600 * 10 ^ 9

def targetBlockTimeSeconds : Nat := 120

namespace KingNode

section
variable (env : KingEnv) (n : KingNode)

def headNumber : Nat := n.chain.length - 1

def headBalance (a : Address) : Nat := (n.chain.getLast?.map fun b => b.balance a).getD 0

def rotatingKingRequiredStake : Nat :=
  match n.chain.getLast? with
  | some b => if env.cfg.isAntartical n.headNumber b.time then rkAntarticalRequiredStake else rkRequiredStake
  | none => rkRequiredStake

def nextRotatingKingActivationHeight : Nat :=
  if n.chain = [] then 0 else (n.headNumber / env.interval + 1) * env.interval

def nextRotatingKingAddedHeight : Nat := n.chain.length

def unlockHeightForTime (unlock now : Nat) : Nat :=
  if n.chain = [] then 0
  else
    let seconds := (unlock - now) / 10 ^ 9
    n.headNumber + seconds / targetBlockTimeSeconds + if seconds % targetBlockTimeSeconds ≠ 0 then 1 else 0

/-! ### Stores -/

def persistRotatingKingLocks : KingNode :=
  { n with storedLocks := n.table.kings.filterMap fun a => (n.table.locks a).map fun info =>
      (a, { info with unlockTime := info.unlockTime / 10 ^ 9 * 10 ^ 9 }) }

def writeRotatingKingAddresses : KingNode := { n with storedAddresses := n.table.kings }

/-- The lock is set, then `addRotatingKingAddressLocked`. -/
def setRotatingKingLock (a : Address) (info : KingLock) : KingNode :=
  { n with
    table := n.table.lock a info
    storedAddresses := if a ∈ n.table.kings then n.storedAddresses else (n.table.lock a info).kings
    engine := n.engine.addRotatingKingAt a info.activationHeight }

def loadRotatingKingLocks : KingNode :=
  n.storedLocks.foldl (fun n (a, info) => n.setRotatingKingLock a { info with
    hash := if info.hash = 0 then
      env.registrationHash a info.unlockTime info.unlockHeight info.activationHeight info.addedHeight else info.hash }) n

def registeredRotatingKings (preferred : List Address) (locks : List (Address × KingLock)) : KingTable :=
  let locked := (locks.map Prod.fst).filter (· ≠ 0)
  (preferred.filter (· ∈ locked) ++ locked).foldl KingTable.add .empty

def loadRotatingKingState : KingNode :=
  if n.storedAddresses = [] ∧ n.storedLocks = [] then n
  else loadRotatingKingLocks env
    { n with table := registeredRotatingKings n.storedAddresses n.storedLocks }

/-! ### Kings that leave -/

def expired (currentHeight : Nat) (a : Address) : Bool :=
  (n.table.locks a).any fun info => info.unlockHeight ≠ 0 ∧ info.unlockHeight ≤ currentHeight

def pruneExpiredRotatingKings (currentHeight : Nat) : KingNode × Bool :=
  ({ n with table := n.table.retain fun a => !n.expired currentHeight a }, n.table.kings.any (n.expired currentHeight))

def underfunded (a : Address) : Bool := n.headBalance a < n.rotatingKingRequiredStake env

def removeUnderfundedRotatingKings : KingNode × Bool :=
  if n.chain = [] then (n, false)
  else if n.table.kings.any (n.underfunded env) then
    (persistRotatingKingLocks { n with table := n.table.retain fun a => !n.underfunded env a }, true)
  else (n, false)

def releaseUnlockedRotatingKings : KingNode :=
  if n.chain = [] then (n.removeUnderfundedRotatingKings env).1
  else
    let (pruned, changed) := n.pruneExpiredRotatingKings n.headNumber
    let kept := if changed then pruned.writeRotatingKingAddresses.persistRotatingKingLocks else pruned
    (kept.removeUnderfundedRotatingKings env).1

/-! ### Registrations -/

def eligible (a : Address) : Prop :=
  a ≠ 0 ∧ n.chain ≠ [] ∧ n.headBalance a ≠ 0 ∧
    n.rotatingKingRequiredStake env + rkRegistrationFee ≤ n.headBalance a

instance (a : Address) : Decidable (n.eligible env a) := inferInstanceAs (Decidable (_ ∧ _ ∧ _ ∧ _))

def mergeLock (info current : KingLock) : KingLock where
  hash := if current.hash ≠ 0 then current.hash else info.hash
  unlockTime := max info.unlockTime current.unlockTime
  unlockHeight := max info.unlockHeight current.unlockHeight
  activationHeight :=
    if current.activationHeight ≠ 0 ∧
        (info.activationHeight = 0 ∨ current.activationHeight < info.activationHeight) then current.activationHeight
    else info.activationHeight
  addedHeight :=
    if current.addedHeight ≠ 0 ∧ (info.addedHeight = 0 ∨ current.addedHeight < info.addedHeight) then
      current.addedHeight
    else info.addedHeight

def recordRotatingKing (a : Address) (unlock unlockHeight : Nat) : KingNode :=
  if a = 0 then n
  else
    let added := n.nextRotatingKingAddedHeight
    let activation := if a ∈ n.table.kings then 0 else n.nextRotatingKingActivationHeight env
    let info : KingLock :=
      { hash := env.registrationHash a unlock unlockHeight activation added, unlockTime := unlock,
        unlockHeight := unlockHeight, activationHeight := activation, addedHeight := added }
    match n.table.locks a with
    | some current =>
      if mergeLock info current = current then n
      else (n.setRotatingKingLock a (mergeLock info current)).persistRotatingKingLocks
    | none => (n.setRotatingKingLock a info).persistRotatingKingLocks

/-! ### Headers -/

def recoverRotatingKingFromHeader (extra : Bytes) (currentHeight : Nat) : KingNode × Bool :=
  match decodeRotatingKingHeaderExtra extra with
  | none => (n, false)
  | some m =>
    if m.liveAt currentHeight then
      let replaces := m.full && (n.table.locks m.address).all fun current => current.hash = 0 || current.addedHeight = 0
      let hash := if m.hash = 0 then
        env.registrationHash m.address m.unlockTime m.unlockHeight m.activationHeight m.addedHeight else m.hash
      let info : KingLock :=
        { hash := hash, unlockTime := m.unlockTime, unlockHeight := m.unlockHeight,
          activationHeight := m.activationHeight, addedHeight := m.addedHeight }
      ({ n with
          table := if replaces then n.table.lock m.address info else n.table.add m.address
          engine := n.engine.addRotatingKingAt m.address m.activationHeight },
        decide (m.address ∉ n.table.kings) || replaces)
    else (n, false)

def pruneAndStore (currentHeight : Nat) (recovered : KingNode × Bool) : KingNode :=
  let (pruned, changed) := recovered.1.pruneExpiredRotatingKings currentHeight
  if recovered.2 || changed then pruned.writeRotatingKingAddresses.persistRotatingKingLocks else pruned

def recoverRotatingKingFromCanonicalHeader (extra : Bytes) (number : Nat) : KingNode :=
  pruneAndStore number (n.recoverRotatingKingFromHeader env extra number)

def recoverRotatingKingStateFromHeaders : KingNode :=
  if n.chain = [] then n
  else pruneAndStore n.headNumber (n.chain.foldl (fun (n', changed) b =>
    let (next, c) := n'.recoverRotatingKingFromHeader env b.extra n.headNumber
    (next, changed || c)) (n, false))

end

end KingNode

def startKingNode (env : KingEnv) (addresses : List Address) (locks : List (Address × KingLock)) (chain : List KingBlock) :
    KingNode :=
  let table := KingNode.registeredRotatingKings addresses locks
  let node : KingNode :=
    { table := table
      engine := { env.engine with
        rotatingKings := table.kings.filter (· ≠ 0), activation := fun _ => 0, rotationInterval := env.interval }
      storedAddresses := table.kings
      storedLocks := locks
      chain := chain
      checked := [] }
  (node.loadRotatingKingLocks env).recoverRotatingKingStateFromHeaders env

/-! ## Runs -/

/-- A registration is checked and recorded in two steps, between which the lock is free. -/
inductive KingEvent
  | head (chain : List KingBlock)
  | rpcCheck (a : Address)
  | rpcRecord (a : Address) (start now : Nat)
  | peerCheck (a : Address)
  | peerRecord (a : Address) (announced start now : Nat)
  /-- The queries of the API, which load the stored table and release kings. -/
  | query
  | restart

namespace KingNode

variable (env : KingEnv)

def checkRegistration (n : KingNode) (a : Address) : KingNode :=
  if a ∉ n.table.kings ∧ n.eligible env a then { n with checked := a :: n.checked } else n

def finishRegistration (n : KingNode) (a : Address) (unlock now : Nat) : KingNode :=
  let n' := { n with checked := n.checked.erase a }
  if a ∈ n'.table.kings then n' else n'.recordRotatingKing env a unlock (n'.unlockHeightForTime unlock now)

def step (n : KingNode) : KingEvent → KingNode
  | .head chain =>
    let n' := { n with chain := chain }
    match chain.getLast? with
    | some b => n'.recoverRotatingKingFromCanonicalHeader env b.extra n'.headNumber
    | none => n'
  | .rpcCheck a => ((n.loadRotatingKingState env).removeUnderfundedRotatingKings env).1.checkRegistration env a
  | .rpcRecord a start now =>
    if a ∈ n.checked then (n.loadRotatingKingState env).finishRegistration env a (start + rkLockPeriod) now else n
  | .peerCheck a => (n.removeUnderfundedRotatingKings env).1.checkRegistration env a
  | .peerRecord a announced start now =>
    if a ∈ n.checked then n.finishRegistration env a (max announced (start + rkLockPeriod)) now else n
  | .query => (n.loadRotatingKingState env).releaseUnlockedRotatingKings env
  | .restart => startKingNode env n.storedAddresses n.storedLocks n.chain

def run (genesis : KingBlock) (events : List KingEvent) : KingNode :=
  events.foldl (step env) (startKingNode env [] [] [genesis])

end KingNode

end TkmChain
